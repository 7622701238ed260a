import Mathlib.Algebra.Order.Field.Rat
import Mathlib.Data.NNRat.Defs
import Utos.Core.Dict

namespace Utos.Core.Middleware

def rateLimits : List (String × Nat) :=
  [("/api/v1/auth/login", 5), ("/api/v1/auth/register", 5), ("/api/v1/auth/refresh", 10)]

def defaultApiLimit : Nat := 100

def limitOf (path : String) : Nat := (rateLimits.lookup path).getD defaultApiLimit

def isApi (path : String) : Bool := "/api/".toList.isPrefixOf path.toList

def windowSeconds : ℚ := 60

/-- A key of Redis: its sorted set, by members, and when it expires. A key that is not there has no members. -/
structure Key where
  members : Dict String ℚ := ∅
  expireAt : Option ℚ := none

abbrev Redis := String → Key

namespace Key

/-- The sorted set as a command finds it: an expired key is gone. -/
def found (k : Key) (now : ℚ) : Dict String ℚ :=
  match k.expireAt with
  | some t => if t ≤ now then ∅ else k.members
  | none => k.members

/-- What ZREMRANGEBYSCORE key 0 limit leaves of a sorted set. -/
def trimmed (members : Dict String ℚ) (limit : ℚ) : Dict String ℚ :=
  members.filter (fun score => !(0 ≤ score ∧ score ≤ limit))

/-- The members that a request at a time does not find expired. -/
def remaining (k : Key) (now : ℚ) : Dict String ℚ := trimmed (k.found now) (now - windowSeconds)

/-- The pipeline of a request, whose member is the text of its clock reading. -/
def pipeline (k : Key) (member : String) (now : ℚ) : Key :=
  { members := (k.remaining now).set member now, expireAt := some (now + windowSeconds) }

end Key

structure Request where
  path : String
  host : Option String
  deriving DecidableEq, Repr

def Request.key (request : Request) : String :=
  let client := request.host.getD "unknown"
  s!"ratelimit:{client}:{request.path}"

/-- How a request finds Redis: get_redis returns none; the pipeline is executed; it raises, having been
executed or not, and the clock is read once more. -/
inductive Reach
  | absent
  | reached
  | failed (executed : Bool) (reading : ℚ≥0)
  deriving DecidableEq

/-- A request and the two readings of the clock, which counts the seconds since 1970. -/
structure Arrival where
  request : Request
  checked : ℚ≥0
  now : ℚ≥0
  reach : Reach
  deriving DecidableEq

/-- The response to a request that is over the limit. -/
structure Refusal where
  statusCode : Nat
  code : String
  message : String
  retryAfter : String
  deriving DecidableEq, Repr

def refusal (limit : Nat) : Refusal where
  statusCode := 429
  code := "RATE_LIMIT_EXCEEDED"
  message := s!"Rate limit exceeded. Maximum {limit} requests per minute."
  retryAfter := "60"

structure RateLimitMiddleware where
  redisFailures : Nat := 0
  circuitOpenUntil : ℚ := 0
  deriving DecidableEq, Repr

/-- except Exception as exc -/
def RateLimitMiddleware.failed (m : RateLimitMiddleware) (reading : ℚ) : RateLimitMiddleware :=
  { redisFailures := m.redisFailures + 1
    circuitOpenUntil := if 3 ≤ m.redisFailures + 1 then reading + 30 else m.circuitOpenUntil }

/-- The middleware, Redis, the requests to the API that were let through, with the time that
was counted for them, and the responses to the others. -/
structure Serving where
  middleware : RateLimitMiddleware := {}
  redis : Redis := fun _ => {}
  through : List (Request × ℚ) := []
  refused : List (Request × Refusal) := []

namespace Serving

variable (s : Serving)

/-- await call_next(request) -/
def callNext (request : Request) (now : ℚ) : Serving := { s with through := s.through ++ [(request, now)] }

/-- Redis once the pipeline of a request has been executed. -/
def execute (str : ℚ → String) (request : Request) (now : ℚ) : Redis :=
  Function.update s.redis request.key ((s.redis request.key).pipeline (str now) now)

def dispatch (str : ℚ → String) (a : Arrival) : Serving :=
  if !isApi a.request.path then s
  else if a.checked < s.middleware.circuitOpenUntil then s.callNext a.request a.checked
  else match a.reach with
    | .absent => s.callNext a.request a.checked
    | .failed executed reading =>
        { s with middleware := s.middleware.failed reading
                 redis := if executed then s.execute str a.request a.now else s.redis }.callNext a.request a.now
    | .reached =>
        let redis := s.execute str a.request a.now
        let limit := limitOf a.request.path
        let s := { s with middleware := { s.middleware with redisFailures := 0 }, redis := redis }
        if limit < (redis a.request.key).members.entries.length then
          { s with refused := s.refused ++ [(a.request, refusal limit)] }
        else s.callNext a.request a.now

end Serving

end Utos.Core.Middleware
