import Utos.Coroutine.Trace
import Utos.Exchanges.Http
import Utos.Exchanges.RateLimit

namespace Utos.Exchanges.RestCalls

open Coroutine Core Core.DomainTypes Core.Exceptions Http RateLimit

variable {β : Type}

inductive Method
  | get
  | post
  | put
  | delete
  deriving DecidableEq, Repr

/-- HttpClient.get, post, put and delete as the Binance adapter calls them, without an endpoint key. -/
def perform (c : HttpClient) (method : Method) (path : String) : HttpOp β (Response β) :=
  match method with
  | .get => c.request "GET" path
  | .post => c.post path
  | .put => c.request "PUT" path
  | .delete => c.request "DELETE" path

/-- What BinanceAdapter.initialize reads of the configuration. -/
structure ExchangeAdapterConfig where
  exchangeName : String := ""
  isTestnet : Bool := false
  restUrl : String := ""

def restMainnet : String := "https://api.binance.com"

def restTestnet : String := "https://testnet.binance.vision"

def restUrl (config : ExchangeAdapterConfig) : String :=
  let url := if config.isTestnet then restTestnet else if config.restUrl = "" then restMainnet else config.restUrl
  String.ofList (url.toList.reverse.dropWhile (· = '/')).reverse

def restConfig : RateLimitConfig := ⟨1200, 20⟩

def websocketConfig : RateLimitConfig := ⟨5, 5⟩

/-- The rate limiter that initialize makes. -/
def adapterLimiter : RateLimiter := (RateLimiter.configure {} "rest" restConfig).configure "websocket" websocketConfig

def adapterPolicy : RetryPolicy :=
  { maxRetries := 3, baseDelay := 1 / 2, exponentialBase := 2, retryableStatusCodes := [408, 429, 500, 502, 503, 504] }

/-- The HTTP client of an adapter with its rate limiter. -/
structure RestClient where
  http : HttpClient
  rateLimiter : RateLimiter

/-- BinanceAdapter.initialize, for its HTTP client: one that the adapter was given keeps the
rate limiter that it has. -/
def initializeHttp (given : Option (HttpClient × Option RateLimiter)) (config : ExchangeAdapterConfig) : RestClient :=
  let name := if config.exchangeName = "" then "binance" else config.exchangeName
  match given with
  | none =>
      { http := { baseUrl := restUrl config, retryPolicy := adapterPolicy, hasRateLimiter := true, exchangeName := name }
        rateLimiter := adapterLimiter }
  | some (http, limiter) =>
      { http := { http with baseUrl := restUrl config, hasRateLimiter := true, exchangeName := name }
        rateLimiter := limiter.getD adapterLimiter }

/-- The calls of a client, by their numbers, each with the moment since which it waits, and
the times at which a request was sent. -/
structure Rest (β : Type) where
  limiting : Acquiring
  calls : Nat → Option (ℚ × HttpOp β (Response β)) := fun _ => none
  sent : List ℚ := []

/-- What happens next. A signed call makes one call of the client for each of its attempts, and one for the time. -/
inductive Event (β : Type)
  | call (method : Method) (path : String)
  | enter
  | wake
  | reply (id : Nat) (reply : Reply β)
  | awake (id : Nat)
  | elapse (d : ℚ≥0)

namespace Rest

variable (s : Rest β)

def now : ℚ := s.limiting.now

/-- A call goes on to its next await. -/
def proceed (id : Nat) (p : HttpOp β (Response β)) : Rest β :=
  { s with calls := Function.update s.calls id (some (s.now, p))
           sent := match p with
             | .call (.send ..) _ => s.sent ++ [s.now]
             | _ => s.sent }

/-- A call returns from acquire. -/
def acquired (r : Nat × Except Exn ℚ) : Rest β :=
  match s.calls r.1 with
  | some (_, .call (.acquire ..) resume) => match r.2 with
      | .ok _ => s.proceed r.1 (resume ())
      | .error exc => s.proceed r.1 (.raise exc)
  | _ => s

/-- The limiter takes a step, for the key under which the calls take their tokens. -/
def limited (e : RateLimit.Event) : Rest β :=
  let limiting := RateLimit.step "default" s.limiting e
  (limiting.returned.drop s.limiting.returned.length).foldl acquired { s with limiting := limiting }

def begin (p : HttpOp β (Response β)) : Rest β :=
  match p with
  | .call (.acquire _ tokens) _ =>
      { s with calls := Function.update s.calls s.limiting.made (some (s.now, p)) }.limited (.acquire tokens)
  | p => s.proceed s.limiting.made p

end Rest

def step (c : HttpClient) (s : Rest β) : Event β → Rest β
  | .call method path => s.begin (perform c method path)
  | .enter => s.limited .enter
  | .wake => s.limited .wake
  | .reply id reply => match s.calls id with
      | some (_, .call (.send ..) resume) => s.proceed id (resume reply)
      | _ => s
  | .awake id => match s.calls id with
      | some (since, .call (.sleep delay) resume) => if since + delay ≤ s.now then s.proceed id (resume ()) else s
      | _ => s
  | .elapse d => { s with limiting := RateLimit.step "default" s.limiting (.elapse d) }

def opening (r : RateLimiter) (start : ℚ) : Rest β := { limiting := { limiter := r, now := start } }

/-- The bucket that was configured for REST calls, if it had been charged with one token for each request. -/
def charged (start : ℚ) (s : Rest β) : TokenBucket.Bucket ℚ :=
  TokenBucket.drawn restConfig.bucket ⟨restConfig.maxTokens, start⟩ (s.sent.map (fun t => (t, 1)))

/-- If a request is sent, there is a token for it in that bucket. -/
def Covered (c : HttpClient) (start : ℚ) (s : Rest β) (e : Event β) : Prop :=
  (step c s e).sent ≠ s.sent → 1 ≤ TokenBucket.levelAt restConfig.bucket (charged start s) s.now

/-- At most one request is sent, and time does not go back. -/
structure Advance (s s' : Rest β) : Prop where
  sent : s'.sent = s.sent ∨ s'.sent = s.sent ++ [s.now]
  now : s.now ≤ s'.now

variable {s : Rest β}

theorem Advance.refl (s : Rest β) : Advance s s := ⟨.inl rfl, le_rfl⟩

theorem proceed_advance (s : Rest β) (id : Nat) (p : HttpOp β (Response β)) : Advance s (s.proceed id p) := by
  refine ⟨?_, le_rfl⟩
  match p with
  | .call (.send ..) _ => exact .inr rfl
  | .call (.acquire ..) _ | .call (.sleep _) _ | .call .syncTime _ => exact .inl rfl
  | .ret _ | .raise _ | .get _ | .put .. => exact .inl rfl

theorem acquired_advance (s : Rest β) (r : Nat × Except Exn ℚ) : Advance s (s.acquired r) := by
  rw [Rest.acquired]
  split
  · split
    · exact proceed_advance s _ _
    · exact proceed_advance s _ _
  · exact Advance.refl s

theorem limited_advance (s : Rest β) {e : RateLimit.Event} (he : ∀ d, e ≠ .elapse d) : Advance s (s.limited e) := by
  have hnow : (RateLimit.step "default" s.limiting e).now = s.limiting.now := now_step s.limiting he
  have hone : ∀ r, (RateLimit.step "default" s.limiting e).returned = s.limiting.returned ++ [r] → Advance s (s.limited e) := by
    intro r hreturned
    obtain ⟨hsent, hlater⟩ := acquired_advance { s with limiting := RateLimit.step "default" s.limiting e } r
    rw [Rest.limited, hreturned, List.drop_left]
    exact ⟨hsent.imp id (fun h => h.trans (by rw [Rest.now, hnow, Rest.now])), hnow.ge.trans hlater⟩
  have houtcome : Outcome _ s.limiting (RateLimit.step "default" s.limiting e) := step_outcome s.limiting e
  cases houtcome with
  | granted call waited _ hreturned _ => exact hone _ hreturned
  | free call _ _ hreturned _ => exact hone _ hreturned
  | refused call exc _ hreturned _ => exact hone _ hreturned
  | none hreturned _ =>
      rw [Rest.limited, hreturned, List.drop_length]
      exact ⟨.inl rfl, hnow.ge⟩

theorem step_advance (c : HttpClient) (s : Rest β) (e : Event β) : Advance s (step c s e) := by
  cases e with
  | call method path =>
      simp only [step]
      unfold Rest.begin
      split
      next tokens _ _ =>
        have hlimited := limited_advance { s with calls := Function.update s.calls s.limiting.made (some (s.now, perform c method path)) }
          (e := .acquire tokens) (by simp)
        exact ⟨hlimited.sent, hlimited.now⟩
      next => exact proceed_advance s _ _
  | enter | wake => exact limited_advance s (by simp)
  | reply id reply =>
      simp only [step]
      split
      · exact proceed_advance s _ _
      · exact Advance.refl s
  | awake id =>
      simp only [step]
      split
      · split
        · exact proceed_advance s _ _
        · exact Advance.refl s
      · exact Advance.refl s
  | elapse d => exact ⟨.inl rfl, le_add_of_nonneg_right d.coe_nonneg⟩

/-- Requests are sent one after the other, none before the start. -/
structure Timely (start : ℚ) (s : Rest β) : Prop where
  opened : start ≤ s.now
  since : ∀ t ∈ s.sent, start ≤ t
  before : ∀ t ∈ s.sent, t ≤ s.now
  sorted : s.sent.Pairwise (· ≤ ·)

variable {start : ℚ}

theorem Timely.step (h : Timely start s) (c : HttpClient) (e : Event β) : Timely start (step c s e) := by
  obtain ⟨hsent, hnow⟩ := step_advance c s e
  have hstart := h.opened.trans hnow
  rcases hsent with hsent | hsent
  · exact ⟨hstart, hsent ▸ h.since, fun t ht => (h.before t (hsent ▸ ht)).trans hnow, hsent ▸ h.sorted⟩
  · refine ⟨hstart, ?_, ?_, ?_⟩
    · rw [hsent, List.forall_mem_append]
      exact ⟨h.since, List.forall_mem_singleton.mpr h.opened⟩
    · rw [hsent, List.forall_mem_append]
      exact ⟨fun t ht => (h.before t ht).trans hnow, List.forall_mem_singleton.mpr hnow⟩
    · rw [hsent, List.pairwise_append]
      exact ⟨h.sorted, List.pairwise_singleton _ _, fun t ht u hu => (List.mem_singleton.mp hu) ▸ h.before t ht⟩

/-- No window of time sees more requests than the limit that was configured for REST calls. -/
def Limited (sent : List ℚ) : Prop :=
  ∀ t T, 0 ≤ T → (sent.countP (fun u => t ≤ u ∧ u ≤ t + T) : ℚ) ≤ restConfig.maxTokens + restConfig.refillRate * T

/-- The client of an adapter that was given none. -/
def client : RestClient := initializeHttp none {}

end Utos.Exchanges.RestCalls

namespace Utos.Exchanges.Attempts

open Coroutine Program Core.DomainTypes Core.Exceptions Http

variable {β : Type}

variable {h : Handler Nat HttpReq (HttpAns β)} {outcome : Nat → Reply β} {c : HttpClient} {method url : String}
  {R : Except Exn (Response β) → Unit → Nat → Prop} {n k : Nat}

/-- The requests from the first to the last: all but the last have been retried, and the
last is not, or the attempts are used up. -/
structure Ran (c : HttpClient) (outcome : Nat → Reply β) (first last : Nat) (r : Except Exn (Response β)) : Prop where
  le : first ≤ last
  room : last < c.retryPolicy.maxRetries
  retried : ∀ i, first ≤ i → i < last → c.retries (outcome i) = true
  ended : c.retries (outcome last) = true → last + 1 = c.retryPolicy.maxRetries
  returns : HttpClient.Returns (outcome last) r

theorem wp_attempts (hanswers : Answers h outcome) (hn : k + n = c.retryPolicy.maxRetries) (hroom : k < c.retryPolicy.maxRetries)
    (hR : ∀ last r, Ran c outcome k last r → R r () (last + 1)) :
    wp h (c.attempts method url (n + 1) (k + 1)) R () k := by
  induction n generalizing k with
  | zero => omega
  | succ n ih =>
      refine wp_attempt_cases hanswers (fun hretry hlt => ih (by omega) hlt (fun last r hran => ?_)) (fun hno r hr => ?_)
      · refine hR last r ⟨(Nat.le_succ k).trans hran.le, hran.room, fun i hi hlast => ?_, hran.ended, hran.returns⟩
        rcases Nat.eq_or_lt_of_le hi with rfl | hi
        · exact hretry
        · exact hran.retried i hi hlast
      · refine hR k r ⟨le_rfl, hroom, fun i hi hlast => absurd hlast (Nat.not_lt.mpr hi), fun hretry => ?_, hr⟩
        have hlast : ¬ k + 1 < c.retryPolicy.maxRetries := fun hlt => hno ⟨hretry, hlt⟩
        omega

/-- The single requests get these outcomes, one after the other. -/
def replies (outcome : Nat → Reply β) : Handler Nat HttpReq (HttpAns β)
  | k, .acquire .. => ((), k)
  | k, .send .. => (outcome k, k + 1)
  | k, .sleep _ => ((), k)
  | k, .syncTime => (.ok (), k)

theorem answers_replies (outcome : Nat → Reply β) : Answers (replies outcome) outcome :=
  ⟨fun _ _ _ => rfl, fun _ _ => rfl⟩

/-- The requests that were sent, and the result, are those that the policy asks for. -/
structure Honours (policy : RetryPolicy) (outcome : Nat → Reply β) (sent : Nat) (result : Except Exn (Response β)) :
    Prop where
  pos : 0 < sent
  atMost : sent ≤ policy.maxRetries
  stops : ∀ i r, i + 1 < sent → outcome i = .response r → r.statusCode ∈ policy.retryableStatusCodes
  retries : ∀ i r, i < sent → outcome i = .response r → r.statusCode ∈ policy.retryableStatusCodes →
    i + 1 < policy.maxRetries → i + 1 < sent
  returns : ∀ i r, i + 1 = sent → outcome i = .response r → result = .ok r

/-- No response that request comes to, all those before it having been retried, has a
retryable status below 500, but for the last that there may be. -/
def NoneBelow (c : HttpClient) (outcome : Nat → Reply β) : Prop :=
  ∀ i r, i + 1 < c.retryPolicy.maxRetries → (∀ j < i, c.retries (outcome j) = true) → outcome i = .response r →
    r.statusCode < 500 → r.statusCode ∉ c.retryPolicy.retryableStatusCodes

theorem retries_response (c : HttpClient) (r : Response β) : c.retries (.response r) = true ↔
    500 ≤ r.statusCode ∧ r.statusCode ∈ c.retryPolicy.retryableStatusCodes := by
  simp [HttpClient.retries, RetryPolicy.shouldRetryStatus]

theorem Ran.honours_iff {last : Nat} {r : Except Exn (Response β)} (hran : Ran c outcome 0 last r) :
    Honours c.retryPolicy outcome (last + 1) r ↔ NoneBelow c outcome := by
  constructor
  · intro hhonours i response hroom hbefore hreply hlow hcode
    have hle : i ≤ last := by
      refine Nat.le_of_not_lt (fun hlast => ?_)
      have hended := hran.ended (hbefore last hlast)
      omega
    have hmore := hhonours.retries i response (Nat.lt_succ_of_le hle) hreply hcode hroom
    have hretried := hran.retried i (Nat.zero_le i) (Nat.lt_of_succ_lt_succ hmore)
    rw [hreply, retries_response] at hretried
    exact absurd hlow (Nat.not_lt.mpr hretried.1)
  · intro hnone
    refine ⟨Nat.succ_pos last, hran.room, fun i response hi hreply => ?_, fun i response hi hreply hcode hroom => ?_,
      fun i response hi hreply => ?_⟩
    · have hretried := hran.retried i (Nat.zero_le i) (Nat.lt_of_succ_lt_succ hi)
      rw [hreply, retries_response] at hretried
      exact hretried.2
    · refine Nat.succ_lt_succ (Nat.lt_of_le_of_ne (Nat.le_of_lt_succ hi) ?_)
      rintro rfl
      have hhigh : 500 ≤ response.statusCode :=
        Nat.le_of_not_lt (fun hlow => hnone i response hroom (fun j => hran.retried j (Nat.zero_le j)) hreply hlow hcode)
      have hended := hran.ended (hreply ▸ (retries_response c response).mpr ⟨hhigh, hcode⟩)
      omega
    · cases Nat.succ.inj hi
      have hreturns := hran.returns
      rw [hreply] at hreturns
      cases hreturns
      rfl

/-- A request is retried as the policy says exactly when none of the responses it comes
to is one that it returns for its status before it asks the policy. -/
theorem request_honours_iff (c : HttpClient) (hmax : 1 ≤ c.retryPolicy.maxRetries) (outcome : Nat → Reply β)
    (method path endpointKey : String) (tokens : ℚ) :
    Honours c.retryPolicy outcome
        (run (replies outcome) (c.request method path endpointKey tokens : HttpOp β (Response β)) () 0).2.2
        (run (replies outcome) (c.request method path endpointKey tokens : HttpOp β (Response β)) () 0).1 ↔
      NoneBelow c outcome := by
  have hloop : wp (replies outcome) (c.attempts (upper method) (c.url path) (c.retryPolicy.maxRetries + 1) 1)
      (fun r _ sent => Honours c.retryPolicy outcome sent r ↔ NoneBelow c outcome) () 0 :=
    wp_attempts (answers_replies outcome) (Nat.zero_add _) hmax (fun last r hran => hran.honours_iff)
  rw [HttpClient.request]
  split
  · exact hloop
  · exact hloop

theorem request_honours_iff_binance : Honours RestCalls.client.http.retryPolicy (fun _ => Reply.response ⟨503, ()⟩)
    (run (replies (fun _ => Reply.response ⟨503, ()⟩)) (RestCalls.client.http.request "GET" "/api/v3/time" : HttpOp Unit _) () 0).2.2
    (run (replies (fun _ => Reply.response ⟨503, ()⟩)) (RestCalls.client.http.request "GET" "/api/v3/time" : HttpOp Unit _) () 0).1 := by
  refine (request_honours_iff RestCalls.client.http (by decide) (fun _ => .response ⟨503, ()⟩) "GET" "/api/v3/time"
    "default" 1).mpr (fun i r _ _ hreply hlow => ?_)
  cases hreply
  exact absurd hlow (by decide)

/-- The Binance adapter asks for retries of 429, and gets none. -/
theorem tooMany_unretried : ¬ Honours RestCalls.client.http.retryPolicy (fun _ => Reply.response ⟨429, ()⟩)
    (run (replies (fun _ => Reply.response ⟨429, ()⟩)) (RestCalls.client.http.request "GET" "/api/v3/time" : HttpOp Unit _) () 0).2.2
    (run (replies (fun _ => Reply.response ⟨429, ()⟩)) (RestCalls.client.http.request "GET" "/api/v3/time" : HttpOp Unit _) () 0).1 := by
  intro hhonours
  have hmore := hhonours.retries 0 ⟨429, ()⟩ hhonours.pos rfl (by decide) (by decide)
  exact absurd hmore (by decide)

end Utos.Exchanges.Attempts
