import Mathlib.Algebra.Order.Field.Rat
import Utos.Coroutine.Run
import Utos.Core.DomainTypes
import Utos.Core.Exceptions

namespace Utos.Exchanges.Http

open Coroutine Program Core.DomainTypes Core.Exceptions

/-- The exceptions of httpx that request catches. -/
inductive HttpxError
  | timeoutException
  | networkError
  deriving DecidableEq, Repr

structure RetryPolicy where
  maxRetries : Nat := 3
  baseDelay : ℚ := 1
  maxDelay : ℚ := 60
  exponentialBase : ℚ := 2
  retryableExceptions : HttpxError → Bool := fun _ => true
  retryableStatusCodes : List Nat := [429, 500, 502, 503, 504]

namespace RetryPolicy

variable (policy : RetryPolicy)

def shouldRetry (attempt : Nat) (exception : Option HttpxError := none) : Bool :=
  if policy.maxRetries ≤ attempt then false
  else match exception with
    | none => true
    | some exc => policy.retryableExceptions exc

def shouldRetryStatus (statusCode : Nat) : Bool := statusCode ∈ policy.retryableStatusCodes

def delayFor (attempt : Nat) : ℚ :=
  min (policy.baseDelay * policy.exponentialBase ^ (attempt - 1)) policy.maxDelay

end RetryPolicy

structure Response (β : Type) where
  statusCode : Nat
  body : β

/-- What client.request comes back with. Exceptions that request does not catch are raised. -/
inductive Reply (β : Type)
  | response (r : Response β)
  | timeout
  | networkError (message : String)
  | raised (exc : Exn)

/-- What is awaited: the rate limiter, the network, asyncio.sleep, and the
clock of the exchange, which _sync_time asks for. -/
inductive HttpReq
  | acquire (endpointKey : String) (tokens : ℚ)
  | send (method url : String)
  | sleep (delay : ℚ)
  | syncTime

abbrev HttpAns (β : Type) : HttpReq → Type
  | .acquire .. => Unit
  | .send .. => Reply β
  | .sleep _ => Unit
  | .syncTime => Except Exn Unit

abbrev HttpOp (β α : Type) := Program Unit HttpReq (HttpAns β) Exn α

/-- base_url is kept without slashes at its end. -/
structure HttpClient where
  baseUrl : String := ""
  retryPolicy : RetryPolicy := {}
  hasRateLimiter : Bool := false
  exchangeName : String := ""

/-- ErrorMapper.map_network_error -/
def mapNetworkError (exchangeName message : String) : Exn :=
  .exchange .exchangeConnectionError s!"Network error for {exchangeName}: {message}" exchangeName
    (some "NETWORK_ERROR")

namespace HttpClient

variable {β : Type} (c : HttpClient)

/-- The name of the error mapper. -/
def mapperName : String := if c.exchangeName = "" then "exchange" else c.exchangeName

/-- The loop of request. The first number bounds the iterations that are left;
the code raises after the loop, which it never leaves that way. -/
def attempts (method url : String) : Nat → Nat → HttpOp β (Response β)
  | 0, _ => .raise (mapNetworkError c.mapperName "HTTP request failed")
  | n + 1, attempt => .call (.send method url) (fun reply => match reply with
      | .response r =>
          if r.statusCode < 500 then .ret r
          else if ¬ c.retryPolicy.shouldRetryStatus r.statusCode then .ret r
          else if ¬ c.retryPolicy.shouldRetry attempt then .ret r
          else .call (.sleep (c.retryPolicy.delayFor attempt)) (fun _ => attempts method url n (attempt + 1))
      | .timeout =>
          if ¬ c.retryPolicy.shouldRetry attempt (some .timeoutException) then
            .raise (.timeoutError s!"HTTP request timed out after {attempt} attempts: {url}")
          else .call (.sleep (c.retryPolicy.delayFor attempt)) (fun _ => attempts method url n (attempt + 1))
      | .networkError message =>
          if ¬ c.retryPolicy.shouldRetry attempt (some .networkError) then
            .raise (mapNetworkError c.mapperName message)
          else .call (.sleep (c.retryPolicy.delayFor attempt)) (fun _ => attempts method url n (attempt + 1))
      | .raised exc => .raise exc)

/-- HttpClient._url -/
def url (path : String) : String :=
  let path := String.ofList (path.toList.dropWhile (· = '/'))
  s!"{c.baseUrl}/{path}"

def request (method path : String) (endpointKey : String := "default") (rateLimitTokens : ℚ := 1) :
    HttpOp β (Response β) :=
  let loop := c.attempts (upper method) (c.url path) (c.retryPolicy.maxRetries + 1) 1
  if c.hasRateLimiter then .call (.acquire endpointKey rateLimitTokens) (fun _ => loop) else loop

def post (path : String) : HttpOp β (Response β) := c.request "POST" path

/-- Another attempt is made after the reply, as far as the number of attempts goes. -/
def retries (reply : Reply β) : Bool :=
  match reply with
  | .response r => decide (500 ≤ r.statusCode) && c.retryPolicy.shouldRetryStatus r.statusCode
  | .timeout => c.retryPolicy.retryableExceptions .timeoutException
  | .networkError _ => c.retryPolicy.retryableExceptions .networkError
  | .raised _ => false

/-- What request makes of the last reply that it gets. -/
inductive Returns : Reply β → Except Exn (Response β) → Prop
  | response (r) : Returns (.response r) (.ok r)
  | timeout (message) : Returns .timeout (.error (.timeoutError message))
  | networkError (m name message) : Returns (.networkError m) (.error (mapNetworkError name message))
  | raised (exc) : Returns (.raised exc) (.error exc)

end HttpClient

variable {β : Type}

/-- The replies to the requests that a handler is sent, by their numbers. Its state counts the requests. -/
structure Answers (h : Handler Nat HttpReq (HttpAns β)) (outcome : Nat → Reply β) : Prop where
  send : ∀ k method url, h k (.send method url) = (outcome k, k + 1)
  sleep : ∀ k delay, h k (.sleep delay) = ((), k)

variable {h : Handler Nat HttpReq (HttpAns β)} {outcome : Nat → Reply β} {c : HttpClient} {method url : String}
  {R : Except Exn (Response β) → Unit → Nat → Prop} {n a k : Nat}

theorem shouldRetry_iff (policy : RetryPolicy) (attempt : Nat) (exception : Option HttpxError) :
    policy.shouldRetry attempt exception = true ↔
      attempt < policy.maxRetries ∧ ∀ exc ∈ exception, policy.retryableExceptions exc = true := by
  unfold RetryPolicy.shouldRetry
  by_cases h : policy.maxRetries ≤ attempt
  · simp [h, Nat.not_lt.mpr h]
  · cases exception <;> simp [h, Nat.not_le.mp h]

/-- One pass of the loop: another attempt follows exactly when the reply is one that is
retried and the attempts are not used up. -/
theorem wp_attempt_cases (hanswers : Answers h outcome)
    (hmore : c.retries (outcome k) = true → a < c.retryPolicy.maxRetries →
      wp h (c.attempts method url n (a + 1)) R () (k + 1))
    (hdone : ¬ (c.retries (outcome k) = true ∧ a < c.retryPolicy.maxRetries) →
      ∀ r, HttpClient.Returns (outcome k) r → R r () (k + 1)) :
    wp h (c.attempts method url (n + 1) a) R () k := by
  simp only [HttpClient.attempts, wp_call, hanswers.send]
  cases hreply : outcome k with
  | response r =>
      rw [hreply] at hmore hdone
      simp only [HttpClient.retries, Bool.and_eq_true, decide_eq_true_eq] at hmore hdone
      dsimp only
      split
      next hlow => exact hdone (fun h => absurd hlow (Nat.not_lt.mpr h.1.1)) _ (.response r)
      next hhigh =>
        split
        next hno => exact hdone (fun h => hno h.1.2) _ (.response r)
        next hstatus =>
          split
          next hno => exact hdone (fun h => hno ((shouldRetry_iff _ _ _).mpr ⟨h.2, by simp⟩)) _ (.response r)
          next hretry =>
            have hlt := ((shouldRetry_iff _ _ _).mp (not_not.mp hretry)).1
            rw [wp_call, hanswers.sleep]
            exact hmore ⟨Nat.not_lt.mp hhigh, not_not.mp hstatus⟩ hlt
  | timeout =>
      rw [hreply] at hmore hdone
      dsimp only
      split
      next hno =>
        refine hdone (fun h => hno ((shouldRetry_iff _ _ _).mpr ⟨h.2, fun exc hexc => ?_⟩)) _ (.timeout _)
        cases hexc
        exact h.1
      next hretry =>
        obtain ⟨hlt, hexc⟩ := (shouldRetry_iff _ _ _).mp (not_not.mp hretry)
        rw [wp_call, hanswers.sleep]
        exact hmore (hexc _ rfl) hlt
  | networkError message =>
      rw [hreply] at hmore hdone
      dsimp only
      split
      next hno =>
        refine hdone (fun h => hno ((shouldRetry_iff _ _ _).mpr ⟨h.2, fun exc hexc => ?_⟩)) _ (.networkError _ _ _)
        cases hexc
        exact h.1
      next hretry =>
        obtain ⟨hlt, hexc⟩ := (shouldRetry_iff _ _ _).mp (not_not.mp hretry)
        rw [wp_call, hanswers.sleep]
        exact hmore (hexc _ rfl) hlt
  | raised exc =>
      rw [hreply] at hdone
      exact hdone (fun h => by cases h.1) _ (.raised exc)

end Utos.Exchanges.Http
