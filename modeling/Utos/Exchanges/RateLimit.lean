import Mathlib.Algebra.Order.Field.Rat
import Mathlib.Data.NNRat.Defs
import Utos.Core.Exceptions
import Utos.Core.TokenBucket

namespace Utos.Exchanges.RateLimit

open Core Core.Exceptions

structure RateLimitConfig where
  maxTokens : ℚ
  refillRate : ℚ
  deriving DecidableEq, Repr

/-- RateLimiter without its lock. A key that a dict does not have is none. -/
structure RateLimiter where
  default : RateLimitConfig := { maxTokens := 120, refillRate := 120 }
  configs : String → Option RateLimitConfig := fun _ => none
  tokens : String → Option ℚ := fun _ => none
  lastUpdate : String → Option ℚ := fun _ => none

namespace RateLimiter

variable (r : RateLimiter)

def configure (endpoint : String) (config : RateLimitConfig) : RateLimiter :=
  { r with configs := Function.update r.configs endpoint (some config)
           tokens := Function.update r.tokens endpoint (some config.maxTokens) }

def getConfig (endpoint : String) : RateLimitConfig := (r.configs endpoint).getD r.default

/-- self._tokens[endpoint] -/
def level (endpoint : String) : ℚ := (r.tokens endpoint).getD r.default.maxTokens

/-- _refill; a bucket that has not been refilled yet was last updated just now. -/
def refill (endpoint : String) (now : ℚ) : RateLimiter :=
  let elapsed := now - (r.lastUpdate endpoint).getD now
  let config := r.getConfig endpoint
  { r with lastUpdate := Function.update r.lastUpdate endpoint (some now)
           tokens := Function.update r.tokens endpoint
             (some (min config.maxTokens (r.level endpoint + elapsed * config.refillRate))) }

/-- self._tokens[endpoint] -= tokens -/
def spend (endpoint : String) (tokens : ℚ) : RateLimiter :=
  { r with tokens := Function.update r.tokens endpoint (some (r.level endpoint - tokens)) }

def canAcquire (endpoint : String) (tokens now : ℚ) : Bool × RateLimiter :=
  (tokens ≤ (r.refill endpoint now).level endpoint, r.refill endpoint now)

end RateLimiter

/-- A call of acquire, by a number of its own. -/
structure Call where
  id : Nat
  tokens : ℚ
  deriving DecidableEq, Repr

/-- The call that holds the lock, which sleeps in its loop: the configuration it has read, what
it has waited until then, and the first moment at which the sleep may be over. -/
structure Sleeper where
  call : Call
  config : RateLimitConfig
  waited : ℚ
  wakeAt : ℚ
  deriving DecidableEq, Repr

/-- The calls for one endpoint. The lock is handed to the calls that wait for it in their order. -/
structure Acquiring where
  limiter : RateLimiter
  now : ℚ
  holder : Option Sleeper := none
  waiting : List Call := []
  made : Nat := 0
  returned : List (Nat × Except Exn ℚ) := []
  granted : List (ℚ × ℚ) := []

/-- What happens next: a call is made, the first call that waits for the lock goes on when it
is free, the sleep of the holder ends if it is over, and time passes. -/
inductive Event
  | acquire (tokens : ℚ)
  | canAcquire (tokens : ℚ)
  | enter
  | wake
  | elapse (d : ℚ≥0)
  deriving DecidableEq

variable (endpoint : String)

def capacityError (tokens maxTokens : ℚ) : Exn :=
  .other "ValueError" s!"Request tokens ({tokens}) exceed bucket capacity ({maxTokens})"

/-- The call leaves the lock. -/
def Acquiring.leave (s : Acquiring) (call : Call) (result : Except Exn ℚ) : Acquiring :=
  { s with holder := none, returned := s.returned ++ [(call.id, result)] }

/-- One pass of the loop of acquire, up to its sleep. -/
def Acquiring.pass (s : Acquiring) (call : Call) (config : RateLimitConfig) (waited : ℚ) : Acquiring :=
  let limiter := s.limiter.refill endpoint s.now
  if call.tokens ≤ limiter.level endpoint then
    { s with limiter := limiter.spend endpoint call.tokens, granted := s.granted ++ [(s.now, call.tokens)] }.leave
      call (.ok waited)
  else if config.refillRate = 0 then
    { s with limiter := limiter }.leave call (.error (.other "ZeroDivisionError" "float division by zero"))
  else
    let waitTime := (call.tokens - limiter.level endpoint) / config.refillRate
    { s with limiter := limiter, holder := some ⟨call, config, waited + waitTime, s.now + waitTime⟩ }

/-- What acquire does when it has the lock. -/
def Acquiring.locked (s : Acquiring) (call : Call) : Acquiring :=
  let config := s.limiter.getConfig endpoint
  if config.maxTokens < call.tokens then s.leave call (.error (capacityError call.tokens config.maxTokens))
  else s.pass endpoint call config 0

def Acquiring.acquire (s : Acquiring) (tokens : ℚ) : Acquiring :=
  let call : Call := ⟨s.made, tokens⟩
  let s := { s with made := s.made + 1 }
  if tokens ≤ 0 then { s with returned := s.returned ++ [(call.id, .ok 0)] }
  else if s.holder = none ∧ s.waiting = [] then s.locked endpoint call
  else { s with waiting := s.waiting ++ [call] }

def step (s : Acquiring) : Event → Acquiring
  | .acquire tokens => s.acquire endpoint tokens
  | .canAcquire tokens => { s with limiter := (s.limiter.canAcquire endpoint tokens s.now).2 }
  | .enter => match s.holder, s.waiting with
      | none, call :: waiting => { s with waiting := waiting }.locked endpoint call
      | _, _ => s
  | .wake => match s.holder with
      | some sleeper => if sleeper.wakeAt ≤ s.now then s.pass endpoint sleeper.call sleeper.config sleeper.waited else s
      | none => s
  | .elapse d => { s with now := s.now + d }

/-- The calls that have not returned, in the order in which they have the lock. -/
def pending (s : Acquiring) : List Call := (s.holder.map Sleeper.call).toList ++ s.waiting

/-- What one step makes of the calls that ask for tokens: it lets one return, or none. -/
inductive Outcome (asks : Call → Prop) (s s' : Acquiring) : Prop
  | granted (call : Call) (waited : ℚ) (hasks : asks call) (hreturned : s'.returned = s.returned ++ [(call.id, .ok waited)])
      (hgranted : s'.granted = s.granted ++ [(s.now, call.tokens)])
  | free (call : Call) (hasks : asks call) (htokens : call.tokens ≤ 0)
      (hreturned : s'.returned = s.returned ++ [(call.id, .ok 0)]) (hgranted : s'.granted = s.granted)
  | refused (call : Call) (exc : Exn) (hasks : asks call)
      (hreturned : s'.returned = s.returned ++ [(call.id, .error exc)]) (hgranted : s'.granted = s.granted)
  | none (hreturned : s'.returned = s.returned) (hgranted : s'.granted = s.granted)

/-- A bucket that has just been configured, and no call yet. -/
def opening (r : RateLimiter) (config : RateLimitConfig) (now : ℚ) : Acquiring :=
  { limiter := r.configure endpoint config, now := now }

def RateLimitConfig.bucket (config : RateLimitConfig) : TokenBucket.Config ℚ := ⟨config.maxTokens, config.refillRate⟩

/-- The bucket of the endpoint; one that has not been refilled yet is taken to have been so at the start. -/
def RateLimiter.bucket (r : RateLimiter) (start : ℚ) : TokenBucket.Bucket ℚ :=
  ⟨r.level endpoint, (r.lastUpdate endpoint).getD start⟩

/-- The limiter has as many tokens as a full bucket from which the grants have been taken. -/
structure Tracks (config : RateLimitConfig) (start : ℚ) (r : RateLimiter) (now : ℚ) (granted : List (ℚ × ℚ)) : Prop where
  configured : r.getConfig endpoint = config
  started : start ≤ now
  updated : ∀ last, r.lastUpdate endpoint = some last → last ≤ now
  fresh : r.lastUpdate endpoint = none → r.level endpoint = config.maxTokens
  nonneg : 0 ≤ r.level endpoint
  le : r.level endpoint ≤ config.maxTokens
  same : ∀ t, now ≤ t → TokenBucket.levelAt config.bucket (r.bucket endpoint start) t =
    TokenBucket.levelAt config.bucket (TokenBucket.drawn config.bucket ⟨config.maxTokens, start⟩ granted) t
  conforms : TokenBucket.Conforms config.bucket ⟨config.maxTokens, start⟩ granted
  since : (TokenBucket.drawn config.bucket ⟨config.maxTokens, start⟩ granted).since ≤ now

variable {endpoint} {config : RateLimitConfig} {start now x : ℚ} {r : RateLimiter} {granted : List (ℚ × ℚ)}

@[simp] theorem RateLimiter.lastUpdate_refill : (r.refill endpoint now).lastUpdate endpoint = some now :=
  Function.update_self ..

@[simp] theorem RateLimiter.lastUpdate_spend :
    (r.spend endpoint x).lastUpdate endpoint = r.lastUpdate endpoint := rfl

@[simp] theorem RateLimiter.level_spend : (r.spend endpoint x).level endpoint = r.level endpoint - x := by
  simp only [RateLimiter.level, RateLimiter.spend, Function.update_self, Option.getD_some]

theorem RateLimiter.level_refill : (r.refill endpoint now).level endpoint = min (r.getConfig endpoint).maxTokens
    (r.level endpoint + (now - (r.lastUpdate endpoint).getD now) * (r.getConfig endpoint).refillRate) := by
  simp only [RateLimiter.level, RateLimiter.refill, Function.update_self, Option.getD_some]

theorem bucket_capacity (config : RateLimitConfig) : config.bucket.capacity = config.maxTokens := rfl

theorem bucket_rate (config : RateLimitConfig) : config.bucket.rate = config.refillRate := rfl

section outcome

variable {asks : Call → Prop} {s : Acquiring} {call : Call} {waited : ℚ}

theorem pass_outcome (hasks : asks call) : Outcome asks s (s.pass endpoint call config waited) := by
  rw [Acquiring.pass]
  dsimp only
  split
  · exact .granted call waited hasks rfl rfl
  · split
    · exact .refused call _ hasks rfl rfl
    · exact .none rfl rfl

theorem locked_outcome (hasks : asks call) : Outcome asks s (s.locked endpoint call) := by
  rw [Acquiring.locked]
  split
  · exact .refused call _ hasks rfl rfl
  · exact pass_outcome hasks

theorem Outcome.of_same {asks' : Call → Prop} {s₁ s' : Acquiring} (h : Outcome asks s₁ s') (hnow : s₁.now = s.now)
    (hreturned : s₁.returned = s.returned) (hgranted : s₁.granted = s.granted) (hasks : ∀ call, asks call → asks' call) :
    Outcome asks' s s' := by
  cases h with
  | granted call waited hcall h h' => exact .granted call waited (hasks call hcall) (hreturned ▸ h) (hnow ▸ hgranted ▸ h')
  | free call hcall hfree h h' => exact .free call (hasks call hcall) hfree (hreturned ▸ h) (hgranted ▸ h')
  | refused call exc hcall h h' => exact .refused call exc (hasks call hcall) (hreturned ▸ h) (hgranted ▸ h')
  | none h h' => exact .none (hreturned ▸ h) (hgranted ▸ h')

theorem step_outcome (s : Acquiring) (e : Event) :
    Outcome (fun call => call ∈ pending s ∨ e = .acquire call.tokens) s (step endpoint s e) := by
  cases e with
  | acquire tokens =>
      simp only [step, Acquiring.acquire]
      split
      next hfree => exact .free ⟨s.made, tokens⟩ (.inr rfl) hfree rfl rfl
      next =>
        split
        · have hlocked : Outcome (fun call => Event.acquire tokens = .acquire call.tokens) { s with made := s.made + 1 }
              ({ s with made := s.made + 1 }.locked endpoint ⟨s.made, tokens⟩) := locked_outcome rfl
          exact hlocked.of_same rfl rfl rfl (fun _ => .inr)
        · exact .none rfl rfl
  | enter =>
      simp only [step]
      split
      next call waiting hfree hwaiting =>
        have hasks : call ∈ pending s := by simp [pending, hfree, hwaiting]
        have hlocked : Outcome (fun call => call ∈ pending s) { s with waiting := waiting }
            ({ s with waiting := waiting }.locked endpoint call) := locked_outcome hasks
        exact hlocked.of_same rfl rfl rfl (fun _ => .inl)
      next => exact .none rfl rfl
  | wake =>
      simp only [step]
      split
      next sleeper hsleeper =>
        split
        · exact pass_outcome (.inl (by simp [pending, hsleeper]))
        · exact .none rfl rfl
      next => exact .none rfl rfl
  | canAcquire | elapse => exact .none rfl rfl

theorem Outcome.returned_subset {s' : Acquiring} (h : Outcome asks s s') : s.returned ⊆ s'.returned := by
  cases h with
  | granted _ _ _ hreturned _ | free _ _ _ hreturned _ | refused _ _ _ hreturned _ =>
      rw [hreturned]
      exact List.subset_append_left _ _
  | none hreturned _ => exact hreturned ▸ List.Subset.refl _

theorem now_pass (s : Acquiring) (config : RateLimitConfig) : (s.pass endpoint call config waited).now = s.now := by
  rw [Acquiring.pass]
  dsimp only
  split
  · rfl
  · split <;> rfl

theorem now_locked (s : Acquiring) : (s.locked endpoint call).now = s.now := by
  rw [Acquiring.locked]
  split
  · rfl
  · exact now_pass s _

theorem now_step (s : Acquiring) {e : Event} (he : ∀ d, e ≠ .elapse d) : (step endpoint s e).now = s.now := by
  cases e with
  | acquire tokens =>
      simp only [step, Acquiring.acquire]
      split
      · rfl
      · split
        · exact now_locked { s with made := s.made + 1 }
        · rfl
  | canAcquire tokens => rfl
  | enter =>
      simp only [step]
      split
      next waiting _ _ => exact now_locked { s with waiting := waiting }
      next => rfl
  | wake =>
      simp only [step]
      split
      · split
        · exact now_pass s _
        · rfl
      · rfl
  | elapse d => exact absurd rfl (he d)

theorem now_le_step (s : Acquiring) (e : Event) : s.now ≤ (step endpoint s e).now := by
  cases e with
  | elapse d => exact le_add_of_nonneg_right d.coe_nonneg
  | acquire | canAcquire | enter | wake => exact (now_step s (fun _ h => by cases h)).ge

end outcome

namespace Tracks

variable (h : Tracks endpoint config start r now granted)

include h

theorem level_refill (hrate : 0 ≤ config.refillRate) : (r.refill endpoint now).level endpoint =
    TokenBucket.levelAt config.bucket (r.bucket endpoint start) now := by
  rw [RateLimiter.level_refill, h.configured, TokenBucket.levelAt, bucket_capacity, bucket_rate, RateLimiter.bucket]
  cases hlast : r.lastUpdate endpoint with
  | some last => rfl
  | none =>
      have hpart : 0 ≤ (now - start) * config.refillRate := mul_nonneg (sub_nonneg.mpr h.started) hrate
      simp only [Option.getD_none, h.fresh hlast, sub_self, zero_mul, add_zero, min_self]
      exact (min_eq_left (le_add_of_nonneg_right hpart)).symm

theorem bucket_refill (hrate : 0 ≤ config.refillRate) : (r.refill endpoint now).bucket endpoint start =
    ⟨TokenBucket.levelAt config.bucket (r.bucket endpoint start) now, now⟩ := by
  rw [RateLimiter.bucket, h.level_refill hrate, RateLimiter.lastUpdate_refill, Option.getD_some]

theorem since_le : (r.bucket endpoint start).since ≤ now := by
  rw [RateLimiter.bucket]
  cases hlast : r.lastUpdate endpoint with
  | none => exact h.started
  | some last => exact h.updated last hlast

theorem levelAt_nonneg (hrate : 0 ≤ config.refillRate) {t : ℚ} (ht : now ≤ t) :
    0 ≤ TokenBucket.levelAt config.bucket (r.bucket endpoint start) t :=
  h.nonneg.trans (TokenBucket.level_le_levelAt hrate h.le (h.since_le.trans ht))

theorem refill (hrate : 0 ≤ config.refillRate) : Tracks endpoint config start (r.refill endpoint now) now granted := by
  refine ⟨h.configured, h.started, fun last hlast => ?_, fun hlast => ?_, ?_, ?_, fun t ht => ?_, h.conforms, h.since⟩
  · rw [RateLimiter.lastUpdate_refill, Option.some.injEq] at hlast
    exact hlast.ge
  · rw [RateLimiter.lastUpdate_refill] at hlast
    cases hlast
  · rw [h.level_refill hrate]
    exact h.levelAt_nonneg hrate le_rfl
  · rw [h.level_refill hrate]
    exact TokenBucket.levelAt_le _ _ _
  · rw [h.bucket_refill hrate, TokenBucket.levelAt_levelAt hrate ht, h.same t ht]

theorem elapse {t : ℚ} (ht : now ≤ t) : Tracks endpoint config start r t granted :=
  ⟨h.configured, h.started.trans ht, fun last hlast => (h.updated last hlast).trans ht, h.fresh, h.nonneg, h.le,
    fun t' ht' => h.same t' (ht.trans ht'), h.conforms, h.since.trans ht⟩

theorem grant (hlast : r.lastUpdate endpoint = some now) (hx : 0 ≤ x) (hfound : x ≤ r.level endpoint) :
    Tracks endpoint config start (r.spend endpoint x) now (granted ++ [(now, x)]) := by
  have hbucket : r.bucket endpoint start = ⟨r.level endpoint, now⟩ := by rw [RateLimiter.bucket, hlast, Option.getD_some]
  have hnow : TokenBucket.levelAt config.bucket (TokenBucket.drawn config.bucket ⟨config.maxTokens, start⟩ granted) now =
      r.level endpoint := by
    rw [← h.same now le_rfl, hbucket, TokenBucket.levelAt, sub_self, zero_mul, add_zero]
    exact min_eq_right h.le
  have hdrawn : TokenBucket.drawn config.bucket ⟨config.maxTokens, start⟩ (granted ++ [(now, x)]) =
      ⟨r.level endpoint - x, now⟩ := by rw [TokenBucket.drawn_concat, TokenBucket.take, hnow]
  refine ⟨h.configured, h.started, h.updated, fun hnone => ?_, ?_, ?_, fun t _ => ?_, ?_, ?_⟩
  · rw [RateLimiter.lastUpdate_spend, hlast] at hnone
    cases hnone
  · rw [RateLimiter.level_spend]
    exact sub_nonneg.mpr hfound
  · rw [RateLimiter.level_spend]
    exact (sub_le_self _ hx).trans h.le
  · rw [hdrawn, RateLimiter.bucket, RateLimiter.level_spend, RateLimiter.lastUpdate_spend, hlast, Option.getD_some]
  · rw [TokenBucket.conforms_append]
    exact ⟨h.conforms, h.since, hx, hfound.trans hnow.ge, trivial⟩
  · rw [hdrawn]

end Tracks

theorem tracks_configure (r : RateLimiter) (hpos : 0 ≤ config.maxTokens) (hrate : 0 ≤ config.refillRate)
    (hupdated : ∀ last, r.lastUpdate endpoint = some last → last ≤ start) :
    Tracks endpoint config start (r.configure endpoint config) start [] := by
  have hlevel : (r.configure endpoint config).level endpoint = config.maxTokens := by
    simp only [RateLimiter.level, RateLimiter.configure, Function.update_self, Option.getD_some]
  have hfull : ∀ {last t : ℚ}, last ≤ t →
      TokenBucket.levelAt config.bucket ⟨config.maxTokens, last⟩ t = config.maxTokens := by
    intro last t hlast
    have hpart : 0 ≤ (t - last) * config.refillRate := mul_nonneg (sub_nonneg.mpr hlast) hrate
    exact min_eq_left (le_add_of_nonneg_right hpart)
  have hconfig : (r.configure endpoint config).getConfig endpoint = config := by
    simp only [RateLimiter.getConfig, RateLimiter.configure, Function.update_self, Option.getD_some]
  refine ⟨hconfig, le_rfl, hupdated, fun _ => hlevel, hlevel ▸ hpos, hlevel.le, fun t ht => ?_, trivial, le_rfl⟩
  have hsince : (r.lastUpdate endpoint).getD start ≤ start := by
    cases hlast : r.lastUpdate endpoint with
    | none => exact le_rfl
    | some last => exact hupdated last hlast
  rw [RateLimiter.bucket, hlevel]
  exact (hfull (hsince.trans ht)).trans (hfull ht).symm

end Utos.Exchanges.RateLimit
