import Utos.Exchanges.RateLimit
import Mathlib.Algebra.Order.Archimedean.Basic
import Mathlib.Algebra.Order.Nonneg.Ring

namespace Utos.Exchanges.TokenBound

open Core Core.Exceptions RateLimit

variable {endpoint : String} {config : RateLimitConfig} {start : ℚ} {s : Acquiring} {call : Call} {waited : ℚ}

/-- What holds between two events. The tokens of the call that sleeps are there when it wakes. -/
structure Served (endpoint : String) (config : RateLimitConfig) (start : ℚ) (s : Acquiring) : Prop where
  tracks : Tracks endpoint config start s.limiter s.now s.granted
  holder : ∀ sleeper, s.holder = some sleeper → sleeper.config = config ∧ 0 < sleeper.call.tokens ∧
    sleeper.call.tokens ≤ config.maxTokens ∧ ∀ t, s.now ≤ t → sleeper.wakeAt ≤ t →
      sleeper.call.tokens ≤ TokenBucket.levelAt config.bucket (s.limiter.bucket endpoint start) t
  waiting : ∀ call ∈ s.waiting, 0 < call.tokens

/-- The call has got its tokens. -/
def Finished (s : Acquiring) (call : Call) : Prop := ∃ waited, (call.id, .ok waited) ∈ s.returned

/-- How the call that has the lock leaves things: it has its tokens, or could not have them, or sleeps. -/
def Leaves (config : RateLimitConfig) (call : Call) (s : Acquiring) : Prop :=
  s.holder = none ∧ (call.tokens ≤ config.maxTokens → Finished s call) ∨
    ∃ sleeper, s.holder = some sleeper ∧ sleeper.call = call

section pass

variable (h : Tracks endpoint config start s.limiter s.now s.granted) (hwaiting : ∀ call ∈ s.waiting, 0 < call.tokens)

include h hwaiting

theorem pass_granted (waited : ℚ) (hrate : 0 < config.refillRate) (hpos : 0 < call.tokens)
    (hfound : call.tokens ≤ TokenBucket.levelAt config.bucket (s.limiter.bucket endpoint start) s.now) :
    Served endpoint config start (s.pass endpoint call config waited) ∧
      (s.pass endpoint call config waited).holder = none ∧ Finished (s.pass endpoint call config waited) call ∧
      (s.pass endpoint call config waited).waiting = s.waiting := by
  have hlevel := h.level_refill hrate.le
  have hpass : s.pass endpoint call config waited =
      { s with limiter := (s.limiter.refill endpoint s.now).spend endpoint call.tokens
               granted := s.granted ++ [(s.now, call.tokens)] }.leave call (.ok waited) :=
    if_pos (hfound.trans hlevel.ge)
  have hgrant := (h.refill hrate.le).grant RateLimiter.lastUpdate_refill hpos.le (hfound.trans hlevel.ge)
  rw [hpass]
  exact ⟨⟨hgrant, fun _ hnone => (by cases hnone), hwaiting⟩, rfl, ⟨waited, by simp [Acquiring.leave]⟩, rfl⟩

theorem pass_sleeping (waited : ℚ) (hrate : 0 < config.refillRate) (hpos : 0 < call.tokens) (hmax : call.tokens ≤ config.maxTokens)
    (hfound : ¬ call.tokens ≤ TokenBucket.levelAt config.bucket (s.limiter.bucket endpoint start) s.now) :
    Served endpoint config start (s.pass endpoint call config waited) ∧
      (∃ sleeper, (s.pass endpoint call config waited).holder = some sleeper ∧ sleeper.call = call) ∧
      (s.pass endpoint call config waited).waiting = s.waiting := by
  have hlevel := h.level_refill hrate.le
  have hbucket := h.bucket_refill hrate.le
  generalize TokenBucket.levelAt config.bucket (s.limiter.bucket endpoint start) s.now = level at *
  have hpass : s.pass endpoint call config waited =
      { s with limiter := s.limiter.refill endpoint s.now
               holder := some ⟨call, config, waited + (call.tokens - level) / config.refillRate,
                 s.now + (call.tokens - level) / config.refillRate⟩ } := by
    rw [Acquiring.pass, hlevel]
    exact (if_neg hfound).trans (if_neg hrate.ne')
  rw [hpass]
  refine ⟨⟨h.refill hrate.le, ?_, hwaiting⟩, ⟨_, rfl, rfl⟩, rfl⟩
  intro sleeper hsleeper
  cases hsleeper
  refine ⟨rfl, hpos, hmax, fun t _ ht => ?_⟩
  rw [hbucket]
  refine le_min hmax ?_
  have helapsed : (call.tokens - level) / config.refillRate ≤ t - s.now := by linarith
  rw [div_le_iff₀ hrate] at helapsed
  rw [bucket_rate]
  linarith

theorem locked_leaves (call : Call) (hrate : 0 < config.refillRate) (hpos : 0 < call.tokens) :
    Served endpoint config start (s.locked endpoint call) ∧ Leaves config call (s.locked endpoint call) ∧
      (s.locked endpoint call).waiting = s.waiting := by
  rw [Acquiring.locked, h.configured]
  split
  next hmax =>
    refine ⟨⟨h, fun _ hnone => (by cases hnone), hwaiting⟩, .inl ⟨rfl, fun hle => absurd hmax (not_lt.mpr hle)⟩, rfl⟩
  next hmax =>
    by_cases hfound : call.tokens ≤ TokenBucket.levelAt config.bucket (s.limiter.bucket endpoint start) s.now
    · obtain ⟨hserved, hnone, hfinished, hsame⟩ := pass_granted h hwaiting 0 hrate hpos hfound
      exact ⟨hserved, .inl ⟨hnone, fun _ => hfinished⟩, hsame⟩
    · obtain ⟨hserved, hsleeping, hsame⟩ := pass_sleeping h hwaiting 0 hrate hpos (not_lt.mp hmax) hfound
      exact ⟨hserved, .inr hsleeping, hsame⟩

end pass

theorem Served.wake (h : Served endpoint config start s) (hrate : 0 < config.refillRate) {sleeper : Sleeper}
    (hsleeper : s.holder = some sleeper) (hawake : sleeper.wakeAt ≤ s.now) :
    Served endpoint config start (s.pass endpoint sleeper.call sleeper.config sleeper.waited) ∧
      (s.pass endpoint sleeper.call sleeper.config sleeper.waited).holder = none ∧
      Finished (s.pass endpoint sleeper.call sleeper.config sleeper.waited) sleeper.call ∧
      (s.pass endpoint sleeper.call sleeper.config sleeper.waited).waiting = s.waiting := by
  obtain ⟨hconfig, hpos, -, hfound⟩ := h.holder sleeper hsleeper
  rw [hconfig]
  exact pass_granted h.tracks h.waiting sleeper.waited hrate hpos (hfound s.now le_rfl hawake)

theorem Served.acquire (h : Served endpoint config start s) (hrate : 0 < config.refillRate) (tokens : ℚ) :
    Served endpoint config start (s.acquire endpoint tokens) := by
  rw [Acquiring.acquire]
  dsimp only
  split
  next => exact ⟨h.tracks, h.holder, h.waiting⟩
  next hpos =>
    have hpos : 0 < tokens := not_le.mp hpos
    split
    next hfree =>
      exact (locked_leaves (s := { s with made := s.made + 1 }) h.tracks h.waiting ⟨s.made, tokens⟩ hrate hpos).1
    next =>
      refine ⟨h.tracks, h.holder, fun call hcall => ?_⟩
      rcases List.mem_append.mp hcall with hcall | hcall
      · exact h.waiting call hcall
      · rw [List.mem_singleton.mp hcall]
        exact hpos

theorem Served.step (h : Served endpoint config start s) (hrate : 0 < config.refillRate) (e : Event) :
    Served endpoint config start (RateLimit.step endpoint s e) := by
  cases e with
  | acquire tokens => exact h.acquire hrate tokens
  | canAcquire tokens =>
      refine ⟨h.tracks.refill hrate.le, fun sleeper hsleeper => ?_, h.waiting⟩
      obtain ⟨hconfig, hpos, hmax, hfound⟩ := h.holder sleeper hsleeper
      refine ⟨hconfig, hpos, hmax, fun (t : ℚ) (ht : s.now ≤ t) hwake => ?_⟩
      have hsame : TokenBucket.levelAt config.bucket ((s.limiter.refill endpoint s.now).bucket endpoint start) t =
          TokenBucket.levelAt config.bucket (s.limiter.bucket endpoint start) t := by
        rw [h.tracks.bucket_refill hrate.le]
        exact TokenBucket.levelAt_levelAt hrate.le ht
      exact (hfound t ht hwake).trans hsame.ge
  | enter =>
      simp only [RateLimit.step]
      split
      next call waiting _ hwaiting =>
        have hpos : ∀ c ∈ call :: waiting, 0 < c.tokens := hwaiting ▸ h.waiting
        exact (locked_leaves (s := { s with waiting := waiting }) h.tracks
          (fun c hc => hpos c (List.mem_cons_of_mem call hc)) call hrate (hpos call List.mem_cons_self)).1
      next => exact h
  | wake =>
      simp only [RateLimit.step]
      split
      next sleeper hsleeper =>
        split
        next hawake => exact (h.wake hrate hsleeper hawake).1
        next => exact h
      next => exact h
  | elapse d =>
      have hlater : s.now ≤ s.now + (d : ℚ) := le_add_of_nonneg_right d.coe_nonneg
      refine ⟨h.tracks.elapse hlater, fun sleeper hsleeper => ?_, h.waiting⟩
      obtain ⟨hconfig, hpos, hmax, hfound⟩ := h.holder sleeper hsleeper
      exact ⟨hconfig, hpos, hmax, fun t ht => hfound t (hlater.trans ht)⟩

/-- The call waits, with two turns of the lock for each call before it, and one more if the lock is free. -/
def Stands (s : Acquiring) (call : Call) (turns : Nat) : Prop :=
  ∃ before after, pending s = before ++ call :: after ∧
    turns = 2 * before.length + (if s.holder = none then 1 else 0)

/-- The call has its tokens, or has fewer turns to wait for. -/
def Advances (s : Acquiring) (call : Call) (turns : Nat) : Prop :=
  Finished s call ∨ ∃ fewer < turns, Stands s call fewer

theorem Finished.step (h : Finished s call) (e : Event) : Finished (RateLimit.step endpoint s e) call := by
  obtain ⟨waited, hwaited⟩ := h
  exact ⟨waited, (step_outcome s e).returned_subset hwaited⟩

theorem Stands.extend {s' : Acquiring} {turns : Nat} (h : Stands s call turns) (hholder : s'.holder = s.holder)
    {more : List Call} (hwaiting : s'.waiting = s.waiting ++ more) : Stands s' call turns := by
  obtain ⟨before, after, hpending, hturns⟩ := h
  refine ⟨before, after ++ more, ?_, by rw [hholder, hturns]⟩
  rw [pending, hholder, hwaiting, ← List.append_assoc, ← pending, hpending, List.append_assoc, List.cons_append]

variable {turns : Nat} {first : Call} {rest before after : List Call}

/-- The lock is free again: the first call has returned. -/
theorem advances_of_returned (hholder : s.holder = none) (hwaiting : s.waiting = rest)
    (hfirst : first.tokens ≤ config.maxTokens → Finished s first) (hmax : call.tokens ≤ config.maxTokens)
    (hpending : first :: rest = before ++ call :: after) (hturns : 2 * before.length ≤ turns) : Advances s call turns := by
  cases before with
  | nil =>
      obtain ⟨rfl, -⟩ := List.cons.inj hpending
      exact .inl (hfirst hmax)
  | cons c before =>
      obtain ⟨rfl, hrest⟩ := List.cons.inj hpending
      rw [List.length_cons] at hturns
      refine .inr ⟨2 * before.length + 1, by omega, before, after, ?_, by rw [if_pos hholder]⟩
      rw [pending, hholder, hwaiting, hrest]
      rfl

theorem Leaves.advances (h : Leaves config first s) (hwaiting : s.waiting = rest) (hmax : call.tokens ≤ config.maxTokens)
    (hpending : first :: rest = before ++ call :: after) : Advances s call (2 * before.length + 1) := by
  rcases h with ⟨hholder, hfinished⟩ | ⟨sleeper, hholder, rfl⟩
  · exact advances_of_returned hholder hwaiting hfinished hmax hpending (Nat.le_succ _)
  · refine .inr ⟨2 * before.length, Nat.lt_succ_self _, before, after, ?_, by simp [hholder]⟩
    rw [pending, hholder, hwaiting, ← hpending]
    rfl

theorem Stands.enter (h : Stands s call turns) (hserved : Served endpoint config start s) (hrate : 0 < config.refillRate)
    (hmax : call.tokens ≤ config.maxTokens) (hholder : s.holder = none) :
    Advances (RateLimit.step endpoint s .enter) call turns := by
  obtain ⟨before, after, hpending, rfl⟩ := h
  rw [pending, hholder] at hpending
  change s.waiting = _ at hpending
  cases hwaiting : s.waiting with
  | nil =>
      rw [hwaiting] at hpending
      simp at hpending
  | cons first rest =>
      have hpos := hwaiting ▸ hserved.waiting
      obtain ⟨-, hleaves, hsame⟩ := locked_leaves (s := { s with waiting := rest }) hserved.tracks
        (fun c hc => hpos c (List.mem_cons_of_mem first hc)) first hrate (hpos first List.mem_cons_self)
      simp only [RateLimit.step, hholder, hwaiting, if_true]
      exact hholder ▸ hleaves.advances hsame hmax (hwaiting ▸ hpending)

theorem Stands.wake (h : Stands s call turns) (hserved : Served endpoint config start s) (hrate : 0 < config.refillRate)
    (hmax : call.tokens ≤ config.maxTokens) {sleeper : Sleeper} (hholder : s.holder = some sleeper)
    (hawake : sleeper.wakeAt ≤ s.now) : Advances (RateLimit.step endpoint s .wake) call turns := by
  obtain ⟨before, after, hpending, rfl⟩ := h
  obtain ⟨-, hnone, hfinished, hsame⟩ := hserved.wake hrate hholder hawake
  simp only [RateLimit.step, hholder, if_pos hawake]
  rw [pending, hholder] at hpending
  exact advances_of_returned hnone hsame (fun _ => hfinished) hmax hpending (by simp)

/-- A call that waits goes on waiting at its place, or advances. -/
theorem Stands.step (h : Stands s call turns) (hserved : Served endpoint config start s) (hrate : 0 < config.refillRate)
    (hmax : call.tokens ≤ config.maxTokens) (e : Event) : Advances (RateLimit.step endpoint s e) call turns ∨
      Stands (RateLimit.step endpoint s e) call turns ∧ (RateLimit.step endpoint s e).holder = s.holder := by
  cases e with
  | acquire tokens =>
      simp only [RateLimit.step, Acquiring.acquire]
      split
      next => exact .inr ⟨h, rfl⟩
      next =>
        split
        next hfree =>
          obtain ⟨before, after, hpending, -⟩ := h
          rw [pending, hfree.1, hfree.2] at hpending
          simp at hpending
        next => exact .inr ⟨h.extend rfl rfl, rfl⟩
  | canAcquire tokens => exact .inr ⟨h, rfl⟩
  | enter =>
      by_cases hholder : s.holder = none
      · exact .inl (h.enter hserved hrate hmax hholder)
      · have hsame : RateLimit.step endpoint s .enter = s := by
          simp only [RateLimit.step]
          split
          next hnone _ => exact absurd hnone hholder
          next => rfl
        rw [hsame]
        exact .inr ⟨h, rfl⟩
  | wake =>
      cases hholder : s.holder with
      | none =>
          have hsame : RateLimit.step endpoint s .wake = s := by simp only [RateLimit.step, hholder]
          rw [hsame]
          exact .inr ⟨h, hholder⟩
      | some sleeper =>
          by_cases hawake : sleeper.wakeAt ≤ s.now
          · exact .inl (h.wake hserved hrate hmax hholder hawake)
          · have hsame : RateLimit.step endpoint s .wake = s := by simp only [RateLimit.step, hholder, if_neg hawake]
            rw [hsame]
            exact .inr ⟨h, hholder⟩
  | elapse d => exact .inr ⟨h, rfl⟩

/-- The state after the first events of a run without end. -/
def stateAt (endpoint : String) (s : Acquiring) (es : Nat → Event) : Nat → Acquiring
  | 0 => s
  | n + 1 => RateLimit.step endpoint (stateAt endpoint s es n) (es n)

/-- Time goes on, and the event loop comes back to the lock and to the sleeper again and again. -/
structure Fair (endpoint : String) (s : Acquiring) (es : Nat → Event) : Prop where
  clock : ∀ t, ∃ n, t ≤ (stateAt endpoint s es n).now
  enters : ∀ n, ∃ m, n ≤ m ∧ es m = .enter
  wakes : ∀ n, ∃ m, n ≤ m ∧ es m = .wake

variable {es : Nat → Event}

theorem served_stateAt (h : Served endpoint config start s) (hrate : 0 < config.refillRate) (n : Nat) :
    Served endpoint config start (stateAt endpoint s es n) := by
  induction n with
  | zero => exact h
  | succ n ih => exact ih.step hrate (es n)

theorem now_mono : Monotone (fun n => (stateAt endpoint s es n).now) :=
  monotone_nat_of_le_succ (fun n => now_le_step _ (es n))

/-- Until a call advances it waits at its place, behind the same sleeper. -/
theorem Stands.later {n m : Nat} (h : Stands (stateAt endpoint s es n) call turns) (hserved : Served endpoint config start s)
    (hrate : 0 < config.refillRate) (hmax : call.tokens ≤ config.maxTokens) (hm : n ≤ m) :
    (∃ k, Advances (stateAt endpoint s es k) call turns) ∨ Stands (stateAt endpoint s es m) call turns ∧
      (stateAt endpoint s es m).holder = (stateAt endpoint s es n).holder := by
  induction m, hm using Nat.le_induction with
  | base => exact .inr ⟨h, rfl⟩
  | succ m _ ih =>
      rcases ih with hadvances | ⟨hstands, hholder⟩
      · exact .inl hadvances
      · rcases hstands.step (served_stateAt hserved hrate m) hrate hmax (es m) with hadvances | ⟨hstands, hsame⟩
        · exact .inl ⟨m + 1, hadvances⟩
        · exact .inr ⟨hstands, hsame.trans hholder⟩

theorem Fair.advances (hfair : Fair endpoint s es) {n : Nat} (h : Stands (stateAt endpoint s es n) call turns)
    (hserved : Served endpoint config start s) (hrate : 0 < config.refillRate) (hmax : call.tokens ≤ config.maxTokens) :
    ∃ k, Advances (stateAt endpoint s es k) call turns := by
  cases hholder : (stateAt endpoint s es n).holder with
  | none =>
      obtain ⟨m, hm, henter⟩ := hfair.enters n
      rcases h.later hserved hrate hmax hm with hadvances | ⟨hstands, hsame⟩
      · exact hadvances
      · refine ⟨m + 1, ?_⟩
        rw [stateAt, henter]
        exact hstands.enter (served_stateAt hserved hrate m) hrate hmax (hsame.trans hholder)
  | some sleeper =>
      obtain ⟨n', hclock⟩ := hfair.clock sleeper.wakeAt
      obtain ⟨m, hm, hwake⟩ := hfair.wakes (max n n')
      rcases h.later hserved hrate hmax ((le_max_left n n').trans hm) with hadvances | ⟨hstands, hsame⟩
      · exact hadvances
      · have hawake : sleeper.wakeAt ≤ (stateAt endpoint s es m).now :=
          hclock.trans (now_mono ((le_max_right n n').trans hm))
        refine ⟨m + 1, ?_⟩
        rw [stateAt, hwake]
        exact hstands.wake (served_stateAt hserved hrate m) hrate hmax (hsame.trans hholder) hawake

/-- A call that waits has its tokens in the end. -/
theorem Fair.finished (hfair : Fair endpoint s es) (hserved : Served endpoint config start s)
    (hrate : 0 < config.refillRate) (hmax : call.tokens ≤ config.maxTokens) {n : Nat}
    (h : Stands (stateAt endpoint s es n) call turns) : ∃ m, Finished (stateAt endpoint s es m) call := by
  induction turns using Nat.strong_induction_on generalizing n with
  | h turns ih =>
      obtain ⟨k, hfinished | ⟨fewer, hfewer, hstands⟩⟩ := hfair.advances h hserved hrate hmax
      · exact ⟨k, hfinished⟩
      · exact ih fewer hfewer hstands

/-- What a configured bucket promises to the calls for it. -/
structure Bounded (endpoint : String) (config : RateLimitConfig) (s : Acquiring) : Prop where
  level : ∀ events : List Event, 0 ≤ (events.foldl (RateLimit.step endpoint) s).limiter.level endpoint ∧
    (events.foldl (RateLimit.step endpoint) s).limiter.level endpoint ≤ config.maxTokens
  terminates : ∀ es, Fair endpoint s es → ∀ n tokens, es n = .acquire tokens → 0 < tokens → tokens ≤ config.maxTokens →
    ∃ m, Finished (stateAt endpoint s es m) ⟨(stateAt endpoint s es n).made, tokens⟩
  window : ∀ (events : List Event) (t T : ℚ), 0 ≤ T →
    TokenBucket.within t (t + T) (events.foldl (RateLimit.step endpoint) s).granted ≤
      config.maxTokens + config.refillRate * T

theorem served_opening (r : RateLimiter) (hmax : 0 < config.maxTokens) (hrate : 0 < config.refillRate)
    (hupdated : ∀ last, r.lastUpdate endpoint = some last → last ≤ start) :
    Served endpoint config start (opening endpoint r config start) :=
  ⟨tracks_configure r hmax.le hrate.le hupdated, fun sleeper hsleeper => (by cases hsleeper),
    fun call hcall => (by cases hcall)⟩

end Utos.Exchanges.TokenBound
