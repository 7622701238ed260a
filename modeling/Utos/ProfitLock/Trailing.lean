import Utos.ProfitLock.Course
import Mathlib.Data.List.Induction
import Mathlib.Tactic.GCongr

namespace Utos.ProfitLock.Trailing

open Coroutine Program Core.DomainTypes Core.Exceptions Execution.Models Execution.Service State Policy Engine Ticks Course

variable {κ ω W : Type} [DecidableEq κ] [ToString κ] {h : Handler W (ExecReq ω) (ExecAns ω)} {owner : κ → ω} {key : κ}
variable {args : EnableArgs} {st st' : ProfitLockState} {asked : List (UUID → OrderRequest)} {e : Event} {o : ω}

/-- The settings of a lock are those it was enabled with. -/
structure Configured (args : EnableArgs) (st : ProfitLockState) : Prop where
  enabled : st.enabled = true
  entryPrice : st.entryPrice = args.entryPrice
  quantity : st.quantity = args.quantity
  side : st.side = args.side
  triggerPercentage : st.triggerPercentage = args.triggerPercentage
  trailPercentage : st.trailPercentage = args.trailPercentage
  maxProfitPercentage : st.maxProfitPercentage = args.maxProfitPercentage

theorem configured_enabledState (args : EnableArgs) : Configured args (enabledState args) :=
  ⟨rfl, rfl, rfl, rfl, rfl, rfl, rfl⟩

theorem configured_moves (hc : Configured args st) (hm : Moves h o e st st' asked) : Configured args st' := by
  obtain ⟨he, hp, hq, hs, htr, htl, hcap⟩ := hc
  cases hm <;> exact ⟨he, hp, hq, hs, htr, htl, hcap⟩

/-- The maximum of the entry price and the prices processed. -/
def peak (args : EnableArgs) (seen : List ℚ) : ℚ := seen.foldl max args.entryPrice

def lockAt (args : EnableArgs) (high : ℚ) : ℚ := high * (1 - args.trailPercentage / 100)

theorem peak_append (seen : List ℚ) (price : ℚ) : peak args (seen ++ [price]) = max (peak args seen) price := by
  simp [peak]

theorem entryPrice_le_peak (seen : List ℚ) : args.entryPrice ≤ peak args seen := by
  induction seen using List.reverseRecOn with
  | nil => exact le_refl _
  | append_singleton seen price ih =>
      rw [peak_append]
      exact le_trans ih (le_max_left _ _)

theorem peak_mono (seen more : List ℚ) : peak args seen ≤ peak args (seen ++ more) := by
  induction more using List.reverseRecOn with
  | nil => simp
  | append_singleton more price ih =>
      rw [← List.append_assoc, peak_append]
      exact le_trans ih (le_max_left _ _)

theorem peak_of_le {seen : List ℚ} {price : ℚ} (hentry : args.entryPrice ≤ price) (hseen : ∀ p ∈ seen, p ≤ price) :
    max (peak args seen) price = price := by
  apply max_eq_right
  induction seen using List.reverseRecOn with
  | nil => exact hentry
  | append_singleton seen p ih =>
      rw [peak_append]
      exact max_le (ih (fun q hq => hseen q (by simp [hq]))) (hseen p (by simp))

/-- The long locks that follow the price without a cap. -/
structure Long (args : EnableArgs) : Prop where
  side : args.side = "long"
  entryPrice : 0 < args.entryPrice
  quantity : 0 < args.quantity
  triggerPercentage : 0 < args.triggerPercentage
  trailPercentage : 0 < args.trailPercentage
  trail_lt : args.trailPercentage < 100
  noCap : args.maxProfitPercentage ≤ 0

omit [ToString κ] in
theorem Long.enable_eq (hl : Long args) (store : Store κ) (w : W) :
    run h (enable key args) store w = (.ok true, store.put key (enabledState args), w) := by
  rw [enable, if_neg (not_le.mpr hl.triggerPercentage), if_neg (not_le.mpr hl.trailPercentage),
    if_neg (not_le.mpr hl.trail_lt)]
  rfl

theorem Long.lockAt_lt (hl : Long args) {high high' : ℚ} (hlt : high < high') : lockAt args high < lockAt args high' := by
  have hpos : 0 < 1 - args.trailPercentage / 100 := by linarith [hl.trail_lt]
  exact mul_lt_mul_of_pos_right hlt hpos

theorem Long.lockAt_le (hl : Long args) {high high' : ℚ} (hle : high ≤ high') : lockAt args high ≤ lockAt args high' := by
  have hpos : 0 ≤ 1 - args.trailPercentage / 100 := by linarith [hl.trail_lt]
  exact mul_le_mul_of_nonneg_right hle hpos

/-- The invariant. While the lock is MONITORING its highest price is not kept up
to date, but no price was high enough to trigger it. -/
structure Trails (args : EnableArgs) (seen : List ℚ) (st : ProfitLockState) : Prop where
  configured : Configured args st
  monitoring : st.status = .monitoring → st.highestPrice = some args.entryPrice ∧
    ∀ p ∈ seen, gain "long" args.entryPrice p < args.triggerPercentage
  riding : st.status = .triggered ∨ st.status = .executing →
    st.highestPrice = some (peak args seen) ∧ st.lockPrice = some (lockAt args (peak args seen))

theorem gain_long_lt {entryPrice p q : ℚ} (hentry : 0 < entryPrice)
    (hlt : gain "long" entryPrice p < gain "long" entryPrice q) : p < q := by
  by_contra hle
  rw [not_lt] at hle
  refine absurd hlt (not_lt.mpr ?_)
  simp only [gain, if_true]
  gcongr

theorem newHighest_of_le {high p : ℚ} (hle : high ≤ p) : newHighest (some high) p = p := by
  rw [newHighest]
  split
  · rfl
  next hlt => exact le_antisymm hle (not_lt.mp hlt)

theorem raisedHigh_pos {high p : ℚ} (hpos : 0 < high) : raisedHigh (some high) p = max high p := by
  simp only [raisedHigh, if_neg hpos.ne']

def Positive (e : Event) : Prop := ∀ p ∈ e.prices, 0 < p

theorem notCap (hl : Long args) (hc : Configured args st) {profit : ProfitResult} : ¬ CapReached st profit := by
  rintro ⟨hpos, -⟩
  rw [hc.maxProfitPercentage] at hpos
  exact absurd hpos (not_lt.mpr hl.noCap)

theorem gain_of_calculate (hl : Long args) (hc : Configured args st) {p : ℚ} {profit : ProfitResult}
    (hprofit : calculate st.entryPrice p st.quantity st.side = .ok profit) :
    profit.profitPercentage = gain "long" args.entryPrice p := by
  rw [(calculate_ok hprofit).2.2.2, hc.side, hc.entryPrice, hl.side]

theorem calculate_ne_error (hl : Long args) (hc : Configured args st) {p : ℚ} (hp : 0 < p) {exc : Exn} :
    calculate st.entryPrice p st.quantity st.side ≠ .error exc := by
  rw [hc.entryPrice, hc.quantity, hc.side]
  obtain ⟨profit, hok⟩ := calculate_defined hl.entryPrice hp hl.quantity (.inl hl.side)
  rw [hok]
  rintro ⟨⟩

theorem newHigh_iff (hl : Long args) (hc : Configured args st) {high p : ℚ} (hhigh : st.highestPrice = some high)
    (hlock : st.lockPrice = some (lockAt args high)) : NewHigh st p ↔ high < p := by
  simp only [NewHigh, hhigh, hlock, Option.getD_some, Option.mem_def, Option.some.injEq, forall_eq', newHighest,
    lockBelow, hc.trailPercentage]
  constructor
  · rintro ⟨hlt, -⟩
    by_contra hle
    rw [if_neg hle] at hlt
    exact lt_irrefl _ hlt
  · intro hlt
    rw [if_pos hlt]
    exact ⟨hlt, hl.lockAt_lt hlt⟩

theorem entryPrice_lt_of_trigger (hl : Long args) {p : ℚ} (hp : args.triggerPercentage ≤ gain "long" args.entryPrice p) :
    args.entryPrice < p := by
  apply gain_long_lt hl.entryPrice
  have hzero : gain "long" args.entryPrice args.entryPrice = 0 := by simp [gain]
  rw [hzero]
  exact lt_of_lt_of_le hl.triggerPercentage hp

def processed (st : ProfitLockState) (e : Event) : List ℚ := if watching (some st) then e.prices else []

theorem processed_tick (hstatus : st.status = .monitoring ∨ st.status = .triggered) (p : ℚ) :
    processed st (.tick p) = [p] := if_pos (by simpa [watching] using hstatus)

theorem processed_idle (hnm : st.status ≠ .monitoring) (hnt : st.status ≠ .triggered) (e : Event) :
    processed st e = [] := if_neg (by simp [watching, hnm, hnt])

theorem trails_trigger (hl : Long args) {seen : List ℚ} (ht : Trails args seen st) {p : ℚ}
    (hstatus : st.status = .monitoring) (htrigger : args.triggerPercentage ≤ gain "long" args.entryPrice p) :
    Trails args (seen ++ [p]) (triggeredState st p (lockBelow st (newHighest st.highestPrice p))) := by
  obtain ⟨hhigh, hseen⟩ := ht.monitoring hstatus
  have hentry := entryPrice_lt_of_trigger hl htrigger
  have hpeak : peak args (seen ++ [p]) = p := by
    rw [peak_append]
    exact peak_of_le hentry.le (fun q hq => (gain_long_lt hl.entryPrice (lt_of_lt_of_le (hseen q hq) htrigger)).le)
  refine ⟨⟨ht.configured.1, ht.configured.2, ht.configured.3, ht.configured.4, ht.configured.5, ht.configured.6,
    ht.configured.7⟩, fun hm => (by cases hm), fun _ => ⟨?_, ?_⟩⟩
  · simp only [triggeredState, hhigh, raisedHigh_pos hl.entryPrice, hpeak, max_eq_right hentry.le]
  · simp only [triggeredState, hhigh, newHighest_of_le hentry.le, lockBelow, lockAt, hpeak, ht.configured.trailPercentage]

theorem trails_trail (hl : Long args) {seen : List ℚ} (ht : Trails args seen st) {p : ℚ}
    (hstatus : st.status = .triggered) (hhigh : NewHigh st p) :
    Trails args (seen ++ [p]) { st with
      highestPrice := some (raisedHigh st.highestPrice p)
      lockPrice := some (lockBelow st (newHighest st.highestPrice p)) } := by
  obtain ⟨hpeak, hlock⟩ := ht.riding (.inl hstatus)
  have hlt := (newHigh_iff hl ht.configured hpeak hlock).mp hhigh
  have hpos : 0 < peak args seen := lt_of_lt_of_le hl.entryPrice (entryPrice_le_peak seen)
  refine ⟨⟨ht.configured.1, ht.configured.2, ht.configured.3, ht.configured.4, ht.configured.5, ht.configured.6,
    ht.configured.7⟩, fun hm => ?_, fun _ => ⟨?_, ?_⟩⟩
  · rw [hstatus] at hm
    cases hm
  · simp only [hpeak, raisedHigh_pos hpos, peak_append]
  · simp only [hpeak, newHighest_of_le hlt.le, lockBelow, lockAt, peak_append, max_eq_right hlt.le,
      ht.configured.trailPercentage]

theorem trails_under (hl : Long args) {seen : List ℚ} (ht : Trails args seen st) {p : ℚ}
    (hstatus : st.status = .triggered) (hhigh : ¬ NewHigh st p) : Trails args (seen ++ [p]) st := by
  obtain ⟨hpeak, hlock⟩ := ht.riding (.inl hstatus)
  rw [newHigh_iff hl ht.configured hpeak hlock, not_lt] at hhigh
  refine ⟨ht.configured, fun hm => ?_, fun _ => ?_⟩
  · rw [hstatus] at hm
    cases hm
  · rw [peak_append, max_eq_left hhigh]
    exact ⟨hpeak, hlock⟩

theorem trails_moves (hl : Long args) {seen : List ℚ} (ht : Trails args seen st) (hpos : Positive e)
    (hm : Moves h o e st st' asked) : Trails args (seen ++ processed st e) st' := by
  have hc := ht.configured
  have hc' := configured_moves hc hm
  cases hm with
  | unwatched hidle =>
      rcases hidle with hoff | ⟨hnm, hnt⟩
      · exact absurd hoff (by simp [hc.enabled])
      · rwa [processed_idle hnm hnt, List.append_nil]
  | uncalculated herror =>
      exact absurd herror (calculate_ne_error hl hc (hpos _ (List.mem_singleton_self _)))
  | capRefused _ _ hcap => exact absurd hcap (notCap hl hc)
  | below hstatus hprofit _ hbelow =>
      rw [processed_tick (.inl hstatus)]
      rw [gain_of_calculate hl hc hprofit, hc.triggerPercentage] at hbelow
      refine ⟨hc, fun _ => ⟨(ht.monitoring hstatus).1, fun q hq => ?_⟩, fun hriding => ?_⟩
      · rcases List.mem_append.mp hq with hold | hnew
        · exact (ht.monitoring hstatus).2 q hold
        · rwa [List.mem_singleton.mp hnew]
      · rw [hstatus] at hriding
        simp at hriding
  | trigger hstatus hprofit _ htrigger =>
      rw [processed_tick (.inl hstatus)]
      rw [gain_of_calculate hl hc hprofit, hc.triggerPercentage] at htrigger
      exact trails_trigger hl ht hstatus htrigger
  | trail hstatus _ _ hhigh =>
      rw [processed_tick (.inr hstatus)]
      exact trails_trail hl ht hstatus hhigh
  | hold hstatus _ _ hhigh _ =>
      rw [processed_tick (.inr hstatus)]
      exact trails_under hl ht hstatus hhigh
  | execute hstatus _ hlock _ =>
      rw [processed_tick (.inr hstatus)]
      rcases hlock with ⟨hcap, -⟩ | ⟨-, hhigh, -⟩
      · exact absurd hcap (notCap hl hc)
      have hunder := trails_under hl ht hstatus hhigh
      exact ⟨hc', fun hm => (by cases hm), fun _ => hunder.riding (.inl hstatus)⟩
  | fail hstatus _ _ _ =>
      exact ⟨hc', fun hm => (by cases hm), fun hr => (by simp at hr)⟩
  | fill hstatus =>
      exact ⟨hc', fun hm => (by cases hm), fun hr => (by simp at hr)⟩
  | cancel hstatus =>
      have hnone : processed st (.cancelled st.lockOrderId) = [] := by simp [processed, Event.prices]
      rw [hnone, List.append_nil]
      exact ⟨hc', fun hm => (by cases hm), fun _ => ht.riding (.inr hstatus)⟩
  | unknown hprices =>
      have hnone : processed st e = [] := by simp [processed, hprices]
      rwa [hnone, List.append_nil]

/-- The lock of a ride keeps the invariant. -/
def Sound (args : EnableArgs) (key : κ) (r : Ride κ W) : Prop :=
  ∃ st, r.store key = some st ∧ Trails args r.seen st

theorem seen_take {r : Ride κ W} (hst : r.store key = some st) :
    (r.take h owner key e).seen = r.seen ++ processed st e := by
  simp only [Ride.take, hst, processed]

omit [ToString κ] in
theorem sound_start (hl : Long args) (store : Store κ) (w : W) : Sound args key (Ride.start h key args store w) := by
  simp only [Sound, Ride.start, hl.enable_eq]
  refine ⟨_, put_same _ _ _, configured_enabledState args, fun _ => ⟨rfl, fun p hp => ?_⟩, fun hr => ?_⟩
  · simp at hp
  · simp [enabledState] at hr

theorem sound_take (hl : Long args) {r : Ride κ W} (hr : Sound args key r) (hpos : Positive e) :
    Sound args key (r.take h owner key e) := by
  obtain ⟨st, hst, ht⟩ := hr
  have hmoved : Moved h owner key e st _ _ _ := Ride.take_moved hst
  obtain ⟨st', asked, hst', -, hm⟩ := hmoved
  refine ⟨st', hst', ?_⟩
  rw [seen_take hst]
  exact trails_moves hl ht hpos hm

theorem sound_foldl (hl : Long args) {r : Ride κ W} (hr : Sound args key r) {events : List Event}
    (hpos : ∀ e ∈ events, Positive e) : Sound args key (events.foldl (Ride.take h owner key) r) := by
  induction events generalizing r with
  | nil => exact hr
  | cons e events ih =>
      exact ih (sound_take hl hr (hpos e (by simp))) (fun e' he' => hpos e' (by simp [he']))

theorem seen_foldl (r : Ride κ W) (events : List Event) :
    ∃ more, (events.foldl (Ride.take h owner key) r).seen = r.seen ++ more := by
  induction events generalizing r with
  | nil => exact ⟨[], (List.append_nil _).symm⟩
  | cons e events ih =>
      obtain ⟨more, hmore⟩ := ih (r.take h owner key e)
      exact ⟨_, by rw [List.foldl_cons, hmore, Ride.take, List.append_assoc]⟩

theorem lockAt_lt_self (hl : Long args) {high : ℚ} (hpos : 0 < high) : lockAt args high < high := by
  have hlt : 1 - args.trailPercentage / 100 < 1 := by linarith [hl.trailPercentage]
  calc high * (1 - args.trailPercentage / 100) < high * 1 := mul_lt_mul_of_pos_left hlt hpos
    _ = high := mul_one high

theorem asked_triggered (hl : Long args) {seen : List ℚ} (ht : Trails args seen st) (hstatus : st.status = .triggered)
    {p : ℚ} (hp : 0 < p) (hm : Moves h o (.tick p) st st' asked) :
    asked = if p ≤ lockAt args (peak args seen) then [lockRequest st (lockAt args (peak args seen))] else [] := by
  have hc := ht.configured
  obtain ⟨hpeak, hlock⟩ := ht.riding (.inl hstatus)
  have hpos : 0 < peak args seen := lt_of_lt_of_le hl.entryPrice (entryPrice_le_peak seen)
  cases hm with
  | unwatched hidle =>
      rcases hidle with hoff | ⟨-, hnt⟩
      · exact absurd hoff (by simp [hc.enabled])
      · exact absurd hstatus hnt
  | uncalculated herror =>
      exact absurd herror (calculate_ne_error hl hc hp)
  | capRefused _ _ hcap => exact absurd hcap (notCap hl hc)
  | below hmon | trigger hmon =>
      rw [hstatus] at hmon
      cases hmon
  | trail _ _ _ hhigh =>
      have hlt := (newHigh_iff hl hc hpeak hlock).mp hhigh
      rw [if_neg (not_le.mpr (lt_trans (lockAt_lt_self hl hpos) hlt))]
  | hold _ _ _ _ habove => rw [if_neg (not_le.mpr (habove _ hlock))]
  | execute _ _ hprice _ | fail _ _ hprice _ =>
      rcases hprice with ⟨hcap, -⟩ | ⟨-, -, hsome, hle⟩
      · exact absurd hcap (notCap hl hc)
      · cases hlock.symm.trans hsome
        rw [if_pos hle]
  | unknown hprices => cases hprices

/-- The law of the long side: the lock price trails the maximum of the prices,
never falls, and is what decides whether an order is placed. -/
theorem trailing_law (hl : Long args) (store : Store κ) (w : W) {events : List Event}
    (hpos : ∀ e ∈ events, Positive e) (hst : (Ride.after h owner key args store w events).store key = some st)
    (hstatus : st.status = .triggered) :
    ∃ high lock, high = (Ride.after h owner key args store w events).seen.foldl max args.entryPrice ∧
      lock = high * (1 - args.trailPercentage / 100) ∧ st.highestPrice = some high ∧ st.lockPrice = some lock ∧
      (∀ more, (∀ e ∈ more, Positive e) → ∀ later,
        (Ride.after h owner key args store w (events ++ more)).store key = some later → later.status = .triggered →
          ∃ raised, later.lockPrice = some raised ∧ lock ≤ raised) ∧
      ∀ p, 0 < p → (Ride.after h owner key args store w (events ++ [.tick p])).placed =
        (Ride.after h owner key args store w events).placed ++ if p ≤ lock then [lockRequest st lock] else [] := by
  have hsound : Sound args key (Ride.after h owner key args store w events) :=
    sound_foldl hl (sound_start hl store w) hpos
  obtain ⟨st0, hst0, ht⟩ := hsound
  cases hst.symm.trans hst0
  obtain ⟨hpeak, hlock⟩ := ht.riding (.inl hstatus)
  refine ⟨_, _, rfl, rfl, hpeak, hlock, fun more hmore later hlater hlstatus => ?_, fun p hp => ?_⟩
  · rw [Ride.after_append] at hlater
    have hsound' : Sound args key (more.foldl (Ride.take h owner key) (Ride.after h owner key args store w events)) :=
      sound_foldl hl ⟨st, hst, ht⟩ hmore
    obtain ⟨st1, hst1, ht1⟩ := hsound'
    cases hlater.symm.trans hst1
    have hextends : ∃ prices, (more.foldl (Ride.take h owner key) (Ride.after h owner key args store w events)).seen =
        (Ride.after h owner key args store w events).seen ++ prices := seen_foldl _ more
    obtain ⟨prices, hseen⟩ := hextends
    refine ⟨_, (ht1.riding (.inl hlstatus)).2, hl.lockAt_le ?_⟩
    rw [hseen]
    exact peak_mono _ prices
  · have hmoved : Moved h owner key (.tick p) st _ _ _ := Ride.take_moved hst
    obtain ⟨st', asked, -, hplaced, hm⟩ := hmoved
    rw [Ride.after_append, List.foldl_cons, List.foldl_nil, hplaced, asked_triggered hl ht hstatus hp hm]
    rfl

def trailed : EnableArgs :=
  { exchangeAccountId := some 1, symbol := "BTCUSDT", entryPrice := 100, quantity := 1, side := "long"
    triggerPercentage := 10, trailPercentage := 5 }

theorem long_trailed : Long trailed := ⟨rfl, by decide, by decide, by decide, by decide, by decide, by decide⟩

theorem trailing_law_at130 :
    ∃ high lock, high = (Ride.after accepting id "a" trailed (fun _ => none) () [.tick 105, .tick 120, .tick 130]).seen.foldl
        max 100 ∧
      lock = high * (1 - 5 / 100) ∧ some (130 : ℚ) = some high ∧ some (130 * (1 - 5 / 100) : ℚ) = some lock ∧
      (∀ more, (∀ e ∈ more, Positive e) → ∀ later,
        (Ride.after accepting id "a" trailed (fun _ => none) () ([.tick 105, .tick 120, .tick 130] ++ more)).store "a" =
            some later → later.status = .triggered →
          ∃ raised, later.lockPrice = some raised ∧ lock ≤ raised) ∧
      ∀ p, 0 < p → (Ride.after accepting id "a" trailed (fun _ => none) ()
          ([.tick 105, .tick 120, .tick 130] ++ [.tick p])).placed =
        (Ride.after accepting id "a" trailed (fun _ => none) () [.tick 105, .tick 120, .tick 130]).placed ++
          if p ≤ lock then
            [lockRequest { enabledState trailed with
              status := .triggered, isTriggered := true, highestPrice := some 130
              lockPrice := some (130 * (1 - 5 / 100)) } lock]
          else [] :=
  trailing_law long_trailed _ () (by simp [Positive, Event.prices])
    (show (Ride.after accepting id "a" trailed (fun _ => none) () [.tick 105, .tick 120, .tick 130]).store "a" =
      some { enabledState trailed with
        status := .triggered, isTriggered := true, highestPrice := some 130, lockPrice := some (130 * (1 - 5 / 100)) } by
      decide +kernel) rfl

end Utos.ProfitLock.Trailing
