import Utos.ProfitLock.Trailing
import Mathlib.Tactic.FieldSimp

namespace Utos.ProfitLock.Floor

open Coroutine Program Core.DomainTypes Core.Exceptions Execution.Models Execution.Service State Policy Engine Ticks Course
open Trailing

variable {κ ω W : Type} [DecidableEq κ] [ToString κ] {h : Handler W (ExecReq ω) (ExecAns ω)} {owner : κ → ω} {key : κ}
variable {args : EnableArgs} {st st' : ProfitLockState} {asked : List (UUID → OrderRequest)} {e : Event} {o : ω}
variable {store : Store κ} {w : W} {p lock : ℚ} {profit : ProfitResult}

/-- What enable checks, and what it leaves. -/
structure Admitted (args : EnableArgs) : Prop where
  triggerPercentage : 0 < args.triggerPercentage
  trailPercentage : 0 < args.trailPercentage
  trail_lt : args.trailPercentage < 100

omit [ToString κ] in
theorem admitted_of_enable (hok : (run h (enable key args) store w).1 = .ok true) :
    Admitted args ∧ Ride.start h key args store w = { store := store.put key (enabledState args), world := w } := by
  unfold Ride.start
  unfold enable at hok ⊢
  split at hok
  next => cases hok
  next htrigger =>
  split at hok
  next => cases hok
  next htrail =>
  split at hok
  next => cases hok
  next hlt =>
  rw [if_neg htrigger, if_neg htrail, if_neg hlt]
  exact ⟨⟨not_le.mp htrigger, not_le.mp htrail, not_le.mp hlt⟩, rfl⟩

/-- A run keeps what every event keeps, of the lock and of the orders asked for. -/
theorem ride_invariant {I : ProfitLockState → Prop} {R : (UUID → OrderRequest) → Prop}
    (hok : (run h (enable key args) store w).1 = .ok true) (hstart : I (enabledState args))
    (hstep : ∀ {e st st' asked}, I st → Moves h (owner key) e st st' asked → I st' ∧ ∀ request ∈ asked, R request)
    (events : List Event) :
    (∃ st, (Ride.after h owner key args store w events).store key = some st ∧ I st) ∧
      ∀ request ∈ (Ride.after h owner key args store w events).placed, R request := by
  induction events using List.reverseRecOn with
  | nil =>
      rw [Ride.after, List.foldl_nil, (admitted_of_enable hok).2]
      exact ⟨⟨_, put_same _ _ _, hstart⟩, by simp⟩
  | append_singleton events e ih =>
      obtain ⟨⟨st, hst, hI⟩, hR⟩ := ih
      have hmoved : Moved h owner key e st _ _ _ := Ride.take_moved hst
      obtain ⟨st', asked, hst', hplaced, hm⟩ := hmoved
      obtain ⟨hI', hasked⟩ := hstep hI hm
      rw [Ride.after_append, List.foldl_cons, List.foldl_nil]
      refine ⟨⟨st', hst', hI'⟩, fun request hrequest => ?_⟩
      rw [hplaced] at hrequest
      exact (List.mem_append.mp hrequest).elim (hR request) (hasked request)

/-- No price that the calculator accepts triggers the lock. -/
def Untriggerable (args : EnableArgs) : Prop :=
  ∀ p profit, calculate args.entryPrice p args.quantity args.side = .ok profit →
    0 < args.maxProfitPercentage ∧ args.maxProfitPercentage ≤ profit.profitPercentage ∨
      profit.profitPercentage < args.triggerPercentage

theorem untriggerable_moves (hnever : Untriggerable args) (hI : Configured args st ∧ st.status = .monitoring)
    (hm : Moves h o e st st' asked) : (Configured args st' ∧ st'.status = .monitoring) ∧ ∀ request ∈ asked, False := by
  obtain ⟨hc, hstatus⟩ := hI
  have hc' := configured_moves hc hm
  cases hm with
  | unwatched _ | uncalculated _ | capRefused _ _ _ | below _ _ _ _ | unknown _ => exact ⟨⟨hc, hstatus⟩, by simp⟩
  | trigger _ hprofit hcap htrigger =>
      rw [hc.entryPrice, hc.quantity, hc.side] at hprofit
      rw [CapReached, hc.maxProfitPercentage] at hcap
      rw [hc.triggerPercentage] at htrigger
      exact ((hnever _ _ hprofit).elim hcap (fun hlt => absurd htrigger (not_le.mpr hlt))).elim
  | trail ht _ _ _ | hold ht _ _ _ _ | execute ht _ _ _ | fail ht _ _ _ | fill ht | cancel ht =>
      rw [hstatus] at ht
      cases ht

theorem untriggerable_silent (hok : (run h (enable key args) store w).1 = .ok true) (hnever : Untriggerable args)
    (events : List Event) : (Ride.after h owner key args store w events).placed = [] := by
  have hrun : _ ∧ ∀ request ∈ (Ride.after h owner key args store w events).placed, False :=
    ride_invariant hok ⟨configured_enabledState args, rfl⟩ (untriggerable_moves hnever) events
  exact List.eq_nil_iff_forall_not_mem.mpr hrun.2

theorem moves_trigger (hm : Moves h o (.tick p) st st' asked) (henabled : st.enabled = true)
    (hstatus : st.status = .monitoring) (hprofit : calculate st.entryPrice p st.quantity st.side = .ok profit)
    (hcap : ¬ CapReached st profit) (htrigger : st.triggerPercentage ≤ profit.profitPercentage) :
    st' = triggeredState st p (lockBelow st (newHighest st.highestPrice p)) ∧ asked = [] := by
  cases hm with
  | unwatched hidle =>
      rcases hidle with hoff | ⟨hnm, -⟩
      · exact absurd hoff (by simp [henabled])
      · exact absurd hstatus hnm
  | uncalculated herror =>
      rw [hprofit] at herror
      cases herror
  | capRefused _ hprofit' hcap' =>
      cases hprofit.symm.trans hprofit'
      exact absurd hcap' hcap
  | below _ hprofit' _ hlt =>
      cases hprofit.symm.trans hprofit'
      exact absurd htrigger (not_le.mpr hlt)
  | trigger _ _ _ _ => exact ⟨rfl, rfl⟩
  | trail ht _ _ _ | hold ht _ _ _ _ | execute ht _ _ _ | fail ht _ _ _ =>
      rw [hstatus] at ht
      cases ht
  | unknown hprices => cases hprices

theorem moves_execute (hm : Moves h o (.tick p) st st' asked) (henabled : st.enabled = true)
    (hstatus : st.status = .triggered) (hprofit : calculate st.entryPrice p st.quantity st.side = .ok profit)
    (hcap : ¬ CapReached st profit) (hhigh : ¬ NewHigh st p) (hlock : st.lockPrice = some lock) (hle : p ≤ lock) :
    asked = [lockRequest st lock] := by
  cases hm with
  | unwatched hidle =>
      rcases hidle with hoff | ⟨-, hnt⟩
      · exact absurd hoff (by simp [henabled])
      · exact absurd hstatus hnt
  | uncalculated herror =>
      rw [hprofit] at herror
      cases herror
  | capRefused hmon _ _ | below hmon _ _ _ | trigger hmon _ _ _ =>
      rw [hstatus] at hmon
      cases hmon
  | trail _ _ _ hhigh' => exact absurd hhigh' hhigh
  | hold _ _ _ _ habove => exact absurd hle (not_le.mpr (habove lock hlock))
  | execute _ hprofit' hprice _ | fail _ hprofit' hprice _ =>
      cases hprofit.symm.trans hprofit'
      rcases hprice with ⟨hcap', -⟩ | ⟨-, -, hsome, -⟩
      · exact absurd hcap' hcap
      · cases hlock.symm.trans hsome
        rfl
  | unknown hprices => cases hprices

theorem newHighest_some (high p : ℚ) : newHighest (some high) p = max high p := by
  rw [newHighest]
  split
  next hlt => rw [max_eq_right hlt.le]
  next hle => rw [max_eq_left (not_lt.mp hle)]

/-- What two ticks ask for, the first of which triggers the lock and the second reaches it. -/
theorem placed_of_two_ticks {p0 p1 : ℚ} {profit0 profit1 : ProfitResult}
    (hok : (run h (enable key args) store w).1 = .ok true)
    (hprofit0 : calculate args.entryPrice p0 args.quantity args.side = .ok profit0)
    (hcap0 : ¬ (0 < args.maxProfitPercentage ∧ args.maxProfitPercentage ≤ profit0.profitPercentage))
    (htrigger : args.triggerPercentage ≤ profit0.profitPercentage)
    (hprofit1 : calculate args.entryPrice p1 args.quantity args.side = .ok profit1)
    (hcap1 : ¬ (0 < args.maxProfitPercentage ∧ args.maxProfitPercentage ≤ profit1.profitPercentage))
    (hhigh : p1 ≤ max args.entryPrice p0) (hle : p1 ≤ lockAt args (max args.entryPrice p0)) :
    (Ride.after h owner key args store w [.tick p0]).placed = [] ∧
      (Ride.after h owner key args store w [.tick p0]).since = [p0] ∧
      ∃ st, (Ride.after h owner key args store w [.tick p0, .tick p1]).placed =
        [lockRequest st (lockAt args (max args.entryPrice p0))] := by
  obtain ⟨hadmitted, hstart⟩ := admitted_of_enable hok
  have hentry := (calculate_ok hprofit0).1
  -- the first tick triggers the lock
  have hst0 : (Ride.start h key args store w).store key = some (enabledState args) := by
    rw [hstart]
    exact put_same _ _ _
  have hmoved0 : Moved h owner key (.tick p0) (enabledState args) _
      (Ride.after h owner key args store w [.tick p0]).store
      (Ride.after h owner key args store w [.tick p0]).placed := Ride.take_moved hst0
  obtain ⟨st1, asked0, hst1, hplaced0, hm0⟩ := hmoved0
  obtain ⟨rfl, rfl⟩ := moves_trigger hm0 rfl rfl hprofit0 hcap0 htrigger
  have hplaced1 : (Ride.after h owner key args store w [.tick p0]).placed = [] := by
    rw [hplaced0, hstart]
    rfl
  refine ⟨hplaced1, ?_, ?_⟩
  · have htriggered : isTriggered ((Ride.after h owner key args store w [.tick p0]).store key) = true := by
      rw [hst1]
      rfl
    simp only [Ride.after, List.foldl_cons, List.foldl_nil] at htriggered ⊢
    rw [Ride.take] at htriggered ⊢
    simp only [htriggered, hst0, if_true]
    rw [hstart]
    rfl
  -- the second one has the order placed
  · have hmoved1 : Moved h owner key (.tick p1) _ _ _
        (Ride.after h owner key args store w [.tick p0, .tick p1]).placed := Ride.take_moved hst1
    obtain ⟨st2, asked1, -, hplaced2, hm1⟩ := hmoved1
    have hlock : (triggeredState (enabledState args) p0 (lockBelow (enabledState args)
        (newHighest (enabledState args).highestPrice p0))).lockPrice = some (lockAt args (max args.entryPrice p0)) := by
      simp only [triggeredState, enabledState, newHighest_some]
      rfl
    have hnohigh : ¬ NewHigh (triggeredState (enabledState args) p0 (lockBelow (enabledState args)
        (newHighest (enabledState args).highestPrice p0))) p1 := by
      rintro ⟨hnew, -⟩
      simp only [triggeredState, enabledState, raisedHigh_pos hentry, newHighest_some, Option.getD_some,
        max_eq_left hhigh] at hnew
      exact lt_irrefl _ hnew
    have hasked := moves_execute hm1 rfl rfl hprofit1 hcap1 hnohigh hlock hle
    have happend : (Ride.after h owner key args store w [.tick p0, .tick p1]).placed =
        (Ride.after h owner key args store w [.tick p0]).placed ++ asked1 := hplaced2
    exact ⟨_, by rw [happend, hplaced1, hasked, List.nil_append]⟩

theorem untriggerable_of_rejected (hrejected : args.entryPrice ≤ 0 ∨ args.quantity ≤ 0) : Untriggerable args := by
  intro p profit hprofit
  obtain ⟨hentry, -, hquantity, -⟩ := calculate_ok hprofit
  rcases hrejected with hle | hle
  · exact absurd hentry (not_lt.mpr hle)
  · exact absurd hquantity (not_lt.mpr hle)

end Utos.ProfitLock.Floor
