import Utos.ProfitLock.Floor
import Mathlib.Algebra.Order.Field.Basic

namespace Utos.ProfitLock.Short

open Coroutine Program Core.DomainTypes Core.Exceptions Execution.Models Execution.Service State Policy Engine Ticks Course
open Trailing Floor

variable {κ ω W : Type} [DecidableEq κ] [ToString κ] {h : Handler W (ExecReq ω) (ExecAns ω)} {owner : κ → ω} {key : κ}
variable {args : EnableArgs} {store : Store κ} {w : W}

/-- The mirror image of the long side: an order is placed only at a price that
has risen from the lowest one since the trigger by the trail. -/
def TrailsDown (h : Handler W (ExecReq ω) (ExecAns ω)) (owner : κ → ω) (key : κ) (args : EnableArgs) (store : Store κ)
    (w : W) : Prop :=
  ∀ events p, (Ride.after h owner key args store w (events ++ [.tick p])).placed ≠
      (Ride.after h owner key args store w events).placed →
    ∃ low ∈ (Ride.after h owner key args store w events).since,
      (∀ q ∈ (Ride.after h owner key args store w events).since, low ≤ q) ∧
        low * (1 + args.trailPercentage / 100) ≤ p ∧ ¬ p < low

theorem gain_short_lt {entryPrice p : ℚ} (hentry : 0 < entryPrice) (hp : 0 < p) : gain "short" entryPrice p < 100 := by
  have hne : ¬ "short" = "long" := by decide
  rw [gain, if_neg hne, sub_div, div_self hentry.ne']
  linarith [div_pos hp hentry]

theorem untriggerable_of_large (hshort : args.side = "short") (hlarge : 100 ≤ args.triggerPercentage) :
    Untriggerable args := by
  intro p profit hprofit
  obtain ⟨hentry, hp, -, hgain⟩ := calculate_ok hprofit
  rw [hshort] at hgain
  right
  rw [hgain]
  exact lt_of_lt_of_le (gain_short_lt hentry hp) hlarge

theorem gain_short_at_trigger {entryPrice : ℚ} (percentage : ℚ) (hentry : 0 < entryPrice) :
    gain "short" entryPrice (entryPrice * (1 - percentage / 100)) = percentage := by
  have hne : ¬ "short" = "long" := by decide
  rw [gain, if_neg hne]
  field_simp
  linarith

/-- The lock stays at a distance below the entry price, and is reached as the price falls on. -/
theorem sold_at_new_low (hshort : args.side = "short") (hok : (run h (enable key args) store w).1 = .ok true)
    (hnocap : args.maxProfitPercentage ≤ 0) (hentry : 0 < args.entryPrice) (hquantity : 0 < args.quantity)
    (htrigger : args.triggerPercentage < 100) : ¬ TrailsDown h owner key args store w := by
  intro htrails
  have hadmitted := (admitted_of_enable hok).1
  let p0 := args.entryPrice * (1 - args.triggerPercentage / 100)
  have hkeep : 0 < 1 - args.trailPercentage / 100 := by linarith [hadmitted.trail_lt]
  have hshare : 0 < 1 - args.triggerPercentage / 100 := by linarith
  have hp0 : 0 < p0 := mul_pos hentry hshare
  have hp0_lt : p0 < args.entryPrice := mul_lt_of_lt_one_right hentry (by linarith [hadmitted.triggerPercentage])
  have hlock : 0 < lockAt args args.entryPrice := mul_pos hentry hkeep
  let p1 := min p0 (lockAt args args.entryPrice) / 2
  have hmin : 0 < min p0 (lockAt args args.entryPrice) := lt_min hp0 hlock
  have hp1 : 0 < p1 := half_pos hmin
  have hp1_p0 : p1 < p0 := lt_of_lt_of_le (half_lt_self hmin) (min_le_left _ _)
  have hp1_lock : p1 < lockAt args args.entryPrice := lt_of_lt_of_le (half_lt_self hmin) (min_le_right _ _)
  obtain ⟨profit0, hprofit0⟩ := calculate_defined hentry hp0 hquantity (.inr hshort)
  obtain ⟨profit1, hprofit1⟩ := calculate_defined hentry hp1 hquantity (.inr hshort)
  have hgain0 : args.triggerPercentage ≤ profit0.profitPercentage := by
    rw [(calculate_ok hprofit0).2.2.2, hshort]
    exact (gain_short_at_trigger _ hentry).ge
  have hcap : ∀ profit : ProfitResult,
      ¬ (0 < args.maxProfitPercentage ∧ args.maxProfitPercentage ≤ profit.profitPercentage) :=
    fun _ hreached => absurd hreached.1 (not_lt.mpr hnocap)
  obtain ⟨hplaced0, hsince, st, hplaced1⟩ := placed_of_two_ticks hok hprofit0 (hcap _) hgain0 hprofit1 (hcap _)
    (by rw [max_eq_left hp0_lt.le]; exact (lt_trans hp1_p0 hp0_lt).le)
    (by rw [max_eq_left hp0_lt.le]; exact hp1_lock.le)
  obtain ⟨low, hlow, -, -, hnolow⟩ := htrails [.tick p0] p1 (by
    rw [hplaced0]
    exact fun hnil => by cases hplaced1.symm.trans hnil)
  rw [hsince, List.mem_singleton] at hlow
  subst hlow
  exact hnolow hp1_p0

/-- A short lock without a cap follows the mirror image of the long side's law exactly if no price can trigger it. -/
theorem trailsDown_iff (hshort : args.side = "short") (hok : (run h (enable key args) store w).1 = .ok true)
    (hnocap : args.maxProfitPercentage ≤ 0) :
    TrailsDown h owner key args store w ↔
      100 ≤ args.triggerPercentage ∨ args.entryPrice ≤ 0 ∨ args.quantity ≤ 0 := by
  constructor
  · intro htrails
    by_contra hcond
    simp only [not_or, not_le] at hcond
    obtain ⟨htrigger, hentry, hquantity⟩ := hcond
    exact sold_at_new_low hshort hok hnocap hentry hquantity htrigger htrails
  · intro hcond
    have hnever : Untriggerable args :=
      hcond.elim (untriggerable_of_large hshort) untriggerable_of_rejected
    intro events p hne
    rw [untriggerable_silent hok hnever, untriggerable_silent hok hnever] at hne
    exact absurd rfl hne

def shorted : EnableArgs :=
  { exchangeAccountId := some 1, symbol := "BTCUSDT", entryPrice := 100, quantity := 1, side := "short"
    triggerPercentage := 10, trailPercentage := 5 }

theorem trailsDown_iff_shorted :
    TrailsDown accepting id "a" shorted (fun _ => none) () ↔ (100 : ℚ) ≤ 10 ∨ (100 : ℚ) ≤ 0 ∨ (1 : ℚ) ≤ 0 :=
  trailsDown_iff rfl (by decide +kernel) (by decide)

/-- A short sold at 100 triggers at 90 and is bought back at 80, with the price still falling. -/
theorem short_executed_at_new_low :
    (run accepting (enable "a" shorted) (fun _ => none) ()).1 = .ok true ∧
      ¬ TrailsDown accepting id "a" shorted (fun _ => none) () := by
  refine ⟨by decide +kernel, fun htrails => ?_⟩
  have hlengths : (Ride.after accepting id "a" shorted (fun _ => none) () [.tick 90, .tick 80]).placed.length = 1 ∧
      (Ride.after accepting id "a" shorted (fun _ => none) () [.tick 90]).placed.length = 0 ∧
      (Ride.after accepting id "a" shorted (fun _ => none) () [.tick 90]).since = [90] := by decide +kernel
  obtain ⟨hone, hzero, hsince⟩ := hlengths
  obtain ⟨low, hlow, -, -, hnolow⟩ := htrails [.tick 90] 80 (by
    intro heq
    rw [List.cons_append, List.nil_append] at heq
    rw [heq, hzero] at hone
    cases hone)
  rw [hsince, List.mem_singleton] at hlow
  subst hlow
  exact hnolow (by decide)

end Utos.ProfitLock.Short
