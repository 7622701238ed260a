import Utos.Grid.State
import Mathlib.Algebra.Order.Floor.Defs
import Mathlib.Data.Rat.Floor

namespace Utos.Grid.Planner

open Core.DomainTypes State

inductive ActionKind
  | placeBuy
  | placeSell
  | cancel
  deriving DecidableEq, Repr

structure GridAction where
  level : Nat
  action : ActionKind
  side : OrderSide
  price : ℚ
  quantity : ℚ
  orderId : OrderId := none
  deriving DecidableEq, Repr

def placeBuyOf (lv : GridLevel) : GridAction :=
  { level := lv.level, action := .placeBuy, side := .buy, price := lv.buyPrice, quantity := lv.quantity }

def placeSellOf (lv : GridLevel) : GridAction :=
  { level := lv.level, action := .placeSell, side := .sell, price := lv.sellPrice, quantity := lv.quantity }

/-- GridPlanner._plan_level -/
def planLevel (lv : GridLevel) (currentPrice : ℚ) : Option GridAction :=
  match lv.status with
  | .waiting => if currentPrice ≤ lv.buyPrice then some (placeBuyOf lv) else none
  | .filled => if lv.sellPrice ≤ currentPrice then some (placeSellOf lv) else none
  | .tpHit => some (placeBuyOf lv)
  | .opened => none
  | .cancelled => none

/-- The membership test of skip_buy_levels: the set is built only for an
active breaker with a multiplier whose integer part is above one. -/
def skipsBuy (breakerActive : Bool) (widenMultiplier : ℚ) (level : Nat) : Bool :=
  breakerActive && decide (widenMultiplier ≠ 0) && decide (1 < widenMultiplier) &&
    decide (1 < ⌊widenMultiplier⌋) && decide ((level : Int) % ⌊widenMultiplier⌋ ≠ 0)

def plan (levels : List GridLevel) (currentPrice : ℚ) (breakerActive : Bool) (widenMultiplier : ℚ) :
    List GridAction :=
  levels.filterMap (fun lv => match planLevel lv currentPrice with
    | none => none
    | some action =>
        if action.action = .placeBuy ∧ skipsBuy breakerActive widenMultiplier action.level then none
        else some action)

def planInitial (levels : List GridLevel) (currentPrice : ℚ) : List GridAction :=
  levels.filterMap (fun lv =>
    if lv.status = .waiting ∧ lv.buyPrice < currentPrice then some (placeBuyOf lv) else none)

/-- lv.buy_order_id or lv.sell_order_id -/
def pendingOrderId (lv : GridLevel) : OrderId :=
  if truthy lv.buyOrderId then lv.buyOrderId else lv.sellOrderId

def cancelOf (lv : GridLevel) : Option GridAction :=
  if lv.status = .opened then
    match pendingOrderId lv with
    | none => none
    | some orderId => some
        { level := lv.level, action := .cancel, side := if truthy lv.buyOrderId then .buy else .sell
          price := lv.buyPrice, quantity := lv.quantity, orderId := some orderId }
  else none

def planCancelAll (levels : List GridLevel) : List GridAction := levels.filterMap cancelOf

theorem planLevel_level {lv : GridLevel} {p : ℚ} {a : GridAction} (h : planLevel lv p = some a) :
    a.level = lv.level := by
  unfold planLevel at h
  split at h
  · split at h
    · cases h; rfl
    · cases h
  · split at h
    · cases h; rfl
    · cases h
  · cases h; rfl
  · cases h
  · cases h

/-- The planner places a buy only for a level that waits or has completed its
cycle, and a sell only for one that has filled. -/
theorem planLevel_cases {lv : GridLevel} {p : ℚ} {a : GridAction} (h : planLevel lv p = some a) :
    a = placeBuyOf lv ∧ (lv.status = .waiting ∧ p ≤ lv.buyPrice ∨ lv.status = .tpHit) ∨
      a = placeSellOf lv ∧ lv.status = .filled ∧ lv.sellPrice ≤ p := by
  unfold planLevel at h
  split at h
  next hw =>
    split at h
    next hp => cases h; exact .inl ⟨rfl, .inl ⟨hw, hp⟩⟩
    next => cases h
  next hf =>
    split at h
    next hp => cases h; exact .inr ⟨rfl, hf, hp⟩
    next => cases h
  next ht => cases h; exact .inl ⟨rfl, .inr ht⟩
  next => cases h
  next => cases h

theorem mem_plan {levels : List GridLevel} {p m : ℚ} {b : Bool} {a : GridAction}
    (h : a ∈ plan levels p b m) : ∃ lv ∈ levels, planLevel lv p = some a := by
  obtain ⟨lv, hlv, ha⟩ := List.mem_filterMap.mp h
  refine ⟨lv, hlv, ?_⟩
  cases hp : planLevel lv p with
  | none => simp [hp] at ha
  | some a' =>
      simp only [hp] at ha
      split at ha
      · cases ha
      · exact ha

/-- No widened step holds a sell back. -/
theorem placeSellOf_mem_plan {levels : List GridLevel} {p m : ℚ} {b : Bool} {lv : GridLevel}
    (hlv : lv ∈ levels) (hf : lv.status = .filled) (hp : lv.sellPrice ≤ p) :
    placeSellOf lv ∈ plan levels p b m := by
  refine List.mem_filterMap.mpr ⟨lv, hlv, ?_⟩
  have h : planLevel lv p = some (placeSellOf lv) := by simp [planLevel, hf, hp]
  simp [h, placeSellOf]

theorem filterMap_level_sublist {f : GridLevel → Option GridAction}
    (hf : ∀ lv a, f lv = some a → a.level = lv.level) (levels : List GridLevel) :
    ((levels.filterMap f).map GridAction.level).Sublist (levels.map GridLevel.level) := by
  induction levels with
  | nil => simp
  | cons lv rest ih =>
      cases h : f lv with
      | none => simpa [h] using ih.cons lv.level
      | some a => simpa [h, hf lv a h] using ih.cons_cons lv.level

theorem plan_levels_sublist (levels : List GridLevel) (p m : ℚ) (b : Bool) :
    ((plan levels p b m).map GridAction.level).Sublist (levels.map GridLevel.level) := by
  refine filterMap_level_sublist (fun lv a h => ?_) levels
  cases hp : planLevel lv p with
  | none => simp [hp] at h
  | some a' =>
      simp only [hp] at h
      split at h
      · cases h
      · cases h; exact planLevel_level hp

theorem planInitial_levels_sublist (levels : List GridLevel) (p : ℚ) :
    ((planInitial levels p).map GridAction.level).Sublist (levels.map GridLevel.level) := by
  refine filterMap_level_sublist (fun lv a h => ?_) levels
  split at h
  · cases h; rfl
  · cases h

theorem mem_planInitial {levels : List GridLevel} {p : ℚ} {a : GridAction} (h : a ∈ planInitial levels p) :
    ∃ lv ∈ levels, a = placeBuyOf lv := by
  obtain ⟨lv, hlv, ha⟩ := List.mem_filterMap.mp h
  split at ha
  · cases ha; exact ⟨lv, hlv, rfl⟩
  · cases ha

end Utos.Grid.Planner
