import Utos.Execution.Validator
import Utos.Grid.Engine
import Mathlib.Tactic.FieldSimp
import Mathlib.Tactic.Linarith
import Mathlib.Tactic.Positivity
import Mathlib.Tactic.Ring

namespace Utos.Grid.EvenGrid

open Core.DomainTypes Core.Exceptions Execution.Models Execution.Validator Calculator Engine

variable {upper lower inv : ℚ} {count : Nat}

/-- Both orders of the level pass the validator, in a grid with an account and a symbol. -/
def Passes (lv : GridLevel) : Prop :=
  ∀ state : GridState, state.exchangeAccountId ≠ none → blank state.symbol = false → ∀ requestId,
    validate (limitOrder state .buy lv.quantity (some lv.buyPrice) requestId) = .ok () ∧
      validate (limitOrder state .sell lv.quantity (some lv.sellPrice) requestId) = .ok ()

structure SoundLevel (upper inv : ℚ) (lv : GridLevel) : Prop where
  positive : 0 < lv.buyPrice
  sells : lv.buyPrice < lv.sellPrice
  capped : lv.sellPrice ≤ upper
  buys : 0 < lv.quantity
  spends : lv.quantity * lv.buyPrice = inv
  passes : Passes lv

/-- The grid has as many levels as it should, in rising order, and each of them can be traded. -/
def Tradable (upper lower : ℚ) (count : Nat) (inv : ℚ) : Prop :=
  ∃ levels, calculateLevels upper lower count inv = .ok levels ∧ levels.length = count ∧
    levels.Pairwise (fun lv next => lv.buyPrice < next.buyPrice) ∧ ∀ lv ∈ levels, SoundLevel upper inv lv

/-- The validator asks of a limit order that its account, its symbol, its quantity and its price are there. -/
theorem validate_limitOrder_iff (state : GridState) (side : OrderSide) (quantity price : ℚ) (requestId : UUID) :
    validate (limitOrder state side quantity (some price) requestId) = .ok () ↔
      state.exchangeAccountId ≠ none ∧ blank state.symbol = false ∧ 0 < quantity ∧ 0 < price := by
  unfold validate limitOrder
  simp only [missing, decide_eq_true_eq]
  by_cases hacct : state.exchangeAccountId = none
  · simp [hacct]
  cases hsymbol : blank state.symbol with
  | true => simp [hacct]
  | false =>
      by_cases hq : quantity ≤ 0
      · simp [hacct, hq]
      by_cases hp : price ≤ 0
      · simp [hacct, hq, hp]
      · simp [hacct, hq, hp, not_le.mp hq, not_le.mp hp]

theorem passes_iff (lv : GridLevel) :
    Passes lv ↔ 0 < lv.quantity ∧ 0 < lv.buyPrice ∧ 0 < lv.sellPrice := by
  constructor
  · intro h
    obtain ⟨hbuy, hsell⟩ := h
      { instanceId := "", status := .idle, upperPrice := 0, lowerPrice := 0, gridCount := 0, gridSpacing := 0
        investmentPerGrid := 0, exchangeAccountId := some 0, symbol := "BTCUSDT" } (by simp) (by decide) 0
    rw [validate_limitOrder_iff] at hbuy hsell
    exact ⟨hbuy.2.2.1, hbuy.2.2.2, hsell.2.2.2⟩
  · rintro ⟨hq, hbuy, hsell⟩ state hacct hsymbol requestId
    exact ⟨(validate_limitOrder_iff ..).mpr ⟨hacct, hsymbol, hq, hbuy⟩,
      (validate_limitOrder_iff ..).mpr ⟨hacct, hsymbol, hq, hsell⟩⟩

theorem validateParameters_ok {a : Unit} (h : validateParameters upper lower count inv = .ok a) :
    lower < upper ∧ 2 ≤ count ∧ 0 < inv := by
  unfold validateParameters at h
  split at h
  next => cases h
  next hrange =>
    split at h
    next => cases h
    next hcount =>
      split at h
      next => cases h
      next hinv => exact ⟨not_le.mp hrange, not_lt.mp hcount, not_le.mp hinv⟩

theorem spacing_pos (hrange : lower < upper) (hcount : 2 ≤ count) : 0 < calculateSpacing upper lower count := by
  have hc : (0 : ℚ) < count := by exact_mod_cast (show 0 < count by omega)
  exact div_pos (sub_pos.mpr hrange) hc

/-- Even the last level buys below the upper price, which caps the sell prices. -/
theorem buyPrice_lt_upper (hrange : lower < upper) (hcount : 2 ≤ count) {i : Nat} (hi : i < count) :
    lower + calculateSpacing upper lower count * i < upper := by
  have hc : (0 : ℚ) < count := by exact_mod_cast (show 0 < count by omega)
  have hlt : calculateSpacing upper lower count * i < calculateSpacing upper lower count * count :=
    mul_lt_mul_of_pos_left (by exact_mod_cast hi) (spacing_pos hrange hcount)
  have hall : calculateSpacing upper lower count * count = upper - lower := div_mul_cancel₀ _ hc.ne'
  linarith

theorem soundLevel_levelAt (hlower : 0 < lower) (hrange : lower < upper) (hcount : 2 ≤ count) (hinv : 0 < inv)
    {i : Nat} (hi : i < count) :
    SoundLevel upper inv (levelAt upper lower (calculateSpacing upper lower count) inv i) := by
  have hspacing := spacing_pos hrange hcount
  have hupper := buyPrice_lt_upper hrange hcount hi
  have hbuy : 0 < lower + calculateSpacing upper lower count * i := by positivity
  have hstep : 0 < calculateSpacing upper lower count * tpMultiplier := mul_pos hspacing (by norm_num [tpMultiplier])
  have hsell : lower + calculateSpacing upper lower count * i <
      (levelAt upper lower (calculateSpacing upper lower count) inv i).sellPrice := by
    simp only [levelAt]
    split
    · exact hupper
    · exact lt_add_of_pos_right _ hstep
  have hquantity : (levelAt upper lower (calculateSpacing upper lower count) inv i).quantity =
      inv / (lower + calculateSpacing upper lower count * i) := if_pos hbuy
  have hq : 0 < (levelAt upper lower (calculateSpacing upper lower count) inv i).quantity :=
    hquantity ▸ div_pos hinv hbuy
  refine ⟨hbuy, hsell, ?_, hq, ?_, (passes_iff _).mpr ⟨hq, hbuy, hbuy.trans hsell⟩⟩
  · simp only [levelAt]
    split
    · exact le_rfl
    next h => exact not_lt.mp h
  · rw [hquantity]
    exact div_mul_cancel₀ _ hbuy.ne'

/-- The grid is as documented exactly when its lower price is positive, which validate_parameters
does not ask for. -/
theorem tradable_iff (hvalid : validateParameters upper lower count inv = .ok ()) :
    Tradable upper lower count inv ↔ 0 < lower := by
  obtain ⟨hrange, hcount, hinv⟩ := validateParameters_ok hvalid
  have hlevels : calculateLevels upper lower count inv =
      .ok ((List.range count).map (levelAt upper lower (calculateSpacing upper lower count) inv)) := by
    simp only [calculateLevels, hvalid, bind, Except.bind, pure, Except.pure]
  constructor
  · rintro ⟨levels, hok, -, -, hsound⟩
    rw [hlevels, Except.ok.injEq] at hok
    have hfirst := hsound _ (hok ▸ List.mem_map_of_mem (List.mem_range.mpr (show 0 < count by omega)))
    simpa [levelAt] using hfirst.positive
  · intro hlower
    refine ⟨_, hlevels, by simp, ?_, ?_⟩
    · rw [List.pairwise_map]
      refine List.pairwise_lt_range.imp (fun hlt => ?_)
      have hmul := mul_lt_mul_of_pos_left (Nat.cast_lt (α := ℚ).mpr hlt) (spacing_pos hrange hcount)
      simpa [levelAt] using hmul
    · intro lv hlv
      obtain ⟨i, hi, rfl⟩ := List.mem_map.mp hlv
      exact soundLevel_levelAt hlower hrange hcount hinv (List.mem_range.mp hi)

theorem tradable_fifty : Tradable 100 50 5 100 := (tradable_iff (by decide +kernel)).mpr (by norm_num)

/-- From 0 to 100 the first level would buy at 0. -/
theorem not_tradable_from_zero :
    validateParameters 100 0 5 100 = .ok () ∧ ¬ Tradable 100 0 5 100 := by
  refine ⟨by decide +kernel, ?_⟩
  rintro ⟨levels, hok, -, -, hsound⟩
  have hlevels : calculateLevels 100 0 5 100 = .ok ((List.range 5).map (levelAt 100 0 20 100)) := by decide +kernel
  rw [hlevels, Except.ok.injEq] at hok
  have hfirst := hsound (levelAt 100 0 20 100 0) (hok ▸ List.mem_map_of_mem (by decide))
  exact absurd hfirst.positive (by decide +kernel)

end Utos.Grid.EvenGrid
