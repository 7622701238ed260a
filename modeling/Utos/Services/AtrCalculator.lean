import Utos.Core.HalfEven
import Utos.Core.Sequence
import Utos.MarketData.Hub

namespace Utos.Services.AtrCalculator

open Core.Exceptions Core.HalfEven Core.Sequence MarketData.Hub

/-- ATR_PERIOD -/
def atrPeriod : Int := 14

/-- AVG_ATR_PERIOD -/
def avgAtrPeriod : Int := 30

/-- _BASE_FACTOR -/
def baseFactor : ℚ := 3 / 2

/-- _MIN_FACTOR -/
def minFactor : ℚ := 4 / 5

/-- _MAX_FACTOR -/
def maxFactor : ℚ := 5 / 2

/-- _MAX_SPACING_PCT -/
def maxSpacingPct : ℚ := 1

/-- _MIN_CANDLES -/
def minCandles : Int := atrPeriod + 1

structure SpacingResult where
  tpRangePct : ℚ
  atrPct : ℚ
  avgAtrPct : ℚ
  adaptiveFactor : ℚ
  spacingPct : ℚ
  usedFallback : Bool
  candleCount : Nat
  deriving DecidableEq, Repr

/-- Division of Decimals. -/
def divide (x y : ℚ) : Except Exn ℚ :=
  if y ≠ 0 then .ok (x / y)
  else if x = 0 then .error (.other "InvalidOperation" "[<class 'decimal.DivisionUndefined'>]")
  else .error (.other "DivisionByZero" "[<class 'decimal.DivisionByZero'>]")

/-- The loop of _true_ranges, over what is left of its range. -/
def trueRangesFrom (candles : List Candle) : List Int → Except Exn (List ℚ)
  | [] => .ok []
  | i :: rest => do
      let prev ← item candles (i - 1)
      let candle ← item candles i
      let ranges ← trueRangesFrom candles rest
      if prev.close ≤ 0 then return ranges
      return max (max (candle.high - candle.low) |candle.high - prev.close|) |candle.low - prev.close| :: ranges

def trueRanges (candles : List Candle) : Except Exn (List ℚ) := trueRangesFrom candles (range 1 candles.length)

def atr (candles : List Candle) (period : Int) : Except Exn ℚ := do
  let trs ← trueRanges candles
  if (trs.length : Int) < period then
    if trs = [] then return 0
    divide trs.sum trs.length
  else divide (since trs (-period)).sum period

def avgAtr (candles : List Candle) (period : Int) : Except Exn ℚ := do
  let trs ← trueRanges candles
  if trs = [] then return 0
  let window := if period ≤ trs.length then since trs (-period) else trs
  divide window.sum window.length

def adaptiveFactor (atr avgAtr : ℚ) : Except Exn ℚ := do
  if avgAtr ≤ 0 then return baseFactor
  let ratio ← divide atr avgAtr
  return max minFactor (min maxFactor (baseFactor * ratio))

/-- What both early exits of calculate_spacing return. -/
def fallbackResult (tpRangePct : ℚ) (candleCount : Nat) : SpacingResult where
  tpRangePct := tpRangePct
  atrPct := 0
  avgAtrPct := 0
  adaptiveFactor := baseFactor
  spacingPct := tpRangePct
  usedFallback := true
  candleCount := candleCount

def calculateSpacing (tpRangePct : ℚ) (candles : List Candle) (atrPeriod avgPeriod : Int) : Except Exn SpacingResult :=
  if (candles.length : Int) < minCandles then .ok (fallbackResult tpRangePct candles.length)
  else do
    let latest ← item candles (-1)
    if latest.close ≤ 0 then return fallbackResult tpRangePct candles.length
    let atr ← atr candles atrPeriod
    let avgAtr ← avgAtr candles avgPeriod
    let factor ← adaptiveFactor atr avgAtr
    let atrPct := (← divide atr latest.close) * 100
    let avgAtrPct := (← divide avgAtr latest.close) * 100
    let spacingPct := min (max tpRangePct (atrPct * factor)) maxSpacingPct
    return { tpRangePct, atrPct := roundTo 4 atrPct, avgAtrPct := roundTo 4 avgAtrPct
             adaptiveFactor := roundTo 3 factor, spacingPct := roundTo 4 spacingPct, usedFallback := false
             candleCount := candles.length }

variable {candles : List Candle}

theorem divide_of_ne {x y : ℚ} (h : y ≠ 0) : divide x y = .ok (x / y) := if_pos h

theorem trueRangesFrom_ok (indices : List Int) (h : ∀ i ∈ indices, 1 ≤ i ∧ i < candles.length) :
    ∃ trs, trueRangesFrom candles indices = .ok trs := by
  induction indices with
  | nil => exact ⟨[], rfl⟩
  | cons i indices ih =>
      obtain ⟨hlow, hhigh⟩ := h i List.mem_cons_self
      obtain ⟨prev, -, hprev⟩ := @item_of_lt _ candles (i - 1) (by omega) (by omega)
      obtain ⟨candle, -, hcandle⟩ := @item_of_lt _ candles i (by omega) hhigh
      obtain ⟨trs, htrs⟩ := ih (fun j hj => h j (List.mem_cons_of_mem _ hj))
      rw [trueRangesFrom, hprev, hcandle, htrs]
      simp only [bind, Except.bind, pure, Except.pure]
      split <;> exact ⟨_, rfl⟩

theorem trueRanges_ok (candles : List Candle) : ∃ trs, trueRanges candles = .ok trs := by
  exact trueRangesFrom_ok _ (fun i hi => mem_range.mp hi)

theorem atr_ok {period : Int} (hpos : 0 < period) (candles : List Candle) : ∃ x, atr candles period = .ok x := by
  obtain ⟨trs, htrs⟩ := trueRanges_ok candles
  rw [atr, htrs]
  change ∃ x, (if (trs.length : Int) < period then _ else _) = Except.ok x
  split
  · split
    next => exact ⟨0, rfl⟩
    next hne => exact ⟨_, divide_of_ne (Nat.cast_ne_zero.mpr (List.length_pos_iff.mpr hne).ne')⟩
  · exact ⟨_, divide_of_ne (Int.cast_ne_zero.mpr hpos.ne')⟩

theorem since_ne_nil {trs : List ℚ} {period : Int} (hpos : 0 < period) (hne : trs ≠ []) : since trs (-period) ≠ [] := by
  have hlen := List.length_pos_iff.mpr hne
  refine List.ne_nil_of_length_pos ?_
  rw [since, List.length_drop, bound, if_pos (by omega)]
  omega

theorem avgAtr_ok {period : Int} (hpos : 0 < period) (candles : List Candle) :
    ∃ x, avgAtr candles period = .ok x := by
  obtain ⟨trs, htrs⟩ := trueRanges_ok candles
  rw [avgAtr, htrs]
  change ∃ x, (if trs = [] then _ else _) = Except.ok x
  split
  next => exact ⟨0, rfl⟩
  next hne =>
    have hwindow : (if period ≤ trs.length then since trs (-period) else trs) ≠ [] := by
      split
      · exact since_ne_nil hpos hne
      · exact hne
    exact ⟨_, divide_of_ne (Nat.cast_ne_zero.mpr (List.length_pos_iff.mpr hwindow).ne')⟩

theorem adaptiveFactor_ok (atr avgAtr : ℚ) : ∃ x, adaptiveFactor atr avgAtr = .ok x := by
  rw [adaptiveFactor]
  split
  next => exact ⟨_, rfl⟩
  next hpos =>
    rw [divide_of_ne (not_le.mp hpos).ne']
    exact ⟨_, rfl⟩

/-- Enough candles, of which the last has a price. -/
def Measured (candles : List Candle) : Prop :=
  minCandles ≤ candles.length ∧ ∃ latest, candles.getLast? = some latest ∧ 0 < latest.close

/-- Of measured candles the spacing is between the target and the cap before it is rounded. -/
theorem calculateSpacing_measured {atrPeriod avgPeriod : Int} (hatr : 0 < atrPeriod) (havg : 0 < avgPeriod)
    (tpRangePct : ℚ) (h : Measured candles) :
    ∃ result spacing, calculateSpacing tpRangePct candles atrPeriod avgPeriod = .ok result ∧
      result.spacingPct = roundTo 4 spacing ∧ spacing ≤ 1 ∧ min tpRangePct 1 ≤ spacing := by
  obtain ⟨henough, latest, hlatest, hclose⟩ := h
  obtain ⟨atr, hatr⟩ := atr_ok hatr candles
  obtain ⟨avgAtr, havg⟩ := avgAtr_ok havg candles
  obtain ⟨factor, hfactor⟩ := adaptiveFactor_ok atr avgAtr
  rw [calculateSpacing, if_neg (not_lt.mpr henough), item_last hlatest]
  simp only [bind, Except.bind, pure, Except.pure, if_neg (not_le.mpr hclose), hatr, havg, hfactor,
    divide_of_ne hclose.ne']
  exact ⟨_, _, rfl, rfl, min_le_right _ _, min_le_min_right _ (le_max_left _ _)⟩

theorem calculateSpacing_unmeasured (tpRangePct : ℚ) (atrPeriod avgPeriod : Int) (h : ¬ Measured candles) :
    calculateSpacing tpRangePct candles atrPeriod avgPeriod = .ok (fallbackResult tpRangePct candles.length) := by
  rw [calculateSpacing]
  split
  next => rfl
  next henough =>
    have hne : candles ≠ [] := by
      rintro rfl
      exact henough (by decide)
    have hlatest := List.getLast?_eq_some_getLast hne
    have hclose : (candles.getLast hne).close ≤ 0 :=
      not_lt.mp (fun hpos => h ⟨not_lt.mp henough, _, hlatest, hpos⟩)
    rw [item_last hlatest]
    simp only [bind, Except.bind, if_pos hclose]
    rfl

/-- At most one percent, and no less than the target allows, up to the rounding. -/
def Capped (tpRangePct : ℚ) (result : SpacingResult) : Prop :=
  result.spacingPct ≤ 1 ∧ min tpRangePct 1 - 1 / (2 * 10 ^ 4) ≤ result.spacingPct

/-- The cap is missed just where a fallback returns a target above it. -/
theorem calculateSpacing_capped {tpRangePct : ℚ} (h : 0 < tpRangePct) (candles : List Candle) :
    ∃ result, calculateSpacing tpRangePct candles atrPeriod avgAtrPeriod = .ok result ∧
      (Capped tpRangePct result ↔ tpRangePct ≤ 1 ∨ Measured candles) := by
  by_cases hmeasured : Measured candles
  · obtain ⟨result, spacing, hresult, hrounded, hcap, hlow⟩ :=
      calculateSpacing_measured (by decide : 0 < atrPeriod) (by decide : 0 < avgAtrPeriod) tpRangePct hmeasured
    have hclose := abs_le.mp (abs_roundTo_sub_le 4 spacing)
    refine ⟨result, hresult, iff_of_true ⟨?_, ?_⟩ (Or.inr hmeasured)⟩
    · rw [hrounded]
      exact_mod_cast roundTo_le (n := 1) 4 (by exact_mod_cast hcap)
    · rw [hrounded]
      linarith [hclose.1]
  · refine ⟨_, calculateSpacing_unmeasured tpRangePct _ _ hmeasured, ?_⟩
    rw [or_iff_left hmeasured]
    refine and_iff_left_of_imp (fun hcap => ?_)
    change min tpRangePct 1 - 1 / (2 * 10 ^ 4) ≤ tpRangePct
    have hpart : (0 : ℚ) ≤ 1 / (2 * 10 ^ 4) := by positivity
    linarith [min_le_left tpRangePct 1]

theorem calculateSpacing_capped_listed : ∃ result,
    calculateSpacing 2 [] atrPeriod avgAtrPeriod = .ok result ∧ (Capped 2 result ↔ (2 : ℚ) ≤ 1 ∨ Measured []) :=
  calculateSpacing_capped (by norm_num) []

/-- A target of two percent for a newly listed symbol is returned as it is. -/
theorem spacing_uncapped : ¬ ∀ (tpRangePct : ℚ) (candles : List Candle), 0 < tpRangePct →
    ∃ result, calculateSpacing tpRangePct candles atrPeriod avgAtrPeriod = .ok result ∧ Capped tpRangePct result := by
  intro h
  obtain ⟨result, hresult, hcap, -⟩ := h 2 [] (by norm_num)
  have hfallback : calculateSpacing 2 [] atrPeriod avgAtrPeriod = .ok (fallbackResult 2 0) := rfl
  cases hfallback.symm.trans hresult
  exact absurd hcap (by norm_num [fallbackResult])

end Utos.Services.AtrCalculator
