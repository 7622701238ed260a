import Mathlib.Tactic.Linarith
import Utos.Services.DailyDropAnalyzer

namespace Utos.Services.DropThreshold

open Core Core.Sequence DailyDropAnalyzer
open MarketData.Hub (Candle)

/-- The days that dropped by at least a percentage, with positive closes and the day a
window later in the list. -/
def dropDays (candles : List Candle) (c : Criteria) (pct : ℚ) : Finset Nat :=
  (Finset.range candles.length).filter (fun i =>
    (1 : Int) ≤ i ∧ i + c.window < candles.length ∧ Priced candles i ∧
      closeAt candles i ≤ closeAt candles (i - 1) * (1 - pct / 100))

/-- Those of them after which the market fell on. -/
def continuedDays (candles : List Candle) (c : Criteria) (pct : ℚ) : Finset Nat :=
  (dropDays candles c pct).filter (fun i =>
    closeAt candles (i + c.window) ≤ closeAt candles i * (1 - c.minFutureDropPct / 100))

/-- There are enough such days, and after enough of them the market fell on. -/
def Qualifies (candles : List Candle) (c : Criteria) (pct : ℚ) : Prop :=
  c.minSamples ≤ (dropDays candles c pct).card ∧
    c.minContinuationRate ≤ (continuedDays candles c pct).card / (dropDays candles c pct).card

/-- The smallest candidate that qualifies. -/
def Smallest (candles : List Candle) (c : Criteria) (pct : ℚ) : Prop :=
  IsLeast {T | T ∈ candidateThresholds ∧ Qualifies candles c T} pct

/-- What the result of an analysis is to be. -/
structure Analysed (candles : List Candle) (c : Criteria) (result : AnalysisResult) : Prop where
  found_iff : ∀ pct, result.usedFallback = false ∧ result.thresholdPct = pct ↔ Smallest candles c pct
  counts : ∀ pct, Smallest candles c pct → result.dropEvents = (dropDays candles c pct).card ∧
    result.continuedEvents = (continuedDays candles c pct).card ∧
    result.continuationRate = (continuedDays candles c pct).card / (dropDays candles c pct).card
  otherwise : (¬ ∃ pct, Smallest candles c pct) → result = c.fallbackResult

variable {candles : List Candle} {c : Criteria}

/-- All the drops that the loop collects. -/
def dropsOf (candles : List Candle) (c : Criteria) : List Drop :=
  ((range 1 (candles.length - c.window)).filter (Priced candles)).map (dropAt candles c.window)

theorem dropped_iff {i : Int} (h : Priced candles i) (pct : ℚ) :
    (dropAt candles c.window i).dailyDrop ≤ -pct ↔ closeAt candles i ≤ closeAt candles (i - 1) * (1 - pct / 100) := by
  have hprev := h.1
  rw [dropAt, div_mul_eq_mul_div, div_le_iff₀ hprev]
  constructor <;> intro hle <;> linarith

theorem one_le_window (c : Criteria) : 1 ≤ c.window := by
  unfold Criteria.window
  split <;> omega

/-- The drops that meet a condition are as many as the days that meet it. -/
theorem length_filter_dropsOf {p : Drop → Bool} {q : Int → Prop} [DecidablePred q]
    (h : ∀ i, Priced candles i → (p (dropAt candles c.window i) = true ↔ q i)) :
    ((dropsOf candles c).filter p).length = ((Finset.range candles.length).filter (fun i : Nat =>
      (1 : Int) ≤ i ∧ i + c.window < candles.length ∧ Priced candles i ∧ q i)).card := by
  have hdays := @length_filter_range 1 (candles.length - c.window) candles.length Int.one_nonneg
    (by have hw := one_le_window c; omega) (fun i => Priced candles i ∧ q i) _
  simp only [lt_sub_iff_add_lt] at hdays
  rw [dropsOf, List.filter_map, List.length_map, List.filter_filter, ← hdays]
  refine congrArg List.length (List.filter_congr (fun i _ => ?_))
  by_cases hpriced : Priced candles i
  · simp only [Function.comp_apply, hpriced, decide_true, Bool.and_true, true_and]
    rw [Bool.eq_iff_iff, decide_eq_true_iff]
    exact h i hpriced
  · simp only [hpriced, decide_false, Bool.and_false, false_and]

theorem card_dropDays (pct : ℚ) : (sampled (dropsOf candles c) pct).length = (dropDays candles c pct).card := by
  rw [sampled, length_filter_dropsOf (fun i hpriced => decide_eq_true_iff.trans (dropped_iff hpriced pct)), dropDays]

theorem card_continuedDays (pct : ℚ) :
    (continuedOf c (dropsOf candles c) pct).length = (continuedDays candles c pct).card := by
  have hboth : ∀ i, Priced candles i →
      ((decide ((dropAt candles c.window i).futureClose ≤
          (dropAt candles c.window i).currClose * (1 - c.minFutureDropPct / 100)) &&
        decide ((dropAt candles c.window i).dailyDrop ≤ -pct)) = true ↔
      closeAt candles i ≤ closeAt candles (i - 1) * (1 - pct / 100) ∧
        closeAt candles (i + c.window) ≤ closeAt candles i * (1 - c.minFutureDropPct / 100)) := by
    intro i hpriced
    rw [Bool.and_eq_true, decide_eq_true_iff, decide_eq_true_iff, dropped_iff hpriced, and_comm]
    rfl
  rw [continuedOf, sampled, List.filter_filter, length_filter_dropsOf hboth, continuedDays, dropDays, Finset.filter_filter]
  simp only [and_assoc]

theorem stops_iff (pct : ℚ) : Stops c (dropsOf candles c) pct ↔ Qualifies candles c pct := by
  simp only [Stops, resultAt, card_dropDays, card_continuedDays, Qualifies]

theorem candidateThresholds_sorted : candidateThresholds.Pairwise (· < ·) := by decide +kernel

/-- No day can have dropped where the list is too short for the window. -/
theorem dropDays_empty (h : (candles.length : Int) < c.window + 2) (pct : ℚ) : dropDays candles c pct = ∅ := by
  refine Finset.filter_eq_empty_iff.mpr (fun i _ hday => ?_)
  have hfirst := hday.1
  have hlast := hday.2.1
  omega

/-- The result follows from what the scan would find among all the drops. -/
theorem analyzeDetailed_eq (h : 1 ≤ c.minSamples) : analyzeDetailed candles c =
    .ok (((candidateThresholds.find? (Stops c (dropsOf candles c))).map (resultAt c (dropsOf candles c))).getD
      c.fallbackResult) := by
  have hnone : (∀ pct, ((dropDays candles c pct).card : Int) < c.minSamples) →
      candidateThresholds.find? (Stops c (dropsOf candles c)) = none := by
    intro hfew
    rw [List.find?_eq_none]
    intro pct _ hstops
    rw [decide_eq_true_iff, stops_iff] at hstops
    exact absurd hstops.1 (not_le.mpr (hfew pct))
  unfold analyzeDetailed
  split
  next hshort =>
    rw [hnone (fun pct => by rw [dropDays_empty hshort]; exact h)]
    rfl
  next hlong =>
    have hdrops : collectDrops candles c.window (range 1 (candles.length - c.window)) = .ok (dropsOf candles c) :=
      collectDrops_eq (one_le_window c) _ (fun i hi => by rw [mem_range] at hi; omega)
    rw [hdrops]
    change (if ((dropsOf candles c).length : Int) < c.minSamples then _ else _) = _
    split
    next hfew =>
      rw [hnone (fun pct => ?_)]
      · rfl
      · rw [← card_dropDays]
        exact (Nat.cast_le.mpr (List.length_filter_le _ _)).trans_lt hfew
    next =>
      rw [scan_eq h]
      cases candidateThresholds.find? (Stops c (dropsOf candles c)) <;> rfl

/-- The analysis returns a result, and the result is that of the smallest candidate that
qualifies, or the fallback. -/
theorem analyzeDetailed_analysed (candles : List Candle) {c : Criteria} (h : 1 ≤ c.minSamples) :
    ∃ result, analyzeDetailed candles c = .ok result ∧ Analysed candles c result := by
  have hsmallest : ∀ pct, candidateThresholds.find? (Stops c (dropsOf candles c)) = some pct ↔
      Smallest candles c pct := by
    intro pct
    rw [find?_isLeast candidateThresholds_sorted, Smallest]
    simp only [stops_iff]
  refine ⟨_, analyzeDetailed_eq h, ?_⟩
  cases hfind : candidateThresholds.find? (Stops c (dropsOf candles c)) with
  | none =>
      have hno : ∀ pct, ¬ Smallest candles c pct := by
        intro pct hpct
        cases hfind.symm.trans ((hsmallest pct).mpr hpct)
      refine ⟨fun pct => iff_of_false ?_ (hno pct), fun pct hpct => absurd hpct (hno pct), fun _ => rfl⟩
      rintro ⟨hfallback, -⟩
      cases hfallback
  | some found =>
      have hfound := (hsmallest found).mp hfind
      refine ⟨fun pct => ⟨?_, fun hpct => ⟨rfl, hfound.unique hpct⟩⟩, fun pct hpct => ?_, fun hno => ?_⟩
      · rintro ⟨-, rfl⟩
        exact hfound
      · cases hfound.unique hpct
        rw [← card_dropDays, ← card_continuedDays]
        exact ⟨rfl, rfl, rfl⟩
      · exact absurd ⟨found, hfound⟩ hno

/-- A fall from 100 to 90 that goes on to 80. -/
def falling : List Candle := [100, 90, 80].map (fun close =>
  { symbol := "BTCUSDT", interval := "1d", opened := close, high := close, low := close, close, volume := 1 })

theorem analysed_falling : ∃ result,
    analyzeDetailed falling { minSamples := 1, continuationWindow := 1 } = .ok result ∧
      Analysed falling { minSamples := 1, continuationWindow := 1 } result :=
  analyzeDetailed_analysed falling (by decide)

/-- The smallest candidate is the threshold, for the one drop of ten percent. -/
example : analyzeDetailed falling { minSamples := 1, continuationWindow := 1 } =
    .ok { thresholdPct := 1, usedFallback := false, dropEvents := 1, continuedEvents := 1, continuationRate := 1 } := by
  decide +kernel

end Utos.Services.DropThreshold
