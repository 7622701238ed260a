import Utos.Core.Sequence
import Utos.MarketData.Hub
import Utos.Services.BreakerScreeningStore

namespace Utos.Services.DailyDropAnalyzer

open Core Core.Exceptions Core.Sequence MarketData.Hub

/-- _CANDIDATE_THRESHOLDS -/
def candidateThresholds : List ℚ :=
  [1, 3 / 2, 2, 5 / 2, 3, 7 / 2, 4, 9 / 2, 5, 11 / 2, 6, 13 / 2, 7, 15 / 2, 8, 17 / 2, 9, 19 / 2, 10, 11, 12, 13, 14, 15]

structure AnalysisResult where
  thresholdPct : ℚ
  usedFallback : Bool
  dropEvents : Nat := 0
  continuedEvents : Nat := 0
  continuationRate : ℚ := 0
  deriving DecidableEq, Repr

/-- An element of drops: the change of the day, the close after the window and that of the day. -/
structure Drop where
  dailyDrop : ℚ
  futureClose : ℚ
  currClose : ℚ
  deriving DecidableEq, Repr

/-- The arguments of analyze_detailed beside the candles. -/
structure Criteria where
  minContinuationRate : ℚ := 8 / 10
  minSamples : Int := 3
  continuationWindow : Int := 5
  minFutureDropPct : ℚ := 9
  deriving DecidableEq, Repr

/-- Division of Decimals; a count of zero is only divided by where nothing was counted. -/
def divide (x y : ℚ) : Except Exn ℚ :=
  if y = 0 then .error (.other "InvalidOperation" "[<class 'decimal.DivisionUndefined'>]") else .ok (x / y)

/-- continuation_window, where it is below one read as one. -/
def Criteria.window (c : Criteria) : Int := if c.continuationWindow < 1 then 1 else c.continuationWindow

def Criteria.fallbackResult (c : Criteria) : AnalysisResult :=
  { thresholdPct := Screening.fallback c.minContinuationRate, usedFallback := true }

/-- The loop that collects the drops, over what is left of its range. -/
def collectDrops (candles : List Candle) (window : Int) : List Int → Except Exn (List Drop)
  | [] => .ok []
  | i :: rest => do
      let prev ← item candles (i - 1)
      let curr ← item candles i
      let future ← item candles (i + window)
      let drops ← collectDrops candles window rest
      if prev.close ≤ 0 ∨ curr.close ≤ 0 then return drops
      return { dailyDrop := (curr.close - prev.close) / prev.close * 100, futureClose := future.close
               currClose := curr.close } :: drops

/-- The scan of the candidate thresholds; none when it ends without a result. -/
def scan (c : Criteria) (drops : List Drop) : List ℚ → Except Exn (Option AnalysisResult)
  | [] => .ok none
  | thresholdAbs :: rest =>
      let subset := drops.filter (fun d => d.dailyDrop ≤ -thresholdAbs)
      if (subset.length : Int) < c.minSamples then scan c drops rest
      else do
        let continued := (subset.filter (fun d => d.futureClose ≤ d.currClose * (1 - c.minFutureDropPct / 100))).length
        let rate ← divide continued subset.length
        if c.minContinuationRate ≤ rate then
          return some { thresholdPct := thresholdAbs, usedFallback := false, dropEvents := subset.length
                        continuedEvents := continued, continuationRate := rate }
        scan c drops rest

def analyzeDetailed (dailyCandles : List Candle) (c : Criteria) : Except Exn AnalysisResult :=
  if (dailyCandles.length : Int) < c.window + 2 then .ok c.fallbackResult
  else do
    let drops ← collectDrops dailyCandles c.window (range 1 (dailyCandles.length - c.window))
    if (drops.length : Int) < c.minSamples then return c.fallbackResult
    match ← scan c drops candidateThresholds with
    | some result => return result
    | none => return c.fallbackResult

def analyze (dailyCandles : List Candle) (c : Criteria) : Except Exn ℚ :=
  (analyzeDetailed dailyCandles c).map AnalysisResult.thresholdPct

variable {candles : List Candle} {c : Criteria} {drops : List Drop}

/-- The close of a day. -/
def closeAt (candles : List Candle) (i : Int) : ℚ := ((candles[i.toNat]?).map Candle.close).getD 0

/-- Both closes that a day's change is computed from are positive. -/
def Priced (candles : List Candle) (i : Int) : Prop := 0 < closeAt candles (i - 1) ∧ 0 < closeAt candles i

instance (candles : List Candle) (i : Int) : Decidable (Priced candles i) := inferInstanceAs (Decidable (_ ∧ _))

/-- What the loop appends for a day. -/
def dropAt (candles : List Candle) (window i : Int) : Drop where
  dailyDrop := (closeAt candles i - closeAt candles (i - 1)) / closeAt candles (i - 1) * 100
  futureClose := closeAt candles (i + window)
  currClose := closeAt candles i

theorem item_closeAt {i : Int} (h0 : 0 ≤ i) (h : i < candles.length) :
    ∃ candle, item candles i = .ok candle ∧ candle.close = closeAt candles i := by
  obtain ⟨candle, hget, hitem⟩ := item_of_lt h0 h
  exact ⟨candle, hitem, by rw [closeAt, hget]; rfl⟩

theorem collectDrops_eq {window : Int} (hw : 1 ≤ window) (days : List Int)
    (h : ∀ i ∈ days, 1 ≤ i ∧ i + window < candles.length) :
    collectDrops candles window days = .ok ((days.filter (Priced candles)).map (dropAt candles window)) := by
  induction days with
  | nil => rfl
  | cons i days ih =>
      obtain ⟨hi, hlen⟩ := h i List.mem_cons_self
      obtain ⟨prev, hprev, hprevClose⟩ := @item_closeAt candles (i - 1) (by omega) (by omega)
      obtain ⟨curr, hcurr, hcurrClose⟩ := @item_closeAt candles i (by omega) (by omega)
      obtain ⟨future, hfuture, hfutureClose⟩ := @item_closeAt candles (i + window) (by omega) hlen
      have hskip : (closeAt candles (i - 1) ≤ 0 ∨ closeAt candles i ≤ 0) ↔ ¬ Priced candles i := by
        rw [Priced, not_and_or, not_lt, not_lt]
      rw [collectDrops, hprev, hcurr, hfuture, ih (fun j hj => h j (List.mem_cons_of_mem _ hj)), List.filter_cons]
      simp only [bind, Except.bind, pure, Except.pure, hprevClose, hcurrClose, hfutureClose, hskip]
      by_cases hpriced : Priced candles i
      · rw [if_neg (not_not.mpr hpriced), if_pos (decide_eq_true hpriced), List.map_cons]
        rfl
      · rw [if_pos hpriced, if_neg (by simpa using hpriced)]

theorem divide_of_ne {x y : ℚ} (h : y ≠ 0) : divide x y = .ok (x / y) := if_neg h

/-- How many of the drops are as deep as a threshold, and how many of these went on. -/
def sampled (drops : List Drop) (thresholdAbs : ℚ) : List Drop := drops.filter (fun d => d.dailyDrop ≤ -thresholdAbs)

def continuedOf (c : Criteria) (drops : List Drop) (thresholdAbs : ℚ) : List Drop :=
  (sampled drops thresholdAbs).filter (fun d => d.futureClose ≤ d.currClose * (1 - c.minFutureDropPct / 100))

/-- What the scan returns at a threshold. -/
def resultAt (c : Criteria) (drops : List Drop) (thresholdAbs : ℚ) : AnalysisResult where
  thresholdPct := thresholdAbs
  usedFallback := false
  dropEvents := (sampled drops thresholdAbs).length
  continuedEvents := (continuedOf c drops thresholdAbs).length
  continuationRate := (continuedOf c drops thresholdAbs).length / (sampled drops thresholdAbs).length

/-- The scan stops at a threshold. -/
def Stops (c : Criteria) (drops : List Drop) (thresholdAbs : ℚ) : Prop :=
  c.minSamples ≤ (sampled drops thresholdAbs).length ∧
    c.minContinuationRate ≤ (resultAt c drops thresholdAbs).continuationRate

instance (c : Criteria) (drops : List Drop) (thresholdAbs : ℚ) : Decidable (Stops c drops thresholdAbs) :=
  inferInstanceAs (Decidable (_ ∧ _))

/-- Where a sample is asked for, no threshold is divided by zero at, and the first that
stops the scan is the result. -/
theorem scan_eq (hsamples : 1 ≤ c.minSamples) (drops : List Drop) (thresholds : List ℚ) :
    scan c drops thresholds = .ok ((thresholds.find? (Stops c drops)).map (resultAt c drops)) := by
  induction thresholds with
  | nil => rfl
  | cons thresholdAbs rest ih =>
      rw [List.find?_cons]
      by_cases hfew : ((sampled drops thresholdAbs).length : Int) < c.minSamples
      · have hgoes : ¬ Stops c drops thresholdAbs := fun hstops => absurd hstops.1 (not_le.mpr hfew)
        rw [decide_eq_false hgoes]
        exact (if_pos hfew).trans ih
      · have hne : ((sampled drops thresholdAbs).length : ℚ) ≠ 0 := by
          rw [Nat.cast_ne_zero]
          omega
        have hdivide := divide_of_ne (x := (continuedOf c drops thresholdAbs).length) hne
        have hdecides : scan c drops (thresholdAbs :: rest) =
            if c.minContinuationRate ≤ (resultAt c drops thresholdAbs).continuationRate then
              .ok (some (resultAt c drops thresholdAbs))
            else scan c drops rest := by
          refine (if_neg hfew).trans ?_
          change (divide (continuedOf c drops thresholdAbs).length (sampled drops thresholdAbs).length >>= _) = _
          rw [hdivide]
          rfl
        rw [hdecides, ih]
        by_cases hrate : c.minContinuationRate ≤ (resultAt c drops thresholdAbs).continuationRate
        · rw [if_pos hrate, decide_eq_true (show Stops c drops thresholdAbs from ⟨not_lt.mp hfew, hrate⟩)]
          rfl
        · rw [if_neg hrate, decide_eq_false (fun hstops : Stops c drops thresholdAbs => hrate hstops.2)]

end Utos.Services.DailyDropAnalyzer
