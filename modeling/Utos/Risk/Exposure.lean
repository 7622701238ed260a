import Mathlib.Tactic.Ring
import Utos.Core.Grouping
import Utos.Risk.Manager

namespace Utos.Risk.Exposure

open Core Recovery.Portfolio Manager

structure ExposureReport where
  totalExposure : ℚ
  longExposure : ℚ
  shortExposure : ℚ
  netExposure : ℚ
  byExchange : Dict String ℚ
  byAccount : Dict String ℚ
  bySymbol : Dict String ℚ

def getNetExposure (positions : List Position) (prices : Dict String ℚ) : ℚ :=
  positions.foldl (fun net pos =>
    if pos.closed then net
    else if pos.side = "long" then net + notional prices pos
    else net - notional prices pos) 0

def calculateExposure (positions : List Position) (currentPrices : Dict String ℚ) : ExposureReport :=
  let sides := positions.foldl (fun (sides : ℚ × ℚ) pos =>
    if pos.closed then sides
    else if pos.side = "long" then (sides.1 + notional currentPrices pos, sides.2)
    else (sides.1, sides.2 + notional currentPrices pos)) (0, 0)
  { totalExposure := sides.1 + sides.2
    longExposure := sides.1
    shortExposure := sides.2
    netExposure := sides.1 - sides.2
    byExchange := getExposureByExchange positions currentPrices
    byAccount := getExposureByAccount positions currentPrices
    bySymbol := getExposureBySymbol positions currentPrices }

/-- The positions that the loops do not skip. -/
def openOnes (positions : List Position) : List Position := positions.filter (fun pos => !pos.closed)

/-- What a position counts for among the long ones, and among the others. -/
def onLong (f : Position → ℚ) (pos : Position) : ℚ := if pos.side = "long" then f pos else 0

def onShort (f : Position → ℚ) (pos : Position) : ℚ := if pos.side = "long" then 0 else f pos

theorem openOnes_cons (pos : Position) (positions : List Position) :
    openOnes (pos :: positions) = if pos.closed then openOnes positions else pos :: openOnes positions := by
  cases hclosed : pos.closed <;> simp [openOnes, hclosed]

theorem onLong_add_onShort (f : Position → ℚ) (positions : List Position) :
    (positions.map (onLong f)).sum + (positions.map (onShort f)).sum = (positions.map f).sum := by
  rw [← List.sum_map_add]
  refine congrArg List.sum (List.map_congr_left (fun pos _ => ?_))
  unfold onLong onShort
  split
  · exact add_zero _
  · exact zero_add _

/-- A loop that skips the closed positions goes through the open ones. -/
theorem foldl_open {σ : Type} (step : σ → Position → σ) (x : σ) (positions : List Position) :
    positions.foldl (fun x pos => if pos.closed then x else step x pos) x = (openOnes positions).foldl step x := by
  induction positions generalizing x with
  | nil => rfl
  | cons pos positions ih =>
      rw [List.foldl_cons, ih, openOnes_cons]
      split <;> rfl

variable (positions : List Position) (prices : Dict String ℚ)

theorem exposureBy_eq (field : Position → String) :
    exposureBy field positions prices = Dict.tally field (notional prices) (openOnes positions) :=
  foldl_open (fun result pos =>
    Dict.set result (field pos) ((result.get (field pos)).getD 0 + notional prices pos)) ∅ positions

theorem getNetExposure_eq : getNetExposure positions prices =
    ((openOnes positions).map (onLong (notional prices))).sum -
      ((openOnes positions).map (onShort (notional prices))).sum := by
  have hfold : ∀ (positions : List Position) (net : ℚ), positions.foldl (fun net pos =>
      if pos.side = "long" then net + notional prices pos else net - notional prices pos) net =
        net + ((positions.map (onLong (notional prices))).sum - (positions.map (onShort (notional prices))).sum) := by
    intro positions
    induction positions with
    | nil => simp
    | cons pos positions ih =>
        intro net
        rw [List.foldl_cons, ih, List.map_cons, List.map_cons, List.sum_cons, List.sum_cons]
        unfold onLong onShort
        split <;> ring
  rw [getNetExposure, foldl_open, hfold, zero_add]

theorem calculateExposure_sides :
    (calculateExposure positions prices).longExposure = ((openOnes positions).map (onLong (notional prices))).sum ∧
    (calculateExposure positions prices).shortExposure = ((openOnes positions).map (onShort (notional prices))).sum := by
  have hfold : ∀ (positions : List Position) (sides : ℚ × ℚ), positions.foldl (fun (sides : ℚ × ℚ) pos =>
      if pos.side = "long" then (sides.1 + notional prices pos, sides.2)
      else (sides.1, sides.2 + notional prices pos)) sides =
        (sides.1 + (positions.map (onLong (notional prices))).sum,
          sides.2 + (positions.map (onShort (notional prices))).sum) := by
    intro positions
    induction positions with
    | nil => simp
    | cons pos positions ih =>
        intro sides
        rw [List.foldl_cons, ih, List.map_cons, List.map_cons, List.sum_cons, List.sum_cons]
        unfold onLong onShort
        split <;> simp [add_assoc]
  have hsides := hfold (openOnes positions) (0, 0)
  rw [← foldl_open] at hsides
  simp only [calculateExposure, hsides, zero_add, and_self]

/-- Whatever the open positions are summed up by, the sums add up to their worth. -/
theorem sum_exposureBy (field : Position → String) :
    (exposureBy field positions prices).values.sum = (calculateExposure positions prices).totalExposure := by
  obtain ⟨hlong, hshort⟩ := calculateExposure_sides positions prices
  have htotal : (calculateExposure positions prices).totalExposure =
      (calculateExposure positions prices).longExposure + (calculateExposure positions prices).shortExposure := rfl
  rw [exposureBy_eq, Dict.sum_values_tally, htotal, hlong, hshort, onLong_add_onShort]

end Utos.Risk.Exposure
