import Utos.Core.DomainTypes
import Utos.Core.Exceptions
import Mathlib.Algebra.Order.Field.Rat

namespace Utos.Grid.Calculator

open Core.DomainTypes Core.Exceptions

def tpMultiplier : ℚ := 5 / 2

def validateParameters (upperPrice lowerPrice : ℚ) (gridCount : Nat) (investmentPerGrid : ℚ) :
    Except Exn Unit :=
  if upperPrice ≤ lowerPrice then
    .error (.validationError s!"upper_price ({upperPrice}) must be > lower_price ({lowerPrice})")
  else if gridCount < 2 then
    .error (.validationError s!"grid_count must be >= 2, got {gridCount}")
  else if investmentPerGrid ≤ 0 then
    .error (.validationError s!"investment_per_grid must be > 0, got {investmentPerGrid}")
  else .ok ()

def calculateSpacing (upperPrice lowerPrice : ℚ) (gridCount : Nat) : ℚ :=
  (upperPrice - lowerPrice) / gridCount

def levelAt (upperPrice lowerPrice spacing investmentPerGrid : ℚ) (i : Nat) : GridLevel :=
  let buyPrice := lowerPrice + spacing * i
  let sellPrice := buyPrice + spacing * tpMultiplier
  { level := i
    buyPrice := buyPrice
    sellPrice := if upperPrice < sellPrice then upperPrice else sellPrice
    quantity := if 0 < buyPrice then investmentPerGrid / buyPrice else 0
    status := .waiting }

def calculateLevels (upperPrice lowerPrice : ℚ) (gridCount : Nat) (investmentPerGrid : ℚ) :
    Except Exn (List GridLevel) := do
  validateParameters upperPrice lowerPrice gridCount investmentPerGrid
  let spacing := calculateSpacing upperPrice lowerPrice gridCount
  return (List.range gridCount).map (levelAt upperPrice lowerPrice spacing investmentPerGrid)

structure AveragingStep where
  stepNumber : Nat
  dropRate : ℚ
  multipleBuyAmount : ℚ := 1
  takeProfit : ℚ
  deriving DecidableEq, Repr

/-- The averaging steps of one instance. The table they are read from has a
unique constraint on (trading_instance_id, step_number), and the default
template numbers its steps by position. -/
structure AveragingSteps where
  steps : List AveragingStep
  distinct : (steps.map AveragingStep.stepNumber).Nodup

def averagingLevel (investmentPerGrid buyPrice : ℚ) (step : AveragingStep) : GridLevel :=
  { level := step.stepNumber
    buyPrice := buyPrice
    sellPrice := buyPrice * (1 + step.takeProfit / 100)
    quantity := if 0 < buyPrice then investmentPerGrid * step.multipleBuyAmount / buyPrice else 0
    status := .waiting }

/-- The loop of calculate_levels_with_averaging, with prev_buy_price as its
accumulator. -/
def averagingLoop (startPrice investmentPerGrid : ℚ) : ℚ → List AveragingStep →
    Except Exn (List GridLevel)
  | _, [] => .ok []
  | prevBuyPrice, step :: rest =>
      if step.stepNumber = 0 then do
        let levels ← averagingLoop startPrice investmentPerGrid startPrice rest
        return averagingLevel investmentPerGrid startPrice step :: levels
      else
        let buyPrice := prevBuyPrice * (1 - step.dropRate / 100)
        if buyPrice ≤ 0 then
          .error (.validationError
            s!"Step {step.stepNumber}: buy_price dropped to <= 0 (drop_rate={step.dropRate}%)")
        else do
          let levels ← averagingLoop startPrice investmentPerGrid buyPrice rest
          return averagingLevel investmentPerGrid buyPrice step :: levels

def calculateLevelsWithAveraging (startPrice investmentPerGrid : ℚ) (averagingSteps : AveragingSteps) :
    Except Exn (List GridLevel) :=
  if averagingSteps.steps = [] then
    .error (.validationError "averaging_steps must not be empty")
  else if investmentPerGrid ≤ 0 then
    .error (.validationError s!"investment_per_grid must be > 0, got {investmentPerGrid}")
  else if startPrice ≤ 0 then
    .error (.validationError s!"start_price must be > 0, got {startPrice}")
  else averagingLoop startPrice investmentPerGrid startPrice averagingSteps.steps

/-- A level that has neither been bought nor carries an order. -/
def Fresh (lv : GridLevel) : Prop := lv.status = .waiting ∧ lv.buyOrderId = none ∧ lv.sellOrderId = none

theorem calculateLevels_spec {u l : ℚ} {n : Nat} {inv : ℚ} {levels : List GridLevel}
    (h : calculateLevels u l n inv = .ok levels) :
    (levels.map GridLevel.level).Nodup ∧ ∀ lv ∈ levels, Fresh lv := by
  unfold calculateLevels at h
  cases hv : validateParameters u l n inv with
  | error e => simp [hv, bind, Except.bind] at h
  | ok _ =>
      simp only [hv, bind, Except.bind, pure, Except.pure, Except.ok.injEq] at h
      subst h
      refine ⟨?_, ?_⟩
      · rw [List.map_map]
        exact (List.map_congr_left (g := id) (fun _ _ => rfl)).symm ▸ (by simpa using List.nodup_range)
      · intro lv hlv
        obtain ⟨i, _, rfl⟩ := List.mem_map.mp hlv
        exact ⟨rfl, rfl, rfl⟩

theorem averagingLoop_spec {start inv : ℚ} (steps : List AveragingStep) {prev : ℚ} {levels : List GridLevel}
    (h : averagingLoop start inv prev steps = .ok levels) :
    levels.map GridLevel.level = steps.map AveragingStep.stepNumber ∧ ∀ lv ∈ levels, Fresh lv := by
  induction steps generalizing prev levels with
  | nil =>
      simp only [averagingLoop, Except.ok.injEq] at h
      subst h
      simp
  | cons step rest ih =>
      have hcons : ∀ b levels, averagingLoop start inv b rest = .ok levels →
          (averagingLevel inv b step :: levels).map GridLevel.level =
            (step :: rest).map AveragingStep.stepNumber ∧
          ∀ lv ∈ averagingLevel inv b step :: levels, Fresh lv := by
        intro b levels hr
        obtain ⟨hl, hf⟩ := ih hr
        refine ⟨by simp [averagingLevel, hl], ?_⟩
        intro lv hlv
        rcases List.mem_cons.mp hlv with rfl | hlv
        · exact ⟨rfl, rfl, rfl⟩
        · exact hf lv hlv
      rw [averagingLoop] at h
      split at h
      · cases hr : averagingLoop start inv start rest with
        | error e => simp [hr, bind, Except.bind] at h
        | ok ls =>
            simp only [hr, bind, Except.bind, pure, Except.pure, Except.ok.injEq] at h
            exact h ▸ hcons _ _ hr
      · simp only at h
        split at h
        · cases h
        · cases hr : averagingLoop start inv (prev * (1 - step.dropRate / 100)) rest with
          | error e => simp [hr, bind, Except.bind] at h
          | ok ls =>
              simp only [hr, bind, Except.bind, pure, Except.pure, Except.ok.injEq] at h
              exact h ▸ hcons _ _ hr

theorem calculateLevelsWithAveraging_spec {start inv : ℚ} {steps : AveragingSteps} {levels : List GridLevel}
    (h : calculateLevelsWithAveraging start inv steps = .ok levels) :
    (levels.map GridLevel.level).Nodup ∧ ∀ lv ∈ levels, Fresh lv := by
  unfold calculateLevelsWithAveraging at h
  split at h
  · cases h
  · split at h
    · cases h
    · split at h
      · cases h
      · obtain ⟨hl, hf⟩ := averagingLoop_spec steps.steps h
        exact ⟨hl ▸ steps.distinct, hf⟩

end Utos.Grid.Calculator
