import Utos.Grid.Calculator
import Mathlib.Algebra.BigOperators.Ring.List
import Mathlib.Algebra.Order.BigOperators.GroupWithZero.List
import Mathlib.Tactic.Linarith
import Mathlib.Tactic.Ring

namespace Utos.Grid.Ladder

open Core.DomainTypes Core.Exceptions Calculator

variable {start inv prev : ℚ} {step : AveragingStep} {steps : List AveragingStep}

/-- What the steps with a number above 0 leave of a price. -/
def discount (steps : List AveragingStep) : ℚ :=
  ((steps.filter (fun step => 0 < step.stepNumber)).map (fun step => 1 - step.dropRate / 100)).prod

/-- What AveragingStepModel admits. -/
structure Admitted (step : AveragingStep) : Prop where
  drop_nonneg : 0 ≤ step.dropRate
  drop_le : step.dropRate ≤ 100
  multiple_pos : 0 < step.multipleBuyAmount
  profit_pos : 0 < step.takeProfit

/-- The level belongs to the step, which comes after all but the last of the given ones. -/
structure Rung (start inv : ℚ) (steps : List AveragingStep) (step : AveragingStep) (lv : GridLevel) : Prop where
  level : lv.level = step.stepNumber
  buyPrice : lv.buyPrice = start * discount steps
  positive : 0 < lv.buyPrice
  sells : lv.buyPrice < lv.sellPrice
  spends : lv.quantity * lv.buyPrice = inv * step.multipleBuyAmount

/-- The levels that the documentation of calculate_levels_with_averaging describes. -/
structure Correct (start inv : ℚ) (steps : List AveragingStep) (levels : List GridLevel) : Prop where
  length : levels.length = steps.length
  distinct : (levels.map GridLevel.level).Nodup
  rung : ∀ k step, steps[k]? = some step → ∃ lv, levels[k]? = some lv ∧ Rung start inv (steps.take (k + 1)) step lv
  descending : levels.Pairwise (fun lv next => next.buyPrice ≤ lv.buyPrice)

def factor (step : AveragingStep) : ℚ := if step.stepNumber = 0 then 1 else 1 - step.dropRate / 100

def nextPrice (start prev : ℚ) (step : AveragingStep) : ℚ :=
  if step.stepNumber = 0 then start else prev * (1 - step.dropRate / 100)

/-- The levels of the loop, where it does not raise. -/
def ladder (start inv : ℚ) : ℚ → List AveragingStep → List GridLevel
  | _, [] => []
  | prev, step :: rest =>
      averagingLevel inv (nextPrice start prev step) step :: ladder start inv (nextPrice start prev step) rest

theorem discount_nil : discount [] = 1 := rfl

theorem discount_cons (step : AveragingStep) (steps : List AveragingStep) :
    discount (step :: steps) = factor step * discount steps := by
  unfold discount factor
  by_cases h : step.stepNumber = 0
  · rw [List.filter_cons_of_neg (by simp [h]), if_pos h, one_mul]
  · rw [List.filter_cons_of_pos (by simpa using Nat.pos_of_ne_zero h), if_neg h, List.map_cons, List.prod_cons]

theorem nextPrice_of_ne (h : step.stepNumber ≠ 0) : nextPrice start prev step = prev * factor step := by
  rw [nextPrice, factor, if_neg h, if_neg h]

theorem nextPrice_start (start : ℚ) (step : AveragingStep) : nextPrice start start step = start * factor step := by
  unfold nextPrice factor
  split
  · rw [mul_one]
  · rfl

theorem averagingLoop_cons (start inv prev : ℚ) (step : AveragingStep) (rest : List AveragingStep)
    (hpos : 0 < nextPrice start prev step) :
    averagingLoop start inv prev (step :: rest) =
      (averagingLoop start inv (nextPrice start prev step) rest).map
        (averagingLevel inv (nextPrice start prev step) step :: ·) := by
  unfold nextPrice at hpos ⊢
  rw [averagingLoop]
  split at hpos
  next h =>
    rw [if_pos h, if_pos h]
    cases averagingLoop start inv start rest <;> rfl
  next h =>
    rw [if_neg h, if_neg h, if_neg (not_le.mpr hpos)]
    cases averagingLoop start inv (prev * (1 - step.dropRate / 100)) rest <;> rfl

/-- The loop raises at the first level without a positive price. -/
theorem averagingLoop_nonpos (hstart : 0 < start) (rest : List AveragingStep) (h : nextPrice start prev step ≤ 0) :
    ∃ message, averagingLoop start inv prev (step :: rest) = .error (.validationError message) := by
  unfold nextPrice at h
  rw [averagingLoop]
  split at h
  next => exact absurd hstart (not_lt.mpr h)
  next hne =>
    rw [if_neg hne, if_pos h]
    exact ⟨_, rfl⟩

theorem averagingLoop_eq (steps : List AveragingStep) {prev : ℚ}
    (h : ∀ lv ∈ ladder start inv prev steps, 0 < lv.buyPrice) :
    averagingLoop start inv prev steps = .ok (ladder start inv prev steps) := by
  induction steps generalizing prev with
  | nil => rfl
  | cons step rest ih =>
      rw [ladder, List.forall_mem_cons] at h
      rw [averagingLoop_cons start inv prev step rest h.1, ih h.2]
      rfl

theorem averagingLoop_raises (hstart : 0 < start) (steps : List AveragingStep) {prev : ℚ}
    (h : ∃ lv ∈ ladder start inv prev steps, lv.buyPrice ≤ 0) :
    ∃ message, averagingLoop start inv prev steps = .error (.validationError message) := by
  induction steps generalizing prev with
  | nil =>
      obtain ⟨lv, hlv, -⟩ := h
      cases hlv
  | cons step rest ih =>
      rcases le_or_gt (nextPrice start prev step) 0 with hle | hpos
      · exact averagingLoop_nonpos hstart rest hle
      · obtain ⟨lv, hlv, hnonpos⟩ := h
        rcases List.mem_cons.mp hlv with rfl | hrest
        · exact absurd hpos (not_lt.mpr hnonpos)
        · obtain ⟨message, hmessage⟩ := ih ⟨lv, hrest, hnonpos⟩
          rw [averagingLoop_cons start inv prev step rest hpos, hmessage]
          exact ⟨message, rfl⟩

theorem ladder_length (start inv prev : ℚ) (steps : List AveragingStep) :
    (ladder start inv prev steps).length = steps.length := by
  induction steps generalizing prev with
  | nil => rfl
  | cons step rest ih => rw [ladder, List.length_cons, List.length_cons, ih]

theorem ladder_levels (start inv prev : ℚ) (steps : List AveragingStep) :
    (ladder start inv prev steps).map GridLevel.level = steps.map AveragingStep.stepNumber := by
  induction steps generalizing prev with
  | nil => rfl
  | cons step rest ih => rw [ladder, List.map_cons, List.map_cons, ih, averagingLevel]

/-- Every step discounts the price before it. -/
theorem ladder_getElem?_of_ne (steps : List AveragingStep) {prev : ℚ} (h : ∀ step ∈ steps, step.stepNumber ≠ 0)
    (k : Nat) : (ladder start inv prev steps)[k]? =
      (steps[k]?).map (averagingLevel inv (prev * discount (steps.take (k + 1)))) := by
  induction steps generalizing prev k with
  | nil => rfl
  | cons step rest ih =>
      rw [List.forall_mem_cons] at h
      rw [ladder, nextPrice_of_ne h.1, List.take_succ_cons, discount_cons]
      cases k with
      | zero => simp only [List.getElem?_cons_zero, List.take_zero, discount_nil, mul_one, Option.map_some]
      | succ k => rw [List.getElem?_cons_succ, List.getElem?_cons_succ, ih h.2, mul_assoc]

/-- The same from the start price on, where the first step may be step 0. -/
theorem ladder_getElem? (steps : List AveragingStep) (h : ∀ step ∈ steps.tail, step.stepNumber ≠ 0) (k : Nat) :
    (ladder start inv start steps)[k]? =
      (steps[k]?).map (averagingLevel inv (start * discount (steps.take (k + 1)))) := by
  cases steps with
  | nil => rfl
  | cons step rest =>
      rw [ladder, nextPrice_start, List.take_succ_cons, discount_cons]
      cases k with
      | zero => simp only [List.getElem?_cons_zero, List.take_zero, discount_nil, mul_one, Option.map_some]
      | succ k => rw [List.getElem?_cons_succ, List.getElem?_cons_succ, ladder_getElem?_of_ne rest h, mul_assoc]

theorem factor_nonneg (h : Admitted step) : 0 ≤ factor step := by
  unfold factor
  split
  · exact zero_le_one
  · linarith [h.drop_le]

theorem factor_le_one (h : Admitted step) : factor step ≤ 1 := by
  unfold factor
  split
  · exact le_rfl
  · linarith [h.drop_nonneg]

theorem ladder_descending_of_ne (steps : List AveragingStep) {prev : ℚ} (hprev : 0 ≤ prev)
    (hne : ∀ step ∈ steps, step.stepNumber ≠ 0) (hadm : ∀ step ∈ steps, Admitted step) :
    (∀ lv ∈ ladder start inv prev steps, lv.buyPrice ≤ prev) ∧
      (ladder start inv prev steps).Pairwise (fun lv next => next.buyPrice ≤ lv.buyPrice) := by
  induction steps generalizing prev with
  | nil => exact ⟨fun lv hlv => (by cases hlv), .nil⟩
  | cons step rest ih =>
      rw [List.forall_mem_cons] at hne hadm
      rw [ladder, nextPrice_of_ne hne.1]
      have hnext : 0 ≤ prev * factor step := mul_nonneg hprev (factor_nonneg hadm.1)
      have hle : prev * factor step ≤ prev := mul_le_of_le_one_right hprev (factor_le_one hadm.1)
      obtain ⟨hbelow, hpairwise⟩ := ih hnext hne.2 hadm.2
      constructor
      · rw [List.forall_mem_cons]
        exact ⟨hle, fun lv hlv => (hbelow lv hlv).trans hle⟩
      · exact List.pairwise_cons.mpr ⟨hbelow, hpairwise⟩

theorem ladder_descending (hstart : 0 ≤ start) (hne : ∀ step ∈ steps.tail, step.stepNumber ≠ 0)
    (hadm : ∀ step ∈ steps, Admitted step) :
    (ladder start inv start steps).Pairwise (fun lv next => next.buyPrice ≤ lv.buyPrice) := by
  cases steps with
  | nil => exact .nil
  | cons step rest =>
      rw [List.forall_mem_cons] at hadm
      rw [ladder, nextPrice_start]
      exact List.pairwise_cons.mpr
        (ladder_descending_of_ne rest (mul_nonneg hstart (factor_nonneg hadm.1)) hne hadm.2)

theorem discount_pos (h : ∀ step ∈ steps, Admitted step)
    (hdrop : ∀ step ∈ steps, 0 < step.stepNumber → step.dropRate ≠ 100) : 0 < discount steps := by
  refine List.prod_pos (fun x hx => ?_)
  obtain ⟨step, hstep, rfl⟩ := List.mem_map.mp hx
  obtain ⟨hmem, hnumber⟩ := List.mem_filter.mp hstep
  have hlt : step.dropRate < 100 := lt_of_le_of_ne (h step hmem).drop_le (hdrop step hmem (by simpa using hnumber))
  linarith

theorem discount_eq_zero (hmem : step ∈ steps) (hnumber : 0 < step.stepNumber) (hdrop : step.dropRate = 100) :
    discount steps = 0 := by
  refine List.prod_eq_zero (List.mem_map.mpr ⟨step, List.mem_filter.mpr ⟨hmem, by simpa using hnumber⟩, ?_⟩)
  rw [hdrop]
  norm_num

theorem rung_averagingLevel (hprice : 0 < start * discount steps) (h : Admitted step) :
    Rung start inv steps step (averagingLevel inv (start * discount steps) step) where
  level := rfl
  buyPrice := rfl
  positive := hprice
  sells := by
    have hprofit : 1 < 1 + step.takeProfit / 100 := by linarith [h.profit_pos]
    exact lt_mul_of_one_lt_right hprice hprofit
  spends := by
    simp only [averagingLevel, if_pos hprice]
    exact div_mul_cancel₀ _ hprice.ne'

theorem tail_ne_zero (h : steps.Pairwise (fun a b => a.stepNumber < b.stepNumber)) :
    ∀ step ∈ steps.tail, step.stepNumber ≠ 0 := by
  cases steps with
  | nil => exact fun step hstep => by cases hstep
  | cons first rest => exact fun step hstep => Nat.ne_zero_of_lt (List.rel_of_pairwise_cons h hstep)

theorem rung_at (hstart : 0 < start) (hadm : ∀ step ∈ steps, Admitted step)
    (hdrop : ∀ step ∈ steps, 0 < step.stepNumber → step.dropRate ≠ 100) (k : Nat) (hk : steps[k]? = some step) :
    Rung start inv (steps.take (k + 1)) step
      (averagingLevel inv (start * discount (steps.take (k + 1))) step) := by
  have hdiscount : 0 < discount (steps.take (k + 1)) :=
    discount_pos (fun s hs => hadm s (List.mem_of_mem_take hs)) (fun s hs => hdrop s (List.mem_of_mem_take hs))
  exact rung_averagingLevel (mul_pos hstart hdiscount) (hadm step (List.mem_of_getElem? hk))

section

variable (hstart : 0 < start) (hsorted : steps.Pairwise (fun a b => a.stepNumber < b.stepNumber))
  (hadm : ∀ step ∈ steps, Admitted step) (hdrop : ∀ step ∈ steps, 0 < step.stepNumber → step.dropRate ≠ 100)
include hsorted

theorem ladder_at (k : Nat) (hk : steps[k]? = some step) :
    (ladder start inv start steps)[k]? = some (averagingLevel inv (start * discount (steps.take (k + 1))) step) :=
  (ladder_getElem? steps (tail_ne_zero hsorted) k).trans (congrArg _ hk)

include hstart

theorem averagingLoop_refused (hmem : step ∈ steps) (hnumber : 0 < step.stepNumber) (hnothing : step.dropRate = 100) :
    ∃ message, averagingLoop start inv start steps = .error (.validationError message) := by
  obtain ⟨k, hk⟩ := List.mem_iff_getElem?.mp hmem
  have htaken : step ∈ steps.take (k + 1) :=
    List.mem_of_getElem? ((List.getElem?_take_of_lt (Nat.lt_succ_self k)).trans hk)
  refine averagingLoop_raises hstart steps ⟨_, List.mem_of_getElem? (ladder_at hsorted k hk), ?_⟩
  simp only [averagingLevel, discount_eq_zero htaken hnumber hnothing, mul_zero, le_refl]

include hadm hdrop

theorem averagingLoop_ladder :
    averagingLoop start inv start steps = .ok (ladder start inv start steps) := by
  refine averagingLoop_eq steps (fun lv hlv => ?_)
  obtain ⟨k, hk⟩ := List.mem_iff_getElem?.mp hlv
  rw [ladder_getElem? steps (tail_ne_zero hsorted), Option.map_eq_some_iff] at hk
  obtain ⟨step, hstep, rfl⟩ := hk
  exact (rung_at hstart hadm hdrop k hstep).positive

theorem correct_ladder (hdistinct : (steps.map AveragingStep.stepNumber).Nodup) :
    Correct start inv steps (ladder start inv start steps) := by
  refine ⟨ladder_length .., (ladder_levels ..).symm ▸ hdistinct, fun k step hk => ?_,
    ladder_descending hstart.le (tail_ne_zero hsorted) hadm⟩
  exact ⟨_, ladder_at hsorted k hk, rung_at hstart hadm hdrop k hk⟩

end

/-- The ladder is refused for a drop to nothing only, and is otherwise the documented one. -/
theorem averaging_ladder {averagingSteps : AveragingSteps} (hstart : 0 < start) (hinv : 0 < inv)
    (hne : averagingSteps.steps ≠ [])
    (hsorted : averagingSteps.steps.Pairwise (fun a b => a.stepNumber < b.stepNumber))
    (hadm : ∀ step ∈ averagingSteps.steps, Admitted step) :
    ((∃ message, calculateLevelsWithAveraging start inv averagingSteps = .error (.validationError message)) ↔
        ∃ step ∈ averagingSteps.steps, 0 < step.stepNumber ∧ step.dropRate = 100) ∧
      ((∀ step ∈ averagingSteps.steps, 0 < step.stepNumber → step.dropRate ≠ 100) →
        ∃ levels, calculateLevelsWithAveraging start inv averagingSteps = .ok levels ∧
          Correct start inv averagingSteps.steps levels) := by
  obtain ⟨steps, hdistinct⟩ := averagingSteps
  have hloop : calculateLevelsWithAveraging start inv ⟨steps, hdistinct⟩ = averagingLoop start inv start steps := by
    rw [calculateLevelsWithAveraging, if_neg hne, if_neg (not_le.mpr hinv), if_neg (not_le.mpr hstart)]
  rw [hloop]
  refine ⟨⟨?_, ?_⟩, fun hdrop => ?_⟩
  · rintro ⟨message, hmessage⟩
    by_contra hnone
    have hdrop : ∀ step ∈ steps, 0 < step.stepNumber → step.dropRate ≠ 100 :=
      fun step hstep hnumber hnothing => hnone ⟨step, hstep, hnumber, hnothing⟩
    rw [averagingLoop_ladder hstart hsorted hadm hdrop] at hmessage
    cases hmessage
  · rintro ⟨step, hstep, hnumber, hnothing⟩
    exact averagingLoop_refused hstart hsorted hstep hnumber hnothing
  · exact ⟨_, averagingLoop_ladder hstart hsorted hadm hdrop, correct_ladder hstart hsorted hadm hdrop hdistinct⟩

/-- A buy at the start price, and twice as much ten percent below it. -/
def twoSteps : AveragingSteps where
  steps := [{ stepNumber := 0, dropRate := 0, takeProfit := 2 },
            { stepNumber := 1, dropRate := 10, multipleBuyAmount := 2, takeProfit := 3 }]
  distinct := by decide

theorem averaging_ladder_twoSteps :
    ∃ levels, calculateLevelsWithAveraging 100 50 twoSteps = .ok levels ∧
      Correct 100 50 twoSteps.steps levels := by
  have hadm : ∀ step ∈ twoSteps.steps, Admitted step := by
    simp only [twoSteps, List.forall_mem_cons, List.not_mem_nil, false_imp_iff, implies_true, and_true]
    constructor <;> constructor <;> norm_num
  refine (averaging_ladder (by norm_num) (by norm_num) (List.cons_ne_nil _ _) (by decide) hadm).2 ?_
  simp only [twoSteps, List.forall_mem_cons, List.not_mem_nil, false_imp_iff, implies_true, and_true]
  constructor <;> norm_num

end Utos.Grid.Ladder
