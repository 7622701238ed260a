import Mathlib.Algebra.BigOperators.Group.List.Basic
import Mathlib.Algebra.Field.Basic
import Mathlib.Data.Nat.Cast.Defs
import Mathlib.Tactic.Ring

namespace Utos.Core.MovingAverage

variable {K : Type} [Field K]

/-- One value more moves an average towards it by a part of the distance. -/
def towards (part last value : K) : K := (value - last) * part + last

def weight (period : ℕ) : K := 2 / (period + 1)

def mean (period : ℕ) (values : List K) : K := (values.take period).sum / period

/-- The exponential moving average of a series, begun with the mean of its first values. -/
def ema (period : ℕ) (values : List K) : K :=
  (values.drop period).foldl (towards (weight period)) (mean period values)

/-- The averages of its prefixes, from the first of full length on. -/
def emaSeries (period : ℕ) (values : List K) : List K :=
  (List.range' period (values.length - period + 1)).map (fun n => ema period (values.take n))

theorem ema_take {period n : ℕ} (values : List K) (h : period ≤ n) : ema period (values.take n) =
    ((values.drop period).take (n - period)).foldl (towards (weight period)) (mean period values) := by
  rw [ema, mean, List.take_take, min_eq_left h, List.drop_take, mean]

theorem length_emaSeries (period : ℕ) (values : List K) :
    (emaSeries period values).length = values.length - period + 1 := by simp [emaSeries]

/-- The averages come one after the other. -/
theorem scanl_eq_emaSeries (period : ℕ) (values : List K) :
    (values.drop period).scanl (towards (weight period)) (mean period values) = emaSeries period values := by
  refine List.ext_getElem (by simp [emaSeries]) (fun i hi hi' => ?_)
  rw [List.getElem_scanl]
  simp only [emaSeries, List.getElem_map, List.getElem_range', one_mul]
  rw [ema_take values (Nat.le_add_right _ _), Nat.add_sub_cancel_left]

theorem getLast?_emaSeries (period : ℕ) (values : List K) :
    (emaSeries period values).getLast? = some (ema period values) := by
  rw [← scanl_eq_emaSeries, List.getLast?_scanl]
  rfl

section Linear

variable {xs ys : List K}

theorem foldl_towards_add (part : K) (h : xs.length = ys.length) (a b : K) :
    (List.zipWith (· + ·) xs ys).foldl (towards part) (a + b) =
      xs.foldl (towards part) a + ys.foldl (towards part) b := by
  induction xs generalizing ys a b with
  | nil =>
      cases ys with
      | nil => rfl
      | cons y ys => cases h
  | cons x xs ih =>
      cases ys with
      | nil => cases h
      | cons y ys =>
          have hnext : towards part (a + b) (x + y) = towards part a x + towards part b y := by
            unfold towards
            ring
          rw [List.zipWith_cons_cons, List.foldl_cons, List.foldl_cons, List.foldl_cons, hnext,
            ih (Nat.succ.inj h)]

theorem sum_zipWith_add (h : xs.length = ys.length) : (List.zipWith (· + ·) xs ys).sum = xs.sum + ys.sum := by
  induction xs generalizing ys with
  | nil =>
      cases ys with
      | nil => exact (add_zero 0).symm
      | cons y ys => cases h
  | cons x xs ih =>
      cases ys with
      | nil => cases h
      | cons y ys =>
          rw [List.zipWith_cons_cons, List.sum_cons, List.sum_cons, List.sum_cons, ih (Nat.succ.inj h)]
          ring

/-- The average of a sum is the sum of the averages. -/
theorem ema_add (period : ℕ) (h : xs.length = ys.length) :
    ema period (List.zipWith (· + ·) xs ys) = ema period xs + ema period ys := by
  rw [ema, mean, List.drop_zipWith, List.take_zipWith, sum_zipWith_add (by simp [h]), add_div,
    foldl_towards_add _ (by simp [h])]
  rfl

end Linear

end Utos.Core.MovingAverage
