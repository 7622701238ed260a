import Mathlib.Algebra.Order.BigOperators.Group.List
import Mathlib.Tactic.Ring

namespace Utos.Core.Join

variable {α : Type} {x : α} {ps qs : List (List α)}

theorem length_intercalate (sep : List α) (ps : List (List α)) :
    (sep.intercalate ps).length = (ps.map List.length).sum + sep.length * (ps.length - 1) := by
  induction ps with
  | nil => simp
  | cons p ps ih =>
      cases ps with
      | nil => simp
      | cons q qs =>
          rw [List.intercalate_cons_cons]
          simp only [List.length_append, ih, List.map_cons, List.sum_cons, List.length_cons, Nat.add_sub_cancel]
          ring

variable [DecidableEq α]

theorem count_intercalate (x : α) (ps : List (List α)) :
    ([x].intercalate ps).count x = (ps.map (List.count x)).sum + (ps.length - 1) := by
  induction ps with
  | nil => simp
  | cons p ps ih =>
      cases ps with
      | nil => simp
      | cons q qs =>
          rw [List.intercalate_cons_cons]
          simp only [List.count_append, ih, List.map_cons, List.sum_cons, List.length_cons, Nat.add_sub_cancel,
            List.count_singleton_self]
          ring

/-- Pieces of which nothing is known are the pieces they are joined like, if these
are as many and the separator is in none of them. -/
theorem intercalate_inj (hq : ∀ q ∈ qs, x ∉ q) (hlen : ps.length = qs.length)
    (h : [x].intercalate ps = [x].intercalate qs) : ps = qs := by
  have hcount := congrArg (List.count x) h
  have hzero : (qs.map (List.count x)).sum = 0 := List.sum_eq_zero (fun n hn => by
    obtain ⟨q, hmem, rfl⟩ := List.mem_map.mp hn
    exact List.count_eq_zero_of_not_mem (hq q hmem))
  rw [count_intercalate, count_intercalate, hzero, hlen, Nat.add_right_cancel_iff] at hcount
  have hp : ∀ p ∈ ps, x ∉ p := fun p hmem => List.count_eq_zero.mp
    (List.sum_eq_zero_iff.mp hcount _ (List.mem_map_of_mem hmem))
  cases ps with
  | nil => exact (List.length_eq_zero_iff.mp hlen.symm).symm
  | cons p ps =>
      have hne : qs ≠ [] := List.length_pos_iff.mp (hlen ▸ Nat.succ_pos _)
      rw [← List.splitOn_intercalate x hp (List.cons_ne_nil _ _), h, List.splitOn_intercalate x hq hne]

theorem pair_inj {k v k' v' : List α} (hk : x ∉ k') (hv : x ∉ v') (h : k ++ x :: v = k' ++ x :: v') :
    k = k' ∧ v = v' := by
  have hjoin : [x].intercalate [k, v] = [x].intercalate [k', v'] := by
    simpa [List.intercalate_cons_cons] using h
  have heq : [k, v] = [k', v'] := intercalate_inj (by simp [hk, hv]) rfl hjoin
  simpa using heq

end Utos.Core.Join
