import Mathlib.Algebra.Order.Group.Defs
import Mathlib.Algebra.Order.Group.Unbundled.Basic
import Mathlib.Order.Bounds.Basic

namespace Utos.Core.Decline

variable {α : Type} [AddCommGroup α] [LinearOrder α] [IsOrderedAddMonoid α]

/-- The differences between an element and one that does not come before it. -/
def declines (xs : List α) : Set α := {d | ∃ (i j : Nat) (x y : α), i ≤ j ∧ xs[i]? = some x ∧ xs[j]? = some y ∧ d = x - y}

variable {xs : List α} {peak worst y d : α}

theorem mem_declines_concat : d ∈ declines (xs ++ [y]) ↔ d ∈ declines xs ∨ ∃ x ∈ xs ++ [y], d = x - y := by
  constructor
  · rintro ⟨i, j, x, z, hij, hx, hz, rfl⟩
    rcases Nat.lt_or_ge j xs.length with hj | hj
    · rw [List.getElem?_append_left (hij.trans_lt hj)] at hx
      rw [List.getElem?_append_left hj] at hz
      exact .inl ⟨i, j, x, z, hij, hx, hz, rfl⟩
    · have hzy : z = y := by
        rw [List.getElem?_append_right hj] at hz
        exact List.mem_singleton.mp (List.mem_of_getElem? hz)
      exact .inr ⟨x, List.mem_of_getElem? hx, by rw [hzy]⟩
  · rintro (⟨i, j, x, z, hij, hx, hz, rfl⟩ | ⟨x, hx, rfl⟩)
    · have hj := (List.getElem?_eq_some_iff.mp hz).1
      refine ⟨i, j, x, z, hij, ?_, ?_, rfl⟩
      · rw [List.getElem?_append_left (hij.trans_lt hj), hx]
      · rw [List.getElem?_append_left hj, hz]
    · obtain ⟨i, hi⟩ := List.mem_iff_getElem?.mp hx
      have hle : i ≤ xs.length := by
        have hlt := (List.getElem?_eq_some_iff.mp hi).1
        rw [List.length_append, List.length_singleton] at hlt
        exact Nat.le_of_lt_succ hlt
      exact ⟨i, xs.length, x, y, hle, hi, by simp, rfl⟩

theorem isGreatest_mem_concat (hpeak : IsGreatest {x | x ∈ xs} peak) (y : α) :
    IsGreatest {x | x ∈ xs ++ [y]} (max peak y) := by
  refine ⟨?_, fun x hx => ?_⟩
  · rcases max_choice peak y with hmax | hmax
    · rw [hmax]
      exact List.mem_append_left _ hpeak.1
    · rw [hmax]
      exact List.mem_append_right _ (List.mem_singleton_self y)
  · rcases List.mem_append.mp hx with hx | hx
    · exact (hpeak.2 hx).trans (le_max_left _ _)
    · exact (List.mem_singleton.mp hx).le.trans (le_max_right _ _)

/-- The largest decline down to a new element is the one from the peak. -/
theorem isGreatest_declines_concat (hpeak : IsGreatest {x | x ∈ xs} peak) (hworst : IsGreatest (declines xs) worst) (y : α) :
    IsGreatest (declines (xs ++ [y])) (max worst (max peak y - y)) := by
  have hpeak' := isGreatest_mem_concat hpeak y
  refine ⟨mem_declines_concat.mpr ?_, fun d hd => ?_⟩
  · rcases max_choice worst (max peak y - y) with hmax | hmax
    · rw [hmax]
      exact .inl hworst.1
    · exact .inr ⟨max peak y, hpeak'.1, hmax⟩
  · rcases mem_declines_concat.mp hd with hd | ⟨x, hx, rfl⟩
    · exact (hworst.2 hd).trans (le_max_left _ _)
    · exact (sub_le_sub_right (hpeak'.2 hx) y).trans (le_max_right _ _)

theorem isGreatest_declines_singleton (x : α) : IsGreatest (declines [x]) 0 := by
  refine ⟨⟨0, 0, x, x, le_rfl, rfl, rfl, (sub_self x).symm⟩, ?_⟩
  rintro d ⟨i, j, y, z, -, hy, hz, rfl⟩
  rw [List.mem_singleton.mp (List.mem_of_getElem? hy), List.mem_singleton.mp (List.mem_of_getElem? hz), sub_self]

end Utos.Core.Decline
