import Mathlib.Algebra.Order.Group.Defs
import Mathlib.Algebra.Order.Group.Unbundled.Basic
import Mathlib.Data.List.Basic

namespace Utos.Core.SlidingWindow

variable {K : Type} [AddCommGroup K] [LinearOrder K] [IsOrderedAddMonoid K]

/-- The times in the half-open window that starts at one of them. -/
def inWindow (start width : K) (times : List K) : List K := times.filter (fun t => start ≤ t ∧ t < start + width)

/-- The times that are less than the width before now. -/
def recent (now width : K) (times : List K) : List K := times.filter (fun t => now - width < t)

variable {start now later width t : K} {times : List K} {n : Nat}

omit [IsOrderedAddMonoid K] in
theorem mem_recent : t ∈ recent now width times ↔ t ∈ times ∧ now - width < t := by
  rw [recent, List.mem_filter, decide_eq_true_iff]

theorem recent_sublist (h : now ≤ later) : (recent later width times).Sublist (recent now width times) := by
  refine List.monotone_filter_right times (fun t ht => ?_)
  rw [decide_eq_true_iff] at ht ⊢
  exact (sub_le_sub_right h width).trans_lt ht

theorem recent_concat (h : 0 < width) : recent now width (times ++ [now]) = recent now width times ++ [now] := by
  rw [recent, List.filter_append, List.filter_singleton, decide_eq_true (sub_lt_self now h), cond_true]
  rfl

/-- What a window has seen by a time that is in it is recent at that time. -/
theorem inWindow_sublist_recent (h : t < start + width) : (inWindow start width times).Sublist (recent t width times) := by
  refine List.monotone_filter_right times (fun s hs => ?_)
  rw [decide_eq_true_iff] at hs ⊢
  exact (sub_lt_iff_lt_add.mpr h).trans_le hs.1

/-- A bound on every window is kept by a time of which no more are recent. -/
theorem length_inWindow_concat_le (h : (inWindow start width times).length ≤ n)
    (hrecent : (recent t width (times ++ [t])).length ≤ n) : (inWindow start width (times ++ [t])).length ≤ n := by
  by_cases ht : start ≤ t ∧ t < start + width
  · exact (inWindow_sublist_recent ht.2).length_le.trans hrecent
  · rw [inWindow, List.filter_append, List.filter_singleton, decide_eq_false ht, cond_false, List.append_nil]
    exact h

end Utos.Core.SlidingWindow
