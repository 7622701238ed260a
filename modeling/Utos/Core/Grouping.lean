import Mathlib.Algebra.BigOperators.Group.List.Basic
import Mathlib.Data.List.Perm.Basic
import Utos.Core.Dict

namespace Utos.Core.Dict

variable {K V M α : Type} [DecidableEq K]

def values (d : Dict K V) : List V := d.entries.map Prod.snd

theorem values_perm_of_get {d : Dict K V} {k : K} {v : V} (h : d.get k = some v) :
    d.values.Perm (v :: (d.pop k).values) := (perm_of_get h).map Prod.snd

theorem values_set_perm (d : Dict K V) (k : K) (v : V) : (d.set k v).values.Perm (v :: (d.pop k).values) :=
  (perm_set d k v).map Prod.snd

theorem values_pop_of_get_none {d : Dict K V} {k : K} (h : d.get k = none) : (d.pop k).values = d.values :=
  congrArg (List.map Prod.snd) (entries_pop_of_get_none h)

/-- The sums of the elements that share a key. -/
def tally [AddCommMonoid M] (key : α → K) (f : α → M) (xs : List α) : Dict K M :=
  xs.foldl (fun d a => d.set (key a) ((d.get (key a)).getD 0 + f a)) ∅

/-- The lists of the elements that share a key. -/
def groupBy (key : α → K) (xs : List α) : Dict K (List α) :=
  xs.foldl (fun d a => d.set (key a) ((d.get (key a)).getD [] ++ [a])) ∅

section Tally

variable [AddCommMonoid M]

theorem sum_values_set (d : Dict K M) (k : K) (x : M) :
    (d.set k ((d.get k).getD 0 + x)).values.sum = d.values.sum + x := by
  rw [(values_set_perm d k _).sum_eq, List.sum_cons]
  cases hget : d.get k with
  | none => rw [values_pop_of_get_none hget, Option.getD_none, zero_add, add_comm]
  | some v => rw [(values_perm_of_get hget).sum_eq, List.sum_cons, Option.getD_some, add_right_comm]

theorem sum_values_tally (key : α → K) (f : α → M) (xs : List α) : (tally key f xs).values.sum = (xs.map f).sum := by
  have hfold : ∀ (xs : List α) (d : Dict K M), (xs.foldl (fun d a =>
      d.set (key a) ((d.get (key a)).getD 0 + f a)) d).values.sum = d.values.sum + (xs.map f).sum := by
    intro xs
    induction xs with
    | nil => exact fun d => (add_zero _).symm
    | cons a xs ih =>
        intro d
        rw [List.foldl_cons, ih, sum_values_set, List.map_cons, List.sum_cons, add_assoc]
  exact (hfold xs ∅).trans (zero_add _)

end Tally

/-- A dict with the same keys, built entry by entry. -/
theorem entries_rebuild {W : Type} (d : Dict K V) (f : K → V → W) :
    (d.entries.foldl (fun result e => result.set e.1 (f e.1 e.2)) (∅ : Dict K W)).entries =
      d.entries.map (fun e => (e.1, f e.1 e.2)) := by
  have hkeys : (d.entries.map (fun e => (e.1, f e.1 e.2))).map Prod.fst = d.entries.map Prod.fst := by
    rw [List.map_map]
    rfl
  have hset := entries_foldl_set (∅ : Dict K W) (d.entries.map (fun e => (e.1, f e.1 e.2))) (hkeys ▸ d.nodup)
  rw [List.foldl_map] at hset
  exact hset

theorem flatten_values_set (d : Dict K (List α)) (k : K) (a : α) :
    (d.set k ((d.get k).getD [] ++ [a])).values.flatten.Perm (d.values.flatten ++ [a]) := by
  refine (values_set_perm d k _).flatten.trans ?_
  rw [List.flatten_cons]
  cases hget : d.get k with
  | none =>
      rw [values_pop_of_get_none hget]
      exact List.perm_append_comm
  | some v =>
      rw [Option.getD_some]
      have hflat := (values_perm_of_get hget).flatten.append_right [a]
      rw [List.flatten_cons] at hflat
      refine List.Perm.trans ?_ hflat.symm
      rw [List.append_assoc, List.append_assoc]
      exact List.perm_append_comm.append_left v

/-- Put together again, the groups are the list in another order. -/
theorem flatten_groupBy (key : α → K) (xs : List α) : (groupBy key xs).values.flatten.Perm xs := by
  have hfold : ∀ (xs : List α) (d : Dict K (List α)), (xs.foldl (fun d a =>
      d.set (key a) ((d.get (key a)).getD [] ++ [a])) d).values.flatten.Perm (d.values.flatten ++ xs) := by
    intro xs
    induction xs with
    | nil =>
        intro d
        rw [List.append_nil]
        exact List.Perm.refl _
    | cons a xs ih =>
        intro d
        rw [List.foldl_cons]
        refine (ih _).trans (((flatten_values_set d (key a) a).append_right xs).trans ?_)
        rw [List.append_assoc, List.singleton_append]
  exact hfold xs ∅

theorem sum_groups [AddCommMonoid M] (key : α → K) (f : α → M) (xs : List α) :
    ((groupBy key xs).values.map (fun group => (group.map f).sum)).sum = (xs.map f).sum := by
  rw [← ((flatten_groupBy key xs).map f).sum_eq, List.map_flatten, List.sum_flatten, List.map_map]
  rfl

end Utos.Core.Dict
