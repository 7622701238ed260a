import Mathlib.Data.List.Nodup

namespace Utos.Core

/-- A dict: its entries in the order in which their keys came in. -/
structure Dict (K V : Type) where
  entries : List (K × V)
  nodup : (entries.map Prod.fst).Nodup

namespace Dict

variable {K V : Type} [DecidableEq K]

/-- Overwrite the entry of the key, or append one. -/
def insertEntry (k : K) (v : V) : List (K × V) → List (K × V)
  | [] => [(k, v)]
  | e :: es => if e.1 = k then (k, v) :: es else e :: insertEntry k v es

theorem keys_insertEntry (k : K) (v : V) (es : List (K × V)) :
    (insertEntry k v es).map Prod.fst =
      if k ∈ es.map Prod.fst then es.map Prod.fst else es.map Prod.fst ++ [k] := by
  induction es with
  | nil => rfl
  | cons e es ih =>
      by_cases he : e.1 = k
      · simp [insertEntry, he]
      · have hne : k ≠ e.1 := fun h => he h.symm
        simp only [insertEntry, he, if_false, List.map_cons, ih, List.mem_cons, hne, false_or]
        split <;> rfl

theorem nodup_insertEntry {es : List (K × V)} (h : (es.map Prod.fst).Nodup) (k : K) (v : V) :
    ((insertEntry k v es).map Prod.fst).Nodup := by
  rw [keys_insertEntry]
  split
  · exact h
  next hk => exact List.nodup_append.mpr ⟨h, List.nodup_singleton k, fun x hx y hy heq =>
      hk (List.mem_singleton.mp hy ▸ heq ▸ hx)⟩

def empty : Dict K V := ⟨[], List.nodup_nil⟩

instance : EmptyCollection (Dict K V) := ⟨empty⟩

def get (d : Dict K V) (k : K) : Option V := d.entries.lookup k

def set (d : Dict K V) (k : K) (v : V) : Dict K V :=
  ⟨insertEntry k v d.entries, nodup_insertEntry d.nodup k v⟩

def pop (d : Dict K V) (k : K) : Dict K V :=
  ⟨d.entries.filter (fun e => e.1 ≠ k), List.Nodup.sublist (List.filter_sublist.map Prod.fst) d.nodup⟩

theorem lookup_cons_eq (j : K) (e : K × V) (es : List (K × V)) :
    (e :: es).lookup j = if j = e.1 then some e.2 else es.lookup j := by
  rw [List.lookup_cons]
  by_cases h : j = e.1
  · rw [if_pos h, beq_iff_eq.mpr h]
  · rw [if_neg h, beq_eq_false_iff_ne.mpr h]

variable (d : Dict K V) (k : K) (v : V)

@[simp] theorem get_empty : (∅ : Dict K V).get k = none := rfl

theorem lookup_insertEntry (es : List (K × V)) (j : K) :
    (insertEntry k v es).lookup j = if j = k then some v else es.lookup j := by
  induction es with
  | nil => exact lookup_cons_eq j (k, v) []
  | cons e es ih =>
      by_cases he : e.1 = k
      · subst he
        simp only [insertEntry, if_true, lookup_cons_eq]
        split <;> rfl
      · simp only [insertEntry, he, if_false, lookup_cons_eq, ih]
        by_cases hj : j = k
        · rw [if_pos hj, if_neg (fun h : j = e.1 => he (h ▸ hj)), if_pos hj]
        · rw [if_neg hj, if_neg hj]

theorem get_set (j : K) : (d.set k v).get j = if j = k then some v else d.get j :=
  lookup_insertEntry k v d.entries j

@[simp] theorem get_set_self : (d.set k v).get k = some v := by rw [get_set, if_pos rfl]

theorem get_set_of_ne {j : K} (h : j ≠ k) : (d.set k v).get j = d.get j := by rw [get_set, if_neg h]

theorem lookup_filter (es : List (K × V)) (j : K) :
    (es.filter (fun e => e.1 ≠ k)).lookup j = if j = k then none else es.lookup j := by
  induction es with
  | nil => split <;> rfl
  | cons e es ih =>
      by_cases he : e.1 = k
      · subst he
        rw [List.filter_cons_of_neg (by simp), ih, lookup_cons_eq]
        split <;> rfl
      · rw [List.filter_cons_of_pos (by simpa using he), lookup_cons_eq, lookup_cons_eq, ih]
        by_cases hj : j = k
        · rw [if_pos hj, if_neg (fun h : j = e.1 => he (h ▸ hj)), if_pos hj]
        · rw [if_neg hj, if_neg hj]

theorem get_pop (j : K) : (d.pop k).get j = if j = k then none else d.get j :=
  lookup_filter k d.entries j

theorem mem_of_get {d : Dict K V} {k : K} {v : V} (h : d.get k = some v) : (k, v) ∈ d.entries := by
  obtain ⟨before, after, heq, -⟩ := List.lookup_eq_some_iff.mp h
  rw [heq]
  exact List.mem_append_right before List.mem_cons_self

theorem get_of_mem {d : Dict K V} {k : K} {v : V} (h : (k, v) ∈ d.entries) : d.get k = some v := by
  obtain ⟨entries, hnodup⟩ := d
  simp only [get] at h ⊢
  induction entries with
  | nil => cases h
  | cons e es ih =>
      rw [List.map_cons, List.nodup_cons] at hnodup
      rw [lookup_cons_eq]
      rcases List.mem_cons.mp h with rfl | hes
      · exact if_pos rfl
      · have hne : k ≠ e.1 := fun hk => hnodup.1 (hk ▸ List.mem_map_of_mem (f := Prod.fst) hes)
        rw [if_neg hne]
        exact ih hnodup.2 hes

theorem mem_iff_get {d : Dict K V} {k : K} {v : V} : (k, v) ∈ d.entries ↔ d.get k = some v :=
  ⟨get_of_mem, mem_of_get⟩

theorem insertEntry_of_not_mem {k : K} {es : List (K × V)} (v : V) (h : k ∉ es.map Prod.fst) :
    insertEntry k v es = es ++ [(k, v)] := by
  induction es with
  | nil => rfl
  | cons e es ih =>
      rw [List.map_cons, List.mem_cons, not_or] at h
      rw [insertEntry, if_neg (Ne.symm h.1), ih h.2, List.cons_append]

theorem entries_foldl_set (d : Dict K V) (es : List (K × V)) (h : ((d.entries ++ es).map Prod.fst).Nodup) :
    (es.foldl (fun d e => d.set e.1 e.2) d).entries = d.entries ++ es := by
  induction es generalizing d with
  | nil => exact (List.append_nil _).symm
  | cons e es ih =>
      have hnot : e.1 ∉ d.entries.map Prod.fst := by
        rw [List.map_append, List.map_cons] at h
        exact fun hmem => (List.nodup_append.mp h).2.2 _ hmem _ List.mem_cons_self rfl
      have hset : (d.set e.1 e.2).entries = d.entries ++ [e] := insertEntry_of_not_mem e.2 hnot
      have happend : (d.set e.1 e.2).entries ++ es = d.entries ++ e :: es := by
        rw [hset, List.append_assoc, List.singleton_append]
      rw [List.foldl_cons, ih _ (by rw [happend]; exact h), happend]

/-- The entries whose value meets a condition. -/
def filter (p : V → Bool) (d : Dict K V) : Dict K V :=
  ⟨d.entries.filter (fun e => p e.2), List.Nodup.sublist (List.filter_sublist.map Prod.fst) d.nodup⟩

theorem get_filter_eq_some {p : V → Bool} {d : Dict K V} {k : K} {v : V} :
    (d.filter p).get k = some v ↔ d.get k = some v ∧ p v = true := by
  rw [← mem_iff_get, ← mem_iff_get]
  exact List.mem_filter

theorem entries_set_of_get_none {d : Dict K V} {k : K} (v : V) (h : d.get k = none) :
    (d.set k v).entries = d.entries ++ [(k, v)] := by
  refine insertEntry_of_not_mem v (fun hmem => ?_)
  obtain ⟨⟨k', v'⟩, he, rfl⟩ := List.mem_map.mp hmem
  rw [get_of_mem he] at h
  cases h

theorem length_le_set : d.entries.length ≤ (d.set k v).entries.length := by
  have hkeys := congrArg List.length (keys_insertEntry k v d.entries)
  rw [List.length_map] at hkeys
  rw [set, hkeys]
  split
  · exact Nat.le_of_eq (List.length_map Prod.fst).symm
  · rw [List.length_append, List.length_map]
    exact Nat.le_add_right _ _

theorem filter_insertEntry (es : List (K × V)) :
    (insertEntry k v es).filter (fun e => e.1 ≠ k) = es.filter (fun e => e.1 ≠ k) := by
  induction es with
  | nil => simp [insertEntry]
  | cons e es ih =>
      by_cases he : e.1 = k
      · simp [insertEntry, he]
      · rw [insertEntry, if_neg he, List.filter_cons, List.filter_cons, ih]

theorem entries_pop_of_get_none {d : Dict K V} {k : K} (h : d.get k = none) : (d.pop k).entries = d.entries := by
  apply List.filter_eq_self.mpr
  intro e he
  have hne : e.1 ≠ k := by
    rintro rfl
    rw [get_of_mem he] at h
    cases h
  simpa using hne

/-- The entry of a key beside all the others. -/
theorem perm_of_get {d : Dict K V} {k : K} {v : V} (h : d.get k = some v) :
    d.entries.Perm ((k, v) :: (d.pop k).entries) := by
  obtain ⟨entries, hnodup⟩ := d
  simp only [get, pop] at h ⊢
  induction entries with
  | nil => cases h
  | cons e es ih =>
      rw [List.map_cons, List.nodup_cons] at hnodup
      rw [lookup_cons_eq] at h
      by_cases he : k = e.1
      · rw [if_pos he] at h
        have hrest : (pop ⟨es, hnodup.2⟩ k).entries = es := by
          refine entries_pop_of_get_none (d := ⟨es, hnodup.2⟩) ?_
          apply Option.eq_none_iff_forall_ne_some.mpr
          intro w hw
          exact hnodup.1 (he ▸ List.mem_map_of_mem (f := Prod.fst) (mem_of_get hw))
        rw [List.filter_cons_of_neg (by simpa using he.symm), show es.filter (fun e => e.1 ≠ k) = es from hrest]
        cases e
        cases h
        cases he
        exact List.Perm.refl _
      · rw [if_neg he] at h
        rw [List.filter_cons_of_pos (by simpa using Ne.symm he)]
        exact ((ih hnodup.2 h).cons e).trans (List.Perm.swap _ _ _)

theorem perm_set : (d.set k v).entries.Perm ((k, v) :: (d.pop k).entries) := by
  have hpop : ((d.set k v).pop k).entries = (d.pop k).entries := filter_insertEntry k v d.entries
  rw [← hpop]
  exact perm_of_get (get_set_self d k v)

end Dict

end Utos.Core
