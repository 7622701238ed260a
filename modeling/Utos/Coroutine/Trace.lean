import Mathlib.Data.List.Basic

namespace Utos.Coroutine

variable {X V : Type}

/-- Every event of a run meets a condition on the state it finds. -/
def AllMeet (step : X → V → X) (Meets : X → V → Prop) : X → List V → Prop
  | _, [] => True
  | x, e :: es => Meets x e ∧ AllMeet step Meets (step x e) es

variable {step : X → V → X} {Meets : X → V → Prop}

theorem allMeet_append {x : X} {es es' : List V} :
    AllMeet step Meets x (es ++ es') ↔ AllMeet step Meets x es ∧ AllMeet step Meets (es.foldl step x) es' := by
  induction es generalizing x with
  | nil => simp [AllMeet]
  | cons e es ih => simp only [List.cons_append, AllMeet, ih, List.foldl_cons, and_assoc]

theorem allMeet_mono {Meets' : X → V → Prop} (himp : ∀ x e, Meets x e → Meets' x e) {x : X} {es : List V}
    (hes : AllMeet step Meets x es) : AllMeet step Meets' x es := by
  induction es generalizing x with
  | nil => exact trivial
  | cons e es ih => exact ⟨himp x e hes.1, ih hes.2⟩

/-- Conditions that agree on the states of an invariant agree on the runs. -/
theorem allMeet_congr {I : X → Prop} {Meets' : X → V → Prop} (hstep : ∀ x e, I x → Meets' x e → I (step x e))
    (h : ∀ x e, I x → (Meets x e ↔ Meets' x e)) {x : X} {es : List V} (hx : I x) :
    AllMeet step Meets x es ↔ AllMeet step Meets' x es := by
  induction es generalizing x with
  | nil => exact Iff.rfl
  | cons e es ih =>
      refine (and_congr_left (fun _ => h x e hx)).trans (and_congr_right (fun he => ?_))
      exact ih (hstep x e hx he)

/-- An invariant holds in every state of a run exactly when every event meets the
condition under which it keeps the invariant. -/
theorem allMeet_keeps_iff {I : X → Prop} (h : ∀ x e, I x → (I (step x e) ↔ Meets x e)) {x : X} {es : List V}
    (hx : I x) : AllMeet step (fun x e => I (step x e)) x es ↔ AllMeet step Meets x es :=
  allMeet_congr (fun x e hx he => (h x e hx).mpr he) h hx

/-- What follows from an invariant and the condition holds at every event of a run. -/
theorem allMeet_of_keeps {I : X → Prop} {Holds : X → V → Prop}
    (hstep : ∀ x e, I x → Meets x e → Holds x e ∧ I (step x e)) {x : X} {es : List V} (hx : I x)
    (hes : AllMeet step Meets x es) : AllMeet step Holds x es := by
  induction es generalizing x with
  | nil => exact trivial
  | cons e es ih =>
      obtain ⟨hholds, hnext⟩ := hstep x e hx hes.1
      exact ⟨hholds, ih hnext hes.2⟩

/-- What follows from an invariant alone holds at every event of every run. -/
theorem allMeet_of_invariant {I : X → Prop} (hmeets : ∀ x e, I x → Meets x e) (hstep : ∀ x e, I x → I (step x e)) {x : X}
    (es : List V) (hx : I x) : AllMeet step Meets x es := by
  induction es generalizing x with
  | nil => exact trivial
  | cons e es ih => exact ⟨hmeets x e hx, ih (hstep x e hx)⟩

/-- What every event preserves, every run does. -/
theorem foldl_keeps {I : X → Prop} (hstep : ∀ x e, I x → I (step x e)) {x : X} (es : List V) (hx : I x) :
    I (es.foldl step x) := by
  induction es generalizing x with
  | nil => exact hx
  | cons e es ih => exact ih (hstep x e hx)

/-- What every event that meets the condition preserves holds in the end. -/
theorem foldl_of_allMeet {I : X → Prop} (hstep : ∀ x e, I x → Meets x e → I (step x e)) {x : X} {es : List V}
    (hx : I x) (hes : AllMeet step Meets x es) : I (es.foldl step x) := by
  induction es generalizing x with
  | nil => exact hx
  | cons e es ih => exact ih (hstep x e hx hes.1) hes.2

/-- A run keeps its invariant exactly when every event meets the condition, if an
event that does not meet it leaves a damage that no later event repairs. -/
theorem foldl_iff_allMeet {I D : X → Prop} (hstep : ∀ x e, I x → Meets x e → I (step x e))
    (hfail : ∀ x e, I x → ¬ Meets x e → D (step x e)) (hlast : ∀ x e, D x → D (step x e))
    (hexcl : ∀ x, D x → ¬ I x) {x : X} {es : List V} (hx : I x) :
    I (es.foldl step x) ↔ AllMeet step Meets x es := by
  induction es generalizing x with
  | nil => exact iff_of_true hx trivial
  | cons e es ih =>
      by_cases he : Meets x e
      · exact (ih (hstep x e hx he)).trans (and_iff_right he).symm
      · exact iff_of_false (hexcl _ (foldl_keeps hlast es (hfail x e hx he))) (fun h => he h.1)

/-- A run stands as it is to the same run with some of its events left out, if these
change nothing that matters to how the two stand and the others are run on both sides. -/
theorem foldl_filter_related {Y : Type} {step' : Y → V → Y} {R : X → Y → Prop} {p : V → Prop} [DecidablePred p]
    {es : List V} (hboth : ∀ x y, ∀ e ∈ es, p e → R x y → R (step x e) (step' y e))
    (hone : ∀ x y, ∀ e ∈ es, ¬ p e → R x y → R (step x e) y) {x : X} {y : Y} (h : R x y) :
    R (es.foldl step x) ((es.filter p).foldl step' y) := by
  induction es generalizing x y with
  | nil => exact h
  | cons e es ih =>
      have hboth' := fun x y e' (he' : e' ∈ es) => hboth x y e' (List.mem_cons_of_mem e he')
      have hone' := fun x y e' (he' : e' ∈ es) => hone x y e' (List.mem_cons_of_mem e he')
      by_cases he : p e
      · rw [List.filter_cons, if_pos (decide_eq_true he)]
        exact ih hboth' hone' (hboth x y e List.mem_cons_self he h)
      · rw [List.filter_cons, if_neg (fun h => he (of_decide_eq_true h))]
        exact ih hboth' hone' (hone x y e List.mem_cons_self he h)

end Utos.Coroutine
