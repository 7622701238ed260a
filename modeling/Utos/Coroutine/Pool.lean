import Utos.Coroutine.Interference
import Mathlib.Logic.Relation
import Mathlib.Logic.Function.Basic

namespace Utos.Coroutine

open Program

variable {S Q W O : Type} {A : Q → Type} {E α : Type}

/-- What has become of a program that was started: it waits for the answer to a
request, has been given the answer, or has ended. -/
inductive Task (S Q : Type) (A : Q → Type) (E α : Type)
  | asked (q : Q) (k : A q → Program S Q A E α)
  | answered (q : Q) (a : A q) (k : A q → Program S Q A E α)
  | done (r : Except E α)

/-- Run a program up to its next request. -/
def Program.advance : Program S Q A E α → S → Task S Q A E α × S
  | .ret a, s => (.done (.ok a), s)
  | .raise e, s => (.done (.error e), s)
  | .get k, s => (k s).advance s
  | .put s' k, _ => k.advance s'
  | .call q k, s => (.asked q k, s)

/-- Programs that take turns on one store. Each keeps its turn until it makes a request. -/
structure Pool (S W Q : Type) (A : Q → Type) (E α : Type) where
  store : S
  world : W
  tasks : Nat → Option (Task S Q A E α) := fun _ => none

namespace Pool

def start (P : Pool S W Q A E α) (i : Nat) (p : Program S Q A E α) : Pool S W Q A E α :=
  { P with store := (p.advance P.store).2, tasks := Function.update P.tasks i (some (p.advance P.store).1) }

/-- The world deals with the request of a task and answers it. -/
def act (P : Pool S W Q A E α) (h : Handler W Q A) (i : Nat) : Pool S W Q A E α :=
  match P.tasks i with
  | some (.asked q k) =>
      { P with world := (h P.world q).2
               tasks := Function.update P.tasks i (some (.answered q (h P.world q).1 k)) }
  | _ => P

/-- A task goes on with its answer. -/
def resume (P : Pool S W Q A E α) (i : Nat) : Pool S W Q A E α :=
  match P.tasks i with
  | some (.answered _ a k) => P.start i (k a)
  | _ => P

theorem act_asked {P : Pool S W Q A E α} {h : Handler W Q A} {i : Nat} {q : Q} {k : A q → Program S Q A E α}
    (ht : P.tasks i = some (.asked q k)) : P.act h i = { P with
      world := (h P.world q).2
      tasks := Function.update P.tasks i (some (.answered q (h P.world q).1 k)) } := by
  simp only [Pool.act, ht]

theorem act_tasks_self {P : Pool S W Q A E α} (h : Handler W Q A) {i : Nat} {q : Q} {k : A q → Program S Q A E α}
    (ht : P.tasks i = some (.asked q k)) : (P.act h i).tasks i = some (.answered q (h P.world q).1 k) := by
  rw [act_asked ht]
  exact Function.update_self ..

theorem act_not_asked {P : Pool S W Q A E α} {h : Handler W Q A} {i : Nat}
    (hno : ∀ q k, P.tasks i ≠ some (.asked q k)) : P.act h i = P := by
  unfold Pool.act
  split
  next q k ht => exact absurd ht (hno q k)
  next => rfl

theorem resume_answered {P : Pool S W Q A E α} {i : Nat} {q : Q} {a : A q} {k : A q → Program S Q A E α}
    (ht : P.tasks i = some (.answered q a k)) : P.resume i = P.start i (k a) := by
  simp only [Pool.resume, ht]

theorem resume_not_answered {P : Pool S W Q A E α} {i : Nat} (hno : ∀ q a k, P.tasks i ≠ some (.answered q a k)) :
    P.resume i = P := by
  unfold Pool.resume
  split
  next q a k ht => exact absurd ht (hno q a k)
  next => rfl

theorem start_tasks_self (P : Pool S W Q A E α) (i : Nat) (p : Program S Q A E α) :
    (P.start i p).tasks i = some (p.advance P.store).1 := Function.update_self ..

theorem start_tasks_of_ne (P : Pool S W Q A E α) {i j : Nat} (p : Program S Q A E α) (hj : j ≠ i) :
    (P.start i p).tasks j = P.tasks j := Function.update_of_ne hj ..

end Pool

/-- What a task may count on when it goes on, and what it has asked for. -/
def Task.Ok (π : Protocol S Q A O) (o : O) (s : S) : Task S Q A E α → Prop
  | .asked q k => π.asks o s q ∧ ∀ a s', π.told s' q a → π.inv s' → π.rely (π.spend o q) s s' →
      Under π (k a) (fun _ _ _ => True) (π.spend o q) s'
  | .answered q a k => ∀ s', π.told s' q a → π.inv s' → π.rely o s s' → Under π (k a) (fun _ _ _ => True) o s'
  | .done _ => True

/-- What a task that owns o has written since s. -/
abbrev Protocol.Wrote (π : Protocol S Q A O) (o : O) : S → S → Prop := Relation.ReflTransGen (π.guar o)

theorem advance_ok {π : Protocol S Q A O} {p : Program S Q A E α} {o : O} {s : S}
    (hp : Under π p (fun _ _ _ => True) o s) (hi : π.inv s) :
    π.inv (p.advance s).2 ∧ π.Wrote o s (p.advance s).2 ∧ (p.advance s).1.Ok π o (p.advance s).2 := by
  induction p generalizing s with
  | ret a | raise e => exact ⟨hi, .refl, trivial⟩
  | get k ih => exact ih s hp hi
  | put s' k ih =>
      obtain ⟨hinv, hwrote, hok⟩ := ih hp.2.2 hp.1
      exact ⟨hinv, .head hp.2.1 hwrote, hok⟩
  | call q k ih => exact ⟨hi, .refl, hp⟩

theorem advance_of_silent {π : Protocol S Q A O} {p : Program S Q A E α} {R : Except E α → O → S → Prop} {o : O} {s : S}
    (hsilent : ∀ o s q, ¬ π.asks o s q) (hp : Under π p R o s) : ∃ r s', p.advance s = (.done r, s') ∧ R r o s' := by
  induction p generalizing s with
  | ret a => exact ⟨.ok a, s, rfl, hp⟩
  | raise e => exact ⟨.error e, s, rfl, hp⟩
  | get k ih => exact ih s hp
  | put s' k ih => exact ih hp.2.2
  | call q k ih => exact absurd hp.1 (hsilent o s q)

/-- The terms of tasks whose possessions are kept apart: what one writes the
others may count on, and making a request brings nobody closer to another. -/
structure Protocol.Fair (π : Protocol S Q A O) (Apart : O → O → Prop) : Prop where
  symm : ∀ o o', Apart o o' → Apart o' o
  spend : ∀ o o' q, Apart o o' → Apart (π.spend o q) o'
  refl : ∀ o s, π.rely o s s
  trans : ∀ o s s' s'', π.rely o s s' → π.rely o s' s'' → π.rely o s s''
  guar : ∀ o o' s s', Apart o o' → π.guar o s s' → π.rely o' s s'
  asks : ∀ o s s' q, π.asks o s q → π.rely (π.spend o q) s s' → π.asks o s' q

namespace Protocol.Fair

variable {π : Protocol S Q A O} {Apart : O → O → Prop} (hf : π.Fair Apart)

include hf

theorem wrote {o o' : O} {s s' : S} (ho : Apart o o') (h : π.Wrote o s s') : π.rely o' s s' := by
  induction h with
  | refl => exact hf.refl _ _
  | tail _ hstep ih => exact hf.trans _ _ _ _ ih (hf.guar _ _ _ _ ho hstep)

theorem task_ok {o o' : O} {s s' : S} {t : Task S Q A E α} (ho : Apart o o') (h : π.Wrote o s s')
    (ht : t.Ok π o' s) : t.Ok π o' s' := by
  cases t with
  | done r => trivial
  | answered q a k =>
      exact fun s'' htold hi hr => ht s'' htold hi (hf.trans _ _ _ _ (hf.wrote ho h) hr)
  | asked q k =>
      have hr := hf.wrote (hf.symm _ _ (hf.spend _ _ q (hf.symm _ _ ho))) h
      exact ⟨hf.asks _ _ _ _ ht.1 hr, fun a s'' htold hi hr' => ht.2 a s'' htold hi (hf.trans _ _ _ _ hr hr')⟩

end Protocol.Fair

/-- Every task that has not ended owns something apart from what the others
own, and may count on the terms. -/
structure Pool.Sound (π : Protocol S Q A O) (Apart : O → O → Prop) (own : Nat → Option O)
    (P : Pool S W Q A E α) : Prop where
  inv : π.inv P.store
  tasks : ∀ i t, P.tasks i = some t → (∃ r, t = .done r) ∨ ∃ o, own i = some o ∧ t.Ok π o P.store
  apart : ∀ i j o o', i ≠ j → own i = some o → own j = some o' → Apart o o'

namespace Pool

variable {π : Protocol S Q A O} {Apart : O → O → Prop} {own : Nat → Option O} {P : Pool S W Q A E α} {i : Nat}
variable {o : O}

theorem Sound.task (hP : P.Sound π Apart own) {t : Task S Q A E α} (ht : P.tasks i = some t)
    (ho : own i = some o) : t.Ok π o P.store := by
  rcases hP.tasks i t ht with ⟨r, rfl⟩ | ⟨o', ho', hok⟩
  · trivial
  · cases ho.symm.trans ho'
    exact hok

theorem sound_idle (s : S) (w : W) (hs : π.inv s) :
    Sound π Apart (fun _ => none) (⟨s, w, fun _ => none⟩ : Pool S W Q A E α) :=
  ⟨hs, fun _ _ h => (by cases h), fun _ _ _ _ _ h => (by cases h)⟩

theorem update_eq_some {j : Nat} {x : Option O} (h : Function.update own i x j = some o) :
    j = i ∧ x = some o ∨ j ≠ i ∧ own j = some o := by
  by_cases hj : j = i
  · subst hj
    rw [Function.update_self] at h
    exact .inl ⟨rfl, h⟩
  · rw [Function.update_of_ne hj] at h
    exact .inr ⟨hj, h⟩

theorem apart_update (hP : P.Sound π Apart own) (hf : π.Fair Apart)
    (ho : ∀ j o', j ≠ i → own j = some o' → Apart o o') (j k : Nat) (o1 o2 : O) (hjk : j ≠ k)
    (h1 : Function.update own i (some o) j = some o1) (h2 : Function.update own i (some o) k = some o2) :
    Apart o1 o2 := by
  rcases update_eq_some h1 with ⟨hj, hx⟩ | ⟨hj, h1'⟩
  · cases hx
    rcases update_eq_some h2 with ⟨hk, -⟩ | ⟨hk, h2'⟩
    · exact absurd (hj.trans hk.symm) hjk
    · exact ho k o2 hk h2'
  · rcases update_eq_some h2 with ⟨-, hx⟩ | ⟨-, h2'⟩
    · cases hx
      exact hf.symm _ _ (ho j o1 hj h1')
    · exact hP.apart j k o1 o2 hjk h1' h2'

/-- A program is started in a pool, owning nothing that another task owns. -/
theorem Sound.start (hP : P.Sound π Apart own) (hf : π.Fair Apart) {p : Program S Q A E α}
    (ho : ∀ j o', j ≠ i → own j = some o' → Apart o o') (hp : Under π p (fun _ _ _ => True) o P.store) :
    (P.start i p).Sound π Apart (Function.update own i (some o)) ∧
      π.Wrote o P.store (P.start i p).store := by
  obtain ⟨hinv, hwrote, hok⟩ := advance_ok hp hP.inv
  refine ⟨⟨hinv, fun j t ht => ?_, apart_update hP hf ho⟩, hwrote⟩
  by_cases hj : j = i
  · subst hj
    simp only [Pool.start, Function.update_self, Option.some.injEq] at ht ⊢
    exact .inr ⟨o, rfl, ht ▸ hok⟩
  · simp only [Pool.start, Function.update_of_ne hj] at ht ⊢
    rcases hP.tasks j t ht with hdone | ⟨o', ho', hok'⟩
    · exact .inl hdone
    · exact .inr ⟨o', ho', hf.task_ok (ho j o' hj ho') hwrote hok'⟩

theorem Sound.act (hP : P.Sound π Apart own) (hf : π.Fair Apart) {h : Handler W Q A}
    {q : Q} {k : A q → Program S Q A E α} (ht : P.tasks i = some (.asked q k)) (ho : own i = some o) :
    (P.act h i).Sound π Apart (Function.update own i (some (π.spend o q))) := by
  rw [act_asked ht]
  refine ⟨hP.inv, fun j t hj => ?_, apart_update hP hf (fun j o' hj ho' => hf.spend _ _ q ?_)⟩
  · by_cases hji : j = i
    · subst hji
      simp only [Function.update_self, Option.some.injEq] at hj ⊢
      refine .inr ⟨_, rfl, hj ▸ fun s' htold hi hr => ?_⟩
      exact (hP.task ht ho).2 _ s' htold hi hr
    · simp only [Function.update_of_ne hji] at hj ⊢
      exact hP.tasks j t hj
  · exact hP.apart i j o o' hj.symm ho ho'

theorem Sound.resume (hP : P.Sound π Apart own) (hf : π.Fair Apart) (ho : own i = some o)
    (htold : ∀ q a k, P.tasks i = some (.answered q a k) → π.told P.store q a) :
    (P.resume i).Sound π Apart own ∧ π.Wrote o P.store (P.resume i).store := by
  unfold Pool.resume
  split
  next q a k ht =>
    have hown : Function.update own i (some o) = own := by rw [← ho, Function.update_eq_self]
    have h := hP.start hf (fun j o' hj ho' => hP.apart i j o o' hj.symm ho ho')
      (hP.task ht ho P.store (htold q a k ht) hP.inv (hf.refl _ _))
    rwa [hown] at h
  next => exact ⟨hP, .refl⟩

/-- There is nothing to go on with where nothing is owned. -/
theorem Sound.resume_none (hP : P.Sound π Apart own) (ho : own i = none) : P.resume i = P := by
  refine resume_not_answered (fun q a k ht => ?_)
  rcases hP.tasks i _ ht with ⟨r, hr⟩ | ⟨o, ho', -⟩
  · cases hr
  · cases ho.symm.trans ho'

@[simp] theorem resume_world (P : Pool S W Q A E α) (i : Nat) : (P.resume i).world = P.world := by
  unfold Pool.resume
  split <;> rfl

theorem Sound.forget (hP : P.Sound π Apart own) {r : Except E α} (ht : P.tasks i = some (.done r)) :
    P.Sound π Apart (Function.update own i none) := by
  refine ⟨hP.inv, fun j t hj => ?_, fun j k o1 o2 hjk h1 h2 => ?_⟩
  · by_cases hji : j = i
    · subst hji
      exact .inl ⟨r, Option.some.inj (hj.symm.trans ht)⟩
    · rw [Function.update_of_ne hji]
      exact hP.tasks j t hj
  · rcases update_eq_some h1 with ⟨-, hx⟩ | ⟨-, h1⟩
    · cases hx
    · rcases update_eq_some h2 with ⟨-, hx⟩ | ⟨-, h2⟩
      · cases hx
      · exact hP.apart j k o1 o2 hjk h1 h2

end Pool

theorem advance_ne_answered {p : Program S Q A E α} {s : S} {q : Q} {a : A q} {k : A q → Program S Q A E α} :
    (p.advance s).1 ≠ .answered q a k := by
  induction p generalizing s with
  | ret b | raise e => simp [Program.advance]
  | get k ih => exact ih s
  | put s' k ih => exact ih
  | call q k ih => simp [Program.advance]

theorem Pool.start_answered {P : Pool S W Q A E α} {p : Program S Q A E α} {i j : Nat} {q : Q} {a : A q}
    {k : A q → Program S Q A E α} (ht : (P.start i p).tasks j = some (.answered q a k)) :
    j ≠ i ∧ P.tasks j = some (.answered q a k) := by
  by_cases hj : j = i
  · subst hj
    simp only [Pool.start, Function.update_self, Option.some.injEq] at ht
    exact absurd ht advance_ne_answered
  · simp only [Pool.start, Function.update_of_ne hj] at ht
    exact ⟨hj, ht⟩

/-- What a task that has not ended owns, once the request that it has made is counted. -/
def Task.owns (spend : O → Q → O) (o : O) : Task S Q A E α → Option O
  | .asked q _ => some (spend o q)
  | .answered _ _ _ => some o
  | .done _ => none

/-- Terms that agree on the invariant, for tasks of several kinds. -/
structure Coherent {C : Type} (π : C → Protocol S Q A O) : Prop where
  inv : ∀ c c' s, (π c).inv s → (π c').inv s
  refl : ∀ c o s, (π c).rely o s s
  trans : ∀ c o s s' s'', (π c).rely o s s' → (π c).rely o s' s'' → (π c).rely o s s''
  asks : ∀ c o s s' q, (π c).asks o s q → (π c).asks o s' q

/-- Every task stands on the terms of its kind. -/
structure Pool.Standing {C : Type} (π : C → Protocol S Q A O) (kind : Nat → C) (own : Nat → O)
    (P : Pool S W Q A E α) : Prop where
  inv : ∀ c, (π c).inv P.store
  tasks : ∀ i t, P.tasks i = some t → t.Ok (π (kind i)) (own i) P.store

namespace Pool

variable {C : Type} {π : C → Protocol S Q A O} {kind : Nat → C} {own : Nat → O} {P : Pool S W Q A E α} {i : Nat}

/-- The tasks other than one may count on a change of the store. -/
def Endure (π : C → Protocol S Q A O) (kind : Nat → C) (own : Nat → O) (P : Pool S W Q A E α) (i : Nat) (s : S) :
    Prop :=
  ∀ j t o, j ≠ i → P.tasks j = some t → t.owns (π (kind j)).spend (own j) = some o → (π (kind j)).rely o P.store s

theorem ok_of_endured (hc : Coherent π) {c : C} {o : O} {s s' : S} {t : Task S Q A E α} (ht : t.Ok (π c) o s)
    (hrely : ∀ o', t.owns (π c).spend o = some o' → (π c).rely o' s s') : t.Ok (π c) o s' := by
  cases t with
  | done r => trivial
  | answered q a k => exact fun s'' htold hi hr => ht s'' htold hi (hc.trans _ _ _ _ _ (hrely _ rfl) hr)
  | asked q k =>
      exact ⟨hc.asks _ _ _ _ _ ht.1, fun a s'' htold hi hr => ht.2 a s'' htold hi (hc.trans _ _ _ _ _ (hrely _ rfl) hr)⟩

theorem Standing.start (hP : P.Standing π kind own) (hc : Coherent π) {p : Program S Q A E α}
    (hp : Under (π (kind i)) p (fun _ _ _ => True) (own i) P.store)
    (hothers : (π (kind i)).Wrote (own i) P.store (P.start i p).store → Endure π kind own P i (P.start i p).store) :
    (P.start i p).Standing π kind own := by
  obtain ⟨hinv, hwrote, hok⟩ := advance_ok hp (hP.inv _)
  refine ⟨fun c => hc.inv _ c _ hinv, fun j t ht => ?_⟩
  by_cases hj : j = i
  · subst hj
    simp only [Pool.start, Function.update_self, Option.some.injEq] at ht
    exact ht ▸ hok
  · simp only [Pool.start, Function.update_of_ne hj] at ht
    exact ok_of_endured hc (hP.tasks j t ht) (fun o ho => hothers hwrote j t o hj ht ho)

/-- A program that ends at once may write what the others can stand. -/
theorem Standing.start_done (hP : P.Standing π kind own) (hc : Coherent π) {p : Program S Q A E α} {r : Except E α}
    {s : S} (hdone : p.advance P.store = (.done r, s)) (hinv : ∀ c, (π c).inv s) (hothers : P.Endure π kind own i s) :
    (P.start i p).Standing π kind own := by
  have hstart : P.start i p = { P with store := s, tasks := Function.update P.tasks i (some (.done r)) } := by
    rw [Pool.start, hdone]
  rw [hstart]
  refine ⟨hinv, fun j t ht => ?_⟩
  by_cases hj : j = i
  · subst hj
    simp only [Function.update_self, Option.some.injEq] at ht
    exact ht ▸ trivial
  · simp only [Function.update_of_ne hj] at ht
    exact ok_of_endured hc (hP.tasks j t ht) (fun o ho => hothers j t o hj ht ho)

theorem Standing.act (hP : P.Standing π kind own) {h : Handler W Q A} {q : Q} {k : A q → Program S Q A E α}
    (ht : P.tasks i = some (.asked q k)) :
    (P.act h i).Standing π kind (Function.update own i ((π (kind i)).spend (own i) q)) := by
  rw [act_asked ht]
  refine ⟨hP.inv, fun j t hj => ?_⟩
  by_cases hji : j = i
  · subst hji
    simp only [Function.update_self, Option.some.injEq] at hj ⊢
    exact hj ▸ (hP.tasks j _ ht).2 _
  · simp only [Function.update_of_ne hji] at hj ⊢
    exact hP.tasks j t hj

theorem Standing.resume (hP : P.Standing π kind own) (hc : Coherent π)
    (htold : ∀ q a k, P.tasks i = some (.answered q a k) → (π (kind i)).told P.store q a)
    (hothers : (π (kind i)).Wrote (own i) P.store (P.resume i).store → Endure π kind own P i (P.resume i).store) :
    (P.resume i).Standing π kind own := by
  unfold Pool.resume at hothers ⊢
  split
  next q a k ht =>
    simp only [ht] at hothers
    exact hP.start hc (hP.tasks i _ ht P.store (htold q a k ht) (hP.inv _) (hc.refl _ _ _)) hothers
  next => exact hP

theorem Standing.disturb (hP : P.Standing π kind own) (hc : Coherent π) {s : S} (hinv : ∀ c, (π c).inv s)
    (hrely : ∀ j t o, P.tasks j = some t → t.owns (π (kind j)).spend (own j) = some o → (π (kind j)).rely o P.store s) :
    ({ P with store := s } : Pool S W Q A E α).Standing π kind own :=
  ⟨hinv, fun j t ht => ok_of_endured hc (hP.tasks j t ht) (fun o ho => hrely j t o ht ho)⟩

end Pool

end Utos.Coroutine
