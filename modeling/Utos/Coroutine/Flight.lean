import Mathlib.Algebra.BigOperators.Finsupp.Basic
import Utos.Coroutine.Custody

namespace Utos.Coroutine

open Program

variable {S Q W M I : Type} {A : Q → Type} {E α β γ ρ : Type}

/-- What tasks that take turns keep in flight: what a task may hold while it waits for the answer to
a request, what holds between two turns with all that is held, how the world may answer, and with what
a task may end. -/
structure Flight (S W Q : Type) (A : Q → Type) (M E α : Type) where
  holds : Q → M → Prop
  inv : M → W → S → Prop
  answers : Handler W Q A → Prop
  ends : Except E α → Prop := fun _ => True

/-- What a task holds: something while it waits for an answer, and nothing before and after. -/
def Task.Holds [Zero M] (holds : Q → M → Prop) : Option (Task S Q A E α) → M → Prop
  | some (.asked q _), m => holds q m
  | _, m => m = 0

/-- All that the tasks of a pool hold. -/
def Pool.InFlight [AddCommMonoid M] (holds : Q → M → Prop) (P : Pool S W Q A E α) (m : M) : Prop :=
  ∃ own : Nat →₀ M, (∀ i, Task.Holds holds (P.tasks i) (own i)) ∧ own.sum (fun _ held => held) = m

namespace Program

variable [AddCommMonoid M] {φ : Flight S W Q A M E γ} {R R' : Except E α → M → W → S → Prop} {F : M} {w : W} {s : S}

/-- The weakest precondition of a program that takes turns with others, which hold F: at each of its
requests it holds something with which the invariant stands, and goes on without it. -/
def Lands (φ : Flight S W Q A M E γ) : Program S Q A E α → (Except E α → M → W → S → Prop) → M → W → S → Prop
  | .ret a, R, F, w, s => R (.ok a) F w s
  | .raise e, R, F, w, s => R (.error e) F w s
  | .get k, R, F, w, s => Lands φ (k s) R F w s
  | .put s' k, R, F, w, _ => Lands φ k R F w s'
  | .call q k, R, F, w, s => ∃ m, φ.holds q m ∧ φ.inv (m + F) w s ∧ ∀ h, φ.answers h → ∀ F' w' s', φ.inv (m + F') w' s' →
      Lands φ (k (h w' q).1) R F' (h w' q).2 s'

theorem lands_mono {p : Program S Q A E α} (hp : Lands φ p R F w s) (hR : ∀ r F w s, R r F w s → R' r F w s) :
    Lands φ p R' F w s := by
  induction p generalizing F w s with
  | ret a | raise e => exact hR _ _ _ _ hp
  | get k ih => exact ih _ hp
  | put s' k ih => exact ih hp
  | call q k ih =>
      obtain ⟨m, hm, hinv, hgo⟩ := hp
      exact ⟨m, hm, hinv, fun h hh F' w' s' hinv' => ih _ (hgo h hh F' w' s' hinv')⟩

/-- What the rest of a program has to achieve after its first part. -/
def thenLands (φ : Flight S W Q A M E γ) (f : α → Program S Q A E β) (R : Except E β → M → W → S → Prop) :
    Except E α → M → W → S → Prop
  | .ok a, F, w, s => Lands φ (f a) R F w s
  | .error e, F, w, s => R (.error e) F w s

theorem lands_bind {p : Program S Q A E α} {f : α → Program S Q A E β} {R : Except E β → M → W → S → Prop}
    (hp : Lands φ p (thenLands φ f R) F w s) : Lands φ (bind p f) R F w s := by
  induction p generalizing F w s with
  | ret a | raise e => exact hp
  | get k ih => exact ih _ hp
  | put s' k ih => exact ih hp
  | call q k ih =>
      obtain ⟨m, hm, hinv, hgo⟩ := hp
      exact ⟨m, hm, hinv, fun h hh F' w' s' hinv' => ih _ (hgo h hh F' w' s' hinv')⟩

/-- What remains to be done when the body of a handler has ended. -/
def catchLands (φ : Flight S W Q A M E γ) (f : E → Program S Q A E α) (R : Except E α → M → W → S → Prop) :
    Except E α → M → W → S → Prop
  | .ok a, F, w, s => R (.ok a) F w s
  | .error e, F, w, s => Lands φ (f e) R F w s

theorem lands_tryCatch {p : Program S Q A E α} {f : E → Program S Q A E α} {R : Except E α → M → W → S → Prop}
    (hp : Lands φ p (catchLands φ f R) F w s) : Lands φ (tryCatch p f) R F w s := by
  induction p generalizing F w s with
  | ret a | raise e => exact hp
  | get k ih => exact ih _ hp
  | put s' k ih => exact ih hp
  | call q k ih =>
      obtain ⟨m, hm, hinv, hgo⟩ := hp
      exact ⟨m, hm, hinv, fun h hh F' w' s' hinv' => ih _ (hgo h hh F' w' s' hinv')⟩

/-- A program that keeps the invariant from wherever it starts, and holds nothing in the end. -/
def Balances (φ : Flight S W Q A M E γ) (p : Program S Q A E α) : Prop :=
  ∀ F w s, φ.inv F w s → Lands φ p (fun _ => φ.inv) F w s

theorem balances_ret (a : α) : Balances φ (.ret a : Program S Q A E α) := fun _ _ _ hinv => hinv

/-- What comes after a program keeps the invariant from wherever the program ends. -/
theorem lands_then {p : Program S Q A E α} {f : α → Program S Q A E β} (hp : Lands φ p (fun _ => φ.inv) F w s)
    (hf : ∀ a, Balances φ (f a)) : Lands φ (bind p f) (fun _ => φ.inv) F w s := by
  refine lands_bind (lands_mono hp ?_)
  rintro (e | a) F' w' s' hinv'
  · exact hinv'
  · exact hf a F' w' s' hinv'

theorem balances_bind {p : Program S Q A E α} {f : α → Program S Q A E β} (hp : Balances φ p)
    (hf : ∀ a, Balances φ (f a)) : Balances φ (bind p f) := fun F w s hinv => lands_then (hp F w s hinv) hf

theorem balances_forEach {xs : List β} {f : β → Program S Q A E Unit} (hf : ∀ x ∈ xs, Balances φ (f x)) :
    Balances φ (forEach xs f) := by
  induction xs with
  | nil => exact balances_ret ()
  | cons x xs ih =>
      exact balances_bind (hf x List.mem_cons_self) (fun _ => ih (fun y hy => hf y (List.mem_cons_of_mem x hy)))

theorem balances_settleAll {settle : I → Program S Q A E ρ} (hsettle : ∀ x, Balances φ (settle x)) (xs : List I)
    (results : List ρ) : Balances φ (settleAll settle xs results) := by
  induction xs generalizing results with
  | nil => exact balances_ret results
  | cons x xs ih => exact balances_bind (hsettle x) (fun r => ih _)

end Program

variable [AddCancelCommMonoid M] {φ : Flight S W Q A M E α} {F : M} {w : W} {s : S}

/-- What holds when a task has ended. -/
def Flight.Ended (φ : Flight S W Q A M E α) (r : Except E α) (F : M) (w : W) (s : S) : Prop := φ.ends r ∧ φ.inv F w s

/-- How a task goes on when its answer comes, from holding m. -/
def Task.Lands (φ : Flight S W Q A M E α) : Option (Task S Q A E α) → M → Prop
  | some (.asked q k), m => φ.holds q m ∧ ∀ h, φ.answers h → ∀ F w s, φ.inv (m + F) w s →
      Program.Lands φ (k (h w q).1) φ.Ended F (h w q).2 s
  | some (.answered _ _ _), _ => False
  | some (.done r), m => φ.ends r ∧ m = 0
  | none, m => m = 0

theorem advance_lands {p : Program S Q A E α} (hp : Program.Lands φ p φ.Ended F w s) :
    ∃ m, φ.inv (m + F) w (p.advance s).2 ∧ Task.Lands φ (some (p.advance s).1) m := by
  induction p generalizing s with
  | ret a | raise e => exact ⟨0, (zero_add F).symm ▸ hp.2, hp.1, rfl⟩
  | get k ih => exact ih s hp
  | put s' k ih => exact ih hp
  | call q k ih =>
      obtain ⟨m, hm, hinv, hgo⟩ := hp
      exact ⟨m, hinv, hm, hgo⟩

/-- The invariant stands with what the tasks hold, and each can go on. -/
structure Balanced (φ : Flight S W Q A M E α) (own : Nat →₀ M) (P : Pool S W Q A E α) : Prop where
  inv : φ.inv (own.sum (fun _ held => held)) P.world P.store
  lands : ∀ i, Task.Lands φ (P.tasks i) (own i)

namespace Balanced

variable {own : Nat →₀ M} {P : Pool S W Q A E α} {i : Nat} {h : Handler W Q A}

theorem sum_others (own : Nat →₀ M) (i : Nat) : ∃ F : M, own.sum (fun _ held => held) = own i + F ∧
    ∀ held, (own.update i held).sum (fun _ held => held) = held + F := by
  have hupdate : ∀ held, (own.update i held).sum (fun _ held => held) + own i = own.sum (fun _ held => held) + held :=
    fun held => Finsupp.sum_update_add own i held (fun _ held => held) (fun _ => rfl) (fun _ _ _ => rfl)
  have hzero := hupdate 0
  rw [add_zero] at hzero
  refine ⟨(own.update i 0).sum (fun _ held => held), by rw [← hzero, add_comm], fun held => ?_⟩
  have hheld := hupdate held
  rw [← hzero, add_right_comm] at hheld
  rw [add_right_cancel hheld, add_comm]

theorem put (hP : Balanced φ own P) {t : Task S Q A E α} {s : S} {w : W} {m F : M}
    (hupdate : ∀ held, (own.update i held).sum (fun _ held => held) = held + F) (hinv : φ.inv (m + F) w s)
    (ht : Task.Lands φ (some t) m) : Balanced φ (own.update i m) ⟨s, w, Function.update P.tasks i (some t)⟩ := by
  refine ⟨hupdate _ ▸ hinv, fun j => ?_⟩
  rw [Finsupp.coe_update]
  by_cases hj : j = i
  · subst hj
    simpa only [Function.update_self] using ht
  · simpa only [Function.update_of_ne hj] using hP.lands j

/-- A program that starts with what the tasks hold just now. -/
theorem start_here (hP : Balanced φ own P) (hfresh : P.tasks i = none) {p : Program S Q A E α} {w : W}
    (hp : Program.Lands φ p φ.Ended (own.sum (fun _ held => held)) w P.store) :
    ∃ own', Balanced φ own' ({ P with world := w }.start i p) := by
  obtain ⟨F, hF, hupdate⟩ := sum_others own i
  have hnone : own i = 0 := by
    have hlands := hP.lands i
    rwa [hfresh] at hlands
  rw [hnone, zero_add] at hF
  obtain ⟨m, hinv, hlands⟩ := advance_lands (hF ▸ hp)
  exact ⟨_, hP.put hupdate hinv hlands⟩

theorem start (hP : Balanced φ own P) (hfresh : P.tasks i = none) {p : Program S Q A E α} {w : W}
    (hp : ∀ F, φ.inv F P.world P.store → Program.Lands φ p φ.Ended F w P.store) :
    ∃ own', Balanced φ own' ({ P with world := w }.start i p) := hP.start_here hfresh (hp _ hP.inv)

/-- A program that keeps the invariant, in a flight that asks no more of its end. -/
theorem start_balances (hP : Balanced φ own P) (hfresh : P.tasks i = none) (hends : ∀ r, φ.ends r)
    {p : Program S Q A E α} (hp : Balances φ p) : ∃ own', Balanced φ own' (P.start i p) :=
  hP.start hfresh (fun F hinv => lands_mono (hp F _ _ hinv) (fun r _ _ _ h => ⟨hends r, h⟩))

theorem answer (hP : Balanced φ own P) (hh : φ.answers h) : ∃ own', Balanced φ own' ((P.act h i).resume i) := by
  have hlands := hP.lands i
  cases htask : P.tasks i with
  | none =>
      rw [Pool.answer_idle h (fun t ht => by cases htask.symm.trans ht)]
      exact ⟨own, hP⟩
  | some t =>
      rw [htask] at hlands
      cases t with
      | done r =>
          rw [Pool.answer_idle h (fun t ht => ⟨r, Option.some.inj (ht.symm.trans htask)⟩)]
          exact ⟨own, hP⟩
      | answered q a k => exact hlands.elim
      | asked q k =>
          obtain ⟨F, hF, hupdate⟩ := sum_others own i
          obtain ⟨m, hinv, hlands'⟩ := advance_lands (hlands.2 h hh F P.world P.store (hF ▸ hP.inv))
          simp only [Pool.act, htask, Pool.resume, Function.update_self, Pool.start, Function.update_idem]
          exact ⟨_, hP.put hupdate hinv hlands'⟩

/-- The world moves only as it answers what a task may ask. -/
theorem act_world (hP : Balanced φ own P) :
    (P.act h i).world = P.world ∨ ∃ q m, φ.holds q m ∧ (P.act h i).world = (h P.world q).2 := by
  have hlands := hP.lands i
  unfold Pool.act
  split
  next q k htask =>
    rw [htask] at hlands
    exact .inr ⟨q, own i, hlands.1, rfl⟩
  next => exact .inl rfl

theorem store (hP : Balanced φ own P) {s : S} {w : W} (hinv : ∀ F, φ.inv F P.world P.store → φ.inv F w s) :
    Balanced φ own { P with store := s, world := w } := ⟨hinv _ hP.inv, hP.lands⟩

theorem idle (hinv : φ.inv 0 w s) : Balanced φ 0 (⟨s, w, fun _ => none⟩ : Pool S W Q A E α) :=
  ⟨by rwa [Finsupp.sum_zero_index], fun _ => rfl⟩

theorem holds (hP : Balanced φ own P) (i : Nat) : Task.Holds φ.holds (P.tasks i) (own i) := by
  have hlands := hP.lands i
  cases htask : P.tasks i with
  | none => rwa [htask] at hlands
  | some t =>
      rw [htask] at hlands
      cases t with
      | asked q k => exact hlands.1
      | answered q a k => exact hlands.elim
      | done r => exact hlands.2

/-- A task that has ended has ended as it may. -/
theorem ended (hP : Balanced φ own P) {r : Except E α} (htask : P.tasks i = some (.done r)) : φ.ends r := by
  have hlands := hP.lands i
  rw [htask] at hlands
  exact hlands.1

theorem inFlight (hP : Balanced φ own P) : ∃ m, P.InFlight φ.holds m ∧ φ.inv m P.world P.store :=
  ⟨_, ⟨own, hP.holds, rfl⟩, hP.inv⟩

end Balanced

/-- Where no task has anything to do, nothing is in flight. -/
theorem Pool.InFlight.quiet {holds : Q → M → Prop} {P : Pool S W Q A E α} {m : M} (hm : P.InFlight holds m)
    (hquiet : P.Quiescent) : m = 0 := by
  obtain ⟨own, hown, rfl⟩ := hm
  have hzero : own = 0 := by
    ext1 i
    have hholds := hown i
    cases htask : P.tasks i with
    | none => rwa [htask] at hholds
    | some t =>
        obtain ⟨r, rfl⟩ := hquiet i t htask
        rwa [htask] at hholds
  rw [hzero, Finsupp.sum_zero_index]

end Utos.Coroutine
