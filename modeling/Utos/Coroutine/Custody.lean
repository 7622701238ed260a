import Mathlib.Data.Finsupp.Multiset
import Mathlib.Data.Multiset.AddSub
import Utos.Coroutine.Pool

namespace Utos.Coroutine

open Program

variable {S W Q I ρ : Type} {A : Q → Type} {E α β : Type}

/-- No task has anything to do. -/
def Pool.Quiescent (P : Pool S W Q A E α) : Prop := ∀ i t, P.tasks i = some t → ∃ r, t = .done r

theorem Pool.tasks_answer_of_ne {P : Pool S W Q A E α} {h : Handler W Q A} {i j : Nat} (hj : j ≠ i) :
    ((P.act h i).resume i).tasks j = P.tasks j := by
  have hact : (P.act h i).tasks j = P.tasks j := by
    unfold Pool.act
    split
    · exact Function.update_of_ne hj _ _
    · rfl
  refine Eq.trans ?_ hact
  unfold Pool.resume
  split
  · exact Function.update_of_ne hj _ _
  · rfl

theorem Pool.answer_idle {P : Pool S W Q A E α} (h : Handler W Q A) {i : Nat}
    (hidle : ∀ t, P.tasks i = some t → ∃ r, t = .done r) : (P.act h i).resume i = P := by
  cases htask : P.tasks i with
  | none => simp only [Pool.act, Pool.resume, htask]
  | some t =>
      obtain ⟨r, rfl⟩ := hidle t htask
      simp only [Pool.act, Pool.resume, htask]

/-- Deal with the items one after the other. -/
def settleAll (settle : I → Program S Q A E ρ) : List I → List ρ → Program S Q A E (List ρ)
  | [], results => .ret results
  | x :: xs, results => .bind (settle x) (fun r => settleAll settle xs (results ++ [r]))

/-- Take what a queue holds, and deal with it. -/
def drain (queue : S → List I) (clear : S → S) (settle : I → Program S Q A E ρ) : Program S Q A E (List ρ) :=
  .get (fun s => .put (clear s) (settleAll settle (queue s) []))

theorem advance_bind_done {p : Program S Q A E α} {f : α → Program S Q A E β} {s s' : S} {a : α}
    (h : p.advance s = (.done (.ok a), s')) : (p.bind f).advance s = (f a).advance s' := by
  induction p generalizing s with
  | ret b =>
      cases h
      rfl
  | raise e => cases h
  | get k ih => exact ih s h
  | put t k ih => exact ih h
  | call q k ih => cases h

theorem advance_bind_asked {p : Program S Q A E α} {f : α → Program S Q A E β} {s s' : S} {q : Q}
    {k : A q → Program S Q A E α} (h : p.advance s = (.asked q k, s')) :
    (p.bind f).advance s = (.asked q (fun a => (k a).bind f), s') := by
  induction p generalizing s with
  | ret b => cases h
  | raise e => cases h
  | get k' ih => exact ih s h
  | put t k' ih => exact ih h
  | call q' k' ih =>
      cases h
      rfl

/-- The requests that are made for an item, and how it goes on after each. -/
abbrev Carry (S Q : Type) (A : Q → Type) (E I ρ : Type) := I → (q : Q) → (A q → Program S Q A E ρ) → Prop

/-- An invariant of the store and the world that knows which items are in flight: taken from
the queue, and not dealt with yet. -/
abbrev Invariant (I W S : Type) := Multiset I → W → S → Prop

variable {settle : I → Program S Q A E ρ} {carry : Carry S Q A E I ρ} {inv : Invariant I W S} {h : Handler W Q A}

/-- Up to its next request a program keeps the item in flight, or it deals with it. -/
def Carries (carry : Carry S Q A E I ρ) (inv : Invariant I W S) (x : I) (F : Multiset I) (w : W)
    (p : Program S Q A E ρ) (s : S) : Prop :=
  (∃ q k s', p.advance s = (.asked q k, s') ∧ carry x q k ∧ inv (x ::ₘ F) w s') ∨
    ∃ r s', p.advance s = (.done (.ok r), s') ∧ inv F w s'

/-- Whatever is in flight besides, each item is dealt with under the invariant. -/
structure Settles (settle : I → Program S Q A E ρ) (carry : Carry S Q A E I ρ) (inv : Invariant I W S)
    (Answers : Handler W Q A → Prop) : Prop where
  begins : ∀ x F w s, inv (x ::ₘ F) w s → Carries carry inv x F w (settle x) s
  goesOn : ∀ x q k F w s h, Answers h → carry x q k → inv (x ::ₘ F) w s → Carries carry inv x F (h w q).2 (k (h w q).1) s

/-- A task that has the items in its hands. -/
inductive Holds (settle : I → Program S Q A E ρ) (carry : Carry S Q A E I ρ) :
    Option (Task S Q A E (List ρ)) → Multiset I → Prop
  | idle : Holds settle carry none 0
  | asked (x : I) (q : Q) (k : A q → Program S Q A E ρ) (hcarry : carry x q k) (rest : List I) (results : List ρ) :
      Holds settle carry (some (.asked q (fun a => (k a).bind (fun r => settleAll settle rest (results ++ [r])))))
        (x ::ₘ (rest : Multiset I))
  | ended (r : Except E (List ρ)) : Holds settle carry (some (.done r)) 0

theorem Holds.of_none {held : Multiset I} (hholds : Holds settle carry none held) : held = 0 := by
  generalize htask : (none : Option (Task S Q A E (List ρ))) = task at hholds
  cases hholds with
  | idle => rfl
  | asked => cases htask
  | ended => rfl

theorem Holds.of_done {r : Except E (List ρ)} {held : Multiset I} (hholds : Holds settle carry (some (.done r)) held) :
    held = 0 := by
  generalize htask : some (Task.done r) = task at hholds
  cases hholds with
  | idle => rfl
  | asked => cases htask
  | ended => rfl

/-- A task that waits for the answer to a request has the item in its hands for which it made it. -/
theorem Holds.of_asked {q : Q} {k : A q → Program S Q A E (List ρ)} {held : Multiset I}
    (hholds : Holds settle carry (some (.asked q k)) held) : ∃ x k', carry x q k' ∧ x ∈ held := by
  generalize htask : some (Task.asked q k) = task at hholds
  cases hholds with
  | idle => cases htask
  | asked x q' k' hcarry rest results =>
      cases htask
      exact ⟨x, k', hcarry, Multiset.mem_cons_self x _⟩
  | ended => cases htask

/-- A pass goes on to its next request with the items that are left. -/
theorem settleAll_holds {Answers : Handler W Q A → Prop} (hsettle : Settles settle carry inv Answers) (xs : List I)
    (results : List ρ) {F : Multiset I} {w : W} {s : S} (hinv : inv ((xs : Multiset I) + F) w s) :
    ∃ t s' held, (settleAll settle xs results).advance s = (t, s') ∧ Holds settle carry (some t) held ∧
      inv (held + F) w s' := by
  induction xs generalizing s results with
  | nil => exact ⟨_, s, 0, rfl, .ended _, hinv⟩
  | cons x xs ih =>
      rw [← Multiset.cons_coe, Multiset.cons_add] at hinv
      rcases hsettle.begins x _ w s hinv with ⟨q, k, s', hasked, hcarry, hinv'⟩ | ⟨r, s', hdone, hinv'⟩
      · exact ⟨_, s', _, advance_bind_asked hasked, .asked x q k hcarry xs results, by rwa [Multiset.cons_add]⟩
      · rw [settleAll, advance_bind_done hdone]
        exact ih _ hinv'

/-- The items of a log that is kept only where it is wanted. -/
theorem coe_concat_ite {b : Bool} {log : List (I × α)} {D : Multiset I} (x : I) (a : α)
    (h : (log.map Prod.fst : Multiset I) = if b then D else 0) :
    ((if b then log ++ [(x, a)] else log).map Prod.fst : Multiset I) = if b then x ::ₘ D else 0 := by
  cases b with
  | false => exact h
  | true =>
      rw [if_pos rfl] at h ⊢
      rw [if_pos rfl, List.map_append, ← Multiset.coe_add, h, add_comm]
      rfl

/-- What is in flight is what the tasks hold. -/
structure Custody (settle : I → Program S Q A E ρ) (carry : Carry S Q A E I ρ) (inv : Invariant I W S)
    (own : Nat →₀ Multiset I) (P : Pool S W Q A E (List ρ)) : Prop where
  inv : inv (own.sum (fun _ held => held)) P.world P.store
  holds : ∀ i, Holds settle carry (P.tasks i) (own i)

namespace Custody

variable {own : Nat →₀ Multiset I} {P : Pool S W Q A E (List ρ)} {i : Nat}

theorem sum_update (own : Nat →₀ Multiset I) (i : Nat) (held : Multiset I) :
    (own.update i held).sum (fun _ held => held) + own i = own.sum (fun _ held => held) + held :=
  Finsupp.sum_update_add own i held (fun _ held => held) (fun _ => rfl) (fun _ _ _ => rfl)

/-- What the others hold while a task goes on. -/
theorem sum_others (own : Nat →₀ Multiset I) (i : Nat) : ∃ F : Multiset I, own.sum (fun _ held => held) = own i + F ∧
    ∀ held, (own.update i held).sum (fun _ held => held) = held + F := by
  have hzero := sum_update own i 0
  rw [add_zero] at hzero
  refine ⟨(own.update i 0).sum (fun _ held => held), by rw [← hzero, add_comm], fun held => ?_⟩
  have hheld := sum_update own i held
  rw [← hzero, add_right_comm] at hheld
  rw [add_right_cancel hheld, add_comm]

theorem sum_two (own : Nat →₀ Multiset I) {i j : Nat} (hij : i ≠ j) :
    ∃ F : Multiset I, own.sum (fun _ held => held) = own i + (own j + F) := by
  obtain ⟨F, hF, hupdate⟩ := sum_others own i
  obtain ⟨F', hF', -⟩ := sum_others (own.update i 0) j
  have hj : own.update i 0 j = own j := by rw [Finsupp.coe_update, Function.update_of_ne hij.symm]
  rw [hupdate 0, zero_add, hj] at hF'
  exact ⟨F', by rw [hF, hF']⟩

theorem put (hP : Custody settle carry inv own P) {t : Task S Q A E (List ρ)} {s : S} {w : W} {held F : Multiset I}
    (hupdate : ∀ held, (own.update i held).sum (fun _ held => held) = held + F) (hholds : Holds settle carry (some t) held)
    (hinv : inv (held + F) w s) :
    Custody settle carry inv (own.update i held) ⟨s, w, Function.update P.tasks i (some t)⟩ := by
  refine ⟨hupdate held ▸ hinv, fun j => ?_⟩
  rw [Finsupp.coe_update]
  by_cases hj : j = i
  · subst hj
    simpa only [Function.update_self] using hholds
  · simpa only [Function.update_of_ne hj] using hP.holds j

theorem start {Answers : Handler W Q A → Prop} (hP : Custody settle carry inv own P)
    (hsettle : Settles settle carry inv Answers) (hfresh : P.tasks i = none) {queue : S → List I} {clear : S → S}
    (htake : ∀ F, inv F P.world P.store → inv ((queue P.store : Multiset I) + F) P.world (clear P.store)) :
    ∃ own', Custody settle carry inv own' (P.start i (drain queue clear settle)) := by
  obtain ⟨F, hF, hupdate⟩ := sum_others own i
  have hnone : own i = 0 := (hfresh ▸ hP.holds i).of_none
  rw [hnone, zero_add] at hF
  obtain ⟨t, s', held, hadvance, hholds, hinv⟩ := settleAll_holds hsettle (queue P.store) [] (htake F (hF ▸ hP.inv))
  have hdrain : (drain queue clear settle).advance P.store = (t, s') := hadvance
  rw [Pool.start, hdrain]
  exact ⟨_, hP.put hupdate hholds hinv⟩

theorem answer {Answers : Handler W Q A → Prop} (hP : Custody settle carry inv own P)
    (hsettle : Settles settle carry inv Answers) (hh : Answers h) :
    ∃ own', Custody settle carry inv own' ((P.act h i).resume i) := by
  cases htask : P.tasks i with
  | none =>
      rw [Pool.answer_idle h (fun t ht => by cases htask.symm.trans ht)]
      exact ⟨own, hP⟩
  | some t =>
      have hholds := hP.holds i
      obtain ⟨F, hF, hupdate⟩ := sum_others own i
      rw [htask] at hholds
      generalize hheld : own i = held at hholds
      cases hholds with
      | ended r =>
          rw [Pool.answer_idle h (fun t ht => ⟨r, Option.some.inj (ht.symm.trans htask)⟩)]
          exact ⟨own, hP⟩
      | asked x q k hcarry rest results =>
          have hinv := hP.inv
          rw [hF, hheld, Multiset.cons_add] at hinv
          simp only [Pool.act, htask, Pool.resume, Function.update_self, Pool.start, Function.update_idem]
          rcases hsettle.goesOn x q k _ P.world P.store h hh hcarry hinv with
            ⟨q', k', s', hasked, hcarry', hinv'⟩ | ⟨r, s', hdone, hinv'⟩
          · rw [advance_bind_asked hasked]
            exact ⟨_, hP.put hupdate (.asked x q' k' hcarry' rest results) (by rwa [Multiset.cons_add])⟩
          · rw [advance_bind_done hdone]
            obtain ⟨t', s'', held', hadvance, hholds', hinv''⟩ := settleAll_holds hsettle rest (results ++ [r]) hinv'
            rw [hadvance]
            exact ⟨_, hP.put hupdate hholds' hinv''⟩

theorem store (hP : Custody settle carry inv own P) {s : S} {w : W} (hinv : ∀ F, inv F P.world P.store → inv F w s) :
    Custody settle carry inv own { P with store := s, world := w } :=
  ⟨hinv _ hP.inv, hP.holds⟩

/-- Where no task has anything to do, nothing is in flight. -/
theorem quiet (hP : Custody settle carry inv own P) (hquiet : P.Quiescent) :
    inv 0 P.world P.store := by
  have hown : own = 0 := by
    ext1 i
    cases htask : P.tasks i with
    | none => exact (htask ▸ hP.holds i).of_none
    | some t =>
        obtain ⟨r, rfl⟩ := hquiet i t htask
        exact (htask ▸ hP.holds i).of_done
  have hinv := hP.inv
  rwa [hown, Finsupp.sum_zero_index] at hinv

end Custody

end Utos.Coroutine
