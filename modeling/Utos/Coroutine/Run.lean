import Utos.Coroutine.Program

namespace Utos.Coroutine

/-- How the outside world answers a request and what becomes of it. Requests
whose answer is not determined are modelled by a world that carries the choices. -/
abbrev Handler (W Q : Type) (A : Q → Type) := W → (q : Q) → A q × W

namespace Program

variable {S T Q W V : Type} {A : Q → Type} {E α β : Type}

/-- Run a program alone, every request being answered before anything else happens. -/
def run (h : Handler W Q A) : Program S Q A E α → S → W → Except E α × S × W
  | .ret a, s, w => (.ok a, s, w)
  | .raise e, s, w => (.error e, s, w)
  | .get k, s, w => run h (k s) s w
  | .put s' k, _, w => run h k s' w
  | .call q k, s, w => run h (k (h w q).1) s (h w q).2

/-- The requests of a run, each with the state in which it is made. -/
def asked (h : Handler W Q A) : Program S Q A E α → S → W → List (S × Q)
  | .ret _, _, _ => []
  | .raise _, _, _ => []
  | .get k, s, w => asked h (k s) s w
  | .put s' k, _, w => asked h k s' w
  | .call q k, s, w => (s, q) :: asked h (k (h w q).1) s (h w q).2

/-- The weakest precondition of a run, for results and exceptions alike. -/
def wp (h : Handler W Q A) (p : Program S Q A E α) (R : Except E α → S → W → Prop) (s : S) (w : W) :
    Prop :=
  R (run h p s w).1 (run h p s w).2.1 (run h p s w).2.2

variable {h : Handler W Q A} {R R' : Except E α → S → W → Prop} {s : S} {w : W}

@[simp] theorem wp_ret (a : α) : wp h (.ret a) R s w ↔ R (.ok a) s w := Iff.rfl

@[simp] theorem wp_raise (e : E) : wp h (.raise e) R s w ↔ R (.error e) s w := Iff.rfl

@[simp] theorem wp_get (k : S → Program S Q A E α) : wp h (.get k) R s w ↔ wp h (k s) R s w := Iff.rfl

@[simp] theorem wp_put (s' : S) (k : Program S Q A E α) : wp h (.put s' k) R s w ↔ wp h k R s' w := Iff.rfl

@[simp] theorem wp_call (q : Q) (k : A q → Program S Q A E α) :
    wp h (.call q k) R s w ↔ wp h (k (h w q).1) R s (h w q).2 := Iff.rfl

theorem wp_mono {p : Program S Q A E α} (hp : wp h p R s w)
    (hR : ∀ r s' w', R r s' w' → R' r s' w') : wp h p R' s w := hR _ _ _ hp

/-- What the rest of a program has to achieve after its first part. -/
def andThen (h : Handler W Q A) (f : α → Program S Q A E β) (R : Except E β → S → W → Prop) :
    Except E α → S → W → Prop
  | .ok a, s, w => wp h (f a) R s w
  | .error e, s, w => R (.error e) s w

@[simp] theorem andThen_ok (f : α → Program S Q A E β) (R : Except E β → S → W → Prop) (a : α) :
    andThen h f R (.ok a) s w ↔ wp h (f a) R s w := Iff.rfl

@[simp] theorem andThen_error (f : α → Program S Q A E β) (R : Except E β → S → W → Prop) (e : E) :
    andThen h f R (.error e) s w ↔ R (.error e) s w := Iff.rfl

theorem run_bind (p : Program S Q A E α) (f : α → Program S Q A E β) (s : S) (w : W) :
    run h (bind p f) s w = match run h p s w with
      | (.ok a, s', w') => run h (f a) s' w'
      | (.error e, s', w') => (.error e, s', w') := by
  induction p generalizing s w with
  | ret a | raise e => rfl
  | get k ih => exact ih s s w
  | put s' k ih => exact ih s' w
  | call q k ih => exact ih _ s _

@[simp] theorem asked_bind_ret (a : α) (f : α → Program S Q A E β) (s : S) (w : W) :
    asked h (bind (.ret a) f) s w = asked h (f a) s w := rfl

@[simp] theorem asked_bind_read (f : S → Program S Q A E β) (s : S) (w : W) :
    asked h (bind read f) s w = asked h (f s) s w := rfl

@[simp] theorem asked_bind_modify (g : S → S) (f : Unit → Program S Q A E β) (s : S) (w : W) :
    asked h (bind (modify g) f) s w = asked h (f ()) (g s) w := rfl

theorem run_tryCatch (p : Program S Q A E α) (f : E → Program S Q A E α) (s : S) (w : W) :
    run h (tryCatch p f) s w = match run h p s w with
      | (.ok a, s', w') => (.ok a, s', w')
      | (.error e, s', w') => run h (f e) s' w' := by
  induction p generalizing s w with
  | ret a | raise e => rfl
  | get k ih => exact ih s s w
  | put s' k ih => exact ih s' w
  | call q k ih => exact ih _ s _

@[simp] theorem wp_bind (p : Program S Q A E α) (f : α → Program S Q A E β)
    (R : Except E β → S → W → Prop) : wp h (bind p f) R s w ↔ wp h p (andThen h f R) s w := by
  simp only [wp, run_bind]
  rcases run h p s w with ⟨a | e, s', w'⟩ <;> rfl

/-- What remains to be shown when the body of a handler has ended. -/
def orElse (h : Handler W Q A) (f : E → Program S Q A E α) (R : Except E α → S → W → Prop) :
    Except E α → S → W → Prop
  | .ok a, s, w => R (.ok a) s w
  | .error e, s, w => wp h (f e) R s w

@[simp] theorem orElse_ok (f : E → Program S Q A E α) (a : α) :
    orElse h f R (.ok a) s w ↔ R (.ok a) s w := Iff.rfl

@[simp] theorem orElse_error (f : E → Program S Q A E α) (e : E) :
    orElse h f R (.error e) s w ↔ wp h (f e) R s w := Iff.rfl

@[simp] theorem wp_tryCatch (p : Program S Q A E α) (f : E → Program S Q A E α) :
    wp h (tryCatch p f) R s w ↔ wp h p (orElse h f R) s w := by
  simp only [wp, run_tryCatch]
  rcases run h p s w with ⟨a | e, s', w'⟩ <;> rfl

@[simp] theorem wp_read {R : Except E S → S → W → Prop} :
    wp h (read : Program S Q A E S) R s w ↔ R (.ok s) s w := Iff.rfl

@[simp] theorem wp_modify {R : Except E Unit → S → W → Prop} (f : S → S) :
    wp h (modify f) R s w ↔ R (.ok ()) (f s) w := Iff.rfl

@[simp] theorem wp_lift (r : Except E α) : wp h (lift r) R s w ↔ R r s w := by cases r <;> rfl

@[simp] theorem wp_await (q : Q) (as : A q → Except E α) :
    wp h (await q as) R s w ↔ R (as (h w q).1) s (h w q).2 := wp_lift _

/-- A request on the way: its answer ends the program, or the rest goes on with it. -/
theorem wp_bind_await {q : Q} {as : A q → Except E α} {f : α → Program S Q A E β} {R : Except E β → S → W → Prop}
    (herr : ∀ e, as (h w q).1 = .error e → R (.error e) s (h w q).2)
    (hok : ∀ a, as (h w q).1 = .ok a → wp h (f a) R s (h w q).2) : wp h (bind (await q as) f) R s w := by
  rw [wp_bind, wp_await]
  cases ha : as (h w q).1 with
  | error e => exact herr e ha
  | ok a => exact hok a ha

@[simp] theorem wp_attempt (f : S → Except E (α × S)) :
    wp h (attempt f) R s w ↔ match f s with
      | .ok (a, s') => R (.ok a) s' w
      | .error e => R (.error e) s w := by
  simp only [attempt, wp_get]
  cases f s <;> rfl

/-- What one iteration of a loop has to achieve: the invariant for the elements
still to come, or else the postcondition of the loop with its exception. -/
def iterPost {X Y : Type} (J : X → Y → Prop) (R : Except E Unit → X → Y → Prop) : Except E Unit → X → Y → Prop
  | .ok _, x, y => J x y
  | .error e, x, y => R (.error e) x y

@[simp] theorem iterPost_ok {X Y : Type} (J : X → Y → Prop) (R : Except E Unit → X → Y → Prop) (a : Unit)
    (x : X) (y : Y) : iterPost J R (.ok a) x y ↔ J x y := Iff.rfl

@[simp] theorem iterPost_error {X Y : Type} (J : X → Y → Prop) (R : Except E Unit → X → Y → Prop) (e : E)
    (x : X) (y : Y) : iterPost J R (.error e) x y ↔ R (.error e) x y := Iff.rfl

/-- The loop rule. -/
theorem wp_forEach {β : Type} (I : List β → S → W → Prop) {R : Except E Unit → S → W → Prop}
    (f : β → Program S Q A E Unit)
    (hstep : ∀ x xs s w, I (x :: xs) s w → wp h (f x) (iterPost (I xs) R) s w)
    (hdone : ∀ s w, I [] s w → R (.ok ()) s w) (xs : List β) (hI : I xs s w) :
    wp h (forEach xs f) R s w := by
  induction xs generalizing s w with
  | nil => exact hdone s w hI
  | cons x xs ih =>
      rw [forEach, wp_bind]
      refine wp_mono (hstep x xs s w hI) ?_
      rintro (e | a) s' w' hr
      · exact hr
      · exact ih hr

theorem run_zoom (l : Lens T S) (p : Program S Q A E α) (t : T) (w : W) :
    run h (zoom l p) t w =
      ((run h p (l.view t) w).1, l.set t (run h p (l.view t) w).2.1, (run h p (l.view t) w).2.2) := by
  induction p generalizing t w with
  | ret a | raise e => simp only [zoom, run, l.set_view]
  | get k ih => exact ih _ t w
  | put s k ih => simp only [zoom, run, ih, l.view_set, l.set_set]
  | call q k ih => exact ih _ t _

@[simp] theorem wp_zoom (l : Lens T S) (p : Program S Q A E α) {R : Except E α → T → W → Prop} {t : T} :
    wp h (zoom l p) R t w ↔ wp h p (fun r s' w' => R r (l.set t s') w') (l.view t) w := by
  simp only [wp, run_zoom]

/-- The requests of a relayed program are answered by what answers the requests they are passed on as. -/
theorem run_relay {R : Type} {B : R → Type} {h : Handler W R B} (f : Q → R) (back : (q : Q) → B (f q) → A q)
    (p : Program S Q A E α) (s : S) (w : W) :
    run h (relay f back p) s w = run (fun w q => (back q (h w (f q)).1, (h w (f q)).2)) p s w := by
  induction p generalizing s w with
  | ret a | raise e => rfl
  | get k ih => exact ih s s w
  | put s' k ih => exact ih s' w
  | call q k ih => exact ih _ s _

theorem run_keeps {J : W → Prop} (hJ : ∀ w q, J w → J (h w q).2) (p : Program S Q A E α) (s : S) {w : W}
    (hw : J w) : J (run h p s w).2.2 := by
  induction p generalizing s w with
  | ret a | raise e => exact hw
  | get k ih => exact ih s s hw
  | put s' k ih => exact ih s' hw
  | call q k ih => exact ih _ s (hJ w q hw)

/-- Two worlds that answer every request alike, while staying related, cannot
be told apart by a program. -/
theorem run_simulates {H : Handler V Q A} (Sim : W → V → Prop)
    (hsim : ∀ w v q, Sim w v → (h w q).1 = (H v q).1 ∧ Sim (h w q).2 (H v q).2)
    (p : Program S Q A E α) (s : S) {w : W} {v : V} (hwv : Sim w v) :
    (run h p s w).1 = (run H p s v).1 ∧ (run h p s w).2.1 = (run H p s v).2.1 ∧
      Sim (run h p s w).2.2 (run H p s v).2.2 := by
  induction p generalizing s w v with
  | ret a | raise e => exact ⟨rfl, rfl, hwv⟩
  | get k ih => exact ih s s hwv
  | put s' k ih => exact ih s' hwv
  | call q k ih =>
      obtain ⟨ha, hw⟩ := hsim w v q hwv
      have hk := ih (h w q).1 s hw
      simp only [run]
      rw [← ha]
      exact hk

end Program

end Utos.Coroutine
