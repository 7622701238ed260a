import Utos.Coroutine.Run

namespace Utos.Coroutine

/-- The terms on which a program shares its state with others: an invariant
that all keep at every write, what each may write and what it may count on
while others run, which requests it may make, given what it owns, and which
answers it may be told, as things stand when it goes on. Making a request may
use up part of what is owned. -/
structure Protocol (S Q : Type) (A : Q → Type) (O : Type) where
  inv : S → Prop
  guar : O → S → S → Prop
  rely : O → S → S → Prop
  asks : O → S → Q → Prop
  spend : O → Q → O
  told : S → (q : Q) → A q → Prop := fun _ _ _ => True

namespace Program

variable {S T Q O W : Type} {A : Q → Type} {E α β : Type}

/-- The weakest precondition of a program whose requests may get any answer that
the terms allow, with the others running meanwhile. -/
def Under (π : Protocol S Q A O) : Program S Q A E α → (Except E α → O → S → Prop) → O → S → Prop
  | .ret a, R, o, s => R (.ok a) o s
  | .raise e, R, o, s => R (.error e) o s
  | .get k, R, o, s => Under π (k s) R o s
  | .put s' k, R, o, s => π.inv s' ∧ π.guar o s s' ∧ Under π k R o s'
  | .call q k, R, o, s => π.asks o s q ∧
      ∀ a s', π.told s' q a → π.inv s' → π.rely (π.spend o q) s s' → Under π (k a) R (π.spend o q) s'

variable {π : Protocol S Q A O} {R R' : Except E α → O → S → Prop} {o : O} {s : S}

@[simp] theorem under_ret (a : α) : Under π (.ret a : Program S Q A E α) R o s ↔ R (.ok a) o s := Iff.rfl

@[simp] theorem under_raise (e : E) : Under π (.raise e : Program S Q A E α) R o s ↔ R (.error e) o s :=
  Iff.rfl

@[simp] theorem under_get (k : S → Program S Q A E α) :
    Under π (.get k) R o s ↔ Under π (k s) R o s := Iff.rfl

theorem under_put (s' : S) (k : Program S Q A E α) :
    Under π (.put s' k) R o s ↔ π.inv s' ∧ π.guar o s s' ∧ Under π k R o s' := Iff.rfl

theorem under_call (q : Q) (k : A q → Program S Q A E α) :
    Under π (.call q k) R o s ↔ π.asks o s q ∧
      ∀ a s', π.told s' q a → π.inv s' → π.rely (π.spend o q) s s' → Under π (k a) R (π.spend o q) s' := Iff.rfl

theorem under_mono {p : Program S Q A E α} (hp : Under π p R o s)
    (hR : ∀ r o' s', R r o' s' → R' r o' s') : Under π p R' o s := by
  induction p generalizing o s with
  | ret a | raise e => exact hR _ _ _ hp
  | get k ih => exact ih _ hp
  | put s' k ih => exact ⟨hp.1, hp.2.1, ih hp.2.2⟩
  | call q k ih => exact ⟨hp.1, fun a s' ht hi hr => ih a (hp.2 a s' ht hi hr)⟩

/-- What the rest of a program has to achieve after its first part. -/
def thenUnder (π : Protocol S Q A O) (f : α → Program S Q A E β) (R : Except E β → O → S → Prop) :
    Except E α → O → S → Prop
  | .ok a, o, s => Under π (f a) R o s
  | .error e, o, s => R (.error e) o s

@[simp] theorem thenUnder_ok (f : α → Program S Q A E β) (R : Except E β → O → S → Prop) (a : α) :
    thenUnder π f R (.ok a) o s ↔ Under π (f a) R o s := Iff.rfl

@[simp] theorem thenUnder_error (f : α → Program S Q A E β) (R : Except E β → O → S → Prop) (e : E) :
    thenUnder π f R (.error e) o s ↔ R (.error e) o s := Iff.rfl

@[simp] theorem under_bind (p : Program S Q A E α) (f : α → Program S Q A E β)
    (R : Except E β → O → S → Prop) : Under π (bind p f) R o s ↔ Under π p (thenUnder π f R) o s := by
  induction p generalizing o s with
  | ret a | raise e => rfl
  | get k ih => exact ih s
  | put s' k ih => simp only [bind, under_put, ih]
  | call q k ih => simp only [bind, under_call, ih]

/-- What remains to be shown when the body of a handler has ended. -/
def elseUnder (π : Protocol S Q A O) (f : E → Program S Q A E α) (R : Except E α → O → S → Prop) :
    Except E α → O → S → Prop
  | .ok a, o, s => R (.ok a) o s
  | .error e, o, s => Under π (f e) R o s

@[simp] theorem elseUnder_ok (f : E → Program S Q A E α) (a : α) :
    elseUnder π f R (.ok a) o s ↔ R (.ok a) o s := Iff.rfl

@[simp] theorem elseUnder_error (f : E → Program S Q A E α) (e : E) :
    elseUnder π f R (.error e) o s ↔ Under π (f e) R o s := Iff.rfl

@[simp] theorem under_tryCatch (p : Program S Q A E α) (f : E → Program S Q A E α) :
    Under π (tryCatch p f) R o s ↔ Under π p (elseUnder π f R) o s := by
  induction p generalizing o s with
  | ret a | raise e => rfl
  | get k ih => exact ih s
  | put s' k ih => simp only [tryCatch, under_put, ih]
  | call q k ih => simp only [tryCatch, under_call, ih]

@[simp] theorem under_read {R : Except E S → O → S → Prop} :
    Under π (read : Program S Q A E S) R o s ↔ R (.ok s) o s := Iff.rfl

@[simp] theorem under_modify {R : Except E Unit → O → S → Prop} (f : S → S) :
    Under π (modify f : Program S Q A E Unit) R o s ↔ π.inv (f s) ∧ π.guar o s (f s) ∧ R (.ok ()) o (f s) :=
  Iff.rfl

@[simp] theorem under_lift (r : Except E α) : Under π (lift r : Program S Q A E α) R o s ↔ R r o s := by
  cases r <;> rfl

@[simp] theorem under_attempt (f : S → Except E (α × S)) :
    Under π (attempt f : Program S Q A E α) R o s ↔ match f s with
      | .ok (a, s') => π.inv s' ∧ π.guar o s s' ∧ R (.ok a) o s'
      | .error e => R (.error e) o s := by
  simp only [attempt, under_get]
  cases f s <;> rfl

@[simp] theorem under_await (q : Q) (as : A q → Except E α) :
    Under π (await q as) R o s ↔ π.asks o s q ∧
      ∀ a s', π.told s' q a → π.inv s' → π.rely (π.spend o q) s s' → R (as a) (π.spend o q) s' := by
  simp only [await, under_call, under_lift]

/-- The loop rule: what holds between two iterations may speak of the elements
still to come and of what is still owned. -/
theorem under_forEach {R : Except E Unit → O → S → Prop} (J : List β → O → S → Prop)
    (f : β → Program S Q A E Unit)
    (hstep : ∀ x xs o s, J (x :: xs) o s → Under π (f x) (iterPost (J xs) R) o s)
    (hdone : ∀ o s, J [] o s → R (.ok ()) o s) (xs : List β) (hJ : J xs o s) :
    Under π (forEach xs f) R o s := by
  induction xs generalizing o s with
  | nil => exact hdone o s hJ
  | cons x xs ih =>
      rw [forEach, under_bind]
      refine under_mono (hstep x xs o s hJ) ?_
      rintro (e | a) o' s' hr
      · exact hr
      · exact ih hr

@[simp] theorem under_zoom_ret (l : Lens S T) (a : α) :
    Under π (zoom l (.ret a) : Program S Q A E α) R o s ↔ R (.ok a) o s := Iff.rfl

@[simp] theorem under_zoom_raise (l : Lens S T) (e : E) :
    Under π (zoom l (.raise e) : Program S Q A E α) R o s ↔ R (.error e) o s := Iff.rfl

@[simp] theorem under_zoom_read (l : Lens S T) {R : Except E T → O → S → Prop} :
    Under π (zoom l read : Program S Q A E T) R o s ↔ R (.ok (l.view s)) o s := Iff.rfl

@[simp] theorem under_zoom_modify (l : Lens S T) (f : T → T) {R : Except E Unit → O → S → Prop} :
    Under π (zoom l (modify f) : Program S Q A E Unit) R o s ↔
      π.inv (l.set s (f (l.view s))) ∧ π.guar o s (l.set s (f (l.view s))) ∧
        R (.ok ()) o (l.set s (f (l.view s))) := Iff.rfl

@[simp] theorem under_zoom_lift (l : Lens S T) (r : Except E α) :
    Under π (zoom l (lift r) : Program S Q A E α) R o s ↔ R r o s := by
  cases r <;> rfl

@[simp] theorem under_zoom_attempt (l : Lens S T) (f : T → Except E (α × T)) :
    Under π (zoom l (attempt f) : Program S Q A E α) R o s ↔ match f (l.view s) with
      | .ok (a, t) => π.inv (l.set s t) ∧ π.guar o s (l.set s t) ∧ R (.ok a) o (l.set s t)
      | .error e => R (.error e) o s := by
  simp only [attempt, zoom, under_get]
  cases f (l.view s) <;> rfl

@[simp] theorem under_zoom_await (l : Lens S T) (q : Q) (as : A q → Except E α) :
    Under π (zoom l (await q as)) R o s ↔ π.asks o s q ∧
      ∀ a s', π.told s' q a → π.inv s' → π.rely (π.spend o q) s s' → R (as a) (π.spend o q) s' := by
  simp only [await, zoom, under_call, under_zoom_lift]

/-- A program that behaves from whatever state it starts in, and uses up nothing of what is owned. -/
def Steady (π : Protocol S Q A O) (o : O) (p : Program S Q A E α) : Prop :=
  ∀ s, π.inv s → Under π p (fun _ o' s' => o' = o ∧ π.inv s') o s

theorem steady_ret (a : α) : Steady π o (.ret a : Program S Q A E α) := fun _ hi => ⟨rfl, hi⟩

theorem steady_raise (e : E) : Steady π o (.raise e : Program S Q A E α) := fun _ hi => ⟨rfl, hi⟩

theorem steady_lift (r : Except E α) : Steady π o (lift r : Program S Q A E α) := by
  cases r with
  | ok a => exact steady_ret a
  | error e => exact steady_raise e

theorem steady_bind {p : Program S Q A E α} {f : α → Program S Q A E β} (hp : Steady π o p)
    (hf : ∀ a, Steady π o (f a)) : Steady π o (bind p f) := by
  intro s hi
  rw [under_bind]
  refine under_mono (hp s hi) ?_
  rintro (e | a) o' s' ⟨rfl, hi'⟩
  · exact ⟨rfl, hi'⟩
  · exact hf a s' hi'

theorem steady_tryCatch {p : Program S Q A E α} {f : E → Program S Q A E α} (hp : Steady π o p)
    (hf : ∀ e, Steady π o (f e)) : Steady π o (tryCatch p f) := by
  intro s hi
  rw [under_tryCatch]
  refine under_mono (hp s hi) ?_
  rintro (e | a) o' s' ⟨rfl, hi'⟩
  · exact hf e s' hi'
  · exact ⟨rfl, hi'⟩

/-- What is read may be relied on as far as the invariant goes. -/
theorem steady_read_bind {f : S → Program S Q A E β} (hf : ∀ s, π.inv s → Steady π o (f s)) :
    Steady π o (bind read f) := fun s hi => hf s hi s hi

theorem steady_modify {f : S → S} (hf : ∀ s, π.inv s → π.inv (f s) ∧ π.guar o s (f s)) :
    Steady π o (modify f : Program S Q A E Unit) :=
  fun s hi => ⟨(hf s hi).1, (hf s hi).2, rfl, (hf s hi).1⟩

theorem steady_attempt {f : S → Except E (α × S)}
    (hf : ∀ s a s', π.inv s → f s = .ok (a, s') → π.inv s' ∧ π.guar o s s') :
    Steady π o (attempt f : Program S Q A E α) := by
  intro s hi
  rw [under_attempt]
  split
  next a s' h => exact ⟨(hf s a s' hi h).1, (hf s a s' hi h).2, rfl, (hf s a s' hi h).1⟩
  next => exact ⟨rfl, hi⟩

theorem steady_await {q : Q} (as : A q → Except E α) (ha : ∀ s, π.inv s → π.asks o s q)
    (hspend : π.spend o q = o) : Steady π o (await q as) := by
  intro s hi
  rw [under_await, hspend]
  exact ⟨ha s hi, fun a s' _ hi' _ => ⟨rfl, hi'⟩⟩

theorem steady_forEach {f : β → Program S Q A E Unit} {xs : List β} (hf : ∀ x ∈ xs, Steady π o (f x)) :
    Steady π o (forEach xs f) := by
  induction xs with
  | nil => exact steady_ret ()
  | cons x xs ih =>
      exact steady_bind (hf x (by simp)) (fun _ => ih (fun y hy => hf y (by simp [hy])))

theorem steady_zoom_read_bind (l : Lens S T) {f : T → Program T Q A E β}
    (hf : ∀ s, π.inv s → Steady π o (zoom l (f (l.view s)))) : Steady π o (zoom l (bind read f)) :=
  fun s hi => hf s hi s hi

theorem steady_zoom_modify (l : Lens S T) {f : T → T}
    (hf : ∀ s, π.inv s → π.inv (l.set s (f (l.view s))) ∧ π.guar o s (l.set s (f (l.view s)))) :
    Steady π o (zoom l (modify f : Program T Q A E Unit)) :=
  fun s hi => ⟨(hf s hi).1, (hf s hi).2, rfl, (hf s hi).1⟩

theorem steady_zoom_attempt (l : Lens S T) {f : T → Except E (α × T)}
    (hf : ∀ s a t, π.inv s → f (l.view s) = .ok (a, t) → π.inv (l.set s t) ∧ π.guar o s (l.set s t)) :
    Steady π o (zoom l (attempt f : Program T Q A E α)) := by
  intro s hi
  rw [under_zoom_attempt]
  split
  next a t h => exact ⟨(hf s a t hi h).1, (hf s a t hi h).2, rfl, (hf s a t hi h).1⟩
  next => exact ⟨rfl, hi⟩

theorem steady_zoom_await (l : Lens S T) {q : Q} (as : A q → Except E α) (ha : ∀ s, π.inv s → π.asks o s q)
    (hspend : π.spend o q = o) : Steady π o (zoom l (await q as)) := by
  intro s hi
  rw [under_zoom_await, hspend]
  exact ⟨ha s hi, fun a s' _ hi' _ => ⟨rfl, hi'⟩⟩

/-- Running alone, a program that behaves under the terms keeps the invariant,
and keeps whatever its requests keep of the world. -/
theorem wp_of_under {h : Handler W Q A} (J : O → W → Prop) (hrely : ∀ o s, π.rely o s s)
    (htold : ∀ s w q, π.told s q (h w q).1)
    (hreq : ∀ o s q w, π.inv s → π.asks o s q → J o w → J (π.spend o q) (h w q).2)
    (p : Program S Q A E α) (hp : Under π p R o s) (hi : π.inv s) (w : W) (hw : J o w) :
    wp h p (fun r s' w' => ∃ o', π.inv s' ∧ J o' w' ∧ R r o' s') s w := by
  induction p generalizing o s w with
  | ret a | raise e => exact ⟨o, hi, hw, hp⟩
  | get k ih => exact ih s hp hi w hw
  | put s' k ih => exact ih hp.2.2 hp.1 w hw
  | call q k ih => exact ih _ (hp.2 _ s (htold s w q) hi (hrely _ _)) hi _ (hreq o s q w hi hp.1 hw)

/-- Running alone, a program that behaves under the terms makes its requests
while the invariant holds, and as it may with what it owns. -/
theorem asked_of_under {h : Handler W Q A} (J : O → Prop) (hrely : ∀ o s, π.rely o s s)
    (htold : ∀ s w q, π.told s q (h w q).1) (hspend : ∀ o s q, π.asks o s q → J o → J (π.spend o q))
    (p : Program S Q A E α) (hp : Under π p R o s) (hi : π.inv s) (w : W) (ho : J o) {x : S × Q}
    (hx : x ∈ asked h p s w) : π.inv x.1 ∧ ∃ o', J o' ∧ π.asks o' x.1 x.2 := by
  induction p generalizing o s w with
  | ret a | raise e => cases hx
  | get k ih => exact ih s hp hi w ho hx
  | put s' k ih => exact ih hp.2.2 hp.1 w ho hx
  | call q k ih =>
      rcases List.mem_cons.mp hx with rfl | hx
      · exact ⟨hi, o, ho, hp.1⟩
      · exact ih _ (hp.2 _ s (htold s w q) hi (hrely _ _)) hi _ (hspend o s q hp.1 ho) hx

end Program

/-- The terms of a program that counts on an invariant and on nothing else: its
writes are of one kind, and so are its requests. -/
def Protocol.bare {S Q : Type} {A : Q → Type} (I : S → Prop) (G : S → S → Prop) (ask : Q → Prop) :
    Protocol S Q A Unit where
  inv := I
  guar _ := G
  rely _ _ _ := True
  asks _ _ q := ask q
  spend o _ := o

namespace Program

variable {S T Q O : Type} {A : Q → Type} {E α : Type} {I : S → Prop} {G : S → S → Prop} {ask : Q → Prop}
variable {π : Protocol S Q A O}

/-- Such a program behaves under all terms that admit what it writes and asks
for, and keeps what its own writes and the others keep. -/
theorem under_of_bare {R : Except E α → Unit → S → Prop} {p : Program S Q A E α} {o : O} {s : S} (J : S → Prop)
    (hJ : ∀ s, J s → I s) (hwrite : ∀ s s', J s → G s s' → π.inv s' ∧ π.guar o s s' ∧ J s')
    (hask : ∀ s q, J s → ask q → π.asks o s q ∧ π.spend o q = o)
    (hothers : ∀ s s', J s → π.inv s' → π.rely o s s' → J s')
    (hp : Under (.bare I G ask) p R () s) (hs : J s) : Under π p (fun r o' s' => o' = o ∧ J s' ∧ R r () s') o s := by
  induction p generalizing s with
  | ret a | raise e => exact ⟨rfl, hs, hp⟩
  | get k ih => exact ih s hp hs
  | put s' k ih =>
      obtain ⟨hinv, hguar, hJ'⟩ := hwrite s s' hs hp.2.1
      exact ⟨hinv, hguar, ih hp.2.2 hJ'⟩
  | call q k ih =>
      obtain ⟨hasks, hspend⟩ := hask s q hs hp.1
      refine ⟨hasks, fun a s' _ hi hr => ?_⟩
      rw [hspend] at hr ⊢
      have hs' := hothers s s' hs hi hr
      exact ih a (hp.2 a s' trivial (hJ s' hs') trivial) hs'

theorem steady_zoom (l : Lens S T) (hset : ∀ s t, I s → I (l.set s t) ∧ G s (l.set s t)) (hask : ∀ q, ask q)
    (p : Program T Q A E α) : Steady (.bare I G ask) () (zoom l p) := by
  intro s hi
  induction p generalizing s with
  | ret a | raise e => exact ⟨rfl, hi⟩
  | get k ih => exact ih _ s hi
  | put t k ih => exact ⟨(hset s t hi).1, (hset s t hi).2, ih _ (hset s t hi).1⟩
  | call q k ih => exact ⟨hask q, fun a s' _ hi' _ => ih _ s' hi'⟩

/-- A program of a component counts on nothing if all writes to the component are of the kind. -/
theorem steady_component {P : Type} {B : P → Type} (l : Lens S T) (f : P → Q) (back : (q : P) → A (f q) → B q)
    (hset : ∀ s t, I s → I (l.set s t) ∧ G s (l.set s t)) (hask : ∀ q, ask (f q)) (p : Program T P B E α) :
    Steady (.bare (A := A) I G ask) () (relay f back (zoom l p)) := by
  intro s hi
  induction p generalizing s with
  | ret a | raise e => exact ⟨rfl, hi⟩
  | get k ih => exact ih _ s hi
  | put t k ih => exact ⟨(hset s t hi).1, (hset s t hi).2, ih _ (hset s t hi).1⟩
  | call q k ih => exact ⟨hask q, fun a s' _ hi' _ => ih _ s' hi'⟩

end Program

end Utos.Coroutine
