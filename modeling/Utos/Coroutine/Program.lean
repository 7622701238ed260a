import Mathlib.Logic.Function.Basic

namespace Utos.Coroutine

/-- A program over shared state S that gives up control only at its requests.
The stretch between two requests runs without interruption, as a coroutine of a
single-threaded event loop does between two awaits. -/
inductive Program (S Q : Type) (A : Q → Type) (E α : Type) : Type
  | ret (a : α)
  | raise (e : E)
  | get (k : S → Program S Q A E α)
  | put (s : S) (k : Program S Q A E α)
  | call (q : Q) (k : A q → Program S Q A E α)

namespace Program

variable {S T Q : Type} {A : Q → Type} {E α β γ : Type}

def bind : Program S Q A E α → (α → Program S Q A E β) → Program S Q A E β
  | .ret a, f => f a
  | .raise e, _ => .raise e
  | .get k, f => .get (fun s => bind (k s) f)
  | .put s k, f => .put s (bind k f)
  | .call q k, f => .call q (fun a => bind (k a) f)

/-- The handler sees every exception of the body; state written by the body
before the exception stays written. -/
def tryCatch : Program S Q A E α → (E → Program S Q A E α) → Program S Q A E α
  | .ret a, _ => .ret a
  | .raise e, h => h e
  | .get k, h => .get (fun s => tryCatch (k s) h)
  | .put s k, h => .put s (tryCatch k h)
  | .call q k, h => .call q (fun a => tryCatch (k a) h)

instance : Monad (Program S Q A E) where
  pure := .ret
  bind := bind

instance : MonadExceptOf E (Program S Q A E) where
  throw := .raise
  tryCatch := tryCatch

def read : Program S Q A E S := .get .ret

def modify (f : S → S) : Program S Q A E Unit := .get (fun s => .put (f s) (.ret ()))

/-- An uninterrupted step that may fail, leaving the state as it was. -/
def attempt (f : S → Except E (α × S)) : Program S Q A E α :=
  .get (fun s => match f s with
    | .ok (a, s') => .put s' (.ret a)
    | .error e => .raise e)

def lift : Except E α → Program S Q A E α
  | .ok a => .ret a
  | .error e => .raise e

/-- Suspend on a request whose answer is a result or an exception. -/
def await (q : Q) (as : A q → Except E α) : Program S Q A E α := .call q (fun a => lift (as a))

def forEach : List β → (β → Program S Q A E Unit) → Program S Q A E Unit
  | [], _ => .ret ()
  | x :: xs, f => bind (f x) (fun _ => forEach xs f)

/-- A view of one component of a larger state. -/
structure Lens (T S : Type) where
  view : T → S
  set : T → S → T
  view_set : ∀ t s, view (set t s) = s
  set_view : ∀ t, set t (view t) = t
  set_set : ∀ t s s', set (set t s) s' = set t s'

/-- Run a program of a component inside a larger state. -/
def zoom (l : Lens T S) : Program S Q A E α → Program T Q A E α
  | .ret a => .ret a
  | .raise e => .raise e
  | .get k => .get (fun t => zoom l (k (l.view t)))
  | .put s k => .get (fun t => .put (l.set t s) (zoom l k))
  | .call q k => .call q (fun a => zoom l (k a))

/-- Pass the requests of a program on as requests of another kind. -/
def relay {R : Type} {B : R → Type} (f : Q → R) (back : (q : Q) → B (f q) → A q) :
    Program S Q A E α → Program S R B E α
  | .ret a => .ret a
  | .raise e => .raise e
  | .get k => .get (fun s => relay f back (k s))
  | .put s k => .put s (relay f back k)
  | .call q k => .call (f q) (fun b => relay f back (k (back q b)))

@[simp] theorem pure_eq (a : α) : (pure a : Program S Q A E α) = .ret a := rfl

@[simp] theorem bind_eq (p : Program S Q A E α) (f : α → Program S Q A E β) : p >>= f = bind p f := rfl

@[simp] theorem throw_eq (e : E) : (throw e : Program S Q A E α) = .raise e := rfl

@[simp] theorem tryCatch_eq (p : Program S Q A E α) (h : E → Program S Q A E α) :
    MonadExcept.tryCatch p h = tryCatch p h := rfl

theorem bind_assoc (p : Program S Q A E α) (f : α → Program S Q A E β) (g : β → Program S Q A E γ) :
    bind (bind p f) g = bind p (fun a => bind (f a) g) := by
  induction p with
  | ret a => rfl
  | raise e => rfl
  | get k ih => exact congrArg Program.get (funext ih)
  | put s k ih => exact congrArg (Program.put s) ih
  | call q k ih => exact congrArg (Program.call q) (funext ih)

theorem forEach_map (g : γ → β) (xs : List γ) (f : β → Program S Q A E Unit) :
    forEach (xs.map g) f = forEach xs (fun x => f (g x)) := by
  induction xs with
  | nil => rfl
  | cons x xs ih => simp only [List.map_cons, forEach, ih]

theorem forEach_filterMap (g : γ → Option β) (xs : List γ) (f : β → Program S Q A E Unit) :
    forEach (xs.filterMap g) f = forEach xs (fun x => match g x with
      | none => .ret ()
      | some y => f y) := by
  induction xs with
  | nil => rfl
  | cons x xs ih =>
      cases hx : g x with
      | none => simp only [List.filterMap_cons, hx, forEach, bind, ih]
      | some y => simp only [List.filterMap_cons, hx, forEach, ih]

@[simp] theorem zoom_bind (l : Lens T S) (p : Program S Q A E α) (f : α → Program S Q A E β) :
    zoom l (bind p f) = bind (zoom l p) (fun a => zoom l (f a)) := by
  induction p with
  | ret a => rfl
  | raise e => rfl
  | get k ih => exact congrArg Program.get (funext fun t => ih (l.view t))
  | put s k ih => exact congrArg Program.get (funext fun t => congrArg (Program.put (l.set t s)) ih)
  | call q k ih => exact congrArg (Program.call q) (funext ih)

@[simp] theorem zoom_tryCatch (l : Lens T S) (p : Program S Q A E α) (h : E → Program S Q A E α) :
    zoom l (tryCatch p h) = tryCatch (zoom l p) (fun e => zoom l (h e)) := by
  induction p with
  | ret a => rfl
  | raise e => rfl
  | get k ih => exact congrArg Program.get (funext fun t => ih (l.view t))
  | put s k ih => exact congrArg Program.get (funext fun t => congrArg (Program.put (l.set t s)) ih)
  | call q k ih => exact congrArg (Program.call q) (funext ih)

end Program

end Utos.Coroutine
