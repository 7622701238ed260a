import Utos.Coroutine.Run

namespace Utos.Coroutine.Program

variable {S T Q W : Type} {A : Q → Type} {E α β : Type}

/-- What holds before a run of the program holds after it, however it ends. -/
def Keeps (h : Handler W Q A) (J : S → W → Prop) (p : Program S Q A E α) : Prop :=
  ∀ s w, J s w → wp h p (fun _ s' w' => J s' w') s w

variable {h : Handler W Q A} {J : S → W → Prop}

theorem wp_of_keeps {p : Program S Q A E α} (hp : Keeps h J p) {R : Except E α → S → W → Prop} {s : S} {w : W}
    (hJ : J s w) (hR : ∀ r s' w', J s' w' → R r s' w') : wp h p R s w := wp_mono (hp s w hJ) hR

theorem keeps_ret (a : α) : Keeps h J (.ret a : Program S Q A E α) := fun _ _ hJ => hJ

theorem keeps_raise (e : E) : Keeps h J (.raise e : Program S Q A E α) := fun _ _ hJ => hJ

theorem keeps_lift (r : Except E α) : Keeps h J (lift r : Program S Q A E α) := by
  cases r with
  | ok a => exact keeps_ret a
  | error e => exact keeps_raise e

theorem keeps_bind {p : Program S Q A E α} {f : α → Program S Q A E β} (hp : Keeps h J p)
    (hf : ∀ a, Keeps h J (f a)) : Keeps h J (bind p f) := by
  intro s w hJ
  rw [wp_bind]
  refine wp_of_keeps hp hJ ?_
  rintro (e | a) s' w' hJ'
  · exact hJ'
  · exact hf a s' w' hJ'

theorem keeps_tryCatch {p : Program S Q A E α} {f : E → Program S Q A E α} (hp : Keeps h J p)
    (hf : ∀ e, Keeps h J (f e)) : Keeps h J (tryCatch p f) := by
  intro s w hJ
  rw [wp_tryCatch]
  refine wp_of_keeps hp hJ ?_
  rintro (e | a) s' w' hJ'
  · exact hf e s' w' hJ'
  · exact hJ'

theorem wp_bind_of_keeps {p : Program S Q A E α} {f : α → Program S Q A E β} (hp : Keeps h J p)
    {R : Except E β → S → W → Prop} {s : S} {w : W} (hJ : J s w) (herr : ∀ e s' w', J s' w' → R (.error e) s' w')
    (hok : ∀ a s' w', J s' w' → wp h (f a) R s' w') : wp h (bind p f) R s w := by
  rw [wp_bind]
  refine wp_of_keeps hp hJ ?_
  rintro (e | a) s' w' hJ'
  · exact herr e s' w' hJ'
  · exact hok a s' w' hJ'

theorem wp_and {p : Program S Q A E α} {R R' : Except E α → S → W → Prop} {s : S} {w : W} (hR : wp h p R s w)
    (hR' : wp h p R' s w) : wp h p (fun r s' w' => R r s' w' ∧ R' r s' w') s w := ⟨hR, hR'⟩

/-- A postcondition for results only. -/
def onOk (Post : α → S → W → Prop) : Except E α → S → W → Prop
  | .ok a, s, w => Post a s w
  | .error _, _, _ => True

@[simp] theorem onOk_ok (Post : α → S → W → Prop) (a : α) (s : S) (w : W) :
    onOk (E := E) Post (.ok a) s w ↔ Post a s w := Iff.rfl

@[simp] theorem onOk_error (Post : α → S → W → Prop) (e : E) (s : S) (w : W) : onOk Post (.error e) s w ↔ True :=
  Iff.rfl

/-- What a program returns is settled by its last part. -/
theorem wp_bind_onOk {p : Program S Q A E α} {f : α → Program S Q A E β} {Post : β → S → W → Prop}
    (hf : ∀ a s w, wp h (f a) (onOk Post) s w) (s : S) (w : W) : wp h (bind p f) (onOk Post) s w := by
  rw [wp_bind]
  refine wp_mono (R := fun _ _ _ => True) trivial ?_
  rintro (e | a) s' w' -
  · exact trivial
  · exact hf a s' w'

theorem keeps_read : Keeps h J (read : Program S Q A E S) := fun _ _ hJ => hJ

theorem keeps_read_bind {f : S → Program S Q A E β} (hf : ∀ s, Keeps h J (f s)) :
    Keeps h J (bind read f) := keeps_bind keeps_read hf

theorem keeps_modify {f : S → S} (hf : ∀ s w, J s w → J (f s) w) :
    Keeps h J (modify f : Program S Q A E Unit) := fun s w hJ => hf s w hJ

theorem keeps_attempt {f : S → Except E (α × S)} (hf : ∀ s w a s', f s = .ok (a, s') → J s w → J s' w) :
    Keeps h J (attempt f : Program S Q A E α) := by
  intro s w hJ
  rw [wp_attempt]
  cases hs : f s with
  | ok r => exact hf s w r.1 r.2 hs hJ
  | error e => exact hJ

theorem keeps_call {q : Q} {k : A q → Program S Q A E α} (hq : ∀ s w, J s w → J s (h w q).2)
    (hk : ∀ a, Keeps h J (k a)) : Keeps h J (.call q k) := fun s w hJ => hk _ s _ (hq s w hJ)

theorem keeps_await {q : Q} {as : A q → Except E α} (hq : ∀ s w, J s w → J s (h w q).2) :
    Keeps h J (await q as) := keeps_call hq (fun _ => keeps_lift _)

theorem keeps_forEach {xs : List β} {f : β → Program S Q A E Unit} (hf : ∀ x ∈ xs, Keeps h J (f x)) :
    Keeps h J (forEach xs f) := by
  induction xs with
  | nil => exact keeps_ret ()
  | cons x xs ih =>
      exact keeps_bind (hf x List.mem_cons_self) (fun _ => ih (fun y hy => hf y (List.mem_cons_of_mem x hy)))

/-- What every request leaves of the world, every program does. -/
theorem keeps_world {J : W → Prop} (hq : ∀ w q, J w → J (h w q).2) (p : Program S Q A E α) :
    Keeps h (fun _ w => J w) p := by
  induction p with
  | ret a => exact keeps_ret a
  | raise e => exact keeps_raise e
  | get k ih => exact fun s w hJ => ih s s w hJ
  | put s' k ih => exact fun _ w hJ => ih s' w hJ
  | call q k ih => exact keeps_call (fun _ w hJ => hq w q hJ) ih

/-- A program of a component keeps what neither the component nor its requests can disturb. -/
theorem keeps_component {J : T → W → Prop} {P : Type} {B : P → Type} (l : Lens T S) (g : P → Q)
    (back : (q : P) → A (g q) → B q) (hset : ∀ t s w, J t w → J (l.set t s) w)
    (hq : ∀ t w q, J t w → J t (h w (g q)).2) (p : Program S P B E α) :
    Keeps h J (relay g back (zoom l p)) := by
  induction p with
  | ret a => exact keeps_ret a
  | raise e => exact keeps_raise e
  | get k ih => exact fun t w hJ => ih (l.view t) t w hJ
  | put s k ih => exact fun t w hJ => ih (l.set t s) w (hset t s w hJ)
  | call q k ih => exact keeps_call (fun t w hJ => hq t w q hJ) (fun a => ih (back q a))

end Utos.Coroutine.Program
