import Utos.Grid.Terms

namespace Utos.Grid.LockTerms

open Coroutine Program Core.DomainTypes Core.Exceptions Execution.Models Execution.Service State
open CircuitBreaker Planner Calculator Engine Invariant Terms
open ProfitLock.State (ProfitLockState ProfitLockStatus)

variable {K : Set LevelKey} {α : Type} {o : Quota} {s : GridEngine}

/-- What an operation on the lock of one level leaves alone. -/
structure LockStep (k : LevelKey) (o : Quota) (s : GridEngine) (o' : Quota) (s' : GridEngine) : Prop where
  sells : ∀ owner, owner ≠ .lock k → o'.sells owner = o.sells owner
  replaces : o'.replaces = o.replaces
  rest : s' = { s with locks := s'.locks }
  locks : ∀ j, j ≠ k → s'.locks j = s.locks j

theorem LockStep.refl (k : LevelKey) (o : Quota) (s : GridEngine) : LockStep k o s o s :=
  ⟨fun _ _ => rfl, rfl, rfl, fun _ _ => rfl⟩

theorem LockStep.trans {k : LevelKey} {o o' o'' : Quota} {s s' s'' : GridEngine} (h : LockStep k o s o' s')
    (h' : LockStep k o' s' o'' s'') : LockStep k o s o'' s'' := by
  refine ⟨fun w hw => (h'.sells w hw).trans (h.sells w hw), h'.replaces.trans h.replaces, ?_,
    fun j hj => (h'.locks j hj).trans (h.locks j hj)⟩
  rw [h'.rest, h.rest]

theorem LockStep.put (k : LevelKey) (o : Quota) (s : GridEngine) (st : ProfitLockState) :
    LockStep k o s o { s with locks := s.locks.put k st } :=
  ⟨fun _ _ => rfl, rfl, rfl, fun _ hj => Function.update_of_ne hj _ _⟩

theorem LockStep.assign (k : LevelKey) (o : Quota) (s : GridEngine) (f : ProfitLockState → ProfitLockState) :
    LockStep k o s o { s with locks := s.locks.assign k f } := by
  unfold ProfitLock.State.Store.assign
  cases s.locks k with
  | none => exact .refl k o s
  | some st => exact .put k o s (f st)

theorem under_transition {k : LevelKey} {target : ProfitLockStatus}
    {R : Except Exn Unit → Quota → GridEngine → Prop} (hs : Sound K s)
    (ht : target ≠ .monitoring ∧ target ≠ .cancelled)
    (hok : ∀ s' st, s.locks k = some st → target ∈ ProfitLock.State.transitions st.status →
      s' = { s with locks := s.locks.put k { st with status := target } } → Sound K s' → R (.ok ()) o s')
    (herr : ∀ e, R (.error e) o s) :
    Under (terms K) (zoom locksLens (ProfitLock.Engine.transition k target)) R o s := by
  rw [ProfitLock.Engine.transition, under_zoom_attempt]
  split
  next locks' hl =>
    obtain ⟨st, hk, hm, rfl⟩ := ProfitLock.State.Store.transition_ok hl
    exact ⟨hs.transition ht hl, trivial, hok _ st hk hm rfl (hs.transition ht hl)⟩
  next e hl => exact herr e

theorem under_note {k : LevelKey} {f : ProfitLockState → ProfitLockState}
    {R : Except Exn Unit → Quota → GridEngine → Prop} (hs : Sound K s) (hside : ∀ st, (f st).side = st.side)
    (hen : ∀ st, (f st).enabled = st.enabled) (hst : ∀ st, (f st).status = st.status)
    (hR : Sound K { s with locks := s.locks.assign k f } → R (.ok ()) o { s with locks := s.locks.assign k f }) :
    Under (terms K) (zoom locksLens (ProfitLock.Engine.assign k f)) R o s :=
  have h := hs.assignLock k f hside hen hst
  ⟨h, trivial, hR h⟩

/-- The lock order is a sell of the guarded quantity, and is asked for only in
status TRIGGERED. -/
theorem under_placeLockOrder {k : LevelKey} {p : ℚ} (hs : Sound K s) (hr : o.replaces k = none)
    (hq : ∀ st, s.locks k = some st → st.status = .triggered → st.quantity ≤ o.sells (.lock k)) :
    Under (terms K) (onLocks (ProfitLock.Engine.placeLockOrder .lock k p))
      (fun _ o' s' => Sound K s' ∧ LockStep k o s o' s') o s := by
  simp only [onLocks, ProfitLock.Engine.placeLockOrder, bind_eq, zoom_bind, under_bind, under_zoom_read,
    thenUnder_ok, locksLens_view]
  cases hk : s.locks k with
  | none => exact ⟨hs, .refl k o s⟩
  | some st =>
      simp only [zoom_bind, under_bind]
      refine under_transition hs (by decide) ?_ (fun e => ⟨hs, .refl k o s⟩)
      intro s1 st1 hk1 hm hs1 hsound
      cases hk.symm.trans hk1
      have htrig : st.status = .triggered := by
        cases h : st.status <;> simp [h, ProfitLock.State.transitions] at hm ⊢
      have hkK : k ∉ K := fun hkK => by
        have hoff := (hs.locksOk k st hk).2 (hs.off k hkK st hk)
        simp [htrig] at hoff
      have hside : (ProfitLock.Engine.lockRequest st p 0).side = .sell := by
        simp [ProfitLock.Engine.lockRequest, (hs.locksOk k st hk).1]
      have hstep : LockStep k o s (o.spend (.placeOrder (.lock k) (ProfitLock.Engine.lockRequest st p))) s1 := by
        refine ⟨fun w hw => ?_, ?_, by rw [hs1], fun j hj => by rw [hs1]; exact Function.update_of_ne hj _ _⟩
        · simp [Quota.spend, hside, Function.update_of_ne hw]
        · simp [Quota.spend, hside]
      simp only [thenUnder_ok, tryCatch_eq, zoom_tryCatch, under_tryCatch, zoom_bind, under_bind]
      refine under_placeOrder_lock hkK ⟨fun _ => rfl, ?_⟩ ?_
      · simp only [hside]
        exact ⟨hq st hk htrig, hr⟩
      · rintro (e | result)
        · simp only [thenUnder_error, elseUnder_error, under_bind]
          refine under_transition hsound (by decide) ?_ (fun e => ⟨hsound, hstep⟩)
          intro s2 st2 hk2 hm2 hs2 hsound2
          exact ⟨hsound2, hstep.trans (hs2 ▸ .put k _ s1 _)⟩
        · simp only [thenUnder_ok, under_bind]
          exact under_note hsound (fun _ => rfl) (fun _ => rfl) (fun _ => rfl)
            (fun h => ⟨h, hstep.trans (.assign k _ s1 _)⟩)

theorem under_handleTrigger {k : LevelKey} {p : ℚ} {lockPrice : Option ℚ} (hs : Sound K s) :
    Under (terms K) (onLocks (ProfitLock.Engine.handleTrigger (ω := Owner) k p lockPrice))
      (fun _ o' s' => Sound K s' ∧ LockStep k o s o' s') o s := by
  simp only [onLocks, ProfitLock.Engine.handleTrigger, bind_eq, zoom_bind, under_bind, under_zoom_read,
    thenUnder_ok, locksLens_view]
  split
  next st lockPrice hk =>
    split
    next =>
      simp only [zoom_bind, under_bind]
      refine under_transition hs (by decide) ?_ (fun e => ⟨hs, .refl k o s⟩)
      intro s1 st1 hk1 hm hs1 hsound
      have hput : LockStep k o s o s1 := hs1 ▸ .put k o s _
      exact under_note hsound (fun _ => rfl) (fun _ => rfl) (fun _ => rfl)
        (fun h => ⟨h, hput.trans (.assign k o s1 _)⟩)
    next =>
      exact under_note hs (fun _ => rfl) (fun _ => rfl) (fun _ => rfl) (fun h => ⟨h, .assign k o s _⟩)
  next => exact ⟨hs, .refl k o s⟩

theorem under_handleUpdate {k : LevelKey} {p : ℚ} {lockPrice : Option ℚ} (hs : Sound K s) :
    Under (terms K) (onLocks (ProfitLock.Engine.handleUpdate (ω := Owner) k p lockPrice))
      (fun _ o' s' => Sound K s' ∧ LockStep k o s o' s') o s := by
  simp only [onLocks, ProfitLock.Engine.handleUpdate, bind_eq, zoom_bind, under_bind, under_zoom_read,
    thenUnder_ok, locksLens_view]
  split
  next =>
    exact under_note hs (fun _ => rfl) (fun _ => rfl) (fun _ => rfl) (fun h => ⟨h, .assign k o s _⟩)
  next => exact ⟨hs, .refl k o s⟩

/-- Whether the policy decides to execute a lock that is in status TRIGGERED. -/
def executes (price : ℚ) (st : ProfitLockState) : Bool :=
  st.enabled && (st.status = .triggered) &&
    match ProfitLock.Policy.calculate st.entryPrice price st.quantity st.side with
    | .ok profit => (ProfitLock.Policy.evaluate price profit st).action = .executeLock
    | .error _ => false

def lockSells (locks : Locks) (k : LevelKey) (price : ℚ) : ℚ :=
  match locks k with
  | none => 0
  | some st => if executes price st then st.quantity else 0

theorem under_lockPriceUpdate {k : LevelKey} {p : ℚ} (hs : Sound K s) (hr : o.replaces k = none)
    (hq : lockSells s.locks k p ≤ o.sells (.lock k)) :
    Under (terms K) (onLocks (ProfitLock.Engine.onPriceUpdate .lock k p))
      (fun _ o' s' => Sound K s' ∧ LockStep k o s o' s') o s := by
  simp only [onLocks, ProfitLock.Engine.onPriceUpdate, bind_eq, zoom_bind, under_bind, under_zoom_read,
    thenUnder_ok, locksLens_view]
  cases hk : s.locks k with
  | none => exact ⟨hs, .refl k o s⟩
  | some st =>
      simp only
      split
      next => exact ⟨hs, .refl k o s⟩
      next hen =>
        split
        next => exact ⟨hs, .refl k o s⟩
        next =>
          simp only [zoom_bind, under_bind, under_zoom_lift]
          cases hc : ProfitLock.Policy.calculate st.entryPrice p st.quantity st.side with
          | error e => exact ⟨hs, .refl k o s⟩
          | ok profit =>
              simp only [thenUnder_ok, ProfitLock.Engine.act]
              split
              next => exact ⟨hs, .refl k o s⟩
              next => exact under_handleTrigger hs
              next => exact under_handleUpdate hs
              next hexec =>
                have hq' : ∀ st', s.locks k = some st' → st'.status = .triggered →
                    st'.quantity ≤ o.sells (.lock k) := by
                  intro st' hk' htrig
                  cases hk.symm.trans hk'
                  simpa [lockSells, hk, executes, htrig, hc, hexec, hen] using hq
                unfold ProfitLock.Engine.handleExecute
                split
                next => exact ⟨hs, .refl k o s⟩
                next lockPrice _ =>
                  simp only [bind_eq, zoom_bind, under_bind]
                  refine under_mono (under_placeLockOrder hs hr hq') ?_
                  rintro (e | b) o' s' h
                  · exact h
                  · exact h

def switchOff (st : ProfitLockState) : ProfitLockState :=
  { st with enabled := false, isTriggered := false, lockOrderId := none }

theorem fine_switchOff {k : LevelKey} (hs : Sound K s) :
    Fine K o s (zoom locksLens (.bind (ProfitLock.Engine.transition (ω := Owner) k .disabled)
      (fun _ => .bind (ProfitLock.Engine.assign k switchOff) (fun _ => .ret true)))) := by
  simp only [Fine, zoom_bind, under_bind]
  refine under_transition hs (by decide) ?_ (fun e => trivial)
  intro s1 st hk hm hs1 hsound
  have hk1 : s1.locks k = some { st with status := .disabled } := by
    rw [hs1]; exact Function.update_self _ _ _
  simp only [thenUnder_ok, under_bind]
  refine ⟨?_, trivial, trivial⟩
  simp only [locksLens_view, locksLens_set, ProfitLock.State.Store.assign, hk1]
  exact hsound.putLock hk1 rfl (fun _ => rfl) (fun _ => rfl)

theorem fine_disable {k : LevelKey} (hs : Sound K s) (ho : o.mayCancel = true) :
    Fine K o s (onLocks (ProfitLock.Engine.disable (ω := Owner) k)) := by
  simp only [Fine, onLocks, ProfitLock.Engine.disable, bind_eq, zoom_bind, under_bind, under_zoom_read,
    thenUnder_ok, locksLens_view]
  cases hk : s.locks k with
  | none => trivial
  | some st =>
      simp only
      split
      next =>
        rw [zoom_bind, under_bind, tryCatch_eq, zoom_tryCatch, under_tryCatch, zoom_bind, under_bind]
        refine under_cancelOrder_lock ho ?_
        rintro (e | result)
        · exact fine_switchOff hs
        · exact fine_switchOff hs
      next => exact fine_switchOff hs

theorem fine_onPositionUpdate {k : LevelKey} {entryPrice quantity : ℚ} (hs : Sound K s) :
    Fine K o s (onLocks (ProfitLock.Engine.onPositionUpdate (ω := Owner) k entryPrice quantity)) :=
  under_note hs (fun _ => rfl) (fun _ => rfl) (fun _ => rfl) (fun _ => trivial)

theorem fine_transition_note {k : LevelKey} {target : ProfitLockStatus}
    {f : ProfitLockState → ProfitLockState} (hs : Sound K s) (ht : target ≠ .monitoring ∧ target ≠ .cancelled)
    (hside : ∀ st, (f st).side = st.side) (hen : ∀ st, (f st).enabled = st.enabled)
    (hst : ∀ st, (f st).status = st.status) :
    Fine K o s (zoom locksLens (.bind (ProfitLock.Engine.transition (ω := Owner) k target)
      (fun _ => ProfitLock.Engine.assign k f))) := by
  rw [Fine, zoom_bind, under_bind]
  refine under_transition hs ht ?_ (fun e => trivial)
  intro s1 st hk hm hs1 hsound
  exact under_note hsound hside hen hst (fun _ => trivial)

theorem fine_onOrderFilled {k : LevelKey} {orderId : OrderId} (hs : Sound K s) :
    Fine K o s (onLocks (ProfitLock.Engine.onOrderFilled (ω := Owner) k orderId)) := by
  simp only [Fine, onLocks, ProfitLock.Engine.onOrderFilled, bind_eq, zoom_bind, under_bind, under_zoom_read,
    thenUnder_ok, locksLens_view]
  split
  next => trivial
  next =>
    split
    next => trivial
    next =>
      split
      next => trivial
      next => exact fine_transition_note hs (by decide) (fun _ => rfl) (fun _ => rfl) (fun _ => rfl)

theorem fine_onOrderCancelled {k : LevelKey} {orderId : OrderId} (hs : Sound K s) :
    Fine K o s (onLocks (ProfitLock.Engine.onOrderCancelled (ω := Owner) k orderId)) := by
  simp only [Fine, onLocks, ProfitLock.Engine.onOrderCancelled, bind_eq, zoom_bind, under_bind, under_zoom_read,
    thenUnder_ok, locksLens_view]
  split
  next => trivial
  next =>
    split
    next => trivial
    next =>
      split
      next => trivial
      next => exact fine_transition_note hs (by decide) (fun _ => rfl) (fun _ => rfl) (fun _ => rfl)

theorem fine_executeLock {k : LevelKey} {p : ℚ} (hs : Sound K s) (hr : o.replaces k = none)
    (hq : ∀ st, s.locks k = some st → st.status = .triggered → st.quantity ≤ o.sells (.lock k)) :
    Fine K o s (onLocks (ProfitLock.Engine.executeLock .lock k p)) := by
  simp only [Fine, onLocks, ProfitLock.Engine.executeLock, bind_eq, zoom_bind, under_bind, under_zoom_read,
    thenUnder_ok, locksLens_view]
  split
  next => trivial
  next => exact under_mono (under_placeLockOrder hs hr hq) (fun _ _ _ _ => trivial)

theorem fine_enable {k : LevelKey} {args : ProfitLock.Engine.EnableArgs} (hs : Sound K s) (hk : k ∉ K)
    (hside : args.side = "long") :
    Fine K o s (onLocks (ProfitLock.Engine.enable (ω := Owner) k args)) := by
  unfold ProfitLock.Engine.enable
  split
  next => trivial
  next =>
    split
    next => trivial
    next =>
      split
      next => trivial
      next =>
        refine ⟨⟨hs.numbered, ?_, ?_⟩, trivial, trivial⟩
        · intro j st hj
          by_cases hjk : j = k
          · subst hjk
            simp only [locksLens_set, locksLens_view, ProfitLock.State.Store.put, Function.update_self,
              Option.some.injEq] at hj
            subst hj
            exact ⟨hside, fun h => by simp [ProfitLock.Engine.enabledState] at h⟩
          · simp only [locksLens_set, locksLens_view, ProfitLock.State.Store.put,
              Function.update_of_ne hjk] at hj
            exact hs.locksOk j st hj
        · intro j hjK st hj
          have hjk : j ≠ k := fun h => hk (h ▸ hjK)
          simp only [locksLens_set, locksLens_view, ProfitLock.State.Store.put,
            Function.update_of_ne hjk] at hj
          exact hs.off j hjK st hj

end Utos.Grid.LockTerms
