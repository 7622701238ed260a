import Utos.Coroutine.Pool
import Utos.Process.Registry

namespace Utos.Process.Bystanders

open Coroutine Program Core Core.DomainTypes Core.Exceptions StateMachine Manager Wiring Lifecycle Records Registry

/-- The processes that exist keep the instance and the worker they were built for. -/
def Grows (s s' : System) : Prop :=
  s.size ≤ s'.size ∧ ∀ r < s.size, (s'.processes r).instanceId = (s.processes r).instanceId ∧
    (s'.processes r).workerId = (s.processes r).workerId

/-- A write that touches neither the locks nor a registry, and makes no process RUNNING that was not. -/
structure Calms (s s' : System) : Prop where
  keyed : Keyed s.rows → Keyed s'.rows
  locks : s'.locks = s.locks
  registry : ∀ w, (s'.workers w).registry = (s.workers w).registry
  grows : Grows s s'
  status : ∀ r < s.size, (s'.processes r).status = .running → (s.processes r).status = .running

/-- The requests that have nothing to do with a lock and do not end a session. -/
def lockFree : Req → Prop
  | .send (.setState _ _) | .reply (.setState _ _) => True
  | .send _ | .reply _ | .commit => False
  | _ => True

/-- The terms of a program that takes no part in the locking. -/
abbrev aloofTerms : Protocol System Req Ans Unit := .bare (fun s => Keyed s.rows) Calms lockFree

abbrev Aloof {α : Type} (p : Op α) : Prop := Steady aloofTerms () p

theorem grows_refl (s : System) : Grows s s := ⟨le_refl _, fun _ _ => ⟨rfl, rfl⟩⟩

theorem Grows.trans {s s' s'' : System} (h : Grows s s') (h' : Grows s' s'') : Grows s s'' := by
  refine ⟨h.1.trans h'.1, fun r hr => ?_⟩
  have hr' := h.2 r hr
  have hr'' := h'.2 r (Nat.lt_of_lt_of_le hr h.1)
  exact ⟨hr''.1.trans hr'.1, hr''.2.trans hr'.2⟩

theorem calms_rows (s : System) {rows : Rows} (hrows : Keyed s.rows → Keyed rows) : Calms s { s with rows := rows } :=
  ⟨hrows, rfl, fun _ => rfl, grows_refl s, fun _ _ h => h⟩

theorem keyed_persist {s : System} (row : TradingInstance) (status : TradingInstanceStatus) (hs : Keyed s.rows) :
    Keyed (s.rows.set row.id (((s.rows.get row.id).getD row).withStatus status)) := by
  refine hs.sets ?_ (sets_set _ _ _)
  cases hrow : s.rows.get row.id with
  | none => rfl
  | some row' => exact hs row.id row' hrow

theorem calms_worker (s : System) (w : WorkerId) {f : Worker → Worker} (hf : ∀ x : Worker, (f x).registry = x.registry) :
    Calms s (s.setWorker w f) := by
  refine ⟨id, rfl, fun w' => ?_, grows_refl s, fun _ _ h => h⟩
  by_cases hw : w' = w
  · subst hw
    simp [System.setWorker, hf]
  · simp [System.setWorker, hw]

theorem calms_process (s : System) (ref : Nat) {f : TradingProcess → TradingProcess}
    (hf : ∀ p : TradingProcess, (f p).instanceId = p.instanceId ∧ (f p).workerId = p.workerId)
    (hstatus : ∀ p : TradingProcess, (f p).status = .running → p.status = .running) : Calms s (s.setProcess ref f) := by
  refine ⟨id, rfl, fun _ => rfl, ⟨le_refl _, fun r _ => ?_⟩, fun r _ hr => ?_⟩
  · by_cases hrr : r = ref
    · subst hrr
      simpa [System.setProcess] using hf _
    · simp [System.setProcess, hrr]
  · by_cases hrr : r = ref
    · subst hrr
      exact hstatus _ (by simpa [System.setProcess] using hr)
    · simpa [System.setProcess, hrr] using hr

theorem calms_newProcess (s : System) (p : TradingProcess) : Calms s (s.newProcess p) := by
  refine ⟨id, rfl, fun _ => rfl, ⟨Nat.le_succ _, fun r hr => ?_⟩, fun r hr hrun => ?_⟩
  · simp [System.newProcess, Nat.ne_of_lt hr]
  · simpa [System.newProcess, Nat.ne_of_lt hr] using hrun

theorem aloof_await {α : Type} {q : Req} (as : Ans q → Except Exn α) (hq : lockFree q) : Aloof (await q as) :=
  steady_await as (fun _ _ => hq) rfl

theorem aloof_modify {f : System → System} (hf : ∀ s, Calms s (f s)) : Aloof (modify f) :=
  steady_modify (fun s hs => ⟨(hf s).keyed hs, hf s⟩)

theorem aloof_read {α : Type} {f : System → Op α} (hf : ∀ s, Aloof (f s)) : Aloof (Program.bind read f) :=
  steady_read_bind (fun s _ => hf s)

theorem aloof_raiseIf (c : Prop) [Decidable c] (exc : Exn) : Aloof (raiseIf c exc) := by
  unfold raiseIf
  split
  · exact steady_raise exc
  · exact steady_ret ()

theorem aloof_onGrid {α : Type} (w : WorkerId) (p : Grid.Engine.Op α) : Aloof (onGrid w p) :=
  steady_component (gridLens w) _ _
    (fun s grid hs => ⟨hs, calms_worker s w (f := fun x => { x with grid := grid }) (fun _ => rfl)⟩) (fun _ => trivial) p

theorem aloof_getInstance (i : InstanceId) : Aloof (getInstance i) := by
  refine steady_bind (aloof_await _ trivial) (fun _ => aloof_read (fun s => ?_))
  cases s.rows.get i with
  | none => exact steady_raise _
  | some row => exact steady_ret row

theorem aloof_getAccount (id : UUID) : Aloof (getAccount id) := by
  refine steady_bind (aloof_await _ trivial) (fun account => ?_)
  cases account with
  | none => exact steady_raise _
  | some account => exact steady_ret account

theorem aloof_validateAccount (account : Account) : Aloof (validateAccount account) :=
  steady_bind (aloof_raiseIf _ _) (fun _ => aloof_raiseIf _ _)

theorem aloof_authenticateAdapter (account : Account) : Aloof (authenticateAdapter account) := by
  refine steady_bind (steady_lift _) (fun _ => steady_bind (aloof_await _ trivial) (fun _ => ?_))
  exact steady_bind (aloof_await _ trivial) (fun _ => aloof_raiseIf _ _)

theorem aloof_validateSymbol (exchangeName symbol : String) : Aloof (validateSymbol exchangeName symbol) :=
  steady_bind (aloof_await _ trivial) (fun _ => aloof_raiseIf _ _)

theorem aloof_getByStatus (status : TradingInstanceStatus) : Aloof (getByStatus status) :=
  steady_bind (aloof_await _ trivial) (fun _ => aloof_read (fun _ => steady_ret _))

theorem aloof_checkDuplicateRunning (row : TradingInstance) : Aloof (checkDuplicateRunning row) :=
  steady_bind (aloof_getByStatus _) (fun _ => aloof_raiseIf _ _)

theorem aloof_persistStatus (row : TradingInstance) (status : TradingInstanceStatus) : Aloof (persistStatus row status) := by
  refine steady_bind (aloof_await _ trivial) (fun _ => steady_bind (aloof_modify (fun s => calms_rows s (keyed_persist row status))) (fun _ => ?_))
  exact steady_bind (aloof_await _ trivial) (fun _ => aloof_read (fun _ => steady_ret _))

theorem aloof_flushStatus (row : TradingInstance) (status : TradingInstanceStatus) : Aloof (flushStatus row status) :=
  steady_bind (aloof_await _ trivial) (fun _ => aloof_modify (fun s => calms_rows s (keyed_persist row status)))

theorem aloof_call {q : Req} (hq : lockFree q) : Aloof (.call q .ret) :=
  fun _ _ => ⟨hq, fun _ _ _ hi _ => ⟨rfl, hi⟩⟩

theorem aloof_setState (w : WorkerId) (i : InstanceId) : Aloof (setState w i) := by
  refine steady_bind (steady_bind (aloof_call trivial) (fun fate => ?_)) (fun _ => steady_ret ())
  split
  · refine steady_bind (steady_attempt (fun s a s' _ hs => ?_)) (fun a => steady_bind (aloof_call trivial) (fun _ => ?_))
    · cases hs
      exact ⟨‹_›, calms_rows s id⟩
    · split
      · exact steady_ret _
      · exact steady_ret _
  · exact steady_ret none

theorem aloof_setStatus (ref : Nat) {status : TradingInstanceStatus} (hstatus : status ≠ .running) :
    Aloof (setProcessStatus ref status) :=
  aloof_modify (fun s => calms_process s ref (fun _ => ⟨rfl, rfl⟩) (fun _ h => absurd h hstatus))

theorem aloof_setSubscription (ref : Nat) (sub : Option Nat) : Aloof (setSubscription ref sub) :=
  aloof_modify (fun s => calms_process s ref (fun _ => ⟨rfl, rfl⟩) (fun _ h => h))

theorem aloof_subscribe (w : WorkerId) (exchangeName : String) (row : TradingInstance) :
    Aloof (subscribe w exchangeName row) := by
  refine steady_bind (aloof_await _ trivial) (fun _ => aloof_read (fun _ => ?_))
  exact steady_bind (aloof_modify (fun s => calms_worker s w (fun _ => rfl))) (fun _ => steady_ret _)

theorem aloof_unsubscribe (w : WorkerId) (sub : Nat) : Aloof (unsubscribe w sub) :=
  steady_bind (aloof_modify (fun s => calms_worker s w (fun _ => rfl))) (fun _ => aloof_await _ trivial)

theorem aloof_setupBreaker (w : WorkerId) (row : TradingInstance) (price : ℚ) : Aloof (setupBreaker w row price) :=
  steady_bind (aloof_await _ trivial) (fun _ => aloof_onGrid w _)

theorem aloof_wireGrid (w : WorkerId) (row : TradingInstance) (ref : Nat) (profile : GridProfile)
    (steps : Grid.Calculator.AveragingSteps) : Aloof (wireGrid w row ref profile steps) := by
  refine aloof_read (fun s => steady_bind (aloof_await _ trivial) (fun price => ?_))
  refine steady_bind (aloof_onGrid w _) (fun _ => steady_bind (aloof_onGrid w _) (fun _ => ?_))
  have hsubscribe : Aloof (do
      let sub ← subscribe w (s.processes ref).exchangeName row
      setSubscription ref (some sub)) :=
    steady_bind (aloof_subscribe w _ row) (fun _ => aloof_setSubscription ref _)
  split
  · exact steady_bind (aloof_setupBreaker w row price) (fun _ => hsubscribe)
  · exact hsubscribe

theorem aloof_wire (w : WorkerId) (row : TradingInstance) (ref : Nat) : Aloof (wire w row ref) := by
  refine aloof_read (fun s => ?_)
  split
  · exact steady_ret ()
  · refine steady_bind (aloof_await _ trivial) (fun found => ?_)
    cases found with
    | none => exact steady_ret ()
    | some profile =>
        refine steady_bind (aloof_await _ trivial) (fun steps => ?_)
        exact steady_tryCatch (aloof_wireGrid w row ref profile _) (fun _ => steady_ret ())

theorem aloof_unwire (w : WorkerId) (row : TradingInstance) (ref : Nat) : Aloof (unwire w row ref) := by
  have hprocess : Aloof (unsubscribeProcess w ref) := by
    refine aloof_read (fun s => ?_)
    cases (s.processes ref).subscriptionId with
    | none => exact steady_ret ()
    | some sub =>
        simp only
        split
        · exact steady_bind (steady_tryCatch (aloof_unsubscribe w sub) (fun _ => steady_ret ()))
            (fun _ => aloof_setSubscription ref none)
        · exact aloof_setSubscription ref none
  refine steady_bind hprocess (fun _ => aloof_read (fun s => ?_))
  split
  · exact steady_tryCatch (steady_bind (aloof_onGrid w _) (fun _ => steady_ret ())) (fun _ => steady_ret ())
  · exact steady_ret ()

theorem aloof_dismantle (w : WorkerId) (row : TradingInstance) : Aloof (dismantle w row) := by
  refine steady_bind (aloof_read (fun _ => steady_ret _)) (fun found => ?_)
  cases found with
  | none => exact steady_ret ()
  | some ref =>
      refine steady_bind (aloof_setStatus ref (by decide)) (fun _ => steady_bind (aloof_unwire w row ref) (fun _ => ?_))
      exact aloof_read (fun _ => steady_tryCatch (aloof_await _ trivial) (fun _ => steady_ret ()))

theorem aloof_checkRecords (args : CreateArgs) : Aloof (checkRecords args) := by
  refine steady_bind (aloof_await _ trivial) (fun account => ?_)
  cases account with
  | none => exact steady_raise _
  | some account =>
      refine steady_bind (aloof_raiseIf _ _) (fun _ => steady_bind (aloof_await _ trivial) (fun _ => ?_))
      refine steady_bind (aloof_raiseIf _ _) (fun _ => steady_bind (aloof_await _ trivial) (fun _ => ?_))
      exact steady_bind (aloof_raiseIf _ _) (fun _ => aloof_raiseIf _ _)

theorem aloof_createProcess (i : InstanceId) (args : CreateArgs) : Aloof (createProcess i args) := by
  refine steady_bind (aloof_checkRecords args) (fun _ => steady_bind (aloof_await _ trivial) (fun _ => ?_))
  refine aloof_read (fun _ => steady_bind (aloof_raiseIf _ _) (fun _ => steady_bind (aloof_await _ trivial) (fun _ => ?_)))
  refine steady_attempt (fun s a s' hkeyed hs => ?_)
  cases hrow : s.rows.get i with
  | some row =>
      rw [hrow] at hs
      cases hs
  | none =>
      rw [hrow] at hs
      cases hs
      have hset : Keyed (s.rows.set i (newInstance i args)) :=
        Keyed.sets hkeyed (rfl : (newInstance i args).id = i) (sets_set _ _ _)
      exact ⟨hset, calms_rows s (fun _ => hset)⟩

theorem aloof_prepare (i : InstanceId) (userId : UUID) : Aloof (prepare i userId) := by
  refine steady_bind (aloof_getInstance i) (fun row => steady_bind (aloof_raiseIf _ _) (fun _ => ?_))
  refine steady_bind (steady_lift _) (fun _ => steady_bind (aloof_getAccount _) (fun account => ?_))
  refine steady_bind (aloof_await _ trivial) (fun _ => steady_bind (aloof_raiseIf _ _) (fun _ => ?_))
  refine steady_bind (aloof_validateAccount account) (fun _ => steady_bind (aloof_authenticateAdapter account) (fun _ => ?_))
  exact steady_bind (aloof_validateSymbol _ _) (fun _ => aloof_persistStatus row _)

theorem aloof_symbolSupported (exchangeName symbol : String) : Aloof (symbolSupported exchangeName symbol) := by
  refine steady_tryCatch (steady_bind (aloof_validateSymbol _ _) (fun _ => steady_ret true)) (fun exc => ?_)
  split
  · exact steady_ret false
  · exact steady_raise exc

theorem under_bind_aloof {α β : Type} {p : Op α} {f : α → Op β} {R : Except Exn β → Unit → System → Prop} {s : System}
    (hp : Aloof p) (hs : Keyed s.rows) (herr : ∀ e s', Keyed s'.rows → R (.error e) () s')
    (hf : ∀ a s', Keyed s'.rows → Under aloofTerms (f a) R () s') : Under aloofTerms (p >>= f) R () s := by
  rw [bind_eq, under_bind]
  refine under_mono (hp s hs) ?_
  rintro (e | a) o s' ⟨-, hs'⟩
  · exact herr e s' hs'
  · exact hf a s' hs'

theorem under_getInstance (i : InstanceId) {s : System} (hs : Keyed s.rows) :
    Under aloofTerms (getInstance i) (fun r _ _ => ∀ row, r = .ok row → row.id = i) () s := by
  refine under_bind_aloof (aloof_await _ trivial) hs (fun _ _ _ _ hr => by cases hr) (fun _ s1 h1 => ?_)
  rw [bind_eq, under_bind, under_read, thenUnder_ok]
  cases hrow : s1.rows.get i with
  | none => exact fun row hr => by cases hr
  | some row =>
      refine fun row' hr => ?_
      cases hr
      exact h1 i row hrow

end Utos.Process.Bystanders
