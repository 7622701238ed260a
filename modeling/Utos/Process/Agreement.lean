import Utos.Process.Beside
import Utos.Process.Conformance

namespace Utos.Process.Agreement

open Coroutine Program Core Core.DomainTypes Core.Exceptions Execution.Service
open StateMachine Manager Wiring Lifecycle Records Moves Recovery Registry Market BlindOrders Beside
open Conformance (Checked EachTurn StatusTurns RecoverTurns)
open Grid.Engine hiding Op

/-- The operations of the manager of one worker. -/
inductive Operation
  | createProcess (i : InstanceId) (args : CreateArgs)
  | prepare (i : InstanceId) (userId : UUID)
  | start (i : InstanceId) (userId : UUID)
  | pause (i : InstanceId) (userId : UUID)
  | resume (i : InstanceId) (userId : UUID)
  | stop (i : InstanceId) (userId : UUID)
  | recover

/-- One operation runs to its end, or the worker is restarted, a lock expires, or the outside world changes. -/
inductive Event (W : Type)
  | op (o : Operation)
  | restart (gridUp hubUp : Bool)
  | expire (i : InstanceId)
  | world (ω : W)

variable {W : Type} (h : Handler W Req Ans) (w : WorkerId)

def Operation.call : Operation → Call
  | .createProcess i args => .createProcess i args
  | .prepare i userId => .prepare i userId
  | .start i userId => .start w i userId
  | .pause i userId => .pause w i userId
  | .resume i userId => .resume w i userId
  | .stop i userId => .stop w i userId
  | .recover => .recover w

def Event.here : Event W → Runs.Event W
  | .op o => .call (o.call w)
  | .restart gridUp hubUp => .restart w gridUp hubUp
  | .expire i => .expire i
  | .world ω => .world ω

def step (x : System × W) (e : Event W) : System × W := Runs.step h x (e.here w)

def Running (s : System) (i : InstanceId) : Prop := ∃ row, s.rows.get i = some row ∧ row.status = .running

/-- The instances that are persisted as RUNNING are wired. -/
def Agree (s : System) : Prop := ∀ i, Running s i → Wired w i s

/-- The wiring, if it returns, has been carried out to its end: both engines are
up, the profile is found, and no exception is logged. -/
def Wires (row : TradingInstance) (ref : Nat) (s : System) (ω : W) : Prop :=
  (s.workers w).gridUp = true ∧ (s.workers w).hubUp = true ∧
    ∀ found, (h ω (.gridProfile row.gridProfileId)).1 = .ok found → ∃ profile, found = some profile ∧
      ∀ steps, (h (h ω (.gridProfile row.gridProfileId)).2 (.averaging row.id)).1 = .ok steps →
        (run h (wireGrid w row ref profile (orTemplate steps)) s
          (h (h ω (.gridProfile row.gridProfileId)).2 (.averaging row.id)).2).1 = .ok ()

/-- Nothing that is left of the call fails, the commit included. -/
def GoesThrough (p : Op TradingInstance) (s : System) (ω : W) : Prop :=
  wp h p (fun r _ ω' => (∃ a, r = .ok a) ∧ (h ω' .commit).1 = .ok ()) s ω

/-- The part of pause up to its unwiring. -/
def untilUnwired (i : InstanceId) (userId : UUID) : Op (TradingInstance × Nat) := do
  let row ← getInstance i
  validateOwnership row userId
  .lift (validateTransition row.status .paused)
  let ref ← getOrBuild w row
  unwire w row ref
  return (row, ref)

def afterUnwiring (i : InstanceId) (found : TradingInstance × Nat) : Op TradingInstance := do
  setProcessStatus found.2 .paused
  let row ← persistStatus found.1 .paused
  setState w i
  releaseLock w i
  return row

/-- The part of stop up to the end of its process. -/
def untilDismantled (i : InstanceId) (userId : UUID) : Op TradingInstance := do
  let row ← getInstance i
  validateOwnership row userId
  .lift (validateTransition row.status .stopping)
  flushStatus row .stopping
  dismantle w row
  return row

def afterDismantling (i : InstanceId) (row : TradingInstance) : Op TradingInstance := do
  releaseLock w i
  unregister w i
  let row ← persistStatus row .stopped
  setState w i
  return row

theorem pause_eq (i : InstanceId) (userId : UUID) :
    pause w i userId = untilUnwired w i userId >>= afterUnwiring w i := by
  simp only [pause, untilUnwired, bind_eq, bind_assoc]
  rfl

theorem stop_eq (i : InstanceId) (userId : UUID) :
    stop w i userId = untilDismantled w i userId >>= afterDismantling w i := by
  simp only [stop, untilDismantled, bind_eq, bind_assoc]
  rfl

def Meets (x : System × W) : Event W → Prop
  | .op (.start i userId) => wp h (beforeWiring w i userId) (onOk fun found s ω =>
      (∀ sub, (sub, i) ∉ (s.workers w).subs) ∧ Wires h w found.1 found.2 s ω) x.1 x.2
  | .op (.pause i userId) => Running x.1 i →
      wp h (untilUnwired w i userId) (onOk fun found s ω => GoesThrough h (afterUnwiring w i found) s ω) x.1 x.2
  | .op (.stop i userId) => Running x.1 i →
      wp h (untilDismantled w i userId) (onOk fun row s ω => GoesThrough h (afterDismantling w i row) s ω) x.1 x.2
  | .op (.resume i userId) => ∀ row, x.1.rows.get i = some row → row.userId = userId →
      .running ∈ transitions row.status → Wired w i x.1
  | .op .recover => RecoverTurns h w (fun row s ω => row.status = .running → ¬ Checked h w row s ω) x.1 x.2
  | .restart _ _ => ∀ i, ¬ Running x.1 i
  | _ => True

variable {h w} {s : System} {ω : W} {i : InstanceId} {ref : Nat} {row : TradingInstance} {userId : UUID}

/-- The grid of the instance is ACTIVE, its process is registered, and it has no subscription yet. -/
def ToConnect (w : WorkerId) (i : InstanceId) (ref : Nat) (s : System) : Prop :=
  GridActive i (s.workers w).grid ∧ (s.workers w).registry i = some ref ∧ ∀ sub, (sub, i) ∉ (s.workers w).subs

theorem ToConnect.connect (hs : ToConnect w i ref s) :
    Wired w i ((s.setWorker w (fun y => subscribed y i)).setProcess ref
      (fun p => { p with subscriptionId := some (s.workers w).nextSub })) := by
  obtain ⟨hactive, hreg, hnone⟩ := hs
  have hself : ((s.setWorker w (fun y => subscribed y i)).setProcess ref
      (fun p => { p with subscriptionId := some (s.workers w).nextSub })).workers w = subscribed (s.workers w) i := by
    simp [System.setProcess, System.setWorker]
  rw [Wired, hself]
  refine ⟨hactive, ref, (s.workers w).nextSub, hreg, by simp [System.setProcess], ?_⟩
  have hold : (s.workers w).subs.filter (fun e => e.2 = i) = [] := by
    refine List.filter_eq_nil_iff.mpr (fun e he hei => hnone e.1 ?_)
    rw [← of_decide_eq_true hei]
    exact he
  simp [subscribed, List.filter_append, hold]

theorem wp_wireGrid_wired {profile : GridProfile} {steps : Grid.Calculator.AveragingSteps}
    (hreg : (s.workers w).registry row.id = some ref) (hnone : ∀ sub, (sub, row.id) ∉ (s.workers w).subs) :
    wp h (wireGrid w row ref profile steps) (onOk fun _ s' _ => Wired w row.id s') s ω := by
  have hconnect : ∀ exchangeName s1 ω1, ToConnect w row.id ref s1 →
      wp h (Program.bind (subscribe w exchangeName row) (fun sub => setSubscription ref (some sub)))
        (onOk fun _ s' _ => Wired w row.id s') s1 ω1 := by
    intro exchangeName s1 ω1 h1
    rw [wp_bind, subscribe, bind_eq]
    exact wp_bind_await (fun e _ => trivial) (fun u _ => h1.connect)
  rw [wireGrid, bind_eq, wp_bind, wp_read, andThen_ok, bind_eq]
  refine wp_bind_await (fun e _ => trivial) (fun price _ => ?_)
  rw [bind_eq, wp_bind, wp_onGrid]
  refine wp_initializeGrid (fun e _ => trivial) (fun state g grid _ hg hinit => ?_)
  rw [andThen_ok, bind_eq, wp_bind, wp_onGrid]
  refine wp_mono (wp_activateGrid (by simpa using hg) hinit price) ?_
  rintro (e | u) grid' ω' hactive
  · exact trivial
  rw [andThen_ok]
  have hs : ToConnect w row.id ref (withGrid (withGrid s w grid) w grid') := by
    simp only [ToConnect, withGrid_workers]
    exact ⟨hactive, hreg, hnone⟩
  split
  · rw [bind_eq, wp_bind, setupBreaker, bind_eq]
    refine wp_bind_await (fun e _ => trivial) (fun config _ => ?_)
    rw [wp_onGrid, configureCircuitBreaker, wp_modify, andThen_ok]
    refine hconnect _ _ _ ?_
    simp only [ToConnect, withGrid_workers]
    exact ⟨hactive, hreg, hnone⟩
  · exact hconnect _ _ _ hs

theorem wp_wire_wired (hreg : (s.workers w).registry row.id = some ref)
    (hnone : ∀ sub, (sub, row.id) ∉ (s.workers w).subs) (hwires : Wires h w row ref s ω) :
    wp h (wire w row ref) (onOk fun _ s' _ => Wired w row.id s') s ω := by
  obtain ⟨hgrid, hhub, hwires⟩ := hwires
  rw [wire, bind_eq, wp_bind, wp_read, andThen_ok, if_neg (by simp [hgrid, hhub]), bind_eq]
  refine wp_bind_await (fun e _ => trivial) (fun found hfound => ?_)
  obtain ⟨profile, rfl, hwires⟩ := hwires found hfound
  simp only
  rw [bind_eq]
  refine wp_bind_await (fun e _ => trivial) (fun steps hsteps => ?_)
  have hdone := hwires steps hsteps
  rw [tryCatch_eq, wp_tryCatch]
  have hwired : wp h (wireGrid w row ref profile (orTemplate steps)) (onOk fun _ s' _ => Wired w row.id s') s
      (h (h ω (.gridProfile row.gridProfileId)).2 (.averaging row.id)).2 := wp_wireGrid_wired hreg hnone
  unfold wp at hwired ⊢
  rw [hdone] at hwired ⊢
  exact hwired

theorem watched_one (htidy : Tidy w s) (hwired : Wired w i s) : Watched w (fun j => j = i) s :=
  ⟨htidy, fun _ hj => hj ▸ hwired⟩

theorem keeps_wired_persist (row : TradingInstance) (status : TradingInstanceStatus) :
    Keeps h (fun s _ => Wired w i s) (persistStatus row status) :=
  keeps_persistStatus (calm _) (fun _ _ _ hs => hs) row status

theorem wp_start_wired (hkeyed : Keyed s.rows) (htidy : Tidy w s)
    (hmeets : wp h (beforeWiring w i userId) (onOk fun found s ω =>
      (∀ sub, (sub, i) ∉ (s.workers w).subs) ∧ Wires h w found.1 found.2 s ω) s ω) :
    wp h (start w i userId) (onOk fun _ s' _ => Wired w i s') s ω := by
  have hs : Watched w (fun _ => False) s := ⟨htidy, fun _ hj => hj.elim⟩
  rw [start_eq, bind_eq, wp_bind]
  refine wp_mono (wp_and (wp_beforeWiring hkeyed hs id) hmeets) ?_
  rintro (e | found) s1 ω1 ⟨⟨h1, hfound⟩, hready⟩
  · exact trivial
  obtain ⟨hid, hheld⟩ := hfound found rfl
  subst hid
  rw [andThen_ok, fromWiring, bind_eq, wp_bind]
  refine wp_mono (wp_wire_wired hheld.2 hready.1 hready.2) ?_
  rintro (e | u) s2 ω2 h2
  · exact trivial
  rw [andThen_ok]
  refine wp_of_keeps (J := fun s _ => Wired w found.1.id s) ?_ h2 ?_
  · exact keeps_bind (keeps_wired_persist _ _) (fun _ => keeps_bind (keeps_setState (calm _) w _) (fun _ => keeps_ret _))
  · rintro (e | a) s3 ω3 h3
    · exact trivial
    · exact h3

theorem wp_resume_wired (hkeyed : Keyed s.rows) (htidy : Tidy w s) (hmeets : ∀ row, s.rows.get i = some row →
      row.userId = userId → .running ∈ transitions row.status → Wired w i s) :
    wp h (resume w i userId) (onOk fun _ s' _ => Wired w i s') s ω := by
  refine wp_opened still_true trivial (fun _ _ _ => trivial) (fun row ω1 _ hrow howner hedge => ?_)
  have hid := hkeyed i row hrow
  have hcalm := calm_watched (h := h) (w := w) (K := fun j => j = i)
  have h0 := watched_one htidy (hmeets row hrow howner hedge)
  refine wp_bind_of_keeps (keeps_releaseLock hcalm (fun _ _ _ hs => hs) w i) h0 (fun _ _ _ _ => trivial) (fun _ s1 ω2 h1 => ?_)
  refine wp_bind_of_keeps (keeps_acquireLock hcalm (fun _ _ _ hs => hs) w i) h1 (fun _ _ _ _ => trivial)
    (fun acquired s2 ω3 h2 => ?_)
  refine wp_bind_of_keeps (J := fun s _ => Watched w (fun j => j = i) s) (keeps_raiseIf _ _) h2 (fun _ _ _ _ => trivial)
    (fun _ s3 ω4 h3 => ?_)
  obtain ⟨-, ref, sub, hreg, -⟩ := h3.2 i rfl
  rw [getOrBuild, bind_eq, wp_bind, bind_eq, wp_bind, getProcess, bind_eq, wp_bind, wp_read, andThen_ok, pure_eq, wp_ret,
    andThen_ok, hid, hreg]
  simp only [pure_eq, wp_ret, andThen_ok]
  refine wp_of_keeps (J := fun s _ => Watched w (fun j => j = i) s) ?_ h3 ?_
  · refine keeps_bind (keeps_modify (fun s _ hs => Watched.status hs ref .running)) (fun _ => ?_)
    exact keeps_bind (keeps_persistStatus hcalm (fun _ _ _ hs => hs) row _) (fun _ =>
      keeps_bind (keeps_setState hcalm w i) (fun _ => keeps_ret _))
  · rintro (e | a) s4 ω5 h4
    · exact trivial
    · exact h4.2 i rfl

theorem wp_opened_running {α : Type} {target : TradingInstanceStatus} {f : TradingInstance → Op α}
    (hrunning : Running s i) (htarget : target ∉ transitions .running) :
    wp h (do
      let row ← getInstance i
      validateOwnership row userId
      lift (validateTransition row.status target)
      f row) (fun _ s' _ => s' = s) s ω := by
  obtain ⟨row', hrow', hstatus⟩ := hrunning
  refine wp_opened still_true trivial (fun _ _ _ => rfl) (fun row ω1 _ hrow _ hedge => ?_)
  cases hrow'.symm.trans hrow
  rw [hstatus] at hedge
  exact absurd hedge htarget

theorem wp_unsubscribeProcess_ok : wp h (unsubscribeProcess w ref) (fun r _ _ => r = .ok ()) s ω := by
  rw [unsubscribeProcess, bind_eq, wp_bind, wp_read, andThen_ok]
  cases (s.processes ref).subscriptionId with
  | none => exact rfl
  | some sub =>
      simp only
      split
      · rw [bind_eq, wp_bind, tryCatch_eq, wp_tryCatch, unsubscribe, bind_eq, wp_bind, wp_modify, andThen_ok, wp_await]
        cases (h ω .closeStream).1 with
        | error e => exact rfl
        | ok u => exact rfl
      · exact rfl

theorem wp_unwire_ok : wp h (unwire w row ref) (fun r _ _ => r = .ok ()) s ω := by
  rw [unwire, bind_eq, wp_bind]
  refine wp_mono wp_unsubscribeProcess_ok ?_
  rintro r s1 ω1 rfl
  rw [andThen_ok, bind_eq, wp_bind, wp_read, andThen_ok]
  split
  · rw [tryCatch_eq, wp_tryCatch, bind_eq, wp_bind]
    refine wp_mono (R := fun _ _ _ => True) trivial ?_
    rintro (e | b) s2 ω2 -
    · exact rfl
    · exact rfl
  · exact rfl

theorem wp_dismantle_ok : wp h (dismantle w row) (fun r _ _ => r = .ok ()) s ω := by
  rw [dismantle, bind_eq, wp_bind, getProcess, bind_eq, wp_bind, wp_read, andThen_ok, pure_eq, wp_ret, andThen_ok]
  cases (s.workers w).registry row.id with
  | none => exact rfl
  | some ref =>
      simp only
      rw [bind_eq, wp_bind, setProcessStatus, wp_modify, andThen_ok, bind_eq, wp_bind]
      refine wp_mono wp_unwire_ok ?_
      rintro r s1 ω1 rfl
      rw [andThen_ok, disconnect, bind_eq, wp_bind, wp_read, andThen_ok, tryCatch_eq, wp_tryCatch, wp_await]
      cases (h ω1 (.disconnect (s1.processes ref).exchangeName)).1 with
      | error e => exact rfl
      | ok u => exact rfl

/-- What an operation on an instance must come to: if it returns and the instance
is RUNNING, it is wired; and if it was RUNNING before and the session is rolled
back, it is wired as well. -/
def ComesOut (h : Handler W Req Ans) (w : WorkerId) (i : InstanceId) (s : System) :
    Except Exn TradingInstance → System → W → Prop
  | .ok _, s', ω' => (Running s' i → Wired w i s') ∧ (Running s i → Wired w i s' ∨ (h ω' .commit).1 = .ok ())
  | .error _, s', _ => Running s i → Wired w i s'

theorem wp_perform_self {c : Call} {p : Op TradingInstance} (hc : operation c = one p)
    (hp : wp h p (ComesOut h w i s) s ω) : wp h (perform c) (fun _ s' _ => Running s' i → Wired w i s') s ω := by
  rw [perform, hc]
  refine wp_commit ?_
  rw [one, bind_eq, wp_bind]
  refine wp_mono hp ?_
  rintro (e | a) s' ω' hout
  · exact ⟨fun e _ => hout, fun a ha => by cases ha⟩
  · refine ⟨fun e he => (by cases he), fun a _ => ⟨fun e hrefused hrunning => ?_, fun _ => hout.1⟩⟩
    refine (hout.2 hrunning).resolve_right (fun hdone => ?_)
    cases hdone.symm.trans hrefused

theorem wp_start_self (hkeyed : Keyed s.rows) (htidy : Tidy w s) (hagree : Agree w s)
    (hmeets : wp h (beforeWiring w i userId) (onOk fun found s ω =>
      (∀ sub, (sub, i) ∉ (s.workers w).subs) ∧ Wires h w found.1 found.2 s ω) s ω) :
    wp h (start w i userId) (ComesOut h w i s) s ω := by
  have hstay : wp h (start w i userId) (fun _ s' _ => Running s i → s' = s) s ω :=
    fun hrunning => wp_opened_running hrunning (by simp [transitions])
  refine wp_mono (wp_and (wp_start_wired hkeyed htidy hmeets) hstay) ?_
  rintro (e | a) s' ω' ⟨hwired, hsame⟩
  · exact fun hrunning => hsame hrunning ▸ hagree i hrunning
  · exact ⟨fun _ => hwired, fun _ => .inl hwired⟩

theorem wp_resume_self (hkeyed : Keyed s.rows) (htidy : Tidy w s) (hagree : Agree w s)
    (hmeets : ∀ row, s.rows.get i = some row → row.userId = userId → .running ∈ transitions row.status → Wired w i s) :
    wp h (resume w i userId) (ComesOut h w i s) s ω := by
  have hstay : wp h (resume w i userId) (fun _ s' _ => Running s i → s' = s) s ω :=
    fun hrunning => wp_opened_running hrunning (by simp [transitions])
  refine wp_mono (wp_and (wp_resume_wired hkeyed htidy hmeets) hstay) ?_
  rintro (e | a) s' ω' ⟨hwired, hsame⟩
  · exact fun hrunning => hsame hrunning ▸ hagree i hrunning
  · exact ⟨fun _ => hwired, fun _ => .inl hwired⟩

/-- A pause that does not get past its unwiring has not begun with it. -/
theorem wp_untilUnwired (hwired : Wired w i s) (hkeyed : Keyed s.rows) :
    wp h (untilUnwired w i userId) (fun r s' _ => ∀ e, r = .error e → Wired w i s') s ω := by
  refine wp_opened still_true trivial (fun _ _ _ _ _ => hwired) (fun row ω1 _ hrow _ _ => ?_)
  have hid := hkeyed i row hrow
  obtain ⟨-, ref, sub, hreg, -⟩ := hwired
  rw [getOrBuild, bind_eq, wp_bind, bind_eq, wp_bind, getProcess, bind_eq, wp_bind, wp_read, andThen_ok, pure_eq, wp_ret,
    andThen_ok, hid, hreg]
  simp only [pure_eq, wp_ret, andThen_ok]
  rw [bind_eq, wp_bind]
  refine wp_mono wp_unwire_ok ?_
  rintro r s1 ω2 rfl
  exact fun e he => by cases he

theorem wp_untilDismantled (hwired : Wired w i s) :
    wp h (untilDismantled w i userId) (fun r s' _ => ∀ e, r = .error e → Wired w i s') s ω := by
  refine wp_opened still_true trivial (fun _ _ _ _ _ => hwired) (fun row ω1 _ hrow _ _ => ?_)
  rw [bind_eq, wp_bind]
  refine wp_flushStatus (fun e _ _ => hwired) ?_
  rw [andThen_ok, bind_eq, wp_bind]
  refine wp_mono wp_dismantle_ok ?_
  rintro r s1 ω2 rfl
  exact fun e he => by cases he

theorem wp_takesDown {α : Type} {p : Op α} {f : α → Op TradingInstance}
    (hmoved : wp h (p >>= f) (onOk fun _ s' _ => ¬ Running s' i) s ω)
    (huntil : Running s i → wp h p (fun r s' _ => ∀ e, r = .error e → Wired w i s') s ω)
    (hmeets : Running s i → wp h p (onOk fun a s' ω' => GoesThrough h (f a) s' ω') s ω) :
    wp h (p >>= f) (ComesOut h w i s) s ω := by
  have hback : wp h (p >>= f) (fun r s' ω' => Running s i → (∀ e, r = .error e → Wired w i s') ∧
      ∀ a, r = .ok a → (h ω' .commit).1 = .ok ()) s ω := by
    intro hrunning
    refine (?_ : wp h (p >>= f) (fun r s' ω' => (∀ e, r = .error e → Wired w i s') ∧
      ∀ a, r = .ok a → (h ω' .commit).1 = .ok ()) s ω)
    rw [bind_eq, wp_bind]
    refine wp_mono (wp_and (huntil hrunning) (hmeets hrunning)) ?_
    rintro (e | a) s1 ω1 ⟨herr, hthrough⟩
    · exact ⟨fun _ _ => herr e rfl, fun a ha => by cases ha⟩
    · rw [andThen_ok]
      have hrest : wp h (f a) (fun r _ ω' => (∃ b, r = .ok b) ∧ (h ω' .commit).1 = .ok ()) s1 ω1 := hthrough
      refine wp_mono hrest ?_
      rintro r s2 ω2 ⟨⟨b, rfl⟩, hcommit⟩
      exact ⟨fun e he => (by cases he), fun _ _ => hcommit⟩
  refine wp_mono (wp_and hmoved hback) ?_
  rintro (e | a) s' ω' ⟨hdown, hrest⟩
  · exact fun hrunning => (hrest hrunning).1 e rfl
  · exact ⟨fun hrunning => absurd hrunning hdown, fun hrunning => .inr ((hrest hrunning).2 a rfl)⟩

/-- The instance a call is about. -/
def target : Call → Option InstanceId
  | .createProcess i _ | .prepare i _ | .start _ i _ | .pause _ i _ | .resume _ i _ | .stop _ i _ => some i
  | .recover _ => none

theorem others_of_moved {rows' : Rows} {c : Call} (hm : Moved s rows' c) {j : InstanceId} (hj : target c ≠ some j) :
    rows'.get j = s.rows.get j := by
  have hother : ∀ {i row}, Sets s.rows i row rows' → some i ≠ some j → rows'.get j = s.rows.get j := by
    intro i row hsets hne
    rw [hsets j, if_neg (fun he => hne (congrArg some he.symm))]
  cases hm with
  | created hnew hactive hsets => exact hother hsets hj
  | prepared hrow hedge hsets => exact hother hsets hj
  | started hrow howner hedge hdup hsets => exact hother hsets hj
  | paused hrow hedge hsets => exact hother hsets hj
  | resumed hrow howner hedge hsets => exact hother hsets hj
  | stopped hrow hedge hsets => exact hother hsets hj

theorem not_running_of_sets {row : TradingInstance} {s' : System} (hsets : Sets s.rows i row s'.rows)
    (hstatus : row.status ≠ .running) : ¬ Running s' i := by
  rintro ⟨row', hrow', hrunning⟩
  rw [hsets.get_self] at hrow'
  cases hrow'
  exact hstatus hrunning

/-- The invariant of a run. -/
structure Sound (w : WorkerId) (s : System) : Prop where
  keyed : Keyed s.rows
  tidy : Tidy w s
  agree : Agree w s

theorem Sound.watched (hs : Sound w s) {K : InstanceId → Prop} (hK : ∀ j, K j → Running s j) : Watched w K s :=
  ⟨hs.tidy, fun j hj => hs.agree j (hK j hj)⟩

theorem Sound.one {c : Call} {p : Op TradingInstance} (hs : Sound w s) (hc : operation c = Lifecycle.one p)
    (htarget : target c = some i) (hself : wp h p (ComesOut h w i s) s ω)
    (hothers : ∀ K : InstanceId → Prop, ¬ K i → Watched w K s → wp h p (fun _ s' _ => Watched w K s') s ω) :
    Tidy w (Runs.outcome h (s, ω) c).2.1 ∧ Agree w (Runs.outcome h (s, ω) c).2.1 := by
  have hmine := wp_perform_self hc hself
  have hwatched : wp h (perform c) (fun _ s' _ => Watched w (fun j => Running s j ∧ j ≠ i) s') s ω := by
    rw [perform, hc]
    refine wp_session ?_
    rw [Lifecycle.one, bind_eq, wp_bind]
    refine wp_mono (hothers (fun j => Running s j ∧ j ≠ i) (fun hi => hi.2 rfl) (hs.watched (fun j hj => hj.1))) ?_
    rintro (e | a) s' ω' h'
    · exact ⟨fun _ _ => h', fun a ha => by cases ha⟩
    · exact ⟨fun e he => (by cases he), fun _ _ => ⟨fun _ => h', h'⟩⟩
  have hrecover : ∀ w, c ≠ .recover w := by
    rintro w rfl
    cases htarget
  refine ⟨hwatched.1, fun j hj => ?_⟩
  by_cases hji : j = i
  · subst hji
    exact hmine hj
  · refine hwatched.2 j ⟨?_, hji⟩
    obtain ⟨row, hrow, hstatus⟩ := hj
    refine ⟨row, ?_, hstatus⟩
    rcases perform_moves (ω := ω) (h := h) hs.keyed hrecover with hsame | hm
    · exact (congrArg (fun rows => rows.get j) hsame).symm.trans hrow
    · refine (others_of_moved hm ?_).symm.trans hrow
      rw [htarget]
      exact fun he => hji (Option.some_inj.mp he).symm

/-- An operation that leaves wired what was RUNNING, and makes nothing RUNNING. -/
theorem agree_of_watched {c : Call}
    (hwatched : wp h (operation c) (fun _ s' _ => Watched w (Running s) s') s ω)
    (hrows : ∀ j, Running (Runs.outcome h (s, ω) c).2.1 j → Running s j) :
    Tidy w (Runs.outcome h (s, ω) c).2.1 ∧ Agree w (Runs.outcome h (s, ω) c).2.1 := by
  have hall : wp h (perform c) (fun _ s' _ => Watched w (Running s) s') s ω :=
    wp_session (wp_mono hwatched (fun _ _ _ h' => ⟨fun _ _ => h', fun _ _ => ⟨fun _ => h', h'⟩⟩))
  exact ⟨hall.1, fun j hj => hall.2 j (hrows j hj)⟩

section

variable {K : InstanceId → Prop}

/-- What is watched is wired, and its rows are RUNNING or have been given up. -/
def Turning (w : WorkerId) (K : InstanceId → Prop) (s : System) : Prop :=
  Watched w K s ∧ Keyed s.rows ∧
    ∀ j row, K j → s.rows.get j = some row → row.status = .running ∨ row.status = .error

theorem keeps_restore (hi : ¬ K row.id) : Keeps h (fun s _ => AtHand w K row.id ref s ∨ Held w K row.id ref s)
    (restore w row ref) := by
  have hcalm : Calm h (fun s _ => AtHand w K row.id ref s ∨ Held w K row.id ref s) := calm _
  have hstatus : ∀ status, Keeps h (fun s _ => AtHand w K row.id ref s ∨ Held w K row.id ref s)
      (setProcessStatus ref status) := by
    intro status
    refine keeps_modify (fun s _ hs => ?_)
    rcases hs with hhand | hheld
    · exact .inl (hhand.status status)
    · exact .inr ⟨hheld.1.status ref status, hheld.2⟩
  have hpersist : ∀ status, Keeps h (fun s _ => AtHand w K row.id ref s ∨ Held w K row.id ref s)
      (persistStatus row status) := fun status => keeps_persistStatus hcalm (fun _ _ _ hs => hs) row status
  refine keeps_bind (hstatus _) (fun _ => keeps_bind (hpersist _) (fun _ => ?_))
  refine keeps_bind (hstatus _) (fun _ => keeps_bind (hpersist _) (fun _ => ?_))
  refine keeps_bind (keeps_setState hcalm w _) (fun _ => keeps_bind (keeps_modify (fun s _ hs => ?_)) (fun _ => keeps_ret _))
  refine .inr ?_
  rcases hs with hhand | hheld
  · exact hhand.register hi
  · have hsame : s.registered w row.id (some ref) = s := by
      rw [System.registered, System.setWorker, ← hheld.2, Function.update_eq_self, Function.update_eq_self]
    rw [hsame]
    exact hheld

/-- A turn of recover leaves what is watched alone, if it does not restore it. -/
theorem wp_recoverOne_watched (hs : Turning w K s) (hrow : s.rows.get row.id = some row)
    (hmeets : row.status = .running → ¬ Checked h w row s ω) :
    wp h (recoverOne w row) (fun _ s' _ => Watched w K s') s ω := by
  have hpersist : ∀ status, Keeps h (fun s _ => Watched w K s) (persistStatus row status) :=
    fun status => keeps_persistStatus calm_watched (fun _ _ _ hs => hs) row status
  have hinstance : wp h (recoverInstance w row) (fun _ s' _ => Watched w K s') s ω := by
    rw [recoverInstance, bind_eq, wp_bind]
    refine wp_validate (fun _ => hs.1) (fun hedge => ?_)
    have hchecks : wp h (recoveryChecks w row) (fun r s' _ => Watched w K s' ∧
        ∀ ref, r = .ok (some ref) → AtHand w K row.id ref s') s ω := by
      refine wp_recoveryChecks (J := fun s _ => Watched w K s) calm_watched (fun _ _ _ hs => hs) (fun ref => calm _)
        (fun _ _ _ h1 => h1.1) (fun s1 ω1 h1 => ?_) hs.1
      refine wp_build_atHand h1 (fun e ω' => ⟨h1, fun _ he => by cases he⟩) (fun ref s2 ω2 h2 _ => ⟨h2.1, fun ref' he => ?_⟩)
      cases he
      exact h2
    have hchecked : wp h (recoveryChecks w row) (fun r _ _ => ∀ ref, r = .ok (some ref) → Checked h w row s ω) s ω :=
      fun ref hr => ⟨ref, hr⟩
    rw [andThen_ok, bind_eq, wp_bind]
    refine wp_mono (wp_and hchecks hchecked) ?_
    rintro (e | fit) s1 ω1 ⟨⟨h1, hhand⟩, hfit⟩
    · exact h1
    rw [andThen_ok]
    cases fit with
    | none => exact wp_of_keeps (hpersist _) h1 (fun _ _ _ h2 => h2)
    | some ref =>
        have hi : ¬ K row.id := by
          intro hK
          rcases hs.2.2 row.id row hK hrow with hrunning | herror
          · exact hmeets hrunning (hfit ref rfl)
          · rw [herror] at hedge
            simp [transitions] at hedge
        refine wp_of_keeps (keeps_restore hi) (.inl (hhand ref rfl)) (fun _ s2 _ h2 => ?_)
        exact h2.elim (fun hhand' => hhand'.1) (fun hheld => hheld.1)
  rw [recoverOne, tryCatch_eq, wp_tryCatch, bind_eq, wp_bind]
  refine wp_mono hinstance ?_
  rintro (e | a) s1 ω1 h1
  · rw [andThen_error, orElse_error]
    exact wp_of_keeps (keeps_bind (hpersist _) (fun _ => keeps_ret _)) h1 (fun _ _ _ h2 => h2)
  · exact h1

theorem Turning.sets (hs : Turning w K s) {s' : System} {row' : TradingInstance} (hrow : s.rows.get row.id = some row)
    (hwatched : Watched w K s') (hsets : Sets s.rows row.id row' s'.rows) (hend : Ended row row') :
    Turning w K s' := by
  refine ⟨hwatched, hs.2.1.sets hend.1.id_eq hsets, fun j row'' hK hj => ?_⟩
  rw [hsets j] at hj
  split at hj
  next hji =>
    cases hj
    rcases hend.2 with herror | ⟨hsame, -⟩
    · exact .inr herror
    · rw [hsame]
      exact hs.2.2 row.id row (hji ▸ hK) hrow
  next => exact hs.2.2 j row'' hK hj

theorem wp_recoverAll_watched {rows : List TradingInstance} (hs : Turning w K s)
    (hnodup : (rows.map TradingInstance.id).Nodup) (hrows : ∀ row ∈ rows, s.rows.get row.id = some row)
    (hmeets : EachTurn h w (fun row s ω => row.status = .running → ¬ Checked h w row s ω) rows s ω) :
    wp h (recoverAll w rows) (fun r s' _ => Watched w K s' ∧ ∀ a, r = .ok a → Turning w K s') s ω := by
  induction rows generalizing s ω with
  | nil => exact ⟨hs.1, fun _ _ => hs⟩
  | cons row rows ih =>
      rw [List.map_cons, List.nodup_cons] at hnodup
      have hrow := hrows row List.mem_cons_self
      rw [recoverAll, bind_eq, wp_bind]
      refine wp_mono (wp_and (wp_and (wp_recoverOne_watched hs hrow hmeets.1) (wp_recoverOne hrow)) hmeets.2) ?_
      rintro (e | a) s1 ω1 ⟨⟨h1, hended⟩, hrest⟩
      · exact ⟨h1, fun a ha => by cases ha⟩
      obtain ⟨row', hsets, hend⟩ := hended
      have hcurrent : ∀ other ∈ rows, s1.rows.get other.id = some other := by
        intro other hother
        have hne : other.id ≠ row.id := fun he => hnodup.1 (he ▸ List.mem_map_of_mem hother)
        rw [hsets, if_neg hne]
        exact hrows other (List.mem_cons_of_mem row hother)
      rw [andThen_ok, bind_eq, wp_bind]
      refine wp_mono (ih (hs.sets hrow h1 hsets hend) hnodup.2 hcurrent hrest) ?_
      rintro (e | others) s2 ω2 ⟨h2, hturning⟩
      · exact ⟨h2, fun a ha => by cases ha⟩
      · exact ⟨h2, fun _ _ => hturning others rfl⟩

theorem wp_recoverStatus_watched {status : TradingInstanceStatus} {next : System → W → Prop} (hs : Turning w K s)
    (hmeets : StatusTurns h w (fun row s ω => row.status = .running → ¬ Checked h w row s ω) status next s ω) :
    wp h (recoverStatus w status)
      (fun r s' ω' => Watched w K s' ∧ ∀ a, r = .ok a → Turning w K s' ∧ next s' ω') s ω := by
  rw [recoverStatus, bind_eq, wp_bind]
  have hquery : wp h (getByStatus status) (fun r s' _ => s' = s ∧ ∀ rows, r = .ok rows → rows = rowsWith s status) s ω :=
    wp_getByStatus (fun e _ => ⟨rfl, fun rows hr => by cases hr⟩) (fun _ => ⟨rfl, fun rows hr => by cases hr; rfl⟩)
  refine wp_mono (wp_and hquery hmeets) ?_
  rintro (e | rows) s1 ω1 ⟨⟨rfl, hrows⟩, h1⟩
  · exact ⟨hs.1, fun a ha => by cases ha⟩
  · cases hrows rows rfl
    rw [andThen_ok]
    have hall := wp_recoverAll_watched hs (rowsWith_nodup hs.2.1 status)
      (fun row hrow => rowsWith_current hs.2.1 hrow) h1.1
    refine wp_mono (wp_and hall h1.2) ?_
    rintro (e | res) s2 ω2 ⟨⟨h2, hturning⟩, hnext⟩
    · exact ⟨h2, fun a ha => by cases ha⟩
    · exact ⟨h2, fun _ _ => ⟨hturning res rfl, hnext⟩⟩

theorem wp_recover_watched (hs : Turning w K s)
    (hmeets : RecoverTurns h w (fun row s ω => row.status = .running → ¬ Checked h w row s ω) s ω) :
    wp h (recover w) (fun _ s' _ => Watched w K s') s ω := by
  rw [recover, bind_eq, wp_bind]
  refine wp_mono (wp_recoverStatus_watched hs hmeets) ?_
  rintro (e | running) s1 ω1 ⟨h1, hrest1⟩
  · exact h1
  obtain ⟨hturning1, hmeets1⟩ := hrest1 running rfl
  rw [andThen_ok, bind_eq, wp_bind]
  refine wp_mono (wp_recoverStatus_watched hturning1 hmeets1) ?_
  rintro (e | paused) s2 ω2 ⟨h2, hrest2⟩
  · exact h2
  obtain ⟨hturning2, hmeets2⟩ := hrest2 paused rfl
  rw [andThen_ok, bind_eq, wp_bind]
  refine wp_mono (wp_recoverStatus_watched hturning2 hmeets2) ?_
  rintro (e | recovering) s3 ω3 ⟨h3, -⟩
  · exact h3
  · exact h3

end

theorem running_of_restarted {s' : System} (hr : Restarted s.rows s'.rows) {j : InstanceId} (hj : Running s' j) :
    Running s j := by
  obtain ⟨row', hrow', hstatus⟩ := hj
  rcases hr j with hsame | ⟨row, row'', hrow, hrow'', hend⟩
  · exact ⟨row', hsame.symm.trans hrow', hstatus⟩
  · cases hrow'.symm.trans hrow''
    rcases hend.2 with herror | ⟨hkept, -⟩
    · rw [hstatus] at herror
      cases herror
    · exact ⟨row, hrow, hkept.symm.trans hstatus⟩

theorem running_of_moved {rows' : Rows} {c : Call} {s' : System} (hm : Moved s rows' c) (hrows : s'.rows = rows')
    (hdown : ∀ i, target c = some i → ¬ Running s' i) {j : InstanceId} (hj : Running s' j) : Running s j := by
  have hne : target c ≠ some j := fun he => hdown j he hj
  obtain ⟨row, hrow, hstatus⟩ := hj
  rw [hrows] at hrow
  exact ⟨row, (others_of_moved hm hne).symm.trans hrow, hstatus⟩

theorem Sound.apart {c : Call} {i : InstanceId} (hs : Sound w s) (hc : ∀ w, c ≠ .recover w) (htarget : target c = some i)
    (hkeeps : Keeps h (fun s' _ => Watched w (Running s) s') (operation c))
    (hdown : ∀ rows', Moved s rows' c → ∃ row, Sets s.rows i row rows' ∧ row.status ≠ .running) :
    Tidy w (Runs.outcome h (s, ω) c).2.1 ∧ Agree w (Runs.outcome h (s, ω) c).2.1 := by
  refine agree_of_watched (hkeeps s ω (hs.watched (fun _ hj => hj))) (fun j hj => ?_)
  rcases perform_moves (ω := ω) (h := h) hs.keyed hc with hsame | hm
  · obtain ⟨row, hrow, hstatus⟩ := hj
    exact ⟨row, (congrArg (fun rows => rows.get j) hsame).symm.trans hrow, hstatus⟩
  · refine running_of_moved hm rfl (fun i' hi' => ?_) hj
    rw [htarget] at hi'
    cases hi'
    obtain ⟨row, hsets, hstatus⟩ := hdown _ hm
    exact not_running_of_sets hsets hstatus

theorem tidy_restart (gridUp hubUp : Bool) (hs : Tidy w s) :
    Tidy w (s.setWorker w (fun _ => { gridUp := gridUp, hubUp := hubUp })) := by
  have hself : (s.setWorker w (fun _ => { gridUp := gridUp, hubUp := hubUp })).workers w =
      { gridUp := gridUp, hubUp := hubUp } := by simp [System.setWorker]
  refine ⟨fun w' i ref hreg => hs.1 w' i ref ?_, ?_, ?_⟩
  · by_cases hw : w' = w
    · subst hw
      rw [hself] at hreg
      cases hreg
    · simpa [System.setWorker, hw] using hreg
  · rw [hself]
    intro e he
    cases he
  · rw [hself]
    intro i ref sub hreg
    cases hreg

theorem Sound.step {x : System × W} {e : Event W} (hs : Sound w x.1) (hmeets : Meets h w x e) :
    Sound w (Agreement.step h w x e).1 := by
  have hkeyed : Keyed (Agreement.step h w x e).1.rows := keyed_step hs.keyed (e.here w)
  suffices hrest : Tidy w (Agreement.step h w x e).1 ∧ Agree w (Agreement.step h w x e).1 from
    ⟨hkeyed, hrest.1, hrest.2⟩
  have hcalm := calm_watched (h := h) (w := w) (K := Running x.1)
  cases e with
  | op o =>
      cases o with
      | createProcess i args =>
          refine hs.apart (fun _ hc => by cases hc) rfl
            (keeps_one (keeps_createProcess hcalm (fun _ _ _ hx => hx) i args)) (fun rows' hm => ?_)
          cases hm with
          | created hnew hactive hsets => exact ⟨_, hsets, by simp [newInstance]⟩
      | prepare i userId =>
          refine hs.apart (fun _ hc => by cases hc) rfl
            (keeps_one (keeps_prepare hcalm (fun _ _ _ hx => hx) i userId)) (fun rows' hm => ?_)
          cases hm with
          | prepared hrow hedge hsets => exact ⟨_, hsets, by simp [TradingInstance.withStatus]⟩
      | start i userId =>
          refine hs.one rfl rfl (wp_start_self hs.keyed hs.tidy hs.agree hmeets) (fun K hi hK => ?_)
          exact wp_start_watched hs.keyed hK hi
      | pause i userId =>
          have hmoves : wp h (pause w i userId) (onOk fun _ s' _ => Moved x.1 s'.rows (.pause w i userId)) x.1 x.2 :=
            pause_moves hs.keyed
          rw [pause_eq] at hmoves
          refine hs.one (p := pause w i userId) rfl rfl ?_ (fun K hi hK => wp_pause_watched hs.keyed hK hi)
          rw [pause_eq]
          refine wp_takesDown (wp_mono hmoves ?_) (fun hrunning => wp_untilUnwired (hs.agree i hrunning) hs.keyed) hmeets
          rintro (e | a) s' ω' hm
          · exact trivial
          · cases hm with
            | paused hrow hedge hsets => exact not_running_of_sets hsets (by simp [TradingInstance.withStatus])
      | resume i userId =>
          refine hs.one rfl rfl (wp_resume_self hs.keyed hs.tidy hs.agree hmeets) (fun K hi hK => ?_)
          exact wp_resume_watched hs.keyed hK hi
      | stop i userId =>
          have hmoves : wp h (stop w i userId) (onOk fun _ s' _ => Moved x.1 s'.rows (.stop w i userId)) x.1 x.2 :=
            stop_moves hs.keyed
          rw [stop_eq] at hmoves
          refine hs.one (p := stop w i userId) rfl rfl ?_ (fun K hi hK => wp_stop_watched hs.keyed hK hi)
          rw [stop_eq]
          refine wp_takesDown (wp_mono hmoves ?_) (fun hrunning => wp_untilDismantled (hs.agree i hrunning)) hmeets
          rintro (e | a) s' ω' hm
          · exact trivial
          · cases hm with
            | stopped hrow hedge hsets => exact not_running_of_sets hsets (by simp [TradingInstance.withStatus])
      | recover =>
          refine agree_of_watched (wp_recover_watched ⟨hs.watched (fun _ hj => hj), hs.keyed, ?_⟩ hmeets)
            (fun j hj => running_of_restarted (perform_restarts hs.keyed) hj)
          rintro j row ⟨row', hrow', hstatus⟩ hrow
          cases hrow'.symm.trans hrow
          exact .inl hstatus
  | restart gridUp hubUp => exact ⟨tidy_restart gridUp hubUp hs.tidy, fun j hj => absurd hj (hmeets j)⟩
  | expire i => exact ⟨hs.tidy, hs.agree⟩
  | world ω => exact ⟨hs.tidy, hs.agree⟩

/-- In a run in which every operation meets its condition, the instances that are
persisted as RUNNING are wired after every operation. -/
theorem agree_of_allMeet (ω : W) {events : List (Event W)} (hmeets : AllMeet (step h w) (Meets h w) ({}, ω) events) :
    Agree w (events.foldl (step h w) ({}, ω)).1 := by
  have hsound : Sound w ({} : System) := by
    refine ⟨fun i row hrow => ?_, ⟨fun w' i ref hreg => ?_, fun e he => ?_, fun i ref sub hreg => ?_⟩, ?_⟩
    · simp at hrow
    · cases hreg
    · cases he
    · cases hreg
    · rintro i ⟨row, hrow, -⟩
      simp at hrow
  exact (foldl_of_allMeet (I := fun x => Sound w x.1) (fun x e hs he => hs.step he) hsound hmeets).agree

/-- A bot is created and prepared. -/
def preparing : List (Event Market) := [.op (.createProcess "a" (Runs.botArgs 1)), .op (.prepare "a" 1)]

def turning : List (Event Market) := [.op (.start "a" 1), .op (.pause "a" 1), .op (.resume "a" 1)]

/-- A world in which nothing fails. -/
def priced : Market := marketWith (.ok 100) Grid.Trading.willing

def readied : System × Market := preparing.foldl (step market 0) ({}, priced)

def built : Except Exn (TradingInstance × Nat) × System × Market := run market (beforeWiring 0 "a" 1) readied.1 readied.2

theorem built_ok : built.1 = .ok (readyBot, 0) := by decide +kernel

theorem wires_built : Wires market 0 readyBot 0 built.2.1 built.2.2 := by
  refine ⟨by decide +kernel, by decide +kernel, fun found hfound => ?_⟩
  have hprofile : (market built.2.2 (.gridProfile 1)).1 = .ok (some { userId := 1, investmentPerGrid := 100 }) := rfl
  cases hprofile.symm.trans hfound
  refine ⟨_, rfl, fun steps hsteps => ?_⟩
  have hthree : (market (market built.2.2 (.gridProfile 1)).2 (.averaging "a")).1 = .ok threeSteps := rfl
  cases hthree.symm.trans hsteps
  decide +kernel

theorem start_meets : Meets market 0 readied (.op (.start "a" 1)) := by
  have hsubs : (built.2.1.workers 0).subs = [] := by decide +kernel
  have hpost : onOk (fun found s ω => (∀ sub, (sub, "a") ∉ (s.workers 0).subs) ∧ Wires market 0 found.1 found.2 s ω)
      built.1 built.2.1 built.2.2 := by
    rw [built_ok]
    refine ⟨fun sub hmem => ?_, wires_built⟩
    rw [hsubs] at hmem
    cases hmem
  exact hpost

theorem agree_of_allMeet_started :
    Agree 0 ((preparing ++ [Event.op (.start "a" 1)]).foldl (step market 0) ({}, priced)).1 :=
  agree_of_allMeet priced (allMeet_append.mpr ⟨⟨trivial, trivial, trivial⟩, start_meets, trivial⟩)

/-- No call fails, but a resume wires nothing of what the pause has unwired. -/
theorem resume_wires_nothing : ¬ Agree 0 ((preparing ++ turning).foldl (step market 0) ({}, priced)).1 := by
  intro hagree
  have hstatus : (((preparing ++ turning).foldl (step market 0) ({}, priced)).1.rows.get "a").map
      TradingInstance.status = some .running := by decide +kernel
  obtain ⟨row, hrow, hrunning⟩ := Option.map_eq_some_iff.mp hstatus
  have hsubs : (((preparing ++ turning).foldl (step market 0) ({}, priced)).1.workers 0).subs = [] := by decide +kernel
  obtain ⟨-, ref, sub, -, -, hone⟩ := hagree "a" ⟨row, hrow, hrunning⟩
  rw [hsubs] at hone
  cases hone

end Utos.Process.Agreement
