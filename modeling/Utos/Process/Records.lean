import Utos.Coroutine.Frame
import Utos.Process.Lifecycle

namespace Utos.Process.Records

open Coroutine Program Core Core.DomainTypes Core.Exceptions StateMachine Manager Wiring Lifecycle

variable {W : Type} {h : Handler W Req Ans}

/-- A property that the answers do not disturb, those to the grid engines apart. -/
structure Calm (h : Handler W Req Ans) (J : System → W → Prop) : Prop where
  answer : ∀ s w q, q.isExec = false → J s w → J s (h w q).2

theorem calm (P : System → Prop) : Calm h (fun s _ => P s) := ⟨fun _ _ _ _ hP => hP⟩

/-- What the manager has its grid engine do for an instance. -/
inductive Managed (i : InstanceId) : {α : Type} → Grid.Engine.Op α → Prop
  | initializes (args : Grid.Engine.InitArgs) : Managed i (Grid.Engine.initializeGrid i args)
  | activate (price : ℚ) : Managed i (Grid.Engine.activateGrid i price)
  | configure (args : Grid.Engine.BreakerArgs) : Managed i (Grid.Engine.configureCircuitBreaker i args)
  | pause : Managed i (Grid.Engine.pauseGrid i)

/-- A property that a worker does not disturb when it wires or unwires the process of an instance. -/
structure Aside (h : Handler W Req Ans) (x : WorkerId) (i : InstanceId) (ref : Nat) (J : System → W → Prop) : Prop
    extends Calm h J where
  status : ∀ s w status, J s w → J (s.setProcess ref (fun p => { p with status := status })) w
  connect : ∀ s w, J s w → J ((s.setWorker x (fun y => subscribed y i)).setProcess ref
    (fun p => { p with subscriptionId := some (s.workers x).nextSub })) w
  drop : ∀ s w sub, (s.processes ref).subscriptionId = some sub → J s w →
    J (s.setWorker x (fun y => { y with subs := y.subs.filter (fun e => e.1 ≠ sub) })) w
  clear : ∀ s w, J s w → J (s.setProcess ref (fun p => { p with subscriptionId := none })) w
  grid : ∀ {α : Type} (p : Grid.Engine.Op α), Managed i p → Keeps h J (onGrid x p)

/-- A property that neither the answers disturb nor the wiring and what the
process objects hold besides their identity. -/
structure Quiet (h : Handler W Req Ans) (J : System → W → Prop) : Prop extends Calm h J where
  newProcess : ∀ s w p, J s w → J (s.newProcess p) w
  setProcess : ∀ s w ref f, (∀ p : TradingProcess, (f p).instanceId = p.instanceId ∧ (f p).workerId = p.workerId) →
    J s w → J (s.setProcess ref f) w
  subs : ∀ s w x f, (∀ y : Worker, (f y).registry = y.registry ∧ (f y).grid = y.grid) → J s w → J (s.setWorker x f) w
  grid : ∀ {α : Type} x i (p : Grid.Engine.Op α), Managed i p → Keeps h J (onGrid x p)

theorem Quiet.aside {J : System → W → Prop} (hJ : Quiet h J) (x : WorkerId) (i : InstanceId) (ref : Nat) :
    Aside h x i ref J where
  toCalm := hJ.toCalm
  status s w _ hs := hJ.setProcess s w ref _ (fun _ => ⟨rfl, rfl⟩) hs
  connect s w hs := hJ.setProcess _ w ref _ (fun _ => ⟨rfl, rfl⟩) (hJ.subs s w x _ (fun _ => ⟨rfl, rfl⟩) hs)
  drop s w _ _ hs := hJ.subs s w x _ (fun _ => ⟨rfl, rfl⟩) hs
  clear s w hs := hJ.setProcess s w ref _ (fun _ => ⟨rfl, rfl⟩) hs
  grid := hJ.grid x i

/-- A property of the system that only the registries of the workers matter to. -/
theorem quiet_of {P : System → Prop} (hnew : ∀ s p, P s → P (s.newProcess p))
    (hset : ∀ s ref f, (∀ p : TradingProcess, (f p).instanceId = p.instanceId ∧ (f p).workerId = p.workerId) →
      P s → P (s.setProcess ref f))
    (hworker : ∀ s x f, (∀ y : Worker, (f y).registry = y.registry) → P s → P (s.setWorker x f)) :
    Quiet h (fun s _ => P s) where
  toCalm := calm P
  newProcess s _ := hnew s
  setProcess s _ := hset s
  subs s _ x f hf := hworker s x f (fun y => (hf y).1)
  grid x _ p _ := keeps_component (gridLens x) _ _
    (fun s g _ => hworker s x (fun y => { y with grid := g }) (fun _ => rfl)) (fun _ _ _ hP => hP) p

/-- The locks do not matter to it either. -/
structure Unlocked (h : Handler W Req Ans) (J : System → W → Prop) : Prop extends Quiet h J where
  lock : ∀ s w locks, J s w → J { s with locks := locks } w

/-- Nor do the registries. -/
structure AboutRows (h : Handler W Req Ans) (J : System → W → Prop) : Prop extends Unlocked h J where
  register : ∀ s w x i ref, J s w → J (s.registered x i ref) w

theorem aboutRows (P : Dict InstanceId TradingInstance → Prop) : AboutRows h (fun s _ => P s.rows) where
  toQuiet := quiet_of (fun _ _ hP => hP) (fun _ _ _ _ hP => hP) (fun _ _ _ _ hP => hP)
  lock _ _ _ hP := hP
  register _ _ _ _ _ hP := hP

theorem keeps_raiseIf {J : System → W → Prop} (c : Prop) [Decidable c] (exc : Exn) : Keeps h J (raiseIf c exc) := by
  unfold raiseIf
  split
  · exact keeps_raise exc
  · exact keeps_ret ()

theorem keeps_validateOwnership {J : System → W → Prop} (row : TradingInstance) (userId : UUID) :
    Keeps h J (validateOwnership row userId) := keeps_raiseIf _ _

section

variable {J : System → W → Prop} (hJ : Calm h J)

include hJ

theorem keeps_request {α : Type} {q : Req} {as : Ans q → Except Exn α} (hq : q.isExec = false) :
    Keeps h J (await q as) := keeps_await (fun s w => hJ.answer s w q hq)

theorem keeps_getAccount (id : UUID) : Keeps h J (getAccount id) := by
  refine keeps_bind (keeps_request hJ rfl) (fun account => ?_)
  cases account with
  | none => exact keeps_raise _
  | some account => exact keeps_ret _

omit hJ in
theorem keeps_validateAccount (account : Account) : Keeps h J (validateAccount account) :=
  keeps_bind (keeps_raiseIf _ _) (fun _ => keeps_raiseIf _ _)

theorem keeps_authenticateAdapter (account : Account) : Keeps h J (authenticateAdapter account) :=
  keeps_bind (keeps_lift _) (fun _ => keeps_bind (keeps_request hJ rfl) (fun _ =>
    keeps_bind (keeps_request hJ rfl) (fun _ => keeps_raiseIf _ _)))

theorem keeps_validateSymbol (exchangeName symbol : String) : Keeps h J (validateSymbol exchangeName symbol) :=
  keeps_bind (keeps_request hJ rfl) (fun _ => keeps_raiseIf _ _)

theorem keeps_redis {α : Type} (cmd : RedisCmd) {exec : System → α × System}
    (hexec : ∀ s w, J s w → J (exec s).2 w) : Keeps h J (redis cmd exec) := by
  refine keeps_bind (keeps_call (fun s w => hJ.answer s w _ rfl) (fun _ => keeps_ret _)) (fun fate => ?_)
  split
  · refine keeps_bind (keeps_attempt ?_) (fun a => ?_)
    · rintro s w a s' hs hs'
      rw [Except.ok.injEq] at hs
      rw [show s' = (exec s).2 by rw [hs]]
      exact hexec s w hs'
    · exact keeps_bind (keeps_call (fun s w => hJ.answer s w _ rfl) (fun _ => keeps_ret _)) (fun _ => keeps_ret _)
  · exact keeps_ret _

theorem keeps_setState (x : WorkerId) (i : InstanceId) : Keeps h J (setState x i) :=
  keeps_bind (keeps_redis hJ _ (fun _ _ hs => hs)) (fun _ => keeps_ret _)

theorem keeps_currentLock (x : WorkerId) (i : InstanceId) : Keeps h J (currentLock x i) := by
  refine keeps_bind (keeps_redis hJ _ (fun _ _ hs => hs)) (fun held => ?_)
  cases held with
  | none => exact keeps_raise _
  | some held => exact keeps_ret _

theorem keeps_getByStatus (status : TradingInstanceStatus) : Keeps h J (getByStatus status) :=
  keeps_bind (keeps_request hJ rfl) (fun _ => keeps_read_bind (fun _ => keeps_ret _))

theorem keeps_checkDuplicateRunning (row : TradingInstance) : Keeps h J (checkDuplicateRunning row) :=
  keeps_bind (keeps_getByStatus hJ _) (fun _ => keeps_raiseIf _ _)

theorem keeps_getInstance (i : InstanceId) : Keeps h J (getInstance i) := by
  refine keeps_bind (keeps_request hJ rfl) (fun _ => keeps_read_bind (fun s => ?_))
  cases s.rows.get i with
  | none => exact keeps_raise _
  | some row => exact keeps_ret _

theorem keeps_persistStatus (hrows : ∀ s w rows, J s w → J { s with rows := rows } w) (row : TradingInstance)
    (status : TradingInstanceStatus) : Keeps h J (persistStatus row status) :=
  keeps_bind (keeps_request hJ rfl) (fun _ => keeps_bind (keeps_modify (fun s w => hrows s w _)) (fun _ =>
    keeps_bind (keeps_request hJ rfl) (fun _ => keeps_read_bind (fun _ => keeps_ret _))))

theorem keeps_flushStatus (hrows : ∀ s w rows, J s w → J { s with rows := rows } w) (row : TradingInstance)
    (status : TradingInstanceStatus) : Keeps h J (flushStatus row status) :=
  keeps_bind (keeps_request hJ rfl) (fun _ => keeps_modify (fun s w => hrows s w _))

theorem keeps_inSession {α : Type} {p : Op α} (hrows : ∀ s w rows, J s w → J { s with rows := rows } w)
    (hp : Keeps h J p) : Keeps h J (inSession p) := by
  refine keeps_read_bind (fun before => keeps_tryCatch (keeps_bind hp (fun _ => ?_)) (fun exc => ?_))
  · exact keeps_bind (keeps_request hJ rfl) (fun _ => keeps_ret _)
  · exact keeps_bind (keeps_modify (fun s w => hrows s w _)) (fun _ => keeps_raise _)

theorem keeps_opened {α : Type} {i : InstanceId} {userId : UUID} {target : TradingInstanceStatus}
    {f : TradingInstance → Op α} (hf : ∀ row, Keeps h J (f row)) :
    Keeps h J (do
      let row ← getInstance i
      validateOwnership row userId
      lift (validateTransition row.status target)
      f row) :=
  keeps_bind (keeps_getInstance hJ i) (fun row => keeps_bind (keeps_validateOwnership row userId) (fun _ =>
    keeps_bind (keeps_lift _) (fun _ => hf row)))

theorem keeps_checkRecords (args : CreateArgs) :
    Keeps h J (checkRecords args) := by
  refine keeps_bind (keeps_request hJ rfl) (fun account => ?_)
  cases account with
  | none => exact keeps_raise _
  | some account =>
      exact keeps_bind (keeps_raiseIf _ _) (fun _ => keeps_bind (keeps_request hJ rfl) (fun _ =>
        keeps_bind (keeps_raiseIf _ _) (fun _ => keeps_bind (keeps_request hJ rfl) (fun _ =>
          keeps_bind (keeps_raiseIf _ _) (fun _ => keeps_raiseIf _ _)))))

theorem keeps_build (hnew : ∀ s w p, J s w → J (s.newProcess p) w) (x : WorkerId) (row : TradingInstance) :
    Keeps h J (buildProcessFromInstance x row) := by
  refine keeps_bind (keeps_getAccount hJ _) (fun account => keeps_bind (keeps_validateAccount account) (fun _ => ?_))
  refine keeps_bind (keeps_authenticateAdapter hJ account) (fun _ => keeps_bind (keeps_request hJ rfl) (fun _ => ?_))
  exact keeps_read_bind (fun _ => keeps_bind (keeps_modify (fun s w => hnew s w _)) (fun _ => keeps_ret _))

theorem keeps_symbolSupported (exchangeName symbol : String) : Keeps h J (symbolSupported exchangeName symbol) := by
  refine keeps_tryCatch (keeps_bind (keeps_validateSymbol hJ _ _) (fun _ => keeps_ret _)) (fun exc => ?_)
  split
  · exact keeps_ret _
  · exact keeps_raise _

end

section

variable {J : System → W → Prop} {x : WorkerId} {row : TradingInstance} {ref : Nat} (hJ : Aside h x row.id ref J)

include hJ

theorem keeps_setProcessStatus_aside (status : TradingInstanceStatus) : Keeps h J (setProcessStatus ref status) :=
  keeps_modify (fun s w hs => hJ.status s w status hs)

theorem keeps_setupBreaker_aside (dayOpenPrice : ℚ) : Keeps h J (setupBreaker x row dayOpenPrice) :=
  keeps_bind (keeps_request hJ.toCalm rfl) (fun _ => hJ.grid _ (.configure _))

theorem keeps_connect_aside (exchangeName : String) :
    Keeps h J (Program.bind (subscribe x exchangeName row) (fun sub => setSubscription ref (some sub))) := by
  intro s w hs
  have hs' := hJ.answer s w (.openStream exchangeName row.symbol) rfl hs
  rw [wp_bind, subscribe, bind_eq]
  exact wp_bind_await (fun e _ => hs') (fun u _ => hJ.connect s _ hs')

theorem keeps_wireGrid_aside (profile : GridProfile) (steps : Grid.Calculator.AveragingSteps) :
    Keeps h J (wireGrid x row ref profile steps) := by
  refine keeps_read_bind (fun s => keeps_bind (keeps_request hJ.toCalm rfl) (fun price => ?_))
  refine keeps_bind (hJ.grid _ (.initializes _)) (fun _ => keeps_bind (hJ.grid _ (.activate _)) (fun _ => ?_))
  split
  · exact keeps_bind (keeps_setupBreaker_aside hJ price) (fun _ => keeps_connect_aside hJ _)
  · exact keeps_connect_aside hJ _

theorem keeps_wire_aside : Keeps h J (wire x row ref) := by
  refine keeps_read_bind (fun s => ?_)
  split
  · exact keeps_ret _
  · refine keeps_bind (keeps_request hJ.toCalm rfl) (fun profile => ?_)
    cases profile with
    | none => exact keeps_ret _
    | some profile =>
        exact keeps_bind (keeps_request hJ.toCalm rfl) (fun steps =>
          keeps_tryCatch (keeps_wireGrid_aside hJ profile _) (fun _ => keeps_ret _))

omit hJ in
theorem keeps_unsubscribeProcess_aside {i : InstanceId} (hJ : Aside h x i ref J) :
    Keeps h J (unsubscribeProcess x ref) := by
  have hclear : Keeps h J (setSubscription ref none) := keeps_modify (fun s w hs => hJ.clear s w hs)
  intro s w hs
  rw [unsubscribeProcess, bind_eq, wp_bind, wp_read, andThen_ok]
  cases hsub : (s.processes ref).subscriptionId with
  | none => exact hs
  | some sub =>
      simp only
      split
      · rw [bind_eq, wp_bind, tryCatch_eq, wp_tryCatch, unsubscribe, bind_eq, wp_bind, wp_modify, andThen_ok, wp_await]
        have hdropped := hJ.answer _ w .closeStream rfl (hJ.drop s w sub hsub hs)
        cases (h w .closeStream).1 with
        | error e => exact hclear _ _ hdropped
        | ok u => exact hclear _ _ hdropped
      · exact hclear s w hs

theorem keeps_unwire_aside : Keeps h J (unwire x row ref) := by
  refine keeps_bind (keeps_unsubscribeProcess_aside hJ) (fun _ => keeps_read_bind (fun s => ?_))
  split
  · exact keeps_tryCatch (keeps_bind (hJ.grid _ .pause) (fun _ => keeps_ret _)) (fun _ => keeps_ret _)
  · exact keeps_ret _

end

section

variable {J : System → W → Prop} (hJ : Quiet h J)

include hJ

theorem keeps_setProcessStatus (ref : Nat) (status : TradingInstanceStatus) :
    Keeps h J (setProcessStatus ref status) :=
  keeps_modify (fun s w => hJ.setProcess s w ref _ (fun _ => ⟨rfl, rfl⟩))

theorem keeps_buildProcess (x : WorkerId) (row : TradingInstance) : Keeps h J (buildProcessFromInstance x row) :=
  keeps_build hJ.toCalm hJ.newProcess x row

theorem keeps_wire (x : WorkerId) (row : TradingInstance) (ref : Nat) : Keeps h J (wire x row ref) :=
  keeps_wire_aside (hJ.aside x row.id ref)

theorem keeps_unsubscribeProcess (x : WorkerId) (ref : Nat) : Keeps h J (unsubscribeProcess x ref) :=
  keeps_unsubscribeProcess_aside (hJ.aside x "" ref)

theorem keeps_unwire (x : WorkerId) (row : TradingInstance) (ref : Nat) : Keeps h J (unwire x row ref) :=
  keeps_unwire_aside (hJ.aside x row.id ref)

theorem keeps_dismantle (x : WorkerId) (row : TradingInstance) : Keeps h J (dismantle x row) := by
  refine keeps_bind (keeps_read_bind (fun _ => keeps_ret _)) (fun found => ?_)
  cases found with
  | none => exact keeps_ret _
  | some ref =>
      exact keeps_bind (keeps_setProcessStatus hJ ref _) (fun _ => keeps_bind (keeps_unwire hJ x row ref) (fun _ =>
        keeps_read_bind (fun _ => keeps_tryCatch (keeps_request hJ.toCalm rfl) (fun _ => keeps_ret _))))

end

theorem keeps_acquireLock {J : System → W → Prop} (hJ : Calm h J)
    (hlock : ∀ s w locks, J s w → J { s with locks := locks } w) (x : WorkerId) (i : InstanceId) :
    Keeps h J (acquireLock x i) := by
  refine keeps_bind (keeps_redis hJ _ (fun s w hs => ?_)) (fun _ => keeps_ret _)
  unfold setNx
  split
  · exact hlock s w _ hs
  · exact hs

theorem keeps_releaseLock {J : System → W → Prop} (hJ : Calm h J)
    (hlock : ∀ s w locks, J s w → J { s with locks := locks } w) (x : WorkerId) (i : InstanceId) :
    Keeps h J (releaseLock x i) :=
  keeps_bind (keeps_redis hJ _ (fun s w => hlock s w _)) (fun _ => keeps_ret _)

theorem keeps_register {J : System → W → Prop} (hJ : AboutRows h J) (x : WorkerId) (i : InstanceId) (ref : Nat) :
    Keeps h J (register x i ref) := keeps_modify (fun s w => hJ.register s w x i _)

theorem keeps_unregister {J : System → W → Prop} (hJ : AboutRows h J) (x : WorkerId) (i : InstanceId) :
    Keeps h J (unregister x i) := keeps_modify (fun s w => hJ.register s w x i _)

theorem keeps_getOrBuild {J : System → W → Prop} (hJ : AboutRows h J) (x : WorkerId) (row : TradingInstance) : Keeps h J (getOrBuild x row) := by
  refine keeps_bind (keeps_read_bind (fun _ => keeps_ret _)) (fun found => ?_)
  cases found with
  | some ref => exact keeps_ret _
  | none =>
      exact keeps_bind (keeps_buildProcess hJ.toQuiet x row) (fun ref =>
        keeps_bind (keeps_register hJ x row.id ref) (fun _ => keeps_ret _))

abbrev Rows := Dict InstanceId TradingInstance

/-- One row is overwritten, and no other. -/
def Sets (rows : Rows) (i : InstanceId) (row : TradingInstance) (rows' : Rows) : Prop :=
  ∀ j, rows'.get j = if j = i then some row else rows.get j

theorem sets_set (rows : Rows) (i : InstanceId) (row : TradingInstance) : Sets rows i row (rows.set i row) :=
  fun j => Dict.get_set rows i row j

theorem Sets.again {rows rows' rows'' : Rows} {i : InstanceId} {row row' : TradingInstance}
    (h : Sets rows i row rows') (h' : Sets rows' i row' rows'') : Sets rows i row' rows'' := by
  intro j
  rw [h' j, h j]
  split <;> rfl

theorem Sets.get_self {rows rows' : Rows} {i : InstanceId} {row : TradingInstance} (h : Sets rows i row rows') :
    rows'.get i = some row := by rw [h i, if_pos rfl]

/-- The rows stand under their own ids. -/
def Keyed (rows : Rows) : Prop := ∀ i row, rows.get i = some row → row.id = i

theorem Keyed.sets {rows rows' : Rows} {i : InstanceId} {row : TradingInstance} (hrows : Keyed rows)
    (hid : row.id = i) (h : Sets rows i row rows') : Keyed rows' := by
  intro j row' hj
  rw [h j] at hj
  split at hj
  next he => cases hj; exact hid.trans he.symm
  next => exact hrows j row' hj

theorem mem_rowsWith {s : System} {status : TradingInstanceStatus} {row : TradingInstance} :
    row ∈ rowsWith s status ↔ ∃ i, s.rows.get i = some row ∧ row.status = status := by
  simp only [rowsWith, List.mem_filter, List.mem_map, Prod.exists, decide_eq_true_eq, Dict.mem_iff_get]
  constructor
  · rintro ⟨⟨i, _, hget, rfl⟩, hstatus⟩
    exact ⟨i, hget, hstatus⟩
  · rintro ⟨i, hget, hstatus⟩
    exact ⟨⟨i, row, hget, rfl⟩, hstatus⟩

variable {s : System} {ω : W} {row cur : TradingInstance} {status : TradingInstanceStatus} {i : InstanceId}

theorem wp_raiseIf {R : Except Exn Unit → System → W → Prop} (c : Prop) [Decidable c] (exc : Exn)
    (hc : c → R (.error exc) s ω) (hnc : ¬ c → R (.ok ()) s ω) : wp h (raiseIf c exc) R s ω := by
  unfold raiseIf
  split
  next hcond => exact hc hcond
  next hcond => exact hnc hcond

theorem wp_validate {R : Except Exn Unit → System → W → Prop} {current target : TradingInstanceStatus}
    (herr : ∀ e, R (.error e) s ω) (hok : target ∈ transitions current → R (.ok ()) s ω) :
    wp h (lift (validateTransition current target)) R s ω := by
  rw [wp_lift]
  cases hv : validateTransition current target with
  | error e => exact herr e
  | ok u => exact hok (validateTransition_ok.mp hv)

/-- A property of the outside world that no answer disturbs, those to the grid engines apart. -/
def Still (h : Handler W Req Ans) (K : W → Prop) : Prop := ∀ ω q, q.isExec = false → K ω → K (h ω q).2

theorem still_true : Still h (fun _ => True) := fun _ _ _ _ => trivial

theorem Still.calm {K : W → Prop} (hK : Still h K) (P : System → Prop) : Calm h (fun s ω => P s ∧ K ω) :=
  ⟨fun _ ω q hq hP => ⟨hP.1, hK ω q hq hP.2⟩⟩

theorem wp_getInstance {K : W → Prop} (hK : Still h K) (hω : K ω) {R : Except Exn TradingInstance → System → W → Prop}
    (herr : ∀ e ω', K ω' → R (.error e) s ω') (hok : ∀ row ω', K ω' → s.rows.get i = some row → R (.ok row) s ω') :
    wp h (getInstance i) R s ω := by
  have hK' := hK ω .query rfl hω
  rw [getInstance, bind_eq]
  refine wp_bind_await (fun e _ => herr e _ hK') (fun u _ => ?_)
  rw [bind_eq, wp_bind, wp_read, andThen_ok]
  cases hrow : s.rows.get i with
  | none => exact herr _ _ hK'
  | some row => exact hok row _ hK' hrow

theorem wp_opened {α : Type} {K : W → Prop} (hK : Still h K) (hω : K ω) {R : Except Exn α → System → W → Prop}
    {userId : UUID} {target : TradingInstanceStatus} {f : TradingInstance → Op α}
    (herr : ∀ e ω', K ω' → R (.error e) s ω')
    (hok : ∀ row ω', K ω' → s.rows.get i = some row → row.userId = userId → target ∈ transitions row.status →
      wp h (f row) R s ω') :
    wp h (do
      let row ← getInstance i
      validateOwnership row userId
      lift (validateTransition row.status target)
      f row) R s ω := by
  rw [bind_eq, wp_bind]
  refine wp_getInstance hK hω (fun e ω' hω' => herr e ω' hω') (fun row ω' hω' hrow => ?_)
  rw [andThen_ok, bind_eq, wp_bind]
  refine wp_raiseIf _ _ (fun _ => herr _ _ hω') (fun howner => ?_)
  rw [andThen_ok, bind_eq, wp_bind]
  refine wp_validate (fun e => herr e _ hω') (fun hedge => ?_)
  exact hok row ω' hω' hrow (not_not.mp howner) hedge

theorem wp_getByStatus {R : Except Exn (List TradingInstance) → System → W → Prop}
    (herr : ∀ e ω', R (.error e) s ω') (hok : ∀ ω', R (.ok (rowsWith s status)) s ω') :
    wp h (getByStatus status) R s ω := by
  rw [getByStatus, bind_eq]
  exact wp_bind_await (fun e _ => herr e _) (fun u _ => hok _)

theorem wp_checkDuplicateRunning {R : Except Exn Unit → System → W → Prop} (herr : ∀ e ω', R (.error e) s ω')
    (hok : ∀ ω', (∀ other ∈ rowsWith s .running, duplicates row other = false) → R (.ok ()) s ω') :
    wp h (checkDuplicateRunning row) R s ω := by
  rw [checkDuplicateRunning, bind_eq, wp_bind]
  refine wp_getByStatus (fun e ω' => herr e ω') (fun ω' => ?_)
  rw [andThen_ok]
  refine wp_raiseIf _ _ (fun _ => herr _ _) (fun hdup => hok ω' ?_)
  simpa using hdup

def persisted (s : System) (row : TradingInstance) : System := { s with rows := s.rows.set row.id row }

theorem wp_persistStatus {R : Except Exn TradingInstance → System → W → Prop}
    (hcur : s.rows.get row.id = some cur) (hid : cur.id = row.id) (herr : ∀ e ω', R (.error e) s ω')
    (hdone : ∀ r ω', (∀ a, r = .ok a → a = cur.withStatus status) →
      R r (persisted s (cur.withStatus status)) ω') :
    wp h (persistStatus row status) R s ω := by
  have hset : { s with rows := s.rows.set row.id (((s.rows.get row.id).getD row).withStatus status) } =
      persisted s (cur.withStatus status) := by
    rw [hcur, Option.getD_some, persisted, ← hid]
    rfl
  rw [persistStatus, bind_eq]
  refine wp_bind_await (fun e _ => herr e _) (fun u _ => ?_)
  rw [bind_eq, wp_bind, wp_modify, hset, andThen_ok, bind_eq]
  refine wp_bind_await (fun e _ => hdone _ _ (fun a ha => by cases ha)) (fun u _ => ?_)
  rw [bind_eq, wp_bind, wp_read, andThen_ok]
  refine hdone _ _ (fun a ha => ?_)
  cases ha
  simp [persisted, ← hid, TradingInstance.withStatus]

theorem wp_flushStatus {R : Except Exn Unit → System → W → Prop} (herr : ∀ e, R (.error e) s (h ω .flush).2)
    (hok : R (.ok ()) { s with rows := s.rows.set row.id (((s.rows.get row.id).getD row).withStatus status) }
      (h ω .flush).2) : wp h (flushStatus row status) R s ω := by
  rw [flushStatus, bind_eq]
  exact wp_bind_await (fun e _ => herr e) (fun u _ => hok)

theorem wp_commit {α : Type} {p : Op α} {R : Except Exn α → System → W → Prop}
    (hp : wp h p (fun r s' ω' => (∀ e, r = .error e → R (.error e) { s' with rows := s.rows } ω') ∧
      ∀ a, r = .ok a → (∀ e, (h ω' .commit).1 = .error e → R (.error e) { s' with rows := s.rows } (h ω' .commit).2) ∧
        ((h ω' .commit).1 = .ok () → R (.ok a) s' (h ω' .commit).2)) s ω) : wp h (inSession p) R s ω := by
  rw [inSession, bind_eq, wp_bind, wp_read, andThen_ok, tryCatch_eq, wp_tryCatch, bind_eq, wp_bind]
  refine wp_mono hp ?_
  rintro (e | a) s' ω' ⟨herr, hok⟩
  · exact herr e rfl
  · obtain ⟨hrefused, hdone⟩ := hok a rfl
    rw [andThen_ok, bind_eq, wp_bind, wp_await]
    cases hcommit : (h ω' .commit).1 with
    | error e => exact hrefused e hcommit
    | ok u => exact hdone hcommit

/-- A call in its session: what a rollback leaves of the call, or else its commit. -/
theorem wp_session {α : Type} {p : Op α} {R : Except Exn α → System → W → Prop}
    (hp : wp h p (fun r s' ω' => (∀ e, r = .error e → R (.error e) { s' with rows := s.rows } ω') ∧
      ∀ a, r = .ok a → (∀ e, R (.error e) { s' with rows := s.rows } (h ω' .commit).2) ∧
        R (.ok a) s' (h ω' .commit).2) s ω) : wp h (inSession p) R s ω :=
  wp_commit (wp_mono hp (fun _ _ _ hr => ⟨hr.1, fun a ha => ⟨fun e _ => (hr.2 a ha).1 e, fun _ => (hr.2 a ha).2⟩⟩))

theorem wp_inSession {α : Type} {p : Op α} {R : Except Exn α → System → W → Prop}
    (hp : wp h p (fun r s' _ => (∀ e ω', R (.error e) { s' with rows := s.rows } ω') ∧
      ∀ a ω', r = .ok a → R (.ok a) s' ω') s ω) : wp h (inSession p) R s ω :=
  wp_session (wp_mono hp (fun _ _ ω' hr => ⟨fun e _ => hr.1 e ω', fun a ha => ⟨fun e => hr.1 e _, hr.2 a _ ha⟩⟩))

end Utos.Process.Records
