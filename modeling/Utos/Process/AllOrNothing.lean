import Utos.Process.Market
import Utos.Process.Registry

namespace Utos.Process.AllOrNothing

open Coroutine Program Core Core.DomainTypes Core.Exceptions Execution.Exchange
open StateMachine Manager Wiring Lifecycle Runs Records Registry Market

variable {w : WorkerId} {i : InstanceId} {userId : UUID} {s : System} {m : Market} {row : TradingInstance}
variable {ref : Nat}

/-- Status, registries, locks and live orders are as before. -/
structure Unchanged (i : InstanceId) (s : System) (m : Market) (s' : System) (m' : Market) : Prop where
  status : (s'.rows.get i).map TradingInstance.status = (s.rows.get i).map TradingInstance.status
  registry : ∀ w, (s'.workers w).registry = (s.workers w).registry
  locks : s'.locks = s.locks
  live : ∀ (r : Nat) (o : Order Grid.Engine.Owner),
    m'.orders[r]? = some o ∧ o.state = .live ↔ m.orders[r]? = some o ∧ o.state = .live

/-- The checks of start before the lock all pass. -/
structure Admitted (i : InstanceId) (userId : UUID) (s : System) (m : Market) (row : TradingInstance) : Prop where
  query : m.script m.clock .query = .ok ()
  found : s.rows.get i = some row
  owner : row.userId = userId
  edge : .running ∈ transitions row.status
  queryRunning : m.script (m.clock + 1) .query = .ok ()
  single : ∀ other ∈ rowsWith s .running, duplicates row other = false

/-- What becomes of the SET of a start that is admitted. -/
def lockFate (w : WorkerId) (i : InstanceId) (m : Market) : RedisFate := m.script (m.clock + 2) (.send (.setNx w i))

/-- The SET is carried out, and the lock was free. -/
def TakesLock (w : WorkerId) (i : InstanceId) (s : System) (m : Market) : Prop :=
  (lockFate w i m).executed = true ∧ s.locks i = none

/-- The start goes on without the lock: Redis fails, or its answer is lost. -/
def GoesWithout (w : WorkerId) (i : InstanceId) (s : System) (m : Market) : Prop :=
  (lockFate w i m).executed = false ∨ (lockFate w i m).replied = false ∧ s.locks i ≠ none

/-- The account is there and can be used, the adapter can be initialised and
authenticated, and the memory can be restored. -/
def Builds (row : TradingInstance) (m : Market) : Prop :=
  ∃ account, m.script m.clock (.account row.exchangeAccountId) = .ok (some account) ∧ account.isActive = true ∧
    account.registered = true ∧ decrypted account = .ok () ∧
    m.script (m.clock + 1) (.initializeAdapter account.exchangeName) = .ok () ∧
    m.script (m.clock + 2) (.authenticate account.exchangeName) = .ok true ∧
    m.script (m.clock + 3) (.restoreMemory row.id) = .ok ()

/-- The market once the lock has been dealt with. -/
def afterLock (w : WorkerId) (i : InstanceId) (m : Market) : Market :=
  if (lockFate w i m).executed then m.tick.tick.tick.tick else m.tick.tick.tick

/-- A start leaves traces: it takes the lock, or goes without it and builds its process. -/
def LeavesTraces (w : WorkerId) (i : InstanceId) (userId : UUID) (s : System) (m : Market) : Prop :=
  ∃ row, Admitted i userId s m row ∧
    (TakesLock w i s m ∨ GoesWithout w i s m ∧ Builds row (afterLock w i m))

theorem wp_acquireLock {R : Except Exn Bool → System → Market → Prop}
    (hR : if (m.script m.clock (.send (.setNx w i))).executed then
        R (.ok (if (m.script m.clock (.send (.setNx w i))).replied then (setNx w i s).1 else true)) (setNx w i s).2
          m.tick.tick
      else R (.ok true) s m.tick) : wp market (acquireLock w i) R s m := by
  rw [acquireLock, redis]
  simp only [bind_eq, wp_bind, wp_call, wp_ret, market, andThen_ok]
  split at hR
  next hexec =>
    rw [if_pos hexec, wp_bind, wp_attempt]
    simp only [andThen_ok, wp_bind, wp_call, wp_ret, market, pure_eq]
    split at hR
    next hrep => rw [if_pos hrep]; exact hR
    next hrep => rw [if_neg hrep]; exact hR
  next hexec => rw [if_neg hexec]; exact hR

theorem wp_validateAccount {account : Account} {R : Except Exn Unit → System → Market → Prop}
    (hok : account.isActive = true ∧ account.registered = true → R (.ok ()) s m)
    (herr : ¬ (account.isActive = true ∧ account.registered = true) → ∀ e, R (.error e) s m) :
    wp market (validateAccount account) R s m := by
  rw [validateAccount, bind_eq, wp_bind]
  refine wp_raiseIf _ _ (fun hinactive => herr ?_ _) (fun hactive => ?_)
  · rintro ⟨hon, -⟩
    cases hon.symm.trans hinactive
  rw [andThen_ok]
  refine wp_raiseIf _ _ (fun hunknown => herr ?_ _) (fun hregistered => hok ?_)
  · rintro ⟨-, hreg⟩
    cases hreg.symm.trans hunknown
  · exact ⟨Bool.eq_true_of_not_eq_false hactive, Bool.eq_true_of_not_eq_false hregistered⟩

/-- The secret can be decrypted, and the exchange accepts the adapter. -/
structure Authenticates (account : Account) (m : Market) : Prop where
  secret : decrypted account = .ok ()
  adapter : m.script m.clock (.initializeAdapter account.exchangeName) = .ok ()
  accepted : m.script (m.clock + 1) (.authenticate account.exchangeName) = .ok true

theorem wp_authenticateAdapter {account : Account} {R : Except Exn Unit → System → Market → Prop}
    (hok : Authenticates account m → R (.ok ()) s m.tick.tick)
    (herr : ¬ Authenticates account m → ∀ e m', m'.orders = m.orders → R (.error e) s m') :
    wp market (authenticateAdapter account) R s m := by
  rw [authenticateAdapter, bind_eq, wp_bind, wp_lift]
  cases hsecret : decrypted account with
  | error e =>
      refine herr (fun hauth => ?_) e m rfl
      cases hsecret.symm.trans hauth.secret
  | ok u =>
      rw [andThen_ok, bind_eq]
      refine wp_bind_await (fun e hfailed => herr (fun hauth => ?_) e _ rfl) (fun u hadapter => ?_)
      · cases hfailed.symm.trans hauth.adapter
      rw [bind_eq]
      refine wp_bind_await (fun e hfailed => herr (fun hauth => ?_) e _ rfl) (fun granted hgranted => ?_)
      · cases hfailed.symm.trans hauth.accepted
      refine wp_raiseIf _ _ (fun hrefused => herr (fun hauth => ?_) _ _ rfl) (fun haccepted => ?_)
      · cases hrefused
        cases hgranted.symm.trans hauth.accepted
      · cases Bool.eq_true_of_not_eq_false haccepted
        exact hok ⟨hsecret, hadapter, hgranted⟩

theorem builds_iff {account : Account} (hfound : m.script m.clock (.account row.exchangeAccountId) = .ok (some account)) :
    Builds row m ↔ (account.isActive = true ∧ account.registered = true) ∧ Authenticates account m.tick ∧
      m.script (m.clock + 3) (.restoreMemory row.id) = .ok () := by
  constructor
  · rintro ⟨account', hfound', hon, hreg, hsecret, hadapter, haccepted, hmemory⟩
    cases hfound.symm.trans hfound'
    exact ⟨⟨hon, hreg⟩, ⟨hsecret, hadapter, haccepted⟩, hmemory⟩
  · rintro ⟨⟨hon, hreg⟩, ⟨hsecret, hadapter, haccepted⟩, hmemory⟩
    exact ⟨account, hfound, hon, hreg, hsecret, hadapter, haccepted, hmemory⟩

theorem not_builds (hfound : ∀ account, m.script m.clock (.account row.exchangeAccountId) ≠ .ok (some account)) :
    ¬ Builds row m :=
  fun ⟨account, hbuilds⟩ => hfound account hbuilds.1

theorem wp_build_market {R : Except Exn Nat → System → Market → Prop}
    (hok : Builds row m → ∀ p m', p.instanceId = row.id → R (.ok s.size) (s.newProcess p) m')
    (herr : ¬ Builds row m → ∀ e m', m'.orders = m.orders → R (.error e) s m') :
    wp market (buildProcessFromInstance w row) R s m := by
  rw [buildProcessFromInstance, bind_eq, wp_bind, getAccount, bind_eq]
  refine wp_bind_await (fun e hfailed => herr (not_builds ?_) e _ rfl) (fun found hfound => ?_)
  · intro account hfound
    cases hfailed.symm.trans hfound
  cases found with
  | none =>
      refine herr (not_builds (fun account hsome => ?_)) _ _ rfl
      cases hfound.symm.trans hsome
  | some account =>
      rw [builds_iff hfound] at hok herr
      simp only [pure_eq, wp_ret, andThen_ok]
      rw [bind_eq, wp_bind]
      refine wp_validateAccount (fun huse => ?_) (fun hno e => herr (fun hbuilds => hno hbuilds.1) e _ rfl)
      rw [andThen_ok, bind_eq, wp_bind]
      refine wp_authenticateAdapter (fun hauth => ?_)
        (fun hno e m' horders => herr (fun hbuilds => hno hbuilds.2.1) e m' horders)
      rw [andThen_ok, bind_eq]
      refine wp_bind_await (fun e hfailed => herr (fun hbuilds => ?_) e _ rfl) (fun u hmemory => ?_)
      · cases hfailed.symm.trans hbuilds.2.2
      · exact hok ⟨huse, hauth, hmemory⟩ _ _ rfl

/-- What a start does once it has its process. -/
def launch (w : WorkerId) (i : InstanceId) (row : TradingInstance) (ref : Nat) : Op TradingInstance := do
  setProcessStatus ref .running
  register w row.id ref
  wire w row ref
  let row ← persistStatus row .running
  setState w i
  return row

theorem keeps_launch {J : System → Market → Prop} (hJ : Quiet market J)
    (hrows : ∀ s w rows, J s w → J { s with rows := rows } w)
    (hreg : ∀ s m, J s m → J (s.registered w row.id (some ref)) m) : Keeps market J (launch w i row ref) := by
  refine keeps_bind (keeps_setProcessStatus hJ ref _) (fun _ => keeps_bind (keeps_modify hreg) (fun _ => ?_))
  refine keeps_bind (keeps_wire hJ w row ref) (fun _ => keeps_bind (keeps_persistStatus hJ.toCalm hrows row _) ?_)
  exact fun _ => keeps_bind (keeps_setState hJ.toCalm w i) (fun _ => keeps_ret _)

theorem quiet_locks (P : (InstanceId → Option WorkerId) → Prop) : Quiet market (fun s _ => P s.locks) :=
  quiet_of (fun _ _ hP => hP) (fun _ _ _ _ hP => hP) (fun _ _ _ _ hP => hP)

theorem quiet_registry (w : WorkerId) (P : (InstanceId → Option Nat) → Prop) :
    Quiet market (fun s _ => P (s.workers w).registry) := by
  refine quiet_of (P := fun s => P (s.workers w).registry) (fun _ _ hP => hP) (fun _ _ _ _ hP => hP) ?_
  intro s x f hf hP
  by_cases hw : w = x
  · subst hw
    simpa [System.setWorker, hf] using hP
  · simpa [System.setWorker, hw] using hP

theorem wp_launch (s : System) (m : Market) : wp market (launch w i row ref)
    (fun _ s' _ => (s'.workers w).registry row.id = some ref) s m := by
  have hJ := quiet_registry w (fun registry => registry row.id = some ref)
  rw [launch, bind_eq, wp_bind, setProcessStatus, wp_modify, andThen_ok, bind_eq, wp_bind, register, wp_modify,
    andThen_ok]
  refine wp_of_keeps (J := fun s _ => (s.workers w).registry row.id = some ref) ?_ ?_ (fun _ _ _ h' => h')
  · refine keeps_bind (keeps_wire hJ w row ref) (fun _ => ?_)
    refine keeps_bind (keeps_persistStatus hJ.toCalm (fun _ _ _ hs => hs) row _) ?_
    exact fun _ => keeps_bind (keeps_setState hJ.toCalm w i) (fun _ => keeps_ret _)
  · simp [System.registered, System.setWorker]

/-- What a start has done to the locks and the registry, and what it has left alone. -/
structure Traced (w : WorkerId) (i : InstanceId) (userId : UUID) (s : System) (m : Market) (s' : System)
    (m' : Market) : Prop where
  traces : LeavesTraces w i userId s m →
    (s'.locks i = some w ∧ s.locks i = none) ∨ ∃ j, (s'.workers w).registry j = some s.size
  none : ¬ LeavesTraces w i userId s m → s' = s ∧ m'.orders = m.orders

theorem traced_untouched {m' : Market} (hno : ¬ LeavesTraces w i userId s m) (hm : m'.orders = m.orders) :
    Traced w i userId s m s m' := ⟨fun hyes => absurd hyes hno, fun _ => ⟨rfl, hm⟩⟩

theorem traced_refused {m' : Market} (hno : ∀ row, ¬ Admitted i userId s m row) (hm : m'.orders = m.orders) :
    Traced w i userId s m s m' := by
  refine traced_untouched ?_ hm
  rintro ⟨row, hadm, -⟩
  exact hno row hadm

theorem wp_start_without {m' : Market} (hadm : Admitted i userId s m row) (hwithout : GoesWithout w i s m)
    (hfree : ¬ TakesLock w i s m) (hafter : afterLock w i m = m') (horders : m'.orders = m.orders) :
    wp market (buildProcessFromInstance w row >>= launch w i row)
      (fun _ s' m' => Traced w i userId s m s' m') s m' := by
  subst hafter
  rw [bind_eq, wp_bind]
  refine wp_build_market (fun hbuilds p m1 _ => ?_) (fun hno e m1 hm1 => ?_)
  · rw [andThen_ok]
    refine wp_mono (wp_launch _ m1) (fun _ s2 m2 h2 => ⟨fun _ => .inr ⟨row.id, h2⟩, fun hno => ?_⟩)
    exact absurd ⟨row, hadm, .inr ⟨hwithout, hbuilds⟩⟩ hno
  · refine traced_untouched ?_ (hm1.trans horders)
    rintro ⟨row', hadm', hlock | ⟨-, hbuilds⟩⟩
    · exact hfree hlock
    · cases hadm.found.symm.trans hadm'.found
      exact hno hbuilds

theorem wp_start_admitted (hadm : Admitted i userId s m row) :
    wp market (do
      let acquired ← acquireLock w i
      raiseIf (acquired = false) (locked row "Process is already running or locked by another worker")
      let ref ← buildProcessFromInstance w row
      launch w i row ref) (fun _ s' m' => Traced w i userId s m s' m') s m.tick.tick := by
  have hfate : m.tick.tick.script m.tick.tick.clock (.send (.setNx w i)) = lockFate w i m := rfl
  rw [bind_eq, wp_bind]
  refine wp_acquireLock ?_
  rw [hfate]
  split
  next hexec =>
    have hafter : afterLock w i m = m.tick.tick.tick.tick := if_pos hexec
    cases hlock : s.locks i with
    | none =>
        -- the lock is taken, and nothing that follows gives it back
        have htaken : setNx w i s = (true, { s with locks := Function.update s.locks i (some w) }) := by
          simp [setNx, hlock]
        have hJ := quiet_locks (fun locks => locks i = some w)
        simp only [htaken, ite_self, andThen_ok]
        refine wp_of_keeps (J := fun s _ => s.locks i = some w) ?_ (by simp) (fun _ s' m' h' => ⟨fun _ => .inl ⟨h', hlock⟩,
          fun hno => absurd ⟨row, hadm, .inl ⟨hexec, hlock⟩⟩ hno⟩)
        refine keeps_bind (keeps_raiseIf _ _) (fun _ => keeps_bind (keeps_buildProcess hJ w row) (fun ref => ?_))
        exact keeps_launch hJ (fun _ _ _ hs => hs) (fun _ _ hs => hs)
    | some other =>
        have hheld : setNx w i s = (false, s) := by simp [setNx, hlock]
        have hfree : ¬ TakesLock w i s m := fun ht => by
          rw [ht.2] at hlock
          cases hlock
        simp only [hheld, andThen_ok]
        cases hrep : (lockFate w i m).replied with
        | true =>
            refine traced_untouched ?_ rfl
            rintro ⟨row', -, ht | ⟨hexec' | ⟨hrep', -⟩, -⟩⟩
            · exact hfree ht
            · cases hexec.symm.trans hexec'
            · cases hrep.symm.trans hrep'
        | false =>
            exact wp_start_without hadm (.inr ⟨hrep, by simp [hlock]⟩) hfree hafter rfl
  next hexec =>
    have hnot : (lockFate w i m).executed = false := by simpa using hexec
    have hafter : afterLock w i m = m.tick.tick.tick := if_neg hexec
    exact wp_start_without hadm (.inl hnot) (fun ht => hexec ht.1) hafter rfl

theorem wp_start : wp market (start w i userId) (fun _ s' m' => Traced w i userId s m s' m') s m := by
  rw [start, bind_eq, wp_bind, getInstance, bind_eq]
  refine wp_bind_await (fun e hfailed => ?_) (fun u hquery => ?_)
  · refine traced_refused (fun row hadm => ?_) rfl
    cases hfailed.symm.trans hadm.query
  rw [bind_eq, wp_bind, wp_read, andThen_ok]
  cases hrow : s.rows.get i with
  | none =>
      refine traced_refused (fun row hadm => ?_) rfl
      cases hrow.symm.trans hadm.found
  | some row =>
      simp only [pure_eq, wp_ret, andThen_ok]
      have hsame : ∀ row', Admitted i userId s m row' → row' = row := by
        intro row' hadm
        cases hrow.symm.trans hadm.found
        rfl
      rw [bind_eq, wp_bind]
      refine wp_raiseIf _ _ (fun hother => ?_) (fun howner => ?_)
      · refine traced_refused (fun row' hadm => ?_) rfl
        cases hsame row' hadm
        exact hother hadm.owner
      rw [andThen_ok, bind_eq, wp_bind, wp_lift]
      cases hvalid : validateTransition row.status .running with
      | error e =>
          refine traced_refused (fun row' hadm => ?_) rfl
          cases hsame row' hadm
          cases hvalid.symm.trans (validateTransition_ok.mpr hadm.edge)
      | ok u =>
          have hedge := validateTransition_ok.mp hvalid
          rw [andThen_ok, bind_eq, wp_bind, checkDuplicateRunning, bind_eq, wp_bind, getByStatus, bind_eq]
          refine wp_bind_await (fun e hfailed => ?_) (fun u hqueryRunning => ?_)
          · refine traced_refused (fun row' hadm => ?_) rfl
            cases hfailed.symm.trans hadm.queryRunning
          simp only [andThen_ok, bind_eq, wp_bind, wp_read, pure_eq, wp_ret]
          refine wp_raiseIf _ _ (fun hdup => ?_) (fun hsingle => ?_)
          · refine traced_refused (fun row' hadm => ?_) rfl
            cases hsame row' hadm
            obtain ⟨other, hother, hd⟩ := List.any_eq_true.mp hdup
            exact absurd (hd.symm.trans (hadm.single other hother)) (by simp)
          · have hadm : Admitted i userId s m row :=
              ⟨hquery, hrow, not_not.mp howner, hedge, hqueryRunning, by simpa using hsingle⟩
            exact wp_start_admitted hadm

/-- A start that raises leaves everything as it was if and only if it does not
get to the lock, is refused it, or goes on without it and cannot build its process. -/
theorem start_all_or_nothing_iff (hs : Reached s) {e : Exn}
    (hraise : (outcome market (s, m) (.start w i userId)).1 = .error e) :
    Unchanged i s m (outcome market (s, m) (.start w i userId)).2.1 (outcome market (s, m) (.start w i userId)).2.2 ↔
      ¬ LeavesTraces w i userId s m := by
  have hwp : wp market (perform (.start w i userId)) (fun r s' m' => ∀ e, r = .error e →
      s'.rows = s.rows ∧ (LeavesTraces w i userId s m →
        (s'.locks i = some w ∧ s.locks i = none) ∨ ∃ j, (s'.workers w).registry j = some s.size) ∧
      (¬ LeavesTraces w i userId s m → s'.workers = s.workers ∧ s'.locks = s.locks ∧ m'.orders = m.orders)) s m := by
    refine wp_session ?_
    rw [operation, one, bind_eq, wp_bind]
    refine wp_mono wp_start ?_
    rintro (e1 | a) s1 m1 htraced
    · refine ⟨fun e2 _ e _ => ⟨rfl, htraced.traces, fun hno => ?_⟩, fun a ha => by cases ha⟩
      obtain ⟨rfl, horders⟩ := htraced.none hno
      exact ⟨rfl, rfl, horders⟩
    · refine ⟨fun e he => ?_, fun b _ => ⟨fun e1 e _ => ⟨rfl, htraced.traces, fun hno => ?_⟩, fun e he => ?_⟩⟩
      · cases he
      · obtain ⟨rfl, horders⟩ := htraced.none hno
        exact ⟨rfl, rfl, horders⟩
      · cases he
  obtain ⟨hrows, htraces, hnone⟩ := hwp e hraise
  constructor
  · rintro hun hleaves
    rcases htraces hleaves with ⟨htaken, hfree⟩ | ⟨j, hreg⟩
    · have hlock := congrFun hun.locks i
      change (outcome market (s, m) (.start w i userId)).2.1.locks i = some w at htaken
      rw [htaken, hfree] at hlock
      cases hlock
    · have hregs := congrFun (hun.registry w) j
      change ((outcome market (s, m) (.start w i userId)).2.1.workers w).registry j = some s.size at hreg
      rw [hreg] at hregs
      exact absurd ((reached_numbered hs) w j s.size hregs.symm).1 (Nat.lt_irrefl _)
  · intro hno
    obtain ⟨hworkers, hlocks, horders⟩ := hnone hno
    refine ⟨?_, fun w' => ?_, hlocks, fun r o => ?_⟩
    · exact congrArg (fun rows => (rows.get i).map TradingInstance.status) hrows
    · exact congrArg (fun workers => (workers w').registry) hworkers
    · exact iff_of_eq (congrArg (fun orders => orders[r]? = some o ∧ o.state = .live) horders)

def open100 : Market := marketWith (.ok 100) Grid.Trading.willing

/-- A bot that is ready to be started. -/
def prepared : System :=
  (runEvents market ({}, open100) [.call (.createProcess "a" (botArgs 1)), .call (.prepare "a" 1)]).1

/-- The exchange does not accept the credentials. -/
def rejecting : Market :=
  { open100 with script := fun _ q => match q with
      | .authenticate _ => .ok false
      | q => answers (.ok 100) q }

theorem start_all_or_nothing_iff_rejected :
    Unchanged "a" prepared rejecting (outcome market (prepared, rejecting) (.start 0 "a" 1)).2.1
        (outcome market (prepared, rejecting) (.start 0 "a" 1)).2.2 ↔
      ¬ LeavesTraces 0 "a" 1 prepared rejecting :=
  start_all_or_nothing_iff (e := authenticationError "Exchange authentication failed")
    ⟨Market, market, open100, _, rfl⟩ (by decide +kernel)

/-- The start fails when the lock is held already; the lock stays, and a second start is refused because of it. -/
theorem failed_start_keeps_lock :
    (outcome market (prepared, rejecting) (.start 0 "a" 1)).1 =
        .error (authenticationError "Exchange authentication failed") ∧
      ¬ Unchanged "a" prepared rejecting (outcome market (prepared, rejecting) (.start 0 "a" 1)).2.1
        (outcome market (prepared, rejecting) (.start 0 "a" 1)).2.2 ∧
      (outcome market ((outcome market (prepared, rejecting) (.start 0 "a" 1)).2.1, open100) (.start 0 "a" 1)).1 =
        .error (locked readyBot "Process is already running or locked by another worker") := by
  refine ⟨by decide +kernel, fun h => ?_, by decide +kernel⟩
  have hlock := congrFun h.locks "a"
  revert hlock
  decide +kernel

end Utos.Process.AllOrNothing
