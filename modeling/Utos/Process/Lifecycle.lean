import Utos.Process.Wiring
import Utos.Coroutine.Trace
import Utos.Coroutine.Run

namespace Utos.Process.Lifecycle

open Coroutine Core Core.DomainTypes Core.Exceptions Execution.Service StateMachine Manager Wiring

def locked (row : TradingInstance) (message : String) : Exn :=
  .invalidStateTransition message row.status.value TradingInstanceStatus.running.value

def start (w : WorkerId) (i : InstanceId) (userId : UUID) : Op TradingInstance := do
  let row ← getInstance i
  validateOwnership row userId
  .lift (validateTransition row.status .running)
  checkDuplicateRunning row
  let acquired ← acquireLock w i
  raiseIf (acquired = false) (locked row "Process is already running or locked by another worker")
  let ref ← buildProcessFromInstance w row
  setProcessStatus ref .running
  register w row.id ref
  wire w row ref
  let row ← persistStatus row .running
  setState w i
  return row

/-- The registered process of the instance, or else a new one, which is registered. -/
def getOrBuild (w : WorkerId) (row : TradingInstance) : Op Nat := do
  match ← getProcess w row.id with
  | some ref => return ref
  | none => do
      let ref ← buildProcessFromInstance w row
      register w row.id ref
      return ref

def pause (w : WorkerId) (i : InstanceId) (userId : UUID) : Op TradingInstance := do
  let row ← getInstance i
  validateOwnership row userId
  .lift (validateTransition row.status .paused)
  let ref ← getOrBuild w row
  unwire w row ref
  setProcessStatus ref .paused
  let row ← persistStatus row .paused
  setState w i
  releaseLock w i
  return row

def resume (w : WorkerId) (i : InstanceId) (userId : UUID) : Op TradingInstance := do
  let row ← getInstance i
  validateOwnership row userId
  .lift (validateTransition row.status .running)
  releaseLock w i
  let acquired ← acquireLock w i
  raiseIf (acquired = false) (locked row "Cannot resume process; lock is held by another worker")
  let ref ← getOrBuild w row
  setProcessStatus ref .running
  let row ← persistStatus row .running
  setState w i
  return row

def disconnect (ref : Nat) : Op Unit := do
  let s ← .read
  tryCatch (.await (.disconnect (s.processes ref).exchangeName) id) (fun _ => return ())

/-- What stop does with the process registered at this worker, if there is one. -/
def dismantle (w : WorkerId) (row : TradingInstance) : Op Unit := do
  match ← getProcess w row.id with
  | none => return ()
  | some ref => do
      setProcessStatus ref .stopping
      unwire w row ref
      disconnect ref

/-- instance.status = status, and flush. -/
def flushStatus (row : TradingInstance) (status : TradingInstanceStatus) : Op Unit := do
  .await .flush id
  .modify (fun s => { s with rows := s.rows.set row.id (((s.rows.get row.id).getD row).withStatus status) })

def stop (w : WorkerId) (i : InstanceId) (userId : UUID) : Op TradingInstance := do
  let row ← getInstance i
  validateOwnership row userId
  .lift (validateTransition row.status .stopping)
  flushStatus row .stopping
  dismantle w row
  releaseLock w i
  unregister w i
  let row ← persistStatus row .stopped
  setState w i
  return row

/-- The GET of a refused recovery; unlike the other commands it is not guarded. -/
def currentLock (w : WorkerId) (i : InstanceId) : Op (Option WorkerId) := do
  match ← redis (.get w i) (fun s => (s.locks i, s)) with
  | none => throw (named "RedisError" "GET failed")
  | some held => return held

/-- Whether _validate_symbol raises SymbolNotSupported; other exceptions go through. -/
def symbolSupported (exchangeName symbol : String) : Op Bool :=
  tryCatch (do validateSymbol exchangeName symbol; return true)
    (fun exc => if isSymbolNotSupported exc then return false else throw exc)

def finalStatus (previous : TradingInstanceStatus) : TradingInstanceStatus :=
  if previous = .running ∨ previous = .recovering then .running else .paused

/-- The lock part of _recover_instance. The client decodes responses, so
current_lock is a str and startswith raises a TypeError for the bytes it is given:
the branch for a lock of another worker is never entered. -/
def takeOver (w : WorkerId) (i : InstanceId) : Op Unit := do
  let acquired ← acquireLock w i
  if acquired = false then
    match ← currentLock w i with
    | some _ => throw (named "TypeError" "startswith first arg must be str or a tuple of str, not bytes")
    | none => return ()

/-- The process for an instance that the health check and the symbol check let pass. -/
def buildFit (w : WorkerId) (row : TradingInstance) : Op (Option Nat) := do
  let ref ← buildProcessFromInstance w row
  let s ← .read
  let healthy ← .await (.healthCheck (s.processes ref).exchangeName) id
  if healthy = false then return none
  else
    let supported ← symbolSupported (s.processes ref).exchangeName row.symbol
    return (if supported then some ref else none)

def recoveryChecks (w : WorkerId) (row : TradingInstance) : Op (Option Nat) := do
  takeOver w row.id
  buildFit w row

/-- The part of _recover_instance after its checks. -/
def restore (w : WorkerId) (row : TradingInstance) (ref : Nat) : Op TradingInstance := do
  setProcessStatus ref .recovering
  let _ ← persistStatus row .recovering
  setProcessStatus ref (finalStatus row.status)
  let restored ← persistStatus row (finalStatus row.status)
  setState w row.id
  register w row.id ref
  return restored

def recoverInstance (w : WorkerId) (row : TradingInstance) : Op TradingInstance := do
  .lift (validateTransition row.status .recovering)
  match ← recoveryChecks w row with
  | none => persistStatus row .error
  | some ref => restore w row ref

/-- One pass of the loop of recover: the instance that is appended, if any. -/
def recoverOne (w : WorkerId) (row : TradingInstance) : Op (Option TradingInstance) :=
  tryCatch (do
      let restored ← recoverInstance w row
      return some restored)
    (fun _ => do
      let _ ← persistStatus row .error
      return none)

def recoverAll (w : WorkerId) : List TradingInstance → Op (List TradingInstance)
  | [] => return []
  | row :: rows => do
      let recovered ← recoverOne w row
      let others ← recoverAll w rows
      return recovered.toList ++ others

def recoverStatus (w : WorkerId) (status : TradingInstanceStatus) : Op (List TradingInstance) := do
  let rows ← getByStatus status
  recoverAll w rows

def recover (w : WorkerId) : Op (List TradingInstance) := do
  let running ← recoverStatus w .running
  let paused ← recoverStatus w .paused
  let recovering ← recoverStatus w .recovering
  return running ++ paused ++ recovering

/-- A call of one of the operations. -/
inductive Call
  | createProcess (i : InstanceId) (args : CreateArgs)
  | prepare (i : InstanceId) (userId : UUID)
  | start (w : WorkerId) (i : InstanceId) (userId : UUID)
  | pause (w : WorkerId) (i : InstanceId) (userId : UUID)
  | resume (w : WorkerId) (i : InstanceId) (userId : UUID)
  | stop (w : WorkerId) (i : InstanceId) (userId : UUID)
  | recover (w : WorkerId)

def one (p : Op TradingInstance) : Op (List TradingInstance) := do return [← p]

def operation : Call → Op (List TradingInstance)
  | .createProcess i args => one (createProcess i args)
  | .prepare i userId => one (prepare i userId)
  | .start w i userId => one (start w i userId)
  | .pause w i userId => one (pause w i userId)
  | .resume w i userId => one (resume w i userId)
  | .stop w i userId => one (stop w i userId)
  | .recover w => recover w

/-- The session of a call: it commits, or rolls back and raises. -/
def inSession {α : Type} (p : Op α) : Op α := do
  let before ← .read
  tryCatch (do
      let a ← p
      .await .commit id
      return a)
    (fun exc => do
      .modify (fun s => { s with rows := before.rows })
      throw exc)

def perform (call : Call) : Op (List TradingInstance) := inSession (operation call)

end Utos.Process.Lifecycle

namespace Utos.Process.Runs

open Coroutine Core.Exceptions Manager Lifecycle

/-- One call runs to its end, or a worker is restarted, a lock expires, or the
outside world changes. -/
inductive Event (W : Type)
  | call (c : Call)
  | restart (w : WorkerId) (gridUp hubUp : Bool)
  | expire (i : InstanceId)
  | world (ω : W)

variable {W : Type} (h : Handler W Req Ans)

def outcome (x : System × W) (c : Call) : Except Exn (List TradingInstance) × System × W :=
  Program.run h (perform c) x.1 x.2

def step (x : System × W) : Event W → System × W
  | .call c => (outcome h x c).2
  | .restart w gridUp hubUp => (x.1.setWorker w (fun _ => { gridUp := gridUp, hubUp := hubUp }), x.2)
  | .expire i => ({ x.1 with locks := Function.update x.1.locks i none }, x.2)
  | .world ω => (x.1, ω)

def runEvents (x : System × W) (events : List (Event W)) : System × W := events.foldl (step h) x

/-- The answers outside the exchange when nothing fails. -/
def smooth (price : Except Exn ℚ) : (q : Req) → Ans q
  | .query | .flush | .refresh | .commit | .closeStream => .ok ()
  | .account _ => .ok (some { userId := 1, isActive := true, exchangeName := "binance", registered := true
                              credentials := .ok () })
  | .strategy _ => .ok (some true)
  | .gridProfile _ => .ok (some { userId := 1, investmentPerGrid := 100 })
  | .averaging _ => .ok ⟨[], List.nodup_nil⟩
  | .initializeAdapter _ | .disconnect _ | .restoreMemory _ | .openStream .. => .ok ()
  | .authenticate _ | .healthCheck _ => .ok true
  | .exchangeInfo _ => .ok ["BTCUSDT"]
  | .send _ => { executed := true, replied := true }
  | .reply _ => ()
  | .getPrice .. => price
  | .breakerConfig _ => .ok { criticalThreshold := 3 }
  | .exec _ _ => .error (.gridError "offline")

/-- A world in which all goes well, but no grid is wired. -/
def unwired : Handler Unit Req Ans := fun _ q => (smooth (.error (named "SymbolNotSupported" "BTCUSDT")) q, ())

def botArgs (strategyId : Core.DomainTypes.UUID) : CreateArgs :=
  { userId := 1, exchangeAccountId := 1, strategyId := strategyId, gridProfileId := 1, symbol := "btcusdt" }

end Utos.Process.Runs
