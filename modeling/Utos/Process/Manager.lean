import Utos.Core.Exceptions
import Utos.Core.Dict
import Utos.Grid.Engine

namespace Utos.Process.StateMachine

open Core.Exceptions

inductive TradingInstanceStatus
  | created
  | ready
  | running
  | paused
  | stopping
  | stopped
  | error
  | recovering
  | recovered
  deriving DecidableEq, Repr

def TradingInstanceStatus.value : TradingInstanceStatus → String
  | created => "created"
  | ready => "ready"
  | running => "running"
  | paused => "paused"
  | stopping => "stopping"
  | stopped => "stopped"
  | error => "error"
  | recovering => "recovering"
  | recovered => "recovered"

/-- ProcessStateMachine.TRANSITIONS -/
def transitions : TradingInstanceStatus → List TradingInstanceStatus
  | .created => [.ready]
  | .ready => [.running]
  | .running => [.paused, .stopping, .recovering, .error]
  | .paused => [.running, .recovering, .error]
  | .stopping => [.stopped, .error]
  | .stopped => []
  | .error => []
  | .recovering => [.recovered, .error]
  | .recovered => [.running, .paused, .error]

def validateTransition (current target : TradingInstanceStatus) : Except Exn Unit :=
  if current = target then
    .error (.invalidStateTransition s!"Process is already in state {current.value}" current.value target.value)
  else if target ∈ transitions current then .ok ()
  else .error (.invalidStateTransition s!"Cannot transition from {current.value} to {target.value}"
    current.value target.value)

theorem validateTransition_ok {current target : TradingInstanceStatus} :
    validateTransition current target = .ok () ↔ target ∈ transitions current := by
  cases current <;> cases target <;> simp [validateTransition, transitions]

end Utos.Process.StateMachine

namespace Utos.Process.Manager

open Coroutine Core Core.DomainTypes Core.Exceptions Execution.Service Grid.Calculator Grid.Engine StateMachine

abbrev InstanceId := String

/-- WORKER_ID -/
abbrev WorkerId := Nat

/-- A row of trading_instances. The last field is read by no operation: the
statuses that were persisted, the newest first. -/
structure TradingInstance where
  id : InstanceId
  userId : UUID
  exchangeAccountId : UUID
  strategyId : UUID
  gridProfileId : UUID
  symbol : String
  status : TradingInstanceStatus
  breakerEnabled : Bool := true
  continuationRate : Option ℚ := none
  deleted : Bool := false
  history : List TradingInstanceStatus := [status]
  deriving DecidableEq, Repr

/-- An exchange account; registered says whether ExchangeFactory knows its
exchange, credentials what CredentialManager.decrypt makes of its two secrets. -/
structure Account where
  userId : UUID
  isActive : Bool
  exchangeName : String
  registered : Bool
  credentials : Except Exn Unit

structure GridProfile where
  userId : UUID
  investmentPerGrid : ℚ

structure TradingProcess where
  instanceId : InstanceId := ""
  workerId : WorkerId := 0
  exchangeName : String := ""
  status : TradingInstanceStatus := .created
  subscriptionId : Option Nat := none
  deriving DecidableEq, Repr

/-- A command to Redis. -/
inductive RedisCmd
  | setNx (w : WorkerId) (i : InstanceId)
  | del (w : WorkerId) (i : InstanceId)
  | get (w : WorkerId) (i : InstanceId)
  | setState (w : WorkerId) (i : InstanceId)
  deriving DecidableEq, Repr

/-- Whether a command is carried out, and whether the client learns of it. Without a client it is neither. -/
structure RedisFate where
  executed : Bool
  replied : Bool

/-- What the manager awaits. -/
inductive Req
  | query
  | flush
  | refresh
  | commit
  | account (id : UUID)
  | strategy (id : UUID)
  | gridProfile (id : UUID)
  | averaging (i : InstanceId)
  | initializeAdapter (exchangeName : String)
  | authenticate (exchangeName : String)
  | exchangeInfo (exchangeName : String)
  | healthCheck (exchangeName : String)
  | disconnect (exchangeName : String)
  | restoreMemory (i : InstanceId)
  | send (cmd : RedisCmd)
  | reply (cmd : RedisCmd)
  | getPrice (exchangeName symbol : String)
  | openStream (exchangeName symbol : String)
  | closeStream
  | breakerConfig (i : InstanceId)
  | exec (w : WorkerId) (q : ExecReq Owner)

abbrev Ans : Req → Type
  | .query => Except Exn Unit
  | .flush => Except Exn Unit
  | .refresh => Except Exn Unit
  | .commit => Except Exn Unit
  | .account _ => Except Exn (Option Account)
  | .strategy _ => Except Exn (Option Bool)
  | .gridProfile _ => Except Exn (Option GridProfile)
  | .averaging _ => Except Exn AveragingSteps
  | .initializeAdapter _ => Except Exn Unit
  | .authenticate _ => Except Exn Bool
  | .exchangeInfo _ => Except Exn (List String)
  | .healthCheck _ => Except Exn Bool
  | .disconnect _ => Except Exn Unit
  | .restoreMemory _ => Except Exn Unit
  | .send _ => RedisFate
  | .reply _ => Unit
  | .getPrice .. => Except Exn ℚ
  | .openStream .. => Except Exn Unit
  | .closeStream => Except Exn Unit
  | .breakerConfig _ => Except Exn BreakerArgs
  | .exec _ q => ExecAns Owner q

def Req.isExec : Req → Bool
  | .exec .. => true
  | _ => false

/-- What lives in one server process: the process registry, the grid engine and
the market hub with its live consumers, each with the instance whose price
callback it is. -/
structure Worker where
  registry : InstanceId → Option Nat := fun _ => none
  gridUp : Bool := true
  hubUp : Bool := true
  grid : GridEngine := {}
  subs : List (Nat × InstanceId) := []
  nextSub : Nat := 0

/-- The table trading_instances, the lock keys in Redis with the worker named in
their value, and the workers. Process objects are shared by reference and are
numbered in the order of their creation. -/
structure System where
  rows : Dict InstanceId TradingInstance := ∅
  locks : InstanceId → Option WorkerId := fun _ => none
  processes : Nat → TradingProcess := fun _ => {}
  size : Nat := 0
  workers : WorkerId → Worker := fun _ => {}

abbrev Op (α : Type) := Program System Req Ans Exn α

def named (className message : String) : Exn := .other className message

def authenticationError (message : String) : Exn := named "AuthenticationError" message

def symbolNotSupported (symbol exchange : String) : Exn :=
  named "SymbolNotSupported" s!"Symbol {symbol} not supported by exchange {exchange}"

def isSymbolNotSupported : Exn → Bool
  | .other className _ => className = "SymbolNotSupported"
  | _ => false

def System.setWorker (s : System) (w : WorkerId) (f : Worker → Worker) : System :=
  { s with workers := Function.update s.workers w (f (s.workers w)) }

def System.setProcess (s : System) (ref : Nat) (f : TradingProcess → TradingProcess) : System :=
  { s with processes := Function.update s.processes ref (f (s.processes ref)) }

/-- The grid engine of a worker. -/
def gridLens (w : WorkerId) : Program.Lens System GridEngine where
  view s := (s.workers w).grid
  set s grid := s.setWorker w (fun x => { x with grid := grid })
  view_set s grid := by simp [System.setWorker]
  set_view s := by simp [System.setWorker]
  set_set s g g' := by simp [System.setWorker]

def onGrid {α : Type} (w : WorkerId) (p : Grid.Engine.Op α) : Op α :=
  .relay (Req.exec w) (fun _ a => a) (.zoom (gridLens w) p)

/-- A command to Redis: none if it fails, or if there is no client. -/
def redis {α : Type} (cmd : RedisCmd) (exec : System → α × System) : Op (Option α) := do
  let fate ← .call (.send cmd) .ret
  if fate.executed then
    let a ← .attempt (fun s => .ok (exec s))
    let _ ← .call (.reply cmd) .ret
    return (if fate.replied then some a else none)
  else return none

/-- SET key value NX EX 60 -/
def setNx (w : WorkerId) (i : InstanceId) (s : System) : Bool × System :=
  match s.locks i with
  | none => (true, { s with locks := Function.update s.locks i (some w) })
  | some _ => (false, s)

def acquireLock (w : WorkerId) (i : InstanceId) : Op Bool := do
  let acquired ← redis (.setNx w i) (setNx w i)
  -- a failed command and a missing client both allow
  return acquired.getD true

def releaseLock (w : WorkerId) (i : InstanceId) : Op Unit := do
  let _ ← redis (.del w i) (fun s => ((), { s with locks := Function.update s.locks i none }))

/-- _ProcessStateStore.set_state; the state keys are read by no operation. -/
def setState (w : WorkerId) (i : InstanceId) : Op Unit := do
  let _ ← redis (.setState w i) (fun s => ((), s))

def System.registered (s : System) (w : WorkerId) (i : InstanceId) (ref : Option Nat) : System :=
  s.setWorker w (fun x => { x with registry := Function.update x.registry i ref })

def register (w : WorkerId) (i : InstanceId) (ref : Nat) : Op Unit := .modify (fun s => s.registered w i (some ref))

def unregister (w : WorkerId) (i : InstanceId) : Op Unit := .modify (fun s => s.registered w i none)

def getProcess (w : WorkerId) (i : InstanceId) : Op (Option Nat) := do
  let s ← .read
  return (s.workers w).registry i

/-- process.set_status(status) -/
def setProcessStatus (ref : Nat) (status : TradingInstanceStatus) : Op Unit :=
  .modify (fun s => s.setProcess ref (fun p => { p with status := status }))

def TradingInstance.withStatus (row : TradingInstance) (status : TradingInstanceStatus) : TradingInstance :=
  { row with status := status, history := status :: row.history }

/-- _persist_instance; the other columns it writes are read by no operation. -/
def persistStatus (row : TradingInstance) (status : TradingInstanceStatus) : Op TradingInstance := do
  .await .flush id
  .modify (fun s => { s with rows := s.rows.set row.id (((s.rows.get row.id).getD row).withStatus status) })
  .await .refresh id
  let s ← .read
  return (s.rows.get row.id).getD row

def getInstance (i : InstanceId) : Op TradingInstance := do
  .await .query id
  let s ← .read
  match s.rows.get i with
  | none => throw (named "TradingInstanceNotFound" s!"Trading instance {i} not found")
  | some row => return row

/-- if c: raise exc -/
def raiseIf (c : Prop) [Decidable c] (exc : Exn) : Op Unit := if c then throw exc else return ()

def validateOwnership (row : TradingInstance) (userId : UUID) : Op Unit :=
  raiseIf (row.userId ≠ userId) (authenticationError "Trading instance does not belong to user")

def accountNotFound (id : UUID) : Exn := named "ExchangeAccountNotFound" s!"Exchange account {id} not found"

def getAccount (accountId : UUID) : Op Account := do
  match ← .await (.account accountId) id with
  | none => throw (accountNotFound accountId)
  | some account => return account

/-- The part of _validate_account that can fail. -/
def validateAccount (account : Account) : Op Unit := do
  raiseIf (account.isActive = false) (.validationError "Exchange account is inactive")
  raiseIf (account.registered = false) (named "ConfigurationError" s!"No adapter for {account.exchangeName}")

def decrypted (account : Account) : Except Exn Unit :=
  account.credentials.mapError (fun exc => match exc with
    | .other "AuthenticationError" _ => authenticationError "Failed to decrypt exchange credentials"
    | exc => exc)

def authenticateAdapter (account : Account) : Op Unit := do
  .lift (decrypted account)
  .await (.initializeAdapter account.exchangeName) id
  let authenticated ← .await (.authenticate account.exchangeName) id
  raiseIf (authenticated = false) (authenticationError "Exchange authentication failed")

def validateSymbol (exchangeName symbol : String) : Op Unit := do
  let supported ← .await (.exchangeInfo exchangeName) id
  raiseIf (upper symbol ∉ supported.map upper) (symbolNotSupported symbol exchangeName)

def rowsWith (s : System) (status : TradingInstanceStatus) : List TradingInstance :=
  (s.rows.entries.map Prod.snd).filter (fun row => row.status = status)

/-- TradingInstanceRepository.get_by_status -/
def getByStatus (status : TradingInstanceStatus) : Op (List TradingInstance) := do
  .await .query id
  let s ← .read
  return rowsWith s status

def duplicates (row other : TradingInstance) : Bool :=
  other.id ≠ row.id ∧ upper other.symbol = upper row.symbol ∧ other.exchangeAccountId = row.exchangeAccountId ∧
    other.strategyId = row.strategyId

def checkDuplicateRunning (row : TradingInstance) : Op Unit := do
  let running ← getByStatus .running
  raiseIf (running.any (duplicates row))
    (.validationError "A running process already exists for this symbol, strategy and exchange account")

/-- The new process is the object numbered by the size before. -/
def System.newProcess (s : System) (p : TradingProcess) : System :=
  { s with processes := Function.update s.processes s.size p, size := s.size + 1 }

def buildProcessFromInstance (w : WorkerId) (row : TradingInstance) : Op Nat := do
  let account ← getAccount row.exchangeAccountId
  validateAccount account
  authenticateAdapter account
  .await (.restoreMemory row.id) id
  let s ← .read
  .modify (fun s => s.newProcess
    { instanceId := row.id, workerId := w, exchangeName := account.exchangeName, status := row.status })
  return s.size

structure CreateArgs where
  userId : UUID
  exchangeAccountId : UUID
  strategyId : UUID
  gridProfileId : UUID
  symbol : String
  continuationRate : Option ℚ := none
  breakerEnabled : Bool := true

def activeStatuses : List TradingInstanceStatus := [.running, .paused, .recovering, .stopping]

/-- TradingInstanceRepository.get_active_by_symbol_and_account -/
def activeWith (s : System) (symbol : String) (exchangeAccountId : UUID) : List TradingInstance :=
  (s.rows.entries.map Prod.snd).filter (fun row => row.symbol = upper symbol ∧
    row.exchangeAccountId = exchangeAccountId ∧ row.status ∈ activeStatuses ∧ row.deleted = false)

def newInstance (id : InstanceId) (args : CreateArgs) : TradingInstance :=
  { id := id, userId := args.userId, exchangeAccountId := args.exchangeAccountId, strategyId := args.strategyId
    gridProfileId := args.gridProfileId, symbol := upper args.symbol, status := .created
    breakerEnabled := args.breakerEnabled, continuationRate := args.continuationRate }

/-- What create_process checks of the records it is given the ids of. -/
def checkRecords (args : CreateArgs) : Op Unit := do
  let account ← .await (.account args.exchangeAccountId) id
  match account with
  | none => throw (accountNotFound args.exchangeAccountId)
  | some account => do
      raiseIf (account.userId ≠ args.userId) (accountNotFound args.exchangeAccountId)
      let strategy ← .await (.strategy args.strategyId) id
      raiseIf (strategy = none) (named "StrategyError" "Strategy not found")
      let profile ← .await (.gridProfile args.gridProfileId) id
      raiseIf (profile.map GridProfile.userId ≠ some args.userId) (.validationError "Grid profile not found")
      raiseIf (account.registered = false) (named "ConfigurationError" s!"No adapter for {account.exchangeName}")

/-- create_process. The id is the uuid4 of the new row, the primary key of the table. -/
def createProcess (i : InstanceId) (args : CreateArgs) : Op TradingInstance := do
  checkRecords args
  .await .query id
  let s ← .read
  raiseIf (activeWith s args.symbol args.exchangeAccountId ≠ []) (.validationError
    ("An active bot for " ++ upper args.symbol ++
      " already exists on this exchange account. Stop or delete it before creating a new one."))
  .await .flush id
  .attempt (fun s => match s.rows.get i with
    | some _ => .error (named "IntegrityError" "duplicate key")
    | none => .ok (newInstance i args, { s with rows := s.rows.set i (newInstance i args) }))

def prepare (i : InstanceId) (userId : UUID) : Op TradingInstance := do
  let row ← getInstance i
  validateOwnership row userId
  .lift (validateTransition row.status .ready)
  let account ← getAccount row.exchangeAccountId
  let active ← .await (.strategy row.strategyId) id
  raiseIf (active ≠ some true) (named "StrategyError" "Strategy not found or inactive")
  validateAccount account
  authenticateAdapter account
  validateSymbol account.exchangeName row.symbol
  persistStatus row .ready

end Utos.Process.Manager
