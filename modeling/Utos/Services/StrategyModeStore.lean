import Utos.Core.DomainTypes
import Utos.Core.Exceptions
import Utos.Coroutine.Pool

namespace Utos.Services.StrategyModeStore

open Coroutine Program Core.DomainTypes Core.Exceptions

/-- A row of the strategy_modes table. -/
structure StrategyMode where
  mode : String
  label : String
  tpRangeMin : ℚ := 0
  tpRangeMax : ℚ := 0
  riskLevel : String := "Medium"
  description : Option String := none
  isActive : Bool := true
  sortOrder : Int := 0
  deriving DecidableEq, Repr

/-- The dicts of the default modes lack the last two keys. -/
structure ModeDict where
  mode : String
  label : String
  tpRangeMin : ℚ
  tpRangeMax : ℚ
  riskLevel : String
  description : Option String
  isActive : Option Bool := none
  sortOrder : Option Int := none
  deriving DecidableEq, Repr

def defaultStrategyModes : List ModeDict :=
  [{ mode := "A", label := "Hyper", tpRangeMin := 0, tpRangeMax := 3 / 10, riskLevel := "Very Aggressive"
     description := some "Tightest grid (0.3% spacing). Maximum trade frequency — many small profits, fast capital rotation. Best for ranging markets. TP 0.75% per level." },
   { mode := "B", label := "Aggressive", tpRangeMin := 0, tpRangeMax := 6 / 10, riskLevel := "Aggressive"
     description := some "Tight grid (0.6% spacing). High trade frequency with moderate profit per level. Good for normal volatility. TP 1.5% per level." },
   { mode := "C", label := "Balanced", tpRangeMin := 0, tpRangeMax := 9 / 10, riskLevel := "Balanced"
     description := some "Moderate grid (0.9% spacing). Balanced trade frequency and profit. General-purpose mode. TP 2.25% per level." }]

def rowToDict (sm : StrategyMode) : ModeDict where
  mode := sm.mode
  label := sm.label
  tpRangeMin := sm.tpRangeMin
  tpRangeMax := sm.tpRangeMax
  riskLevel := sm.riskLevel
  description := sm.description
  isActive := some sm.isActive
  sortOrder := some sm.sortOrder

/-- What _load_from_db makes of the rows that its query finds. -/
def loadFromDb (rows : List StrategyMode) : List ModeDict :=
  if rows = [] then defaultStrategyModes else rows.map rowToDict

structure Fields where
  label : Option String := none
  tpRangeMin : Option ℚ := none
  tpRangeMax : Option ℚ := none
  riskLevel : Option String := none
  description : Option String := none
  deriving DecidableEq, Repr

def Fields.assign (fields : Fields) (sm : StrategyMode) : StrategyMode :=
  { sm with
    label := fields.label.getD sm.label
    tpRangeMin := fields.tpRangeMin.getD sm.tpRangeMin
    tpRangeMax := fields.tpRangeMax.getD sm.tpRangeMax
    riskLevel := fields.riskLevel.getD sm.riskLevel
    description := fields.description.or sm.description }

/-- The columns that a flush writes: those that are assigned another value than was read. -/
def Fields.dirty (fields : Fields) (sm : StrategyMode) : Fields where
  label := fields.label.filter (· ≠ sm.label)
  tpRangeMin := fields.tpRangeMin.filter (· ≠ sm.tpRangeMin)
  tpRangeMax := fields.tpRangeMax.filter (· ≠ sm.tpRangeMax)
  riskLevel := fields.riskLevel.filter (· ≠ sm.riskLevel)
  description := fields.description.filter (some · ≠ sm.description)

/-- The globals of the module. -/
structure Store where
  cache : Option (List ModeDict) := none
  locked : Bool := false

/-- What is awaited: the lock, the query of a load, the end of its session, which comes after a
failed query too, and what an update asks of its caller's session. -/
inductive Request
  | acquire
  | select
  | close (failed : Bool)
  | selectMode (session : Nat) (mode : String)
  | flush (session : Nat) (mode : String) (fields : Fields)
  | refresh (session : Nat) (mode : String)

abbrev Answer : Request → Type
  | .acquire => Unit
  | .select => Except Exn (List StrategyMode)
  | .close _ => Except Exn Unit
  | .selectMode .. => Except Exn (Option StrategyMode)
  | .flush .. => Except Exn Unit
  | .refresh .. => Except Exn StrategyMode

abbrev Op := Program Store Request Answer Exn

/-- The lock is released, and the cache is returned as it is then. -/
def leave : Op (Option (List ModeDict)) := .get (fun s => .put { s with locked := false } (.ret s.cache))

def closed (failed : Bool) (answer : Except Exn Unit) : Op (Option (List ModeDict)) :=
  match failed, answer with
  | false, .ok () => leave
  | _, _ => .get (fun s => .put { s with cache := some defaultStrategyModes } leave)

def selected (answer : Except Exn (List StrategyMode)) : Op (Option (List ModeDict)) :=
  match answer with
  | .ok rows => .get (fun s => .put { s with cache := some (loadFromDb rows) } (.call (.close false) (closed false)))
  | .error _ => .call (.close true) (closed true)

/-- The body of async with _cache_lock. -/
def underLock : Op (Option (List ModeDict)) :=
  .get (fun s =>
    match s.cache with
    | some _ => leave
    | none => .call .select selected)

/-- A lock that is free is taken without an await. -/
def loadStrategyModes : Op (Option (List ModeDict)) :=
  .get (fun s =>
    match s.cache with
    | some modes => .ret (some modes)
    | none => if s.locked then .call .acquire (fun _ => underLock) else .put { s with locked := true } underLock)

/-- What get_tp_range_max returns or raises, once it has the modes. -/
def tpRangeMaxIn (mode : String) : Option (List ModeDict) → Except Exn ℚ
  | none => .error (.other "TypeError" "'NoneType' object is not iterable")
  | some modes =>
      match modes.find? (·.mode = upper mode) with
      | some sm => .ok sm.tpRangeMax
      | none =>
          let modeUpper := upper mode
          .error (.other "ValueError" s!"Strategy mode {modeUpper} not found")

def getTpRangeMax (mode : String) : Op ℚ := .bind loadStrategyModes (fun modes => .lift (tpRangeMaxIn mode modes))

def invalidateCache (s : Store) : Store := { s with cache := none }

def refreshed (answer : Except Exn StrategyMode) : Op (Option ModeDict) :=
  .bind (.lift answer) (fun sm => .get (fun s => .put (invalidateCache s) (.ret (some (rowToDict sm)))))

def flushed (session : Nat) (mode : String) (answer : Except Exn Unit) : Op (Option ModeDict) :=
  .bind (.lift answer) (fun _ => .call (.refresh session (upper mode)) refreshed)

def found (session : Nat) (mode : String) (fields : Fields) (answer : Except Exn (Option StrategyMode)) :
    Op (Option ModeDict) :=
  .bind (.lift answer) (fun sm =>
    match sm with
    | none => .ret none
    | some sm => .call (.flush session (upper mode) (fields.dirty sm)) (flushed session mode))

def updateStrategyModeWithSession (session : Nat) (mode : String) (fields : Fields) : Op (Option ModeDict) :=
  .call (.selectMode session (upper mode)) (found session mode fields)

inductive Call
  | loadStrategyModes
  | getTpRangeMax (mode : String)
  | updateStrategyModeWithSession (mode : String) (fields : Fields)

inductive Value
  | modes (modes : Option (List ModeDict))
  | tpRangeMax (value : ℚ)
  | updated (mode : Option ModeDict)
  deriving DecidableEq

/-- The session of an update is that of its task. -/
def Call.program (task : Nat) : Call → Op Value
  | .loadStrategyModes => .bind StrategyModeStore.loadStrategyModes (fun modes => .ret (.modes modes))
  | .getTpRangeMax mode => .bind (StrategyModeStore.getTpRangeMax mode) (fun value => .ret (.tpRangeMax value))
  | .updateStrategyModeWithSession mode fields =>
      .bind (StrategyModeStore.updateStrategyModeWithSession task mode fields) (fun mode => .ret (.updated mode))

/-- The committed rows, in the order of sort_order and mode, which no update changes, and what
each session has flushed to its row since. -/
structure Database where
  rows : List StrategyMode
  pending : Nat → Option (String × Fields) := fun _ => none

def Database.committed (db : Database) (mode : String) (fields : Fields) : List StrategyMode :=
  db.rows.map (fun sm => if sm.mode = mode then fields.assign sm else sm)

def Database.row (db : Database) (session : Nat) (mode : String) : Option StrategyMode :=
  (db.rows.find? (·.mode = mode)).map (fun sm =>
    match db.pending session with
    | some (mode', fields) => if mode' = mode then fields.assign sm else sm
    | none => sm)

/-- A request succeeds, or fails with an exception. -/
def database (failure : Option Exn) : Handler Database Request Answer := fun db request =>
  match request, failure with
  | .acquire, _ => ((), db)
  | .select, none => (.ok (db.rows.filter (·.isActive)), db)
  | .close _, none => (.ok (), db)
  | .selectMode session mode, none => (.ok (db.row session mode), db)
  | .flush session mode fields, none =>
      (.ok (), { db with pending := Function.update db.pending session (some (mode, fields)) })
  | .refresh session mode, none =>
      (match db.row session mode with
        | some sm => .ok sm
        | none => .error (.other "InvalidRequestError" "Could not refresh instance"), db)
  | .select, some exc => (.error exc, db)
  | .close _, some exc => (.error exc, db)
  | .selectMode _ _, some exc => (.error exc, db)
  | .flush _ _ _, some exc => (.error exc, db)
  | .refresh _ _, some exc => (.error exc, db)

abbrev Calls := Pool Store Database Request Answer Exn Value

/-- The calls under way, and as a ghost which modes have a committed update since when no load has
failed, and which reads were started after the last commit of an update of such a mode. -/
structure State where
  pool : Calls
  promised : String → Bool := fun _ => false
  expected : Nat → Option String := fun _ => none

/-- The number of a task is used once. -/
inductive Event
  | call (task : Nat) (c : Call)
  | enter (task : Nat)
  | answer (task : Nat) (failure : Option Exn)
  | resume (task : Nat)
  | commit (task : Nat)

def expectation (promised : String → Bool) : Call → Option String
  | .getTpRangeMax mode => if promised (upper mode) then some (upper mode) else none
  | _ => none

/-- A request of a load, which a reachable database answers without a failure. -/
def Request.loads : Request → Bool
  | .select | .close _ => true
  | _ => false

/-- What a commit of a mode means to the reads: those from now on are owed its value. -/
def State.commit (x : State) (task : Nat) (mode : String) (fields : Fields) : State where
  pool := { x.pool with world := { rows := x.pool.world.committed mode fields
                                   pending := Function.update x.pool.world.pending task none } }
  promised := Function.update x.promised mode true
  expected := fun i => (x.expected i).filter (· ≠ mode)

def step (x : State) : Event → State
  | .call task c =>
      if (x.pool.tasks task).isNone then
        { x with pool := x.pool.start task (c.program task)
                 expected := Function.update x.expected task (expectation x.promised c) }
      else x
  | .enter task =>
      match x.pool.tasks task, x.pool.store.locked with
      | some (.asked .acquire _), false =>
          { x with pool := ({ x.pool with store := { x.pool.store with locked := true } } : Calls).act (database none) task }
      | _, _ => x
  | .answer task failure =>
      match x.pool.tasks task with
      | some (.asked .acquire _) => x
      | some (.asked request _) =>
          let x := { x with pool := x.pool.act (database failure) task }
          if request.loads ∧ failure.isSome then { x with promised := fun _ => false, expected := fun _ => none } else x
      | _ => x
  | .resume task => { x with pool := x.pool.resume task }
  | .commit task =>
      match x.pool.tasks task, x.pool.world.pending task with
      | some (.done (.ok (.updated (some _)))), some (mode, fields) => x.commit task mode fields
      | _, _ => x

/-- A module that was just loaded, without calls under way. -/
def opened (rows : List StrategyMode) : State where
  pool := { store := {}, world := { rows } }

/-- A read that was started after the last commit of an update of its mode returns the value that
is committed. -/
def Seen (x : State) : Prop :=
  ∀ task mode r, x.expected task = some mode → x.pool.tasks task = some (.done r) →
    ∃ sm, x.pool.world.rows.find? (·.mode = mode) = some sm ∧ r = .ok (.tpRangeMax sm.tpRangeMax)

end Utos.Services.StrategyModeStore
