import Utos.Core.Dict
import Utos.Core.Snapshot

namespace Utos.Core.Context

open Core Exceptions

/-- A value of a dict[str, Any]: what JSON can hold, a Decimal, or a datetime of the type T. -/
inductive Value (T : Type)
  | json (j : Json)
  | decimal (x : ℚ)
  | datetime (t : T)

/-- The numbers are exact; what may be a dict or a list is left as it is. -/
structure ProcessMemory (T : Type) where
  instanceId : String
  status : String
  currentPrice : Option ℚ := none
  lastPriceUpdate : Option T := none
  gridState : Json := .null
  currentPosition : Json := .null
  unrealizedPnl : ℚ := 0
  activeOrders : Json := .object []
  orderHistory : Json := .list []
  totalCycles : Int := 0
  totalProfit : ℚ := 0
  totalFees : ℚ := 0
  riskMetrics : Json := .object []
  strategyState : Json := .object []
  marketConnected : Bool := false
  accountConnected : Bool := false
  lastError : Option String := none
  errorCount : Int := 0
  lastUpdated : T
  version : Int := 1

def fieldNames : List String :=
  ["instance_id", "status", "current_price", "last_price_update", "grid_state", "current_position", "unrealized_pnl",
    "active_orders", "order_history", "total_cycles", "total_profit", "total_fees", "risk_metrics", "strategy_state",
    "market_connected", "account_connected", "last_error", "error_count", "last_updated", "version"]

abbrev Data (T : Type) := Dict String (Value T)

section

-- repr is the text of a float, now what utcnow() answers
variable {T : Type} (repr : ℚ → String) (isoformat : T → String) (fromisoformat : String → Except Exn T) (now : T)

/-- float(x) -/
def float (x : ℚ) : Json := .float (some x) (repr x)

/-- ProcessMemory.to_dict -/
def toDict (m : ProcessMemory T) : Data T where
  entries :=
    [("instance_id", .json (.text m.instanceId)),
     ("status", .json (.text m.status)),
     ("current_price", .json (match m.currentPrice with
        | none => .null
        | some x => if x ≠ 0 then float repr x else .null)),
     ("last_price_update", .json (match m.lastPriceUpdate with
        | none => .null
        | some t => .text (isoformat t))),
     ("grid_state", .json m.gridState),
     ("current_position", .json m.currentPosition),
     ("unrealized_pnl", .json (float repr m.unrealizedPnl)),
     ("active_orders", .json m.activeOrders),
     ("order_history", .json m.orderHistory),
     ("total_cycles", .json (.int m.totalCycles)),
     ("total_profit", .json (float repr m.totalProfit)),
     ("total_fees", .json (float repr m.totalFees)),
     ("risk_metrics", .json m.riskMetrics),
     ("strategy_state", .json m.strategyState),
     ("market_connected", .json (.bool m.marketConnected)),
     ("account_connected", .json (.bool m.accountConnected)),
     ("last_error", .json (Json.ofOptionalText m.lastError)),
     ("error_count", .json (.int m.errorCount)),
     ("last_updated", .json (.text (isoformat m.lastUpdated))),
     ("version", .json (.int m.version))]
  nodup := by
    show fieldNames.Nodup
    decide +kernel

def isNone : Value T → Bool
  | .json .null => true
  | _ => false

def conversionSyntax : Exn := .other "InvalidOperation" "[<class 'decimal.ConversionSyntax'>]"

/-- Decimal(str(value)) -/
def decimalOf : Value T → Except Exn (Value T)
  | .decimal x => .ok (.decimal x)
  | .json (.float (some x) _) => .ok (.decimal x)
  | .json (.int n) => .ok (.decimal n)
  | .json (.text s) => match Decimal.parse s with
    | some d => .ok (.decimal d.value)
    | none => .error conversionSyntax
  | _ => .error conversionSyntax

/-- datetime.fromisoformat(value) -/
def datetimeOf : Value T → Except Exn (Value T)
  | .json (.text s) => (fromisoformat s).map .datetime
  | _ => .error (.other "TypeError" "fromisoformat: argument must be str")

/-- The fields that from_dict converts, in its order. -/
def conversions : List (String × (Value T → Except Exn (Value T))) :=
  [("current_price", decimalOf), ("unrealized_pnl", decimalOf), ("total_profit", decimalOf),
   ("total_fees", decimalOf), ("last_price_update", datetimeOf fromisoformat),
   ("last_updated", datetimeOf fromisoformat)]

/-- if data.get(key) is not None: data[key] = f(data[key]) -/
def convert (key : String) (f : Value T → Except Exn (Value T)) (data : Data T) : Except Exn (Data T) :=
  match data.get key with
  | none => .ok data
  | some value => if isNone value then .ok data else (f value).map (data.set key)

/-- The conversions are written into the dict one by one, until one raises. -/
def convertAll : List (String × (Value T → Except Exn (Value T))) → Data T → Except Exn Unit × Data T
  | [], data => (.ok (), data)
  | (key, f) :: rest, data => match convert key f data with
    | .ok data => convertAll rest data
    | .error e => (.error e, data)

/-- A keyword argument, read at the type of its field. -/
def argument {α : Type} (data : Data T) (key : String) (default : α) (read : Value T → Except Exn α) :
    Except Exn α :=
  match data.get key with
  | none => .ok default
  | some value => read value

def unexpectedType : Exn := .other "TypeError" "unexpected type of a field"

def ofJson {α : Type} (read : Json → Except Exn α) : Value T → Except Exn α
  | .json j => read j
  | _ => .error unexpectedType

def asDecimal : Value T → Except Exn ℚ
  | .decimal x => .ok x
  | _ => .error unexpectedType

def asDatetime : Value T → Except Exn T
  | .datetime t => .ok t
  | _ => .error unexpectedType

def asOptional {α : Type} (read : Value T → Except Exn α) (value : Value T) : Except Exn (Option α) :=
  if isNone value then .ok none else (read value).map some

def asInt : Json → Except Exn Int
  | .int n => .ok n
  | _ => .error unexpectedType

/-- The message of the missing positional arguments. -/
def missingArguments : List String → String
  | [name] => s!"ProcessMemory.__init__() missing 1 required positional argument: '{name}'"
  | names => s!"ProcessMemory.__init__() missing {names.length} required positional arguments: " ++
      " and ".intercalate (names.map (fun name => s!"'{name}'"))

/-- cls(**data). The dataclass checks the names of its arguments only; a value of
another type than its field has is not represented here. -/
def construct (data : Data T) : Except Exn (ProcessMemory T) :=
  match data.entries.find? (fun e => e.1 ∉ fieldNames) with
  | some e => .error (.other "TypeError" s!"ProcessMemory.__init__() got an unexpected keyword argument '{e.1}'")
  | none =>
      let missing := ["instance_id", "status"].filter (fun name => (data.get name).isNone)
      if missing ≠ [] then .error (.other "TypeError" (missingArguments missing))
      else do
        return {
          instanceId := ← argument data "instance_id" "" (ofJson Json.asText)
          status := ← argument data "status" "" (ofJson Json.asText)
          currentPrice := ← argument data "current_price" none (asOptional asDecimal)
          lastPriceUpdate := ← argument data "last_price_update" none (asOptional asDatetime)
          gridState := ← argument data "grid_state" .null (ofJson .ok)
          currentPosition := ← argument data "current_position" .null (ofJson .ok)
          unrealizedPnl := ← argument data "unrealized_pnl" 0 asDecimal
          activeOrders := ← argument data "active_orders" (.object []) (ofJson .ok)
          orderHistory := ← argument data "order_history" (.list []) (ofJson .ok)
          totalCycles := ← argument data "total_cycles" 0 (ofJson asInt)
          totalProfit := ← argument data "total_profit" 0 asDecimal
          totalFees := ← argument data "total_fees" 0 asDecimal
          riskMetrics := ← argument data "risk_metrics" (.object []) (ofJson .ok)
          strategyState := ← argument data "strategy_state" (.object []) (ofJson .ok)
          marketConnected := ← argument data "market_connected" false (ofJson Json.asBool)
          accountConnected := ← argument data "account_connected" false (ofJson Json.asBool)
          lastError := ← argument data "last_error" none (ofJson Json.asOptionalText)
          errorCount := ← argument data "error_count" 0 (ofJson asInt)
          lastUpdated := ← argument data "last_updated" now asDatetime
          version := ← argument data "version" 1 (ofJson asInt) }

/-- ProcessMemory.from_dict, with what it leaves of its argument. -/
def fromDict (data : Data T) : Except Exn (ProcessMemory T) × Data T :=
  match convertAll (conversions fromisoformat) data with
  | (.ok _, data) => (construct now data, data)
  | (.error e, data) => (.error e, data)

end

end Utos.Core.Context
