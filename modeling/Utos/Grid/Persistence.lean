import Utos.Core.Snapshot
import Utos.Execution.Engine
import Utos.Grid.Trading

namespace Utos.Grid.Persistence

open Core Core.DomainTypes Core.Exceptions Execution.Engine Execution.Executor Trading

/-- What exchange_account_id holds: a UUID, or the text that a restored grid has in its place. -/
inductive AccountId
  | uuid (u : Uuid)
  | text (s : String)
  deriving DecidableEq, Repr

/-- GridLevel, with the Decimals it holds. -/
structure LevelRecord where
  level : Nat
  buyPrice : Decimal
  sellPrice : Decimal
  quantity : Decimal
  buyOrderId : OrderId := none
  sellOrderId : OrderId := none
  status : GridLevelStatus := .waiting
  deriving DecidableEq, Repr

/-- GridState, with the Decimals it holds. -/
structure GridRecord where
  instanceId : String
  status : String
  upperPrice : Decimal
  lowerPrice : Decimal
  gridCount : Nat
  gridSpacing : Decimal
  investmentPerGrid : Decimal
  levels : List LevelRecord := []
  totalCycles : Nat := 0
  totalProfit : Decimal := .zero
  exchangeAccountId : Option AccountId := none
  symbol : String := ""
  currentPrice : Option Decimal := none
  deriving DecidableEq, Repr

namespace AccountId

/-- str(exchange_account_id) -/
def str : AccountId → String
  | uuid u => u.str
  | text s => s

/-- bool(exchange_account_id): a UUID is always true. -/
def truthy : AccountId → Bool
  | uuid _ => true
  | text s => s ≠ ""

/-- The key in _adapters that equals the account: a text equals no UUID. -/
def key : AccountId → Option UUID
  | uuid u => some u.val
  | text _ => none

end AccountId

def serializeLevel (lv : LevelRecord) : Json :=
  .object [
    ("level", .int lv.level),
    ("buy_price", .text lv.buyPrice.str),
    ("sell_price", .text lv.sellPrice.str),
    ("quantity", .text lv.quantity.str),
    ("buy_order_id", .ofOptionalText lv.buyOrderId),
    ("sell_order_id", .ofOptionalText lv.sellOrderId),
    ("status", .text lv.status.value)]

/-- GridPersistence.serialize -/
def serialize (state : GridRecord) : Json :=
  .object [
    ("instance_id", .text state.instanceId),
    ("status", .text state.status),
    ("upper_price", .text state.upperPrice.str),
    ("lower_price", .text state.lowerPrice.str),
    ("grid_count", .int state.gridCount),
    ("grid_spacing", .text state.gridSpacing.str),
    ("investment_per_grid", .text state.investmentPerGrid.str),
    ("total_cycles", .int state.totalCycles),
    ("total_profit", .text state.totalProfit.str),
    ("symbol", .text state.symbol),
    ("current_price", .optionalText Decimal.truthy Decimal.str state.currentPrice),
    ("exchange_account_id", .optionalText AccountId.truthy AccountId.str state.exchangeAccountId),
    ("levels", .list (state.levels.map serializeLevel))]

/-- GridLevelStatus(value), or WAITING where this raises ValueError. -/
def levelStatus : Json → GridLevelStatus
  | .text s =>
      ([.waiting, .opened, .filled, .cancelled, .tpHit].find? (fun status => status.value = s)).getD .waiting
  | _ => .waiting

def deserializeLevel (data : Json) : Except Exn LevelRecord := do
  let status ← data.item "status"
  return {
    level := ← (← data.item "level").asNat
    buyPrice := ← (← data.item "buy_price").decimal
    sellPrice := ← (← data.item "sell_price").decimal
    quantity := ← (← data.item "quantity").decimal
    buyOrderId := ← (← data.get "buy_order_id" .null).asOptionalText
    sellOrderId := ← (← data.get "sell_order_id" .null).asOptionalText
    status := levelStatus status }

/-- GridPersistence.deserialize -/
def deserialize (data : Json) : Except Exn GridRecord := do
  let levels ← (← (← data.get "levels" (.list [])).asList).mapM deserializeLevel
  return {
    instanceId := ← (← data.item "instance_id").asText
    status := ← (← data.item "status").asText
    upperPrice := ← (← data.item "upper_price").decimal
    lowerPrice := ← (← data.item "lower_price").decimal
    gridCount := ← (← data.item "grid_count").asNat
    gridSpacing := ← (← data.item "grid_spacing").decimal
    investmentPerGrid := ← (← data.item "investment_per_grid").decimal
    levels := levels
    totalCycles := ← (← data.get "total_cycles" (.int 0)).asNat
    totalProfit := ← (← data.get "total_profit" (.text "0")).decimal
    symbol := ← (← data.get "symbol" (.text "")).asText
    currentPrice := ← data.optionalDecimal "current_price"
    exchangeAccountId := (← (← data.get "exchange_account_id" .null).asOptionalText).map .text }

def toJsonString (state : GridRecord) : String := String.ofList (JsonText.dumps (serialize state))

/-- from_json_string, given what becomes of the text of a float. -/
def fromJsonString (float : String → Json) (jsonStr : String) : Except Exn GridRecord := do
  deserialize (← Json.load float jsonStr)

theorem levelStatus_value (status : GridLevelStatus) : levelStatus (.text status.value) = status := by
  cases status <;> decide

theorem deserializeLevel_serializeLevel (lv : LevelRecord) : deserializeLevel (serializeLevel lv) = .ok lv := by
  have hitem (key : String) {value : Json} (h : (serializeLevel lv).field key = some value) :
      (serializeLevel lv).item key = .ok value := Json.item_of_field h
  have hget (key : String) {value : Json} (default : Json) (h : (serializeLevel lv).field key = some value) :
      (serializeLevel lv).get key default = .ok value := Json.get_of_field default h
  simp only [deserializeLevel, hitem "level" rfl, hitem "buy_price" rfl, hitem "sell_price" rfl,
    hitem "quantity" rfl, hitem "status" rfl, hget "buy_order_id" _ rfl, hget "sell_order_id" _ rfl,
    levelStatus_value, Json.asNat_int, Json.decimal_str, Json.asOptionalText_ofOptionalText, bind, Except.bind, pure,
    Except.pure]

theorem mapM_deserializeLevel (levels : List LevelRecord) :
    levels.mapM (deserializeLevel ∘ serializeLevel) = .ok levels := by
  induction levels with
  | nil => rfl
  | cons lv rest ih =>
      rw [List.mapM_cons, Function.comp_apply, deserializeLevel_serializeLevel, ih]
      rfl

theorem exact_serializeLevel (lv : LevelRecord) : JsonText.Exact (serializeLevel lv) := by
  refine .object (by simp) ?_
  simp [JsonText.Exact.int, JsonText.Exact.text, Json.exact_ofOptionalText]

theorem exact_serialize (s : GridRecord) : JsonText.Exact (serialize s) := by
  have hlevels : JsonText.Exact (.list (s.levels.map serializeLevel)) := by
    refine .list (fun j hj => ?_)
    obtain ⟨lv, -, rfl⟩ := List.mem_map.mp hj
    exact exact_serializeLevel lv
  refine .object (by simp) ?_
  simp [JsonText.Exact.int, JsonText.Exact.text, Json.exact_optionalText, hlevels]

/-- What was written is read from the text as it was. -/
theorem fromJsonString_toJsonString (float : String → Json) (s : GridRecord) :
    fromJsonString float (toJsonString s) = deserialize (serialize s) := by
  rw [fromJsonString, toJsonString, Json.load_dumps (exact_serialize s)]
  rfl

def LevelRecord.values (lv : LevelRecord) : GridLevel :=
  { level := lv.level, buyPrice := lv.buyPrice.value, sellPrice := lv.sellPrice.value
    quantity := lv.quantity.value, buyOrderId := lv.buyOrderId, sellOrderId := lv.sellOrderId
    status := lv.status }

namespace GridRecord

/-- The numbers of the record, with a status. -/
def values (s : GridRecord) (status : GridStatus) : GridState :=
  { instanceId := s.instanceId, status := status, upperPrice := s.upperPrice.value
    lowerPrice := s.lowerPrice.value, gridCount := s.gridCount, gridSpacing := s.gridSpacing.value
    investmentPerGrid := s.investmentPerGrid.value, levels := s.levels.map LevelRecord.values
    totalCycles := s.totalCycles, totalProfit := s.totalProfit.value
    exchangeAccountId := s.exchangeAccountId.bind AccountId.key, symbol := s.symbol
    currentPrice := s.currentPrice.map Decimal.value }

/-- The record is a state of the engine, with every number as a Decimal. -/
def Represents (s : GridRecord) (g : GridState) : Prop := s.status = g.status.value ∧ s.values g.status = g

/-- s == s': Decimals compare by value, and a UUID equals no text. -/
def Same (s s' : GridRecord) : Prop :=
  s.status = s'.status ∧ s.exchangeAccountId = s'.exchangeAccountId ∧ s.values = s'.values

/-- What comes back of the record. -/
def restored (s : GridRecord) : GridRecord :=
  { s with
    currentPrice := s.currentPrice.filter Decimal.truthy
    exchangeAccountId := (s.exchangeAccountId.filter AccountId.truthy).map (fun a => .text a.str) }

end GridRecord

/-- self._adapters.get(exchange_account_id) -/
def findAdapter (engine : ExecutionEngine) (account : Option AccountId) : Option Adapter :=
  (account.bind AccountId.key).bind engine.adapters.get

/-- The snapshot gives the state back, and its account finds the adapter it found. -/
def RoundTrips (s : GridRecord) : Prop :=
  ∃ s', (∀ float, fromJsonString float (toJsonString s) = .ok s') ∧ s'.Same s ∧
    ∀ engine, findAdapter engine s'.exchangeAccountId = findAdapter engine s.exchangeAccountId

/-- The object has the record under the keys that deserialize reads. -/
structure Written (s : GridRecord) (data : Json) : Prop where
  instanceId : data.item "instance_id" = .ok (.text s.instanceId)
  status : data.item "status" = .ok (.text s.status)
  upperPrice : data.item "upper_price" = .ok (.text s.upperPrice.str)
  lowerPrice : data.item "lower_price" = .ok (.text s.lowerPrice.str)
  gridCount : data.item "grid_count" = .ok (.int s.gridCount)
  gridSpacing : data.item "grid_spacing" = .ok (.text s.gridSpacing.str)
  investmentPerGrid : data.item "investment_per_grid" = .ok (.text s.investmentPerGrid.str)
  levels (default : Json) : data.get "levels" default = .ok (.list (s.levels.map serializeLevel))
  totalCycles (default : Json) : data.get "total_cycles" default = .ok (.int s.totalCycles)
  totalProfit (default : Json) : data.get "total_profit" default = .ok (.text s.totalProfit.str)
  symbol (default : Json) : data.get "symbol" default = .ok (.text s.symbol)
  currentPrice : data.optionalDecimal "current_price" = .ok (s.currentPrice.filter Decimal.truthy)
  exchangeAccountId (default : Json) : data.get "exchange_account_id" default =
    .ok (.optionalText AccountId.truthy AccountId.str s.exchangeAccountId)

theorem written_serialize (s : GridRecord) : Written s (serialize s) :=
  ⟨rfl, rfl, rfl, rfl, rfl, rfl, rfl, fun _ => rfl, fun _ => rfl, fun _ => rfl, fun _ => rfl,
    Json.optionalDecimal_of_field rfl, fun _ => rfl⟩

theorem deserialize_written {s : GridRecord} {data : Json} (h : Written s data) :
    deserialize data = .ok s.restored := by
  simp only [deserialize, h.instanceId, h.status, h.upperPrice, h.lowerPrice, h.gridCount, h.gridSpacing,
    h.investmentPerGrid, h.levels, h.totalCycles, h.totalProfit, h.symbol, h.currentPrice, h.exchangeAccountId,
    Json.asText_text, Json.asNat_int, Json.asList_list, Json.decimal_str, Json.asOptionalText_optionalText,
    List.mapM_map, mapM_deserializeLevel, Option.map_map, bind, Except.bind, pure, Except.pure]
  rfl

theorem fromJsonString_eq (float : String → Json) (s : GridRecord) :
    fromJsonString float (toJsonString s) = .ok s.restored := by
  rw [fromJsonString_toJsonString]
  exact deserialize_written (written_serialize s)

/-- What comes back does not depend on the floats, and is the restored record. -/
theorem eq_restored {s s' : GridRecord} (h : ∀ float, fromJsonString float (toJsonString s) = .ok s') :
    s' = s.restored :=
  Except.ok.inj ((h (.float none)).symm.trans (fromJsonString_eq (.float none) s))

theorem restoredAccount_eq {account : Option AccountId} :
    (account.filter AccountId.truthy).map (fun a => .text a.str) = account ↔
      ∀ a ∈ account, ∃ t, t ≠ "" ∧ a = .text t := by
  cases account with
  | none => simp
  | some a => cases a with
    | uuid u => simp [Option.filter, AccountId.truthy]
    | text t => by_cases h : t = "" <;> simp [Option.filter, AccountId.truthy, h, AccountId.str]

/-- A grid comes back in exactly the cases in which it has no account, or has the
text that an earlier snapshot left of one, and its current price is not zero. -/
theorem roundTrips_iff (s : GridRecord) : RoundTrips s ↔
    (∀ a ∈ s.exchangeAccountId, ∃ t, t ≠ "" ∧ a = .text t) ∧ ∀ p ∈ s.currentPrice, p.value ≠ 0 := by
  rw [← restoredAccount_eq, ← Decimal.filter_truthy_values]
  constructor
  · rintro ⟨s', hs', ⟨-, haccount, hvalues⟩, -⟩
    obtain rfl := eq_restored hs'
    exact ⟨haccount, congrArg (fun v => (v .idle).currentPrice) hvalues⟩
  · rintro ⟨haccount, hprice⟩
    have hrestored : s.restored.exchangeAccountId = s.exchangeAccountId := haccount
    have hcurrent : s.restored.currentPrice.map Decimal.value = s.currentPrice.map Decimal.value := hprice
    refine ⟨s.restored, fun float => fromJsonString_eq float s, ⟨rfl, haccount, ?_⟩, fun engine => by rw [hrestored]⟩
    funext status
    simp only [GridRecord.values]
    rw [hrestored, hcurrent]
    rfl

/-- The engine that holds the adapter of the account does not find it for the grid that came back. -/
theorem findAdapter_restored {s : GridRecord} {u : Uuid} (h : s.exchangeAccountId = some (.uuid u))
    (engine : ExecutionEngine) : findAdapter engine s.restored.exchangeAccountId = none := by
  simp only [GridRecord.restored, h]
  rfl

/-- The grid of two levels, as its snapshot finds it. -/
def tradingRecord : GridRecord :=
  { instanceId := "grid", status := "active", upperPrice := ⟨false, 120, 0⟩, lowerPrice := ⟨false, 100, 0⟩
    gridCount := 2, gridSpacing := ⟨false, 10, 0⟩, investmentPerGrid := ⟨false, 220, 0⟩
    levels := [{ level := 0, buyPrice := ⟨false, 100, 0⟩, sellPrice := ⟨false, 120, 0⟩
                 quantity := ⟨false, 22, -1⟩, buyOrderId := some "i", status := .opened },
               { level := 1, buyPrice := ⟨false, 110, 0⟩, sellPrice := ⟨false, 120, 0⟩
                 quantity := ⟨false, 2, 0⟩, buyOrderId := some "ii", status := .opened }]
    exchangeAccountId := some (.uuid 1), symbol := "BTCUSDT", currentPrice := some ⟨false, 115, 0⟩ }

theorem tradingRecord_represents : tradingRecord.Represents tradingGrid := ⟨rfl, by decide +kernel⟩

/-- The account under which a running grid trades is lost, and with it the adapter. -/
theorem account_lost :
    (∃ s : Floor, s.Reachable (fun _ _ _ => true) ∧
      ∃ g, s.engine.grids "grid" = some g ∧ tradingRecord.Represents g) ∧
    ¬ RoundTrips tradingRecord ∧
    ∃ engine : ExecutionEngine, findAdapter engine tradingRecord.exchangeAccountId = some ⟨"bybit"⟩ ∧
      ∀ float s', fromJsonString float (toJsonString tradingRecord) = .ok s' →
        findAdapter engine s'.exchangeAccountId = none := by
  refine ⟨⟨_, ⟨true, activated, rfl⟩, tradingGrid, by decide +kernel, tradingRecord_represents⟩, ?_, ?_⟩
  · rintro ⟨s', hs', ⟨-, haccount, -⟩, -⟩
    obtain rfl := eq_restored hs'
    cases haccount
  · refine ⟨{ adapters := (∅ : Dict UUID Adapter).set 1 ⟨"bybit"⟩ }, by decide +kernel, fun float s' hs' => ?_⟩
    obtain rfl := Except.ok.inj ((fromJsonString_eq float tradingRecord).symm.trans hs')
    exact findAdapter_restored rfl _

end Utos.Grid.Persistence
