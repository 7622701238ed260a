import Utos.Core.Snapshot
import Utos.ProfitLock.Course

namespace Utos.ProfitLock.Persistence

open Coroutine Core Core.DomainTypes Core.Exceptions Execution.Models Execution.Service State Policy Engine
open Ticks Course

/-- ProfitLockState, with the Decimals it holds. -/
structure ProfitRecord where
  instanceId : String
  status : String := ProfitLockStatus.disabled.value
  enabled : Bool := false
  triggerPercentage : Decimal := .zero
  trailPercentage : Decimal := .zero
  maxProfitPercentage : Decimal := .zero
  entryPrice : Decimal := .zero
  quantity : Decimal := .zero
  side : String := "long"
  highestPrice : Option Decimal := none
  lockPrice : Option Decimal := none
  isTriggered : Bool := false
  isExecuted : Bool := false
  lockOrderId : OrderId := none
  exchangeAccountId : Option Uuid := none
  symbol : String := ""
  deriving DecidableEq, Repr

/-- ProfitPersistence.serialize -/
def serialize (state : ProfitRecord) : Json :=
  .object [
    ("instance_id", .text state.instanceId),
    ("status", .text state.status),
    ("enabled", .bool state.enabled),
    ("trigger_percentage", .text state.triggerPercentage.str),
    ("trail_percentage", .text state.trailPercentage.str),
    ("entry_price", .text state.entryPrice.str),
    ("quantity", .text state.quantity.str),
    ("side", .text state.side),
    ("highest_price", .optionalText Decimal.truthy Decimal.str state.highestPrice),
    ("lock_price", .optionalText Decimal.truthy Decimal.str state.lockPrice),
    ("is_triggered", .bool state.isTriggered),
    ("is_executed", .bool state.isExecuted),
    ("lock_order_id", .ofOptionalText state.lockOrderId),
    ("exchange_account_id", .optionalText (fun _ => true) Uuid.str state.exchangeAccountId),
    ("symbol", .text state.symbol)]

/-- ProfitPersistence.deserialize -/
def deserialize (data : Json) : Except Exn ProfitRecord := do
  return {
    instanceId := ← (← data.item "instance_id").asText
    status := ← (← data.get "status" (.text ProfitLockStatus.disabled.value)).asText
    enabled := ← (← data.get "enabled" (.bool false)).asBool
    triggerPercentage := ← (← data.get "trigger_percentage" (.text "0")).decimal
    trailPercentage := ← (← data.get "trail_percentage" (.text "0")).decimal
    entryPrice := ← (← data.get "entry_price" (.text "0")).decimal
    quantity := ← (← data.get "quantity" (.text "0")).decimal
    side := ← (← data.get "side" (.text "long")).asText
    highestPrice := ← data.optionalDecimal "highest_price"
    lockPrice := ← data.optionalDecimal "lock_price"
    isTriggered := ← (← data.get "is_triggered" (.bool false)).asBool
    isExecuted := ← (← data.get "is_executed" (.bool false)).asBool
    lockOrderId := ← (← data.get "lock_order_id" .null).asOptionalText
    exchangeAccountId := ← data.optionalUuid "exchange_account_id"
    symbol := ← (← data.get "symbol" (.text "")).asText }

def toJsonString (state : ProfitRecord) : String := String.ofList (JsonText.dumps (serialize state))

/-- from_json_string, given what becomes of the text of a float. -/
def fromJsonString (float : String → Json) (jsonStr : String) : Except Exn ProfitRecord := do
  deserialize (← Json.load float jsonStr)

theorem exact_serialize (s : ProfitRecord) : JsonText.Exact (serialize s) := by
  refine .object (by simp) ?_
  simp [JsonText.Exact.text, JsonText.Exact.bool, Json.exact_optionalText, Json.exact_ofOptionalText]

/-- What was written is read from the text as it was. -/
theorem fromJsonString_toJsonString (float : String → Json) (s : ProfitRecord) :
    fromJsonString float (toJsonString s) = deserialize (serialize s) := by
  rw [fromJsonString, toJsonString, Json.load_dumps (exact_serialize s)]
  rfl

namespace ProfitRecord

/-- The numbers of the record, with a status. -/
def values (s : ProfitRecord) (status : ProfitLockStatus) : ProfitLockState :=
  { status := status, enabled := s.enabled, triggerPercentage := s.triggerPercentage.value
    trailPercentage := s.trailPercentage.value, maxProfitPercentage := s.maxProfitPercentage.value
    entryPrice := s.entryPrice.value, quantity := s.quantity.value, side := s.side
    highestPrice := s.highestPrice.map Decimal.value, lockPrice := s.lockPrice.map Decimal.value
    isTriggered := s.isTriggered, isExecuted := s.isExecuted, lockOrderId := s.lockOrderId
    exchangeAccountId := s.exchangeAccountId.map Fin.val, symbol := s.symbol }

/-- The record is a state of the engine, with every number as a Decimal. -/
def Represents (s : ProfitRecord) (st : ProfitLockState) : Prop := s.status = st.status.value ∧ s.values st.status = st

/-- s == s': Decimals compare by value. -/
def Same (s s' : ProfitRecord) : Prop :=
  s.instanceId = s'.instanceId ∧ s.status = s'.status ∧ s.exchangeAccountId = s'.exchangeAccountId ∧
    s.values = s'.values

/-- What comes back of the record. -/
def restored (s : ProfitRecord) : ProfitRecord :=
  { s with
    maxProfitPercentage := .zero
    highestPrice := s.highestPrice.filter Decimal.truthy
    lockPrice := s.lockPrice.filter Decimal.truthy }

end ProfitRecord

/-- The engine takes the same course from both states, whatever the prices and whatever the exchange answers. -/
def SameCourse (st st' : ProfitLockState) : Prop :=
  ∀ (κ ω W : Type) [DecidableEq κ] [ToString κ] (h : Handler W (ExecReq ω) (ExecAns ω)) (owner : κ → ω) (key : κ)
    (store : Store κ) (w : W) (prices : List ℚ),
    (prices.map Event.tick).foldl (Ride.take h owner key) { store := store.put key st, world := w } =
      (prices.map Event.tick).foldl (Ride.take h owner key) { store := store.put key st', world := w }

/-- The snapshot gives the state back, and the engine goes on from it as from the state. -/
def RoundTrips (s : ProfitRecord) : Prop :=
  ∃ s', (∀ float, fromJsonString float (toJsonString s) = .ok s') ∧ s'.Same s ∧
    ∀ st, s.Represents st → SameCourse (s'.values st.status) st

/-- The object has the record under the keys that deserialize reads. -/
structure Written (s : ProfitRecord) (data : Json) : Prop where
  instanceId : data.item "instance_id" = .ok (.text s.instanceId)
  status (default : Json) : data.get "status" default = .ok (.text s.status)
  enabled (default : Json) : data.get "enabled" default = .ok (.bool s.enabled)
  triggerPercentage (default : Json) : data.get "trigger_percentage" default = .ok (.text s.triggerPercentage.str)
  trailPercentage (default : Json) : data.get "trail_percentage" default = .ok (.text s.trailPercentage.str)
  entryPrice (default : Json) : data.get "entry_price" default = .ok (.text s.entryPrice.str)
  quantity (default : Json) : data.get "quantity" default = .ok (.text s.quantity.str)
  side (default : Json) : data.get "side" default = .ok (.text s.side)
  highestPrice : data.optionalDecimal "highest_price" = .ok (s.highestPrice.filter Decimal.truthy)
  lockPrice : data.optionalDecimal "lock_price" = .ok (s.lockPrice.filter Decimal.truthy)
  isTriggered (default : Json) : data.get "is_triggered" default = .ok (.bool s.isTriggered)
  isExecuted (default : Json) : data.get "is_executed" default = .ok (.bool s.isExecuted)
  lockOrderId (default : Json) : data.get "lock_order_id" default = .ok (.ofOptionalText s.lockOrderId)
  exchangeAccountId : data.optionalUuid "exchange_account_id" = .ok s.exchangeAccountId
  symbol (default : Json) : data.get "symbol" default = .ok (.text s.symbol)

theorem written_serialize (s : ProfitRecord) : Written s (serialize s) :=
  ⟨rfl, fun _ => rfl, fun _ => rfl, fun _ => rfl, fun _ => rfl, fun _ => rfl, fun _ => rfl, fun _ => rfl,
    Json.optionalDecimal_of_field rfl, Json.optionalDecimal_of_field rfl, fun _ => rfl, fun _ => rfl, fun _ => rfl,
    Json.optionalUuid_of_field rfl, fun _ => rfl⟩

theorem deserialize_written {s : ProfitRecord} {data : Json} (h : Written s data) :
    deserialize data = .ok s.restored := by
  simp only [deserialize, h.instanceId, h.status, h.enabled, h.triggerPercentage, h.trailPercentage, h.entryPrice,
    h.quantity, h.side, h.highestPrice, h.lockPrice, h.isTriggered, h.isExecuted, h.lockOrderId, h.exchangeAccountId,
    h.symbol, Json.asText_text, Json.asBool_bool, Json.decimal_str, Json.asOptionalText_ofOptionalText, bind,
    Except.bind, pure, Except.pure]
  rfl

theorem fromJsonString_eq (float : String → Json) (s : ProfitRecord) :
    fromJsonString float (toJsonString s) = .ok s.restored := by
  rw [fromJsonString_toJsonString]
  exact deserialize_written (written_serialize s)

/-- What comes back does not depend on the floats, and is the restored record. -/
theorem eq_restored {s s' : ProfitRecord} (h : ∀ float, fromJsonString float (toJsonString s) = .ok s') :
    s' = s.restored :=
  Except.ok.inj ((h (.float none)).symm.trans (fromJsonString_eq (.float none) s))

theorem values_restored (s : ProfitRecord) : s.restored.values = s.values ↔
    s.maxProfitPercentage.value = 0 ∧ (∀ p ∈ s.highestPrice, p.value ≠ 0) ∧ ∀ p ∈ s.lockPrice, p.value ≠ 0 := by
  have hzero : Decimal.zero.value = 0 := Decimal.value_eq_zero.mpr rfl
  rw [← Decimal.filter_truthy_values, ← Decimal.filter_truthy_values]
  constructor
  · intro h
    have hstate := congrFun h .disabled
    have hmax : Decimal.zero.value = s.maxProfitPercentage.value :=
      congrArg ProfitLockState.maxProfitPercentage hstate
    exact ⟨hmax.symm.trans hzero, congrArg ProfitLockState.highestPrice hstate,
      congrArg ProfitLockState.lockPrice hstate⟩
  · rintro ⟨hmax, hhigh, hlock⟩
    funext status
    simp only [ProfitRecord.values, ProfitRecord.restored, hzero, hmax, hhigh, hlock]

/-- A profit lock comes back in exactly the cases in which it has no profit cap
and neither its highest price nor its lock price is zero. -/
theorem profitRoundTrips_iff (s : ProfitRecord) : RoundTrips s ↔
    s.maxProfitPercentage.value = 0 ∧ (∀ p ∈ s.highestPrice, p.value ≠ 0) ∧ ∀ p ∈ s.lockPrice, p.value ≠ 0 := by
  rw [← values_restored]
  constructor
  · rintro ⟨s', hs', ⟨-, -, -, hvalues⟩, -⟩
    obtain rfl := eq_restored hs'
    exact hvalues
  · intro hvalues
    refine ⟨s.restored, fun float => fromJsonString_eq float s, ⟨rfl, rfl, rfl, hvalues⟩, ?_⟩
    rintro st ⟨-, hst⟩
    rw [hvalues, hst]
    exact fun _ _ _ _ _ _ _ _ _ _ _ => rfl

/-- The lock that is capped at 20 %, once a price of 112 has triggered it. -/
def cappedRecord : ProfitRecord :=
  { instanceId := "a", status := "triggered", enabled := true, triggerPercentage := ⟨false, 10, 0⟩
    trailPercentage := ⟨false, 5, 0⟩, maxProfitPercentage := ⟨false, 20, 0⟩, entryPrice := ⟨false, 100, 0⟩
    quantity := ⟨false, 1, 0⟩, highestPrice := some ⟨false, 112, 0⟩, lockPrice := some ⟨false, 1064, -1⟩
    isTriggered := true, exchangeAccountId := some ⟨1, by decide⟩, symbol := "BTCUSDT" }

/-- The orders that a lock asks for at the next price. -/
def placedAt (price : ℚ) (st : ProfitLockState) : List (UUID → OrderRequest) :=
  (Ride.take accepting id "a" { store := State.Store.put (fun _ => none) "a" st, world := () } (.tick price)).placed

/-- The cap is lost: at 125 the lock sells, and the lock that came back does not. -/
theorem cap_lost :
    (∃ st, (Ride.after accepting id "a" capped (fun _ => none) () [.tick 112]).store "a" = some st ∧
      cappedRecord.Represents st) ∧
    ¬ RoundTrips cappedRecord ∧
    (placedAt 125 (cappedRecord.values .triggered)).length = 1 ∧
    ∀ float s', fromJsonString float (toJsonString cappedRecord) = .ok s' → placedAt 125 (s'.values .triggered) = [] := by
  refine ⟨⟨cappedRecord.values .triggered, by decide +kernel, rfl, rfl⟩, ?_, by decide +kernel, ?_⟩
  · rintro ⟨s', hs', ⟨-, -, -, hvalues⟩, -⟩
    obtain rfl := eq_restored hs'
    have hmax := ((values_restored cappedRecord).mp hvalues).1
    exact absurd (Decimal.value_eq_zero.mp hmax) (by decide)
  · intro float s' hs'
    obtain rfl := Except.ok.inj ((fromJsonString_eq float cappedRecord).symm.trans hs')
    exact List.length_eq_zero_iff.mp (by decide +kernel)

end Utos.ProfitLock.Persistence
