import Utos.Exchanges.Candles
import Utos.Exchanges.Hyperliquid

namespace Utos.Exchanges.Hyperliquid

open Core.DomainTypes Core.Exceptions Core Core.Sequence Http Errors
open Candles (iterate)

variable (x : Named)

/-- HyperliquidAdapter._post_info from the response on. -/
def postInfo (response : JsonResponse) : Except Exn Json := do
  raiseForStatus x response
  match response.body with
  | some data => .ok (if data.isObject then data else .object [("data", data)])
  | none => .error (exchangeError x "Invalid JSON from Hyperliquid")

/-- An OrderResult without its times; the symbol is the coin as it was sent. -/
structure OpenOrder where
  orderId : String
  exchangeOrderId : String
  symbol : Json
  side : String
  orderType : String
  quantity : ℚ
  price : ℚ
  filledQuantity : ℚ
  averageFillPrice : Option ℚ
  status : String

/-- value.lower() -/
def lowered : Json → Except Exn String
  | .text s => .ok (lower s)
  | j => .error (.other "AttributeError" s!"'{j.typeName}' object has no attribute 'lower'")

/-- Decimal(str(value)) -/
def decimalText (j : Json) : Except Exn ℚ := (Json.text (j.str x.display)).decimal.map Decimal.value

/-- symbol and o.get("coin") != symbol.upper() -/
def skipped (symbol : Option String) (o : Json) : Except Exn Bool :=
  match symbol with
  | none => .ok false
  | some s =>
      if s = "" then .ok false
      else (o.get "coin" .null).map (fun coin => !coin.isText (upper s))

/-- The OrderResult that get_open_orders makes of an element. -/
def openOrder (o : Json) : Except Exn OpenOrder := do
  let cloid ← o.get "cloid" (.text "")
  let oid ← o.get "oid" (.text "")
  let coin ← o.get "coin" (.text "")
  let side ← o.get "side" (.text "") >>= lowered
  let sz ← o.get "sz" (.text "0") >>= decimalText x
  let limitPx ← o.get "limitPx" (.text "0") >>= decimalText x
  let origSz ← o.get "origSz" (.text "0") >>= decimalText x
  return { orderId := cloid.str x.display, exchangeOrderId := oid.str x.display, symbol := coin
           side := if side = "b" then "buy" else "sell", orderType := "limit", quantity := sz, price := limitPx
           filledQuantity := origSz - sz, averageFillPrice := none, status := "open" }

/-- The loop of get_open_orders. -/
def openOrders (symbol : Option String) : List Json → Except Exn (List OpenOrder)
  | [] => .ok []
  | o :: rest => do
      if ← skipped symbol o then openOrders symbol rest
      else
        let result ← openOrder x o
        let results ← openOrders symbol rest
        return result :: results

/-- HyperliquidAdapter.get_open_orders from the response on. -/
def getOpenOrders (symbol : Option String) (response : JsonResponse) : Except Exn (List OpenOrder) := do
  let data ← postInfo x response
  if data.truthy then openOrders x symbol (← iterate data) else return []

/-- HyperliquidAdapter.get_order from the response on. -/
def getOrder (symbol orderId : String) (response : JsonResponse) : Except Exn OpenOrder := do
  let orders ← getOpenOrders x (some symbol) response
  match orders.find? (fun o => o.exchangeOrderId = orderId) with
  | some o => .ok o
  | none => .error (.orderNotFound orderId)

/-- The element is an order of the symbol. -/
def concerns (symbol : Option String) (o : Json) : Bool :=
  match symbol with
  | none => true
  | some s => s = "" || ((o.field "coin").getD .null).isText (upper s)

def oidText (o : Json) : String := ((o.field "oid").getD (.text "")).str x.display

/-- The orders that are returned are those of the array that are of the symbol, one by one,
and each of them is found by its oid. -/
structure DecodesAll (symbol : Option String) (items : List Json) (response : JsonResponse) : Prop where
  ids : ∃ orders, getOpenOrders x symbol response = .ok orders ∧
    orders.map OpenOrder.exchangeOrderId = (items.filter (concerns symbol)).map (oidText x)
  found : ∀ s, symbol = some s → ∀ o ∈ items.filter (concerns symbol),
    ∃ order, getOrder x s (oidText x o) response = .ok order ∧ order.exchangeOrderId = oidText x o

variable {x} {symbol : Option String} {o : Json} {items : List Json} {orders : List OpenOrder} {response : JsonResponse}

theorem openOrder_id {order : OpenOrder} (h : openOrder x o = .ok order) : order.exchangeOrderId = oidText x o := by
  obtain ⟨cloid, -, h⟩ := bind_eq_ok.mp h
  obtain ⟨oid, hoid, h⟩ := bind_eq_ok.mp h
  obtain ⟨coin, -, h⟩ := bind_eq_ok.mp h
  obtain ⟨side, -, h⟩ := bind_eq_ok.mp h
  obtain ⟨sz, -, h⟩ := bind_eq_ok.mp h
  obtain ⟨limitPx, -, h⟩ := bind_eq_ok.mp h
  obtain ⟨origSz, -, h⟩ := bind_eq_ok.mp h
  cases h
  cases o with
  | object fields =>
      cases hoid
      rfl
  | null | bool | int | float | text | list => cases hoid

theorem skipped_object (hobject : o.isObject = true) : skipped symbol o = .ok (!concerns symbol o) := by
  cases o with
  | object fields =>
      cases symbol with
      | none => rfl
      | some s =>
          simp only [skipped, concerns, Json.get_object, Json.field]
          split
          next hs => rw [decide_eq_true hs, Bool.true_or, Bool.not_true]
          next hs => rw [decide_eq_false hs, Bool.false_or]; rfl
  | null | bool | int | float | text | list => cases hobject

/-- On an array of objects the loop goes through those of the symbol. -/
theorem openOrders_eq (hobjects : ∀ o ∈ items, o.isObject = true) :
    openOrders x symbol items = each (openOrder x) (items.filter (concerns symbol)) := by
  induction items with
  | nil => rfl
  | cons o rest ih =>
      have hrest := ih (fun p hp => hobjects p (List.mem_cons_of_mem o hp))
      have hskipped : skipped symbol o = .ok (!concerns symbol o) := skipped_object (hobjects o List.mem_cons_self)
      rw [openOrders, hskipped, hrest, List.filter_cons]
      cases concerns symbol o with
      | true => rfl
      | false => rfl

/-- The loop itself leaves no order out. -/
theorem openOrders_ids (hobjects : ∀ o ∈ items, o.isObject = true) (h : openOrders x symbol items = .ok orders) :
    orders.map OpenOrder.exchangeOrderId = (items.filter (concerns symbol)).map (oidText x) := by
  rw [openOrders_eq hobjects, each_eq_ok] at h
  generalize items.filter (concerns symbol) = wanted at h
  induction h with
  | nil => rfl
  | cons horder _ ih => rw [List.map_cons, List.map_cons, openOrder_id horder, ih]

/-- A key of an object is a text, which has no fields. -/
theorem openOrders_keys (symbol : Option String) (field : String × Json) (rest : List (String × Json)) :
    openOrders x symbol ((field :: rest).map (fun field => .text field.1)) =
      .error (.other "AttributeError" "'str' object has no attribute 'get'") := by
  cases symbol with
  | none => rfl
  | some s =>
      by_cases hs : s = ""
      · subst hs
        rfl
      · rw [List.map_cons, openOrders, skipped]
        simp only [hs, if_false]
        rfl

theorem postInfo_object {data : Json} (h : postInfo x response = .ok data) : ∃ fields, data = .object fields := by
  obtain ⟨-, -, h⟩ := bind_eq_ok.mp h
  cases hbody : response.body with
  | none =>
      rw [hbody] at h
      cases h
  | some body =>
      rw [hbody] at h
      cases h
      cases body with
      | object fields => exact ⟨fields, rfl⟩
      | null | bool | int | float | text | list => exact ⟨_, rfl⟩

/-- Orders are never returned: what comes back is an empty list, for an empty object. -/
theorem getOpenOrders_ok (h : getOpenOrders x symbol response = .ok orders) :
    response.body = some (.object []) ∧ orders = [] := by
  obtain ⟨data, hdata, h⟩ := bind_eq_ok.mp h
  obtain ⟨fields, rfl⟩ := postInfo_object hdata
  cases fields with
  | cons field rest =>
      have herror : openOrders x symbol ((field :: rest).map (fun field => .text field.1)) = .ok orders := h
      rw [openOrders_keys] at herror
      cases herror
  | nil =>
      cases h
      obtain ⟨-, -, hdata⟩ := bind_eq_ok.mp hdata
      cases hbody : response.body with
      | none =>
          rw [hbody] at hdata
          cases hdata
      | some body =>
          rw [hbody] at hdata
          cases body with
          | object fields =>
              cases hdata
              exact ⟨rfl, rfl⟩
          | null | bool | int | float | text | list => cases hdata

/-- No array of open orders is decoded, not even an empty one. -/
theorem openOrders_undecoded (x : Named) (symbol : Option String) (statusCode : Nat) (items : List Json) :
    ¬ DecodesAll x symbol items { statusCode, body := some (.list items) } := by
  rintro ⟨⟨orders, horders, -⟩, -⟩
  obtain ⟨hbody, -⟩ := getOpenOrders_ok horders
  cases hbody

def bitcoinOrder : Json :=
  .object [("coin", .text "BTC"), ("side", .text "B"), ("limitPx", .text "29792.0"), ("sz", .text "5.0"),
    ("oid", .int 91490942), ("origSz", .text "5.0")]

/-- Its array is taken for an object, and the loop goes through the keys of that. -/
theorem bitcoinOrder_undecoded : ¬ ∀ (x : Named) (symbol : Option String) (items : List Json),
    DecodesAll x symbol items { statusCode := 200, body := some (.list items) } := by
  intro h
  obtain ⟨⟨orders, horders, -⟩, -⟩ := h ⟨"hyperliquid", fun _ => ""⟩ (some "BTC") [bitcoinOrder]
  obtain ⟨hbody, -⟩ := getOpenOrders_ok horders
  cases hbody

end Utos.Exchanges.Hyperliquid
