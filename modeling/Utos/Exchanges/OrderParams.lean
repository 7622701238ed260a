import Utos.Core.Decimal
import Utos.Execution.Executor
import Utos.Execution.Validator

namespace Utos.Exchanges.OrderParams

open Core Core.DomainTypes Execution.Models Execution.Executor Execution.Validator

/-- OrderRequest, with the Decimals it holds. -/
structure OrderRecord where
  requestId : UUID
  exchangeAccountId : Option UUID
  symbol : String
  side : OrderSide
  orderType : DomainTypes.OrderType
  quantity : Decimal
  price : Option Decimal := none
  stopPrice : Option Decimal := none
  clientOrderId : Option String := none
  deriving DecidableEq, Repr

def OrderRecord.values (r : OrderRecord) : OrderRequest :=
  { requestId := r.requestId, exchangeAccountId := r.exchangeAccountId, symbol := r.symbol, side := r.side
    orderType := r.orderType, quantity := r.quantity.value, price := r.price.map Decimal.value
    stopPrice := r.stopPrice.map Decimal.value, clientOrderId := r.clientOrderId }

/-- A keyword argument or a request parameter. -/
inductive Arg
  | none
  | text (s : String)
  | decimal (d : Decimal)
  deriving DecidableEq, Repr

namespace Arg

def ofText : Option String → Arg
  | .none => none
  | some s => text s

def ofDecimal : Option Decimal → Arg
  | .none => none
  | some d => decimal d

/-- bool(value) -/
def truthy : Arg → Bool
  | none => false
  | text s => s ≠ ""
  | decimal d => d.truthy

end Arg

abbrev Params := List (String × Arg)

/-- The arguments of place_order: those it names, and **kwargs. -/
structure Call where
  symbol : String
  side : String
  orderType : String
  quantity : Decimal
  price : Option Decimal
  kwargs : Params
  deriving DecidableEq, Repr

/-- The call that OrderExecutor.execute makes. -/
def executeCall (r : OrderRecord) : Call :=
  { symbol := upper r.symbol, side := r.side.value, orderType := r.orderType.value, quantity := r.quantity
    price := r.price
    kwargs := [("stop_price", .ofDecimal r.stopPrice), ("client_order_id", .ofText r.clientOrderId)] }

def capitalize (s : String) : String :=
  match s.toList with
  | [] => ""
  | c :: cs => String.ofList (c.toUpper :: cs.map Char.toLower)

/-- params[name] = kwargs[key], where kwargs.get(key) is true. -/
def ifGiven (kwargs : Params) (key name : String) : Params :=
  match kwargs.lookup key with
  | some arg => if arg.truthy then [(name, arg)] else []
  | none => []

namespace Binance

/-- The params of BinanceAdapter.place_order. -/
def params (call : Call) : Params :=
  [("symbol", .text (upper call.symbol)), ("side", .text (upper call.side)),
    ("type", .text (upper call.orderType)), ("quantity", .text call.quantity.str)] ++
  (match call.price with
    | none => []
    | some price =>
        [("price", .text price.str),
          ("timeInForce", (call.kwargs.lookup "time_in_force").getD (.text "GTC"))]) ++
  ["stopPrice", "icebergQty", "newClientOrderId"].filterMap
    (fun key => (call.kwargs.lookup key).map (fun arg => (key, arg)))

end Binance

namespace MEXC

/-- The params of MEXCAdapter.place_order. -/
def params (call : Call) : Params :=
  [("symbol", .text (upper call.symbol)), ("side", .text (upper call.side)),
    ("type", .text (upper call.orderType)), ("quantity", .text call.quantity.str)] ++
  (match call.price with
    | none => []
    | some price =>
        [("price", .text price.str),
          ("timeInForce", (call.kwargs.lookup "time_in_force").getD (.text "GTC"))]) ++
  ifGiven call.kwargs "client_order_id" "newClientOrderId"

end MEXC

namespace Bybit

/-- The params of BybitAdapter.place_order. -/
def params (call : Call) : Params :=
  [("category", .text "spot"), ("symbol", .text (upper call.symbol)), ("side", .text (capitalize call.side)),
    ("qty", .text call.quantity.str), ("orderType", .text (capitalize call.orderType))] ++
  (call.price.map (fun price => ("price", Arg.text price.str))).toList ++
  ifGiven call.kwargs "client_order_id" "orderLinkId"

end Bybit

namespace OKX

/-- The params of OKXAdapter.place_order. -/
def params (call : Call) : Params :=
  [("instId", .text (upper call.symbol)), ("tdMode", .text "cash"), ("side", .text (lower call.side)),
    ("ordType", .text (lower call.orderType)), ("sz", .text call.quantity.str)] ++
  (call.price.map (fun price => ("px", Arg.text price.str))).toList ++
  ifGiven call.kwargs "client_order_id" "clOrdId"

end OKX

inductive Venue
  | binance
  | bybit
  | okx
  | mexc
  deriving DecidableEq, Repr

/-- The parameters of the request that places the order. -/
def encode (venue : Venue) (r : OrderRecord) : Params :=
  match venue with
  | .binance => Binance.params (executeCall r)
  | .bybit => Bybit.params (executeCall r)
  | .okx => OKX.params (executeCall r)
  | .mexc => MEXC.params (executeCall r)

/-- OrderValidator.validate accepts the request. -/
def Accepted (r : OrderRecord) : Prop := validate r.values = .ok ()

/-- The two requests ask for the same order under the same client order id. -/
structure Agree (r r' : OrderRecord) : Prop where
  side : r.side = r'.side
  orderType : r.orderType = r'.orderType
  quantity : r.quantity.value = r'.quantity.value
  price : r.price.map Decimal.value = r'.price.map Decimal.value
  stopPrice : r.orderType = .stopLimit → r.stopPrice.map Decimal.value = r'.stopPrice.map Decimal.value
  clientOrderId : r.clientOrderId = r'.clientOrderId

/-- The parameters determine the order, and its numbers are written out in them. -/
structure Lossless (venue : Venue) (r : OrderRecord) : Prop where
  determined : ∀ r', Accepted r' → encode venue r' = encode venue r → Agree r r'
  plainQuantity : Decimal.PlainText r.quantity.str
  plainPrice : ∀ p ∈ r.price, Decimal.PlainText p.str

/-- The call is the one of the executor, with Decimals for numbers. -/
theorem executeCall_values (r : OrderRecord) :
    placeArgs r.values =
      { symbol := (executeCall r).symbol, side := (executeCall r).side, orderType := (executeCall r).orderType
        quantity := (executeCall r).quantity.value, price := (executeCall r).price.map Decimal.value
        stopPrice := r.stopPrice.map Decimal.value, clientOrderId := r.clientOrderId } := rfl

/-- The names of the parameters, and how the side and the type are written. -/
structure Layout where
  side : String
  orderType : String
  quantity : String
  price : String
  clientOrderId : String
  sideText : OrderSide → String
  typeText : DomainTypes.OrderType → String

def layout : Venue → Layout
  | .binance => ⟨"side", "type", "quantity", "price", "newClientOrderId", fun s => upper s.value, fun t => upper t.value⟩
  | .bybit => ⟨"side", "orderType", "qty", "price", "orderLinkId", fun s => capitalize s.value, fun t => capitalize t.value⟩
  | .okx => ⟨"side", "ordType", "sz", "px", "clOrdId", fun s => lower s.value, fun t => lower t.value⟩
  | .mexc => ⟨"side", "type", "quantity", "price", "newClientOrderId", fun s => upper s.value, fun t => upper t.value⟩

theorem sideText_injective (venue : Venue) : Function.Injective (layout venue).sideText := by
  intro s s' h
  cases venue <;> cases s <;> cases s' <;> first | rfl | exact absurd h (by decide)

theorem typeText_injective (venue : Venue) : Function.Injective (layout venue).typeText := by
  intro t t' h
  cases venue <;> cases t <;> cases t' <;> first | rfl | exact absurd h (by decide)

theorem ifGiven_clientOrderId (r : OrderRecord) (name : String) :
    ifGiven (executeCall r).kwargs "client_order_id" name =
      ((r.clientOrderId.filter (· ≠ "")).map (fun c => (name, Arg.text c))).toList := by
  have hkwarg : (executeCall r).kwargs.lookup "client_order_id" = some (.ofText r.clientOrderId) := rfl
  rw [ifGiven, hkwarg]
  cases r.clientOrderId with
  | none => rfl
  | some c => by_cases hc : c = "" <;> simp [Arg.ofText, Arg.truthy, hc, Option.filter]

/-- The parameters that the layout names carry the order. -/
structure Carries (venue : Venue) (r : OrderRecord) (params : Params) : Prop where
  side : params.lookup (layout venue).side = some (.text ((layout venue).sideText r.side))
  orderType : params.lookup (layout venue).orderType = some (.text ((layout venue).typeText r.orderType))
  quantity : params.lookup (layout venue).quantity = some (.text r.quantity.str)
  price : params.lookup (layout venue).price = r.price.map (fun p => Arg.text p.str)
  clientOrderId : venue ≠ .binance →
    params.lookup (layout venue).clientOrderId = (r.clientOrderId.filter (· ≠ "")).map Arg.text

theorem carries_encode (venue : Venue) (r : OrderRecord) : Carries venue r (encode venue r) := by
  have hprice : (executeCall r).price = r.price := rfl
  cases venue with
  | binance =>
      refine ⟨rfl, rfl, rfl, ?_, fun hne => absurd rfl hne⟩
      simp only [encode, Binance.params, hprice]
      cases r.price <;> rfl
  | bybit =>
      refine ⟨rfl, rfl, rfl, ?_, fun _ => ?_⟩ <;> simp only [encode, Bybit.params, ifGiven_clientOrderId, hprice] <;>
        cases r.price <;> cases r.clientOrderId.filter (· ≠ "") <;> rfl
  | okx =>
      refine ⟨rfl, rfl, rfl, ?_, fun _ => ?_⟩ <;> simp only [encode, OKX.params, ifGiven_clientOrderId, hprice] <;>
        cases r.price <;> cases r.clientOrderId.filter (· ≠ "") <;> rfl
  | mexc =>
      refine ⟨rfl, rfl, rfl, ?_, fun _ => ?_⟩ <;> simp only [encode, MEXC.params, ifGiven_clientOrderId, hprice] <;>
        cases r.price <;> cases r.clientOrderId.filter (· ≠ "") <;> rfl

/-- Two requests with the same parameters agree, but for a stop price and the
difference between no client order id and an empty one. -/
theorem eq_of_carries {venue : Venue} {r r' : OrderRecord} {params : Params} (h : Carries venue r params)
    (h' : Carries venue r' params) : r.side = r'.side ∧ r.orderType = r'.orderType ∧ r.quantity = r'.quantity ∧
      r.price = r'.price ∧
      (venue ≠ .binance → r.clientOrderId.filter (· ≠ "") = r'.clientOrderId.filter (· ≠ "")) := by
  have htext : Function.Injective Arg.text := fun _ _ heq => Arg.text.inj heq
  have hprice : Function.Injective (fun p : Decimal => Arg.text p.str) :=
    fun _ _ heq => Decimal.str_injective (Arg.text.inj heq)
  have hside := Option.some.inj (h.side.symm.trans h'.side)
  have htype := Option.some.inj (h.orderType.symm.trans h'.orderType)
  have hquantity := Option.some.inj (h.quantity.symm.trans h'.quantity)
  exact ⟨sideText_injective venue (htext hside), typeText_injective venue (htext htype),
    Decimal.str_injective (htext hquantity), Option.map_injective hprice (h.price.symm.trans h'.price),
    fun hne => Option.map_injective htext ((h.clientOrderId hne).symm.trans (h'.clientOrderId hne))⟩

/-- No adapter reads the stop price. -/
theorem encode_stopPrice (venue : Venue) (r : OrderRecord) (stopPrice : Option Decimal) :
    encode venue { r with stopPrice := stopPrice } = encode venue r := by
  cases venue <;> rfl

/-- BinanceAdapter looks for newClientOrderId, which no caller passes. -/
theorem encode_clientOrderId (r : OrderRecord) (clientOrderId : Option String) :
    encode .binance { r with clientOrderId := clientOrderId } = encode .binance r := rfl

/-- An empty client order id is taken for none. -/
theorem encode_congr {venue : Venue} {r : OrderRecord} {clientOrderId : Option String}
    (h : clientOrderId.filter (· ≠ "") = r.clientOrderId.filter (· ≠ "")) :
    encode venue { r with clientOrderId := clientOrderId } = encode venue r := by
  have hgiven (name : String) := ifGiven_clientOrderId { r with clientOrderId := clientOrderId } name
  simp only [h, ← ifGiven_clientOrderId r] at hgiven
  cases venue with
  | binance => rfl
  | bybit => simp only [encode, Bybit.params, hgiven]; rfl
  | okx => simp only [encode, OKX.params, hgiven]; rfl
  | mexc => simp only [encode, MEXC.params, hgiven]; rfl

instance (r : OrderRecord) : Decidable (Accepted r) :=
  match h : validate r.values with
  | .ok () => isTrue h
  | .error _ => isFalse (fun hok => by
      rw [Accepted, h] at hok
      cases hok)

theorem Accepted.positive {r : OrderRecord} (h : Accepted r) :
    0 < r.quantity.value ∧ ∀ p ∈ r.price, 0 < p.value := by
  refine ⟨validate_quantity h, fun p hp => ?_⟩
  unfold Accepted validate at h
  simp only [OrderRecord.values, Option.mem_def.mp hp, Option.map_some] at h
  by_contra hle
  have hmissing : missing (some p.value) = true := by simp [missing, not_lt.mp hle]
  cases htype : r.orderType <;> grind

theorem Accepted.stopPrice {r : OrderRecord} (h : Accepted r) {d : Decimal} (hpos : 0 < d.value) :
    Accepted { r with stopPrice := some d } := by
  unfold Accepted validate at h ⊢
  simp only [OrderRecord.values, Option.map_some] at h ⊢
  have hd : missing (some d.value) = false := by simp [missing, hpos]
  grind

theorem exists_other_stopPrice (stopPrice : Option Decimal) :
    ∃ d : Decimal, 0 < d.value ∧ stopPrice.map Decimal.value ≠ some d.value := by
  have hone : (Decimal.mk false 1 0).value = 1 := by simp [Decimal.value]
  have htwo : (Decimal.mk false 2 0).value = 2 := by simp [Decimal.value]
  by_cases h : stopPrice.map Decimal.value = some 1
  · exact ⟨⟨false, 2, 0⟩, by rw [htwo]; decide, by rw [htwo, h]; decide⟩
  · exact ⟨⟨false, 1, 0⟩, by rw [hone]; decide, by rw [hone]; exact h⟩

/-- An order is encoded without loss in exactly the cases in which the adapter is
not Binance's, the type is not stop_limit, there is a client order id, and the numbers need no exponent. -/
theorem lossless_iff {venue : Venue} {r : OrderRecord} (h : Accepted r) : Lossless venue r ↔
    venue ≠ .binance ∧ r.orderType ≠ .stopLimit ∧ (∃ c ∈ r.clientOrderId, c ≠ "") ∧
      r.quantity.Plain ∧ ∀ p ∈ r.price, p.Plain := by
  obtain ⟨hquantity, hprice⟩ := h.positive
  have hplain : Decimal.PlainText r.quantity.str ↔ r.quantity.Plain :=
    Decimal.plainText_str_iff (Decimal.negative_of_value_pos hquantity)
  have hplainPrice (p : Decimal) (hp : p ∈ r.price) : Decimal.PlainText p.str ↔ p.Plain :=
    Decimal.plainText_str_iff (Decimal.negative_of_value_pos (hprice p hp))
  constructor
  · rintro ⟨hdetermined, hq, hp⟩
    refine ⟨?_, ?_, ?_, hplain.mp hq, fun p hmem => (hplainPrice p hmem).mp (hp p hmem)⟩
    · rintro rfl
      obtain ⟨c, hc⟩ := exists_ne r.clientOrderId
      exact hc (hdetermined { r with clientOrderId := c } h (encode_clientOrderId r c)).clientOrderId.symm
    · intro hstop
      obtain ⟨d, hpos, hne⟩ := exists_other_stopPrice r.stopPrice
      exact hne ((hdetermined _ (h.stopPrice hpos) (encode_stopPrice venue r (some d))).stopPrice hstop)
    · by_contra hnone
      have hfilter : r.clientOrderId.filter (· ≠ "") = none := by
        rw [Option.filter_eq_none_iff]
        intro c hc
        simpa using fun hne => hnone ⟨c, hc, hne⟩
      obtain ⟨c, hc, hempty⟩ : ∃ c : Option String, c ≠ r.clientOrderId ∧ c.filter (· ≠ "") = none := by
        cases hr : r.clientOrderId with
        | none => exact ⟨some "", by simp, by decide⟩
        | some c => exact ⟨none, by simp, rfl⟩
      exact hc (hdetermined { r with clientOrderId := c } h (encode_congr (hempty.trans hfilter.symm))).clientOrderId.symm
  · rintro ⟨hvenue, htype, ⟨c, hc, hne⟩, hq, hp⟩
    refine ⟨fun r' _ heq => ?_, hplain.mpr hq, fun p hmem => (hplainPrice p hmem).mpr (hp p hmem)⟩
    obtain ⟨hside, horder, hquant, hpr, hid⟩ :=
      eq_of_carries (carries_encode venue r) (heq ▸ carries_encode venue r')
    refine ⟨hside, horder, by rw [hquant], by rw [hpr], fun hstop => absurd hstop htype, ?_⟩
    have hfilter := hid hvenue
    rw [Option.mem_def.mp hc, Option.filter_some_pos (by simpa using hne)] at hfilter
    rw [Option.mem_def.mp hc]
    exact ((Option.filter_eq_some_iff.mp hfilter.symm).1).symm

def limitBuy : OrderRecord :=
  { requestId := 1, exchangeAccountId := some 1, symbol := "BTCUSDT", side := .buy, orderType := .limit
    quantity := ⟨false, 15, -1⟩, price := some ⟨false, 100, 0⟩, clientOrderId := some "c1" }

theorem accepted_limitBuy : Accepted limitBuy := by decide +kernel

theorem lossless_limitBuy : Lossless .okx limitBuy :=
  (lossless_iff accepted_limitBuy).mpr ⟨by decide, by decide, ⟨"c1", rfl, by decide⟩, by decide, fun p hp => by
    obtain rfl := Option.some.inj hp
    decide⟩

/-- A stop_limit order, and the same order with another stop price. -/
def stopBuy (stopPrice : Nat) : OrderRecord :=
  { limitBuy with orderType := .stopLimit, stopPrice := some ⟨false, stopPrice, 0⟩ }

/-- No adapter sends the stop price, BinanceAdapter drops the client order id too,
and a small quantity is written with an exponent. -/
theorem order_lost :
    (Accepted (stopBuy 110) ∧ Accepted (stopBuy 120) ∧ ¬ Agree (stopBuy 110) (stopBuy 120) ∧
      ∀ venue, encode venue (stopBuy 110) = encode venue (stopBuy 120) ∧ ¬ Lossless venue (stopBuy 110)) ∧
    (Accepted limitBuy ∧ ¬ Lossless .binance limitBuy) ∧
    Accepted { limitBuy with quantity := ⟨false, 1, -7⟩ } ∧ (Decimal.mk false 1 (-7)).str = "1E-7" := by
  have hstop : ¬ Agree (stopBuy 110) (stopBuy 120) := by
    intro hagree
    have hvalue := hagree.stopPrice rfl
    simp [stopBuy, Decimal.value] at hvalue
  have hsame (venue : Venue) : encode venue (stopBuy 110) = encode venue (stopBuy 120) :=
    (encode_stopPrice venue (stopBuy 110) _).symm
  have haccepted : Accepted (stopBuy 110) ∧ Accepted (stopBuy 120) := by decide +kernel
  refine ⟨⟨haccepted.1, haccepted.2, hstop, fun venue => ⟨hsame venue, fun hlossless => ?_⟩⟩,
    ⟨accepted_limitBuy, fun hlossless => ?_⟩, by decide +kernel, by decide +kernel⟩
  · exact hstop (hlossless.determined _ haccepted.2 (hsame venue).symm)
  · have hid := (hlossless.determined { limitBuy with clientOrderId := none } accepted_limitBuy rfl).clientOrderId
    cases hid

end Utos.Exchanges.OrderParams
