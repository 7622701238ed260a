import Utos.Exchanges.Bybit
import Utos.Exchanges.Hyperliquid
import Utos.Exchanges.OKX

namespace Utos.Exchanges.Refusal

open Core.DomainTypes Core.Exceptions Core Http Errors
open Execution.Executor (PlaceArgs)

inductive Venue
  | bybit
  | okx
  | hyperliquid
  deriving DecidableEq, Repr

inductive Operation
  | place (args : PlaceArgs)
  | cancel (symbol orderId : String)
  deriving DecidableEq, Repr

/-- What place_order or cancel_order makes of a response. -/
def answer (x : Named) (response : JsonResponse) : Venue → Operation → Except Exn OrderResult
  | .bybit, .place args => Bybit.placeOrder x args response
  | .bybit, .cancel symbol _ => Bybit.cancelOrder x symbol response
  | .okx, .place args => OKX.placeOrder x args response
  | .okx, .cancel symbol orderId => OKX.cancelOrder x symbol orderId response
  | .hyperliquid, .place args => Hyperliquid.placeOrder x args response
  | .hyperliquid, .cancel symbol orderId => Hyperliquid.cancelOrder x symbol orderId response

/-- The result tells the caller that the request went through. -/
def Claims : Operation → OrderResult → Prop
  | .place _, result => result.status = "open"
  | .cancel .., _ => True

def item (body : Json) : Option Json :=
  match body.field "data" with
  | some (.list (first :: _)) => some first
  | _ => none

/-- What the exchange says of the request. -/
def reportsSuccess (body : Json) : Venue → Bool
  | .bybit => ((body.field "retCode").map (Json.isInt 0)).getD false
  | .okx => ((body.field "code").map (Json.isText "0")).getD false &&
      (((item body).bind (Json.field "sCode")).map (Json.isText "0")).getD false
  | .hyperliquid => ((body.field "status").map (Json.isText "ok")).getD false

/-- A string that is not empty, or a number. -/
def isId : Json → Bool
  | .text s => s ≠ ""
  | .int _ | .float .. => true
  | _ => false

/-- The order id, where the adapter looks for it. -/
def orderId (body : Json) : Venue → Option Json
  | .bybit => (body.field "result").bind (Json.field "orderId")
  | .okx => (item body).bind (Json.field "ordId")
  | .hyperliquid => (body.field "resting").bind (Json.field "oid")

/-- The response reports success, and for a placement carries an order id. -/
def Succeeded (response : JsonResponse) (venue : Venue) (op : Operation) : Prop :=
  ∃ body, response.body = some body ∧ reportsSuccess body venue = true ∧
    match op with
    | .place _ => ∃ id, orderId body venue = some id ∧ isId id = true
    | .cancel .. => True

/-- Only a success is reported as one. -/
def Honest (x : Named) (response : JsonResponse) (venue : Venue) (op : Operation) : Prop :=
  ∀ result, answer x response venue op = .ok result → Claims op result → Succeeded response venue op

def objectAt (key : String) (body : Json) : Bool := ((body.field key).getD (.object [])).isObject

/-- The list of results is missing or empty, or begins with an object. -/
def itemReadable (body : Json) : Bool :=
  !((body.field "data").getD .null).truthy || ((item body).map Json.isObject).getD false

/-- The shape that a body needs for the adapter to read it without raising, with
the one field whose value is looked at. -/
def readable (body : Json) : Venue → Operation → Bool
  | .bybit, _ => body.isObject && objectAt "result" body
  | .okx, .place _ => body.isObject && itemReadable body
  | .hyperliquid, .place _ => body.isObject && objectAt "resting" body && reportsSuccess body .hyperliquid
  | .hyperliquid, .cancel .. => true
  | .okx, .cancel .. => true

/-- The response is one that the adapter takes for a success. -/
def Readable (response : JsonResponse) : Venue → Operation → Prop
  | .okx, .cancel .. => True
  | venue, op => ∃ body, response.body = some body ∧ readable body venue op = true

variable {x : Named} {response : JsonResponse} {body : Json}

theorem bybit_result_iff {symbol side orderType : String} {quantity : ℚ} {price : Option ℚ} :
    (∃ result, Bybit.orderResultFromResponse x body symbol side orderType quantity price = .ok result) ↔
      (body.isObject && objectAt "result" body) = true := by
  cases body with
  | object fields =>
      simp only [Bybit.orderResultFromResponse, Json.get_object, objectAt, Json.field, Json.isObject_object,
        Bool.true_and]
      cases (fields.lookup "result").getD (Json.object []) <;>
        simp [bind, Except.bind, pure, Except.pure, Json.get, Json.isObject]
  | _ => simp [Bybit.orderResultFromResponse, Json.get, Json.isObject, bind, Except.bind]

theorem bybit_status {symbol side orderType : String} {quantity : ℚ} {price : Option ℚ} (result : OrderResult)
    (h : Bybit.orderResultFromResponse x body symbol side orderType quantity price = .ok result) :
    result.status = "open" := by
  simp only [Bybit.orderResultFromResponse, bind, Except.bind, pure, Except.pure] at h
  split at h
  · cases h
  · split at h
    · cases h
    · split at h <;> cases h
      rfl

theorem okx_firstItem_iff {fields : List (String × Json)} :
    (∃ value, OKX.firstItem (.object fields) = .ok value ∧ value.isObject = true) ↔
      itemReadable (.object fields) = true := by
  simp only [OKX.firstItem, Json.get_object, itemReadable, item, Json.field, bind, Except.bind, pure, Except.pure]
  cases hdata : fields.lookup "data" with
  | none => simp [Json.truthy]
  | some data =>
      rw [Option.getD_some]
      by_cases htruthy : data.truthy = true
      · simp only [htruthy, if_true, Bool.not_true, Bool.false_or]
        cases data with
        | list items =>
            cases items with
            | nil => simp [Json.truthy] at htruthy
            | cons first rest => simp [Json.first]
        | text s =>
            simp only [Json.first, Option.map_none, Option.getD_none]
            cases s.toList <;> simp [Json.isObject]
        | _ => simp [Json.first]
      · simp [htruthy]

theorem okx_result_iff {symbol side orderType : String} {quantity : ℚ} {price : Option ℚ} :
    (∃ result, OKX.orderResultFromResponse x body symbol side orderType quantity price = .ok result ∧
      result.status = "open") ↔ (body.isObject && itemReadable body) = true := by
  cases body with
  | object fields =>
      rw [Json.isObject_object, Bool.true_and, ← okx_firstItem_iff]
      simp only [OKX.orderResultFromResponse]
      cases OKX.firstItem (.object fields) with
      | error e => simp [bind, Except.bind]
      | ok value => cases value <;> simp [bind, Except.bind, pure, Except.pure, Json.get, Json.isObject]
  | _ => simp [OKX.orderResultFromResponse, OKX.firstItem, Json.get, Json.isObject, bind, Except.bind]

theorem hyperliquid_answer_iff : (∃ r, Hyperliquid.readAnswer body = .ok r ∧ r.1.isText "ok" = true) ↔
    (body.isObject && objectAt "resting" body && reportsSuccess body .hyperliquid) = true := by
  have hno : (Json.text "err").isText "ok" = false := rfl
  cases body with
  | object fields =>
      cases fields with
      | nil => simp [Hyperliquid.readAnswer, Json.truthy, hno, reportsSuccess, Json.field, pure, Except.pure]
      | cons field fields =>
          simp only [Hyperliquid.readAnswer, Json.truthy, List.isEmpty_cons, Bool.not_false, if_true, Json.get_object,
            objectAt, reportsSuccess, Json.field, Json.isObject_object, Bool.true_and, bind, Except.bind, pure,
            Except.pure]
          cases ((field :: fields).lookup "resting").getD (Json.object []) <;>
            cases (field :: fields).lookup "status" <;> simp [Json.get, Json.isObject, hno]
  | _ =>
      simp only [Hyperliquid.readAnswer, Json.isObject, Bool.false_and, Bool.false_eq_true, iff_false]
      split <;> simp [Json.get, hno, bind, Except.bind, pure, Except.pure]

theorem hyperliquid_result_iff {args : PlaceArgs} (h : response.statusCode < 400) (hbody : response.body = some body) :
    (∃ result, Hyperliquid.placeOrder x args response = .ok result ∧ result.status = "open") ↔
      (body.isObject && objectAt "resting" body && reportsSuccess body .hyperliquid) = true := by
  rw [← hyperliquid_answer_iff]
  simp only [Hyperliquid.placeOrder, Hyperliquid.postAction_of_lt x h, hbody, bind, Except.bind, pure, Except.pure]
  cases Hyperliquid.readAnswer body with
  | error e => simp
  | ok r => simp

/-- With such a status the placements and the cancels of Bybit and OKX come down to reading the body. -/
theorem parse_bind {α : Type} {codes : Codes} (h : response.statusCode < 400) (f : Json → Except Exn α) :
    (do raiseForStatus codes x response
        let data ← parseJson codes x response
        f data) = match response.body with
      | some data => f data
      | none => .error (exchangeError x s!"Invalid JSON response from {codes.label}") := by
  rw [raiseForStatus_of_lt h, parseJson_of_lt h, parsed]
  cases response.body <;> rfl

/-- What the adapters report as a success is decided by the shape of the body. -/
theorem claims_iff (h : response.statusCode < 400) (venue : Venue) (op : Operation) :
    (∃ result, answer x response venue op = .ok result ∧ Claims op result) ↔ Readable response venue op := by
  cases venue with
  | bybit =>
      cases op with
      | place args =>
          simp only [answer, Claims, Readable, readable, Bybit.placeOrder, parse_bind h]
          cases response.body with
          | none => simp
          | some body =>
              rw [exists_congr (fun result => and_iff_left_of_imp (bybit_status result))]
              simpa using bybit_result_iff
      | cancel symbol id =>
          simp only [answer, Claims, Readable, readable, Bybit.cancelOrder, parse_bind h]
          cases response.body with
          | none => simp
          | some body => simpa using bybit_result_iff
  | okx =>
      cases op with
      | place args =>
          simp only [answer, Claims, Readable, readable, OKX.placeOrder, parse_bind h]
          cases response.body with
          | none => simp
          | some body => simpa using okx_result_iff
      | cancel symbol id =>
          simp [answer, Claims, Readable, OKX.cancelOrder, raiseForStatus_of_lt h, bind, Except.bind, pure, Except.pure]
  | hyperliquid =>
      cases op with
      | place args =>
          simp only [answer, Claims, Readable, readable]
          cases hbody : response.body with
          | none => simp [Hyperliquid.placeOrder, Hyperliquid.postAction_of_lt x h, hbody, bind, Except.bind]
          | some body => simpa using hyperliquid_result_iff h hbody
      | cancel symbol id =>
          simp only [answer, Claims, Readable, readable, Hyperliquid.cancelOrder, Hyperliquid.postAction_of_lt x h]
          cases response.body with
          | none => simp [bind, Except.bind]
          | some body => simp [bind, Except.bind, pure, Except.pure]

/-- A success is reported honestly if the body is one that the adapter does not
take for a success, or one that is. -/
theorem honest_iff (x : Named) (response : JsonResponse) (venue : Venue) (op : Operation)
    (h : response.statusCode < 400) :
    Honest x response venue op ↔ (Readable response venue op → Succeeded response venue op) := by
  rw [← @claims_iff x response h venue op]
  constructor
  · rintro hhonest ⟨result, hok, hclaims⟩
    exact hhonest result hok hclaims
  · exact fun himp result hok hclaims => himp ⟨result, hok, hclaims⟩

def bybitAdapter : Named := { name := "bybit", display := fun _ => "{}" }

/-- The answer of Bybit to a request that it refuses. -/
def refused : JsonResponse :=
  { statusCode := 200
    body := some (.object [("retCode", .int 10001), ("retMsg", .text "Qty invalid"), ("result", .object [])]) }

def marketBuy : Operation := .place ⟨"BTCUSDT", "buy", "market", 1, none, none, none⟩

theorem honest_iff_refused : Honest bybitAdapter refused .bybit marketBuy ↔
    (Readable refused .bybit marketBuy → Succeeded refused .bybit marketBuy) :=
  honest_iff bybitAdapter refused .bybit marketBuy (by decide)

theorem refusal_reported_open : ¬ ∀ (x : Named) (response : JsonResponse) (venue : Venue) (op : Operation),
    response.statusCode < 400 → Honest x response venue op := by
  intro h
  have hreadable : Readable refused .bybit marketBuy := ⟨_, rfl, rfl⟩
  obtain ⟨result, hok, hclaims⟩ := (@claims_iff bybitAdapter refused (by decide) .bybit marketBuy).mpr hreadable
  obtain ⟨body, hbody, hsuccess, -⟩ := h bybitAdapter refused .bybit marketBuy (by decide) result hok hclaims
  cases hbody
  exact absurd hsuccess (by decide)

end Utos.Exchanges.Refusal
