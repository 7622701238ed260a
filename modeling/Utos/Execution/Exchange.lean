import Utos.Execution.Service
import Utos.Execution.Validator
import Mathlib.Data.List.Basic

namespace Utos.Execution.Exchange

open Coroutine Core.DomainTypes Core.Exceptions Models Service Validator

inductive OrderState
  | live
  | filled (quantity : ℚ)
  | cancelled
  deriving DecidableEq, Repr

structure Order (ω : Type) where
  owner : ω
  side : OrderSide
  price : Option ℚ
  quantity : ℚ
  state : OrderState
  deriving DecidableEq, Repr

/-- ExecutionEngine together with the exchange behind it, as a strategy engine
sees the two. Orders are numbered by their position. The index is what the
order tracker resolves an id to, fills are the orders that filled, with the
quantity, and asked lists for whom place_order was called; the newest entry of
the two comes first. -/
structure Desk (ω : Type) where
  orders : List (Order ω) := []
  index : Option UUID × OrderId → Option Nat := fun _ => none
  fills : List (Order ω × ℚ) := []
  asked : List ω := []

/-- What comes of a placement: an entry for every order the exchange makes of
it, true for one that is live, the id the tracker keeps the last of them under,
and the answer. -/
structure PlaceFate where
  orders : List Bool
  registered : Option OrderId
  answer : Except Exn OrderResult

inductive CancelEffect
  | cancelled
  | filled (quantity : ℚ)
  | unchanged
  deriving DecidableEq, Repr

/-- What comes of cancelling an order that was live. -/
structure CancelFate where
  effect : CancelEffect
  answer : Except Exn OrderResult

/-- The choices of the exchange during one operation: by the request placed,
which its request_id tells apart, and by the order to be cancelled. -/
structure Oracle where
  place : OrderRequest → PlaceFate
  cancel : Nat → CancelFate

namespace Desk

variable {ω : Type}

def newOrder (owner : ω) (request : OrderRequest) (isLive : Bool) : Order ω :=
  { owner := owner, side := request.side, price := request.price, quantity := request.quantity
    state := if isLive then .live else .cancelled }

def accept (d : Desk ω) (owner : ω) (request : OrderRequest) (fate : PlaceFate) : Desk ω :=
  { d with
    orders := d.orders ++ fate.orders.map (newOrder owner request)
    index := match fate.registered with
      | none => d.index
      | some orderId => if fate.orders = [] then d.index
          else Function.update d.index (request.exchangeAccountId, orderId)
            (some (d.orders.length + fate.orders.length - 1)) }

def setState (d : Desk ω) (ref : Nat) (state : OrderState) : Desk ω :=
  { d with orders := d.orders.modify ref (fun o => { o with state := state }) }

def IsLive (d : Desk ω) (ref : Nat) : Prop := ∃ o, d.orders[ref]? = some o ∧ o.state = .live

instance (d : Desk ω) (ref : Nat) : Decidable (d.IsLive ref) :=
  match h : d.orders[ref]? with
  | none => isFalse (fun ⟨_, ho, _⟩ => by simp [h] at ho)
  | some o => decidable_of_iff (o.state = .live) ⟨fun hl => ⟨o, h, hl⟩, fun ⟨o', ho, hl⟩ => by
      rw [h] at ho; cases ho; exact hl⟩

/-- The exchange fills a live order. -/
def fill (d : Desk ω) (ref : Nat) (quantity : ℚ) : Desk ω :=
  match d.orders[ref]? with
  | none => d
  | some o =>
      if o.state = .live then { d.setState ref (.filled quantity) with fills := (o, quantity) :: d.fills }
      else d

def cancel (d : Desk ω) (ref : Nat) : Desk ω :=
  if d.IsLive ref then d.setState ref .cancelled else d

def settle (d : Desk ω) (ref : Nat) : CancelEffect → Desk ω
  | .cancelled => d.cancel ref
  | .filled quantity => d.fill ref quantity
  | .unchanged => d

theorem setState_orders (d : Desk ω) (ref : Nat) (state : OrderState) (r : Nat) :
    (d.setState ref state).orders[r]? =
      (d.orders[r]?).map (fun o => if ref = r then { o with state := state } else o) := by
  simp only [setState, List.getElem?_modify]
  cases d.orders[r]? <;> rfl

theorem not_live_map {d : Desk ω} {ref : Nat} (h : ¬ d.IsLive ref) (state : OrderState) (r : Nat) :
    (d.orders[r]?).map (fun o => if ref = r ∧ o.state = .live then { o with state := state } else o) =
      d.orders[r]? := by
  cases ho : d.orders[r]? with
  | none => rfl
  | some o =>
      have hn : ¬(ref = r ∧ o.state = .live) := fun ⟨hr, hl⟩ => h ⟨o, hr ▸ ho, hl⟩
      simp [hn]

theorem live_map {d : Desk ω} {ref : Nat} (h : d.IsLive ref) (state : OrderState) (r : Nat) :
    (d.setState ref state).orders[r]? =
      (d.orders[r]?).map (fun o => if ref = r ∧ o.state = .live then { o with state := state } else o) := by
  rw [setState_orders]
  cases ho : d.orders[r]? with
  | none => rfl
  | some o =>
      by_cases hr : ref = r
      · subst hr
        obtain ⟨o', ho', hl⟩ := h
        cases ho.symm.trans ho'
        simp [hl]
      · simp [hr]

theorem cancel_orders (d : Desk ω) (ref r : Nat) :
    (d.cancel ref).orders[r]? =
      (d.orders[r]?).map (fun o => if ref = r ∧ o.state = .live then { o with state := .cancelled } else o) := by
  unfold cancel
  split
  next h => exact live_map h _ r
  next h => exact (not_live_map h _ r).symm

theorem fill_orders (d : Desk ω) (ref : Nat) (quantity : ℚ) (r : Nat) :
    (d.fill ref quantity).orders[r]? =
      (d.orders[r]?).map (fun o => if ref = r ∧ o.state = .live then { o with state := .filled quantity } else o) := by
  unfold fill
  split
  next hnone => exact (not_live_map (fun ⟨o, ho, _⟩ => by simp [hnone] at ho) _ r).symm
  next o ho =>
    split
    next hl => exact live_map ⟨o, ho, hl⟩ _ r
    next hl => exact (not_live_map (fun ⟨o', ho', hl'⟩ => by rw [ho] at ho'; cases ho'; exact hl hl') _ r).symm

@[simp] theorem cancel_index (d : Desk ω) (ref : Nat) : (d.cancel ref).index = d.index := by
  unfold cancel; split <;> rfl

@[simp] theorem fill_index (d : Desk ω) (ref : Nat) (quantity : ℚ) : (d.fill ref quantity).index = d.index := by
  unfold fill; split
  · rfl
  · split <;> rfl

@[simp] theorem settle_index (d : Desk ω) (ref : Nat) (effect : CancelEffect) :
    (d.settle ref effect).index = d.index := by
  cases effect <;> simp [settle]

@[simp] theorem cancel_asked (d : Desk ω) (ref : Nat) : (d.cancel ref).asked = d.asked := by
  unfold cancel; split <;> rfl

@[simp] theorem fill_asked (d : Desk ω) (ref : Nat) (quantity : ℚ) : (d.fill ref quantity).asked = d.asked := by
  unfold fill; split
  · rfl
  · split <;> rfl

@[simp] theorem settle_asked (d : Desk ω) (ref : Nat) (effect : CancelEffect) :
    (d.settle ref effect).asked = d.asked := by
  cases effect <;> simp [settle]

@[simp] theorem cancel_length (d : Desk ω) (ref : Nat) : (d.cancel ref).orders.length = d.orders.length := by
  unfold cancel; split <;> simp [setState]

@[simp] theorem fill_length (d : Desk ω) (ref : Nat) (quantity : ℚ) :
    (d.fill ref quantity).orders.length = d.orders.length := by
  unfold fill; split
  · rfl
  · split <;> simp [setState]

@[simp] theorem settle_length (d : Desk ω) (ref : Nat) (effect : CancelEffect) :
    (d.settle ref effect).orders.length = d.orders.length := by
  cases effect <;> simp [settle]

/-- The exchange deals with the cancel of the order that the tracker finds under the id. -/
def settleById (d : Desk ω) (oracle : Oracle) (key : Option UUID × OrderId) : Desk ω :=
  match d.index key with
  | none => d
  | some ref => d.settle ref (oracle.cancel ref).effect

def settleIds (d : Desk ω) (oracle : Oracle) (keys : List (Option UUID × OrderId)) : Desk ω :=
  keys.foldl (fun d key => d.settleById oracle key) d

@[simp] theorem settleById_index (d : Desk ω) (oracle : Oracle) (key : Option UUID × OrderId) :
    (d.settleById oracle key).index = d.index := by
  unfold settleById; split <;> simp

@[simp] theorem settleById_length (d : Desk ω) (oracle : Oracle) (key : Option UUID × OrderId) :
    (d.settleById oracle key).orders.length = d.orders.length := by
  unfold settleById; split <;> simp

/-- Cancel the order that the tracker finds under the id, if it finds one. -/
def cancelById (d : Desk ω) (key : Option UUID × OrderId) : Desk ω :=
  match d.index key with
  | none => d
  | some ref => d.cancel ref

def cancelIds (d : Desk ω) (keys : List (Option UUID × OrderId)) : Desk ω := keys.foldl cancelById d

@[simp] theorem cancelById_index (d : Desk ω) (key : Option UUID × OrderId) :
    (d.cancelById key).index = d.index := by
  unfold cancelById; split <;> simp

@[simp] theorem cancelIds_length (d : Desk ω) (keys : List (Option UUID × OrderId)) :
    (d.cancelIds keys).orders.length = d.orders.length := by
  induction keys generalizing d with
  | nil => rfl
  | cons key keys ih =>
      have h : (d.cancelById key).orders.length = d.orders.length := by
        unfold cancelById; split <;> simp
      exact (ih _).trans h

theorem cancelIds_orders (d : Desk ω) (keys : List (Option UUID × OrderId)) (r : Nat) :
    (d.cancelIds keys).orders[r]? = (d.orders[r]?).map (fun o =>
      if (∃ key ∈ keys, d.index key = some r) ∧ o.state = .live then { o with state := .cancelled } else o) := by
  induction keys generalizing d with
  | nil => simp [cancelIds]
  | cons key keys ih =>
      have hstep : (d.cancelIds (key :: keys)) = (d.cancelById key).cancelIds keys := rfl
      rw [hstep, ih, cancelById_index]
      cases hk : d.index key with
      | none =>
          simp only [cancelById, hk, List.mem_cons, exists_eq_or_imp, reduceCtorEq, false_or]
      | some ref =>
          simp only [cancelById, hk, cancel_orders, Option.map_map, List.mem_cons, exists_eq_or_imp,
            Option.some.injEq]
          cases d.orders[r]? with
          | none => rfl
          | some o =>
              by_cases hr : ref = r
              · by_cases hl : o.state = .live <;> simp [hr, hl]
              · simp only [Function.comp, Option.map_some, hr, false_and, if_false, false_or]

theorem settleById_of_cancels {oracle : Oracle} (h : ∀ ref, (oracle.cancel ref).effect = .cancelled) (d : Desk ω)
    (key : Option UUID × OrderId) : d.settleById oracle key = d.cancelById key := by
  unfold settleById cancelById
  split
  · rfl
  · simp only [h, settle]

theorem settleIds_of_cancels {oracle : Oracle} (h : ∀ ref, (oracle.cancel ref).effect = .cancelled) (d : Desk ω)
    (keys : List (Option UUID × OrderId)) : d.settleIds oracle keys = d.cancelIds keys := by
  simp only [settleIds, cancelIds, settleById_of_cancels h]

/-- The orders of d' are those of d, and others that have the property. -/
def Adds (P : Order ω → Prop) (orders : List (Order ω)) (d' : Desk ω) : Prop :=
  ∃ added, d'.orders = orders ++ added ∧ ∀ o ∈ added, P o

theorem Adds.refl (P : Order ω → Prop) (d : Desk ω) : Adds P d.orders d := ⟨[], by simp, by simp⟩

theorem Adds.trans {P : Order ω → Prop} {orders : List (Order ω)} {d' d'' : Desk ω} (h : Adds P orders d')
    (h' : Adds P d'.orders d'') : Adds P orders d'' := by
  obtain ⟨added, horders, hP⟩ := h
  obtain ⟨added', horders', hP'⟩ := h'
  refine ⟨added ++ added', by rw [horders', horders, List.append_assoc], fun o ho => ?_⟩
  rcases List.mem_append.mp ho with ho | ho
  · exact hP o ho
  · exact hP' o ho

theorem Adds.length_le {P : Order ω → Prop} {orders : List (Order ω)} {d' : Desk ω} (h : Adds P orders d') :
    orders.length ≤ d'.orders.length := by
  obtain ⟨added, horders, -⟩ := h
  simp [horders]

theorem Adds.mono {P P' : Order ω → Prop} {orders : List (Order ω)} {d' : Desk ω} (h : Adds P orders d')
    (hP : ∀ o, P o → P' o) : Adds P' orders d' := by
  obtain ⟨added, horders, hadded⟩ := h
  exact ⟨added, horders, fun o ho => hP o (hadded o ho)⟩

theorem Adds.old {P : Order ω → Prop} {orders : List (Order ω)} {d' : Desk ω} (h : Adds P orders d') {r : Nat}
    {o : Order ω} (ho : orders[r]? = some o) : d'.orders[r]? = some o := by
  obtain ⟨added, horders, -⟩ := h
  rw [horders, List.getElem?_append_left (List.getElem?_eq_some_iff.mp ho).1]
  exact ho

theorem Adds.new {P : Order ω → Prop} {orders : List (Order ω)} {d' : Desk ω} (h : Adds P orders d') {r : Nat}
    {o : Order ω} (hr : orders.length ≤ r) (ho : d'.orders[r]? = some o) : P o := by
  obtain ⟨added, horders, hadded⟩ := h
  rw [horders, List.getElem?_append_right hr] at ho
  exact hadded o (List.mem_of_getElem? ho)

theorem Adds.cases {P : Order ω → Prop} {orders : List (Order ω)} {d' : Desk ω} (h : Adds P orders d') {r : Nat}
    {o : Order ω} (ho : d'.orders[r]? = some o) : orders[r]? = some o ∨ P o := by
  rcases Nat.lt_or_ge r orders.length with hr | hr
  · obtain ⟨added, horders, -⟩ := h
    rw [horders, List.getElem?_append_left hr] at ho
    exact .inl ho
  · exact .inr (h.new hr ho)

end Desk

/-- The desk with the choices of the exchange. -/
structure World (ω : Type) where
  desk : Desk ω
  oracle : Oracle

variable {ω : Type}

/-- An invalid request never reaches the exchange, and neither does the cancel
of an order the tracker does not know. -/
def handler : Handler (World ω) (ExecReq ω) (ExecAns ω)
  | w, .placeOrder owner request =>
      let request := request w.desk.asked.length
      let fate := w.oracle.place request
      let asked := { w.desk with asked := owner :: w.desk.asked }
      match validate request with
      | .error e => (.error e, { w with desk := asked })
      | .ok _ => (fate.answer, { w with desk := asked.accept owner request fate })
  | w, .cancelOrder exchangeAccountId orderId =>
      match w.desk.index (exchangeAccountId, orderId) with
      | none => (.error (.orderNotFound (str orderId)), w)
      | some ref =>
          ((w.oracle.cancel ref).answer, { w with desk := w.desk.settle ref (w.oracle.cancel ref).effect })

theorem handler_cancelOrder (w : World ω) (acct : Option UUID) (orderId : OrderId) :
    (handler w (.cancelOrder acct orderId)).2 =
      { w with desk := w.desk.settleById w.oracle (acct, orderId) } := by
  simp only [handler, Desk.settleById]
  split <;> rfl

theorem handler_placeOrder_adds (w : World ω) (owner : ω) (request : UUID → OrderRequest) :
    Desk.Adds (fun o => o.owner = owner ∧ o.side = (request w.desk.asked.length).side) w.desk.orders
      (handler w (.placeOrder owner request)).2.desk := by
  simp only [handler]
  split
  · exact ⟨[], by simp, by simp⟩
  · refine ⟨_, rfl, fun o ho => ?_⟩
    obtain ⟨isLive, -, rfl⟩ := List.mem_map.mp ho
    exact ⟨rfl, rfl⟩

/-- Every order of the desk that is live was a live order of the other. -/
def LiveIn (d d' : Desk ω) : Prop :=
  ∀ (r : Nat) (o : Order ω), d'.orders[r]? = some o → o.state = .live → d.orders[r]? = some o

theorem liveIn_refl (d : Desk ω) : LiveIn d d := fun _ _ ho _ => ho

theorem LiveIn.trans {d d' d'' : Desk ω} (h : LiveIn d d') (h' : LiveIn d' d'') : LiveIn d d'' :=
  fun r o ho hl => h r o (h' r o ho hl) hl

theorem settle_live {d : Desk ω} {ref r : Nat} {effect : CancelEffect} {o : Order ω}
    (ho : (d.settle ref effect).orders[r]? = some o) (hl : o.state = .live) :
    d.orders[r]? = some o ∧ (ref = r → effect = .unchanged) := by
  have hstate : ∀ state, state ≠ OrderState.live →
      (d.orders[r]?).map (fun o => if ref = r ∧ o.state = .live then { o with state := state } else o) = some o →
      d.orders[r]? = some o ∧ ref ≠ r := by
    intro state hne hmap
    obtain ⟨o', ho', hif⟩ := Option.map_eq_some_iff.mp hmap
    split at hif
    · rw [← hif] at hl
      exact absurd hl hne
    next hn =>
      subst hif
      exact ⟨ho', fun hr => hn ⟨hr, hl⟩⟩
  cases effect with
  | unchanged => exact ⟨ho, fun _ => rfl⟩
  | cancelled =>
      rw [Desk.settle, Desk.cancel_orders] at ho
      obtain ⟨hold, hne⟩ := hstate _ (by simp) ho
      exact ⟨hold, fun hr => absurd hr hne⟩
  | filled quantity =>
      rw [Desk.settle, Desk.fill_orders] at ho
      obtain ⟨hold, hne⟩ := hstate _ (by simp) ho
      exact ⟨hold, fun hr => absurd hr hne⟩

theorem settle_order {d : Desk ω} {ref r : Nat} {effect : CancelEffect} {o : Order ω}
    (ho : (d.settle ref effect).orders[r]? = some o) :
    ∃ o' state, d.orders[r]? = some o' ∧ o = { o' with state := state } := by
  cases effect with
  | unchanged => exact ⟨o, o.state, ho, rfl⟩
  | cancelled =>
      rw [Desk.settle, Desk.cancel_orders] at ho
      obtain ⟨o', ho', rfl⟩ := Option.map_eq_some_iff.mp ho
      split
      · exact ⟨o', _, ho', rfl⟩
      · exact ⟨o', o'.state, ho', rfl⟩
  | filled quantity =>
      rw [Desk.settle, Desk.fill_orders] at ho
      obtain ⟨o', ho', rfl⟩ := Option.map_eq_some_iff.mp ho
      split
      · exact ⟨o', _, ho', rfl⟩
      · exact ⟨o', o'.state, ho', rfl⟩

theorem settleById_order {d : Desk ω} {oracle : Oracle} {key : Option UUID × OrderId} {r : Nat} {o : Order ω}
    (ho : (d.settleById oracle key).orders[r]? = some o) :
    ∃ o' state, d.orders[r]? = some o' ∧ o = { o' with state := state } := by
  unfold Desk.settleById at ho
  split at ho
  · exact ⟨o, o.state, ho, rfl⟩
  · exact settle_order ho

theorem settleById_live {d : Desk ω} {oracle : Oracle} {key : Option UUID × OrderId} {r : Nat} {o : Order ω}
    (ho : (d.settleById oracle key).orders[r]? = some o) (hl : o.state = .live) :
    d.orders[r]? = some o ∧ (d.index key = some r → (oracle.cancel r).effect = .unchanged) := by
  unfold Desk.settleById at ho
  cases hkey : d.index key with
  | none =>
      rw [hkey] at ho
      exact ⟨ho, fun h => by cases h⟩
  | some ref =>
      rw [hkey] at ho
      obtain ⟨hold, hun⟩ := settle_live ho hl
      refine ⟨hold, fun h => ?_⟩
      cases h
      exact hun rfl

theorem settleIds_live {oracle : Oracle} (keys : List (Option UUID × OrderId)) {d : Desk ω} {r : Nat}
    {o : Order ω} (ho : (d.settleIds oracle keys).orders[r]? = some o) (hl : o.state = .live) :
    d.orders[r]? = some o ∧ ∀ key ∈ keys, d.index key = some r → (oracle.cancel r).effect = .unchanged := by
  induction keys generalizing d with
  | nil => exact ⟨ho, fun key hkey => by cases hkey⟩
  | cons key keys ih =>
      obtain ⟨hnext, hrest⟩ := ih (d := d.settleById oracle key) ho
      obtain ⟨hold, hfirst⟩ := settleById_live hnext hl
      refine ⟨hold, fun key' hkey' => ?_⟩
      rcases List.mem_cons.mp hkey' with rfl | hmem
      · exact hfirst
      · rw [Desk.settleById_index] at hrest
        exact hrest key' hmem

/-- The desk answers a request, with the choices of the exchange. -/
def deskHandler (oracle : Oracle) : Handler (Desk ω) (ExecReq ω) (ExecAns ω) := fun d q =>
  ((handler ⟨d, oracle⟩ q).1, (handler ⟨d, oracle⟩ q).2.desk)

theorem deskHandler_cancelOrder (oracle : Oracle) (d : Desk ω) (acct : Option UUID) (orderId : OrderId) :
    (deskHandler oracle d (.cancelOrder acct orderId)).2 = d.settleById oracle (acct, orderId) := by
  simp only [deskHandler, handler_cancelOrder]

theorem deskHandler_placeOrder (oracle : Oracle) (d : Desk ω) (owner : ω) (request : UUID → OrderRequest) :
    (deskHandler oracle d (.placeOrder owner request)).2.orders = d.orders ∨
      (deskHandler oracle d (.placeOrder owner request)).2.orders =
        (d.accept owner (request d.asked.length) (oracle.place (request d.asked.length))).orders := by
  simp only [deskHandler, handler]
  split
  · exact .inl rfl
  · exact .inr rfl

end Utos.Execution.Exchange
