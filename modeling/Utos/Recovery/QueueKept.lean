import Utos.Recovery.Connection

namespace Utos.Recovery.QueueKept

open Core Core.Exceptions Coroutine Connection

variable {R : Type}

/-- The orders whose placement has returned, in the order of the calls. -/
def placed (s : Session) : List QueuedOrder := (s.sendings.filter Sending.placed).map Sending.order

/-- Every queued order has been placed once or is still queued, and nothing was
sent to an exchange that was marked disconnected. -/
structure Conserved (s : Session) : Prop where
  kept : (placed s ++ s.recovery.orderQueue).Perm s.queued
  connected : ∀ x ∈ s.sendings, x.connected = true

variable (fns : Functions R)

/-- The exchange of the order is not marked disconnected, and place_order_fn is given and returns. -/
def Deliverable (s : Session) (order : QueuedOrder) : Prop :=
  s.recovery.isExchangeConnected order.exchange = true ∧
    ∃ place result, fns.placeOrderFn = some place ∧ place s.sendings order = .ok result

def replayNext (s : Session) (order : QueuedOrder) : Session := (replayOrder fns order s).2

/-- Every queued order is deliverable when its turn in the replay comes. -/
def Replayable (s : Session) : Prop := AllMeet (replayNext fns) (Deliverable fns) s.cleared s.recovery.orderQueue

/-- The session after the reconnect has been recorded, before the replay. -/
def atReconnect (exchange accountId : String) (s : Session) : Session :=
  { s with recovery := reconnected fns exchange accountId s.recovery }

def Meets (s : Session) : Call → Prop
  | .replayQueuedOrders => Replayable fns s
  | .onExchangeReconnect exchange accountId => Replayable fns (atReconnect fns exchange accountId s)
  | _ => True

/-- Something is lost, or was sent to an exchange that was marked disconnected. -/
def Damaged (s : Session) : Prop :=
  (placed s).length + s.recovery.orderQueue.length < s.queued.length ∨ ∃ x ∈ s.sendings, x.connected = false

variable {fns} {s : Session} {order : QueuedOrder}

theorem Damaged.not_conserved (hd : Damaged s) : ¬ Conserved s := by
  intro hc
  rcases hd with hshort | ⟨x, hx, hdisconnected⟩
  · have hlength := hc.kept.length_eq
    rw [List.length_append] at hlength
    omega
  · rw [hc.connected x hx] at hdisconnected
    cases hdisconnected

theorem placed_sent (b : Bool) : placed (s.sent order b) = placed s ++ if b then [order] else [] := by
  cases b <;> simp [placed, Session.sent]

/-- One order of the replay leads to one call of place_order_fn, or to none when it is missing. -/
theorem replayNext_cases (fns : Functions R) (s : Session) (order : QueuedOrder) :
    (replayNext fns s order).queued = s.queued ∧
    (replayNext fns s order).recovery.orderQueue = s.recovery.orderQueue ∧
    ((replayNext fns s order).sendings = s.sendings ∧ ¬ Deliverable fns s order ∨
      ∃ b, (replayNext fns s order).sendings = (s.sent order b).sendings ∧
        (Deliverable fns s order ↔ s.recovery.isExchangeConnected order.exchange = true ∧ b = true)) := by
  cases hplace : fns.placeOrderFn with
  | none =>
      have hnext : replayNext fns s order = s := by simp only [replayNext, replayOrder, hplace]
      rw [hnext]
      exact ⟨rfl, rfl, .inl ⟨rfl, fun ⟨_, place, _, hsome, _⟩ => by rw [hplace] at hsome; cases hsome⟩⟩
  | some place =>
      cases hresult : place s.sendings order with
      | ok result =>
          have hnext : replayNext fns s order = (s.sent order true).count
              (fun m => { m with ordersReplayed := m.ordersReplayed + 1 }) := by
            simp only [replayNext, replayOrder, hplace, hresult]
          rw [hnext]
          exact ⟨rfl, rfl, .inr ⟨true, rfl, fun h => ⟨h.1, rfl⟩, fun h => ⟨h.1, place, result, hplace, hresult⟩⟩⟩
      | error exc =>
          have hnext : replayNext fns s order = (s.sent order false).count
              (fun m => { m with ordersReplayedFailed := m.ordersReplayedFailed + 1 }) := by
            simp only [replayNext, replayOrder, hplace, hresult]
          rw [hnext]
          refine ⟨rfl, rfl, .inr ⟨false, rfl, fun ⟨_, place', result, hsome, hok⟩ => ?_, fun h => by cases h.2⟩⟩
          rw [hplace] at hsome
          cases hsome
          rw [hresult] at hok
          cases hok

theorem placed_congr {s s' : Session} (h : s.sendings = s'.sendings) : placed s = placed s' := by rw [placed, placed, h]

theorem replayNext_deliverable (h : Deliverable fns s order) (hs : ∀ x ∈ s.sendings, x.connected = true) :
    placed (replayNext fns s order) = placed s ++ [order] ∧
      ∀ x ∈ (replayNext fns s order).sendings, x.connected = true := by
  obtain ⟨-, -, ⟨-, hnot⟩ | ⟨b, hsendings, hiff⟩⟩ := replayNext_cases fns s order
  · exact absurd h hnot
  · obtain ⟨hconnected, rfl⟩ := hiff.mp h
    refine ⟨(placed_congr hsendings).trans (placed_sent true), ?_⟩
    rw [hsendings]
    intro x hx
    rcases List.mem_append.mp hx with hold | hnew
    · exact hs x hold
    · cases List.mem_singleton.mp hnew
      exact hconnected

/-- At most the order itself is placed; if it is not deliverable, it is lost or
sent to an exchange that is marked disconnected. -/
theorem replayNext_bounds (fns : Functions R) (s : Session) (order : QueuedOrder) :
    s.sendings ⊆ (replayNext fns s order).sendings ∧
    (placed (replayNext fns s order)).length ≤ (placed s).length + 1 ∧
    (¬ Deliverable fns s order → (placed (replayNext fns s order)).length = (placed s).length ∨
      ∃ x ∈ (replayNext fns s order).sendings, x.connected = false) := by
  obtain ⟨-, -, ⟨hsendings, -⟩ | ⟨b, hsendings, hiff⟩⟩ := replayNext_cases fns s order
  · rw [placed_congr hsendings, hsendings]
    exact ⟨List.Subset.refl _, Nat.le_succ _, fun _ => .inl rfl⟩
  · rw [placed_congr hsendings, hsendings, placed_sent]
    refine ⟨List.subset_append_left _ _, by cases b <;> simp, fun hnot => ?_⟩
    cases b with
    | false => exact .inl (by simp)
    | true =>
        refine .inr ⟨⟨order, s.recovery.isExchangeConnected order.exchange, true⟩, by simp [Session.sent], ?_⟩
        rw [hiff] at hnot
        simpa using hnot

theorem replayAll_snd (orders : List QueuedOrder) (s : Session) :
    (replayAll fns orders s).2 = orders.foldl (replayNext fns) s := by
  induction orders generalizing s with
  | nil => rfl
  | cons order orders ih => exact ih _

theorem replayQueuedOrders_snd (s : Session) :
    (replayQueuedOrders fns s).2 = s.recovery.orderQueue.foldl (replayNext fns) s.cleared := by
  unfold replayQueuedOrders
  split
  next hempty =>
    obtain ⟨⟨_, _, queue, _, _⟩, _, _⟩ := s
    cases List.isEmpty_iff.mp hempty
    rfl
  next => exact replayAll_snd _ _

theorem foldl_frame (fns : Functions R) (orders : List QueuedOrder) (s : Session) :
    (orders.foldl (replayNext fns) s).queued = s.queued ∧
    (orders.foldl (replayNext fns) s).recovery.orderQueue = s.recovery.orderQueue ∧
    s.sendings ⊆ (orders.foldl (replayNext fns) s).sendings ∧
    (placed (orders.foldl (replayNext fns) s)).length ≤ (placed s).length + orders.length := by
  induction orders generalizing s with
  | nil => exact ⟨rfl, rfl, List.Subset.refl _, Nat.le_refl _⟩
  | cons order orders ih =>
      obtain ⟨hqueued, hqueue, -⟩ := replayNext_cases fns s order
      obtain ⟨hsub, hle, -⟩ := replayNext_bounds fns s order
      obtain ⟨hqueued', hqueue', hsub', hle'⟩ := ih (replayNext fns s order)
      refine ⟨hqueued'.trans hqueued, hqueue'.trans hqueue, List.Subset.trans hsub hsub', ?_⟩
      rw [List.length_cons]
      exact hle'.trans (by omega)

theorem foldl_deliverable {orders : List QueuedOrder} (h : AllMeet (replayNext fns) (Deliverable fns) s orders)
    (hs : ∀ x ∈ s.sendings, x.connected = true) :
    placed (orders.foldl (replayNext fns) s) = placed s ++ orders ∧
      ∀ x ∈ (orders.foldl (replayNext fns) s).sendings, x.connected = true := by
  induction orders generalizing s with
  | nil => exact ⟨(List.append_nil _).symm, hs⟩
  | cons order orders ih =>
      obtain ⟨hplaced, hconnected⟩ := replayNext_deliverable h.1 hs
      obtain ⟨hplaced', hconnected'⟩ := ih h.2 hconnected
      refine ⟨?_, hconnected'⟩
      rw [List.foldl_cons, hplaced', hplaced, List.append_assoc, List.singleton_append]

theorem foldl_undeliverable {orders : List QueuedOrder} (h : ¬ AllMeet (replayNext fns) (Deliverable fns) s orders) :
    (placed (orders.foldl (replayNext fns) s)).length < (placed s).length + orders.length ∨
      ∃ x ∈ (orders.foldl (replayNext fns) s).sendings, x.connected = false := by
  induction orders generalizing s with
  | nil => exact absurd trivial h
  | cons order orders ih =>
      obtain ⟨-, hle, hlost⟩ := replayNext_bounds fns s order
      obtain ⟨-, -, hsub, hrest⟩ := foldl_frame fns orders (replayNext fns s order)
      rw [List.foldl_cons, List.length_cons]
      by_cases hd : Deliverable fns s order
      · rcases ih (fun hall => h ⟨hd, hall⟩) with hshort | hdisconnected
        · exact .inl (hshort.trans_le (by omega))
        · exact .inr hdisconnected
      · rcases hlost hd with hsame | ⟨x, hx, hdisconnected⟩
        · exact .inl (by omega)
        · exact .inr ⟨x, hsub hx, hdisconnected⟩

theorem Conserved.replay (hc : Conserved s) (h : Replayable fns s) : Conserved (replayQueuedOrders fns s).2 := by
  rw [replayQueuedOrders_snd]
  obtain ⟨hqueued, hqueue, -⟩ := foldl_frame fns s.recovery.orderQueue s.cleared
  obtain ⟨hplaced, hconnected⟩ := foldl_deliverable h hc.connected
  refine ⟨?_, hconnected⟩
  rw [hplaced, hqueue, hqueued]
  exact (List.Perm.of_eq (List.append_nil _)).trans hc.kept

theorem damaged_of_not_replayable (hc : Conserved s) (h : ¬ Replayable fns s) :
    Damaged (replayQueuedOrders fns s).2 := by
  rw [replayQueuedOrders_snd]
  obtain ⟨hqueued, hqueue, -⟩ := foldl_frame fns s.recovery.orderQueue s.cleared
  rcases foldl_undeliverable h with hshort | hdisconnected
  · refine .inl ?_
    have hlength := hc.kept.length_eq
    rw [List.length_append] at hlength
    rw [hqueue, hqueued]
    simp only [Session.cleared, List.length_nil, Nat.add_zero, ← hlength]
    exact hshort
  · exact .inr hdisconnected

theorem Damaged.replay (hd : Damaged s) : Damaged (replayQueuedOrders fns s).2 := by
  rw [replayQueuedOrders_snd]
  obtain ⟨hqueued, hqueue, hsub, hle⟩ := foldl_frame fns s.recovery.orderQueue s.cleared
  rcases hd with hshort | ⟨x, hx, hdisconnected⟩
  · refine .inl ?_
    rw [hqueue, hqueued]
    exact Nat.lt_of_le_of_lt hle hshort
  · exact .inr ⟨x, hsub hx, hdisconnected⟩

theorem orderQueue_reconnected (exchange accountId : String) (s : ConnectionRecovery) :
    (reconnected fns exchange accountId s).orderQueue = s.orderQueue := by
  simp only [reconnected, resubscribeAll]
  split
  · rfl
  split
  · split <;> rfl
  · rfl

theorem Conserved.atReconnect (hc : Conserved s) (exchange accountId : String) :
    Conserved (atReconnect fns exchange accountId s) := by
  refine ⟨?_, hc.connected⟩
  rw [QueueKept.atReconnect, orderQueue_reconnected]
  exact hc.kept

theorem Damaged.atReconnect (hd : Damaged s) (exchange accountId : String) :
    Damaged (atReconnect fns exchange accountId s) := by
  refine hd.imp (fun hshort => ?_) id
  rw [QueueKept.atReconnect, orderQueue_reconnected]
  exact hshort

theorem Conserved.step {c : Call} (hc : Conserved s) (hmeets : Meets fns s c) : Conserved (step fns s c) := by
  cases c with
  | registerSubscriptions | onExchangeDisconnect => exact ⟨hc.kept, hc.connected⟩
  | queueOrder order =>
      refine ⟨?_, hc.connected⟩
      simp only [Connection.step, queueOrder, ← List.append_assoc]
      exact hc.kept.append_right [order]
  | onExchangeReconnect exchange accountId => exact (hc.atReconnect exchange accountId).replay hmeets
  | replayQueuedOrders => exact hc.replay hmeets

theorem damaged_of_not_meets {c : Call} (hc : Conserved s) (hmeets : ¬ Meets fns s c) : Damaged (step fns s c) := by
  cases c with
  | registerSubscriptions | onExchangeDisconnect | queueOrder => exact absurd trivial hmeets
  | onExchangeReconnect exchange accountId =>
      exact damaged_of_not_replayable (hc.atReconnect exchange accountId) hmeets
  | replayQueuedOrders => exact damaged_of_not_replayable hc hmeets

theorem Damaged.step {c : Call} (hd : Damaged s) : Damaged (step fns s c) := by
  cases c with
  | registerSubscriptions | onExchangeDisconnect => exact hd
  | queueOrder order =>
      refine hd.imp (fun hshort => ?_) id
      simp only [Connection.step, queueOrder, List.length_append, List.length_singleton]
      exact (Nat.add_lt_add_right hshort 1)
  | onExchangeReconnect exchange accountId => exact (hd.atReconnect exchange accountId).replay
  | replayQueuedOrders => exact hd.replay

/-- A run conserves its orders exactly when every queued order is deliverable in
every replay, that of a reconnect of another exchange included. -/
theorem conserved_iff (fns : Functions R) (calls : List Call) :
    Conserved (run fns calls) ↔ AllMeet (step fns) (Meets fns) {} calls :=
  foldl_iff_allMeet (I := Conserved) (D := Damaged) (fun _ _ hc hmeets => hc.step hmeets)
    (fun _ _ hc hmeets => damaged_of_not_meets hc hmeets)
    (fun _ _ hd => hd.step) (fun _ hd => hd.not_conserved) ⟨.refl _, List.forall_mem_nil _⟩

def okxOrder : QueuedOrder :=
  { instanceId := "inst-2", accountId := "acc-2", exchange := "okx", symbol := "BTCUSDT", side := "buy"
    quantity := 1, price := 100 }

/-- A place_order_fn that reaches every exchange but okx. -/
def okxDown : Functions String :=
  { placeOrderFn := some (fun _ order =>
      if order.exchange = "okx" then .error (.other "RuntimeError" "Exchange still down") else .ok "order-1") }

/-- Both exchanges go down, an order for okx is queued, binance comes back and then okx. -/
def twoOutages : List Call :=
  [.onExchangeDisconnect "binance" "acc-1", .onExchangeDisconnect "okx" "acc-2", .queueOrder okxOrder,
   .onExchangeReconnect "binance" "acc-1", .onExchangeReconnect "okx" "acc-2"]

theorem queued_order_lost : ¬ ∀ (fns : Functions String) (calls : List Call), Conserved (run fns calls) := by
  intro h
  have hsendings : (run okxDown twoOutages).sendings = [⟨okxOrder, false, false⟩] := rfl
  have hmem : ⟨okxOrder, false, false⟩ ∈ (run okxDown twoOutages).sendings := by
    rw [hsendings]
    exact List.mem_singleton_self _
  have hconnected := (h okxDown twoOutages).connected _ hmem
  cases hconnected

end Utos.Recovery.QueueKept
