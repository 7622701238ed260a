import Utos.Recovery.Reconciler

namespace Utos.Recovery.SecondPass

open Core Core.DomainTypes Core.Exceptions Reconciler

variable {liveOrders : List OrderResult} {gridState : GridState} {lv : GridLevel}

/-- The list names the order with the status, in its last entry under the id. -/
def Reported (liveOrders : List OrderResult) (orderId : OrderId) (status : OrderStatus) : Prop :=
  truthy orderId = true ∧
    ∃ order, liveOrderMap liveOrders (str orderId) = some order ∧ order.status = status.value

def BothFilled (liveOrders : List OrderResult) (lv : GridLevel) : Prop :=
  Reported liveOrders lv.buyOrderId .filled ∧ Reported liveOrders lv.sellOrderId .filled

/-- A second pass over the same orders finds nothing to do. -/
def Settles (gridState : GridState) (liveOrders : List OrderResult) : Prop :=
  (reconcileGrid (reconcileGrid gridState liveOrders).2 liveOrders).2.levels =
      (reconcileGrid gridState liveOrders).2.levels ∧
    (reconcileGrid (reconcileGrid gridState liveOrders).2 liveOrders).1.action = "skipped"

theorem not_reported_none (status : OrderStatus) : ¬ Reported liveOrders none status := fun h => by
  simpa using h.1

theorem reported_unique {orderId : OrderId} {status status' : OrderStatus}
    (h : Reported liveOrders orderId status) (h' : Reported liveOrders orderId status') : status = status' := by
  obtain ⟨-, order, hmap, hstatus⟩ := h
  obtain ⟨-, order', hmap', hstatus'⟩ := h'
  cases hmap.symm.trans hmap'
  have hvalue := hstatus.symm.trans hstatus'
  cases status <;> cases status' <;> first | rfl | (simp [OrderStatus.value] at hvalue)

/-- An order of a level is not in the list, or its status decides what is reported. -/
theorem lookup_cases (liveOrders : List OrderResult) (orderId : OrderId) :
    ((if truthy orderId then liveOrderMap liveOrders (str orderId) else none) = none ∧
        ∀ status, ¬ Reported liveOrders orderId status) ∨
      ∃ order, (if truthy orderId then liveOrderMap liveOrders (str orderId) else none) = some order ∧
        ∀ status : OrderStatus, Reported liveOrders orderId status ↔ order.status = status.value := by
  cases htruthy : truthy orderId with
  | false => exact .inl ⟨rfl, fun status h => by rw [h.1] at htruthy; cases htruthy⟩
  | true =>
      rw [if_pos rfl]
      cases hmap : liveOrderMap liveOrders (str orderId) with
      | none =>
          refine .inl ⟨rfl, ?_⟩
          rintro status ⟨-, order, horder, -⟩
          cases hmap.symm.trans horder
      | some order =>
          refine .inr ⟨order, rfl, fun status => ⟨?_, fun hstatus => ⟨htruthy, order, hmap, hstatus⟩⟩⟩
          rintro ⟨-, order', horder, hstatus⟩
          cases hmap.symm.trans horder
          exact hstatus

/-- What reconcile_grid does with one order of a level: the status that its fill
leads to, the level without the order, and the two details. -/
def reconcileOrder (found : Option OrderResult) (target : GridLevelStatus) (dropped : GridLevel)
    (filled cancelled : String) (lv : GridLevel) : GridLevel × List String :=
  match found with
  | none => (lv, [])
  | some order =>
      if order.status = OrderStatus.filled.value then
        if lv.status ≠ target then ({ lv with status := target }, [filled]) else (lv, [])
      else if order.status = OrderStatus.cancelled.value ∧ lv.status = .opened then (dropped, [cancelled])
      else (lv, [])

def withoutBuy (lv : GridLevel) : GridLevel := { lv with status := .waiting, buyOrderId := none }

/-- The level keeps its status, OPEN. -/
def withoutSell (lv : GridLevel) : GridLevel := { lv with sellOrderId := none }

theorem reconcileBuy_eq (liveOrders : List OrderResult) (lv : GridLevel) :
    reconcileBuy (liveOrderMap liveOrders) lv =
      reconcileOrder (if truthy lv.buyOrderId then liveOrderMap liveOrders (str lv.buyOrderId) else none) .filled
        (withoutBuy lv) s!"Level {lv.level} buy order filled on exchange"
        s!"Level {lv.level} buy order cancelled on exchange" lv := rfl

theorem reconcileSell_eq (liveOrders : List OrderResult) (lv : GridLevel) :
    reconcileSell (liveOrderMap liveOrders) lv =
      reconcileOrder (if truthy lv.sellOrderId then liveOrderMap liveOrders (str lv.sellOrderId) else none) .tpHit
        (withoutSell lv) s!"Level {lv.level} sell order filled on exchange"
        s!"Level {lv.level} sell order cancelled on exchange" lv := rfl

/-- The order is reported filled or cancelled, to some effect, or it leaves the level as it is. -/
inductive Outcome (liveOrders : List OrderResult) (orderId : OrderId) (target : GridLevelStatus)
    (dropped lv : GridLevel) (r : GridLevel × List String) : Prop
  | filled (reported : Reported liveOrders orderId .filled) (level : r.1 = { lv with status := target })
      (details : r.2 = [] ↔ lv.status = target)
  | cancelled (reported : Reported liveOrders orderId .cancelled) (opened : lv.status = .opened)
      (level : r.1 = dropped) (details : r.2 ≠ [])
  | other (notFilled : ¬ Reported liveOrders orderId .filled)
      (notCancelled : ¬ (Reported liveOrders orderId .cancelled ∧ lv.status = .opened)) (same : r = (lv, []))

theorem reconcileOrder_outcome (liveOrders : List OrderResult) (orderId : OrderId) (target : GridLevelStatus)
    (dropped : GridLevel) (filled cancelled : String) (lv : GridLevel) :
    Outcome liveOrders orderId target dropped lv
      (reconcileOrder (if truthy orderId then liveOrderMap liveOrders (str orderId) else none) target dropped
        filled cancelled lv) := by
  rcases lookup_cases liveOrders orderId with ⟨hnone, hreported⟩ | ⟨order, hsome, hreported⟩
  · rw [hnone]
    exact .other (hreported _) (fun h => hreported _ h.1) rfl
  · rw [hsome, reconcileOrder]
    by_cases hfilled : order.status = OrderStatus.filled.value
    · rw [if_pos hfilled]
      by_cases hstatus : lv.status = target
      · rw [if_neg (not_not.mpr hstatus)]
        exact .filled ((hreported _).mpr hfilled) (by rw [← hstatus]) (by simp [hstatus])
      · rw [if_pos hstatus]
        exact .filled ((hreported _).mpr hfilled) rfl (by simp [hstatus])
    · rw [if_neg hfilled]
      by_cases hcancelled : order.status = OrderStatus.cancelled.value ∧ lv.status = .opened
      · rw [if_pos hcancelled]
        exact .cancelled ((hreported _).mpr hcancelled.1) hcancelled.2 rfl (by simp)
      · rw [if_neg hcancelled]
        exact .other (fun h => hfilled ((hreported _).mp h))
          (fun h => hcancelled ⟨(hreported _).mp h.1, h.2⟩) rfl

theorem reconcileBuy_outcome (liveOrders : List OrderResult) (lv : GridLevel) :
    Outcome liveOrders lv.buyOrderId .filled (withoutBuy lv) lv (reconcileBuy (liveOrderMap liveOrders) lv) := by
  rw [reconcileBuy_eq]
  exact reconcileOrder_outcome ..

theorem reconcileSell_outcome (liveOrders : List OrderResult) (lv : GridLevel) :
    Outcome liveOrders lv.sellOrderId .tpHit (withoutSell lv) lv (reconcileSell (liveOrderMap liveOrders) lv) := by
  rw [reconcileSell_eq]
  exact reconcileOrder_outcome ..

/-- The order gives no cause to change a level of this status. -/
def Idle (liveOrders : List OrderResult) (orderId : OrderId) (target status : GridLevelStatus) : Prop :=
  (Reported liveOrders orderId .filled → status = target) ∧
    ¬ (Reported liveOrders orderId .cancelled ∧ status = .opened)

theorem idle_none (target status : GridLevelStatus) : Idle liveOrders none target status :=
  ⟨fun h => absurd h (not_reported_none _), fun h => not_reported_none _ h.1⟩

theorem idle_filled {orderId : OrderId} {target : GridLevelStatus} (h : Reported liveOrders orderId .filled) :
    Idle liveOrders orderId target target :=
  ⟨fun _ => rfl, fun hc => absurd (reported_unique h hc.1) (by simp)⟩

theorem Outcome.idle_iff {orderId : OrderId} {target : GridLevelStatus} {dropped : GridLevel}
    {r : GridLevel × List String} (h : Outcome liveOrders orderId target dropped lv r) :
    r.2 = [] ↔ Idle liveOrders orderId target lv.status := by
  cases h with
  | filled reported level details =>
      rw [details]
      exact ⟨fun hs => hs ▸ idle_filled reported, fun hidle => hidle.1 reported⟩
  | cancelled reported opened level details => exact iff_of_false details (fun hidle => hidle.2 ⟨reported, opened⟩)
  | other notFilled notCancelled same =>
      exact iff_of_true (by rw [same]) ⟨fun hf => absurd hf notFilled, notCancelled⟩

theorem Outcome.same_of_idle {orderId : OrderId} {target : GridLevelStatus} {dropped : GridLevel}
    {r : GridLevel × List String} (h : Outcome liveOrders orderId target dropped lv r)
    (hidle : Idle liveOrders orderId target lv.status) : r.1 = lv := by
  cases h with
  | filled reported level details => rw [level, ← hidle.1 reported]
  | cancelled reported opened level details => exact absurd ⟨reported, opened⟩ hidle.2
  | other notFilled notCancelled same => rw [same]

/-- There is nothing to do for the level. -/
def Quiet (liveOrders : List OrderResult) (lv : GridLevel) : Prop :=
  Idle liveOrders lv.buyOrderId .filled lv.status ∧ Idle liveOrders lv.sellOrderId .tpHit lv.status

theorem reconcileLevel_quiet (h : Quiet liveOrders lv) : (reconcileLevel (liveOrderMap liveOrders) lv).1 = lv := by
  have hbuy := (reconcileBuy_outcome liveOrders lv).same_of_idle h.1
  simp only [reconcileLevel, hbuy]
  exact (reconcileSell_outcome liveOrders lv).same_of_idle h.2

theorem reconcileLevel_details_iff (liveOrders : List OrderResult) (lv : GridLevel) :
    (reconcileLevel (liveOrderMap liveOrders) lv).2 = [] ↔ Quiet liveOrders lv := by
  have hbuy := reconcileBuy_outcome liveOrders lv
  simp only [reconcileLevel, List.append_eq_nil_iff]
  rw [hbuy.idle_iff]
  refine and_congr_right (fun hidle => ?_)
  rw [hbuy.same_of_idle hidle]
  exact (reconcileSell_outcome liveOrders lv).idle_iff

theorem idle_of_not {orderId : OrderId} {target status : GridLevelStatus}
    (hfilled : ¬ Reported liveOrders orderId .filled)
    (hcancelled : ¬ (Reported liveOrders orderId .cancelled ∧ status = .opened)) :
    Idle liveOrders orderId target status := ⟨fun h => absurd h hfilled, hcancelled⟩

/-- A level whose two orders have filled becomes TP_HIT, and is then again not FILLED. -/
theorem quiet_reconciled_iff (liveOrders : List OrderResult) (lv : GridLevel) :
    Quiet liveOrders (reconcileLevel (liveOrderMap liveOrders) lv).1 ↔ ¬ BothFilled liveOrders lv := by
  have hsell := reconcileSell_outcome liveOrders (reconcileBuy (liveOrderMap liveOrders) lv).1
  simp only [reconcileLevel]
  cases reconcileBuy_outcome liveOrders lv with
  | filled hbuy level _ =>
      rw [level] at hsell ⊢
      cases hsell with
      | filled hsold level _ =>
          rw [level]
          exact iff_of_false (fun h => by cases h.1.1 hbuy) (fun h => h ⟨hbuy, hsold⟩)
      | cancelled _ opened _ _ => cases opened
      | other hsold hkept same =>
          rw [same]
          exact iff_of_true ⟨idle_filled hbuy, idle_of_not hsold hkept⟩ (fun h => hsold h.2)
  | cancelled hbuy _ level _ =>
      have hone : ¬ BothFilled liveOrders lv := fun h => absurd (reported_unique hbuy h.1) (by simp)
      rw [level] at hsell ⊢
      refine iff_of_true ?_ hone
      cases hsell with
      | filled hsold level _ =>
          rw [level]
          exact ⟨idle_none _ _, idle_filled hsold⟩
      | cancelled _ opened _ _ => cases opened
      | other hsold hkept same =>
          rw [same]
          exact ⟨idle_none _ _, idle_of_not hsold hkept⟩
  | other hbuy hplaced same =>
      rw [same] at hsell ⊢
      refine iff_of_true ?_ (fun h => hbuy h.1)
      cases hsell with
      | filled hsold level _ =>
          rw [level]
          exact ⟨idle_of_not hbuy (fun h => by cases h.2), idle_filled hsold⟩
      | cancelled _ _ level _ =>
          rw [level]
          exact ⟨idle_of_not hbuy hplaced, idle_none _ _⟩
      | other hsold hkept same =>
          rw [same]
          exact ⟨idle_of_not hbuy hplaced, idle_of_not hsold hkept⟩

theorem reconcileGrid_levels (gridState : GridState) (liveOrders : List OrderResult) :
    (reconcileGrid gridState liveOrders).2.levels =
      gridState.levels.map (fun lv => (reconcileLevel (liveOrderMap liveOrders) lv).1) := by
  simp only [reconcileGrid, List.map_map]
  rfl

theorem reconcileGrid_skipped_iff (gridState : GridState) (liveOrders : List OrderResult) :
    (reconcileGrid gridState liveOrders).1.action = "skipped" ↔ ∀ lv ∈ gridState.levels, Quiet liveOrders lv := by
  have hiff : (reconcileGrid gridState liveOrders).1.action = "skipped" ↔
      (gridState.levels.map (reconcileLevel (liveOrderMap liveOrders))).flatMap Prod.snd = [] := by
    simp only [reconcileGrid]
    split
    next h => exact iff_of_true rfl h
    next h => exact iff_of_false (by decide) h
  rw [hiff, List.flatMap_eq_nil_iff, List.forall_mem_map]
  exact forall₂_congr (fun lv _ => reconcileLevel_details_iff liveOrders lv)

/-- Reconciling twice is reconciling once for exactly those grids that have no level
whose buy order and sell order are both reported as filled. -/
theorem settles_iff (gridState : GridState) (liveOrders : List OrderResult) :
    Settles gridState liveOrders ↔ ∀ lv ∈ gridState.levels, ¬ BothFilled liveOrders lv := by
  have hquiet : (∀ lv ∈ (reconcileGrid gridState liveOrders).2.levels, Quiet liveOrders lv) ↔
      ∀ lv ∈ gridState.levels, ¬ BothFilled liveOrders lv := by
    rw [reconcileGrid_levels, List.forall_mem_map]
    exact forall₂_congr (fun lv _ => quiet_reconciled_iff liveOrders lv)
  rw [Settles, reconcileGrid_skipped_iff, hquiet]
  refine and_iff_right_of_imp (fun h => ?_)
  rw [reconcileGrid_levels]
  have hsame := List.map_congr_left (fun lv hlv => reconcileLevel_quiet (hquiet.mpr h lv hlv))
  exact hsame.trans (List.map_id' _)

def order (exchangeOrderId : String) (side : OrderSide) (status : OrderStatus) : OrderResult :=
  { orderId := some exchangeOrderId, exchangeOrderId := exchangeOrderId, symbol := "BTCUSDT", side := side.value
    orderType := "limit", quantity := 1, price := some 100, filledQuantity := 0, averageFillPrice := none
    status := status.value }

/-- A level that has been bought and is to be sold. -/
def sellingLevel : GridLevel :=
  { level := 0, buyPrice := 100, sellPrice := 110, quantity := 1, buyOrderId := some "b", sellOrderId := some "s"
    status := .opened }

def sellingGrid : GridState :=
  { instanceId := "inst-1", status := .active, upperPrice := 110, lowerPrice := 100, gridCount := 1
    gridSpacing := 10, investmentPerGrid := 100, levels := [sellingLevel] }

/-- Both orders have filled. The second pass changes nothing, and reports two actions. -/
theorem sellingGrid_not_settles :
    ¬ Settles sellingGrid [order "b" .buy .filled, order "s" .sell .filled] := by
  rintro ⟨-, h⟩
  revert h
  decide +kernel

end Utos.Recovery.SecondPass
