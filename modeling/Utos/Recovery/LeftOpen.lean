import Utos.Recovery.SecondPass

namespace Utos.Recovery.LeftOpen

open Core Core.DomainTypes Core.Exceptions Reconciler SecondPass

variable {liveOrders : List OrderResult} {gridState : GridState} {lv : GridLevel} {orderId : OrderId}

def liveStatuses : List OrderStatus := [.pending, .opened, .partiallyFilled]

/-- The list reports the order as live. -/
def ReportedLive (liveOrders : List OrderResult) (orderId : OrderId) : Prop :=
  truthy orderId = true ∧ ∃ order ∈ liveOrders, order.exchangeOrderId = str orderId ∧
    order.status ∈ liveStatuses.map OrderStatus.value

/-- The level has an order, and one that the list reports as live or that is found missing. -/
def Accounted (gridState : GridState) (liveOrders : List OrderResult) (lv : GridLevel) : Prop :=
  (truthy lv.buyOrderId = true ∨ truthy lv.sellOrderId = true) ∧
    (ReportedLive liveOrders lv.buyOrderId ∨ ReportedLive liveOrders lv.sellOrderId ∨
      lv ∈ findMissingOrders gridState liveOrders)

/-- Every level that a reconciliation leaves OPEN is accounted for. -/
def Complete (gridState : GridState) (liveOrders : List OrderResult) : Prop :=
  ∀ lv ∈ (reconcileGrid gridState liveOrders).2.levels, lv.status = .opened →
    Accounted (reconcileGrid gridState liveOrders).2 liveOrders lv

/-- The exchange has refused the order or let it expire. -/
def Dead (liveOrders : List OrderResult) (orderId : OrderId) : Prop :=
  (Reported liveOrders orderId .rejected ∨ Reported liveOrders orderId .expired) ∧
    ¬ ReportedLive liveOrders orderId

/-- The level is OPEN, and each of its orders is missing from the level or reported as rejected
or expired, or is a sell reported as cancelled. -/
def Abandoned (liveOrders : List OrderResult) (lv : GridLevel) : Prop :=
  lv.status = .opened ∧ (truthy lv.buyOrderId = false ∨ Dead liveOrders lv.buyOrderId) ∧
    (truthy lv.sellOrderId = false ∨ Reported liveOrders lv.sellOrderId .cancelled ∨
      Dead liveOrders lv.sellOrderId)

/-- The order is reported as live, or not reported but as filled or cancelled. -/
def Kept (liveOrders : List OrderResult) (orderId : OrderId) : Prop :=
  ReportedLive liveOrders orderId ∨
    truthy orderId = true ∧ str orderId ∉ (liveOrders.filter isLive).map OrderResult.exchangeOrderId

theorem mem_of_liveOrderMap {id : String} {order : OrderResult} (h : liveOrderMap liveOrders id = some order) :
    order ∈ liveOrders ∧ order.exchangeOrderId = id :=
  ⟨List.mem_reverse.mp (List.mem_of_find?_eq_some h), by simpa using List.find?_some h⟩

theorem liveOrderMap_of_mem {order : OrderResult} (h : order ∈ liveOrders) :
    ∃ last, liveOrderMap liveOrders order.exchangeOrderId = some last :=
  Option.isSome_iff_exists.mp (List.find?_isSome.mpr ⟨order, List.mem_reverse.mpr h, by simp⟩)

theorem not_reported_of_dead {status : OrderStatus} (hne : status ≠ .rejected ∧ status ≠ .expired)
    (h : truthy orderId = false ∨ Dead liveOrders orderId) : ¬ Reported liveOrders orderId status := by
  intro hr
  rcases h with hnone | ⟨hrejected | hexpired, -⟩
  · rw [hr.1] at hnone
    cases hnone
  · exact hne.1 (reported_unique hr hrejected)
  · exact hne.2 (reported_unique hr hexpired)

/-- Of the orders that are neither filled nor cancelled the dead ones are lost. -/
theorem kept_iff (hstatus : ∀ order ∈ liveOrders, ∃ status : OrderStatus, order.status = status.value)
    (hfilled : ¬ Reported liveOrders orderId .filled) (hcancelled : ¬ Reported liveOrders orderId .cancelled) :
    Kept liveOrders orderId ↔ truthy orderId = true ∧ ¬ Dead liveOrders orderId := by
  constructor
  · rintro (hlive | ⟨htruthy, hunknown⟩)
    · exact ⟨hlive.1, fun hdead => hdead.2 hlive⟩
    · refine ⟨htruthy, fun hdead => hunknown ?_⟩
      have hmem : ∀ status : OrderStatus, status ≠ .filled → status ≠ .cancelled →
          Reported liveOrders orderId status →
            str orderId ∈ (liveOrders.filter isLive).map OrderResult.exchangeOrderId := by
        rintro status hnf hnc ⟨-, order, hmap, hs⟩
        obtain ⟨hmem, hid⟩ := mem_of_liveOrderMap hmap
        refine List.mem_map.mpr ⟨order, List.mem_filter.mpr ⟨hmem, ?_⟩, hid⟩
        cases status <;> simp_all [isLive, OrderStatus.value]
      rcases hdead.1 with h | h
      · exact hmem _ (by simp) (by simp) h
      · exact hmem _ (by simp) (by simp) h
  · rintro ⟨htruthy, hdead⟩
    by_cases hknown : str orderId ∈ (liveOrders.filter isLive).map OrderResult.exchangeOrderId
    · refine .inl ?_
      obtain ⟨order, hmem, hid⟩ := List.mem_map.mp hknown
      obtain ⟨last, hlast⟩ := liveOrderMap_of_mem (List.mem_filter.mp hmem).1
      rw [hid] at hlast
      obtain ⟨hlastMem, hlastId⟩ := mem_of_liveOrderMap hlast
      obtain ⟨status, hs⟩ := hstatus last hlastMem
      have hreported : Reported liveOrders orderId status := ⟨htruthy, last, hlast, hs⟩
      have hlive : status ∈ liveStatuses → ReportedLive liveOrders orderId := fun h =>
        ⟨htruthy, last, hlastMem, hlastId, hs ▸ List.mem_map_of_mem h⟩
      cases status with
      | pending | opened | partiallyFilled => exact hlive (by simp [liveStatuses])
      | filled => exact absurd hreported hfilled
      | cancelled => exact absurd hreported hcancelled
      | rejected => exact not_not.mp (fun h => hdead ⟨.inl hreported, h⟩)
      | expired => exact not_not.mp (fun h => hdead ⟨.inr hreported, h⟩)
    · exact .inr ⟨htruthy, hknown⟩

/-- A level is OPEN after the pass only if it was before; its buy order is then
neither filled nor cancelled, and a cancelled sell order is gone. -/
theorem reconcileLevel_opened (liveOrders : List OrderResult) (lv : GridLevel) :
    ((reconcileLevel (liveOrderMap liveOrders) lv).1.status ≠ .opened ∧
        (lv.status ≠ .opened ∨ Reported liveOrders lv.buyOrderId .filled ∨
          Reported liveOrders lv.buyOrderId .cancelled ∨ Reported liveOrders lv.sellOrderId .filled)) ∨
      (lv.status = .opened ∧ ¬ Reported liveOrders lv.buyOrderId .filled ∧
        ¬ Reported liveOrders lv.buyOrderId .cancelled ∧
        (Reported liveOrders lv.sellOrderId .cancelled ∧
            (reconcileLevel (liveOrderMap liveOrders) lv).1 = withoutSell lv ∨
          ¬ Reported liveOrders lv.sellOrderId .filled ∧ ¬ Reported liveOrders lv.sellOrderId .cancelled ∧
            (reconcileLevel (liveOrderMap liveOrders) lv).1 = lv)) := by
  have hsell := reconcileSell_outcome liveOrders (reconcileBuy (liveOrderMap liveOrders) lv).1
  simp only [reconcileLevel]
  cases reconcileBuy_outcome liveOrders lv with
  | filled hbuy level _ =>
      rw [level] at hsell ⊢
      refine .inl ⟨?_, .inr (.inl hbuy)⟩
      cases hsell with
      | filled _ level _ => simp [level]
      | cancelled _ opened _ _ => cases opened
      | other _ _ same => simp [same]
  | cancelled hbuy _ level _ =>
      rw [level] at hsell ⊢
      refine .inl ⟨?_, .inr (.inr (.inl hbuy))⟩
      cases hsell with
      | filled _ level _ => simp [level]
      | cancelled _ opened _ _ => cases opened
      | other _ _ same =>
          rw [same]
          simp [withoutBuy]
  | other hbuy hplaced same =>
      rw [same] at hsell ⊢
      cases hsell with
      | filled hsold level _ => exact .inl ⟨by simp [level], .inr (.inr (.inr hsold))⟩
      | cancelled hsold opened level _ =>
          exact .inr ⟨opened, hbuy, fun h => hplaced ⟨h, opened⟩, .inl ⟨hsold, level⟩⟩
      | other hsold hkept same =>
          by_cases hopen : lv.status = .opened
          · exact .inr ⟨hopen, hbuy, fun h => hplaced ⟨h, hopen⟩,
              .inr ⟨hsold, fun h => hkept ⟨h, hopen⟩, by rw [same]⟩⟩
          · exact .inl ⟨by rw [same]; exact hopen, .inl hopen⟩

theorem accounted_iff (hmem : lv ∈ gridState.levels) (hopen : lv.status = .opened) :
    Accounted gridState liveOrders lv ↔ Kept liveOrders lv.buyOrderId ∨ Kept liveOrders lv.sellOrderId := by
  have hmissing : lv ∈ findMissingOrders gridState liveOrders ↔
      (truthy lv.buyOrderId = true ∧
          str lv.buyOrderId ∉ (liveOrders.filter isLive).map OrderResult.exchangeOrderId) ∨
        truthy lv.sellOrderId = true ∧
          str lv.sellOrderId ∉ (liveOrders.filter isLive).map OrderResult.exchangeOrderId := by
    rw [findMissingOrders, List.mem_filter]
    simp only [hmem, true_and, isMissing, hopen, decide_true, Bool.true_and, Bool.or_eq_true, Bool.and_eq_true,
      decide_eq_true_eq]
  rw [Accounted, hmissing]
  constructor
  · rintro ⟨-, hlive | hlive | hmissed | hmissed⟩
    · exact .inl (.inl hlive)
    · exact .inr (.inl hlive)
    · exact .inl (.inr hmissed)
    · exact .inr (.inr hmissed)
  · rintro ((hlive | hmissed) | hlive | hmissed)
    · exact ⟨.inl hlive.1, .inl hlive⟩
    · exact ⟨.inl hmissed.1, .inr (.inr (.inl hmissed))⟩
    · exact ⟨.inr hlive.1, .inr (.inl hlive)⟩
    · exact ⟨.inr hmissed.1, .inr (.inr (.inr hmissed))⟩

theorem lost_iff (hstatus : ∀ order ∈ liveOrders, ∃ status : OrderStatus, order.status = status.value)
    (hfilled : ¬ Reported liveOrders orderId .filled) (hcancelled : ¬ Reported liveOrders orderId .cancelled) :
    ¬ Kept liveOrders orderId ↔ truthy orderId = false ∨ Dead liveOrders orderId := by
  rw [kept_iff hstatus hfilled hcancelled, not_and_or, not_not, Bool.not_eq_true]

/-- What becomes of a level that stays OPEN. -/
theorem accounted_reconciled_iff
    (hstatus : ∀ order ∈ liveOrders, ∃ status : OrderStatus, order.status = status.value)
    (hmem : (reconcileLevel (liveOrderMap liveOrders) lv).1 ∈ gridState.levels) :
    ((reconcileLevel (liveOrderMap liveOrders) lv).1.status = .opened →
        Accounted gridState liveOrders (reconcileLevel (liveOrderMap liveOrders) lv).1) ↔
      ¬ Abandoned liveOrders lv := by
  rcases reconcileLevel_opened liveOrders lv with ⟨hleft, hcause⟩ | ⟨hopen, hfilled, hcancelled, hsell⟩
  · refine iff_of_true (fun h => absurd h hleft) ?_
    rintro ⟨hopen, hbuy, hsell⟩
    rcases hcause with h | h | h | h
    · exact h hopen
    · exact not_reported_of_dead (by simp) hbuy h
    · exact not_reported_of_dead (by simp) hbuy h
    · rcases hsell with hnone | hcancelled | hdead
      · exact not_reported_of_dead (by simp) (.inl hnone) h
      · exact absurd (reported_unique h hcancelled) (by simp)
      · exact not_reported_of_dead (by simp) (.inr hdead) h
  · have hbuy := lost_iff hstatus hfilled hcancelled
    rcases hsell with ⟨hsold, level⟩ | ⟨hsellFilled, hsellCancelled, level⟩
    · have hnone : ¬ Kept liveOrders (withoutSell lv).sellOrderId := by
        rintro (h | h) <;> simpa [withoutSell] using h.1
      rw [level] at hmem ⊢
      rw [accounted_iff hmem hopen, or_iff_left hnone, ← not_iff_not, not_not]
      constructor
      · exact fun h => ⟨hopen, hbuy.mp (fun hkept => h (fun _ => hkept)), .inr (.inl hsold)⟩
      · exact fun h hkept => hbuy.mpr h.2.1 (hkept hopen)
    · have hsold := lost_iff hstatus hsellFilled hsellCancelled
      rw [level] at hmem ⊢
      rw [accounted_iff hmem hopen, ← not_iff_not, not_not]
      constructor
      · intro h
        have hlost := not_or.mp (fun hkept => h (fun _ => hkept))
        exact ⟨hopen, hbuy.mp hlost.1, (hsold.mp hlost.2).imp_right .inr⟩
      · rintro ⟨-, hb, hs⟩ hkept
        rcases hkept hopen with hk | hk
        · exact hbuy.mpr hb hk
        · refine hsold.mpr ?_ hk
          rcases hs with hnone | hcancelled | hdead
          · exact .inl hnone
          · exact absurd hcancelled hsellCancelled
          · exact .inr hdead

/-- The reconciliation accounts for every open level in exactly those grids in which
no open level has lost its orders. -/
theorem complete_iff (gridState : GridState)
    (hstatus : ∀ order ∈ liveOrders, ∃ status : OrderStatus, order.status = status.value) :
    Complete gridState liveOrders ↔ ∀ lv ∈ gridState.levels, ¬ Abandoned liveOrders lv := by
  have hlevels := reconcileGrid_levels gridState liveOrders
  constructor
  · intro h lv hlv
    have hmem : (reconcileLevel (liveOrderMap liveOrders) lv).1 ∈ (reconcileGrid gridState liveOrders).2.levels :=
      hlevels ▸ List.mem_map_of_mem hlv
    exact (accounted_reconciled_iff hstatus hmem).mp (h _ hmem)
  · intro h lv' hlv'
    obtain ⟨lv, hlv, rfl⟩ := List.mem_map.mp (hlevels ▸ hlv')
    exact (accounted_reconciled_iff hstatus hlv').mpr (h lv hlv)

/-- A level with a buy order at the exchange. -/
def buyingLevel : GridLevel :=
  { level := 0, buyPrice := 100, sellPrice := 110, quantity := 1, buyOrderId := some "b", status := .opened }

def buyingGrid : GridState := { sellingGrid with levels := [buyingLevel] }

theorem complete_buyingGrid : Complete buyingGrid [order "b" .buy .partiallyFilled] := by
  refine (complete_iff buyingGrid ?_).mpr ?_
  · intro o ho
    exact ⟨.partiallyFilled, by rw [List.mem_singleton.mp ho]; rfl⟩
  · rintro lv hlv ⟨-, hbuy, -⟩
    rw [List.mem_singleton.mp hlv] at hbuy
    rcases hbuy with hnone | ⟨-, hlive⟩
    · revert hnone
      decide +kernel
    · exact hlive ⟨by decide +kernel, _, List.mem_singleton_self _, rfl, by decide +kernel⟩

/-- The exchange lets the buy order expire: the level stays OPEN, and is not found missing. -/
theorem buyingGrid_expired : ¬ Complete buyingGrid [order "b" .buy .expired] := by
  intro h
  obtain ⟨-, hlive | hlive | hmissing⟩ := h buyingLevel (by decide +kernel) rfl
  · obtain ⟨-, o, ho, -, hstatus⟩ := hlive
    rw [List.mem_singleton.mp ho] at hstatus
    revert hstatus
    decide +kernel
  · exact absurd hlive.1 (by decide +kernel)
  · revert hmissing
    decide +kernel

end Utos.Recovery.LeftOpen
