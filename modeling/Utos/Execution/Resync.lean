import Utos.Execution.Cancellation

namespace Utos.Execution.Resync

open Coroutine Program Core.DomainTypes Core.Exceptions Models OrderState Tracker Executor Engine Placement
open Cancellation

variable {W : Type} {h : Handler W AdapterReq AdapterAns} {acct : Option UUID} {orderId : OrderId} {ref : Nat}
  {adapter : Adapter} {result : OrderResult} {s : ExecutionEngine} {w : W}

/-- However often it is asked, the exchange reports the same of the order. -/
def Reports (h : Handler W AdapterReq AdapterAns) (ref : Nat) (result : OrderResult) : Prop :=
  ∀ w adapter symbol exchangeOrderId, (h w (.getOrder adapter ref symbol exchangeOrderId)).1 = .ok result

/-- The trackers hold the same orders under the same keys. -/
structure Same (t t' : OrderTracker) : Prop where
  objects : t'.objects = t.objects
  size : t'.size = t.size
  orders : t'.orders = t.orders
  requestIndex : t'.requestIndex = t.requestIndex

/-- Two calls of sync_order return the same, and the second leaves the tracker as it is. -/
def Idempotent (h : Handler W AdapterReq AdapterAns) (acct : Option UUID) (orderId : OrderId) (s : ExecutionEngine)
    (w : W) : Prop :=
  let first := run h (syncOrder acct orderId) s w
  let second := run h (syncOrder acct orderId) first.2.1 first.2.2
  (∃ result, first.1 = .ok result ∧ second.1 = .ok result) ∧ Same first.2.1.tracker second.2.1.tracker

theorem wp_syncOrder {R : Except Exn OrderResult → ExecutionEngine → W → Prop} (hreport : Reports h ref result)
    (hget : s.tracker.get acct orderId = some ref) (hadapter : adapterFor s acct = .ok adapter) :
    wp h (syncOrder acct orderId) R s w ↔ wp h (adopt acct orderId ref result) R s
      (h w (statusReq adapter ref (s.tracker.objects ref).result)).2 := by
  simp only [syncOrder, bind_eq, wp_bind, wp_read, andThen_ok, hget, wp_getAdapter, hadapter]
  rw [wp_refresh, hreport, Except.mapError, andThen_ok]

theorem run_syncOrder_ok (hreport : Reports h ref result) (hget : s.tracker.get acct orderId = some ref)
    (hadapter : adapterFor s acct = .ok adapter)
    (hmove : mapExchangeStatus result.status ∈ transitions (s.tracker.objects ref).status) (w : W) :
    (run h (syncOrder acct orderId) s w).1 = .ok result ∧
      (run h (syncOrder acct orderId) s w).2.1 = { s with tracker := adopted s.tracker ref result } := by
  have hwp : wp h (syncOrder acct orderId) (fun r s' _ => r = .ok result ∧
      s' = { s with tracker := adopted s.tracker ref result }) s w := by
    rw [wp_syncOrder hreport hget hadapter]
    exact wp_adopt hget (fun _ => ⟨rfl, rfl⟩) (fun hstays => absurd hmove hstays)
  exact hwp

/-- Without an adapter, or where the table lacks the transition, sync_order raises. -/
theorem run_syncOrder_raises (hreport : Reports h ref result) (hget : s.tracker.get acct orderId = some ref)
    (hnot : ¬ ((∃ adapter, adapterFor s acct = .ok adapter) ∧
      mapExchangeStatus result.status ∈ transitions (s.tracker.objects ref).status)) (w : W) :
    ∃ e, (run h (syncOrder acct orderId) s w).1 = .error e := by
  have hwp : wp h (syncOrder acct orderId) (fun r _ _ => ∃ e, r = .error e) s w := by
    cases hadapter : adapterFor s acct with
    | error e =>
        simp only [syncOrder, bind_eq, wp_bind, wp_read, andThen_ok, hget, wp_getAdapter, hadapter]
        exact ⟨e, rfl⟩
    | ok adapter =>
        rw [wp_syncOrder hreport hget hadapter]
        exact wp_adopt hget (fun hmove => absurd ⟨⟨adapter, hadapter⟩, hmove⟩ hnot) (fun _ exc => ⟨exc, rfl⟩)
  exact hwp

theorem same_adopted (t : OrderTracker) (ref : Nat) (result : OrderResult) :
    Same (adopted t ref result) (adopted (adopted t ref result) ref result) where
  objects := by
    funext r
    by_cases hr : r = ref
    · simp [adopted, OrderTracker.setStatus_objects, OrderTracker.setResult_objects, hr]
    · simp [adopted, OrderTracker.setStatus_objects, OrderTracker.setResult_objects, hr]
  size := rfl
  orders := rfl
  requestIndex := rfl

/-- The table has one status that leads to itself. -/
theorem mem_transitions_self (status : ExecutionOrderStatus) :
    status ∈ transitions status ↔ status = .partiallyFilled := by
  cases status <;> decide

/-- After a first sync that went through, the order is tracked under the reported
status, so that the second meets the same report with it. -/
theorem idempotent_iff_partiallyFilled (hreport : Reports h ref result) (hget : s.tracker.get acct orderId = some ref)
    (hadapter : adapterFor s acct = .ok adapter)
    (hmove : mapExchangeStatus result.status ∈ transitions (s.tracker.objects ref).status) (w : W) :
    Idempotent h acct orderId s w ↔ mapExchangeStatus result.status = .partiallyFilled := by
  obtain ⟨hresult, hstate⟩ := run_syncOrder_ok hreport hget hadapter hmove w
  have hget' : (run h (syncOrder acct orderId) s w).2.1.tracker.get acct orderId = some ref := by
    rw [hstate]
    exact hget
  have hadapter' : adapterFor (run h (syncOrder acct orderId) s w).2.1 acct = .ok adapter := by
    rw [hstate]
    exact hadapter
  have hstatus : ((run h (syncOrder acct orderId) s w).2.1.tracker.objects ref).status =
      mapExchangeStatus result.status := by
    rw [hstate]
    exact adopted_status s.tracker ref result
  rw [← mem_transitions_self]
  constructor
  · rintro ⟨⟨result', -, hsecond⟩, -⟩
    by_contra hstays
    obtain ⟨e, he⟩ := run_syncOrder_raises hreport hget' (fun hnot => hstays (hstatus ▸ hnot.2))
      (run h (syncOrder acct orderId) s w).2.2
    rw [he] at hsecond
    cases hsecond
  · intro hself
    rw [← hstatus] at hself
    obtain ⟨hresult', hstate'⟩ := run_syncOrder_ok hreport hget' hadapter' (hstatus ▸ hself)
      (run h (syncOrder acct orderId) s w).2.2
    refine ⟨⟨result, hresult, hresult'⟩, ?_⟩
    rw [hstate', hstate]
    exact same_adopted s.tracker ref result

/-- sync_order can be repeated for orders that are reported as partially filled and for no others. -/
theorem idempotent_iff (hreport : Reports h ref result) (hget : s.tracker.get acct orderId = some ref) (w : W) :
    Idempotent h acct orderId s w ↔ (∃ adapter, adapterFor s acct = .ok adapter) ∧
      mapExchangeStatus result.status = .partiallyFilled ∧
        .partiallyFilled ∈ transitions (s.tracker.objects ref).status := by
  by_cases hfirst : (∃ adapter, adapterFor s acct = .ok adapter) ∧
      mapExchangeStatus result.status ∈ transitions (s.tracker.objects ref).status
  · obtain ⟨⟨adapter, hadapter⟩, hmove⟩ := hfirst
    rw [idempotent_iff_partiallyFilled hreport hget hadapter hmove w]
    exact ⟨fun hself => ⟨⟨adapter, hadapter⟩, hself, hself ▸ hmove⟩, fun hcond => hcond.2.1⟩
  · refine iff_of_false ?_ (fun hcond => hfirst ⟨hcond.1, hcond.2.1 ▸ hcond.2.2⟩)
    rintro ⟨⟨result', hresult, -⟩, -⟩
    obtain ⟨e, he⟩ := run_syncOrder_raises hreport hget hfirst w
    rw [he] at hresult
    cases hresult

/-- The engine after an order has been placed, with the answer of the exchange. -/
def placed (status : String) : ExecutionEngine :=
  (run (reportingHandler (report "1" "e1" status)) (placeOrder localId (limitBuy 7)) oneAccount ()).2.1

theorem idempotent_partiallyFilled :
    Idempotent (reportingHandler (report "1" "e1" "partially_filled")) (some 1) (some "1") (placed "open") () := by
  have hget : (placed "open").tracker.get (some 1) (some "1") = some 0 := by decide +kernel
  refine (idempotent_iff (fun _ _ _ _ => rfl) hget ()).mpr ⟨⟨⟨"bybit"⟩, rfl⟩, by decide +kernel, by decide +kernel⟩

/-- The order is open, the exchange reports it as open, and sync_order raises. -/
theorem not_idempotent_open :
    (placed "open").tracker.get (some 1) (some "1") = some 0 ∧
      ((placed "open").tracker.objects 0).result.exchangeOrderId = "e1" ∧
      ((placed "open").tracker.objects 0).status = mapExchangeStatus "open" ∧
      ¬ Idempotent (reportingHandler (report "1" "e1" "open")) (some 1) (some "1") (placed "open") () := by
  have hget : (placed "open").tracker.get (some 1) (some "1") = some 0 := by decide +kernel
  have hreport : Reports (reportingHandler (report "1" "e1" "open")) 0 (report "1" "e1" "open") := fun _ _ _ _ => rfl
  refine ⟨hget, by decide +kernel, by decide +kernel, ?_⟩
  rintro ⟨⟨result, hfirst, -⟩, -⟩
  obtain ⟨e, he⟩ := run_syncOrder_raises hreport hget (fun hnot => absurd hnot.2 (by decide +kernel)) ()
  rw [he] at hfirst
  cases hfirst

end Utos.Execution.Resync
