import Utos.Execution.Engine

namespace Utos.Execution.Placement

open Coroutine Program Core Core.DomainTypes Core.Exceptions Models OrderState Validator Tracker Executor Engine

variable {W S : Type} {h : Handler W AdapterReq AdapterAns}

theorem run_attempts (x : OrderExecutor) (adapter : Adapter) (ref : Nat) (args : PlaceArgs) (n : Nat) (delay : ℚ)
    (last : Option Exn) (s : S) (w : W) :
    run h (x.attempts adapter ref args n delay last : Dispatch S OrderResult) s w =
      ((run h (x.attempts adapter ref args n delay last : Dispatch Unit OrderResult) () w).1, s,
        (run h (x.attempts adapter ref args n delay last : Dispatch Unit OrderResult) () w).2.2) := by
  induction n generalizing delay last w with
  | zero => rfl
  | succ n ih =>
      simp only [OrderExecutor.attempts, run]
      cases (h w (.placeOrder adapter ref args)).1 with
      | ok result => rfl
      | error exc =>
          dsimp only
          split
          · split
            · rfl
            · exact ih _ _ _
          · split <;> rfl

/-- What the adapter and the retries make of a request. -/
def dispatched (h : Handler W AdapterReq AdapterAns) (x : OrderExecutor) (request : OrderRequest) (adapter : Adapter)
    (ref : Nat) (w : W) : Except Exn OrderResult :=
  (run h (x.execute request adapter ref : Dispatch Unit OrderResult) () w).1

theorem wp_execute {x : OrderExecutor} {request : OrderRequest} {adapter : Adapter} {ref : Nat}
    {R : Except Exn OrderResult → S → W → Prop} {s : S} {w : W}
    (hR : ∀ w', R (dispatched h x request adapter ref w) s w') : wp h (x.execute request adapter ref) R s w := by
  unfold wp OrderExecutor.execute
  rw [run_attempts]
  exact hR _

theorem wp_transition {ref : Nat} {target : ExecutionOrderStatus} {R : Except Exn Unit → ExecutionEngine → W → Prop}
    {s : ExecutionEngine} {w : W} (ht : target ∈ transitions (s.tracker.objects ref).status) :
    wp h (transition ref target) R s w ↔ R (.ok ()) { s with tracker := s.tracker.setStatus ref target } w := by
  rw [transition, wp_attempt, validateTransition, if_pos ht]
  rfl

theorem wp_transition_refused {ref : Nat} {target : ExecutionOrderStatus}
    {R : Except Exn Unit → ExecutionEngine → W → Prop} {s : ExecutionEngine} {w : W}
    (ht : target ∉ transitions (s.tracker.objects ref).status) :
    wp h (transition ref target) R s w ↔
      R (.error (invalidTransition (s.tracker.objects ref).status target)) s w := by
  rw [transition, wp_attempt, validateTransition, if_neg ht]
  rfl

theorem wp_getAdapter {acct : Option UUID} {R : Except Exn Adapter → ExecutionEngine → W → Prop}
    {s : ExecutionEngine} {w : W} : wp h (getAdapter acct) R s w ↔ R (adapterFor s acct) s w := by
  simp only [getAdapter, bind_eq, wp_bind, wp_read, andThen_ok, wp_lift]

/-- The order is tracked as the exchange reported it, and listed while it is active. -/
structure Recorded (request : OrderRequest) (result : OrderResult) (outcome : Except Exn OrderResult)
    (s : ExecutionEngine) : Prop where
  returned : outcome = .ok result
  tracked : ∃ ref, s.tracker.get request.exchangeAccountId result.orderId = some ref ∧
    (s.tracker.objects ref).requestId = request.requestId ∧ (s.tracker.objects ref).result = result ∧
    (s.tracker.objects ref).status = mapExchangeStatus result.status
  listed : ∀ ref, s.tracker.get request.exchangeAccountId result.orderId = some ref →
    (s.tracker.objects ref).isActive → result ∈ listActiveOrders s request.exchangeAccountId

/-- What a placement has made of the state when the answer of the exchange arrives. -/
structure Submitted (request : OrderRequest) (ref : Nat) (s : ExecutionEngine) : Prop where
  keyed : s.tracker.get request.exchangeAccountId (s.tracker.objects ref).result.orderId = some ref
  request : (s.tracker.objects ref).requestId = request.requestId
  status : (s.tracker.objects ref).status = .submitting

theorem listed_of_get {s : ExecutionEngine} {acct : Option UUID} {orderId : OrderId} {ref : Nat}
    (hget : s.tracker.get acct orderId = some ref) (hactive : (s.tracker.objects ref).isActive) :
    (s.tracker.objects ref).result ∈ listActiveOrders s acct := by
  refine List.mem_map.mpr ⟨ref, List.mem_filterMap.mpr ⟨_, Dict.mem_of_get hget, ?_⟩, rfl⟩
  rw [if_pos ⟨hactive, .inr rfl⟩]

/-- After the move to the id the exchange returned the order is found under it. -/
theorem get_reKey {t : OrderTracker} {acct : Option UUID} {old : OrderId} {ref : Nat} (new : OrderId)
    (h : t.get acct old = some ref) : (if new ≠ old then t.reKey acct old new else t).get acct new = some ref := by
  split
  · have hold : t.orders.get (acct, old) = some ref := h
    simp only [OrderTracker.reKey, hold, OrderTracker.get, Dict.get_set_self]
  next heq => rw [not_not.mp heq, h]

theorem recorded_of_written {request : OrderRequest} {result : OrderResult} {s : ExecutionEngine} {t : OrderTracker}
    {ref : Nat} (hget : t.get request.exchangeAccountId result.orderId = some ref)
    (hrequest : (t.objects ref).requestId = request.requestId)
    (ht : s.tracker = (t.setResult ref result).setStatus ref (mapExchangeStatus result.status)) :
    Recorded request result (.ok result) s := by
  have hget' : s.tracker.get request.exchangeAccountId result.orderId = some ref := by rw [ht]; exact hget
  have hobject : s.tracker.objects ref =
      { t.objects ref with result := result, status := mapExchangeStatus result.status } := by
    rw [ht, OrderTracker.setStatus_objects, if_pos rfl, OrderTracker.setResult_objects, if_pos rfl]
  refine ⟨rfl, ⟨ref, hget', ?_, ?_, ?_⟩, fun r hr hactive => ?_⟩
  · rw [hobject]
    exact hrequest
  · rw [hobject]
  · rw [hobject]
  · cases hget'.symm.trans hr
    have h := listed_of_get hget' hactive
    rwa [hobject] at h

theorem wp_settle {request : OrderRequest} {ref : Nat} {result : OrderResult} {s : ExecutionEngine} {w : W}
    {R : Except Exn OrderResult → ExecutionEngine → W → Prop} (hs : Submitted request ref s)
    (hok : mapExchangeStatus result.status ∈ transitions .submitting →
      ∀ s', Recorded request result (.ok result) s' → R (.ok result) s' w)
    (hrefused : mapExchangeStatus result.status ∉ transitions .submitting → ∀ exc s', R (.error exc) s' w) :
    wp h (settle request ref result) R s w := by
  simp only [settle, bind_eq, wp_bind, wp_read, andThen_ok, onTracker, wp_modify]
  have hkeyed := get_reKey result.orderId hs.keyed
  generalize hold : (s.tracker.objects ref).result.orderId = old at hkeyed ⊢
  generalize ht : (if result.orderId ≠ old then s.tracker.reKey request.exchangeAccountId old result.orderId
    else s.tracker) = t at hkeyed ⊢
  have hobjects : t.objects = s.tracker.objects := by
    rw [← ht]
    split
    · exact OrderTracker.reKey_objects _ _ _
    · rfl
  have hstatus : (t.objects ref).status = .submitting := by rw [hobjects]; exact hs.status
  by_cases hmem : mapExchangeStatus result.status ∈ transitions .submitting
  · rw [wp_transition (by rw [hstatus]; exact hmem), andThen_ok, wp_bind, wp_modify, andThen_ok]
    apply hok hmem
    have hget : (t.setStatus ref (mapExchangeStatus result.status)).get request.exchangeAccountId result.orderId =
        some ref := hkeyed
    dsimp only
    rw [OrderTracker.update_of_get hget]
    refine recorded_of_written hget ?_ rfl
    rw [OrderTracker.setStatus_objects, if_pos rfl, hobjects]
    exact hs.request
  · rw [wp_transition_refused (by rw [hstatus]; exact hmem), andThen_error]
    exact hrefused hmem _ _

theorem wp_fail {request : OrderRequest} {ref : Nat} {exc : Exn} {s : ExecutionEngine} {w : W}
    {R : Except Exn OrderResult → ExecutionEngine → W → Prop} (hR : ∀ exc s', R (.error exc) s' w) :
    wp h (fail request ref exc) R s w := by
  rw [fail, bind_eq, wp_bind]
  by_cases hmem : ExecutionOrderStatus.failed ∈ transitions (s.tracker.objects ref).status
  · rw [wp_transition hmem]
    exact hR _ _
  · rw [wp_transition_refused hmem]
    exact hR _ _

variable (localOrderId : Nat → String) {s : ExecutionEngine} {w : W} {request : OrderRequest} {adapter : Adapter}

theorem wp_placeOrder {R : Except Exn OrderResult → ExecutionEngine → W → Prop}
    (hnew : s.tracker.getByRequestId request.requestId = none)
    (hadapter : adapterFor s request.exchangeAccountId = .ok adapter) (hvalid : validate request = .ok ())
    (hR : ∀ s' w', Submitted request s.tracker.size s' →
      match dispatched h s.executor request adapter s.tracker.size w with
      | .ok result => wp h (settle request s.tracker.size result) (orElse h (fail request s.tracker.size) R) s' w'
      | .error exc => wp h (fail request s.tracker.size exc) R s' w') :
    wp h (placeOrder localOrderId request) R s w := by
  simp only [placeOrder, bind_eq, wp_bind, wp_read, andThen_ok, hnew, wp_getAdapter, hadapter, wp_lift, hvalid,
    createPending, onTracker, wp_modify, pure_eq, wp_ret, tryCatch_eq, wp_tryCatch, submit]
  have hpending : (((s.tracker.track request.requestId request.exchangeAccountId
      (pendingResult request (some (localOrderId s.tracker.size))) .pending).objects s.tracker.size).status) =
      .pending := by
    simp [OrderTracker.track]
  rw [wp_transition (by rw [hpending]; decide)]
  simp only [andThen_ok, wp_bind, wp_modify, wp_read]
  refine wp_execute (fun w' => ?_)
  have hsub := hR { s with
      tracker := (s.tracker.track request.requestId request.exchangeAccountId
        (pendingResult request (some (localOrderId s.tracker.size))) .pending).setStatus s.tracker.size .submitting
      executions := request.requestId :: s.executions } w' ⟨?_, ?_, ?_⟩
  · generalize dispatched h s.executor request adapter s.tracker.size w = answer at hsub ⊢
    cases answer with
    | ok result => exact hsub
    | error exc => exact hsub
  · simp [OrderTracker.setStatus_objects, OrderTracker.track, OrderTracker.get, pendingResult]
  · simp [OrderTracker.setStatus_objects, OrderTracker.track]
  · simp [OrderTracker.setStatus_objects, OrderTracker.track]

theorem map_mem_submitting (status : String) : mapExchangeStatus status ∈ transitions .submitting ↔
    lower status ∉ ["pending", "cancelled", "expired"] := by
  unfold mapExchangeStatus
  split <;> simp_all [transitions]

/-- A placement that the exchange answered with a result records it, and returns
it, exactly if the reported status is none of pending, cancelled and expired. -/
theorem placeOrder_records_iff {result : OrderResult} (hnew : s.tracker.getByRequestId request.requestId = none)
    (hadapter : adapterFor s request.exchangeAccountId = .ok adapter) (hvalid : validate request = .ok ())
    (hanswer : dispatched h s.executor request adapter s.tracker.size w = .ok result) :
    wp h (placeOrder localOrderId request) (fun outcome s' _ => Recorded request result outcome s') s w ↔
      lower result.status ∉ ["pending", "cancelled", "expired"] := by
  rw [← map_mem_submitting]
  constructor
  · intro hrecorded
    by_contra hmem
    refine absurd hrecorded (wp_placeOrder (R := fun outcome s' _ => ¬ Recorded request result outcome s')
      localOrderId hnew hadapter hvalid (fun s' w' hs => ?_))
    rw [hanswer]
    refine wp_settle hs (fun h => absurd h hmem) (fun _ exc s'' => ?_)
    exact (orElse_error _ _).mpr (wp_fail (fun exc s'' hr => by cases hr.returned))
  · intro hmem
    refine wp_placeOrder localOrderId hnew hadapter hvalid (fun s' w' hs => ?_)
    rw [hanswer]
    exact wp_settle hs (fun _ s'' hr => hr) (fun h => absurd hmem h)

theorem placeOrder_records_iff_open :
    wp (reportingHandler (report "x" "77" "open")) (placeOrder localId (limitBuy 1))
      (fun outcome s' _ => Recorded (limitBuy 1) (report "x" "77" "open") outcome s') oneAccount () ↔
        lower "open" ∉ ["pending", "cancelled", "expired"] :=
  placeOrder_records_iff localId rfl (rfl : adapterFor _ _ = .ok ⟨"bybit"⟩) rfl rfl

/-- An order that the exchange reports as pending is accepted and recorded as failed. -/
theorem pending_recorded_failed :
    dispatched (reportingHandler (report "x" "77" "pending")) oneAccount.executor (limitBuy 1) ⟨"bybit"⟩ 0 () =
        .ok (report "x" "77" "pending") ∧
      ¬ wp (reportingHandler (report "x" "77" "pending")) (placeOrder localId (limitBuy 1))
        (fun outcome s' _ => Recorded (limitBuy 1) (report "x" "77" "pending") outcome s') oneAccount () := by
  refine ⟨rfl, fun hrecorded => ?_⟩
  have hreturned := hrecorded.returned
  revert hreturned
  decide +kernel

end Utos.Execution.Placement
