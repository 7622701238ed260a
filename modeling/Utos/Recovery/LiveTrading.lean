import Mathlib.Algebra.Order.BigOperators.Group.List
import Utos.Coroutine.Frame
import Utos.Execution.Placement
import Utos.Grid.Trading

namespace Utos.Recovery.LiveTrading

open Coroutine Program Core Core.DomainTypes Core.Exceptions Execution.Models Execution.Service Execution.Validator
open Execution.Tracker Execution.Executor
open Grid.Trading hiding Event Floor
open Grid.CircuitBreaker (Evaluate)
open Grid.Engine (GridEngine Owner)
open Execution.Engine (ExecutionEngine)

/-- An adapter with the answers it will give to its requests, and the results it
has answered placements with, the newest first. -/
structure Venue where
  answer : Nat → (q : AdapterReq) → AdapterAns q
  asked : Nat := 0
  accepted : List OrderResult := []

def taken : (q : AdapterReq) → AdapterAns q → List OrderResult
  | .placeOrder .., .ok result => [result]
  | _, _ => []

def exchange : Handler Venue AdapterReq AdapterAns := fun v q =>
  (v.answer v.asked q,
    { v with asked := v.asked + 1, accepted := taken q (v.answer v.asked q) ++ v.accepted })

/-- ExecutionEngine with the adapter that its orders go to. -/
structure Backend where
  engine : ExecutionEngine
  venue : Venue

/-- A request id that the tracker has not seen, as a new uuid4 is. -/
def newRequestId (t : OrderTracker) : UUID := (t.requestIndex.entries.map Prod.fst).sum + 1

/-- The grids and what executes their orders. -/
structure Site where
  grids : GridEngine
  backend : Backend

/-- One call of the grid engine runs to its end, an adapter comes or goes, or the exchange changes its mind. -/
inductive Event
  | grid (call : Call)
  | execution (call : Execution.Engine.Call)
  | answers (answer : Nat → (q : AdapterReq) → AdapterAns q)

variable (localOrderId : Nat → String)

/-- What a strategy engine asks of ExecutionEngine, and what that answers. -/
def backend : Handler Backend (ExecReq Owner) (ExecAns Owner)
  | b, .placeOrder _ request =>
      let r := run exchange (Execution.Engine.placeOrder localOrderId (request (newRequestId b.engine.tracker)))
        b.engine b.venue
      (r.1, ⟨r.2.1, r.2.2⟩)
  | b, .cancelOrder exchangeAccountId orderId =>
      let r := run exchange (Execution.Engine.cancelOrder exchangeAccountId orderId) b.engine b.venue
      (r.1, ⟨r.2.1, r.2.2⟩)

variable (evaluate : Evaluate)

def step (s : Site) : Event → Site
  | .grid c =>
      let r := run (backend localOrderId) (perform evaluate c) s.grids s.backend
      ⟨r.2.1, r.2.2⟩
  | .execution c =>
      let r := run exchange (Execution.Engine.perform localOrderId c) s.backend.engine s.backend.venue
      { s with backend := ⟨r.2.1, r.2.2⟩ }
  | .answers answer => { s with backend := { s.backend with venue := { s.backend.venue with answer := answer } } }

def runEvents (s : Site) (events : List Event) : Site := events.foldl (step localOrderId evaluate) s

/-- No grid yet; the execution engine may be in any state. -/
def start (hasProfitLock : Bool) (engine : ExecutionEngine) (answer : Nat → (q : AdapterReq) → AdapterAns q) : Site :=
  ⟨{ hasProfitLock := hasProfitLock }, ⟨engine, { answer := answer }⟩⟩

variable {localOrderId} {evaluate}

theorem newRequestId_new (t : OrderTracker) : t.getByRequestId (newRequestId t) = none := by
  have hnone : t.requestIndex.get (newRequestId t) = none := by
    by_contra hsome
    obtain ⟨key, hkey⟩ := Option.ne_none_iff_exists'.mp hsome
    have hmem := List.mem_map_of_mem (f := Prod.fst) (Dict.mem_of_get hkey)
    have hle := List.le_sum_of_mem hmem
    exact absurd hle (Nat.not_succ_le_self _)
  rw [OrderTracker.getByRequestId, hnone]
  rfl

theorem exchange_accepted {results : List OrderResult} (v : Venue) (q : AdapterReq) (h : results ⊆ v.accepted) :
    results ⊆ (exchange v q).2.accepted := fun _ hr => List.mem_append_right _ (h hr)

/-- Any result is one of those that the adapter has answered placements with. -/
def Accepted {S : Type} : Except Exn OrderResult → S → Venue → Prop := onOk (fun result _ v => result ∈ v.accepted)

variable {S : Type} {request : OrderRequest} {ref : Nat} {v : Venue}

theorem wp_attempts_accepted (x : OrderExecutor) (adapter : Adapter) (args : PlaceArgs) (n : Nat) (delay : ℚ)
    (last : Option Exn) (s : S) (v : Venue) : wp exchange (x.attempts adapter ref args n delay last) Accepted s v := by
  induction n generalizing delay last v with
  | zero => trivial
  | succ n ih =>
      rw [OrderExecutor.attempts, wp_call]
      cases hanswer : v.answer v.asked (.placeOrder adapter ref args) with
      | ok result =>
          simp only [exchange, hanswer, wp_ret]
          simp [Accepted, taken]
      | error exc =>
          simp only [exchange, hanswer]
          split
          · split
            · trivial
            · exact ih _ _ _
          · split <;> trivial

theorem wp_settle_accepted {result : OrderResult} {s : ExecutionEngine} (h : result ∈ v.accepted) :
    wp exchange (Execution.Engine.settle request ref result) Accepted s v := by
  simp only [Execution.Engine.settle, Execution.Engine.onTracker, bind_eq, wp_bind, wp_read, andThen_ok, wp_modify,
    Execution.Engine.transition, wp_attempt]
  split
  next => exact h
  next => trivial

theorem wp_fail_accepted {exc : Exn} {s : ExecutionEngine} :
    wp exchange (Execution.Engine.fail request ref exc) Accepted s v :=
  Execution.Placement.wp_fail (fun _ _ => trivial)

theorem wp_submit_accepted {adapter : Adapter} {s : ExecutionEngine} :
    wp exchange (Execution.Engine.submit request adapter ref) Accepted s v := by
  rw [Execution.Engine.submit, bind_eq, wp_bind, Execution.Engine.transition, wp_attempt]
  split
  next =>
    simp only [andThen_ok, bind_eq, wp_bind, wp_modify, wp_read]
    refine wp_mono (wp_attempts_accepted _ _ _ _ _ _ _ _) ?_
    rintro (e | result) s' v' hr
    · trivial
    · exact wp_settle_accepted hr
  next => trivial

/-- What place_order returns for a new request was answered by the adapter. -/
theorem wp_placeOrder_accepted {s : ExecutionEngine} (hnew : s.tracker.getByRequestId request.requestId = none) :
    wp exchange (Execution.Engine.placeOrder localOrderId request) Accepted s v := by
  simp only [Execution.Engine.placeOrder, bind_eq, wp_bind, wp_read, andThen_ok, hnew,
    Execution.Placement.wp_getAdapter]
  cases Execution.Engine.adapterFor s request.exchangeAccountId with
  | error e => trivial
  | ok adapter =>
      rw [andThen_ok, wp_bind, wp_lift]
      cases validate request with
      | error e => trivial
      | ok u =>
          simp only [andThen_ok, Execution.Engine.createPending, Execution.Engine.onTracker, bind_eq, wp_bind, wp_read,
            wp_modify, pure_eq, wp_ret, tryCatch_eq, wp_tryCatch]
          refine wp_mono wp_submit_accepted ?_
          rintro (e | result) s' v' hr
          · exact wp_fail_accepted
          · exact hr

theorem backend_keeps_accepted {results : List OrderResult} (b : Backend) (q : ExecReq Owner)
    (h : results ⊆ b.venue.accepted) : results ⊆ (backend localOrderId b q).2.venue.accepted := by
  cases q with
  | placeOrder owner request => exact keeps_world exchange_accepted _ b.engine b.venue h
  | cancelOrder acct orderId => exact keeps_world exchange_accepted _ b.engine b.venue h

theorem backend_accepts {owner : Owner} {request : UUID → OrderRequest} (b : Backend) {result : OrderResult}
    (hid : ∀ id, (request id).requestId = id)
    (h : (backend localOrderId b (.placeOrder owner request)).1 = .ok result) :
    result ∈ (backend localOrderId b (.placeOrder owner request)).2.venue.accepted := by
  have hwp : wp exchange (Execution.Engine.placeOrder localOrderId (request (newRequestId b.engine.tracker)))
      Accepted b.engine b.venue := wp_placeOrder_accepted (by rw [hid]; exact newRequestId_new _)
  have hanswer : (run exchange (Execution.Engine.placeOrder localOrderId (request (newRequestId b.engine.tracker)))
      b.engine b.venue).1 = .ok result := h
  rw [wp, hanswer] at hwp
  exact hwp

end Utos.Recovery.LiveTrading
