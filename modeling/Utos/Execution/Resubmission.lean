import Utos.Exchanges.Http
import Utos.Execution.Placement

namespace Utos.Execution.Resubmission

open Coroutine Program Core Core.DomainTypes Core.Exceptions Exchanges.Http Models OrderState Validator Tracker Executor
open Engine Placement

variable {β : Type}

/-- How an adapter places orders over HTTP: its _raise_for_status, and what it
makes of an answer that passes. The Binance adapter resyncs its clock once. -/
structure HttpAdapter (β : Type) where
  http : HttpClient := {}
  path : String
  raiseForStatus : Response β → Except Exn Unit
  parse : Response β → Except Exn OrderResult
  resyncs : Bool := false

/-- except ExchangeError as exc, with the error code TIMESTAMP_DRIFT -/
def drifted (exc : Exn) : Bool := exc.isExchangeError && exc.errorCode == some "TIMESTAMP_DRIFT"

namespace HttpAdapter

variable (x : HttpAdapter β)

def postOnce : HttpOp β (Response β) := do
  let response ← x.http.post x.path
  .lift ((x.raiseForStatus response).map (fun _ => response))

/-- _signed_request for a POST -/
def signedPost : HttpOp β (Response β) :=
  if x.resyncs then
    Program.tryCatch x.postOnce (fun exc =>
      if drifted exc then do
        .await .syncTime id
        x.postOnce
      else .raise exc)
  else x.postOnce

def placeOrder : HttpOp β OrderResult := do
  let response ← x.signedPost
  .lift (x.parse response)

end HttpAdapter

/-- What becomes of one HTTP attempt: whether the exchange accepts the order, and what comes back. -/
structure Fate (β : Type) where
  accepted : Bool
  reply : Reply β

/-- The fate of every attempt, by its number, and the answer of the clock after so many attempts. -/
structure Script (β : Type) where
  fate : Nat → Fate β
  sync : Nat → Except Exn Unit := fun _ => .ok ()

/-- The state of the network is the number of attempts that were made. -/
def wire (script : Script β) : Handler Nat HttpReq (HttpAns β)
  | k, .acquire .. => ((), k)
  | k, .send .. => ((script.fate k).reply, k + 1)
  | k, .sleep _ => ((), k)
  | k, .syncTime => (script.sync k, k)

/-- An adapter that places its orders over the wire. -/
def exchange (x : HttpAdapter β) (script : Script β) (other : (q : AdapterReq) → AdapterAns q) :
    Handler Nat AdapterReq AdapterAns := fun k q => match q with
  | .placeOrder .. => ((run (wire script) x.placeOrder () k).1, (run (wire script) x.placeOrder () k).2.2)
  | q => (other q, k)

/-- The number of orders that the exchange has accepted. -/
def acceptedOrders (script : Script β) (attempts : Nat) : Nat :=
  (List.range attempts).countP (fun k => (script.fate k).accepted)

/-- Where the two retry loops stand: how often execute tries again, whether the
clock is resynced, and how often request tries again. -/
structure Position where
  again : Nat
  resync : Bool
  tries : Nat
  deriving DecidableEq, Repr

namespace HttpAdapter

variable (x : HttpAdapter β)

/-- The exception that the adapter makes of the reply is one that execute retries. -/
def transient : Reply β → Bool
  | .response r => match x.raiseForStatus r with
    | .error exc => exc.isTransient
    | .ok _ => match x.parse r with
      | .error exc => exc.isTransient
      | .ok _ => false
  | .timeout | .networkError _ => true
  | .raised exc => exc.isTransient

def drifts : Reply β → Bool
  | .response r => match x.raiseForStatus r with
    | .error exc => drifted exc
    | .ok _ => false
  | .timeout | .networkError _ => false
  | .raised exc => drifted exc

def start (again : Nat) : Position := ⟨again, x.resyncs, x.http.retryPolicy.maxRetries - 1⟩

/-- execute tries again. -/
def again (n : Nat) (transient : Bool) : Option Position :=
  if transient && n ≠ 0 then some (x.start (n - 1)) else none

/-- Where the retries stand before the next attempt, if there is one after attempt k. -/
def next (script : Script β) (p : Position) (k : Nat) : Option Position :=
  if x.http.retries (script.fate k).reply && p.tries ≠ 0 then some { p with tries := p.tries - 1 }
  else if p.resync && x.drifts (script.fate k).reply then
    match script.sync (k + 1) with
    | .ok _ => some { p with resync := false, tries := x.http.retryPolicy.maxRetries - 1 }
    | .error exc => x.again p.again exc.isTransient
  else x.again p.again (x.transient (script.fate k).reply)

end HttpAdapter

/-- The replies to the attempts from k on lead to attempt k'. -/
inductive Walk (x : HttpAdapter β) (script : Script β) : Position → Nat → Position → Nat → Prop
  | refl (p k) : Walk x script p k p k
  | step {p k p' q k'} : x.next script p k = some p' → Walk x script p' (k + 1) q k' → Walk x script p k q k'

variable {x : HttpAdapter β} {script : Script β} {p q : Position} {k k' : Nat}

theorem Walk.trans {q' : Position} {k'' : Nat} (h : Walk x script p k q k') (h' : Walk x script q k' q' k'') :
    Walk x script p k q' k'' := by
  induction h with
  | refl => exact h'
  | step hnext _ ih => exact .step hnext (ih h')

theorem Walk.le (h : Walk x script p k q k') : k ≤ k' := by
  induction h with
  | refl => exact le_rfl
  | step _ _ ih => exact (Nat.le_succ _).trans ih

theorem Walk.le_of_end (h : Walk x script p k q k') (hend : x.next script q k' = none) {q' : Position} {j : Nat}
    (h' : Walk x script p k q' j) : j ≤ k' := by
  induction h with
  | refl =>
      cases h' with
      | refl => exact le_rfl
      | step hnext _ => cases hend.symm.trans hnext
  | step hnext hwalk ih =>
      cases h' with
      | refl => exact (Nat.le_succ _).trans hwalk.le
      | step hnext' hwalk' =>
          cases hnext.symm.trans hnext'
          exact ih hend hwalk'

theorem Walk.between (h : Walk x script p k q k') {j : Nat} (hk : k ≤ j) (hj : j ≤ k') :
    ∃ q', Walk x script p k q' j := by
  induction h with
  | refl p k =>
      cases le_antisymm hk hj
      exact ⟨p, .refl p _⟩
  | @step p k p' q k' hnext _ ih =>
      rcases hk.eq_or_lt with heq | hlt
      · refine ⟨p, ?_⟩
        rw [← heq]
        exact .refl p k
      · obtain ⟨q', hq'⟩ := ih hlt hj
        exact ⟨q', .step hnext hq'⟩

theorem answers_wire (script : Script β) : Answers (wire script) (fun k => (script.fate k).reply) :=
  ⟨fun _ _ _ => rfl, fun _ _ => rfl⟩

/-- The last attempt of a request. -/
structure Last (x : HttpAdapter β) (script : Script β) (p : Position) (k : Nat) : Prop where
  ended : (x.http.retries (script.fate k).reply && p.tries ≠ 0) = false

theorem next_retry (hretry : x.http.retries (script.fate k).reply = true) (htries : p.tries ≠ 0) :
    x.next script p k = some { p with tries := p.tries - 1 } := by
  simp [HttpAdapter.next, hretry, htries]

theorem wp_loop {method url : String} {R : Except Exn (Response β) → Unit → Nat → Prop} (n again : Nat)
    (resync : Bool) {a : Nat} (hn : a + n = x.http.retryPolicy.maxRetries + 1)
    (hR : ∀ t k' r, Walk x script ⟨again, resync, x.http.retryPolicy.maxRetries - a⟩ k ⟨again, resync, t⟩ k' →
      Last x script ⟨again, resync, t⟩ k' → HttpClient.Returns (script.fate k').reply r → R r () (k' + 1)) :
    wp (wire script) (x.http.attempts method url (n + 1) a) R () k := by
  induction n generalizing a k with
  | zero =>
      refine wp_attempt_cases (answers_wire script) (fun _ hlt => by omega) (fun _ r hr => hR _ k r (.refl _ _) ⟨?_⟩ hr)
      have hzero : x.http.retryPolicy.maxRetries - a = 0 := by omega
      simp [hzero]
  | succ n ih =>
      refine wp_attempt_cases (answers_wire script) (fun hretry hlt => ih (by omega) (fun t k' r hwalk hlast hr => ?_))
        (fun hno r hr => hR _ k r (.refl _ _) ⟨?_⟩ hr)
      · refine hR t k' r (.step (next_retry hretry (by simp only; omega)) ?_) hlast hr
        rwa [show x.http.retryPolicy.maxRetries - a - 1 = x.http.retryPolicy.maxRetries - (a + 1) by omega]
      · rw [Bool.eq_false_iff]
        intro h
        simp only [Bool.and_eq_true, decide_eq_true_eq, ne_eq] at h
        exact hno ⟨h.1, by omega⟩

/-- What the adapter makes of the reply before it looks at the body. -/
def Checks (x : HttpAdapter β) (reply : Reply β) (r : Except Exn (Response β)) : Prop :=
  ∃ r', HttpClient.Returns reply r' ∧ r = r'.bind (fun response => (x.raiseForStatus response).map (fun _ => response))

theorem wp_postOnce {R : Except Exn (Response β) → Unit → Nat → Prop} (again : Nat) (resync : Bool)
    (hR : ∀ t k' r, Walk x script ⟨again, resync, x.http.retryPolicy.maxRetries - 1⟩ k ⟨again, resync, t⟩ k' →
      Last x script ⟨again, resync, t⟩ k' → Checks x (script.fate k').reply r → R r () (k' + 1)) :
    wp (wire script) x.postOnce R () k := by
  have hloop : ∀ method url, wp (wire script)
      (x.http.attempts method url (x.http.retryPolicy.maxRetries + 1) 1 : HttpOp β (Response β))
      (andThen (wire script) (fun response => .lift ((x.raiseForStatus response).map (fun _ => response))) R) () k := by
    refine fun method url => wp_loop _ again resync (Nat.add_comm 1 _) (fun t k' r hwalk hlast hr => ?_)
    have hcheck := hR t k' (r.bind (fun response => (x.raiseForStatus response).map (fun _ => response))) hwalk hlast
      ⟨r, hr, rfl⟩
    cases r with
    | ok response => exact (wp_lift _).mpr hcheck
    | error exc => exact hcheck
  simp only [HttpAdapter.postOnce, bind_eq, wp_bind, HttpClient.post, HttpClient.request]
  split
  · exact hloop _ _
  · exact hloop _ _

/-- How a placement by the adapter ends: with a result, or with an exception that execute may retry. -/
structure Settles (x : HttpAdapter β) (script : Script β) (again : Nat) (p : Position) (k : Nat)
    (r : Except Exn OrderResult) : Prop where
  ok : ∀ result, r = .ok result → x.next script p k = none
  error : ∀ exc, r = .error exc → x.next script p k = x.again again exc.isTransient

theorem next_last (h : Last x script p k) (hdrift : (p.resync && x.drifts (script.fate k).reply) = false) :
    x.next script p k = x.again p.again (x.transient (script.fate k).reply) := by
  simp only [HttpAdapter.next, h.ended, hdrift, Bool.false_eq_true, if_false]

/-- The classification of replies is that of the exceptions that are made of them. -/
theorem checks_error {reply : Reply β} {exc : Exn} (h : Checks x reply (.error exc)) :
    x.transient reply = exc.isTransient ∧ x.drifts reply = drifted exc := by
  obtain ⟨r', hr', heq⟩ := h
  cases hr' with
  | response r =>
      simp only [Except.bind] at heq
      cases hraise : x.raiseForStatus r with
      | error exc' =>
          rw [hraise] at heq
          cases heq
          simp [HttpAdapter.transient, HttpAdapter.drifts, hraise]
      | ok _ =>
          rw [hraise] at heq
          cases heq
  | timeout message =>
      cases heq
      simp [HttpAdapter.transient, HttpAdapter.drifts, Exn.isTransient, drifted, Exn.isExchangeError]
  | networkError m name message =>
      cases heq
      simp [HttpAdapter.transient, HttpAdapter.drifts, Exn.isTransient, drifted, mapNetworkError, Exn.errorCode]
  | raised exc' =>
      cases heq
      exact ⟨rfl, rfl⟩

theorem checks_ok {reply : Reply β} {response : Response β} (h : Checks x reply (.ok response)) :
    reply = .response response ∧ ∃ a, x.raiseForStatus response = .ok a := by
  obtain ⟨r', hr', heq⟩ := h
  cases hr' with
  | response r =>
      simp only [Except.bind] at heq
      cases hraise : x.raiseForStatus r with
      | error exc' =>
          rw [hraise] at heq
          cases heq
      | ok a =>
          rw [hraise] at heq
          cases heq
          exact ⟨rfl, a, hraise⟩
  | timeout message | networkError m name message | raised exc' => cases heq

theorem settles_parse {again : Nat} {response : Response β} (h : Last x script p k) (hagain : p.again = again)
    (hchecks : Checks x (script.fate k).reply (.ok response)) :
    Settles x script again p k (x.parse response) := by
  obtain ⟨hreply, a, hraise⟩ := checks_ok hchecks
  have hdrift : x.drifts (script.fate k).reply = false := by simp [hreply, HttpAdapter.drifts, hraise]
  have hnext := next_last h (by rw [hdrift, Bool.and_false])
  rw [hagain] at hnext
  refine ⟨fun result hr => ?_, fun exc hr => ?_⟩
  · rw [hnext]
    simp [hreply, HttpAdapter.transient, hraise, hr, HttpAdapter.again]
  · rw [hnext]
    simp [hreply, HttpAdapter.transient, hraise, hr]

theorem settles_error {again : Nat} {exc : Exn} (h : Last x script p k) (hagain : p.again = again)
    (hchecks : Checks x (script.fate k).reply (.error exc)) (hdrift : p.resync = false ∨ drifted exc = false) :
    Settles x script again p k (.error exc) := by
  obtain ⟨htransient, hdrifts⟩ := checks_error hchecks
  have hnext := next_last h (by rw [hdrifts]; rcases hdrift with hd | hd <;> simp [hd])
  refine ⟨fun result hr => (by cases hr), fun exc' hr => ?_⟩
  cases hr
  rw [hnext, htransient, hagain]

/-- A placement by the adapter walks from the start of its attempts to the end of them. -/
theorem wp_placeOrder {R : Except Exn OrderResult → Unit → Nat → Prop} (again : Nat)
    (hR : ∀ p k' r, Walk x script (x.start again) k p k' → Settles x script again p k' r → R r () (k' + 1)) :
    wp (wire script) x.placeOrder R () k := by
  simp only [HttpAdapter.placeOrder, bind_eq, wp_bind, HttpAdapter.signedPost]
  -- the body is read whichever post has passed
  have hend : ∀ t resync k' r, Walk x script (x.start again) k ⟨again, resync, t⟩ k' →
      Last x script ⟨again, resync, t⟩ k' → Checks x (script.fate k').reply r → (∀ exc, r = .error exc → resync = false ∨ drifted exc = false) →
      andThen (wire script) (fun response => .lift (x.parse response)) R r () (k' + 1) := by
    intro t resync k' r hwalk hlast hchecks hdrift
    cases r with
    | ok response => exact (wp_lift _).mpr (hR _ k' _ hwalk (settles_parse hlast rfl hchecks))
    | error exc => exact hR _ k' _ hwalk (settles_error hlast rfl hchecks (hdrift exc rfl))
  cases hresyncs : x.resyncs with
  | false =>
      have hstart : x.start again = ⟨again, false, x.http.retryPolicy.maxRetries - 1⟩ := by
        rw [HttpAdapter.start, hresyncs]
      rw [hstart] at hend
      simp only [Bool.false_eq_true, if_false]
      exact wp_postOnce again false (fun t k' r hwalk hlast hchecks =>
        hend t false k' r hwalk hlast hchecks (fun _ _ => .inl rfl))
  | true =>
      have hstart : x.start again = ⟨again, true, x.http.retryPolicy.maxRetries - 1⟩ := by
        rw [HttpAdapter.start, hresyncs]
      rw [hstart] at hend hR
      simp only [if_true, wp_tryCatch]
      refine wp_postOnce again true (fun t k' r hwalk hlast hchecks => ?_)
      cases r with
      | ok response => exact hend t true k' _ hwalk hlast hchecks (fun _ h => by cases h)
      | error exc =>
          rw [orElse_error]
          split
          next hdrift =>
            have hdrifts := (checks_error hchecks).2
            simp only [wp_bind, wp_await, wire]
            cases hsync : script.sync (k' + 1) with
            | ok _ =>
                have hnext : x.next script ⟨again, true, t⟩ k' =
                    some ⟨again, false, x.http.retryPolicy.maxRetries - 1⟩ := by
                  simp only [HttpAdapter.next, hlast.ended, hdrifts, hdrift, hsync, Bool.false_eq_true, if_false,
                    Bool.and_true, if_true]
                rw [id, andThen_ok]
                refine wp_postOnce again false (fun t' k'' r' hwalk' hlast' hchecks' => ?_)
                exact hend t' false k'' r' (hwalk.trans (.step hnext hwalk')) hlast' hchecks' (fun _ _ => .inl rfl)
            | error exc' =>
                refine hR _ k' _ hwalk ⟨fun result hr => (by cases hr), fun exc'' hr => ?_⟩
                cases hr
                simp only [HttpAdapter.next, hlast.ended, hdrifts, hdrift, hsync, Bool.false_eq_true, if_false,
                  Bool.and_true, if_true]
          next hdrift =>
            refine hend t true k' _ hwalk hlast hchecks (fun exc' h => ?_)
            cases h
            exact .inr (by simpa using hdrift)

variable {other : (q : AdapterReq) → AdapterAns q}

theorem exchange_placeOrder (x : HttpAdapter β) (script : Script β) (other : (q : AdapterReq) → AdapterAns q)
    (again : Nat) (adapter : Adapter) (ref : Nat) (args : PlaceArgs)
    (k : Nat) : ∃ p k', Walk x script (x.start again) k p k' ∧
      Settles x script again p k' (exchange x script other k (.placeOrder adapter ref args)).1 ∧
      (exchange x script other k (.placeOrder adapter ref args)).2 = k' + 1 :=
  wp_placeOrder (R := fun r _ w => ∃ p k', Walk x script (x.start again) k p k' ∧ Settles x script again p k' r ∧
    w = k' + 1) again (fun p k' _ hwalk hsettles => ⟨p, k', hwalk, hsettles, rfl⟩)

/-- Dispatching an order ends where the replies lead no further. -/
theorem run_attempts_end (x : HttpAdapter β) (script : Script β) (other : (q : AdapterReq) → AdapterAns q)
    (ex : OrderExecutor) (adapter : Adapter) (ref : Nat) (args : PlaceArgs) (n : Nat) (delay : ℚ)
    (last : Option Exn) (k : Nat) : ∃ p k', Walk x script (x.start n) k p k' ∧ x.next script p k' = none ∧
      (run (exchange x script other) (ex.attempts adapter ref args (n + 1) delay last : Dispatch Unit OrderResult) ()
        k).2.2 = k' + 1 := by
  induction n generalizing delay last k with
  | zero =>
      obtain ⟨p, k', hwalk, hsettles, hsent⟩ :=
        exchange_placeOrder x script other 0 adapter ref args k
      refine ⟨p, k', hwalk, ?_, ?_⟩
      · cases hr : (exchange x script other k (.placeOrder adapter ref args)).1 with
        | ok result => exact hsettles.ok result hr
        | error exc =>
            rw [hsettles.error exc hr]
            simp [HttpAdapter.again]
      · simp only [OrderExecutor.attempts, run]
        rw [← hsent]
        cases (exchange x script other k (.placeOrder adapter ref args)).1 with
        | ok result => rfl
        | error exc =>
            dsimp only
            split
            · simp only [if_true, run]
            · split <;> rfl
  | succ n ih =>
      obtain ⟨p, k', hwalk, hsettles, hsent⟩ :=
        exchange_placeOrder x script other (n + 1) adapter ref args k
      simp only [OrderExecutor.attempts, run]
      cases hr : (exchange x script other k (.placeOrder adapter ref args)).1 with
      | ok result => exact ⟨p, k', hwalk, hsettles.ok result hr, hsent⟩
      | error exc =>
          have hnext := hsettles.error exc hr
          dsimp only
          split
          next htransient =>
            rw [if_neg (Nat.succ_ne_zero n), hsent]
            have hagain : x.next script p k' = some (x.start n) := by
              rw [hnext]
              simp [HttpAdapter.again, htransient]
            obtain ⟨q, k'', hwalk', hend, hsent'⟩ :=
              ih (min (delay * ex.backoffMultiplier) ex.maxDelay) (some exc) (k' + 1)
            exact ⟨q, k'', hwalk.trans (.step hagain hwalk'), hend, hsent'⟩
          next htransient =>
            have hnone : x.next script p k' = none := by
              rw [hnext]
              simp [HttpAdapter.again, htransient]
            refine ⟨p, k', hwalk, hnone, ?_⟩
            split <;> exact hsent

variable {W : Type} {h : Handler W AdapterReq AdapterAns} {s : ExecutionEngine} {w : W} {request : OrderRequest}

theorem wp_execute_world {S : Type} {ex : OrderExecutor} {adapter : Adapter} {ref : Nat}
    {R : Except Exn OrderResult → S → W → Prop} {s : S}
    (hR : ∀ r, R r s (run h (ex.execute request adapter ref : Dispatch Unit OrderResult) () w).2.2) :
    wp h (ex.execute request adapter ref) R s w := by
  unfold wp OrderExecutor.execute
  rw [run_attempts]
  exact hR _

theorem wp_settle_world {ref : Nat} {result : OrderResult}
    {R : Except Exn OrderResult → ExecutionEngine → W → Prop} (hR : ∀ r s', R r s' w) : wp h (settle request ref result) R s w := by
  simp only [settle, bind_eq, wp_bind, wp_read, andThen_ok, onTracker, wp_modify]
  generalize ({ s with tracker := _ } : ExecutionEngine) = s'
  by_cases hmem : mapExchangeStatus result.status ∈ transitions (s'.tracker.objects ref).status
  · rw [wp_transition hmem]
    exact hR _ _
  · rw [wp_transition_refused hmem]
    exact hR _ _

/-- A placement gets as far as the adapter. -/
structure Dispatches (s : ExecutionEngine) (request : OrderRequest) : Prop where
  isNew : s.tracker.getByRequestId request.requestId = none
  adapter : ∃ adapter, adapterFor s request.exchangeAccountId = .ok adapter
  valid : validate request = .ok ()
  tries : s.executor.maxRetries ≠ 0

theorem world_placeOrder (localOrderId : Nat → String) {adapter : Adapter}
    (hnew : s.tracker.getByRequestId request.requestId = none)
    (hadapter : adapterFor s request.exchangeAccountId = .ok adapter) (hvalid : validate request = .ok ()) :
    (run h (placeOrder localOrderId request) s w).2.2 =
      (run h (s.executor.execute request adapter s.tracker.size : Dispatch Unit OrderResult) () w).2.2 := by
  have hwp : wp h (placeOrder localOrderId request) (fun _ _ w' => w' =
      (run h (s.executor.execute request adapter s.tracker.size : Dispatch Unit OrderResult) () w).2.2) s w := by
    simp only [placeOrder, bind_eq, wp_bind, wp_read, andThen_ok, hnew, wp_getAdapter, hadapter, wp_lift, hvalid,
      createPending, onTracker, wp_modify, pure_eq, wp_ret, tryCatch_eq, wp_tryCatch, submit]
    rw [wp_transition (by simp [OrderTracker.track, transitions])]
    simp only [andThen_ok, wp_bind, wp_modify, wp_read]
    refine wp_execute_world (fun r => ?_)
    cases r with
    | error exc =>
        rw [andThen_error, orElse_error]
        exact wp_fail (fun _ _ => rfl)
    | ok result =>
        rw [andThen_ok]
        refine wp_settle_world (fun r s' => ?_)
        cases r with
        | ok _ => rfl
        | error exc =>
            rw [orElse_error]
            exact wp_fail (fun _ _ => rfl)
  exact hwp

/-- A placement that does not get as far asks nothing. -/
theorem world_of_not_dispatches (localOrderId : Nat → String) (hd : ¬ Dispatches s request) :
    (run h (placeOrder localOrderId request) s w).2.2 = w := by
  cases hcached : s.tracker.getByRequestId request.requestId with
  | some cached =>
      have hwp : wp h (placeOrder localOrderId request) (fun _ _ w' => w' = w) s w := by
        simp only [placeOrder, bind_eq, wp_bind, wp_read, andThen_ok, hcached, pure_eq, wp_ret]
      exact hwp
  | none =>
      cases hadapter : adapterFor s request.exchangeAccountId with
      | error exc =>
          have hwp : wp h (placeOrder localOrderId request) (fun _ _ w' => w' = w) s w := by
            simp only [placeOrder, bind_eq, wp_bind, wp_read, andThen_ok, hcached, wp_getAdapter, hadapter,
              andThen_error]
          exact hwp
      | ok adapter =>
          cases hvalid : validate request with
          | error exc =>
              have hwp : wp h (placeOrder localOrderId request) (fun _ _ w' => w' = w) s w := by
                simp only [placeOrder, bind_eq, wp_bind, wp_read, andThen_ok, hcached, wp_getAdapter, hadapter, wp_lift,
                  hvalid, andThen_error]
              exact hwp
          | ok _ =>
              have hzero : s.executor.maxRetries = 0 := by
                by_contra htries
                exact hd ⟨hcached, ⟨adapter, hadapter⟩, hvalid, htries⟩
              rw [world_placeOrder localOrderId hcached hadapter hvalid, OrderExecutor.execute, hzero]
              rfl

theorem acceptedOrders_le_one_iff (script : Script β) (n : Nat) :
    acceptedOrders script n ≤ 1 ↔
      ∀ i j, i < j → j < n → ¬ ((script.fate i).accepted = true ∧ (script.fate j).accepted = true) := by
  induction n with
  | zero => simp [acceptedOrders]
  | succ n ih =>
      have hsucc : acceptedOrders script (n + 1) =
          acceptedOrders script n + if (script.fate n).accepted = true then 1 else 0 := by
        simp [acceptedOrders, List.range_succ, List.countP_append, List.countP_singleton]
      constructor
      · intro hle i j hij hj hboth
        rcases Nat.lt_succ_iff_lt_or_eq.mp hj with hlt | rfl
        · exact ih.mp (by omega) i j hij hlt hboth
        · rw [hsucc, if_pos hboth.2] at hle
          have hpos : 0 < acceptedOrders script j :=
            List.countP_pos_iff.mpr ⟨i, List.mem_range.mpr hij, hboth.1⟩
          omega
      · intro hno
        have hle := ih.mpr (fun i j hij hj => hno i j hij (Nat.lt_succ_of_lt hj))
        by_cases hn : (script.fate n).accepted = true
        · have hzero : acceptedOrders script n = 0 := by
            refine List.countP_eq_zero.mpr (fun i hi hacc => ?_)
            exact hno i n (List.mem_range.mp hi) (Nat.lt_succ_self n) ⟨hacc, hn⟩
          rw [hsucc, hzero, if_pos hn]
        · rw [hsucc, if_neg hn]
          exact hle

/-- One placement leads to at most one order at the exchange exactly if the
replies to the attempts never lead from one that is accepted to another. -/
theorem atMostOneOrder_iff (localOrderId : Nat → String) (s : ExecutionEngine) (request : OrderRequest) :
    acceptedOrders script (run (exchange x script other) (placeOrder localOrderId request) s 0).2.2 ≤ 1 ↔
      (Dispatches s request → ∀ i j p, i < j → Walk x script (x.start (s.executor.maxRetries - 1)) 0 p j →
        ¬ ((script.fate i).accepted = true ∧ (script.fate j).accepted = true)) := by
  by_cases hd : Dispatches s request
  · obtain ⟨adapter, hadapter⟩ := hd.adapter
    obtain ⟨n, hn⟩ := Nat.exists_eq_succ_of_ne_zero hd.tries
    obtain ⟨p, k', hwalk, hend, hsent⟩ := run_attempts_end x script other s.executor adapter s.tracker.size
      (placeArgs request) n s.executor.baseDelay none 0
    rw [world_placeOrder localOrderId hd.isNew hadapter hd.valid, OrderExecutor.execute, hn, hsent,
      acceptedOrders_le_one_iff, Nat.succ_sub_one]
    constructor
    · intro hno _ i j q hij hq
      exact hno i j hij (Nat.lt_succ_of_le (hwalk.le_of_end hend hq))
    · intro hno i j hij hj
      obtain ⟨q, hq⟩ := hwalk.between (Nat.zero_le j) (Nat.le_of_lt_succ hj)
      exact hno hd i j q hij hq
  · rw [world_of_not_dispatches localOrderId hd]
    simp [acceptedOrders, hd]

/-- An adapter that takes the body of an answer as the result, and raises for any status from 400 on. -/
def plainAdapter : HttpAdapter OrderResult where
  path := "/v5/order/create"
  raiseForStatus r :=
    if r.statusCode < 400 then .ok ()
    else .error (.exchange .exchangeConnectionError "Bybit server error" "bybit" none)
  parse r := .ok r.body

/-- The answer to the first attempt is lost to a timeout; both attempts are accepted. -/
def answerLost : Script OrderResult where
  fate
    | 0 => ⟨true, .timeout⟩
    | _ => ⟨true, .response ⟨200, report "x" "77" "open"⟩⟩

/-- The order is placed twice, and one of the two is known here. -/
theorem timeout_places_twice :
    (run (exchange plainAdapter answerLost (reporting (report "x" "77" "open"))) (placeOrder localId (limitBuy 1))
        oneAccount 0).1 = .ok (report "x" "77" "open") ∧
      ¬ acceptedOrders answerLost (run (exchange plainAdapter answerLost (reporting (report "x" "77" "open")))
        (placeOrder localId (limitBuy 1)) oneAccount 0).2.2 ≤ 1 := by
  refine ⟨by rfl, ?_⟩
  decide +kernel

end Utos.Execution.Resubmission
