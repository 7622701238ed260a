import Utos.Coroutine.Pool
import Utos.ProfitLock.Course

namespace Utos.ProfitLock.FillRace

open Coroutine Program Core.DomainTypes Core.Exceptions Execution.Models Execution.Service State Policy Engine Ticks

variable {κ ω W : Type} [DecidableEq κ] [ToString κ]

/-- What the instance is told while its lock order is placed. -/
inductive Report
  | tick (price : ℚ)
  | filled (orderId : String)
  deriving DecidableEq

def Report.handle (owner : κ → ω) (key : κ) : Report → Lock κ ω Unit
  | .tick price => onPriceUpdate owner key price
  | .filled orderId => onOrderFilled key (some orderId)

/-- The pool of the handlers, and the number of the next one. -/
abbrev Handlers (κ ω W : Type) := Pool (Store κ) W (ExecReq ω) (ExecAns ω) Exn Unit × Nat

def deliver (owner : κ → ω) (key : κ) (x : Handlers κ ω W) (report : Report) : Handlers κ ω W :=
  (x.1.start x.2 (report.handle owner key), x.2 + 1)

/-- The placement starts as task 0; the exchange deals with the order after the
first reports, place_order returns after the second, and the last come after that. -/
def race (h : Handler W (ExecReq ω) (ExecAns ω)) (owner : κ → ω) (key : κ) (lockPrice : ℚ) (store : Store κ) (w : W)
    (before during later : List Report) : Pool (Store κ) W (ExecReq ω) (ExecAns ω) Exn Unit :=
  let placing : Handlers κ ω W := (Pool.start ⟨store, w, fun _ => none⟩ 0 (handleExecute owner key (some lockPrice)), 1)
  let asked := before.foldl (deliver owner key) placing
  let answered := during.foldl (deliver owner key) (asked.1.act h 0, asked.2)
  (later.foldl (deliver owner key) (answered.1.resume 0, answered.2)).1

/-- What follows the answer in _place_lock_order. -/
def settle (key : κ) (answer : Except Exn OrderResult) : Lock κ ω Unit :=
  .bind
    (.tryCatch
      (.bind (.lift answer) (fun result =>
        .bind (assign key (fun st => { st with lockOrderId := result.orderId })) (fun _ => .ret true)))
      (fun exc => .bind (transition key .error) (fun _ =>
        .raise (.profitLockError s!"Failed to place lock order: {exc.message}"))))
    (fun _ => .ret ())

variable {h : Handler W (ExecReq ω) (ExecAns ω)} {owner : κ → ω} {key : κ} {store : Store κ} {st : ProfitLockState}
variable {lockPrice : ℚ}

theorem advance_handleExecute (hst : store key = some st) (htriggered : st.status = .triggered) :
    (handleExecute owner key (some lockPrice)).advance store =
      (.asked (.placeOrder (owner key) (lockRequest st lockPrice)) (settle key),
        store.put key { st with status := .executing }) := by
  have hmem : ProfitLockStatus.executing ∈ transitions st.status := by simp [htriggered, transitions]
  have htransition : store.transition key .executing = .ok ((), store.put key { st with status := .executing }) := by
    simp only [State.Store.transition, hst, validateTransition, if_pos hmem]
    rfl
  simp only [handleExecute, placeLockOrder, bind_eq, Program.bind, Program.read, Program.advance, hst, transition,
    Program.attempt, htransition]
  rfl

def lockedState (st : ProfitLockState) : ProfitLockState :=
  { st with status := .locked, isExecuted := true, lockOrderId := none }

/-- What a report does to a lock that is not watching the price. -/
def reported (st : ProfitLockState) : Report → ProfitLockState
  | .tick _ => st
  | .filled orderId => if st.lockOrderId = some orderId ∧ st.status = .executing then lockedState st else st

def Unwatched (st : ProfitLockState) : Prop := st.status ≠ .monitoring ∧ st.status ≠ .triggered

theorem unwatched_reported (hidle : Unwatched st) (r : Report) : Unwatched (reported st r) := by
  cases r with
  | tick p => exact hidle
  | filled orderId =>
      by_cases hmatch : st.lockOrderId = some orderId ∧ st.status = .executing
      · rw [reported, if_pos hmatch]
        exact ⟨by simp [lockedState], by simp [lockedState]⟩
      · rw [reported, if_neg hmatch]
        exact hidle

theorem advance_report (owner : κ → ω) (hst : store key = some st) (hidle : Unwatched st) (r : Report) :
    ∃ store', (r.handle owner key).advance store = (.done (.ok ()), store') ∧ store' key = some (reported st r) := by
  cases r with
  | tick p =>
      refine ⟨store, ?_, hst⟩
      simp only [Report.handle, onPriceUpdate, bind_eq, Program.bind, Program.read, Program.advance, hst]
      split
      · rfl
      · unfold Unwatched at hidle
        rw [if_pos hidle]
        rfl
  | filled orderId =>
      by_cases hmatch : st.lockOrderId = some orderId ∧ st.status = .executing
      · obtain ⟨hid, hstatus⟩ := hmatch
        have hmem : ProfitLockStatus.locked ∈ transitions st.status := by simp [hstatus, transitions]
        have htransition : store.transition key .locked = .ok ((), store.put key { st with status := .locked }) := by
          simp only [State.Store.transition, hst, validateTransition, if_pos hmem]
          rfl
        refine ⟨store.put key (lockedState st), ?_, ?_⟩
        · simp only [Report.handle, onOrderFilled, bind_eq, Program.bind, Program.read, Program.advance, hst, hid, hstatus,
            ne_eq, not_true_eq_false, if_false, transition, Program.attempt, htransition, assign, Program.modify,
            State.Store.assign, put_same, put_put]
          rfl
        · rw [put_same, reported, if_pos ⟨hid, hstatus⟩]
      · refine ⟨store, ?_, ?_⟩
        · simp only [Report.handle, onOrderFilled, bind_eq, Program.bind, Program.read, Program.advance, hst]
          split
          · rfl
          next hid =>
            rw [if_pos (fun hstatus => hmatch ⟨not_not.mp hid, hstatus⟩)]
            rfl
        · rw [reported, if_neg hmatch]
          exact hst

/-- What the reports leave of a pool: they ask for nothing. -/
structure Delivered (key : κ) (x y : Handlers κ ω W) (st : ProfitLockState) : Prop where
  store : y.1.store key = some st
  world : y.1.world = x.1.world
  first : y.1.tasks 0 = x.1.tasks 0
  next : 0 < y.2
  asks : ∀ i q k, y.1.tasks i = some (.asked q k) → x.1.tasks i = some (.asked q k)

theorem foldl_deliver (owner : κ → ω) (x : Handlers κ ω W) (hst : x.1.store key = some st) (hidle : Unwatched st) (hn : 0 < x.2)
    (reports : List Report) :
    Delivered key x (reports.foldl (deliver owner key) x) (reports.foldl reported st) ∧
      Unwatched (reports.foldl reported st) := by
  induction reports generalizing x st with
  | nil => exact ⟨⟨hst, rfl, rfl, hn, fun _ _ _ h => h⟩, hidle⟩
  | cons r reports ih =>
      obtain ⟨store', hadvance, hst'⟩ := advance_report owner hst hidle r
      have hstore : (deliver owner key x r).1.store key = some (reported st r) := by
        simp only [deliver, Pool.start, hadvance]
        exact hst'
      obtain ⟨hd, hidle'⟩ := ih (deliver owner key x r) hstore (unwatched_reported hidle r) (Nat.succ_pos _)
      refine ⟨⟨hd.store, hd.world, hd.first.trans ?_, hd.next, fun i q k h => ?_⟩, hidle'⟩
      · simp only [deliver, Pool.start]
        exact Function.update_of_ne (Nat.ne_of_lt hn) _ _
      · have hask := hd.asks i q k h
        simp only [deliver, Pool.start, hadvance] at hask
        by_cases hi : i = x.2
        · subst hi
          rw [Function.update_self] at hask
          cases hask
        · rwa [Function.update_of_ne hi] at hask

theorem foldl_reported_idle (hstatus : st.status ≠ .executing) (reports : List Report) :
    reports.foldl reported st = st := by
  induction reports with
  | nil => rfl
  | cons r reports ih =>
      have hsame : reported st r = st := by
        cases r with
        | tick p => rfl
        | filled orderId => exact if_neg (fun h => hstatus h.2)
      rw [List.foldl_cons, hsame, ih]

theorem foldl_reported_filled (hstatus : st.status = .executing) {orderId : String} (hid : st.lockOrderId = some orderId)
    {reports : List Report} (hmem : Report.filled orderId ∈ reports) : reports.foldl reported st = lockedState st := by
  induction reports with
  | nil => cases hmem
  | cons r reports ih =>
      by_cases hr : r = .filled orderId
      · subst hr
        rw [List.foldl_cons, reported, if_pos ⟨hid, hstatus⟩]
        exact foldl_reported_idle (by simp [lockedState]) reports
      · have hsame : reported st r = st := by
          cases r with
          | tick p => rfl
          | filled other =>
              refine if_neg (fun h => hr ?_)
              rw [Option.some.inj (h.1.symm.trans hid)]
        rw [List.foldl_cons, hsame]
        exact ih ((List.mem_cons.mp hmem).resolve_left (Ne.symm hr))

theorem foldl_reported_unfilled {reports : List Report}
    (hnone : ∀ orderId, st.lockOrderId = some orderId → Report.filled orderId ∉ reports) :
    reports.foldl reported st = st := by
  induction reports with
  | nil => rfl
  | cons r reports ih =>
      have hsame : reported st r = st := by
        cases r with
        | tick p => rfl
        | filled orderId => exact if_neg (fun h => hnone orderId h.1 (by simp))
      rw [List.foldl_cons, hsame]
      exact ih (fun orderId hid hmem => hnone orderId hid (by simp [hmem]))

/-- The state after place_order has returned. -/
def settled (st : ProfitLockState) : Except Exn OrderResult → ProfitLockState
  | .ok result => { st with lockOrderId := result.orderId }
  | .error _ => if st.status = .executing then { st with status := .error } else st

theorem advance_settle (hst : store key = some st) (hstatus : st.status = .executing ∨ st.status = .locked)
    (answer : Except Exn OrderResult) :
    ∃ r store', (settle (ω := ω) key answer).advance store = (.done r, store') ∧ store' key = some (settled st answer) := by
  cases answer with
  | ok result =>
      refine ⟨.ok (), store.put key { st with lockOrderId := result.orderId }, ?_, put_same _ _ _⟩
      simp only [settle, Program.lift, Program.bind, Program.tryCatch, assign, Program.modify, Program.advance,
        State.Store.assign, hst]
  | error exc =>
      rcases hstatus with hexec | hlocked
      · have hmem : ProfitLockStatus.error ∈ transitions st.status := by simp [hexec, transitions]
        have htransition : store.transition key .error = .ok ((), store.put key { st with status := .error }) := by
          simp only [State.Store.transition, hst, validateTransition, if_pos hmem]
          rfl
        refine ⟨.error (.profitLockError s!"Failed to place lock order: {exc.message}"),
          store.put key { st with status := .error }, ?_, ?_⟩
        · simp only [settle, Program.lift, Program.bind, Program.tryCatch, transition, Program.attempt, Program.advance,
            htransition]
        · rw [put_same, settled, if_pos hexec]
      · have hmem : ProfitLockStatus.error ∉ transitions st.status := by simp [hlocked, transitions]
        have htransition : ∃ e, store.transition key .error = .error e := by
          simp only [State.Store.transition, hst, validateTransition, if_neg hmem]
          exact ⟨_, rfl⟩
        obtain ⟨e, he⟩ := htransition
        refine ⟨.error e, store, ?_, ?_⟩
        · simp only [settle, Program.lift, Program.bind, Program.tryCatch, transition, Program.attempt, Program.advance, he]
        · rw [settled, if_neg (by simp [hlocked])]
          exact hst

/-- The lock ends LOCKED and executed, and the order of the placement is the only one that was asked for. -/
def EndsLocked (h : Handler W (ExecReq ω) (ExecAns ω)) (owner : κ → ω) (key : κ) (lockPrice : ℚ) (st : ProfitLockState)
    (store : Store κ) (w : W) (before during later : List Report) : Prop :=
  let P := race h owner key lockPrice store w before during later
  (∃ st', P.store key = some st' ∧ st'.status = .locked ∧ st'.isExecuted = true) ∧
    P.world = (h w (.placeOrder (owner key) (lockRequest st lockPrice))).2 ∧ ∀ i q k, P.tasks i ≠ some (.asked q k)

def answerOf (h : Handler W (ExecReq ω) (ExecAns ω)) (owner : κ → ω) (key : κ) (st : ProfitLockState) (lockPrice : ℚ)
    (w : W) : Except Exn OrderResult := (h w (.placeOrder (owner key) (lockRequest st lockPrice))).1

/-- The placement waits with its request, and no other task does. -/
structure Waiting (owner : κ → ω) (key : κ) (st : ProfitLockState) (lockPrice : ℚ) (w : W) (x : Handlers κ ω W) : Prop where
  world : x.1.world = w
  first : x.1.tasks 0 = some (.asked (.placeOrder (owner key) (lockRequest st lockPrice)) (settle key))
  asks : ∀ i q k, x.1.tasks i = some (.asked q k) → i = 0
  next : 0 < x.2

theorem start_handleExecute (owner : κ → ω) (lockPrice : ℚ) (hst : store key = some st) (htriggered : st.status = .triggered) (w : W) :
    let x : Handlers κ ω W := (Pool.start ⟨store, w, fun _ => none⟩ 0 (handleExecute owner key (some lockPrice)), 1)
    Waiting owner key st lockPrice w x ∧ x.1.store key = some { st with status := .executing } := by
  intro x
  have hadvance : (handleExecute owner key (some lockPrice)).advance store = _ := advance_handleExecute hst htriggered
  have hx : x = (⟨store.put key { st with status := .executing }, w, Function.update (fun _ => none) 0
      (some (.asked (.placeOrder (owner key) (lockRequest st lockPrice)) (settle key)))⟩, 1) := by
    simp only [x, Pool.start, hadvance]
  rw [hx]
  refine ⟨⟨rfl, by simp, fun i q k hi => ?_, Nat.one_pos⟩, put_same _ _ _⟩
  by_contra hne
  simp only [Function.update_of_ne hne] at hi
  cases hi

theorem waiting_deliver {w : W} {x : Handlers κ ω W} (hx : Waiting owner key st lockPrice w x) {st1 : ProfitLockState}
    (hst1 : x.1.store key = some st1) (hidle : Unwatched st1) (reports : List Report) :
    Waiting owner key st lockPrice w (reports.foldl (deliver owner key) x) ∧
      (reports.foldl (deliver owner key) x).1.store key = some (reports.foldl reported st1) := by
  obtain ⟨hd, -⟩ := foldl_deliver owner x hst1 hidle hx.next reports
  exact ⟨⟨hd.world.trans hx.world, hd.first.trans hx.first, fun i q k h => hx.asks i q k (hd.asks i q k h), hd.next⟩,
    hd.store⟩

/-- The exchange has dealt with the order, and place_order has not returned. -/
structure Answered (h : Handler W (ExecReq ω) (ExecAns ω)) (owner : κ → ω) (key : κ) (st : ProfitLockState) (lockPrice : ℚ)
    (w : W) (x : Handlers κ ω W) : Prop where
  world : x.1.world = (h w (.placeOrder (owner key) (lockRequest st lockPrice))).2
  first : x.1.tasks 0 = some (.answered (.placeOrder (owner key) (lockRequest st lockPrice))
    (answerOf h owner key st lockPrice w) (settle key))
  asks : ∀ i q k, x.1.tasks i ≠ some (.asked q k)
  next : 0 < x.2

theorem answered_act {w : W} {x : Handlers κ ω W} (hx : Waiting owner key st lockPrice w x) :
    Answered h owner key st lockPrice w (x.1.act h 0, x.2) ∧ (x.1.act h 0).store = x.1.store := by
  have hact : x.1.act h 0 = { x.1 with
      world := (h w (.placeOrder (owner key) (lockRequest st lockPrice))).2
      tasks := Function.update x.1.tasks 0 (some (.answered (.placeOrder (owner key) (lockRequest st lockPrice))
        (answerOf h owner key st lockPrice w) (settle key))) } := by
    simp only [Pool.act, hx.first, hx.world, answerOf]
  rw [hact]
  refine ⟨⟨rfl, by simp, fun i q k hi => ?_, hx.next⟩, rfl⟩
  by_cases h0 : i = 0
  · subst h0
    simp only [Function.update_self] at hi
    cases hi
  · simp only [Function.update_of_ne h0] at hi
    exact h0 (hx.asks i q k hi)

theorem answered_deliver {w : W} {x : Handlers κ ω W} (hx : Answered h owner key st lockPrice w x) {st1 : ProfitLockState}
    (hst1 : x.1.store key = some st1) (hidle : Unwatched st1) (reports : List Report) :
    Answered h owner key st lockPrice w (reports.foldl (deliver owner key) x) ∧
      (reports.foldl (deliver owner key) x).1.store key = some (reports.foldl reported st1) := by
  obtain ⟨hd, -⟩ := foldl_deliver owner x hst1 hidle hx.next reports
  exact ⟨⟨hd.world.trans hx.world, hd.first.trans hx.first, fun i q k h => hx.asks i q k (hd.asks i q k h), hd.next⟩,
    hd.store⟩

/-- A lock order is under way, or the lock was told that one was filled. -/
theorem foldl_reported_status (hstatus : st.status = .executing) (reports : List Report) :
    (reports.foldl reported st).status = .executing ∨ (reports.foldl reported st).status = .locked := by
  by_cases hfilled : ∃ orderId, st.lockOrderId = some orderId ∧ Report.filled orderId ∈ reports
  · obtain ⟨orderId, hid, hmem⟩ := hfilled
    rw [foldl_reported_filled hstatus hid hmem]
    exact .inr rfl
  · rw [foldl_reported_unfilled (fun orderId hid hmem => hfilled ⟨orderId, hid, hmem⟩)]
    exact .inl hstatus

theorem unwatched_settled (hstatus : st.status = .executing ∨ st.status = .locked) (answer : Except Exn OrderResult) :
    Unwatched (settled st answer) := by
  have hst : Unwatched st := by rcases hstatus with h | h <;> exact ⟨by simp [h], by simp [h]⟩
  cases answer with
  | ok result => exact hst
  | error exc =>
      rw [settled]
      split
      · exact ⟨by simp, by simp⟩
      · exact hst

theorem answered_resume {w : W} {x : Handlers κ ω W} (hx : Answered h owner key st lockPrice w x) {st1 : ProfitLockState}
    (hst1 : x.1.store key = some st1) (hstatus : st1.status = .executing ∨ st1.status = .locked) :
    (x.1.resume 0).store key = some (settled st1 (answerOf h owner key st lockPrice w)) ∧
      (x.1.resume 0).world = (h w (.placeOrder (owner key) (lockRequest st lockPrice))).2 ∧
      ∀ i q k, (x.1.resume 0).tasks i ≠ some (.asked q k) := by
  obtain ⟨r, store', hsettle, hst'⟩ := advance_settle (ω := ω) hst1 hstatus (answerOf h owner key st lockPrice w)
  have hresume : x.1.resume 0 =
      { x.1 with store := store', tasks := Function.update x.1.tasks 0 (some (.done r)) } := by
    simp only [Pool.resume, hx.first, Pool.start, hsettle]
  rw [hresume]
  refine ⟨hst', hx.world, fun i q k hi => ?_⟩
  by_cases h0 : i = 0
  · subst h0
    simp only [Function.update_self] at hi
    cases hi
  · simp only [Function.update_of_ne h0] at hi
    exact hx.asks i q k hi

/-- The race in three legs: the lock waits, place_order returns, the lock has its answer. -/
theorem race_legs (hst : store key = some st) (htriggered : st.status = .triggered) (w : W)
    (before during later : List Report) :
    let P := race h owner key lockPrice store w before during later
    P.store key = some (later.foldl reported (settled
        ((before ++ during).foldl reported { st with status := .executing }) (answerOf h owner key st lockPrice w))) ∧
      P.world = (h w (.placeOrder (owner key) (lockRequest st lockPrice))).2 ∧ ∀ i q k, P.tasks i ≠ some (.asked q k) := by
  intro P
  have hidle : Unwatched { st with status := .executing } := ⟨by simp, by simp⟩
  have hstatus := foldl_reported_status
    (show ({ st with status := .executing } : ProfitLockState).status = .executing from rfl) (before ++ during)
  obtain ⟨hplacing, hst0⟩ := start_handleExecute owner lockPrice hst htriggered w
  obtain ⟨hwaiting, hst1⟩ := waiting_deliver hplacing hst0 hidle before
  obtain ⟨hanswered, hsame⟩ := answered_act (h := h) hwaiting
  have hidle1 : Unwatched (before.foldl reported { st with status := .executing }) :=
    (foldl_deliver owner _ hst0 hidle hplacing.next before).2
  obtain ⟨hready, hst2⟩ := answered_deliver hanswered (by rw [hsame]; exact hst1) hidle1 during
  rw [← List.foldl_append] at hst2
  obtain ⟨hst3, hworld, hasks⟩ := answered_resume hready hst2 hstatus
  obtain ⟨hd, -⟩ := foldl_deliver owner (_, _) hst3 (unwatched_settled hstatus _) hready.next later
  exact ⟨hd.store, hd.world.trans hworld, fun i q k hi => hasks i q k (hd.asks i q k hi)⟩

/-- The fill is reported after place_order has returned its order's id; or the
lock carried an earlier order's id, and that order is reported while it waits. -/
def FillMatched (st : ProfitLockState) (answer : Except Exn OrderResult) (waiting later : List Report) : Prop :=
  (∃ result orderId, answer = .ok result ∧ result.orderId = some orderId ∧ Report.filled orderId ∈ later) ∨
    ∃ orderId, st.lockOrderId = some orderId ∧ Report.filled orderId ∈ waiting

def Secured (st : ProfitLockState) : Prop := st.status = .locked ∧ st.isExecuted = true

theorem secured_iff (waiting later : List Report) (answer : Except Exn OrderResult) (hexec : st.status = .executing) :
    Secured (later.foldl reported (settled (waiting.foldl reported st) answer)) ↔ FillMatched st answer waiting later := by
  by_cases hearly : ∃ orderId, st.lockOrderId = some orderId ∧ Report.filled orderId ∈ waiting
  · obtain ⟨orderId, hid, hmem⟩ := hearly
    refine ⟨fun _ => .inr ⟨orderId, hid, hmem⟩, fun _ => ?_⟩
    rw [foldl_reported_filled hexec hid hmem]
    cases answer with
    | ok result =>
        rw [settled, foldl_reported_idle (by simp [lockedState])]
        exact ⟨rfl, rfl⟩
    | error exc =>
        rw [settled, if_neg (by simp [lockedState]), foldl_reported_idle (by simp [lockedState])]
        exact ⟨rfl, rfl⟩
  · rw [foldl_reported_unfilled (fun orderId hid hmem => hearly ⟨orderId, hid, hmem⟩)]
    cases answer with
    | error exc =>
        rw [settled, if_pos hexec, foldl_reported_idle (by simp)]
        refine ⟨fun h => (by cases h.1), ?_⟩
        rintro (⟨result, orderId, hok, -⟩ | h)
        · cases hok
        · exact absurd h hearly
    | ok result =>
        by_cases hlate : ∃ orderId, result.orderId = some orderId ∧ Report.filled orderId ∈ later
        · obtain ⟨orderId, hid, hmem⟩ := hlate
          refine ⟨fun _ => .inl ⟨result, orderId, rfl, hid, hmem⟩, fun _ => ?_⟩
          rw [settled, foldl_reported_filled (show ({ st with lockOrderId := result.orderId } : ProfitLockState).status =
            .executing from hexec) hid hmem]
          exact ⟨rfl, rfl⟩
        · rw [settled, foldl_reported_unfilled (fun orderId hid hmem => hlate ⟨orderId, hid, hmem⟩)]
          refine ⟨fun h => absurd (hexec.symm.trans h.1) (by simp), ?_⟩
          rintro (⟨result', orderId, hok, hid, hmem⟩ | h)
          · cases hok
            exact absurd ⟨orderId, hid, hmem⟩ hlate
          · exact absurd h hearly

/-- The lock ends LOCKED exactly if the fill finds the id it is matched against. -/
theorem endsLocked_iff (hst : store key = some st) (htriggered : st.status = .triggered) (w : W)
    (before during later : List Report) :
    EndsLocked h owner key lockPrice st store w before during later ↔
      FillMatched st (h w (.placeOrder (owner key) (lockRequest st lockPrice))).1 (before ++ during) later := by
  obtain ⟨hstore, hworld, hasks⟩ : _ ∧ _ ∧ _ := race_legs (h := h) hst htriggered w before during later
  have hsecured := secured_iff (before ++ during) later (answerOf h owner key st lockPrice w)
    (show ({ st with status := .executing } : ProfitLockState).status = .executing from rfl)
  constructor
  · rintro ⟨⟨st', hst', hlocked⟩, -⟩
    cases hst'.symm.trans hstore
    exact hsecured.mp hlocked
  · intro hmatched
    exact ⟨⟨_, hstore, hsecured.mpr hmatched⟩, hworld, hasks⟩

/-- A lock that triggered at 120, with its lock price at 114. -/
def triggeredAt120 : ProfitLockState :=
  { status := .triggered, enabled := true, triggerPercentage := 10, trailPercentage := 5, entryPrice := 100
    quantity := 1, highestPrice := some 120, lockPrice := some 114, isTriggered := true
    exchangeAccountId := some 1, symbol := "BTCUSDT" }

def storeAt120 : Store String := fun _ => some triggeredAt120

theorem endsLocked_iff_later :
    EndsLocked accepting id "a" 114 triggeredAt120 storeAt120 () [.tick 113] [.tick 112] [.filled "1"] ↔
      FillMatched triggeredAt120 (.ok openResult) ([.tick 113] ++ [.tick 112]) [.filled "1"] :=
  endsLocked_iff (show storeAt120 "a" = some triggeredAt120 from rfl) rfl () _ _ _

/-- The fill overtakes the answer: the lock stays in EXECUTING. -/
theorem early_fill_lost :
    ¬ EndsLocked accepting id "a" 114 triggeredAt120 storeAt120 () [] [.filled "1"] [.tick 113] := by
  rintro ⟨⟨st', hst', hlocked, -⟩, -⟩
  have hexecuting : ((race accepting id "a" 114 storeAt120 () [] [.filled "1"] [.tick 113]).store
      "a").map (fun st => st.status) = some .executing := by decide +kernel
  rw [hst', Option.map_some, hlocked] at hexecuting
  cases hexecuting

end Utos.ProfitLock.FillRace
