import Utos.Coroutine.Frame
import Utos.ProfitLock.Engine

namespace Utos.ProfitLock.Ticks

open Coroutine Program Core.DomainTypes Core.Exceptions Execution.Models Execution.Service State Policy Engine

variable {κ ω W α : Type} [DecidableEq κ] [ToString κ] {owner : κ → ω} {h : Handler W (ExecReq ω) (ExecAns ω)}
variable {key : κ} {store : Store κ} {st : ProfitLockState} {w : W} {price lockPrice : ℚ} {profit : ProfitResult}

omit [ToString κ] in
@[simp] theorem put_same (store : Store κ) (key : κ) (st : ProfitLockState) : store.put key st key = some st :=
  Function.update_self _ _ _

omit [ToString κ] in
@[simp] theorem put_put (store : Store κ) (key : κ) (st st' : ProfitLockState) :
    (store.put key st).put key st' = store.put key st' := by simp [State.Store.put]

section

variable {R : Except Exn Unit → Store κ → W → Prop}

theorem wp_transition {target : ProfitLockStatus} (hst : store key = some st) (hmem : target ∈ transitions st.status) :
    wp h (transition key target) R store w ↔ R (.ok ()) (store.put key { st with status := target }) w := by
  rw [transition, wp_attempt, State.Store.transition, hst]
  simp only [validateTransition, if_pos hmem]
  rfl

theorem wp_transition_refused {target : ProfitLockStatus} (hst : store key = some st)
    (hmem : target ∉ transitions st.status) (hR : ∀ e, R (.error e) store w) :
    wp h (transition key target) R store w := by
  rw [transition, wp_attempt, State.Store.transition, hst]
  simp only [validateTransition, if_neg hmem]
  exact hR _

omit [ToString κ] in
theorem wp_assign {f : ProfitLockState → ProfitLockState} (hst : store key = some st) :
    wp h (assign key f) R store w ↔ R (.ok ()) (store.put key (f st)) w := by
  rw [assign, wp_modify, State.Store.assign, hst]

/-- What comes of a price that the lock executes on in status TRIGGERED, by the answer to the order. -/
def executed (key : κ) (st : ProfitLockState) (R : Except Exn Unit → Store κ → W → Prop) (store : Store κ)
    (answer : Except Exn OrderResult) (w : W) : Prop :=
  match answer with
  | .ok result => R (.ok ()) (store.put key { st with status := .executing, lockOrderId := result.orderId }) w
  | .error exc => R (.error (.profitLockError s!"Failed to place lock order: {exc.message}"))
      (store.put key { st with status := .error }) w

theorem wp_handleExecute (hst : store key = some st) (htriggered : st.status = .triggered) :
    wp h (handleExecute owner key (some lockPrice)) R store w ↔
      executed key st R store (h w (.placeOrder (owner key) (lockRequest st lockPrice))).1
        (h w (.placeOrder (owner key) (lockRequest st lockPrice))).2 := by
  have hmem : ProfitLockStatus.executing ∈ transitions st.status := by simp [htriggered, transitions]
  simp only [handleExecute, placeLockOrder, bind_eq, wp_bind, wp_read, andThen_ok, hst]
  rw [wp_transition hst hmem, andThen_ok, tryCatch_eq, wp_tryCatch, wp_bind, placeOrder, wp_await]
  cases (h w (.placeOrder (owner key) (lockRequest st lockPrice))).1 with
  | ok result =>
      rw [id_eq, andThen_ok, wp_bind, wp_assign (put_same _ _ _), put_put]
      rfl
  | error exc =>
      rw [id_eq, andThen_error, orElse_error, wp_bind, wp_transition (put_same _ _ _) (by simp [transitions]), put_put]
      rfl

/-- In any other status the lock order is refused by the state machine, before it is asked for. -/
theorem wp_handleExecute_refused (hst : store key = some st) (htriggered : st.status ≠ .triggered)
    (hR : ∀ e, R (.error e) store w) : wp h (handleExecute owner key (some lockPrice)) R store w := by
  have hmem : ProfitLockStatus.executing ∉ transitions st.status := by
    revert htriggered
    cases st.status <;> simp [transitions]
  simp only [handleExecute, placeLockOrder, bind_eq, wp_bind, wp_read, andThen_ok, hst]
  exact wp_transition_refused hst hmem (fun e => hR e)

theorem wp_onPriceUpdate_idle (hst : store key = some st)
    (hidle : st.enabled = false ∨ st.status ≠ .monitoring ∧ st.status ≠ .triggered) (hR : R (.ok ()) store w) :
    wp h (onPriceUpdate owner key price) R store w := by
  simp only [onPriceUpdate, bind_eq, wp_bind, wp_read, andThen_ok, hst]
  split
  · exact hR
  split
  · exact hR
  next henabled hstatus => exact absurd hidle (by simp [henabled, hstatus])

theorem wp_onPriceUpdate (hst : store key = some st) (henabled : st.enabled = true)
    (hstatus : st.status = .monitoring ∨ st.status = .triggered)
    (hprofit : calculate st.entryPrice price st.quantity st.side = .ok profit) :
    wp h (onPriceUpdate owner key price) R store w ↔ wp h (act owner key price (evaluate price profit st)) R store w := by
  have hwatch : ¬ (st.status ≠ .monitoring ∧ st.status ≠ .triggered) := by
    rintro ⟨hm, ht⟩
    exact hstatus.elim hm ht
  simp only [onPriceUpdate, bind_eq, wp_bind, wp_read, andThen_ok, hst]
  rw [if_neg (by simp [henabled]), if_neg hwatch, wp_bind, wp_lift, hprofit, andThen_ok]

theorem wp_onPriceUpdate_error {exc : Exn} (hst : store key = some st)
    (hprofit : calculate st.entryPrice price st.quantity st.side = .error exc)
    (hR : ∀ r, R r store w) : wp h (onPriceUpdate owner key price) R store w := by
  simp only [onPriceUpdate, bind_eq, wp_bind, wp_read, andThen_ok, hst]
  split
  · exact hR _
  split
  · exact hR _
  rw [wp_bind, wp_lift, hprofit, andThen_error]
  exact hR _

/-- The state object after the price has triggered the lock. -/
def triggeredState (st : ProfitLockState) (price lockPrice : ℚ) : ProfitLockState :=
  { st with status := .triggered, isTriggered := true, highestPrice := some (raisedHigh st.highestPrice price)
            lockPrice := some lockPrice }

theorem wp_handleTrigger (hst : store key = some st) (hmonitoring : st.status = .monitoring) :
    wp h (handleTrigger (ω := ω) key price (some lockPrice)) R store w ↔
      R (.ok ()) (store.put key (triggeredState st price lockPrice)) w := by
  simp only [handleTrigger, bind_eq, wp_bind, wp_read, andThen_ok, hst]
  rw [if_pos hmonitoring, wp_bind, wp_transition hst (by simp [hmonitoring, transitions]), andThen_ok,
    wp_assign (put_same _ _ _), put_put]
  rfl

omit [ToString κ] in
theorem wp_handleUpdate (hst : store key = some st) :
    wp h (handleUpdate (ω := ω) key price (some lockPrice)) R store w ↔
      R (.ok ()) (store.put key { st with
        highestPrice := some (raisedHigh st.highestPrice price), lockPrice := some lockPrice }) w := by
  simp only [handleUpdate, bind_eq, wp_bind, wp_read, andThen_ok, hst]
  rw [wp_assign hst]

theorem evaluate_cap (henabled : st.enabled = true) (hstatus : st.status = .monitoring ∨ st.status = .triggered)
    (hcap : 0 < st.maxProfitPercentage) (hreached : st.maxProfitPercentage ≤ profit.profitPercentage) :
    evaluate price profit st = { action := .executeLock, newLockPrice := some price } := by
  have hwatch : ¬ (st.status ≠ .monitoring ∧ st.status ≠ .triggered) := by
    rintro ⟨hm, ht⟩
    exact hstatus.elim hm ht
  rw [evaluate, if_neg (by simp [henabled]), if_neg hwatch, if_pos ⟨hcap, hreached⟩]

end

/-- The world with a record of the orders it was asked for. -/
def recorded (h : Handler W (ExecReq ω) (ExecAns ω)) :
    Handler (W × List (UUID → OrderRequest)) (ExecReq ω) (ExecAns ω) := fun w q =>
  ((h w.1 q).1, (h w.1 q).2, match q with
    | .placeOrder _ request => w.2 ++ [request]
    | .cancelOrder _ _ => w.2)

/-- A price update places one lock order at the price, and leaves the lock in EXECUTING. -/
def ExecutesAt (h : Handler W (ExecReq ω) (ExecAns ω)) (owner : κ → ω) (key : κ) (st : ProfitLockState) (price : ℚ)
    (store : Store κ) (w : W) : Prop :=
  wp (recorded h) (onPriceUpdate owner key price) (fun r store' w' =>
    r = .ok () ∧ w'.2 = [lockRequest st price] ∧ ∃ st', store' key = some st' ∧ st'.status = .executing) store (w, [])

/-- The profit cap fires exactly from TRIGGERED. From MONITORING the state machine refuses the order that the policy decides on. -/
theorem cap_fires_iff (hst : store key = some st) (henabled : st.enabled = true)
    (hstatus : st.status = .monitoring ∨ st.status = .triggered) (hcap : 0 < st.maxProfitPercentage)
    (hprofit : calculate st.entryPrice price st.quantity st.side = .ok profit)
    (hreached : st.maxProfitPercentage ≤ profit.profitPercentage) {result : OrderResult}
    (haccept : (h w (.placeOrder (owner key) (lockRequest st price))).1 = .ok result) :
    ExecutesAt h owner key st price store w ↔ st.status = .triggered := by
  rw [ExecutesAt, wp_onPriceUpdate hst henabled hstatus hprofit, evaluate_cap henabled hstatus hcap hreached, act]
  constructor
  · intro hfires
    by_contra htriggered
    refine absurd (wp_and hfires (wp_handleExecute_refused (R := fun r _ _ => r ≠ .ok ()) hst htriggered ?_)) ?_
    · rintro e ⟨⟩
    · rintro ⟨⟨hok, -⟩, hne⟩
      exact hne hok
  · intro htriggered
    rw [wp_handleExecute hst htriggered]
    simp only [recorded, haccept, executed, List.nil_append, true_and]
    exact ⟨_, put_same _ _ _, rfl⟩

def openResult : OrderResult :=
  { orderId := some "1", exchangeOrderId := "77", symbol := "BTCUSDT", side := "sell", orderType := "limit"
    quantity := 1, price := none, filledQuantity := 0, averageFillPrice := none, status := "open" }

/-- A world that accepts every order. -/
def accepting : Handler Unit (ExecReq String) (ExecAns String) := fun w _ => (.ok openResult, w)

def capped : EnableArgs :=
  { exchangeAccountId := some 1, symbol := "BTCUSDT", entryPrice := 100, quantity := 1, side := "long"
    triggerPercentage := 10, trailPercentage := 5, maxProfitPercentage := 20 }

def profitAt120 : ProfitResult :=
  { floatingProfit := 20, profitPercentage := 20, isProfitable := true, entryPrice := 100, currentPrice := 120
    quantity := 1 }

theorem cap_fires_iff_triggered :
    ExecutesAt accepting id "a" { enabledState capped with status := .triggered } 120
      (fun _ => some { enabledState capped with status := .triggered }) () ↔
        ProfitLockStatus.triggered = .triggered :=
  have hprofit : calculate 100 120 1 "long" = .ok profitAt120 := by decide +kernel
  cap_fires_iff rfl rfl (.inr rfl) (by decide) hprofit (by decide) rfl

/-- An enabled lock sees the price jump over its trigger and its cap: the price update raises and no order is placed. -/
theorem cap_refused_from_monitoring :
    (run accepting (enable "a" capped) (fun _ => none) ()).1 = .ok true ∧
      ¬ ExecutesAt accepting id "a" (enabledState capped) 120
        (run accepting (enable "a" capped) (fun _ => none) ()).2.1 () ∧
      calculate 100 120 1 "long" = .ok profitAt120 := by
  refine ⟨by decide +kernel, ?_, by decide +kernel⟩
  rintro ⟨hok, -⟩
  revert hok
  decide +kernel

end Utos.ProfitLock.Ticks
