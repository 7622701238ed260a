import Utos.ProfitLock.Ticks
import Mathlib.Tactic.Linarith

namespace Utos.ProfitLock.Course

open Coroutine Program Core.DomainTypes Core.Exceptions Execution.Models Execution.Service State Policy Engine Ticks

/-- What reaches a lock that was enabled: prices, and reports about its orders. -/
inductive Event
  | tick (price : ℚ)
  | filled (orderId : OrderId)
  | cancelled (orderId : OrderId)

def Event.prices : Event → List ℚ
  | .tick price => [price]
  | .filled _ => []
  | .cancelled _ => []

variable {κ ω W : Type} [DecidableEq κ] [ToString κ]

def handle (owner : κ → ω) (key : κ) : Event → Lock κ ω Unit
  | .tick price => onPriceUpdate owner key price
  | .filled orderId => onOrderFilled key orderId
  | .cancelled orderId => onOrderCancelled key orderId

/-- The lock after the events so far, the orders asked for on its behalf, the
prices processed in MONITORING or TRIGGERED, and those among them from the one on that triggered the lock. -/
structure Ride (κ W : Type) where
  store : Store κ
  world : W
  placed : List (UUID → OrderRequest) := []
  seen : List ℚ := []
  since : List ℚ := []

def watching (lock : Option ProfitLockState) : Bool :=
  match lock with
  | some st => st.status = .monitoring ∨ st.status = .triggered
  | none => false

def isTriggered (lock : Option ProfitLockState) : Bool :=
  match lock with
  | some st => st.isTriggered
  | none => false

namespace Ride

variable (h : Handler W (ExecReq ω) (ExecAns ω)) (owner : κ → ω) (key : κ)

/-- The lock right after it was enabled. -/
def start (args : EnableArgs) (store : Store κ) (w : W) : Ride κ W :=
  { store := (run h (enable key args) store w).2.1, world := (run h (enable key args) store w).2.2 }

/-- An event is handled to its end. The caller of on_price_update goes on after an exception. -/
def take (c : Ride κ W) (e : Event) : Ride κ W :=
  let after := run (recorded h) (handle owner key e) c.store (c.world, c.placed)
  let prices := if watching (c.store key) then e.prices else []
  { store := after.2.1
    world := after.2.2.1
    placed := after.2.2.2
    seen := c.seen ++ prices
    since := if isTriggered (after.2.1 key) then c.since ++ prices else [] }

def after (args : EnableArgs) (store : Store κ) (w : W) (events : List Event) : Ride κ W :=
  events.foldl (take h owner key) (start h key args store w)

@[simp] theorem after_append (args : EnableArgs) (store : Store κ) (w : W) (events more : List Event) :
    after h owner key args store w (events ++ more) = more.foldl (take h owner key) (after h owner key args store w events) :=
  List.foldl_append

end Ride

/-- The profit of a side at a price, as a percentage of the entry price. -/
def gain (side : String) (entryPrice price : ℚ) : ℚ :=
  if side = "long" then (price - entryPrice) / entryPrice * 100 else (entryPrice - price) / entryPrice * 100

theorem calculate_ok {entryPrice price quantity : ℚ} {side : String} {profit : ProfitResult}
    (h : calculate entryPrice price quantity side = .ok profit) :
    0 < entryPrice ∧ 0 < price ∧ 0 < quantity ∧ profit.profitPercentage = gain side entryPrice price := by
  unfold calculate validate at h
  split at h
  next => cases h
  next hentry =>
  split at h
  next => cases h
  next hprice =>
  split at h
  next => cases h
  next hquantity =>
  rw [not_le] at hentry hprice hquantity
  refine ⟨hentry, hprice, hquantity, ?_⟩
  have hinvestment : 0 < entryPrice * quantity := mul_pos hentry hquantity
  by_cases hlong : side = "long"
  · simp only [floatingProfit, if_pos hlong, Bind.bind, Except.bind, Pure.pure, Except.pure, if_pos hinvestment,
      Except.ok.injEq] at h
    subst h
    rw [gain, if_pos hlong, mul_div_mul_right _ _ hquantity.ne']
  by_cases hshort : side = "short"
  · simp only [floatingProfit, if_neg hlong, if_pos hshort, Bind.bind, Except.bind, Pure.pure, Except.pure,
      if_pos hinvestment, Except.ok.injEq] at h
    subst h
    rw [gain, if_neg hlong, mul_div_mul_right _ _ hquantity.ne']
  · simp [floatingProfit, hlong, hshort, Bind.bind, Except.bind] at h

theorem calculate_defined {entryPrice price quantity : ℚ} {side : String} (hentry : 0 < entryPrice) (hprice : 0 < price)
    (hquantity : 0 < quantity) (hside : side = "long" ∨ side = "short") :
    ∃ profit, calculate entryPrice price quantity side = .ok profit := by
  have hvalid : validate entryPrice price quantity = .ok () := by
    rw [validate, if_neg (not_le.mpr hentry), if_neg (not_le.mpr hprice), if_neg (not_le.mpr hquantity)]
  rcases hside with rfl | rfl
  · exact ⟨_, by simp only [calculate, hvalid]; rfl⟩
  · exact ⟨_, by simp only [calculate, hvalid]; rfl⟩

def CapReached (st : ProfitLockState) (profit : ProfitResult) : Prop :=
  0 < st.maxProfitPercentage ∧ st.maxProfitPercentage ≤ profit.profitPercentage

def lockBelow (st : ProfitLockState) (high : ℚ) : ℚ := high * (1 - st.trailPercentage / 100)

def NewHigh (st : ProfitLockState) (price : ℚ) : Prop :=
  st.highestPrice.getD 0 < newHighest st.highestPrice price ∧
    ∀ lock ∈ st.lockPrice, lock < lockBelow st (newHighest st.highestPrice price)

/-- What one event does to a lock, and the orders it asks for. -/
inductive Moves (h : Handler W (ExecReq ω) (ExecAns ω)) (o : ω) :
    Event → ProfitLockState → ProfitLockState → List (UUID → OrderRequest) → Prop
  | unwatched {p st} : st.enabled = false ∨ st.status ≠ .monitoring ∧ st.status ≠ .triggered →
      Moves h o (.tick p) st st []
  | uncalculated {p st exc} : calculate st.entryPrice p st.quantity st.side = .error exc → Moves h o (.tick p) st st []
  | capRefused {p st profit} : st.status = .monitoring → calculate st.entryPrice p st.quantity st.side = .ok profit →
      CapReached st profit → Moves h o (.tick p) st st []
  | below {p st profit} : st.status = .monitoring → calculate st.entryPrice p st.quantity st.side = .ok profit →
      ¬ CapReached st profit → profit.profitPercentage < st.triggerPercentage → Moves h o (.tick p) st st []
  | trigger {p st profit} : st.status = .monitoring → calculate st.entryPrice p st.quantity st.side = .ok profit →
      ¬ CapReached st profit → st.triggerPercentage ≤ profit.profitPercentage →
      Moves h o (.tick p) st (triggeredState st p (lockBelow st (newHighest st.highestPrice p))) []
  | trail {p st profit} : st.status = .triggered → calculate st.entryPrice p st.quantity st.side = .ok profit →
      ¬ CapReached st profit → NewHigh st p →
      Moves h o (.tick p) st { st with
        highestPrice := some (raisedHigh st.highestPrice p)
        lockPrice := some (lockBelow st (newHighest st.highestPrice p)) } []
  | hold {p st profit} : st.status = .triggered → calculate st.entryPrice p st.quantity st.side = .ok profit →
      ¬ CapReached st profit → ¬ NewHigh st p → (∀ lock ∈ st.lockPrice, lock < p) → Moves h o (.tick p) st st []
  | execute {p st profit lock result w} : st.status = .triggered →
      calculate st.entryPrice p st.quantity st.side = .ok profit →
      CapReached st profit ∧ lock = p ∨ ¬ CapReached st profit ∧ ¬ NewHigh st p ∧ st.lockPrice = some lock ∧ p ≤ lock →
      (h w (.placeOrder o (lockRequest st lock))).1 = .ok result →
      Moves h o (.tick p) st { st with status := .executing, lockOrderId := result.orderId } [lockRequest st lock]
  | fail {p st profit lock exc w} : st.status = .triggered →
      calculate st.entryPrice p st.quantity st.side = .ok profit →
      CapReached st profit ∧ lock = p ∨ ¬ CapReached st profit ∧ ¬ NewHigh st p ∧ st.lockPrice = some lock ∧ p ≤ lock →
      (h w (.placeOrder o (lockRequest st lock))).1 = .error exc →
      Moves h o (.tick p) st { st with status := .error } [lockRequest st lock]
  | fill {st} : st.status = .executing →
      Moves h o (.filled st.lockOrderId) st { st with status := .locked, isExecuted := true, lockOrderId := none } []
  | cancel {st} : st.status = .executing →
      Moves h o (.cancelled st.lockOrderId) st { st with status := .triggered, lockOrderId := none } []
  | unknown {e st} : e.prices = [] → Moves h o e st st []

section

variable {h : Handler W (ExecReq ω) (ExecAns ω)} {owner : κ → ω} {key : κ} {store : Store κ} {st : ProfitLockState}
variable {w : W × List (UUID → OrderRequest)} {price : ℚ} {profit : ProfitResult}

theorem evaluate_monitoring (henabled : st.enabled = true) (hstatus : st.status = .monitoring)
    (hcap : ¬ CapReached st profit) : evaluate price profit st =
      if st.triggerPercentage ≤ profit.profitPercentage then
        { action := .triggerLock, newLockPrice := some (lockBelow st (newHighest st.highestPrice price)) }
      else { action := .none } := by
  unfold CapReached at hcap
  rw [evaluate, if_neg (by simp [henabled]), if_neg (by simp [hstatus]), if_neg hcap]
  simp only [hstatus]
  rfl

theorem evaluate_triggered (henabled : st.enabled = true) (hstatus : st.status = .triggered)
    (hcap : ¬ CapReached st profit) :
    evaluate price profit st = evaluateTriggered price (newHighest st.highestPrice price) st := by
  unfold CapReached at hcap
  rw [evaluate, if_neg (by simp [henabled]), if_neg (by simp [hstatus]), if_neg hcap]
  simp only [hstatus]

theorem evaluateTriggered_newHigh (hhigh : NewHigh st price) :
    evaluateTriggered price (newHighest st.highestPrice price) st =
      { action := .updateLock, newLockPrice := some (lockBelow st (newHighest st.highestPrice price)) } := by
  unfold NewHigh lockBelow at hhigh
  unfold evaluateTriggered
  exact if_pos hhigh

theorem evaluateTriggered_noHigh (hhigh : ¬ NewHigh st price) :
    evaluateTriggered price (newHighest st.highestPrice price) st =
      match st.lockPrice with
      | some lock =>
          if price ≤ lock then { action := .executeLock, newLockPrice := some lock } else { action := .none }
      | .none => { action := .none } := by
  unfold NewHigh lockBelow at hhigh
  unfold evaluateTriggered
  exact if_neg hhigh

/-- What is left of an event: the lock moved, and the orders of the move were asked for. -/
def Moved (h : Handler W (ExecReq ω) (ExecAns ω)) (owner : κ → ω) (key : κ) (e : Event) (st : ProfitLockState)
    (placed : List (UUID → OrderRequest)) (store' : Store κ) (placed' : List (UUID → OrderRequest)) : Prop :=
  ∃ st' asked, store' key = some st' ∧ placed' = placed ++ asked ∧ Moves h (owner key) e st st' asked

omit [DecidableEq κ] [ToString κ] in
theorem moved_stay {e : Event} (hst : store key = some st) (hm : Moves h (owner key) e st st []) :
    Moved h owner key e st w.2 store w.2 := ⟨st, [], hst, (List.append_nil _).symm, hm⟩

omit [ToString κ] in
theorem moved_put {e : Event} {st' : ProfitLockState} (hm : Moves h (owner key) e st st' []) :
    Moved h owner key e st w.2 (store.put key st') w.2 := ⟨st', [], put_same _ _ _, (List.append_nil _).symm, hm⟩

theorem wp_execute {lock : ℚ} (hst : store key = some st) (hstatus : st.status = .triggered)
    (hprofit : calculate st.entryPrice price st.quantity st.side = .ok profit)
    (hlock : CapReached st profit ∧ lock = price ∨
      ¬ CapReached st profit ∧ ¬ NewHigh st price ∧ st.lockPrice = some lock ∧ price ≤ lock) :
    wp (recorded h) (handleExecute owner key (some lock))
      (fun _ store' w' => Moved h owner key (.tick price) st w.2 store' w'.2) store w := by
  rw [wp_handleExecute hst hstatus]
  cases hanswer : (h w.1 (.placeOrder (owner key) (lockRequest st lock))).1 with
  | ok result =>
      simp only [recorded, hanswer, executed]
      exact ⟨_, _, put_same _ _ _, rfl, .execute hstatus hprofit hlock hanswer⟩
  | error exc =>
      simp only [recorded, hanswer, executed]
      exact ⟨_, _, put_same _ _ _, rfl, .fail hstatus hprofit hlock hanswer⟩

theorem wp_tick_monitoring (hst : store key = some st) (henabled : st.enabled = true) (hstatus : st.status = .monitoring)
    (hprofit : calculate st.entryPrice price st.quantity st.side = .ok profit) :
    wp (recorded h) (act owner key price (evaluate price profit st))
      (fun _ store' w' => Moved h owner key (.tick price) st w.2 store' w'.2) store w := by
  by_cases hcap : CapReached st profit
  · rw [evaluate_cap henabled (.inl hstatus) hcap.1 hcap.2]
    apply wp_handleExecute_refused hst (by simp [hstatus])
    exact fun _ => moved_stay hst (.capRefused hstatus hprofit hcap)
  rw [evaluate_monitoring henabled hstatus hcap]
  by_cases htrigger : st.triggerPercentage ≤ profit.profitPercentage
  · rw [if_pos htrigger]
    exact (wp_handleTrigger hst hstatus).mpr (moved_put (.trigger hstatus hprofit hcap htrigger))
  · rw [if_neg htrigger]
    exact moved_stay hst (.below hstatus hprofit hcap (not_le.mp htrigger))

theorem wp_tick_triggered (hst : store key = some st) (henabled : st.enabled = true) (hstatus : st.status = .triggered)
    (hprofit : calculate st.entryPrice price st.quantity st.side = .ok profit) :
    wp (recorded h) (act owner key price (evaluate price profit st))
      (fun _ store' w' => Moved h owner key (.tick price) st w.2 store' w'.2) store w := by
  by_cases hcap : CapReached st profit
  · rw [evaluate_cap henabled (.inr hstatus) hcap.1 hcap.2]
    exact wp_execute hst hstatus hprofit (.inl ⟨hcap, rfl⟩)
  rw [evaluate_triggered henabled hstatus hcap]
  by_cases hhigh : NewHigh st price
  · rw [evaluateTriggered_newHigh hhigh]
    exact (wp_handleUpdate hst).mpr (moved_put (.trail hstatus hprofit hcap hhigh))
  rw [evaluateTriggered_noHigh hhigh]
  cases hlock : st.lockPrice with
  | none => exact moved_stay hst (.hold hstatus hprofit hcap hhigh (by simp [hlock]))
  | some lock =>
      simp only
      by_cases hle : price ≤ lock
      · rw [if_pos hle]
        exact wp_execute hst hstatus hprofit (.inr ⟨hcap, hhigh, hlock, hle⟩)
      · rw [if_neg hle]
        exact moved_stay hst (.hold hstatus hprofit hcap hhigh (by simpa [hlock] using hle))

theorem wp_onOrderFilled {orderId : OrderId} (hst : store key = some st) :
    wp (recorded h) (onOrderFilled (ω := ω) key orderId)
      (fun _ store' w' => Moved h owner key (.filled orderId) st w.2 store' w'.2) store w := by
  simp only [onOrderFilled, bind_eq, wp_bind, wp_read, andThen_ok, hst]
  split
  · exact moved_stay hst (.unknown rfl)
  split
  · exact moved_stay hst (.unknown rfl)
  next hid hstatus =>
    rw [ne_eq, not_not] at hid hstatus
    subst hid
    rw [wp_bind, wp_transition hst (by simp [hstatus, transitions]), andThen_ok, wp_assign (put_same _ _ _), put_put]
    exact moved_put (.fill hstatus)

theorem wp_onOrderCancelled {orderId : OrderId} (hst : store key = some st) :
    wp (recorded h) (onOrderCancelled (ω := ω) key orderId)
      (fun _ store' w' => Moved h owner key (.cancelled orderId) st w.2 store' w'.2) store w := by
  simp only [onOrderCancelled, bind_eq, wp_bind, wp_read, andThen_ok, hst]
  split
  · exact moved_stay hst (.unknown rfl)
  split
  · exact moved_stay hst (.unknown rfl)
  next hid hstatus =>
    rw [ne_eq, not_not] at hid hstatus
    subst hid
    rw [wp_bind, wp_transition hst (by simp [hstatus, transitions]), andThen_ok, wp_assign (put_same _ _ _), put_put]
    exact moved_put (.cancel hstatus)

theorem wp_handle {e : Event} (hst : store key = some st) :
    wp (recorded h) (handle owner key e) (fun _ store' w' => Moved h owner key e st w.2 store' w'.2) store w := by
  cases e with
  | filled orderId => exact wp_onOrderFilled hst
  | cancelled orderId => exact wp_onOrderCancelled hst
  | tick price =>
      by_cases hidle : st.enabled = false ∨ st.status ≠ .monitoring ∧ st.status ≠ .triggered
      · exact wp_onPriceUpdate_idle hst hidle (moved_stay hst (.unwatched hidle))
      have henabled : st.enabled = true := by simpa using fun hf => hidle (.inl hf)
      cases hprofit : calculate st.entryPrice price st.quantity st.side with
      | error exc => exact wp_onPriceUpdate_error hst hprofit (fun _ => moved_stay hst (.uncalculated hprofit))
      | ok profit =>
          by_cases hm : st.status = .monitoring
          · exact (wp_onPriceUpdate hst henabled (.inl hm) hprofit).mpr (wp_tick_monitoring hst henabled hm hprofit)
          have ht : st.status = .triggered := by
            by_contra hne
            exact hidle (.inr ⟨hm, hne⟩)
          exact (wp_onPriceUpdate hst henabled (.inr ht) hprofit).mpr (wp_tick_triggered hst henabled ht hprofit)

theorem Ride.take_moved {r : Ride κ W} {e : Event} (hst : r.store key = some st) :
    Moved h owner key e st r.placed (r.take h owner key e).store (r.take h owner key e).placed :=
  wp_handle (w := (r.world, r.placed)) hst

end

end Utos.ProfitLock.Course
