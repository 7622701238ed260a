import Utos.Coroutine.Frame
import Utos.Coroutine.Trace
import Utos.Execution.Exchange
import Utos.ProfitLock.Engine

namespace Utos.ProfitLock.OneLock

open Coroutine Program Core.DomainTypes Core.Exceptions Execution.Models Execution.Service Execution.Validator
open Execution.Exchange State Policy Engine

/-- The operations on the lock of one key. -/
inductive Call
  | enable (args : EnableArgs)
  | disable
  | onPriceUpdate (currentPrice : ℚ)
  | onPositionUpdate (entryPrice quantity : ℚ)
  | onOrderFilled (orderId : OrderId)
  | onOrderCancelled (orderId : OrderId)
  | executeLock (lockPrice : ℚ)

/-- One call runs to its end, or the exchange fills or drops an order meanwhile. -/
inductive Event
  | call (c : Call) (oracle : Oracle)
  | settle (ref : Nat) (effect : CancelEffect)

variable {κ : Type} [DecidableEq κ] [ToString κ]

def void {α : Type} (p : Lock κ κ α) : Lock κ κ Unit := .bind p (fun _ => .ret ())

def operation (key : κ) : Call → Lock κ κ Unit
  | .enable args => void (enable key args)
  | .disable => void (disable key)
  | .onPriceUpdate currentPrice => onPriceUpdate id key currentPrice
  | .onPositionUpdate entryPrice quantity => onPositionUpdate key entryPrice quantity
  | .onOrderFilled orderId => onOrderFilled key orderId
  | .onOrderCancelled orderId => onOrderCancelled key orderId
  | .executeLock lockPrice => void (executeLock id key lockPrice)

def outcome (key : κ) (x : Store κ × Desk κ) (c : Call) (oracle : Oracle) : Except Exn Unit × Store κ × Desk κ :=
  run (deskHandler oracle) (operation key c) x.1 x.2

def step (key : κ) (x : Store κ × Desk κ) : Event → Store κ × Desk κ
  | .call c oracle => (outcome key x c oracle).2
  | .settle ref effect => (x.1, x.2.settle ref effect)

variable {key : κ} {store : Store κ} {d d' : Desk κ} {st : ProfitLockState} {oracle : Oracle}

/-- An order of the lock is live at the exchange. -/
def Live (key : κ) (d : Desk κ) (r : Nat) : Prop :=
  ∃ o : Order κ, d.orders[r]? = some o ∧ o.owner = key ∧ o.state = .live

def NoneLive (key : κ) (d : Desk κ) : Prop := ∀ r, ¬ Live key d r

/-- At most one order of the lock is live, and it is the one that the state names. -/
structure OneLock (key : κ) (store : Store κ) (d : Desk κ) : Prop where
  single : ∀ r r', Live key d r → Live key d r' → r = r'
  named : ∀ r, Live key d r → ∃ st, store key = some st ∧ st.lockOrderId ≠ none ∧
    d.index (st.exchangeAccountId, st.lockOrderId) = some r

/-- The exchange makes at most one live order of a placement, and only if it
answers with the id the order is then known by. -/
def Clean (fate : PlaceFate) : Prop :=
  ∀ n, fate.orders[n]? = some true → n + 1 = fate.orders.length ∧ ∃ result, fate.answer = .ok result ∧
    result.orderId ≠ none ∧ fate.registered = some result.orderId

/-- The call asks for a lock order at the price, if the lock is TRIGGERED. -/
def Asks (st : ProfitLockState) (lockPrice : ℚ) : Call → Prop
  | .executeLock price => price = lockPrice
  | .onPriceUpdate currentPrice => ∃ profit, calculate st.entryPrice currentPrice st.quantity st.side = .ok profit ∧
      evaluate currentPrice profit st = { action := .executeLock, newLockPrice := some lockPrice }
  | _ => False

def MeetsCall (key : κ) (store : Store κ) (d : Desk κ) (oracle : Oracle) : Call → Prop
  | .enable args => 0 < args.triggerPercentage → 0 < args.trailPercentage → args.trailPercentage < 100 → NoneLive key d
  | .disable => ∀ r, Live key d r → ∃ st, store key = some st ∧ truthy st.lockOrderId ∧
      (oracle.cancel r).effect ≠ .unchanged
  | .onOrderFilled orderId => ∀ st, store key = some st → st.lockOrderId = orderId → st.status = .executing →
      NoneLive key d
  | .onOrderCancelled orderId => ∀ st, store key = some st → st.lockOrderId = orderId → st.status = .executing →
      NoneLive key d
  | c => ∀ st lockPrice, store key = some st → st.status = .triggered → Asks st lockPrice c →
      validate (lockRequest st lockPrice d.asked.length) = .ok () →
      Clean (oracle.place (lockRequest st lockPrice d.asked.length))

/-- A lock is enabled, and a fill or a cancel of its order is reported, only when
no order of it is live; the cancel of a disable takes effect; and placements are clean. -/
def Meets (key : κ) (x : Store κ × Desk κ) : Event → Prop
  | .call c oracle => MeetsCall key x.1 x.2 oracle c
  | .settle _ _ => True

/-- After the event there is one lock order at most, and none if it was a disable that returns. -/
def Holds (key : κ) (x : Store κ × Desk κ) : Event → Prop
  | .call .disable oracle => OneLock key (outcome key x .disable oracle).2.1 (outcome key x .disable oracle).2.2 ∧
      ((outcome key x .disable oracle).1 = .ok () → NoneLive key (outcome key x .disable oracle).2.2)
  | e => OneLock key (step key x e).1 (step key x e).2

/-- The invariant: a live order is named by the state, and the state is EXECUTING. -/
def Guarded (key : κ) (lock : Option ProfitLockState) (d : Desk κ) : Prop :=
  ∀ r, Live key d r → ∃ st, lock = some st ∧ st.status = .executing ∧ st.lockOrderId ≠ none ∧
    d.index (st.exchangeAccountId, st.lockOrderId) = some r

omit [DecidableEq κ] [ToString κ] in
theorem NoneLive.guarded (h : NoneLive key d) (lock : Option ProfitLockState) : Guarded key lock d :=
  fun r hr => absurd hr (h r)

omit [DecidableEq κ] [ToString κ] in
theorem Guarded.noneLive (h : Guarded key (some st) d) (hst : st.status ≠ .executing) : NoneLive key d := by
  intro r hr
  obtain ⟨st', hst', hexec, -⟩ := h r hr
  cases hst'
  exact hst hexec

omit [DecidableEq κ] [ToString κ] in
theorem Guarded.oneLock (h : Guarded key (store key) d) : OneLock key store d := by
  constructor
  · intro r r' hr hr'
    obtain ⟨st, hst, -, -, hindex⟩ := h r hr
    obtain ⟨st', hst', -, -, hindex'⟩ := h r' hr'
    cases hst.symm.trans hst'
    exact Option.some_inj.mp (hindex.symm.trans hindex')
  · intro r hr
    obtain ⟨st, hst, -, hid, hindex⟩ := h r hr
    exact ⟨st, hst, hid, hindex⟩

section

variable {R : Except Exn Unit → Store κ → Desk κ → Prop} {target : ProfitLockStatus}

theorem wp_transition (hst : store key = some st) (herr : ∀ e, target ∉ transitions st.status → R (.error e) store d)
    (hok : target ∈ transitions st.status → R (.ok ()) (store.put key { st with status := target }) d) :
    wp (deskHandler oracle) (transition (ω := κ) key target) R store d := by
  rw [transition, wp_attempt, State.Store.transition, hst]
  by_cases hmem : target ∈ transitions st.status
  · simp only [validateTransition, if_pos hmem]
    exact hok hmem
  · simp only [validateTransition, if_neg hmem]
    exact herr _ hmem

omit [ToString κ] in
theorem wp_assign (hst : store key = some st) {f : ProfitLockState → ProfitLockState}
    (hR : R (.ok ()) (store.put key (f st)) d) : wp (deskHandler oracle) (assign (ω := κ) key f) R store d := by
  rw [assign, wp_modify, State.Store.assign, hst]
  exact hR

end

omit [ToString κ] in
@[simp] theorem put_self (store : Store κ) (key : κ) (st : ProfitLockState) : store.put key st key = some st :=
  Function.update_self _ _ _

theorem wp_enable {args : EnableArgs} (hs : Guarded key (store key) d)
    (hmeets : MeetsCall key store d oracle (.enable args)) :
    wp (deskHandler oracle) (enable (ω := κ) key args) (fun _ store' d' => Guarded key (store' key) d') store d := by
  unfold enable
  split
  · exact hs
  split
  · exact hs
  split
  · exact hs
  next htrigger htrail hcap => exact (hmeets (not_le.mp htrigger) (not_le.mp htrail) (not_le.mp hcap)).guarded _

omit [DecidableEq κ] [ToString κ] in
theorem live_settleById {k : Option UUID × OrderId} {r : Nat} (hlive : Live key (d.settleById oracle k) r) :
    Live key d r ∧ (d.index k = some r → (oracle.cancel r).effect = .unchanged) := by
  obtain ⟨o, ho, howner, hstate⟩ := hlive
  obtain ⟨hold, hun⟩ := settleById_live ho hstate
  exact ⟨⟨o, hold, howner, hstate⟩, hun⟩

theorem wp_disabled (hst : store key = some st) (hnone : NoneLive key d) :
    wp (deskHandler oracle) (do
      transition key .disabled
      assign key (fun st => { st with enabled := false, isTriggered := false, lockOrderId := none })
      return true) (fun _ _ d' => NoneLive key d') store d := by
  rw [bind_eq, wp_bind]
  refine wp_transition hst (fun _ _ => hnone) (fun _ => ?_)
  rw [andThen_ok, bind_eq, wp_bind]
  exact wp_assign (put_self _ _ _) hnone

theorem wp_disable (hs : Guarded key (store key) d) (hmeets : MeetsCall key store d oracle .disable) :
    wp (deskHandler oracle) (disable (ω := κ) key) (fun _ _ d' => NoneLive key d') store d := by
  rw [disable, bind_eq, wp_bind, wp_read, andThen_ok]
  cases hst : store key with
  | none =>
      intro r hr
      obtain ⟨st, hst', -⟩ := hs r hr
      rw [hst] at hst'
      cases hst'
  | some st =>
      rw [hst] at hs
      simp only
      split
      next hexec =>
        rw [bind_eq, wp_bind, tryCatch_eq, wp_tryCatch, bind_eq, wp_bind, cancelOrder, wp_await]
        have hnone : NoneLive key (d.settleById oracle (st.exchangeAccountId, st.lockOrderId)) := by
          intro r hr
          obtain ⟨hold, hun⟩ := live_settleById hr
          obtain ⟨st', hst', -, -, hindex⟩ := hs r hold
          cases hst'
          obtain ⟨-, -, -, heffect⟩ := hmeets r hold
          exact heffect (hun hindex)
        rw [deskHandler_cancelOrder]
        cases (deskHandler oracle d (.cancelOrder st.exchangeAccountId st.lockOrderId)).1 with
        | error e => exact wp_disabled hst hnone
        | ok result => exact wp_disabled hst hnone
      next hidle =>
        refine wp_disabled hst (fun r hr => hidle ?_)
        obtain ⟨st', hst', hexec, -⟩ := hs r hr
        cases hst'
        obtain ⟨st'', hst'', htruthy, -⟩ := hmeets r hr
        cases hst.symm.trans hst''
        exact ⟨hexec, htruthy⟩

omit [DecidableEq κ] [ToString κ] in
theorem live_accept {request : OrderRequest} {fate : PlaceFate} {r : Nat} (hclean : Clean fate)
    (hlive : Live key ((({ d with asked := key :: d.asked } : Desk κ)).accept key request fate) r) :
    Live key d r ∨ ∃ result, fate.answer = .ok result ∧ result.orderId ≠ none ∧
      ((({ d with asked := key :: d.asked } : Desk κ)).accept key request fate).index
        (request.exchangeAccountId, result.orderId) = some r := by
  obtain ⟨o, ho, howner, hstate⟩ := hlive
  simp only [Desk.accept] at ho
  by_cases hr : r < d.orders.length
  · rw [List.getElem?_append_left hr] at ho
    exact .inl ⟨o, ho, howner, hstate⟩
  · have hle : d.orders.length ≤ r := not_lt.mp hr
    rw [List.getElem?_append_right hle, List.getElem?_map] at ho
    obtain ⟨isLive, hn, rfl⟩ := Option.map_eq_some_iff.mp ho
    have htrue : isLive = true := by
      cases isLive with
      | true => rfl
      | false => cases hstate
    subst htrue
    obtain ⟨hlast, result, hanswer, hid, hregistered⟩ := hclean _ hn
    have hne : fate.orders ≠ [] := by
      intro hnil
      rw [hnil] at hn
      cases hn
    have hindex : d.orders.length + fate.orders.length - 1 = r := by omega
    refine .inr ⟨result, hanswer, hid, ?_⟩
    simp [Desk.accept, hregistered, hne, hindex]

theorem wp_placeLockOrder {lockPrice : ℚ} (hs : Guarded key (store key) d)
    (hmeets : ∀ st, store key = some st → st.status = .triggered →
      validate (lockRequest st lockPrice d.asked.length) = .ok () →
        Clean (oracle.place (lockRequest st lockPrice d.asked.length))) :
    wp (deskHandler oracle) (placeLockOrder (id : κ → κ) key lockPrice)
      (fun _ store' d' => Guarded key (store' key) d') store d := by
  rw [placeLockOrder, bind_eq, wp_bind, wp_read, andThen_ok]
  cases hst : store key with
  | none =>
      rw [hst] at hs
      exact (congrArg (fun lock => Guarded key lock d) hst).mpr hs
  | some st =>
      simp only
      rw [bind_eq, wp_bind]
      refine wp_transition hst (fun _ _ => hs) (fun hmem => ?_)
      have htriggered : st.status = .triggered := by
        revert hmem
        cases st.status <;> simp [transitions]
      rw [hst] at hs
      have hnone : NoneLive key d := hs.noneLive (by simp [htriggered])
      have hfailed : ∀ d' : Desk κ, NoneLive key d' → ∀ exc : Exn,
          wp (deskHandler oracle) (do
            transition key .error
            throw (.profitLockError s!"Failed to place lock order: {exc.message}") : Lock κ κ Bool)
            (fun _ store' d' => Guarded key (store' key) d')
            (store.put key { st with status := .executing }) d' := by
        intro d' hnone' exc
        rw [bind_eq, wp_bind]
        exact wp_transition (put_self _ _ _) (fun _ _ => hnone'.guarded _) (fun _ => hnone'.guarded _)
      rw [andThen_ok, tryCatch_eq, wp_tryCatch, bind_eq, wp_bind, placeOrder, wp_await]
      simp only [deskHandler, handler, id_eq]
      cases hvalid : validate (lockRequest st lockPrice d.asked.length) with
      | error e => exact hfailed { d with asked := key :: d.asked } hnone e
      | ok u =>
          have hclean := hmeets st hst htriggered hvalid
          simp only
          cases hanswer : (oracle.place (lockRequest st lockPrice d.asked.length)).answer with
          | error e =>
              refine hfailed _ (fun r hr => ?_) e
              rcases live_accept hclean hr with hold | ⟨result, hresult, -⟩
              · exact hnone r hold
              · rw [hanswer] at hresult
                cases hresult
          | ok result =>
              rw [andThen_ok, bind_eq, wp_bind]
              refine wp_assign (put_self _ _ _) ?_
              intro r hr
              rcases live_accept hclean hr with hold | ⟨result', hresult, hid, hindex⟩
              · exact absurd hold (hnone r)
              · rw [hanswer] at hresult
                cases hresult
                exact ⟨_, put_self _ _ _, rfl, hid, hindex⟩

theorem keeps_transition {target : ProfitLockStatus} :
    Keeps (deskHandler oracle) (fun _ d => NoneLive key d) (transition (ω := κ) key target) :=
  keeps_attempt (fun _ _ _ _ _ h => h)

omit [ToString κ] in
theorem keeps_assign {f : ProfitLockState → ProfitLockState} :
    Keeps (deskHandler oracle) (fun _ d => NoneLive key d) (assign (ω := κ) key f) := keeps_modify (fun _ _ h => h)

theorem keeps_handleTrigger {currentPrice : ℚ} {lockPrice : Option ℚ} :
    Keeps (deskHandler oracle) (fun _ d => NoneLive key d) (handleTrigger (ω := κ) key currentPrice lockPrice) := by
  refine keeps_read_bind (fun store => ?_)
  cases store key with
  | none => exact keeps_ret ()
  | some st =>
      cases lockPrice with
      | none => exact keeps_ret ()
      | some lockPrice =>
          simp only
          split
          · exact keeps_bind keeps_transition (fun _ => keeps_assign)
          · exact keeps_assign

omit [ToString κ] in
theorem keeps_handleUpdate {currentPrice : ℚ} {lockPrice : Option ℚ} :
    Keeps (deskHandler oracle) (fun _ d => NoneLive key d) (handleUpdate (ω := κ) key currentPrice lockPrice) := by
  refine keeps_read_bind (fun store => ?_)
  cases store key with
  | none => exact keeps_ret ()
  | some st =>
      cases lockPrice with
      | none => exact keeps_ret ()
      | some lockPrice => exact keeps_assign

theorem wp_onPriceUpdate {currentPrice : ℚ} (hs : Guarded key (store key) d)
    (hmeets : MeetsCall key store d oracle (.onPriceUpdate currentPrice)) :
    wp (deskHandler oracle) (onPriceUpdate (id : κ → κ) key currentPrice)
      (fun _ store' d' => Guarded key (store' key) d') store d := by
  rw [onPriceUpdate, bind_eq, wp_bind, wp_read, andThen_ok]
  cases hst : store key with
  | none => exact hs
  | some st =>
      simp only
      split
      · exact hs
      split
      · exact hs
      next hstatus =>
        have hs' := hs
        rw [hst] at hs'
        have hnone : NoneLive key d := hs'.noneLive (fun hexec => hstatus ⟨by simp [hexec], by simp [hexec]⟩)
        have hrest : ∀ {p : Lock κ κ Unit}, Keeps (deskHandler oracle) (fun _ d => NoneLive key d) p →
            wp (deskHandler oracle) p (fun _ store' d' => Guarded key (store' key) d') store d :=
          fun hp => wp_of_keeps hp hnone (fun _ _ _ h => h.guarded _)
        rw [bind_eq, wp_bind, wp_lift]
        cases hprofit : calculate st.entryPrice currentPrice st.quantity st.side with
        | error e => exact hs
        | ok profit =>
            rw [andThen_ok, act]
            cases hdecision : (evaluate currentPrice profit st).action with
            | none => exact hs
            | triggerLock => exact hrest keeps_handleTrigger
            | updateLock => exact hrest keeps_handleUpdate
            | executeLock =>
                cases hprice : (evaluate currentPrice profit st).newLockPrice with
                | none => exact hs
                | some lockPrice =>
                    simp only [handleExecute]
                    rw [bind_eq, wp_bind]
                    refine wp_mono (wp_placeLockOrder hs (fun st' hst' htriggered => ?_)) ?_
                    · cases hst.symm.trans hst'
                      refine hmeets st lockPrice hst htriggered ⟨profit, hprofit, ?_⟩
                      rw [← hdecision, ← hprice]
                    · rintro (e | b) store' d' h'
                      · exact h'
                      · exact h'

theorem wp_executeLock {lockPrice : ℚ} (hs : Guarded key (store key) d)
    (hmeets : MeetsCall key store d oracle (.executeLock lockPrice)) :
    wp (deskHandler oracle) (executeLock (id : κ → κ) key lockPrice)
      (fun _ store' d' => Guarded key (store' key) d') store d := by
  rw [executeLock, bind_eq, wp_bind, wp_read, andThen_ok]
  cases hst : store key with
  | none => exact hs
  | some st => exact wp_placeLockOrder hs (fun st' hst' htriggered => hmeets st' lockPrice hst' htriggered rfl)

omit [ToString κ] in
theorem wp_onPositionUpdate {entryPrice quantity : ℚ} (hs : Guarded key (store key) d) :
    wp (deskHandler oracle) (onPositionUpdate (ω := κ) key entryPrice quantity)
      (fun _ store' d' => Guarded key (store' key) d') store d := by
  rw [onPositionUpdate, assign, wp_modify, State.Store.assign]
  cases hst : store key with
  | none => exact hs
  | some st =>
      intro r hr
      obtain ⟨st', hst', hexec, hid, hindex⟩ := hs r hr
      cases hst.symm.trans hst'
      exact ⟨_, put_self _ _ _, hexec, hid, hindex⟩

theorem wp_onReported {orderId : OrderId} {target : ProfitLockStatus} {f : ProfitLockState → ProfitLockState}
    (hs : Guarded key (store key) d)
    (hmeets : ∀ st, store key = some st → st.lockOrderId = orderId → st.status = .executing → NoneLive key d) :
    wp (deskHandler oracle) (do
      match (← .read) key with
      | none => pure ()
      | some state =>
          if state.lockOrderId ≠ orderId then pure ()
          else if state.status ≠ .executing then pure ()
          else
            transition key target
            assign key f : Lock κ κ Unit) (fun _ store' d' => Guarded key (store' key) d') store d := by
  rw [bind_eq, wp_bind, wp_read, andThen_ok]
  cases hst : store key with
  | none => exact hs
  | some st =>
      simp only
      split
      · exact hs
      split
      · exact hs
      next hid hexec =>
        have hnone := hmeets st hst (not_not.mp hid) (not_not.mp hexec)
        exact wp_of_keeps (keeps_bind keeps_transition (fun _ => keeps_assign)) hnone (fun _ _ _ h => h.guarded _)

omit [DecidableEq κ] [ToString κ] in
theorem wp_void {α : Type} {p : Lock κ κ α} {P : Store κ → Desk κ → Prop}
    (hp : wp (deskHandler oracle) p (fun _ store' d' => P store' d') store d) :
    wp (deskHandler oracle) (void p) (fun _ store' d' => P store' d') store d := by
  rw [void, wp_bind]
  refine wp_mono hp ?_
  rintro (e | a) store' d' h'
  · exact h'
  · exact h'

theorem wp_operation {c : Call} (hs : Guarded key (store key) d) (hmeets : MeetsCall key store d oracle c) :
    wp (deskHandler oracle) (operation key c) (fun _ store' d' => Guarded key (store' key) d') store d := by
  cases c with
  | enable args => exact wp_void (wp_enable hs hmeets)
  | disable => exact wp_void (wp_mono (wp_disable hs hmeets) (fun _ _ _ h => h.guarded _))
  | onPriceUpdate currentPrice => exact wp_onPriceUpdate hs hmeets
  | onPositionUpdate entryPrice quantity => exact wp_onPositionUpdate hs
  | onOrderFilled orderId => exact wp_onReported hs hmeets
  | onOrderCancelled orderId => exact wp_onReported hs hmeets
  | executeLock lockPrice => exact wp_void (wp_executeLock hs hmeets)

omit [DecidableEq κ] [ToString κ] in
theorem live_settle {ref r : Nat} {effect : CancelEffect} (hlive : Live key (d.settle ref effect) r) : Live key d r := by
  obtain ⟨o, ho, howner, hstate⟩ := hlive
  exact ⟨o, (settle_live ho hstate).1, howner, hstate⟩

theorem guarded_step {x : Store κ × Desk κ} {e : Event} (hs : Guarded key (x.1 key) x.2) (hmeets : Meets key x e) :
    Guarded key ((step key x e).1 key) (step key x e).2 := by
  cases e with
  | call c oracle => exact wp_operation hs hmeets
  | settle ref effect =>
      intro r hr
      obtain ⟨st, hst, hexec, hid, hindex⟩ := hs r (live_settle hr)
      exact ⟨st, hst, hexec, hid, by simpa [step] using hindex⟩

theorem holds_of_meets {x : Store κ × Desk κ} {e : Event} (hs : Guarded key (x.1 key) x.2) (hmeets : Meets key x e) :
    Holds key x e := by
  have hnext := (guarded_step hs hmeets).oneLock
  cases e with
  | settle ref effect => exact hnext
  | call c oracle =>
      cases c with
      | disable => exact ⟨hnext, fun _ => wp_void (P := fun _ d => NoneLive key d) (wp_disable hs hmeets)⟩
      | _ => exact hnext

/-- In a run whose events all meet the condition there is one lock order at most
after every event, and none after a disable. -/
theorem holds_of_allMeet (key : κ) {events : List Event}
    (hmeets : AllMeet (step key) (Meets key) (fun _ => none, {}) events) :
    AllMeet (step key) (Holds key) (fun _ => none, {}) events := by
  refine allMeet_of_keeps (I := fun x => Guarded key (x.1 key) x.2) (fun x e hx he => ?_) (fun r hr => ?_) hmeets
  · exact ⟨holds_of_meets hx he, guarded_step hx he⟩
  obtain ⟨o, ho, -⟩ := hr
  simp at ho

def placed : OrderResult :=
  { orderId := some "1", exchangeOrderId := "77", symbol := "BTCUSDT", side := "sell", orderType := "limit"
    quantity := 1, price := none, filledQuantity := 0, averageFillPrice := none, status := "open" }

/-- An exchange that accepts every order, and deals with every cancel in the same way. -/
def accepting (fate : CancelFate) : Oracle where
  place _ := { orders := [true], registered := some (some "1"), answer := .ok placed }
  cancel _ := fate

def cancels : CancelFate := { effect := .cancelled, answer := .ok placed }

def timesOut : CancelFate := { effect := .unchanged, answer := .error (.timeoutError "timeout") }

theorem clean_accepting (fate : CancelFate) (request : OrderRequest) : Clean ((accepting fate).place request) := by
  intro n hn
  have hlt : n < 1 := (List.getElem?_eq_some_iff.mp hn).1
  exact ⟨by simp only [accepting, List.length_singleton]; omega, placed, rfl, by decide, rfl⟩

/-- A lock is enabled at 100, trails the price up to 120, and is executed on its way down. -/
def executed : List Event :=
  [.call (.enable { exchangeAccountId := some 1, symbol := "BTCUSDT", entryPrice := 100, quantity := 1, side := "long"
                    triggerPercentage := 10, trailPercentage := 5 }) (accepting cancels),
    .call (.onPriceUpdate 120) (accepting cancels), .call (.onPriceUpdate 113) (accepting cancels)]

theorem holds_of_allMeet_disabled :
    AllMeet (step "a") (Holds "a") (fun _ => none, {}) (executed ++ [.call .disable (accepting cancels)]) := by
  refine holds_of_allMeet "a" (allMeet_append.mpr ⟨⟨fun _ _ _ r hr => ?_, ?_, ?_, trivial⟩, fun r _ => ?_, trivial⟩)
  · obtain ⟨o, ho, -⟩ := hr
    simp at ho
  · exact fun _ _ _ _ _ _ => clean_accepting _ _
  · exact fun _ _ _ _ _ _ => clean_accepting _ _
  · have hid : ((executed.foldl (step "a") (fun _ => none, {})).1 "a").map (fun st => truthy st.lockOrderId) =
        some true := by decide +kernel
    obtain ⟨st, hst, htruthy⟩ := Option.map_eq_some_iff.mp hid
    exact ⟨st, hst, htruthy, by simp [accepting, cancels]⟩

/-- The cancel of the lock order fails, and disable returns all the same. -/
theorem failed_cancel_leaves_lock_order :
    ¬ AllMeet (step "a") (Holds "a") (fun _ => none, {}) (executed ++ [.call .disable (accepting timesOut)]) := by
  intro h
  have hdisable := (allMeet_append.mp h).2.1.2 (by decide +kernel)
  have hlive : ∃ o ∈ ((outcome "a" (executed.foldl (step "a") (fun _ => none, {})) .disable
      (accepting timesOut)).2.2.orders[0]?), o.owner = "a" ∧ o.state = .live := by decide +kernel
  obtain ⟨o, ho, howner, hstate⟩ := hlive
  exact hdisable 0 ⟨o, ho, howner, hstate⟩

end Utos.ProfitLock.OneLock
