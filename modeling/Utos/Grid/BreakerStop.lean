import Utos.Grid.CallTerms

namespace Utos.Grid.BreakerStop

open Coroutine Program Core.DomainTypes Core.Exceptions Execution.Service Execution.Exchange State CircuitBreaker
open Planner Engine Trading Invariant Terms PlanTerms CallTerms Reach

/-- The ids of the buys that _cancel_all_pending_buys takes for pending. -/
def pendingBuys (levels : List GridLevel) : List OrderId :=
  levels.filterMap (fun lv => if lv.status = .waiting ∧ truthy lv.buyOrderId then some lv.buyOrderId else none)

def pendingKeys (g : GridState) (levels : List GridLevel) : List (Option UUID × OrderId) :=
  (pendingBuys levels).map (fun orderId => (g.exchangeAccountId, orderId))

/-- The exchange carries out every cancel. -/
def CancelsSucceed (oracle : Oracle) : Prop :=
  ∀ ref, (oracle.cancel ref).effect = .cancelled ∧ ∃ result, (oracle.cancel ref).answer = .ok result

theorem handler_cancel {w : World Owner} (hc : CancelsSucceed w.oracle) (acct : Option UUID) (orderId : OrderId) :
    (handler w (.cancelOrder acct orderId)).2 = { w with desk := w.desk.cancelById (acct, orderId) } := by
  rw [handler_cancelOrder, Desk.settleById_of_cancels (fun ref => (hc ref).1)]

theorem wp_cancelPendingBuy {i : String} {g : GridState} {lv : GridLevel} {s : GridEngine} {w : World Owner}
    (hs : Sound ∅ s) (hc : CancelsSucceed w.oracle) (hlv : s.grids.getLevel i lv.level = some lv) :
    wp handler (cancelPendingBuy i g.exchangeAccountId lv.level) (fun r s' w' => r = .ok () ∧ Sound ∅ s' ∧
      (∀ m, m ≠ lv.level → s'.grids.getLevel i m = s.grids.getLevel i m) ∧
      w' = { w with desk := w.desk.cancelIds (pendingKeys g [lv]) }) s w := by
  rw [cancelPendingBuy, bind_eq, wp_bind, wp_read, andThen_ok]
  simp only [hlv]
  split
  next h =>
    have hkeys : pendingKeys g [lv] = [(g.exchangeAccountId, lv.buyOrderId)] := by
      simp [pendingKeys, pendingBuys, h]
    rw [tryCatch_eq, wp_tryCatch, bind_eq, wp_bind, cancelOrder, wp_await, handler_cancel hc, hkeys]
    cases (handler w (.cancelOrder g.exchangeAccountId lv.buyOrderId)).1 with
    | error e => exact ⟨rfl, hs, fun _ _ => rfl, rfl⟩
    | ok result =>
        simp only [id_eq, andThen_ok, modifyGrids, wp_modify, orElse_ok]
        refine ⟨trivial, hs.withGrids (hs.numbered.assignLevel i _ _ (setOrderId_level _ _)), fun m hm => ?_, rfl⟩
        rw [State.Store.getLevel_assignLevel _ _ _ _ (setOrderId_level _ _), if_neg (by simp [hm])]
  next h =>
    have hkeys : pendingKeys g [lv] = [] := by simp [pendingKeys, pendingBuys, h]
    rw [hkeys]
    exact ⟨rfl, hs, fun _ _ => rfl, rfl⟩

theorem pendingKeys_cons (g : GridState) (lv : GridLevel) (levels : List GridLevel) :
    pendingKeys g (lv :: levels) = pendingKeys g [lv] ++ pendingKeys g levels := by
  simp only [pendingKeys, pendingBuys, ← List.map_append, ← List.filterMap_append, List.singleton_append]

theorem wp_cancelAllPendingBuys {i : String} {g : GridState} {s : GridEngine} {w : World Owner}
    (hs : Sound ∅ s) (hc : CancelsSucceed w.oracle) (hg : s.grids i = some g) :
    wp handler (cancelAllPendingBuys i) (fun r s' w' => r = .ok () ∧ Sound ∅ s' ∧
      w' = { w with desk := w.desk.cancelIds (pendingKeys g g.levels) }) s w := by
  rw [cancelAllPendingBuys, bind_eq, wp_bind, wp_read, andThen_ok]
  simp only [hg, forEach_map]
  refine wp_forEach (fun levels s' w' => Sound ∅ s' ∧ (levels.map GridLevel.level).Nodup ∧
    (∀ lv ∈ levels, s'.grids.getLevel i lv.level = some lv) ∧ w'.oracle = w.oracle ∧
    w'.desk.cancelIds (pendingKeys g levels) = w.desk.cancelIds (pendingKeys g g.levels)) _ ?_ ?_ g.levels
    ⟨hs, hs.numbered i g hg, ?_, rfl, rfl⟩
  · rintro lv levels s1 w1 ⟨hs1, hnd, hget, ho, hd⟩
    simp only [List.map_cons, List.nodup_cons, List.mem_map, not_exists, not_and] at hnd
    refine wp_mono (wp_cancelPendingBuy (g := g) hs1 (ho ▸ hc) (hget lv (by simp))) ?_
    rintro _ s2 _ ⟨rfl, hs2, hsame, rfl⟩
    refine ⟨hs2, hnd.2, fun lv' hlv' => ?_, ho, ?_⟩
    · rw [hsame lv'.level (hnd.1 lv' hlv')]
      exact hget lv' (by simp [hlv'])
    · rw [← hd, pendingKeys_cons g lv levels]
      simp only [Desk.cancelIds, List.foldl_append]
  · rintro s1 w1 ⟨hs1, -, -, ho, hd⟩
    refine ⟨rfl, hs1, ?_⟩
    rw [← hd, ← ho]
    rfl
  · intro lv hlv
    rw [State.Store.getLevel_eq hg]
    exact findLevel_of_mem (hs.numbered i g hg) hlv

abbrev SellsAdded (orders : List (Order Owner)) (d : Desk Owner) : Prop :=
  Desk.Adds (fun o => o.side = .sell) orders d

/-- A call that may neither cancel nor buy adds sells to the orders and does nothing else to them. -/
theorem sellsAdded_handler {o : Quota} {s : GridEngine} {q : ExecReq Owner} {w : World Owner}
    {orders : List (Order Owner)} (ha : (terms ∅).asks o s q)
    (h : o.mayBuy = false ∧ o.mayCancel = false ∧ SellsAdded orders w.desk) :
    (o.spend q).mayBuy = false ∧ (o.spend q).mayCancel = false ∧ SellsAdded orders (handler w q).2.desk := by
  obtain ⟨hb, hc, hadds⟩ := h
  cases q with
  | cancelOrder acct orderId =>
      have : o.mayCancel = true := ha.1
      simp [hc] at this
  | placeOrder owner request =>
      obtain ⟨⟨hid, hallow⟩, -⟩ := ha
      cases hside : (request 0).side with
      | buy => simp [hside, hb] at hallow
      | sell =>
          have hall : ∀ id, (request id).side = .sell := fun id => by rw [hid]; exact hside
          refine ⟨by simpa [Quota.spend, hside] using hb, by simpa [Quota.spend, hside] using hc, ?_⟩
          exact hadds.trans ((handler_placeOrder_adds w owner request).mono (fun o ho => ho.2.trans (hall _)))

/-- What a price update may still ask for once the breaker has triggered. -/
def sellsOnly (s : GridEngine) (i : String) (p : ℚ) : Quota where
  sells
    | .level k => plannedSell s i p k.level
    | .lock k => forwardedSell s i p k.level
  mayCancel := false
  mayBuy := false

theorem wp_afterTrigger {evaluate : Evaluate} {i : String} {p m : ℚ} {active : Bool} {s : GridEngine}
    {w : World Owner} (hs : Sound ∅ s) :
    wp handler (.bind (passGate evaluate i p) (fun gate =>
      .bind (executePlan i (!true && gate) (plan (s.grids.listLevels i) p active m))
        (fun _ => forwardToLocks i p))) (fun _ _ w' => SellsAdded w.desk.orders w'.desk) s w := by
  have hfine : Fine ∅ (sellsOnly s i p) s (.bind (passGate evaluate i p) (fun gate =>
      .bind (executePlan i (!true && gate) (plan (s.grids.listLevels i) p active m))
        (fun _ => forwardToLocks i p))) :=
    fine_fromPlan hs (fun _ => rfl) (by simp)
      (fun n lv hlv hf hp => by simp [sellsOnly, plannedSell, hlv, hf, hp])
      (fun hpl ht n lv hlv hf hp => by simp [sellsOnly, forwardedSell, hlv, hf, not_le.mp hp, hpl, ht])
  refine wp_mono (wp_of_under (fun o w' => o.mayBuy = false ∧ o.mayCancel = false ∧
    SellsAdded w.desk.orders w'.desk) (fun _ _ => rfl) (fun _ _ _ => trivial) (fun _ _ _ _ _ ha h => sellsAdded_handler ha h) _ hfine
    hs w ⟨rfl, rfl, .refl _ _⟩) ?_
  rintro r s' w' ⟨o', -, h, -⟩
  exact h.2.2

theorem wp_onPriceUpdate_triggered (evaluate : Evaluate) {today : Date} {i : String} {p : ℚ} {g : GridState}
    {b : CircuitBreakerState} {s : GridEngine} {w : World Owner} (hs : Sound ∅ s) (hc : CancelsSucceed w.oracle)
    (hg : s.grids i = some g) (hact : g.status = .active) (hb : s.breakers i = some b)
    (htrig : (b.checkNewDay today p).shouldTrigger p = true) :
    wp handler (onPriceUpdate evaluate today i p)
      (fun _ _ w' => SellsAdded (w.desk.cancelIds (pendingKeys g g.levels)).orders w'.desk) s w := by
  rw [onPriceUpdate, bind_eq, wp_bind, wp_read, andThen_ok]
  simp only [hg, hact, ne_eq, not_true_eq_false, if_false]
  rw [bind_eq, wp_bind, setCurrentPrice, modifyGrids, wp_modify, andThen_ok, bind_eq, wp_bind, checkBreaker,
    bind_eq, wp_bind, wp_read, andThen_ok]
  simp only [hb, htrig, if_true]
  rw [bind_eq, wp_bind, assignBreaker, wp_modify, andThen_ok, bind_eq, wp_bind]
  have hs1 := (hs.withGrids (hs.numbered.assignGrid i (fun g => { g with currentPrice := some p })
    (fun _ => rfl))).withBreakers (Function.update s.breakers i
      ((s.breakers i).map (fun b => (b.checkNewDay today p).trigger p)))
  have hg1 : (s.grids.assignGrid i (fun g => { g with currentPrice := some p })) i =
      some { g with currentPrice := some p } := by
    simp [State.Store.assignGrid, hg, State.Store.put]
  refine wp_mono (wp_cancelAllPendingBuys hs1 hc hg1) ?_
  rintro _ s2 _ ⟨rfl, hs2, rfl⟩
  rw [andThen_ok, pure_eq, wp_ret, andThen_ok, bind_eq, wp_bind, wp_read, andThen_ok]
  exact wp_afterTrigger hs2

/-- The tick leaves no buy of the instance live, places none, and touches no live sell. -/
structure AveragingStopped (i : String) (s s' : Floor) : Prop where
  buysGone : ∀ (r : Nat) (o : Order Owner), s.desk.orders[r]? = some o → o.owner.key.instanceId = i →
    o.side = .buy → o.state = .live → ¬ s'.desk.IsLive r
  noNewBuy : ∀ (r : Nat) (o : Order Owner), s.desk.orders.length ≤ r → s'.desk.orders[r]? = some o →
    o.owner.key.instanceId = i → o.side = .sell
  sellsKept : ∀ (r : Nat) (o : Order Owner), s.desk.orders[r]? = some o → o.owner.key.instanceId = i →
    o.side = .sell → o.state = .live → s'.desk.orders[r]? = some o

/-- Among the live orders of the instance, the buys are the ones that a level in
status WAITING names in its buy_order_id. -/
def BuysAreWaiting (i : String) (g : GridState) (d : Desk Owner) : Prop :=
  ∀ (r : Nat) (o : Order Owner), d.orders[r]? = some o → o.owner.key.instanceId = i → o.state = .live →
    (o.side = .buy ↔ ∃ lv ∈ g.levels, lv.status = .waiting ∧ truthy lv.buyOrderId ∧
      d.index (g.exchangeAccountId, lv.buyOrderId) = some r)

theorem exists_pendingKeys {g : GridState} {levels : List GridLevel} {P : Option UUID × OrderId → Prop} :
    (∃ key ∈ pendingKeys g levels, P key) ↔
      ∃ lv ∈ levels, lv.status = .waiting ∧ truthy lv.buyOrderId ∧ P (g.exchangeAccountId, lv.buyOrderId) := by
  simp only [pendingKeys, pendingBuys, List.mem_map, List.mem_filterMap, Option.ite_none_right_eq_some,
    Option.some.injEq]
  constructor
  · rintro ⟨_, ⟨_, ⟨lv, hlv, ⟨hw, ht⟩, rfl⟩, rfl⟩, hP⟩
    exact ⟨lv, hlv, hw, ht, hP⟩
  · rintro ⟨lv, hlv, hw, ht, hP⟩
    exact ⟨_, ⟨_, ⟨lv, hlv, ⟨hw, ht⟩, rfl⟩, rfl⟩, hP⟩

theorem side_ne_buy {side : OrderSide} : side ≠ .buy ↔ side = .sell := by cases side <;> simp

/-- What the orders of the desk have become, given that named orders were
cancelled and sells were added. -/
theorem averagingStopped_iff {i : String} {g : GridState} {s s' : Floor}
    (h : SellsAdded (s.desk.cancelIds (pendingKeys g g.levels)).orders s'.desk) :
    AveragingStopped i s s' ↔ BuysAreWaiting i g s.desk := by
  have hold : ∀ (r : Nat) (o : Order Owner), s.desk.orders[r]? = some o → s'.desk.orders[r]? =
      some (if (∃ key ∈ pendingKeys g g.levels, s.desk.index key = some r) ∧ o.state = .live then
        { o with state := .cancelled } else o) := by
    intro r o ho
    refine h.old ?_
    rw [Desk.cancelIds_orders, ho, Option.map_some]
  constructor
  · intro hstop r o ho hi hl
    rw [← exists_pendingKeys (P := fun key => s.desk.index key = some r)]
    constructor
    · intro hbuy
      by_contra hn
      refine hstop.buysGone r o ho hi hbuy hl ⟨o, ?_, hl⟩
      rw [hold r o ho, if_neg (fun h => hn h.1)]
    · intro hnamed
      by_contra hnb
      have hk := hstop.sellsKept r o ho hi (side_ne_buy.mp hnb) hl
      rw [hold r o ho, if_pos ⟨hnamed, hl⟩, Option.some.injEq] at hk
      rw [← hk] at hl
      cases hl
  · intro hnamed
    refine ⟨fun r o ho hi hbuy hl => ?_, fun r o hr ho _ => ?_, fun r o ho hi hsell hl => ?_⟩
    · rintro ⟨o', ho', hl'⟩
      have hn := (hnamed r o ho hi hl).mp hbuy
      rw [← exists_pendingKeys (P := fun key => s.desk.index key = some r)] at hn
      rw [hold r o ho, if_pos ⟨hn, hl⟩, Option.some.injEq] at ho'
      rw [← ho'] at hl'
      cases hl'
    · exact h.new (by simpa using hr) ho
    · have hn : ¬ ∃ key ∈ pendingKeys g g.levels, s.desk.index key = some r := by
        rw [exists_pendingKeys (P := fun key => s.desk.index key = some r), ← hnamed r o ho hi hl, hsell]
        simp
      rw [hold r o ho, if_neg (fun h => hn h.1)]

/-- The breaker stops the averaging in exactly those states in which the live
buys of the instance belong to levels in status WAITING. -/
theorem breaker_stops_averaging_iff {evaluate : Evaluate} {s : Floor} (hs : s.Reachable evaluate) {i : String}
    {today : Date} {p : ℚ} {oracle : Oracle} (hc : CancelsSucceed oracle) {g : GridState}
    (hg : s.engine.grids i = some g) (hact : g.status = .active) {b : CircuitBreakerState}
    (hb : s.engine.breakers i = some b) (htrig : (b.checkNewDay today p).shouldTrigger p = true) :
    AveragingStopped i s (s.runCall evaluate (.onPriceUpdate today i p) oracle).2 ↔ BuysAreWaiting i g s.desk := by
  have h := wp_onPriceUpdate_triggered evaluate (w := ⟨s.desk, oracle⟩) (reachable_sound hs) hc hg
    hact hb htrig
  exact averagingStopped_iff h

def armedBreaker : CircuitBreakerState :=
  (BreakerArgs.breaker "grid" { criticalThreshold := 3 }).checkNewDay 1 115

/-- The grid is active above its levels on a day that opened at 115. -/
def armed : Floor :=
  (Floor.start true).runEvents (fun _ _ _ => true) (.call (.configureCircuitBreaker "grid"
    { criticalThreshold := 3 }) willing :: activated ++ [.call (.onPriceUpdate 1 "grid" 115) willing])

theorem breaker_stops_averaging_iff_armed :
    AveragingStopped "grid" armed (armed.runCall (fun _ _ _ => true) (.onPriceUpdate 1 "grid" 111) willing).2 ↔
      BuysAreWaiting "grid" tradingGrid armed.desk :=
  breaker_stops_averaging_iff ⟨true, _, rfl⟩ (fun _ => ⟨rfl, _, rfl⟩) (by decide +kernel) rfl
    (b := armedBreaker) (by decide +kernel) (by decide +kernel)

/-- The breaker triggers at 111 and both buys stay at the exchange: a level whose
buy is pending is in status OPEN, not WAITING. -/
theorem breaker_leaves_buys :
    armed.Reachable (fun _ _ _ => true) ∧ armed.engine.grids "grid" = some tradingGrid ∧
      armed.engine.breakers "grid" = some armedBreaker ∧
      (armedBreaker.checkNewDay 1 111).shouldTrigger 111 = true ∧
      (armed.runCall (fun _ _ _ => true) (.onPriceUpdate 1 "grid" 111) willing).1 = .ok () ∧
      ¬ AveragingStopped "grid" armed
        (armed.runCall (fun _ _ _ => true) (.onPriceUpdate 1 "grid" 111) willing).2 := by
  refine ⟨⟨true, _, rfl⟩, by decide +kernel, by decide +kernel, by decide +kernel, by decide +kernel, fun h => ?_⟩
  refine h.buysGone 0 { owner := .level ⟨"grid", 0⟩, side := .buy, price := some 100, quantity := 11 / 5
                        state := .live } (by decide +kernel) rfl rfl rfl ?_
  decide +kernel

end Utos.Grid.BreakerStop
