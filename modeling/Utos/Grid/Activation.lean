import Utos.Grid.Overlap
import Utos.Grid.Pause

namespace Utos.Grid.Activation

open Coroutine Program Core.DomainTypes Core.Exceptions Execution.Models Execution.Service Execution.Exchange
open State CircuitBreaker Planner Engine Trading Invariant BuyTerms Reach Pause PlanTerms Overlap

variable {evaluate : Evaluate} {i : String} {p : ℚ} {a : GridAction} {s : GridEngine} {w : World Owner}

def Active (i : String) (s : GridEngine) : Prop := ∃ g, s.grids i = some g ∧ g.status = .active

/-- The level waits, at a buy price under p. -/
def WaitsBelow (i : String) (p : ℚ) (n : Nat) (s : GridEngine) : Prop :=
  ∃ lv, s.grids.getLevel i n = some lv ∧ lv.status = .waiting ∧ lv.buyPrice < p

theorem Active.assignLevel (h : Active i s) (n : Nat) (f : GridLevel → GridLevel) :
    Active i { s with grids := s.grids.assignLevel i n f } := by
  obtain ⟨g, hg, hact⟩ := h
  refine ⟨{ g with levels := modifyLevel n f g.levels }, ?_, hact⟩
  simp only [State.Store.assignLevel, hg, State.Store.put, Function.update_self]

theorem WaitsBelow.setOrderId {n : Nat} (h : WaitsBelow i p n s) (side : OrderSide) (orderId : OrderId) :
    WaitsBelow i p n { s with grids := s.grids.assignLevel i n (setOrderId side orderId) } := by
  obtain ⟨lv, hlv, hw, hp⟩ := h
  refine ⟨Engine.setOrderId side orderId lv, ?_, ?_, ?_⟩
  · rw [State.Store.getLevel_assignLevel _ _ _ _ (setOrderId_level side orderId), if_pos ⟨rfl, rfl⟩, hlv,
      Option.map_some]
  · cases side <;> exact hw
  · cases side <;> exact hp

/-- A placement that raises leaves its level waiting; one that returns works on its own level only. -/
theorem wp_placeGridOrder (hact : Active i s) (hwait : WaitsBelow i p a.level s) :
    wp handler (placeGridOrder i a) (fun r s' _ => Active i s' ∧ match r with
      | .error _ => WaitsBelow i p a.level s'
      | .ok _ => LevelStep i a.level s s') s w := by
  obtain ⟨g, hg, -⟩ := id hact
  rw [placeGridOrder, bind_eq, wp_bind, wp_read, andThen_ok]
  simp only [hg]
  rw [bind_eq, wp_bind, placeOrder, wp_await]
  cases (handler w (.placeOrder (.level ⟨i, a.level⟩)
      (limitOrder g a.side a.quantity (some a.price)))).1 with
  | error e => exact ⟨hact, hwait⟩
  | ok result =>
      rw [id_eq, andThen_ok, bind_eq, wp_bind, wp_attemptGrids]
      split
      next grids1 hup =>
        obtain ⟨-, rfl⟩ := State.Store.updateLevel_ok hup
        have hact1 := hact.assignLevel a.level (setOrderId a.side result.orderId)
        have hstep := LevelStep.assign i a.level s _ (setOrderId_level a.side result.orderId)
        rw [andThen_ok, bind_eq, wp_bind, wp_attemptGrids]
        split
        next grids2 htr =>
          obtain ⟨lv, -, -, rfl⟩ := State.Store.transitionLevel_ok htr
          exact ⟨hact1.assignLevel a.level (setStatus .opened), hstep.trans (.assign i a.level _ _ (fun _ => rfl))⟩
        next => exact ⟨hact1, hwait.setOrderId a.side result.orderId⟩
      next => exact ⟨hact, hwait⟩

/-- The grid is active, and the actions still to come are for levels that wait below the price. -/
structure Placing (i : String) (p : ℚ) (xs : List GridAction) (s : GridEngine) : Prop where
  active : Active i s
  waits : ∀ a ∈ xs, WaitsBelow i p a.level s
  nodup : (xs.map GridAction.level).Nodup

theorem Placing.next {xs : List GridAction} {s' : GridEngine} (h : Placing i p (a :: xs) s) (hact : Active i s')
    (hstep : LevelStep i a.level s s') : Placing i p xs s' := by
  obtain ⟨hfresh, hnodup⟩ := List.nodup_cons.mp h.nodup
  refine ⟨hact, fun a' ha' => ?_, hnodup⟩
  have hne : a'.level ≠ a.level := fun heq => hfresh (heq ▸ List.mem_map_of_mem ha')
  obtain ⟨lv, hlv, hw, hp⟩ := h.waits a' (by simp [ha'])
  exact ⟨lv, (hstep.levels i a'.level (fun h => hne h.2)).trans hlv, hw, hp⟩

/-- Where the loop of the placements stops, a level that was to be bought on still waits. -/
theorem wp_placeAll {actions : List GridAction} (h : Placing i p actions s) :
    wp handler (placeAll i actions) (fun r s' _ => ∀ e, r = .error e →
      Active i s' ∧ ∃ a ∈ actions, WaitsBelow i p a.level s') s w := by
  refine wp_forEach (fun xs s' _ => (∀ a ∈ xs, a ∈ actions) ∧ Placing i p xs s') _ ?_
    (fun _ _ _ _ he => by cases he) actions ⟨fun _ ha => ha, h⟩
  rintro a xs s1 w1 ⟨hmem, h1⟩
  rw [bind_eq, wp_bind]
  refine wp_mono (wp_placeGridOrder h1.active (h1.waits a (by simp))) ?_
  rintro (e | orderId) s2 w2 ⟨hact, h2⟩
  · exact fun _ _ => ⟨hact, a, hmem a (by simp), h2⟩
  · exact ⟨fun a' ha' => hmem a' (by simp [ha']), h1.next hact h2⟩

theorem placing_start {g : GridState} (hnum : Numbered s.grids) (hg : s.grids i = some g) :
    Placing i p (planInitial g.levels p)
      { s with grids := (s.grids.put i { g with status := .active }).assignGrid i (fun g =>
        { g with currentPrice := some p }) } := by
  constructor
  · refine ⟨{ g with status := .active, currentPrice := some p }, ?_, rfl⟩
    simp [State.Store.assignGrid, State.Store.put]
  · intro a ha
    obtain ⟨lv, hlv, hplan⟩ := List.mem_filterMap.mp ha
    split at hplan
    next hw =>
      cases hplan
      refine ⟨lv, ?_, hw⟩
      have hfind := findLevel_of_mem (hnum i g hg) hlv
      rw [State.Store.getLevel_assignGrid _ i (fun g => { g with currentPrice := some p }) (fun _ => rfl),
        State.Store.getLevel_put, if_pos rfl]
      exact hfind
    next => cases hplan
  · exact (planInitial_levels_sublist g.levels p).nodup (hnum i g hg)

theorem runCall_activate_fails {s : Floor} (hs : Sound ∅ s.engine) {g : GridState}
    (hg : s.engine.grids i = some g) (hinit : g.status = .initialized) {oracle : Oracle} {e : Exn}
    (hfail : (s.runCall evaluate (.activateGrid i p) oracle).1 = .error e) :
    Active i (s.runCall evaluate (.activateGrid i p) oracle).2.engine ∧ ∃ a ∈ planInitial g.levels p,
      WaitsBelow i p a.level (s.runCall evaluate (.activateGrid i p) oracle).2.engine := by
  have hwp : wp handler (perform evaluate (.activateGrid i p)) (fun r s' _ => ∀ e, r = .error e →
      Active i s' ∧ ∃ a ∈ planInitial g.levels p, WaitsBelow i p a.level s') s.engine ⟨s.desk, oracle⟩ := by
    rw [perform, void, wp_bind, activateGrid, bind_eq, wp_bind, wp_read, andThen_ok]
    simp only [hg]
    rw [bind_eq, wp_bind, wp_attemptGrids]
    have htr : s.engine.grids.transitionGrid i .active =
        .ok ((), s.engine.grids.put i { g with status := .active }) := by
      simp [State.Store.transitionGrid, hg, hinit, validateGridTransition, gridTransitions]
    rw [htr]
    simp only
    rw [andThen_ok, bind_eq, wp_bind, setCurrentPrice, modifyGrids, wp_modify, andThen_ok, bind_eq, wp_bind]
    refine wp_mono (wp_placeAll (placing_start hs.numbered hg)) ?_
    rintro (e | u) s1 w1 h
    · exact h
    · exact fun _ he => by cases he
  exact hwp e hfail

/-- At the price of the activation a price update has no buy for the level. -/
theorem not_announced {today : Date} {n : Nat} (hs : Sound ∅ s) (h : WaitsBelow i p n s) :
    (⟨i, n⟩ : LevelKey) ∉ announcedBuys evaluate s today i p := by
  rintro ⟨-, -, -, -, a, ha, -, hlevel⟩
  obtain ⟨lv, hlv, hw, hp⟩ := h
  obtain ⟨lv', hmem, hplan⟩ := mem_plan ha
  have hget := getLevel_of_mem_listLevels hs.numbered hmem
  have hn : lv'.level = n := (planLevel_level hplan).symm.trans hlevel
  rw [hn, hlv, Option.some.injEq] at hget
  subst hget
  simp [planLevel, hw, not_le.mpr hp] at hplan

/-- Every order made since the desk had n of them, if it is a buy, is for one of the levels. -/
def BuysWithin (A : Set LevelKey) (n : Nat) (d : Desk Owner) : Prop :=
  n ≤ d.orders.length ∧ ∀ (r : Nat) (o : Order Owner), n ≤ r → d.orders[r]? = some o → o.side = .buy →
    o.owner.key ∈ A

theorem BuysWithin.settleById {A : Set LevelKey} {n : Nat} {d : Desk Owner} (h : BuysWithin A n d)
    (oracle : Oracle) (key : Option UUID × OrderId) : BuysWithin A n (d.settleById oracle key) := by
  constructor
  · rw [Desk.settleById_length]
    exact h.1
  · intro r o hr ho hside
    obtain ⟨o', state, ho', rfl⟩ := settleById_order ho
    exact h.2 r o' hr ho' hside

theorem BuysWithin.placeOrder {A : Set LevelKey} {n : Nat} {w : World Owner} (h : BuysWithin A n w.desk)
    {owner : Owner} {request : UUID → OrderRequest} (hA : ∀ id, (request id).side = .buy → owner.key ∈ A) :
    BuysWithin A n (handler w (.placeOrder owner request)).2.desk := by
  have hadds := handler_placeOrder_adds w owner request
  constructor
  · exact h.1.trans hadds.length_le
  · intro r o hr ho hside
    rcases hadds.cases ho with hold | ⟨rfl, hnew⟩
    · exact h.2 r o hr hold hside
    · exact hA _ (hnew ▸ hside)

theorem runCall_onPriceUpdate_buys {s : Floor} (hs : Sound ∅ s.engine) (today : Date) (i : String) (p : ℚ)
    (oracle : Oracle) :
    BuysWithin (announcedBuys evaluate s.engine today i p) s.desk.orders.length
      (s.runCall evaluate (.onPriceUpdate today i p) oracle).2.desk := by
  set A := announcedBuys evaluate s.engine today i p with hA
  have hwp := wp_of_under (h := handler) (π := buyTerms) (o := { buys := A })
    (fun (o : Intent) w => (o.buys ⊆ A ∧ o.replaces = none) ∧ BuysWithin A s.desk.orders.length w.desk)
    (fun _ _ => trivial) (fun _ _ _ => trivial) ?_ (onPriceUpdate evaluate today i p)
    (under_onPriceUpdate hs) hs ⟨s.desk, oracle⟩ ⟨⟨subset_rfl, rfl⟩, le_rfl, ?_⟩
  · obtain ⟨o', -, ⟨-, hbuys⟩, -⟩ := hwp
    exact hbuys
  · rintro o s1 q w1 - hask ⟨⟨hsub, hnone⟩, hbuys⟩
    cases q with
    | placeOrder owner request =>
        refine ⟨?_, hbuys.placeOrder (fun id hid => hsub (hask.2 ((hask.1 id) ▸ hid)))⟩
        simp only [buyTerms_spend, Intent.spend]
        split
        · exact ⟨Set.sdiff_subset.trans hsub, hnone⟩
        · exact ⟨hsub, hnone⟩
    | cancelOrder acct orderId =>
        rw [handler_cancelOrder]
        refine ⟨?_, hbuys.settleById _ _⟩
        have hspend : o.spend (.cancelOrder acct orderId) = o := by simp only [Intent.spend, hnone]
        rw [buyTerms_spend, hspend]
        exact ⟨hsub, hnone⟩
  · intro r o hr ho
    have hlt : r < s.desk.orders.length := (List.getElem?_eq_some_iff.mp ho).1
    omega

/-- The exchange has meanwhile made a buy order of the action's level. -/
def Bought (i : String) (d d' : Desk Owner) (a : GridAction) : Prop :=
  ∃ r o, d.orders.length ≤ r ∧ d'.orders[r]? = some o ∧ o.owner = .level ⟨i, a.level⟩ ∧ o.side = .buy

/-- The engine has no order for the action: its level waits. -/
def Unplaced (i : String) (s : GridEngine) (a : GridAction) : Prop :=
  ∃ lv, s.grids.getLevel i a.level = some lv ∧ lv.status = .waiting

/-- What activation left undone can be made good: the activation can be called again,
or the next price update at the same price places the buys that are missing. -/
def Recovers (evaluate : Evaluate) (today : Date) (i : String) (p : ℚ) (planned : List GridAction) (s : Floor)
    (oracle : Oracle) : Prop :=
  (¬ Active i s.engine ∧ (∃ grids, s.engine.grids.transitionGrid i .active = .ok ((), grids)) ∧
      OneBuy (s.runCall evaluate (.activateGrid i p) oracle).2.desk) ∨
    ((∀ a ∈ planned, Unplaced i s.engine a →
        Bought i s.desk (s.runCall evaluate (.onPriceUpdate today i p) oracle).2.desk a) ∧
      OneBuy (s.runCall evaluate (.onPriceUpdate today i p) oracle).2.desk)

/-- Activation commits the transition before it places the first order, so a
second call is refused, and the running plan buys at prices at which the initial
plan does not. -/
theorem not_recovers {s : Floor} (hs : s.Reachable evaluate) {g : GridState} (hg : s.engine.grids i = some g)
    (hinit : g.status = .initialized) {oracle : Oracle} {e : Exn}
    (hfail : (s.runCall evaluate (.activateGrid i p) oracle).1 = .error e) (today : Date) (next : Oracle) :
    ¬ Recovers evaluate today i p (planInitial g.levels p) (s.runCall evaluate (.activateGrid i p) oracle).2
      next := by
  have hsound := reachable_sound hs
  obtain ⟨hact, a, ha, hwait⟩ := runCall_activate_fails hsound hg hinit hfail
  have hsound1 := (runCall_keeps evaluate (.activateGrid i p) hsound (fun k _ hk => by simp at hk) oracle).1
  set s1 := (s.runCall evaluate (.activateGrid i p) oracle).2
  rintro (⟨hidle, -⟩ | ⟨hbuys, -⟩)
  · exact hidle hact
  · obtain ⟨lv, hlv, hw, -⟩ := id hwait
    obtain ⟨r, o, hr, ho, howner, hside⟩ := hbuys a ha ⟨lv, hlv, hw⟩
    have hkey := (runCall_onPriceUpdate_buys hsound1 today i p next).2 r o hr ho hside
    rw [howner] at hkey
    exact not_announced hsound1 hwait hkey

/-- An exchange that takes the first order and refuses the others. -/
def limited : Oracle where
  place request := if request.requestId = 0 then accepted "i" else
    { orders := [], registered := none
      answer := .error (.exchange .orderExecutionError "insufficient balance" "binance" none) }
  cancel _ := cancelSucceeds

def initialized : Floor := (Floor.start true).runEvents (fun _ _ _ => true)
  [.call (.initializeGrid "grid" twoLevels) willing]

def initializedGrid : GridState :=
  { instanceId := "grid", status := .initialized, upperPrice := 120, lowerPrice := 100, gridCount := 2
    gridSpacing := 10, investmentPerGrid := 220
    levels := [{ level := 0, buyPrice := 100, sellPrice := 120, quantity := 11 / 5 },
               { level := 1, buyPrice := 110, sellPrice := 120, quantity := 2 }]
    exchangeAccountId := some 1, symbol := "BTCUSDT" }

/-- Activated at 115 on such an exchange, the grid has a buy at 100 and none at 110. -/
def halfActivated : Floor := (initialized.runCall (fun _ _ _ => true) (.activateGrid "grid" 115) limited).2

theorem not_recovers_halfActivated :
    ¬ Recovers (fun _ _ _ => true) 1 "grid" 115 (planInitial initializedGrid.levels 115) halfActivated willing :=
  not_recovers (e := .exchange .orderExecutionError "insufficient balance" "binance" none) ⟨true, _, rfl⟩
    (by decide +kernel) rfl (by decide +kernel) 1 willing

/-- The second activation is refused, and the price update leaves the level at 110 without an order. -/
theorem halfActivated_stuck :
    initialized.Reachable (fun _ _ _ => true) ∧ initialized.engine.grids "grid" = some initializedGrid ∧
      (initialized.runCall (fun _ _ _ => true) (.activateGrid "grid" 115) limited).1 =
        .error (.exchange .orderExecutionError "insufficient balance" "binance" none) ∧
      ¬ Recovers (fun _ _ _ => true) 1 "grid" 115 (planInitial initializedGrid.levels 115) halfActivated
        willing := by
  refine ⟨⟨true, _, rfl⟩, by decide +kernel, by decide +kernel, ?_⟩
  rintro (⟨hidle, -⟩ | ⟨hbuys, -⟩)
  · have hstatus : (halfActivated.engine.grids "grid").map GridState.status = some .active := by decide +kernel
    obtain ⟨g, hg, hact⟩ := Option.map_eq_some_iff.mp hstatus
    exact hidle ⟨g, hg, hact⟩
  · have hlevel : halfActivated.engine.grids.getLevel "grid" 1 =
        some { level := 1, buyPrice := 110, sellPrice := 120, quantity := 2 } := by decide +kernel
    obtain ⟨r, o, hr, ho, -⟩ := hbuys
      { level := 1, action := .placeBuy, side := .buy, price := 110, quantity := 2 } (by decide +kernel)
      ⟨_, hlevel, rfl⟩
    have hlt := (List.getElem?_eq_some_iff.mp ho).1
    have hsame : (halfActivated.runCall (fun _ _ _ => true) (.onPriceUpdate 1 "grid" 115)
        willing).2.desk.orders.length = halfActivated.desk.orders.length := by decide +kernel
    omega

end Utos.Grid.Activation
