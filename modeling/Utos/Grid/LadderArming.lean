import Utos.Grid.Activation
import Utos.Grid.EvenGrid
import Utos.Grid.Ladder
import Utos.Grid.PlanStable
import Mathlib.Data.List.TakeWhile

namespace Utos.Grid.LadderArming

open Coroutine Program Core.DomainTypes Core.Exceptions Execution.Models Execution.Service Execution.Exchange
open Execution.Validator State CircuitBreaker Planner Calculator Engine Invariant Terms Trading Pause PlanStable Ladder

variable {evaluate : Evaluate} {i : String} {args : InitArgs} {a : GridAction} {xs : List GridAction}
  {g : GridState} {w : World Owner} {levels : List GridLevel} {steps : List AveragingStep}

/-- An exchange that takes every order it is given. -/
def Accepting (oracle : Oracle) : Prop :=
  ∀ request, (oracle.place request).orders = [true] ∧ ∃ result, (oracle.place request).answer = .ok result

/-- The order is a live buy of the level. -/
def LiveBuy (d : Desk Owner) (k : LevelKey) (r : Nat) : Prop :=
  ∃ o, d.orders[r]? = some o ∧ o.owner.key = k ∧ o.side = .buy ∧ o.state = .live

/-- initialize_grid, then activate_grid at the start price. -/
def arm (evaluate : Evaluate) (i : String) (args : InitArgs) (s : Floor) (initializing activating : Oracle) : Floor :=
  ((s.runCall evaluate (.initializeGrid i args) initializing).2.runCall evaluate
    (.activateGrid i args.upperPrice) activating).2

/-- The validator has nothing against the order of the action. -/
def takes (args : InitArgs) (a : GridAction) : Bool :=
  args.exchangeAccountId ≠ none ∧ blank args.symbol = false ∧ 0 < a.quantity ∧ 0 < a.price

/-- The order that the exchange makes of the action. -/
def orderOf (i : String) (a : GridAction) : Order Owner :=
  { owner := .level ⟨i, a.level⟩, side := a.side, price := some a.price, quantity := a.quantity, state := .live }

/-- The levels of the grid wait for the actions to be carried out. -/
structure Ready (args : InitArgs) (xs : List GridAction) (g : GridState) : Prop where
  account : g.exchangeAccountId = args.exchangeAccountId
  symbol : g.symbol = args.symbol
  waits : ∀ a ∈ xs, ∃ lv, findLevel a.level g.levels = some lv ∧ lv.status = .waiting
  nodup : (xs.map GridAction.level).Nodup

theorem Ready.next (h : Ready args (a :: xs) g) (orderId : OrderId) :
    Ready args xs (moved g a.level a.side orderId .opened) := by
  obtain ⟨hfresh, hnodup⟩ := List.nodup_cons.mp h.nodup
  refine ⟨h.account, h.symbol, fun a' ha' => ?_, hnodup⟩
  have hne : a'.level ≠ a.level := fun heq => hfresh (heq ▸ List.mem_map_of_mem ha')
  have hother : findLevel a'.level (moved g a.level a.side orderId .opened).levels = findLevel a'.level g.levels := by
    rw [moved, findLevel_modifyLevel _ _ (setStatus .opened) (fun _ => rfl), if_neg hne,
      findLevel_modifyLevel _ _ _ (setOrderId_level a.side orderId), if_neg hne]
  rw [hother]
  exact h.waits a' (List.mem_cons_of_mem a ha')

/-- What an accepting exchange makes of a placement. -/
theorem handler_placement (hw : Accepting w.oracle) (h : Ready args xs g) (a : GridAction) :
    (handler w (placement g i a)).2.oracle = w.oracle ∧
      (takes args a = true ∧ (∃ result, (handler w (placement g i a)).1 = .ok result) ∧
          (handler w (placement g i a)).2.desk.orders = w.desk.orders ++ [orderOf i a] ∨
        takes args a = false ∧ (∃ e, (handler w (placement g i a)).1 = .error e) ∧
          (handler w (placement g i a)).2.desk.orders = w.desk.orders) := by
  have hvalid : validate (limitOrder g a.side a.quantity (some a.price) w.desk.asked.length) = .ok () ↔
      takes args a = true := by
    rw [EvenGrid.validate_limitOrder_iff, h.account, h.symbol, takes, decide_eq_true_eq]
  simp only [handler, placement]
  cases hv : validate (limitOrder g a.side a.quantity (some a.price) w.desk.asked.length) with
  | error e =>
      rw [hv] at hvalid
      refine ⟨rfl, .inr ⟨?_, ⟨e, rfl⟩, rfl⟩⟩
      simpa using hvalid
  | ok u =>
      obtain ⟨horders, result, hresult⟩ := hw (limitOrder g a.side a.quantity (some a.price) w.desk.asked.length)
      refine ⟨rfl, .inl ⟨hvalid.mp hv, ⟨result, hresult⟩, ?_⟩⟩
      simp only [Desk.accept, horders]
      rfl

theorem wp_placeGridOrder_error {s : GridEngine} {e : Exn} (he : (handler w (placement g i a)).1 = .error e)
    (hg : s.grids i = some g) {R : Except Exn OrderId → GridEngine → World Owner → Prop}
    (hR : R (.error e) s (handler w (placement g i a)).2) : wp handler (placeGridOrder i a) R s w := by
  rw [placeGridOrder, bind_eq, wp_bind, wp_read, andThen_ok]
  simp only [hg]
  rw [placement] at he hR
  rw [bind_eq, wp_bind, placeOrder, wp_await, he, id_eq]
  exact hR

/-- The orders up to the first that the validator refuses reach the exchange. -/
theorem wp_placeAll_accepting {s : GridEngine} (hready : Ready args xs g) (hg : s.grids i = some g)
    (hw : Accepting w.oracle) :
    wp handler (placeAll i xs)
      (fun _ _ w' => w'.desk.orders = w.desk.orders ++ (xs.takeWhile (takes args)).map (orderOf i)) s w := by
  refine wp_forEach (fun rest s' w' => Accepting w'.oracle ∧ (∃ g', s'.grids i = some g' ∧ Ready args rest g') ∧
    w'.desk.orders ++ (rest.takeWhile (takes args)).map (orderOf i) =
      w.desk.orders ++ (xs.takeWhile (takes args)).map (orderOf i)) _ ?_ ?_ xs ⟨hw, ⟨g, hg, hready⟩, rfl⟩
  · rintro a rest s1 w1 ⟨hw1, ⟨g1, hg1, hready1⟩, horders⟩
    rw [bind_eq, wp_bind]
    obtain ⟨lv, hlv, hwaits⟩ := hready1.waits a List.mem_cons_self
    have hmove : GridLevelStatus.opened ∈ levelTransitions lv.status := by
      rw [hwaits]
      decide
    obtain ⟨horacle, ⟨htakes, ⟨result, hresult⟩, hadded⟩ | ⟨htakes, ⟨e, he⟩, hsame⟩⟩ :=
      handler_placement (i := i) hw1 hready1 a
    · have hrest : (handler w1 (placement g1 i a)).2.desk.orders ++ (rest.takeWhile (takes args)).map (orderOf i) =
          w.desk.orders ++ (xs.takeWhile (takes args)).map (orderOf i) := by
        rw [hadded, ← horders, List.takeWhile_cons_of_pos htakes, List.map_cons, List.append_assoc,
          List.singleton_append]
      exact wp_placeGridOrder_ok hresult hg1 hlv hmove ⟨horacle ▸ hw1, ⟨_, Function.update_self _ _ _,
        hready1.next result.orderId⟩, hrest⟩
    · refine wp_placeGridOrder_error he hg1 ?_
      rw [andThen_error, iterPost_error, hsame, ← horders, List.takeWhile_cons_of_neg (by simp [htakes]),
        List.map_nil, List.append_nil]
  · rintro s1 w1 ⟨-, -, horders⟩
    rwa [List.takeWhile_nil, List.map_nil, List.append_nil] at horders

/-- The grid has the levels of the ladder and is for the account and the symbol of the arguments. -/
structure Laid (args : InitArgs) (levels : List GridLevel) (g : GridState) : Prop where
  levels : g.levels = levels
  account : g.exchangeAccountId = args.exchangeAccountId
  symbol : g.symbol = args.symbol

theorem initialState_averaging
    (hlevels : calculateLevelsWithAveraging args.upperPrice args.investmentPerGrid args.averagingSteps = .ok levels) :
    ∃ g, initialState i args = .ok g ∧ g.status = .idle ∧ Laid args levels g := by
  have hne : args.averagingSteps.steps ≠ [] := by
    intro hnil
    rw [calculateLevelsWithAveraging, if_pos hnil] at hlevels
    cases hlevels
  rw [initialState, if_neg hne, hlevels]
  exact ⟨_, rfl, rfl, ⟨rfl, rfl, rfl⟩⟩

theorem runCall_initializeGrid (s : Floor) (oracle : Oracle)
    (hlevels : calculateLevelsWithAveraging args.upperPrice args.investmentPerGrid args.averagingSteps = .ok levels) :
    (∃ g, (s.runCall evaluate (.initializeGrid i args) oracle).2.engine.grids i = some g ∧
        g.status = .initialized ∧ Laid args levels g) ∧
      (s.runCall evaluate (.initializeGrid i args) oracle).2.desk = s.desk := by
  obtain ⟨g, hg, hidle, hlaid⟩ := initialState_averaging (i := i) hlevels
  have hwp : wp handler (perform evaluate (.initializeGrid i args)) (fun _ s' w' =>
      (∃ g, s'.grids i = some g ∧ g.status = .initialized ∧ Laid args levels g) ∧ w'.desk = s.desk) s.engine
      ⟨s.desk, oracle⟩ := by
    have hmove : GridStatus.initialized ∈ gridTransitions g.status := by
      rw [hidle]
      decide
    rw [perform, initializeGrid, hg, bind_eq, wp_bind, wp_lift, andThen_ok, bind_eq, wp_bind, modifyGrids, wp_modify,
      andThen_ok, wp_attemptGrids_ok (State.Store.transitionGrid_eq (Function.update_self _ _ _) hmove)]
    exact ⟨⟨_, Function.update_self _ _ _, rfl, hlaid.levels, hlaid.account, hlaid.symbol⟩, rfl⟩
  exact hwp

theorem planInitial_waiting {p : ℚ} (ha : a ∈ planInitial levels p) :
    ∃ lv ∈ levels, a = placeBuyOf lv ∧ lv.status = .waiting ∧ lv.buyPrice < p := by
  obtain ⟨lv, hlv, hplan⟩ := List.mem_filterMap.mp ha
  split at hplan
  next hw =>
    cases hplan
    exact ⟨lv, hlv, rfl, hw⟩
  next => cases hplan

theorem runCall_activate_orders {s : Floor} {oracle : Oracle} {p : ℚ} (horacle : Accepting oracle)
    (hg : s.engine.grids i = some g) (hinit : g.status = .initialized) (hlaid : Laid args levels g)
    (hnodup : (levels.map GridLevel.level).Nodup) :
    (s.runCall evaluate (.activateGrid i p) oracle).2.desk.orders =
      s.desk.orders ++ ((planInitial levels p).takeWhile (takes args)).map (orderOf i) := by
  have hwp : wp handler (perform evaluate (.activateGrid i p)) (fun _ _ w' => w'.desk.orders =
      s.desk.orders ++ ((planInitial levels p).takeWhile (takes args)).map (orderOf i)) s.engine
      ⟨s.desk, oracle⟩ := by
    have hmove : GridStatus.active ∈ gridTransitions g.status := by
      rw [hinit]
      decide
    rw [perform, void, wp_bind, activateGrid, bind_eq, wp_bind, wp_read, andThen_ok]
    simp only [hg]
    rw [bind_eq, wp_bind, wp_attemptGrids_ok (State.Store.transitionGrid_eq hg hmove), andThen_ok, bind_eq, wp_bind,
      setCurrentPrice, modifyGrids, wp_modify, andThen_ok, bind_eq, wp_bind, hlaid.levels]
    have hready : Ready args (planInitial levels p) { g with status := .active, currentPrice := some p } := by
      refine ⟨hlaid.account, hlaid.symbol, fun a ha => ?_, (planInitial_levels_sublist levels p).nodup hnodup⟩
      obtain ⟨lv, hlv, rfl, hwaits, -⟩ := planInitial_waiting ha
      exact ⟨lv, hlaid.levels ▸ findLevel_of_mem hnodup hlv, hwaits⟩
    refine wp_mono (wp_placeAll_accepting hready ?_ horacle) ?_
    · simp only [State.Store.assignGrid, State.Store.put, Function.update_self, hlaid.levels]
    · rintro (e | u) s1 w1 horders
      · exact horders
      · exact horders
  exact hwp

theorem arm_orders (s : Floor) (initializing : Oracle) {activating : Oracle} (hactivating : Accepting activating)
    (hlevels : calculateLevelsWithAveraging args.upperPrice args.investmentPerGrid args.averagingSteps = .ok levels) :
    (arm evaluate i args s initializing activating).desk.orders =
      s.desk.orders ++ ((planInitial levels args.upperPrice).takeWhile (takes args)).map (orderOf i) := by
  obtain ⟨⟨g, hg, hinit, hlaid⟩, hdesk⟩ := @runCall_initializeGrid evaluate i args levels s initializing hlevels
  rw [arm, runCall_activate_orders hactivating hg hinit hlaid (calculateLevelsWithAveraging_spec hlevels).1, hdesk]

/-- Every level of the ladder has exactly one live buy. -/
def Armed (i : String) (levels : List GridLevel) (d : Desk Owner) : Prop :=
  ∀ lv ∈ levels, ∃! r, LiveBuy d ⟨i, lv.level⟩ r

theorem liveBuy_append {d d' : Desk Owner} {n r : Nat} (hstart : ∀ r, ¬ LiveBuy d ⟨i, n⟩ r)
    (horders : d'.orders = d.orders ++ xs.map (orderOf i)) (hbuys : ∀ a ∈ xs, a.side = .buy) :
    LiveBuy d' ⟨i, n⟩ r ↔ ∃ k, r = d.orders.length + k ∧ (xs.map GridAction.level)[k]? = some n := by
  rw [LiveBuy, horders]
  rcases Nat.lt_or_ge r d.orders.length with hlt | hge
  · rw [List.getElem?_append_left hlt]
    refine iff_of_false (hstart r) ?_
    rintro ⟨k, rfl, -⟩
    omega
  · obtain ⟨k, rfl⟩ := Nat.exists_eq_add_of_le hge
    rw [List.getElem?_append_right hge, Nat.add_sub_cancel_left, List.getElem?_map]
    constructor
    · rintro ⟨o, ho, howner, -⟩
      obtain ⟨a, ha, rfl⟩ := Option.map_eq_some_iff.mp ho
      refine ⟨k, rfl, ?_⟩
      rw [List.getElem?_map, ha, Option.map_some]
      exact congrArg (fun key => some (LevelKey.level key)) howner
    · rintro ⟨k', hk, ha⟩
      obtain rfl : k = k' := by omega
      rw [List.getElem?_map, Option.map_eq_some_iff] at ha
      obtain ⟨a, ha, rfl⟩ := ha
      exact ⟨orderOf i a, congrArg (Option.map (orderOf i)) ha, rfl, hbuys a (List.mem_of_getElem? ha), rfl⟩

theorem existsUnique_liveBuy {d d' : Desk Owner} {n : Nat} (hstart : ∀ r, ¬ LiveBuy d ⟨i, n⟩ r)
    (horders : d'.orders = d.orders ++ xs.map (orderOf i)) (hbuys : ∀ a ∈ xs, a.side = .buy)
    (hnodup : (xs.map GridAction.level).Nodup) :
    (∃! r, LiveBuy d' ⟨i, n⟩ r) ↔ n ∈ xs.map GridAction.level := by
  simp only [liveBuy_append hstart horders hbuys, List.mem_iff_getElem?]
  constructor
  · rintro ⟨r, ⟨k, -, hk⟩, -⟩
    exact ⟨k, hk⟩
  · rintro ⟨k, hk⟩
    refine ⟨d.orders.length + k, ⟨k, rfl, hk⟩, ?_⟩
    rintro r ⟨k', rfl, hk'⟩
    obtain ⟨hlt, -⟩ := List.getElem?_eq_some_iff.mp hk
    rw [(List.getElem?_inj hlt hnodup).mp (hk.trans hk'.symm)]

/-- The plan arms a level if the level and those before it lie below the price and can be ordered. -/
theorem placed_iff {p : ℚ} (hnodup : (levels.map GridLevel.level).Nodup) (hwaits : ∀ lv ∈ levels, lv.status = .waiting) :
    (∀ lv ∈ levels, lv.level ∈ ((planInitial levels p).takeWhile (takes args)).map GridAction.level) ↔
      ∀ lv ∈ levels, lv.buyPrice < p ∧ takes args (placeBuyOf lv) = true := by
  constructor
  · intro h lv hlv
    obtain ⟨a, ha, hlevel⟩ := List.mem_map.mp (h lv hlv)
    have htakes := List.mem_takeWhile_imp ha
    obtain ⟨lv', hlv', rfl, -, hbelow⟩ := planInitial_waiting ((List.takeWhile_sublist _).mem ha)
    obtain rfl : lv' = lv := List.inj_on_of_nodup_map hnodup hlv' hlv hlevel
    exact ⟨hbelow, htakes⟩
  · intro h lv hlv
    have hplan : planInitial levels p = levels.map placeBuyOf := by
      rw [planInitial, ← List.filterMap_eq_map]
      exact List.filterMap_congr (fun lv hlv => if_pos ⟨hwaits lv hlv, (h lv hlv).1⟩)
    rw [hplan, List.takeWhile_eq_self_iff.mpr, List.map_map]
    · exact List.mem_map_of_mem hlv
    · intro a ha
      obtain ⟨lv', hlv', rfl⟩ := List.mem_map.mp ha
      exact (h lv' hlv').2

theorem armed_iff_placed {s : Floor} (initializing : Oracle) {activating : Oracle} (hactivating : Accepting activating)
    (hlevels : calculateLevelsWithAveraging args.upperPrice args.investmentPerGrid args.averagingSteps = .ok levels)
    (hstart : ∀ n r, ¬ LiveBuy s.desk ⟨i, n⟩ r) :
    Armed i levels (arm evaluate i args s initializing activating).desk ↔
      ∀ lv ∈ levels, lv.buyPrice < args.upperPrice ∧ takes args (placeBuyOf lv) = true := by
  obtain ⟨hnodup, hfresh⟩ := calculateLevelsWithAveraging_spec hlevels
  have hplaced : ((planInitial levels args.upperPrice).takeWhile (takes args)).Sublist
      (planInitial levels args.upperPrice) := List.takeWhile_sublist _
  have hbuys : ∀ a ∈ (planInitial levels args.upperPrice).takeWhile (takes args), a.side = .buy := by
    intro a ha
    obtain ⟨lv, -, rfl, -⟩ := planInitial_waiting (hplaced.mem ha)
    rfl
  have hdistinct := ((hplaced.map GridAction.level).trans
    (planInitial_levels_sublist levels args.upperPrice)).nodup hnodup
  rw [← placed_iff hnodup (fun lv hlv => (hfresh lv hlv).1), Armed]
  simp only [existsUnique_liveBuy (hstart _) (arm_orders s initializing hactivating hlevels) hbuys hdistinct]

/-- The ladder is the one of the loop where it is accepted. -/
theorem accepted_ladder {start inv : ℚ} {averagingSteps : AveragingSteps}
    (hlevels : calculateLevelsWithAveraging start inv averagingSteps = .ok levels) :
    0 < start ∧ 0 < inv ∧ levels = ladder start inv start averagingSteps.steps ∧
      ∀ lv ∈ levels, 0 < lv.buyPrice := by
  unfold calculateLevelsWithAveraging at hlevels
  split at hlevels
  next => cases hlevels
  next =>
    split at hlevels
    next => cases hlevels
    next hinv =>
      split at hlevels
      next => cases hlevels
      next hstart =>
        have hpos : ∀ lv ∈ ladder start inv start averagingSteps.steps, 0 < lv.buyPrice := by
          by_contra hnot
          push Not at hnot
          obtain ⟨message, hraises⟩ := averagingLoop_raises (not_le.mp hstart) averagingSteps.steps hnot
          rw [hraises] at hlevels
          cases hlevels
        rw [averagingLoop_eq _ hpos, Except.ok.injEq] at hlevels
        subst hlevels
        exact ⟨not_le.mp hstart, not_le.mp hinv, rfl, hpos⟩

/-- Step 0 buys at the start price. -/
theorem mem_ladder_zero {start inv prev : ℚ} (h : ∃ step ∈ steps, step.stepNumber = 0) :
    ∃ lv ∈ ladder start inv prev steps, lv.buyPrice = start := by
  induction steps generalizing prev with
  | nil =>
      obtain ⟨step, hstep, -⟩ := h
      cases hstep
  | cons first rest ih =>
      obtain ⟨step, hstep, hzero⟩ := h
      rw [ladder]
      rcases List.mem_cons.mp hstep with rfl | hrest
      · exact ⟨_, List.mem_cons_self, if_pos hzero⟩
      · obtain ⟨lv, hlv, hprice⟩ := ih ⟨step, hrest, hzero⟩
        exact ⟨lv, List.mem_cons_of_mem _ hlv, hprice⟩

theorem takes_averagingLevel {inv price : ℚ} {step : AveragingStep} (hinv : 0 < inv) (hprice : 0 < price) :
    takes args (placeBuyOf (averagingLevel inv price step)) = true ↔
      args.exchangeAccountId ≠ none ∧ blank args.symbol = false ∧ 0 < step.multipleBuyAmount := by
  have hquantity : 0 < inv * step.multipleBuyAmount / price ↔ 0 < step.multipleBuyAmount := by
    rw [div_pos_iff_of_pos_right hprice, mul_pos_iff_of_pos_left hinv]
  simp only [takes, placeBuyOf, averagingLevel, hprice, if_true, hquantity, and_true, decide_eq_true_eq]

/-- Without a step 0 every level has the price that the steps up to its own leave. -/
theorem below_iff {start inv : ℚ} (hstart : 0 < start) (hinv : 0 < inv) (hne : steps ≠ [])
    (hnumbers : ∀ step ∈ steps, step.stepNumber ≠ 0)
    (hpos : ∀ lv ∈ ladder start inv start steps, 0 < lv.buyPrice) :
    (∀ lv ∈ ladder start inv start steps, lv.buyPrice < start ∧ takes args (placeBuyOf lv) = true) ↔
      (args.exchangeAccountId ≠ none ∧ blank args.symbol = false ∧ ∀ step ∈ steps, 0 < step.multipleBuyAmount) ∧
        ∀ k < steps.length, discount (steps.take (k + 1)) < 1 := by
  have hget := @ladder_getElem?_of_ne start inv steps start hnumbers
  have hmem : ∀ k step, steps[k]? = some step →
      averagingLevel inv (start * discount (steps.take (k + 1))) step ∈ ladder start inv start steps :=
    fun k step hk => List.mem_of_getElem? ((hget k).trans (congrArg _ hk))
  have hprice : ∀ k step, (averagingLevel inv (start * discount (steps.take (k + 1))) step).buyPrice < start ↔
      discount (steps.take (k + 1)) < 1 := fun k step => mul_lt_iff_lt_one_right hstart
  have htakes : ∀ k step, steps[k]? = some step →
      (takes args (placeBuyOf (averagingLevel inv (start * discount (steps.take (k + 1))) step)) = true ↔
        args.exchangeAccountId ≠ none ∧ blank args.symbol = false ∧ 0 < step.multipleBuyAmount) :=
    fun k step hk => takes_averagingLevel hinv (hpos _ (hmem k step hk))
  constructor
  · intro h
    have hall : ∀ k step, steps[k]? = some step → discount (steps.take (k + 1)) < 1 ∧
        args.exchangeAccountId ≠ none ∧ blank args.symbol = false ∧ 0 < step.multipleBuyAmount := by
      intro k step hk
      obtain ⟨hbelow, hplaced⟩ := h _ (hmem k step hk)
      exact ⟨(hprice k step).mp hbelow, (htakes k step hk).mp hplaced⟩
    obtain ⟨first, rest, hsteps⟩ := List.exists_cons_of_ne_nil hne
    obtain ⟨-, hacct, hsymbol, -⟩ := hall 0 first (by rw [hsteps]; rfl)
    refine ⟨⟨hacct, hsymbol, fun step hstep => ?_⟩, fun k hk => (hall k _ (List.getElem?_eq_getElem hk)).1⟩
    obtain ⟨k, hk⟩ := List.mem_iff_getElem?.mp hstep
    exact (hall k step hk).2.2.2
  · rintro ⟨⟨hacct, hsymbol, hmultiples⟩, hbelow⟩ lv hlv
    obtain ⟨k, hk⟩ := List.mem_iff_getElem?.mp hlv
    rw [hget, Option.map_eq_some_iff] at hk
    obtain ⟨step, hstep, rfl⟩ := hk
    obtain ⟨hlt, -⟩ := List.getElem?_eq_some_iff.mp hstep
    exact ⟨(hprice k step).mpr (hbelow k hlt),
      (htakes k step hstep).mpr ⟨hacct, hsymbol, hmultiples step (List.mem_of_getElem? hstep)⟩⟩

/-- A ladder that is accepted is armed at its start price exactly when it has no
step 0, since the initial plan buys below the current price only, every price of it lies
below the start price, and every step buys something. -/
theorem armed_iff {s : Floor} (initializing : Oracle) {activating : Oracle} (hactivating : Accepting activating)
    (hlevels : calculateLevelsWithAveraging args.upperPrice args.investmentPerGrid args.averagingSteps = .ok levels)
    (hstart : ∀ n r, ¬ LiveBuy s.desk ⟨i, n⟩ r) :
    Armed i levels (arm evaluate i args s initializing activating).desk ↔
      (∀ step ∈ args.averagingSteps.steps, step.stepNumber ≠ 0) ∧
        (args.exchangeAccountId ≠ none ∧ blank args.symbol = false ∧
          ∀ step ∈ args.averagingSteps.steps, 0 < step.multipleBuyAmount) ∧
        ∀ k < args.averagingSteps.steps.length, discount (args.averagingSteps.steps.take (k + 1)) < 1 := by
  obtain ⟨hprice, hinv, hladder, hpos⟩ := accepted_ladder hlevels
  have hne : args.averagingSteps.steps ≠ [] := by
    intro hnil
    rw [calculateLevelsWithAveraging, if_pos hnil] at hlevels
    cases hlevels
  rw [armed_iff_placed initializing hactivating hlevels hstart]
  subst hladder
  by_cases hnumbers : ∀ step ∈ args.averagingSteps.steps, step.stepNumber ≠ 0
  · rw [below_iff hprice hinv hne hnumbers hpos]
    exact (and_iff_right hnumbers).symm
  · refine iff_of_false (fun h => hnumbers (fun step hstep hzero => ?_)) (fun h => hnumbers h.1)
    obtain ⟨lv, hlv, hat⟩ := @mem_ladder_zero _ args.upperPrice args.investmentPerGrid args.upperPrice
      ⟨step, hstep, hzero⟩
    exact (h lv hlv).1.ne hat

theorem accepting_willing : Accepting willing := fun _ => ⟨rfl, _, rfl⟩

theorem not_liveBuy_start (i : String) (n r : Nat) : ¬ LiveBuy (Floor.start true).desk ⟨i, n⟩ r := by
  rintro ⟨o, ho, -⟩
  cases ho

/-- Two buys, ten and twenty percent below the start price. -/
def belowMarket : InitArgs :=
  { exchangeAccountId := some 1, symbol := "BTCUSDT", upperPrice := 100, lowerPrice := 0, gridCount := 0
    investmentPerGrid := 90
    averagingSteps := ⟨[{ stepNumber := 1, dropRate := 10, takeProfit := 2 },
      { stepNumber := 2, dropRate := 20, takeProfit := 3 }], by decide⟩ }

theorem armed_belowMarket :
    ∃ levels, calculateLevelsWithAveraging 100 90 belowMarket.averagingSteps = .ok levels ∧
      Armed "grid" levels (arm (fun _ _ _ => true) "grid" belowMarket (Floor.start true) willing willing).desk := by
  have hlevels : calculateLevelsWithAveraging 100 90 belowMarket.averagingSteps =
      .ok (ladder 100 90 100 belowMarket.averagingSteps.steps) := by decide +kernel
  refine ⟨_, hlevels, (armed_iff willing accepting_willing hlevels (not_liveBuy_start "grid")).mpr ?_⟩
  decide +kernel

/-- A buy at the market price, and twice as much ten percent below it. -/
def marketEntry : InitArgs := { belowMarket with averagingSteps := twoSteps }

/-- Activated at 100, the ladder has no order for its first level, which buys at 100. -/
theorem marketEntry_not_armed :
    ∃ levels lv, calculateLevelsWithAveraging 100 90 marketEntry.averagingSteps = .ok levels ∧ lv ∈ levels ∧
      lv.level = 0 ∧ lv.buyPrice = 100 ∧ Accepting willing ∧
      ∀ r, ¬ LiveBuy (arm (fun _ _ _ => true) "grid" marketEntry (Floor.start true) willing willing).desk
        ⟨"grid", lv.level⟩ r := by
  have hlevels : calculateLevelsWithAveraging 100 90 marketEntry.averagingSteps =
      .ok (ladder 100 90 100 marketEntry.averagingSteps.steps) := by decide +kernel
  have horders : (arm (fun _ _ _ => true) "grid" marketEntry (Floor.start true) willing willing).desk.orders =
      [{ owner := .level ⟨"grid", 1⟩, side := .buy, price := some 90, quantity := 2, state := .live }] := by
    decide +kernel
  refine ⟨_, _, hlevels, List.mem_cons_self, rfl, rfl, accepting_willing, ?_⟩
  rintro r ⟨o, ho, hkey, -⟩
  rw [horders] at ho
  obtain rfl := List.mem_singleton.mp (List.mem_of_getElem? ho)
  exact absurd hkey (by decide)

end Utos.Grid.LadderArming
