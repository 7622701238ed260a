import Utos.Core.Ledger
import Utos.Coroutine.Pool
import Utos.Coroutine.Trace
import Utos.Grid.Frames

namespace Utos.Grid.RealProfit

open Coroutine Program Core.Ledger Core.DomainTypes Core.Exceptions Execution.Service Execution.Exchange
open State CircuitBreaker Engine Trading Frames

variable {evaluate : Evaluate} {i j : String} {n : Nat} {lv : GridLevel} {fillPrice quantity : ℚ} {s : GridEngine}

/-- The total_profit of the grid of the instance. -/
def profit (i : String) (s : GridEngine) : Option ℚ := (s.grids i).map GridState.totalProfit

/-- The configured buy price of a level. -/
def price (i : String) (s : GridEngine) (n : Nat) : Option ℚ := (s.grids.getLevel i n).map GridLevel.buyPrice

/-- The profit and the prices are those of before. -/
def SameTotals (i : String) (s s' : GridEngine) : Prop := profit i s' = profit i s ∧ price i s' = price i s

theorem SameTotals.trans {s' s'' : GridEngine} (h : SameTotals i s s') (h' : SameTotals i s' s'') :
    SameTotals i s s'' := ⟨h'.1.trans h.1, h'.2.trans h.2⟩

theorem profit_put (store : State.Store) (g : GridState) (s : GridEngine) :
    profit i { s with grids := store.put i g } = some g.totalProfit := by
  simp only [profit, State.Store.put, Function.update_self, Option.map_some]

theorem price_put (store : State.Store) (g : GridState) (s : GridEngine) (n : Nat) :
    price i { s with grids := store.put i g } n = (findLevel n g.levels).map GridLevel.buyPrice := by
  simp only [price, State.Store.getLevel_put, if_true]

/-- A grid is replaced by one with the same profit and prices. -/
theorem sameTotals_put {g : GridState} (h : j = i → ∃ g₀, s.grids i = some g₀ ∧ g.totalProfit = g₀.totalProfit ∧
      ∀ n, (findLevel n g.levels).map GridLevel.buyPrice = (findLevel n g₀.levels).map GridLevel.buyPrice) :
    SameTotals i s { s with grids := s.grids.put j g } := by
  by_cases hj : j = i
  · subst hj
    obtain ⟨g₀, hg₀, hprofit, hprice⟩ := h rfl
    constructor
    · rw [profit_put, hprofit, profit, hg₀, Option.map_some]
    · funext n
      rw [price_put, hprice, price, State.Store.getLevel_eq hg₀]
  · constructor
    · simp only [profit, State.Store.put, Function.update_of_ne (Ne.symm hj)]
    · funext n
      simp only [price, State.Store.getLevel_put, if_neg (Ne.symm hj)]

theorem sameTotals_assignGrid {f : GridState → GridState}
    (hf : j = i → ∀ g, (f g).totalProfit = g.totalProfit ∧ (f g).levels = g.levels) :
    SameTotals i s { s with grids := s.grids.assignGrid j f } := by
  unfold State.Store.assignGrid
  cases hg : s.grids j with
  | none => exact ⟨rfl, rfl⟩
  | some g =>
      refine sameTotals_put (fun hj => ⟨g, hj ▸ hg, (hf hj g).1, fun n => ?_⟩)
      rw [(hf hj g).2]

theorem marks_level {f : GridLevel → GridLevel} (hf : Marks f) (lv : GridLevel) :
    (f lv).level = lv.level ∧ (f lv).buyPrice = lv.buyPrice := by
  cases hf with
  | orderId side orderId => cases side <;> exact ⟨rfl, rfl⟩
  | status target => exact ⟨rfl, rfl⟩

theorem sameTotals_assignLevel {f : GridLevel → GridLevel} (hf : Marks f) (j : String) (n : Nat) :
    SameTotals i s { s with grids := s.grids.assignLevel j n f } := by
  constructor
  · simp only [profit, State.Store.assignLevel]
    cases hg : s.grids j with
    | none => rfl
    | some g =>
        by_cases hj : i = j
        · subst hj
          simp only [State.Store.put, Function.update_self, hg, Option.map_some]
        · simp only [State.Store.put, Function.update_of_ne hj]
  · funext m
    simp only [price, State.Store.getLevel_assignLevel _ _ _ _ (fun lv => (marks_level hf lv).1)]
    split
    next h =>
      obtain ⟨rfl, rfl⟩ := h
      rw [Option.map_map]
      exact congrArg (fun f => Option.map f _) (funext (fun lv => (marks_level hf lv).2))
    next => rfl

abbrev Steadily (i : String) {α : Type} (p : Op α) : Prop := Writes (fun _ => True) (SameTotals i) p

theorem tolerates_sameTotals (i : String) : Tolerates (fun _ => True) (SameTotals i) where
  levels _ j n _ hf _ := ⟨trivial, sameTotals_assignLevel hf j n⟩
  locks _ _ _ := ⟨trivial, rfl, rfl⟩

theorem steadily_transitionGrid (i j : String) (target : GridStatus) :
    Steadily i (attemptGrids (fun grids => grids.transitionGrid j target)) := by
  refine writes_attemptGrids (fun s _ grids _ hg => ⟨trivial, ?_⟩)
  obtain ⟨g, hgrid, -, rfl⟩ := State.Store.transitionGrid_ok hg
  exact sameTotals_put (fun hj => ⟨g, hj ▸ hgrid, rfl, fun _ => rfl⟩)

theorem steadily_setCurrentPrice (i j : String) (p : ℚ) : Steadily i (setCurrentPrice j p) :=
  writes_modifyGrids (fun _ _ => ⟨trivial, sameTotals_assignGrid (fun _ _ => ⟨rfl, rfl⟩)⟩)

theorem steadily_modify {f : GridEngine → GridEngine} (hf : ∀ s, (f s).grids = s.grids) :
    Steadily i (.modify f : Op Unit) :=
  steady_modify (fun s _ => ⟨trivial, by simp only [profit, hf], by unfold price; simp only [hf]⟩)

/-- The calls that begin a grid of the instance or book a profit of it. -/
def Books (i : String) : Call → Prop
  | .initializeGrid j _ => j = i
  | .onSellFilled j _ _ _ => j = i
  | _ => False

theorem steadily_perform {call : Call} (h : ¬ Books i call) : Steadily i (perform evaluate call) := by
  have hI := tolerates_sameTotals i
  cases call with
  | configureTrailingProfit | configureTa | updateTaCandles | updateTaCandles15m | configureCircuitBreaker =>
      exact steadily_modify (fun _ => rfl)
  | initializeGrid j args =>
      exact writes_initializeGrid j args
        (fun _ => writes_modifyGrids (fun _ _ => ⟨trivial, sameTotals_put (fun hj => absurd hj h)⟩))
        (steadily_transitionGrid i j _)
  | activateGrid j p =>
      exact writes_void (writes_activateGrid hI j p (steadily_setCurrentPrice i j p) (steadily_transitionGrid i j _))
  | pauseGrid j => exact writes_void (writes_pauseGrid hI j (steadily_transitionGrid i j _))
  | resumeGrid j p =>
      exact writes_void (writes_resumeGrid hI j p (steadily_setCurrentPrice i j p) (steadily_transitionGrid i j _))
  | closeAllGridOrders j => exact writes_void (writes_closeAllGridOrders hI j)
  | onPriceUpdate day j p =>
      exact writes_onPriceUpdate hI (steadily_setCurrentPrice i j p) (fun f => steadily_modify (fun _ => rfl))
  | onBuyFilled j n fillPrice quantity => exact writes_onBuyFilled hI j n fillPrice quantity
  | onSellFilled j n fillPrice quantity =>
      exact writes_onSellFilled hI j n fillPrice quantity
        (fun _ => writes_modifyGrids (fun _ _ => ⟨trivial, sameTotals_assignGrid (fun hj => absurd hj h)⟩))
  | forceBuy j level price quantity => exact writes_void (writes_forceBuy hI j level price quantity)
  | forceSell j level price quantity => exact writes_void (writes_forceSell hI j level price quantity)
  | lock call => exact writes_performLock hI call

/-- The terms of a program that asks for nothing. -/
abbrev silent : Protocol GridEngine (ExecReq Owner) (ExecAns Owner) Unit :=
  .bare (fun _ => True) (fun _ _ => True) (fun _ => False)

theorem profit_assignGrid (s : GridEngine) (amount : ℚ) :
    profit i { s with grids := s.grids.assignGrid i (fun g => { g with
      totalCycles := g.totalCycles + 1
      totalProfit := g.totalProfit + amount }) } = (profit i s).map (· + amount) := by
  unfold profit State.Store.assignGrid
  cases hg : s.grids i with
  | none => simp only [hg, Option.map_none]
  | some g => simp only [State.Store.put, Function.update_self, Option.map_some]

theorem price_assignGrid (s : GridEngine) {f : GridState → GridState} (hf : ∀ g, (f g).levels = g.levels) :
    price i { s with grids := s.grids.assignGrid i f } = price i s := by
  funext n
  simp only [price, State.Store.getLevel_assignGrid _ _ _ hf]

theorem under_completeCycle (amount : ℚ) :
    Under silent (completeCycle i n amount) (fun _ _ s' =>
      profit i s' = (profit i s).map (· + amount) ∧ price i s' = price i s) () s := by
  rw [completeCycle, bind_eq, under_bind, modifyGrids, under_modify, thenUnder_ok, bind_eq, under_bind, under_read,
    thenUnder_ok]
  refine ⟨trivial, trivial, ?_⟩
  have hbooked := And.intro (profit_assignGrid (i := i) s amount) (@price_assignGrid i s (fun g => { g with
    totalCycles := g.totalCycles + 1
    totalProfit := g.totalProfit + amount }) (fun _ => rfl))
  split
  next => exact hbooked
  next =>
    split
    next =>
      rw [Terms.under_attemptGrids]
      split
      next a grids htr =>
        obtain ⟨-, -, -, rfl⟩ := State.Store.transitionLevel_ok htr
        have hsame := @sameTotals_assignLevel i { s with grids := s.grids.assignGrid i (fun g => { g with
          totalCycles := g.totalCycles + 1
          totalProfit := g.totalProfit + amount }) } _ (.status .waiting) i n
        exact ⟨trivial, trivial, hsame.1.trans hbooked.1, hsame.2.trans hbooked.2⟩
      next => exact hbooked
    next => exact hbooked

theorem under_onSellFilled (hlv : s.grids.getLevel i n = some lv) (htakes : .tpHit ∈ levelTransitions lv.status) :
    Under silent (onSellFilled i n fillPrice quantity) (fun _ _ s' =>
      profit i s' = (profit i s).map (· + (fillPrice - lv.buyPrice) * quantity) ∧ price i s' = price i s) () s := by
  rw [onSellFilled, bind_eq, under_bind, under_read, thenUnder_ok]
  simp only [hlv]
  rw [bind_eq, under_bind, Terms.under_attemptGrids, State.Store.transitionLevel_eq hlv htakes]
  refine ⟨trivial, trivial, ?_⟩
  rw [thenUnder_ok, bind_eq, under_bind, modifyGrids, under_modify, thenUnder_ok, bind_eq, under_bind, under_read,
    thenUnder_ok]
  refine ⟨trivial, trivial, ?_⟩
  set sold : GridEngine := { s with
    grids := (s.grids.assignLevel i n (setStatus .tpHit)).assignLevel i n (setOrderId .sell none) }
  have hsame : SameTotals i s sold :=
    (sameTotals_assignLevel (.status .tpHit) i n).trans (sameTotals_assignLevel (.orderId .sell none) i n)
  have hcycle : Under silent (completeCycle i n ((fillPrice - lv.buyPrice) * quantity)) (fun _ _ s' =>
      profit i s' = (profit i s).map (· + (fillPrice - lv.buyPrice) * quantity) ∧ price i s' = price i s) () sold := by
    rw [← hsame.1, ← hsame.2]
    exact under_completeCycle _
  split
  next => exact hcycle
  next => exact hcycle

theorem under_onSellFilled_refused
    (hrefused : ∀ lv, s.grids.getLevel i n = some lv → .tpHit ∉ levelTransitions lv.status) :
    Under silent (onSellFilled i n fillPrice quantity) (fun _ _ s' => s' = s) () s := by
  rw [onSellFilled, bind_eq, under_bind, under_read, thenUnder_ok]
  cases hlv : s.grids.getLevel i n with
  | none => rfl
  | some lv =>
      simp only
      rw [bind_eq, under_bind, Terms.under_attemptGrids]
      split
      next a grids htr =>
        obtain ⟨lv', hlv', htakes, -⟩ := State.Store.transitionLevel_ok htr
        exact absurd htakes (hrefused lv' hlv')
      next => rfl

theorem initialState_ok {args : InitArgs} {state : GridState} (h : initialState i args = .ok state) :
    state.status = .idle ∧ state.totalProfit = 0 := by
  unfold initialState at h
  split at h
  next =>
    cases hlevels : Calculator.calculateLevels args.upperPrice args.lowerPrice args.gridCount
        args.investmentPerGrid with
    | error e => rw [hlevels] at h; cases h
    | ok levels => rw [hlevels] at h; cases h; exact ⟨rfl, rfl⟩
  next =>
    cases hlevels : Calculator.calculateLevelsWithAveraging args.upperPrice args.investmentPerGrid
        args.averagingSteps with
    | error e => rw [hlevels] at h; cases h
    | ok levels => rw [hlevels] at h; cases h; exact ⟨rfl, rfl⟩

theorem under_initializeGrid {args : InitArgs} {state : GridState} (hinit : initialState i args = .ok state) :
    Under silent (initializeGrid i args) (fun _ _ s' => profit i s' = some 0) () s := by
  obtain ⟨hidle, hprofit⟩ := initialState_ok hinit
  have hput : (s.grids.put i state) i = some state := Function.update_self _ _ _
  have hmove : GridStatus.initialized ∈ gridTransitions state.status := by
    rw [hidle]
    decide
  rw [initializeGrid, hinit, bind_eq, under_bind, under_lift, thenUnder_ok, bind_eq, under_bind, modifyGrids,
    under_modify, thenUnder_ok, Terms.under_attemptGrids, State.Store.transitionGrid_eq hput hmove]
  exact ⟨trivial, trivial, trivial, trivial, (profit_put _ _ _).trans (congrArg some hprofit)⟩

theorem under_initializeGrid_refused {args : InitArgs} {e : Exn} (hinit : initialState i args = .error e) :
    Under silent (initializeGrid i args) (fun _ _ s' => s' = s) () s := by
  rw [initializeGrid, hinit, bind_eq, under_bind, under_lift]
  rfl

/-- The calls under way, and the fills that the grid of an instance has taken since it was
initialized, each under its level; what is sold counts as a negative amount. -/
structure Session where
  pool : Pool GridEngine (Desk Owner) (ExecReq Owner) (ExecAns Owner) Exn Unit
  fills : List (Nat × Trade ℚ) := []

inductive Move
  | start (k : Nat) (c : Call)
  | answer (k : Nat) (oracle : Oracle)
  | resume (k : Nat)
  | fill (ref : Nat) (quantity : ℚ)

/-- on_buy_filled and on_sell_filled raise for a level that is not there or whose status does not admit the fill. -/
def takes (s : GridEngine) (i : String) (n : Nat) (target : GridLevelStatus) : Bool :=
  match s.grids.getLevel i n with
  | none => false
  | some lv => target ∈ levelTransitions lv.status

/-- The fills once a call has started. initialize_grid begins a new grid. -/
def booked (i : String) (s : GridEngine) (fills : List (Nat × Trade ℚ)) : Call → List (Nat × Trade ℚ)
  | .initializeGrid j args => if j = i ∧ (initialState i args).isOk then [] else fills
  | .onBuyFilled j n fillPrice quantity =>
      if j = i ∧ takes s i n .filled then fills ++ [(n, ⟨fillPrice, quantity⟩)] else fills
  | .onSellFilled j n fillPrice quantity =>
      if j = i ∧ takes s i n .tpHit then fills ++ [(n, ⟨fillPrice, -quantity⟩)] else fills
  | _ => fills

namespace Session

def opening (hasProfitLock : Bool) : Session := ⟨⟨{ hasProfitLock := hasProfitLock }, {}, fun _ => none⟩, []⟩

/-- No call is under way under the number. -/
def free (s : Session) (k : Nat) : Bool :=
  match s.pool.tasks k with
  | none | some (.done _) => true
  | some _ => false

variable (evaluate : Evaluate) (i : String)

def move (s : Session) : Move → Session
  | .start k c => if s.free k then ⟨s.pool.start k (perform evaluate c), booked i s.pool.store s.fills c⟩ else s
  | .answer k oracle => { s with pool := s.pool.act (deskHandler oracle) k }
  | .resume k => { s with pool := s.pool.resume k }
  | .fill ref quantity => { s with pool := { s.pool with world := s.pool.world.fill ref quantity } }

/-- A buy fill that is taken is reported at the configured price of its level. -/
def Meets (s : Session) : Move → Prop
  | .start k (.onBuyFilled j n fillPrice _) => s.free k → j = i → takes s.pool.store i n .filled →
      price i s.pool.store n = some fillPrice
  | _ => True

end Session

/-- What the calls under way may do. -/
abbrev terms (i : String) (_ : Unit) : Protocol GridEngine (ExecReq Owner) (ExecAns Owner) Unit :=
  .bare (fun _ => True) (SameTotals i) (fun _ => True)

theorem coherent_terms (i : String) : Coherent (terms i) where
  inv _ _ _ h := h
  refl _ _ _ := trivial
  trans _ _ _ _ _ _ _ := trivial
  asks _ _ _ _ _ h := h

/-- The total profit is what the fills have brought in, with what is held booked at the configured prices. -/
def Balanced (i : String) (s : GridEngine) (fills : List (Nat × Trade ℚ)) : Prop :=
  ∀ T, profit i s = some T → T = cash (fills.map Prod.snd) + costAt (fun n => (price i s n).getD 0) fills

/-- What holds after every move of a run that meets the condition. -/
structure Good (i : String) (s : Session) : Prop where
  standing : s.pool.Standing (terms i) (fun _ => ()) (fun _ => ())
  balanced : Balanced i s.pool.store s.fills

variable {x : Session} {s' : GridEngine} {fills : List (Nat × Trade ℚ)} {c : ℚ}

theorem sameTotals_of_wrote {s s' : GridEngine} (h : (terms i ()).Wrote () s s') : SameTotals i s s' := by
  induction h with
  | refl => exact ⟨rfl, rfl⟩
  | tail _ hstep ih => exact ih.trans hstep

/-- A call that neither begins a grid of the instance nor books a profit of it. -/
theorem Good.start_steadily (h : Good i x) {p : Op Unit} (hp : Steadily i p) (k : Nat) :
    (x.pool.start k p).Standing (terms i) (fun _ => ()) (fun _ => ()) ∧
      SameTotals i x.pool.store (x.pool.start k p).store := by
  have hunder : Under (terms i ()) p (fun _ _ _ => True) () x.pool.store :=
    under_mono (hp x.pool.store trivial) (fun _ _ _ _ => trivial)
  obtain ⟨-, hwrote, -⟩ := advance_ok hunder trivial
  exact ⟨h.standing.start (coherent_terms i) hunder (fun _ _ _ _ _ _ _ => trivial), sameTotals_of_wrote hwrote⟩

theorem Good.start_silent (h : Good i x) {p : Op Unit} {R : Except Exn Unit → Unit → GridEngine → Prop}
    (hp : Under silent p R () x.pool.store) (k : Nat) :
    (x.pool.start k p).Standing (terms i) (fun _ => ()) (fun _ => ()) ∧ ∃ r, R r () (x.pool.start k p).store := by
  obtain ⟨r, s', hdone, hR⟩ := advance_of_silent (fun _ _ _ hask => hask) hp
  refine ⟨h.standing.start_done (coherent_terms i) hdone (fun _ => trivial) (fun _ _ _ _ _ _ => trivial), r, ?_⟩
  rw [Pool.start, hdone]
  exact hR

theorem takes_iff (target : GridLevelStatus) :
    takes s i n target = true ↔ ∃ lv, s.grids.getLevel i n = some lv ∧ target ∈ levelTransitions lv.status := by
  unfold takes
  cases s.grids.getLevel i n with
  | none => simp
  | some lv => simp

theorem balanced_new (h : profit i s = some 0) : Balanced i s [] := by
  intro T hT
  rw [← Option.some.inj (h.symm.trans hT)]
  simp [costAt]

theorem Balanced.same (h : Balanced i s fills) (hsame : SameTotals i s s') : Balanced i s' fills := by
  rw [Balanced, hsame.1, hsame.2]
  exact h

/-- The fill of a buy at the configured price costs what is booked for it. -/
theorem Balanced.bought (h : Balanced i s fills) (hprice : price i s n = some fillPrice) :
    Balanced i s (fills ++ [(n, Trade.mk fillPrice quantity)]) := by
  intro T hT
  rw [List.map_append, cash_append, costAt_concat, hprice, h T hT, List.map_singleton, cash_singleton, Trade.cost,
    Option.getD_some]
  ring

/-- The fill of a sell brings in what is booked and the configured price. -/
theorem Balanced.sold (h : Balanced i s fills) (hprice : price i s n = some c)
    (hprofit : profit i s' = (profit i s).map (· + (fillPrice - c) * quantity)) (hsame : price i s' = price i s) :
    Balanced i s' (fills ++ [(n, Trade.mk fillPrice (-quantity))]) := by
  intro T hT
  rw [hT, eq_comm, Option.map_eq_some_iff] at hprofit
  obtain ⟨T₀, hT₀, rfl⟩ := hprofit
  rw [List.map_append, cash_append, costAt_concat, hsame, hprice, h T₀ hT₀, List.map_singleton, cash_singleton,
    Trade.cost, Option.getD_some]
  ring

theorem booked_initializeGrid (s : GridEngine) (fills : List (Nat × Trade ℚ)) (args : InitArgs) :
    booked i s fills (.initializeGrid i args) = match initialState i args with
      | .ok _ => []
      | .error _ => fills := by
  cases h : initialState i args <;> simp [booked, h, Except.isOk, Except.toBool]

theorem Good.start_initializeGrid (h : Good i x) (k : Nat) (args : InitArgs) :
    Good i ⟨x.pool.start k (initializeGrid i args), booked i x.pool.store x.fills (.initializeGrid i args)⟩ := by
  rw [booked_initializeGrid]
  cases hinit : initialState i args with
  | error e =>
      obtain ⟨hstanding, -, hstore⟩ := h.start_silent (under_initializeGrid_refused hinit) k
      exact ⟨hstanding, h.balanced.same ⟨congrArg (profit i) hstore, congrArg (price i) hstore⟩⟩
  | ok state =>
      obtain ⟨hstanding, -, hprofit⟩ := h.start_silent (under_initializeGrid hinit) k
      exact ⟨hstanding, balanced_new hprofit⟩

theorem Good.start_onSellFilled (h : Good i x) (k n : Nat) (fillPrice quantity : ℚ) :
    Good i ⟨x.pool.start k (onSellFilled i n fillPrice quantity),
      booked i x.pool.store x.fills (.onSellFilled i n fillPrice quantity)⟩ := by
  by_cases htakes : takes x.pool.store i n .tpHit = true
  · obtain ⟨lv, hlv, hmove⟩ := (takes_iff _).mp htakes
    have hbooked : booked i x.pool.store x.fills (.onSellFilled i n fillPrice quantity) =
        x.fills ++ [(n, Trade.mk fillPrice (-quantity))] := if_pos ⟨rfl, htakes⟩
    obtain ⟨hstanding, -, hprofit, hsame⟩ := h.start_silent (under_onSellFilled hlv hmove) k
    rw [hbooked]
    exact ⟨hstanding, h.balanced.sold (congrArg (Option.map GridLevel.buyPrice) hlv) hprofit hsame⟩
  · have hbooked : booked i x.pool.store x.fills (.onSellFilled i n fillPrice quantity) = x.fills :=
      if_neg (fun hboth => htakes hboth.2)
    have hrefused : ∀ lv, x.pool.store.grids.getLevel i n = some lv → .tpHit ∉ levelTransitions lv.status :=
      fun lv hlv hmove => htakes ((takes_iff _).mpr ⟨lv, hlv, hmove⟩)
    obtain ⟨hstanding, -, hstore⟩ := h.start_silent (under_onSellFilled_refused hrefused) k
    rw [hbooked]
    exact ⟨hstanding, h.balanced.same ⟨congrArg (profit i) hstore, congrArg (price i) hstore⟩⟩

theorem balanced_booked (h : Balanced i s fills) {call : Call} (hbooks : ¬ Books i call)
    (hbuy : ∀ n fillPrice quantity, call = .onBuyFilled i n fillPrice quantity → takes s i n .filled →
      price i s n = some fillPrice) : Balanced i s (booked i s fills call) := by
  cases call with
  | initializeGrid j args => rwa [booked, if_neg (fun hboth => hbooks hboth.1)]
  | onSellFilled j n fillPrice quantity => rwa [booked, if_neg (fun hboth => hbooks hboth.1)]
  | onBuyFilled j n fillPrice quantity =>
      rw [booked]
      split
      next htaken =>
        obtain ⟨rfl, htakes⟩ := htaken
        exact h.bought (hbuy n fillPrice quantity rfl htakes)
      next => exact h
  | _ => exact h

theorem Good.start (h : Good i x) {k : Nat} {c : Call} (hfree : x.free k = true) (hm : x.Meets i (.start k c)) :
    Good i ⟨x.pool.start k (perform evaluate c), booked i x.pool.store x.fills c⟩ := by
  by_cases hbooks : Books i c
  · cases c with
    | initializeGrid j args => exact hbooks ▸ h.start_initializeGrid k args
    | onSellFilled j n fillPrice quantity => exact hbooks ▸ h.start_onSellFilled k n fillPrice quantity
    | _ => exact hbooks.elim
  · obtain ⟨hstanding, hsame⟩ := h.start_steadily (@steadily_perform evaluate i c hbooks) k
    refine ⟨hstanding, (balanced_booked h.balanced hbooks ?_).same hsame⟩
    rintro n fillPrice quantity rfl htakes
    exact hm hfree rfl htakes

theorem Good.answer (h : Good i x) (k : Nat) (oracle : Oracle) :
    Good i { x with pool := x.pool.act (deskHandler oracle) k } := by
  by_cases hasked : ∃ q f, x.pool.tasks k = some (.asked q f)
  · obtain ⟨q, f, ht⟩ := hasked
    have hstore : (x.pool.act (deskHandler oracle) k).store = x.pool.store := by rw [Pool.act_asked ht]
    refine ⟨h.standing.act ht, ?_⟩
    rw [hstore]
    exact h.balanced
  · rwa [Pool.act_not_asked (fun q f ht => hasked ⟨q, f, ht⟩)]

theorem Good.resume (h : Good i x) (k : Nat) : Good i { x with pool := x.pool.resume k } := by
  unfold Pool.resume
  split
  next q a f ht =>
    have hunder := h.standing.tasks k _ ht x.pool.store trivial trivial trivial
    obtain ⟨-, hwrote, -⟩ := advance_ok hunder trivial
    exact ⟨h.standing.start (coherent_terms i) hunder (fun _ _ _ _ _ _ _ => trivial),
      h.balanced.same (sameTotals_of_wrote hwrote)⟩
  next => exact h

theorem Good.move (h : Good i x) {m : Move} (hm : x.Meets i m) : Good i (x.move evaluate i m) := by
  cases m with
  | start k c =>
      simp only [Session.move]
      split
      next hfree => exact h.start hfree hm
      next => exact h
  | answer k oracle => exact h.answer k oracle
  | resume k => exact h.resume k
  | fill ref quantity => exact ⟨⟨h.standing.inv, h.standing.tasks⟩, h.balanced⟩

theorem good_opening (i : String) (b : Bool) : Good i (Session.opening b) where
  standing := ⟨fun _ => trivial, fun k t ht => by cases ht⟩
  balanced T hT := by cases hT

end Utos.Grid.RealProfit
