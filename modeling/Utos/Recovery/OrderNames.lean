import Utos.Grid.Invariant
import Utos.Process.BlindOrders
import Utos.Recovery.LiveTrading
import Utos.Recovery.Reconciler

namespace Utos.Recovery.OrderNames

open Coroutine Program Core Core.DomainTypes Core.Exceptions Execution.Models Execution.Service Execution.Executor
open Grid Grid.State Grid.Calculator Grid.Planner Grid.CircuitBreaker LiveTrading Reconciler
open Grid.Trading hiding Event Floor
open Grid.Engine hiding Op
open Process.BlindOrders (keeps_attemptGrids)

def Holds (lv : GridLevel) (orderId : OrderId) : Prop := lv.buyOrderId = orderId ∨ lv.sellOrderId = orderId

/-- Every order id of the level was answered by the adapter. -/
def NamedLevel (accepted : List OrderResult) (lv : GridLevel) : Prop :=
  ∀ orderId, Holds lv orderId → orderId = none ∨ ∃ r ∈ accepted, r.orderId = orderId

def Named (accepted : List OrderResult) (grids : State.Store) : Prop :=
  ∀ i g, grids i = some g → ∀ lv ∈ g.levels, NamedLevel accepted lv

variable {accepted accepted' : List OrderResult} {grids : State.Store} {lv : GridLevel}

theorem Named.mono (h : Named accepted grids) (hsub : accepted ⊆ accepted') : Named accepted' grids := by
  intro i g hg lv hlv orderId hheld
  rcases h i g hg lv hlv orderId hheld with hnone | ⟨r, hr, hid⟩
  · exact .inl hnone
  · exact .inr ⟨r, hsub hr, hid⟩

theorem Named.put (h : Named accepted grids) {i : String} {g : GridState}
    (hg : ∀ lv ∈ g.levels, NamedLevel accepted lv) : Named accepted (grids.put i g) := by
  intro j g' hj
  by_cases hji : j = i
  · subst hji
    simp only [State.Store.put, Function.update_self, Option.some.injEq] at hj
    exact hj ▸ hg
  · simp only [State.Store.put, Function.update_of_ne hji] at hj
    exact h j g' hj

theorem Named.assignGrid (h : Named accepted grids) (i : String) {f : GridState → GridState}
    (hf : ∀ g, (f g).levels = g.levels) : Named accepted (grids.assignGrid i f) := by
  unfold State.Store.assignGrid
  cases hg : grids i with
  | none => exact h
  | some g => exact h.put (by rw [hf]; exact h i g hg)

theorem mem_modifyLevel {n : Nat} {f : GridLevel → GridLevel} {levels : List GridLevel}
    (h : lv ∈ modifyLevel n f levels) : lv ∈ levels ∨ ∃ old ∈ levels, lv = f old := by
  induction levels with
  | nil => cases h
  | cons first rest ih =>
      rw [modifyLevel] at h
      split at h
      · rcases List.mem_cons.mp h with rfl | hrest
        · exact .inr ⟨first, List.mem_cons_self, rfl⟩
        · exact .inl (List.mem_cons_of_mem _ hrest)
      · rcases List.mem_cons.mp h with rfl | hrest
        · exact .inl List.mem_cons_self
        · rcases ih hrest with hold | ⟨old, hmem, heq⟩
          · exact .inl (List.mem_cons_of_mem _ hold)
          · exact .inr ⟨old, List.mem_cons_of_mem _ hmem, heq⟩

theorem Named.assignLevel (h : Named accepted grids) (i : String) (n : Nat) {f : GridLevel → GridLevel}
    (hf : ∀ lv, NamedLevel accepted lv → NamedLevel accepted (f lv)) : Named accepted (grids.assignLevel i n f) := by
  unfold State.Store.assignLevel
  cases hg : grids i with
  | none => exact h
  | some g =>
      refine h.put (fun lv hlv => ?_)
      rcases mem_modifyLevel hlv with hold | ⟨old, hmem, rfl⟩
      · exact h i g hg lv hold
      · exact hf old (h i g hg old hmem)

theorem NamedLevel.setOrderId (side : OrderSide) {orderId : OrderId}
    (hid : orderId = none ∨ ∃ r ∈ accepted, r.orderId = orderId) (h : NamedLevel accepted lv) :
    NamedLevel accepted (setOrderId side orderId lv) := by
  intro id hheld
  cases side with
  | buy =>
      rcases hheld with rfl | hsell
      · exact hid
      · exact h id (.inr hsell)
  | sell =>
      rcases hheld with hbuy | rfl
      · exact h id (.inl hbuy)
      · exact hid

theorem namedLevel_of_fresh (h : Fresh lv) : NamedLevel accepted lv := by
  rintro orderId (hbuy | hsell)
  · exact .inl (hbuy ▸ h.2.1)
  · exact .inl (hsell ▸ h.2.2)

theorem fresh_initialState {i : String} {args : InitArgs} {state : GridState}
    (h : initialState i args = .ok state) : ∀ lv ∈ state.levels, Fresh lv := by
  unfold initialState at h
  split at h
  · cases hl : calculateLevels args.upperPrice args.lowerPrice args.gridCount args.investmentPerGrid with
    | error e => simp [hl, Bind.bind, Except.bind] at h
    | ok levels =>
        simp only [hl, Bind.bind, Except.bind, Pure.pure, Except.pure, Except.ok.injEq] at h
        exact h ▸ (calculateLevels_spec hl).2
  · cases hl : calculateLevelsWithAveraging args.upperPrice args.investmentPerGrid args.averagingSteps with
    | error e => simp [hl, Bind.bind, Except.bind] at h
    | ok levels =>
        simp only [hl, Bind.bind, Except.bind, Pure.pure, Except.pure, Except.ok.injEq] at h
        exact h ▸ (calculateLevelsWithAveraging_spec hl).2

section

variable {localOrderId : Nat → String} {evaluate : Evaluate} {α : Type}

/-- The invariant of a run: what the levels hold was answered by the adapter. -/
abbrev Traced (s : GridEngine) (b : Backend) : Prop := Named b.venue.accepted s.grids

/-- The program leaves every id of a level traced to an answer of the adapter. -/
abbrev Traces (localOrderId : Nat → String) (p : Engine.Op α) : Prop := Keeps (backend localOrderId) Traced p

theorem traces_request {s : GridEngine} {b : Backend} (q : ExecReq Owner) (h : Traced s b) :
    Traced s (backend localOrderId b q).2 :=
  h.mono (backend_keeps_accepted b q (List.Subset.refl _))

theorem traces_assignLevel {s : GridEngine} {b : Backend} {i : String} {n : Nat} {f : GridLevel → GridLevel}
    (hf : ∀ lv, NamedLevel b.venue.accepted lv → NamedLevel b.venue.accepted (f lv)) (h : Traced s b) :
    Traced { s with grids := s.grids.assignLevel i n f } b := Named.assignLevel h i n hf

theorem traces_updateLevel (i : String) (n : Nat) (side : OrderSide) :
    Traces localOrderId (attemptGrids (fun grids => grids.updateLevel i n (setOrderId side none))) :=
  keeps_attemptGrids (fun s b g hg h => by
    obtain ⟨-, rfl⟩ := State.Store.updateLevel_ok hg
    exact traces_assignLevel (fun lv => NamedLevel.setOrderId side (.inl rfl)) h)

theorem traces_transitionLevel (i : String) (n : Nat) (target : GridLevelStatus) :
    Traces localOrderId (attemptGrids (fun grids => grids.transitionLevel i n target)) :=
  keeps_attemptGrids (fun s b g hg h => by
    obtain ⟨lv, -, -, rfl⟩ := State.Store.transitionLevel_ok hg
    exact traces_assignLevel (f := setStatus target) (fun lv hlv => hlv) h)

theorem traces_transitionGrid (i : String) (target : GridStatus) :
    Traces localOrderId (attemptGrids (fun grids => grids.transitionGrid i target)) :=
  keeps_attemptGrids (fun s b g' hg h => by
    obtain ⟨g, hgi, -, rfl⟩ := State.Store.transitionGrid_ok hg
    exact Named.put h (h i g hgi))

theorem traces_clearId (i : String) (n : Nat) (side : OrderSide) :
    Traces localOrderId (modifyGrids (fun grids => grids.assignLevel i n (setOrderId side none))) :=
  keeps_modify (fun _ _ h => traces_assignLevel (fun _ => NamedLevel.setOrderId side (.inl rfl)) h)

theorem traces_assignGrid (i : String) {f : GridState → GridState} (hf : ∀ g, (f g).levels = g.levels) :
    Traces localOrderId (modifyGrids (fun grids => grids.assignGrid i f)) :=
  keeps_modify (fun _ _ h => Named.assignGrid h i hf)

theorem traces_modify {f : GridEngine → GridEngine} (hf : ∀ s, (f s).grids = s.grids) :
    Traces localOrderId (modify f : Engine.Op Unit) :=
  keeps_modify (fun s b h => by
    simp only [Traced, hf]
    exact h)

theorem traces_cancelOrder (acct : Option UUID) (orderId : OrderId) :
    Traces localOrderId (cancelOrder acct orderId : Engine.Op OrderResult) :=
  keeps_await (fun _ _ h => traces_request _ h)

theorem traces_onLocks (p : ProfitLock.Engine.Lock LevelKey Owner α) : Traces localOrderId (onLocks p) := by
  induction p with
  | ret a => exact keeps_ret a
  | raise e => exact keeps_raise e
  | get k ih => exact fun s b h => ih s.locks s b h
  | put locks k ih => exact fun s b h => ih { s with locks := locks } b h
  | call q k ih => exact keeps_call (fun s b h => traces_request q h) (fun a => ih a)

theorem traces_placed {owner : Owner} {request : UUID → OrderRequest} (hid : ∀ id, (request id).requestId = id)
    {i : String} {n : Nat} {side : OrderSide} {f : OrderResult → Engine.Op α}
    (hf : ∀ result, Traces localOrderId (f result)) :
    Traces localOrderId (.bind (placeOrder owner request) (fun result =>
      .bind (attemptGrids (fun grids => grids.updateLevel i n (setOrderId side result.orderId)))
        (fun _ => f result))) := by
  intro s b h
  have hnext : Traced s (backend localOrderId b (.placeOrder owner request)).2 := traces_request _ h
  have htaken : ∀ result, (backend localOrderId b (.placeOrder owner request)).1 = .ok result →
      result ∈ (backend localOrderId b (.placeOrder owner request)).2.venue.accepted := fun _ => backend_accepts b hid
  rw [wp_bind, placeOrder, wp_await]
  generalize backend localOrderId b (.placeOrder owner request) = answer at hnext htaken
  obtain ⟨e | result, b'⟩ := answer
  · exact hnext
  · rw [id_eq, andThen_ok, wp_bind]
    refine wp_mono (R := fun _ s' b' => Traced s' b') ?_ ?_
    · rw [attemptGrids, wp_attempt]
      cases hg : s.grids.updateLevel i n (setOrderId side result.orderId) with
      | error e => exact hnext
      | ok r =>
          have hr : r.2 = s.grids.assignLevel i n (setOrderId side result.orderId) :=
            (State.Store.updateLevel_ok hg).2
          have hlevel := traces_assignLevel (i := i) (n := n)
            (fun lv => NamedLevel.setOrderId side (.inr ⟨result, htaken result rfl, rfl⟩)) hnext
          rw [← hr] at hlevel
          exact hlevel
    · rintro (e | u) s' b'' h'
      · exact h'
      · exact hf result s' b'' h'

theorem traces_placeGridOrder (i : String) (a : GridAction) : Traces localOrderId (placeGridOrder i a) := by
  refine keeps_read_bind (fun s => ?_)
  split
  next => exact keeps_raise _
  next => exact traces_placed (fun _ => rfl) (fun _ => keeps_bind (traces_transitionLevel i a.level .opened)
      (fun _ => keeps_ret _))

theorem traces_cancelGridOrder (i : String) (a : GridAction) : Traces localOrderId (cancelGridOrder i a) := by
  refine keeps_read_bind (fun s => ?_)
  split
  next => exact keeps_raise _
  next => exact keeps_ret ()
  next =>
    exact keeps_bind (traces_cancelOrder _ _) (fun _ => keeps_bind (traces_updateLevel i a.level a.side)
      (fun _ => traces_transitionLevel i a.level .cancelled))

theorem traces_placeAll (i : String) (actions : List GridAction) : Traces localOrderId (placeAll i actions) :=
  keeps_forEach (fun a _ => keeps_bind (traces_placeGridOrder i a) (fun _ => keeps_ret ()))

theorem traces_cancelAll (i : String) (actions : List GridAction) : Traces localOrderId (cancelAll i actions) :=
  keeps_forEach (fun a _ => traces_cancelGridOrder i a)

theorem traces_initializeGrid (i : String) (args : InitArgs) : Traces localOrderId (initializeGrid i args) := by
  intro s b h
  rw [initializeGrid, bind_eq, wp_bind, wp_lift]
  cases hstate : initialState i args with
  | error e => exact h
  | ok state =>
      rw [andThen_ok]
      have hput : Traced { s with grids := s.grids.put i state } b :=
        Named.put h (fun lv hlv => namedLevel_of_fresh (fresh_initialState hstate lv hlv))
      rw [bind_eq, wp_bind, modifyGrids, wp_modify]
      exact traces_transitionGrid i .initialized _ b hput

/-- The end that activate_grid and resume_grid have in common. -/
theorem traces_tradeFrom (i : String) (p : ℚ) (actions : List GridAction) : Traces localOrderId (do
    attemptGrids (fun grids => grids.transitionGrid i .active)
    setCurrentPrice i p
    placeAll i actions
    return true) :=
  keeps_bind (traces_transitionGrid i .active) (fun _ => keeps_bind (traces_assignGrid i (fun _ => rfl))
    (fun _ => keeps_bind (traces_placeAll i actions) (fun _ => keeps_ret _)))

theorem traces_activateGrid (i : String) (p : ℚ) : Traces localOrderId (activateGrid i p) := by
  refine keeps_read_bind (fun s => ?_)
  split
  next => exact keeps_raise _
  next => exact traces_tradeFrom i p _

theorem traces_pauseGrid (i : String) : Traces localOrderId (pauseGrid i) := by
  refine keeps_read_bind (fun s => ?_)
  split
  next => exact keeps_raise _
  next =>
    exact keeps_bind (traces_cancelAll i _) (fun _ => keeps_bind (traces_transitionGrid i .paused)
      (fun _ => keeps_ret _))

theorem traces_resumeGrid (i : String) (p : ℚ) : Traces localOrderId (resumeGrid i p) := by
  refine keeps_read_bind (fun s => ?_)
  split
  next => exact keeps_raise _
  next => exact traces_tradeFrom i p _

theorem traces_closeAllGridOrders (i : String) : Traces localOrderId (closeAllGridOrders i) :=
  keeps_read_bind (fun _ => keeps_bind (traces_cancelAll i _) (fun _ => keeps_ret _))

theorem traces_assignBreaker (i : String) (f : CircuitBreakerState → CircuitBreakerState) :
    Traces localOrderId (assignBreaker i f) := traces_modify (fun _ => rfl)

theorem traces_cancelAllPendingBuys (i : String) : Traces localOrderId (cancelAllPendingBuys i) := by
  refine keeps_read_bind (fun s => ?_)
  split
  next => exact keeps_ret ()
  next =>
    refine keeps_forEach (fun n _ => keeps_read_bind (fun s => ?_))
    split
    next => exact keeps_ret ()
    next =>
      split
      next =>
        exact keeps_tryCatch (keeps_bind (traces_cancelOrder _ _) (fun _ => traces_clearId i n .buy))
          (fun _ => keeps_ret ())
      next => exact keeps_ret ()

theorem traces_checkBreaker (today : Date) (i : String) (p : ℚ) : Traces localOrderId (checkBreaker today i p) := by
  refine keeps_read_bind (fun s => ?_)
  split
  next => exact keeps_ret _
  next =>
    split
    next =>
      exact keeps_bind (traces_assignBreaker i _) (fun _ => keeps_bind (traces_cancelAllPendingBuys i)
        (fun _ => keeps_ret _))
    next => exact keeps_bind (traces_assignBreaker i _) (fun _ => keeps_ret _)

theorem traces_passGate (i : String) (p : ℚ) : Traces localOrderId (passGate evaluate i p) := by
  refine keeps_read_bind (fun s => ?_)
  split
  next => exact keeps_ret _
  next =>
    split
    next => exact keeps_bind (traces_assignBreaker i _) (fun _ => keeps_ret _)
    next => exact keeps_ret _

theorem traces_executePlan (i : String) (buysAllowed : Bool) (actions : List GridAction) :
    Traces localOrderId (executePlan i buysAllowed actions) := by
  refine keeps_forEach (fun a _ => ?_)
  have hplace : Traces localOrderId (do let _ ← placeGridOrder i a) :=
    keeps_bind (traces_placeGridOrder i a) (fun _ => keeps_ret ())
  cases ha : a.action with
  | cancel => exact traces_cancelGridOrder i a
  | placeBuy =>
      simp only
      split
      next => exact hplace
      next => exact keeps_ret ()
  | placeSell => exact hplace

theorem traces_forwardToLocks (i : String) (p : ℚ) : Traces localOrderId (forwardToLocks i p) := by
  refine keeps_read_bind (fun s => ?_)
  split
  next =>
    refine keeps_forEach (fun n _ => keeps_read_bind (fun s => ?_))
    split
    next => exact keeps_ret ()
    next =>
      split
      next => exact keeps_tryCatch (traces_onLocks _) (fun _ => keeps_ret ())
      next => exact keeps_ret ()
  next => exact keeps_ret ()

theorem traces_onPriceUpdate (today : Date) (i : String) (p : ℚ) :
    Traces localOrderId (onPriceUpdate evaluate today i p) := by
  refine keeps_read_bind (fun s => ?_)
  split
  next => exact keeps_ret ()
  next =>
    split
    next => exact keeps_ret ()
    next =>
      exact keeps_bind (traces_assignGrid i (fun _ => rfl)) (fun _ => keeps_bind (traces_checkBreaker today i p)
        (fun _ => keeps_read_bind (fun _ => keeps_bind (traces_passGate i p) (fun _ =>
          keeps_bind (traces_executePlan i _ _) (fun _ => traces_forwardToLocks i p)))))

theorem traces_onBuyFilled (i : String) (n : Nat) (fillPrice quantity : ℚ) :
    Traces localOrderId (onBuyFilled i n fillPrice quantity) := by
  refine keeps_read_bind (fun s => ?_)
  split
  next => exact keeps_raise _
  next =>
    refine keeps_bind (traces_transitionLevel i n .filled) (fun _ => keeps_bind (traces_clearId i n .buy)
      (fun _ => keeps_read_bind (fun s => ?_)))
    split
    next => exact keeps_ret ()
    next =>
      split
      next => exact keeps_bind (traces_placeGridOrder i _) (fun _ => keeps_ret ())
      next => exact keeps_ret ()
    next =>
      split
      next => exact keeps_tryCatch (keeps_bind (traces_onLocks _) (fun _ => keeps_ret ())) (fun _ => keeps_ret ())
      next => exact keeps_ret ()

theorem traces_completeCycle (i : String) (n : Nat) (profit : ℚ) : Traces localOrderId (completeCycle i n profit) := by
  refine keeps_bind (traces_assignGrid i (fun _ => rfl)) (fun _ => keeps_read_bind (fun s => ?_))
  split
  next => exact keeps_ret ()
  next =>
    split
    next => exact traces_transitionLevel i n .waiting
    next => exact keeps_ret ()

theorem traces_onSellFilled (i : String) (n : Nat) (fillPrice quantity : ℚ) :
    Traces localOrderId (onSellFilled i n fillPrice quantity) := by
  refine keeps_read_bind (fun s => ?_)
  split
  next => exact keeps_raise _
  next =>
    refine keeps_bind (traces_transitionLevel i n .tpHit) (fun _ => keeps_bind (traces_clearId i n .sell)
      (fun _ => keeps_read_bind (fun s => ?_)))
    split
    next =>
      exact keeps_bind (keeps_tryCatch (keeps_raise _) (fun _ => keeps_ret ())) (fun _ => traces_completeCycle i n _)
    next => exact traces_completeCycle i n _

theorem traces_cancelReplaced (acct : Option UUID) (orderId : OrderId) :
    Traces localOrderId (cancelReplaced acct orderId) := by
  rw [cancelReplaced]
  split
  next => exact keeps_tryCatch (keeps_bind (traces_cancelOrder acct orderId) (fun _ => keeps_ret ())) (fun _ => keeps_ret ())
  next => exact keeps_ret ()

theorem traces_forceBuy (i : String) (level : Option Nat) (price quantity : Option ℚ) :
    Traces localOrderId (forceBuy i level price quantity) := by
  refine keeps_read_bind (fun s => ?_)
  split
  next => exact keeps_raise _
  next =>
    split
    next => exact keeps_raise _
    next =>
      exact keeps_bind (keeps_lift _) (fun lv => keeps_bind (traces_cancelReplaced _ _) (fun _ =>
        traces_placed (fun _ => rfl) (fun _ => keeps_bind (traces_transitionLevel i lv.level .opened)
          (fun _ => keeps_ret _))))

theorem traces_forceSellLevel (i : String) (state : GridState) (sellPrice quantity : Option ℚ) (n : Nat)
    (report : ForceSellReport) : Traces localOrderId (forceSellLevel i state sellPrice quantity n report) := by
  refine keeps_read_bind (fun s => ?_)
  split
  next => exact keeps_raise _
  next =>
    refine keeps_bind (traces_cancelReplaced _ _) (fun _ => ?_)
    cases sellPrice with
    | none => exact keeps_bind (keeps_await (fun _ _ h => traces_request _ h)) (fun _ => keeps_raise _)
    | some p => exact traces_placed (fun _ => rfl) (fun _ => keeps_ret _)

theorem traces_forceSell (i : String) (level : Option Nat) (price quantity : Option ℚ) :
    Traces localOrderId (forceSell i level price quantity) := by
  refine keeps_read_bind (fun s => ?_)
  split
  next => exact keeps_raise _
  next state _ =>
    split
    next => exact keeps_raise _
    next =>
      refine keeps_bind (keeps_lift _) (fun targets => ?_)
      have hlevels : ∀ (ns : List Nat) (report : ForceSellReport), Traces localOrderId
          (forceSellLevels i state (price.or state.currentPrice) quantity ns report) := by
        intro ns
        induction ns with
        | nil => exact fun report => keeps_ret report
        | cons n ns ih => exact fun report => keeps_bind (traces_forceSellLevel i state _ quantity n report) ih
      exact hlevels _ _

theorem traces_void {p : Engine.Op α} (h : Traces localOrderId p) : Traces localOrderId (void p) :=
  keeps_bind h (fun _ => keeps_ret ())

theorem traces_perform (c : Call) : Traces localOrderId (perform evaluate c) := by
  cases c with
  | configureTrailingProfit i config => exact traces_modify (fun _ => rfl)
  | configureTa i configs => exact traces_modify (fun _ => rfl)
  | updateTaCandles i candles => exact traces_modify (fun _ => rfl)
  | configureCircuitBreaker i args => exact traces_modify (fun _ => rfl)
  | updateTaCandles15m i candles => exact traces_modify (fun _ => rfl)
  | initializeGrid i args => exact traces_initializeGrid i args
  | activateGrid i p => exact traces_void (traces_activateGrid i p)
  | pauseGrid i => exact traces_void (traces_pauseGrid i)
  | resumeGrid i p => exact traces_void (traces_resumeGrid i p)
  | closeAllGridOrders i => exact traces_void (traces_closeAllGridOrders i)
  | onPriceUpdate today i p => exact traces_onPriceUpdate today i p
  | onBuyFilled i n fillPrice quantity => exact traces_onBuyFilled i n fillPrice quantity
  | onSellFilled i n fillPrice quantity => exact traces_onSellFilled i n fillPrice quantity
  | forceBuy i level price quantity => exact traces_void (traces_forceBuy i level price quantity)
  | forceSell i level price quantity => exact traces_void (traces_forceSell i level price quantity)
  | lock c =>
      cases c with
      | disable key => exact traces_void (traces_onLocks _)
      | onPriceUpdate key p => exact traces_onLocks _
      | onPositionUpdate key entryPrice quantity => exact traces_onLocks _
      | onOrderFilled key orderId => exact traces_onLocks _
      | onOrderCancelled key orderId => exact traces_onLocks _
      | executeLock key p => exact traces_void (traces_onLocks _)

theorem traced_step {s : Site} (h : Traced s.grids s.backend) (e : Event) :
    Traced (step localOrderId evaluate s e).grids (step localOrderId evaluate s e).backend := by
  cases e with
  | grid c => exact traces_perform c s.grids s.backend h
  | execution c =>
      exact Named.mono h (keeps_world exchange_accepted _ s.backend.engine s.backend.venue (List.Subset.refl _))
  | answers answer => exact h

theorem traced_run {s : Site} (h : Traced s.grids s.backend) (events : List Event) :
    Traced (runEvents localOrderId evaluate s events).grids (runEvents localOrderId evaluate s events).backend :=
  foldl_keeps (I := fun s : Site => Traced s.grids s.backend) (fun _ e h => traced_step h e) events h

theorem traced_start (hasProfitLock : Bool) (engine : Execution.Engine.ExecutionEngine)
    (answer : Nat → (q : AdapterReq) → AdapterAns q) :
    Traced (start hasProfitLock engine answer).grids (start hasProfitLock engine answer).backend := by
  intro i g hg
  cases hg

end

/-- A level of the grid holds the id. -/
def HeldBy (g : GridState) (orderId : OrderId) : Prop := orderId ≠ none ∧ ∃ lv ∈ g.levels, Holds lv orderId

/-- The adapter reports the orders that the grid holds, and no others, as live. -/
structure ReportsExactly (accepted : List OrderResult) (g : GridState) (liveOrders : List OrderResult) : Prop where
  held : ∀ o ∈ liveOrders, isLive o = true ∧
    ∃ r ∈ accepted, r.exchangeOrderId = o.exchangeOrderId ∧ HeldBy g r.orderId
  all : ∀ r ∈ accepted, HeldBy g r.orderId → ∃ o ∈ liveOrders, o.exchangeOrderId = r.exchangeOrderId

/-- The two ids of the result are one. -/
def OneName (r : OrderResult) : Prop := r.exchangeOrderId ≠ "" ∧ r.orderId = some r.exchangeOrderId

variable {g : GridState} {liveOrders : List OrderResult}

theorem findOrphanOrders_eq_nil_iff : findOrphanOrders g liveOrders = [] ↔
    ∀ o ∈ liveOrders, isLive o = true → o.exchangeOrderId ∈ localOrderIds g := by
  simp only [findOrphanOrders, List.filter_eq_nil_iff, Bool.and_eq_true, decide_eq_true_eq, not_and, not_not]

theorem findMissingOrders_eq_nil_of {g : GridState}
    (h : ∀ lv ∈ g.levels, ∀ orderId, Holds lv orderId → truthy orderId = true →
      ∃ o ∈ liveOrders, isLive o = true ∧ o.exchangeOrderId = str orderId) : findMissingOrders g liveOrders = [] := by
  refine List.filter_eq_nil_iff.mpr (fun lv hlv hmissing => ?_)
  have hknown : ∀ orderId, Holds lv orderId →
      ¬ (truthy orderId && decide (str orderId ∉ (liveOrders.filter isLive).map OrderResult.exchangeOrderId)) = true := by
    intro orderId hheld hunknown
    obtain ⟨htruthy, hnot⟩ := Bool.and_eq_true_iff.mp hunknown
    obtain ⟨o, ho, hlive, hid⟩ := h lv hlv orderId hheld htruthy
    exact of_decide_eq_true hnot (hid ▸ List.mem_map_of_mem (List.mem_filter.mpr ⟨ho, hlive⟩))
  simp only [isMissing, Bool.and_eq_true, Bool.or_eq_true] at hmissing
  rcases hmissing.2 with hbuy | hsell
  · exact hknown lv.buyOrderId (.inl rfl) (Bool.and_eq_true_iff.mpr hbuy)
  · exact hknown lv.sellOrderId (.inr rfl) (Bool.and_eq_true_iff.mpr hsell)

theorem mem_localOrderIds {id : String} (hid : id ≠ "") (h : HeldBy g (some id)) : id ∈ localOrderIds g := by
  obtain ⟨-, lv, hlv, hheld⟩ := h
  refine List.mem_flatMap.mpr ⟨lv, hlv, List.mem_map.mpr ⟨some id, List.mem_filter.mpr ⟨?_, ?_⟩, rfl⟩⟩
  · rcases hheld with hbuy | hsell
    · simp [hbuy]
    · simp [hsell]
  · simpa [truthy] using hid

/-- While the adapter gives its orders one id each, the reconciler finds nothing to complain of. -/
theorem nothing_missing_of_oneName (localOrderId : Nat → String) (evaluate : Evaluate) (hasProfitLock : Bool)
    (engine : Execution.Engine.ExecutionEngine) (answer : Nat → (q : AdapterReq) → AdapterAns q) (events : List Event)
    (hnames : ∀ r ∈ (runEvents localOrderId evaluate (start hasProfitLock engine answer) events).backend.venue.accepted,
      OneName r) :
    ∀ i g, (runEvents localOrderId evaluate (start hasProfitLock engine answer) events).grids.grids i = some g →
      ∀ liveOrders, ReportsExactly
          (runEvents localOrderId evaluate (start hasProfitLock engine answer) events).backend.venue.accepted g
          liveOrders →
        findMissingOrders g liveOrders = [] ∧ findOrphanOrders g liveOrders = [] := by
  intro i g hg liveOrders hreports
  have htraced := @traced_run localOrderId evaluate _ (traced_start hasProfitLock engine answer) events i g hg
  constructor
  · refine findMissingOrders_eq_nil_of (fun lv hlv orderId hheld htruthy => ?_)
    rcases htraced lv hlv orderId hheld with rfl | ⟨r, hr, rfl⟩
    · cases htruthy
    · obtain ⟨-, hid⟩ := hnames r hr
      obtain ⟨o, ho, hsame⟩ := hreports.all r hr ⟨by rw [hid]; exact Option.some_ne_none _, lv, hlv, hheld⟩
      exact ⟨o, ho, (hreports.held o ho).1, by rw [hsame, hid]; rfl⟩
  · refine findOrphanOrders_eq_nil_iff.mpr (fun o ho _ => ?_)
    obtain ⟨-, r, hr, hsame, hheld⟩ := hreports.held o ho
    obtain ⟨hne, hid⟩ := hnames r hr
    rw [hid] at hheld
    rw [← hsame]
    exact mem_localOrderIds hne hheld

def placed (orderId exchangeOrderId : String) (args : PlaceArgs) : OrderResult :=
  { orderId := some orderId, exchangeOrderId := exchangeOrderId, symbol := args.symbol, side := args.side
    orderType := args.orderType, quantity := args.quantity, price := args.price, filledQuantity := 0
    averageFillPrice := none, status := "open" }

/-- An exchange that numbers its orders and accepts them all, with the client ids it is given here. -/
def accepting (clientOrderId : Nat → String) (n : Nat) (q : AdapterReq) : AdapterAns q :=
  match q with
  | .placeOrder _ _ args => .ok (placed (clientOrderId n) (toString n) args)
  | .cancelOrder .. => .ok true
  | .getOrder .. => .error (.orderNotFound "")
  | .getOpenOrders .. => .ok []
  | .sleep _ => ()

/-- A grid of two levels is opened on the account of an adapter. -/
def opening : List LiveTrading.Event :=
  [.execution (.registerAdapter 1 ⟨"binance"⟩), .grid (.initializeGrid "grid" twoLevels),
    .grid (.activateGrid "grid" 115)]

def opened (clientOrderId : Nat → String) : Site :=
  runEvents Execution.Engine.localId (fun _ _ _ => true) (start true {} (accepting clientOrderId)) opening

/-- The two buys of the grid, as the adapter reports them. -/
def buys (clientOrderId : Nat → String) : List OrderResult :=
  [placed (clientOrderId 1) "1" ⟨"BTCUSDT", "buy", "limit", 2, some 110, none, none⟩,
    placed (clientOrderId 0) "0" ⟨"BTCUSDT", "buy", "limit", 11 / 5, some 100, none, none⟩]

def openedGrid (clientOrderId : Nat → String) : GridState :=
  { tradingGrid with
    levels := [{ level := 0, buyPrice := 100, sellPrice := 120, quantity := 11 / 5, status := .opened
                 buyOrderId := some (clientOrderId 0) },
               { level := 1, buyPrice := 110, sellPrice := 120, quantity := 2, status := .opened
                 buyOrderId := some (clientOrderId 1) }] }

theorem reportsExactly_buys (clientOrderId : Nat → String) :
    ReportsExactly (buys clientOrderId) (openedGrid clientOrderId) (buys clientOrderId) where
  held o ho := by
    refine ⟨?_, o, ho, rfl, ?_⟩
    · rcases List.mem_pair.mp ho with rfl | rfl <;> rfl
    · rcases List.mem_pair.mp ho with rfl | rfl
      · exact ⟨Option.some_ne_none _, _, List.mem_cons_of_mem _ List.mem_cons_self, .inl rfl⟩
      · exact ⟨Option.some_ne_none _, _, List.mem_cons_self, .inl rfl⟩
  all r hr _ := ⟨r, hr, rfl⟩

theorem nothing_missing_of_oneName_two : findMissingOrders (openedGrid toString) (buys toString) = [] ∧
    findOrphanOrders (openedGrid toString) (buys toString) = [] := by
  have haccepted : (opened toString).backend.venue.accepted = buys toString := by decide +kernel
  refine nothing_missing_of_oneName Execution.Engine.localId (fun _ _ _ => true) true {} (accepting toString) opening
    (fun r hr => ?_) "grid" (openedGrid toString) (by decide +kernel) (buys toString) ?_
  · rcases List.mem_pair.mp (haccepted ▸ hr) with rfl | rfl
    · exact ⟨by decide +kernel, by decide +kernel⟩
    · exact ⟨by decide +kernel, by decide +kernel⟩
  · show ReportsExactly (opened toString).backend.venue.accepted _ _
    rw [haccepted]
    exact reportsExactly_buys toString

def clientIds (n : Nat) : String := s!"x-{n}"

/-- On an exchange with client ids of its own, both levels count as missing and both orders as orphans. -/
theorem client_ids_disagree : ¬ ∀ (localOrderId : Nat → String) (evaluate : Evaluate) (hasProfitLock : Bool)
    (engine : Execution.Engine.ExecutionEngine) (answer : Nat → (q : AdapterReq) → AdapterAns q)
    (events : List LiveTrading.Event) (i : String) (g : GridState),
    (runEvents localOrderId evaluate (start hasProfitLock engine answer) events).grids.grids i = some g →
      ∀ liveOrders, ReportsExactly
          (runEvents localOrderId evaluate (start hasProfitLock engine answer) events).backend.venue.accepted g
          liveOrders →
        findMissingOrders g liveOrders = [] ∧ findOrphanOrders g liveOrders = [] := by
  intro h
  have haccepted : (opened clientIds).backend.venue.accepted = buys clientIds := by decide +kernel
  have hreports : ReportsExactly (opened clientIds).backend.venue.accepted (openedGrid clientIds) (buys clientIds) := by
    rw [haccepted]
    exact reportsExactly_buys clientIds
  have hempty := (h Execution.Engine.localId (fun _ _ _ => true) true {} (accepting clientIds) opening "grid"
    (openedGrid clientIds) (by decide +kernel) (buys clientIds) hreports).1
  exact absurd hempty (by decide +kernel)

end Utos.Recovery.OrderNames
