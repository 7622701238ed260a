import Utos.Grid.Trading
import Utos.Grid.Terms

namespace Utos.Grid.Frames

open Coroutine Program Core.DomainTypes Core.Exceptions Execution.Models Execution.Service
open State CircuitBreaker Planner Engine Trading

variable {evaluate : Evaluate} {I : GridEngine → Prop} {G : GridEngine → GridEngine → Prop} {α : Type}

/-- What the engine does to a level object: it notes an order id or a status. -/
inductive Marks : (GridLevel → GridLevel) → Prop
  | orderId (side : OrderSide) (orderId : OrderId) : Marks (setOrderId side orderId)
  | status (target : GridLevelStatus) : Marks (setStatus target)

/-- The program keeps I wherever it starts and whatever it is answered, and all its writes are of the kind G. -/
abbrev Writes (I : GridEngine → Prop) (G : GridEngine → GridEngine → Prop) (p : Op α) : Prop :=
  Steady (.bare I G (fun _ => True)) () p

/-- The marks of the levels and the locks are written as it should be. -/
structure Tolerates (I : GridEngine → Prop) (G : GridEngine → GridEngine → Prop) : Prop where
  levels : ∀ s j n f, Marks f → I s →
    I { s with grids := s.grids.assignLevel j n f } ∧ G s { s with grids := s.grids.assignLevel j n f }
  locks : ∀ s locks, I s → I { s with locks := locks } ∧ G s { s with locks := locks }

theorem writes_placeOrder (owner : Owner) (request : UUID → OrderRequest) :
    Writes I G (placeOrder owner request : Op OrderResult) :=
  steady_await _ (fun _ _ => trivial) rfl

theorem writes_cancelOrder (acct : Option UUID) (orderId : OrderId) :
    Writes I G (cancelOrder acct orderId : Op OrderResult) :=
  steady_await _ (fun _ _ => trivial) rfl

theorem writes_void {p : Op α} (hp : Writes I G p) : Writes I G (void p) := steady_bind hp (fun _ => steady_ret ())

theorem writes_onLocks (hI : Tolerates I G) (p : ProfitLock.Engine.Lock LevelKey Owner α) :
    Writes I G (onLocks p) :=
  steady_zoom locksLens hI.locks (fun _ => trivial) p

theorem writes_attemptGrids {f : State.Store → Except Exn (Unit × State.Store)}
    (hf : ∀ s a grids, I s → f s.grids = .ok (a, grids) → I { s with grids := grids } ∧ G s { s with grids := grids }) :
    Writes I G (attemptGrids f) := by
  intro s hs
  rw [Terms.under_attemptGrids]
  split
  next a grids hg =>
    obtain ⟨hkept, hkind⟩ := hf s a grids hs hg
    exact ⟨hkept, hkind, rfl, hkept⟩
  next => exact ⟨rfl, hs⟩

theorem writes_modifyGrids {f : State.Store → State.Store}
    (hf : ∀ s, I s → I { s with grids := f s.grids } ∧ G s { s with grids := f s.grids }) :
    Writes I G (modifyGrids f) := steady_modify hf

theorem writes_updateLevel (hI : Tolerates I G) (j : String) (n : Nat) (side : OrderSide) (orderId : OrderId) :
    Writes I G (attemptGrids (fun grids => grids.updateLevel j n (setOrderId side orderId))) :=
  writes_attemptGrids (fun s a grids hs hg => by
    obtain ⟨-, rfl⟩ := State.Store.updateLevel_ok hg
    exact hI.levels s j n _ (.orderId side orderId) hs)

theorem writes_transitionLevel (hI : Tolerates I G) (j : String) (n : Nat) (target : GridLevelStatus) :
    Writes I G (attemptGrids (fun grids => grids.transitionLevel j n target)) :=
  writes_attemptGrids (fun s a grids hs hg => by
    obtain ⟨lv, -, -, rfl⟩ := State.Store.transitionLevel_ok hg
    exact hI.levels s j n _ (.status target) hs)

theorem writes_clearOrderId (hI : Tolerates I G) (j : String) (n : Nat) (side : OrderSide) :
    Writes I G (modifyGrids (fun grids => grids.assignLevel j n (setOrderId side none))) :=
  writes_modifyGrids (fun s hs => hI.levels s j n _ (.orderId side none) hs)

theorem writes_placeGridOrder (hI : Tolerates I G) (j : String) (a : GridAction) :
    Writes I G (placeGridOrder j a) := by
  refine steady_read_bind (fun s hs => ?_)
  split
  next => exact steady_raise _
  next =>
    exact steady_bind (writes_placeOrder _ _) (fun result => steady_bind (writes_updateLevel hI j a.level _ _)
      (fun _ => steady_bind (writes_transitionLevel hI j a.level .opened) (fun _ => steady_ret _)))

theorem writes_cancelGridOrder (hI : Tolerates I G) (j : String) (a : GridAction) :
    Writes I G (cancelGridOrder j a) := by
  refine steady_read_bind (fun s hs => ?_)
  split
  next => exact steady_raise _
  next => exact steady_ret ()
  next =>
    exact steady_bind (writes_cancelOrder _ _) (fun _ => steady_bind (writes_updateLevel hI j a.level _ _)
      (fun _ => writes_transitionLevel hI j a.level .cancelled))

theorem writes_placeAll (hI : Tolerates I G) (j : String) (actions : List GridAction) :
    Writes I G (placeAll j actions) :=
  steady_forEach (fun a _ => steady_bind (writes_placeGridOrder hI j a) (fun _ => steady_ret ()))

theorem writes_cancelAll (hI : Tolerates I G) (j : String) (actions : List GridAction) :
    Writes I G (cancelAll j actions) :=
  steady_forEach (fun a _ => writes_cancelGridOrder hI j a)

/-- A failed cancel of a pending buy is swallowed. -/
theorem under_cancelPendingBuy (hI : Tolerates I G) (j : String) (acct : Option UUID) (n : Nat) {s : GridEngine}
    (hs : I s) : Under (.bare I G (fun _ => True)) (cancelPendingBuy j acct n)
      (fun r _ s' => r = .ok () ∧ I s') () s := by
  rw [cancelPendingBuy, bind_eq, under_bind, under_read, thenUnder_ok]
  split
  next => exact ⟨rfl, hs⟩
  next lv _ =>
    split
    next =>
      rw [tryCatch_eq, under_tryCatch]
      have hbody : Writes I G (do
          let _ ← (cancelOrder acct lv.buyOrderId : Op OrderResult)
          modifyGrids (fun grids => grids.assignLevel j n (setOrderId .buy none))) :=
        steady_bind (writes_cancelOrder acct _) (fun _ => writes_clearOrderId hI j n .buy)
      refine under_mono (hbody s hs) ?_
      rintro (e | u) o' s' ⟨-, hs'⟩
      · exact ⟨rfl, hs'⟩
      · exact ⟨rfl, hs'⟩
    next => exact ⟨rfl, hs⟩

theorem under_cancelAllPendingBuys (hI : Tolerates I G) (j : String) {s : GridEngine} (hs : I s) :
    Under (.bare I G (fun _ => True)) (cancelAllPendingBuys j)
      (fun r _ s' => r = .ok () ∧ I s') () s := by
  rw [cancelAllPendingBuys, bind_eq, under_bind, under_read, thenUnder_ok]
  split
  next => exact ⟨rfl, hs⟩
  next g _ =>
    refine under_forEach (fun _ _ s => I s) _ ?_ (fun _ _ h => ⟨rfl, h⟩) _ hs
    rintro n ns o s1 hs1
    refine under_mono (under_cancelPendingBuy hI j _ n hs1) ?_
    rintro _ o' s2 ⟨rfl, hs2⟩
    exact hs2

theorem writes_executePlan (hI : Tolerates I G) (j : String) (buysAllowed : Bool) (actions : List GridAction) :
    Writes I G (executePlan j buysAllowed actions) := by
  refine steady_forEach (fun a _ => ?_)
  have hplace : Writes I G (do let _ ← placeGridOrder j a) :=
    steady_bind (writes_placeGridOrder hI j a) (fun _ => steady_ret ())
  cases ha : a.action with
  | cancel => exact writes_cancelGridOrder hI j a
  | placeBuy =>
      simp only
      split
      next => exact hplace
      next => exact steady_ret ()
  | placeSell => exact hplace

theorem writes_cancelReplaced (acct : Option UUID) (orderId : OrderId) : Writes I G (cancelReplaced acct orderId) := by
  rw [cancelReplaced]
  split
  next => exact steady_tryCatch (steady_bind (writes_cancelOrder acct orderId) (fun _ => steady_ret ())) (fun _ => steady_ret ())
  next => exact steady_ret ()

theorem writes_forwardToLocks (hI : Tolerates I G) (j : String) (p : ℚ) : Writes I G (forwardToLocks j p) := by
  refine steady_read_bind (fun s hs => ?_)
  split
  next =>
    refine steady_forEach (fun n _ => steady_read_bind (fun s hs => ?_))
    split
    next => exact steady_ret ()
    next =>
      split
      next => exact steady_tryCatch (writes_onLocks hI _) (fun _ => steady_ret ())
      next => exact steady_ret ()
  next => exact steady_ret ()

theorem writes_carryOut (hI : Tolerates I G) {j : String} {p : ℚ} {justTriggered : Bool}
    (hassign : ∀ f, Writes I G (assignBreaker j f)) :
    Writes I G (.bind .read (fun s => .bind (passGate evaluate j p) (fun gate =>
      .bind (executePlan j (!justTriggered && gate) (plan (s.grids.listLevels j) p
        (breakerContext (s.breakers j)).1 (breakerContext (s.breakers j)).2)) (fun _ => forwardToLocks j p)))) := by
  refine steady_read_bind (fun s hs => steady_bind (steady_read_bind (fun s hs => ?_)) (fun _ =>
    steady_bind (writes_executePlan hI j _ _) (fun _ => writes_forwardToLocks hI j p)))
  split
  next => exact steady_ret _
  next =>
    split
    next => exact steady_bind (hassign _) (fun _ => steady_ret _)
    next => exact steady_ret _

theorem writes_onPriceUpdate (hI : Tolerates I G) {today : Date} {j : String} {p : ℚ}
    (hprice : Writes I G (setCurrentPrice j p)) (hassign : ∀ f, Writes I G (assignBreaker j f)) : Writes I G (onPriceUpdate evaluate today j p) := by
  refine steady_read_bind (fun s hs => ?_)
  split
  next => exact steady_ret ()
  next =>
    split
    next => exact steady_ret ()
    next =>
      refine steady_bind hprice (fun _ => steady_bind (steady_read_bind (fun s hs => ?_))
        (fun _ => writes_carryOut hI hassign))
      split
      next => exact steady_ret _
      next =>
        split
        next =>
          refine steady_bind (hassign _) (fun _ => steady_bind (fun s hs => ?_) (fun _ => steady_ret _))
          exact under_mono (under_cancelAllPendingBuys hI j hs) (fun _ _ _ h => ⟨rfl, h.2⟩)
        next => exact steady_bind (hassign _) (fun _ => steady_ret _)

theorem writes_onBuyFilled (hI : Tolerates I G) (j : String) (n : Nat) (fillPrice quantity : ℚ) :
    Writes I G (onBuyFilled j n fillPrice quantity) := by
  refine steady_read_bind (fun s hs => ?_)
  split
  next => exact steady_raise _
  next lv _ =>
    refine steady_bind (writes_transitionLevel hI j n .filled) (fun _ =>
      steady_bind (writes_clearOrderId hI j n .buy) (fun _ => steady_read_bind (fun s hs => ?_)))
    split
    next => exact steady_ret ()
    next =>
      split
      next => exact steady_bind (writes_placeGridOrder hI j _) (fun _ => steady_ret ())
      next => exact steady_ret ()
    next =>
      split
      next => exact steady_tryCatch (steady_bind (writes_onLocks hI _) (fun _ => steady_ret ())) (fun _ => steady_ret ())
      next => exact steady_ret ()

theorem writes_onSellFilled (hI : Tolerates I G) (j : String) (n : Nat) (fillPrice quantity : ℚ)
    (hcycle : ∀ profit, Writes I G (modifyGrids (fun grids => grids.assignGrid j (fun g => { g with
      totalCycles := g.totalCycles + 1
      totalProfit := g.totalProfit + profit })))) : Writes I G (onSellFilled j n fillPrice quantity) := by
  have hcomplete : ∀ profit, Writes I G (completeCycle j n profit) := by
    intro profit
    refine steady_bind (hcycle profit) (fun _ => steady_read_bind (fun s hs => ?_))
    split
    next => exact steady_ret ()
    next =>
      split
      next => exact writes_transitionLevel hI j n .waiting
      next => exact steady_ret ()
  refine steady_read_bind (fun s hs => ?_)
  split
  next => exact steady_raise _
  next lv _ =>
    refine steady_bind (writes_transitionLevel hI j n .tpHit) (fun _ =>
      steady_bind (writes_clearOrderId hI j n .sell) (fun _ => steady_read_bind (fun s hs => ?_)))
    split
    next =>
      exact steady_bind (steady_tryCatch (steady_raise _) (fun _ => steady_ret ())) (fun _ => hcomplete _)
    next => exact hcomplete _

theorem writes_forceBuy (hI : Tolerates I G) (j : String) (level : Option Nat) (price quantity : Option ℚ) :
    Writes I G (forceBuy j level price quantity) := by
  refine steady_read_bind (fun s hs => ?_)
  split
  next => exact steady_raise _
  next g _ =>
    split
    next => exact steady_raise _
    next =>
      refine steady_bind (steady_lift _) (fun lv => steady_bind (writes_cancelReplaced _ _) (fun _ =>
        steady_bind (writes_placeOrder _ _) (fun result => steady_bind (writes_updateLevel hI j lv.level _ _)
          (fun _ => steady_bind (writes_transitionLevel hI j lv.level .opened) (fun _ => steady_ret _)))))

theorem writes_forceSellLevels (hI : Tolerates I G) (j : String) (g : GridState) (sellPrice quantity : Option ℚ)
    (levels : List Nat) (report : ForceSellReport) :
    Writes I G (forceSellLevels j g sellPrice quantity levels report) := by
  induction levels generalizing report with
  | nil => exact steady_ret report
  | cons n levels ih =>
      refine steady_bind (steady_read_bind (fun s hs => ?_)) ih
      split
      next => exact steady_raise _
      next lv _ =>
        refine steady_bind (writes_cancelReplaced _ _) (fun _ => steady_bind (writes_placeOrder _ _) (fun result => ?_))
        split
        next => exact steady_raise _
        next => exact steady_bind (writes_updateLevel hI j n _ _) (fun _ => steady_ret _)

theorem writes_forceSell (hI : Tolerates I G) (j : String) (level : Option Nat) (price quantity : Option ℚ) :
    Writes I G (forceSell j level price quantity) := by
  refine steady_read_bind (fun s hs => ?_)
  split
  next => exact steady_raise _
  next g _ =>
    split
    next => exact steady_raise _
    next => exact steady_bind (steady_lift _) (fun _ => writes_forceSellLevels hI j g _ _ _ _)

theorem writes_performLock (hI : Tolerates I G) (call : LockCall) : Writes I G (performLock call) := by
  cases call with
  | disable | executeLock => exact writes_void (writes_onLocks hI _)
  | onPriceUpdate | onPositionUpdate | onOrderFilled | onOrderCancelled => exact writes_onLocks hI _

theorem writes_initializeGrid (j : String) (args : InitArgs)
    (hput : ∀ state, Writes I G (modifyGrids (fun grids => grids.put j state)))
    (hstatus : Writes I G (attemptGrids (fun grids => grids.transitionGrid j .initialized))) :
    Writes I G (initializeGrid j args) :=
  steady_bind (steady_lift _) (fun state => steady_bind (hput state) (fun _ => hstatus))

/-- The end that activate_grid and resume_grid have in common. -/
theorem writes_tradeFrom (hI : Tolerates I G) (j : String) (p : ℚ) (actions : List GridAction)
    (hprice : Writes I G (setCurrentPrice j p))
    (hstatus : Writes I G (attemptGrids (fun grids => grids.transitionGrid j .active))) :
    Writes I G (do
      attemptGrids (fun grids => grids.transitionGrid j .active)
      setCurrentPrice j p
      placeAll j actions
      return true) :=
  steady_bind hstatus (fun _ => steady_bind hprice (fun _ => steady_bind (writes_placeAll hI j actions) (fun _ => steady_ret _)))

theorem writes_activateGrid (hI : Tolerates I G) (j : String) (p : ℚ) (hprice : Writes I G (setCurrentPrice j p))
    (hstatus : Writes I G (attemptGrids (fun grids => grids.transitionGrid j .active))) :
    Writes I G (activateGrid j p) := by
  refine steady_read_bind (fun s hs => ?_)
  split
  next => exact steady_raise _
  next => exact writes_tradeFrom hI j p _ hprice hstatus

theorem writes_pauseGrid (hI : Tolerates I G) (j : String)
    (hstatus : Writes I G (attemptGrids (fun grids => grids.transitionGrid j .paused))) :
    Writes I G (pauseGrid j) := by
  refine steady_read_bind (fun s hs => ?_)
  split
  next => exact steady_raise _
  next => exact steady_bind (writes_cancelAll hI j _) (fun _ => steady_bind hstatus (fun _ => steady_ret _))

theorem writes_resumeGrid (hI : Tolerates I G) (j : String) (p : ℚ) (hprice : Writes I G (setCurrentPrice j p))
    (hstatus : Writes I G (attemptGrids (fun grids => grids.transitionGrid j .active))) :
    Writes I G (resumeGrid j p) := by
  refine steady_read_bind (fun s hs => ?_)
  split
  next => exact steady_raise _
  next => exact writes_tradeFrom hI j p _ hprice hstatus

theorem writes_closeAllGridOrders (hI : Tolerates I G) (j : String) : Writes I G (closeAllGridOrders j) :=
  steady_read_bind (fun _ _ => steady_bind (writes_cancelAll hI j _) (fun _ => steady_ret _))

end Utos.Grid.Frames
