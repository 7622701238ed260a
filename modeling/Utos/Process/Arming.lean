import Utos.Execution.Adapters
import Utos.Grid.BreakerRun
import Utos.MarketData.Hub
import Utos.Process.Market
import Utos.Process.Records
import Utos.Recovery.LiveTrading
import Utos.Services.BreakerScreeningStore

namespace Utos.Process.Arming

open Coroutine Program Core Core.DomainTypes Core.Exceptions Execution.Service Execution.Executor
open StateMachine Manager Wiring Lifecycle Records Market
open Runs (botArgs)
open Grid Grid.CircuitBreaker Grid.Frames Grid.BreakerRun Grid.Trading
open Grid.Engine hiding Op
open Recovery.LiveTrading (Backend backend)
open Repositories.Thresholds (Numeric)
open Services.Screening

/-- What lies outside the managers: the execution engine of each worker with the
exchange behind it, the table breaker_thresholds, and the answers of everything else. -/
structure World where
  backends : WorkerId → Backend
  thresholds : Repositories.Thresholds.Rows := ∅
  -- the arguments of setup_breaker_for_instance, whatever they are
  query : InstanceId → BreakerQuery
  script : Nat → (q : Req) → Ans q
  clock : Nat := 0

def World.tick (ω : World) : World := { ω with clock := ω.clock + 1 }

variable (numeric : Numeric) (localOrderId : Nat → String)

/-- BreakerScreeningStore() and what setup_breaker_for_instance reads with it. -/
def wiringConfig (rows : Repositories.Thresholds.Rows) (query : BreakerQuery) : Except Exn BreakerArgs := do
  -- the market hub is not passed on to the store
  let _ ← BreakerScreeningStore.init (none : Option MarketData.Hub.MarketHub)
  return (getBreakerConfig numeric rows query).args

/-- The orders of a grid engine go to the execution engine of its process. -/
def server : Handler World Req Ans := fun ω q => match q with
  | .exec w q =>
      ((backend localOrderId (ω.backends w) q).1,
        { ω with backends := Function.update ω.backends w (backend localOrderId (ω.backends w) q).2 })
  | .breakerConfig i => (wiringConfig numeric ω.thresholds (ω.query i), ω.tick)
  | q => (ω.script ω.clock q, ω.tick)

/-- ExecutionEngine() -/
def Backend.fresh (b : Backend) : Backend := { b with engine := {} }

/-- A manager or a grid engine is called, a process goes through its lifespan
again, a lock expires, or tables and answers change. -/
inductive Event
  | manager (c : Lifecycle.Call)
  | grid (w : WorkerId) (c : Trading.Call)
  | lifespan (w : WorkerId) (gridUp hubUp : Bool)
  | expire (i : InstanceId)
  | world (ω : World)

variable (evaluate : Evaluate)

def step (x : System × World) : Event → System × World
  | .manager c => (run (server numeric localOrderId) (perform c) x.1 x.2).2
  | .grid w c => (run (server numeric localOrderId) (onGrid w (Trading.perform evaluate c)) x.1 x.2).2
  | .lifespan w gridUp hubUp =>
      (x.1.setWorker w (fun _ => { gridUp := gridUp, hubUp := hubUp }),
        { x.2 with backends := Function.update x.2.backends w (Backend.fresh (x.2.backends w)) })
  | .expire i => ({ x.1 with locks := Function.update x.1.locks i none }, x.2)
  | .world ω => (x.1, { ω with backends := fun w => ⟨(x.2.backends w).engine, (ω.backends w).venue⟩ })

def runEvents (x : System × World) (events : List Event) : System × World :=
  events.foldl (step numeric localOrderId evaluate) x

/-- The servers as lifespan starts them, over whatever the tables and Redis hold. -/
def lifespan (s : System) (ω : World) : System × World :=
  ({ rows := s.rows, locks := s.locks }, { ω with backends := fun w => Backend.fresh (ω.backends w) })

def Reached (x : System × World) : Prop :=
  ∃ s ω events, runEvents numeric localOrderId evaluate (lifespan s ω) events = x

/-- The execution engine has an adapter for the account of the bot, and a bot
with a breaker has the one of its exchange, symbol and rate in the grid engine. -/
structure Armed (w : WorkerId) (row : TradingInstance) (x : System × World) : Prop where
  adapter : ((x.2.backends w).engine.adapters.get row.exchangeAccountId).isSome
  breaker : ∀ rate, row.breakerEnabled = true → row.continuationRate = some rate → ∃ ref b,
    (x.1.workers w).registry row.id = some ref ∧ (x.1.workers w).grid.breakers row.id = some b ∧
      Installs (getBreakerConfig numeric x.2.thresholds
        { symbol := row.symbol, minContinuationRate := rate, exchange := (x.1.processes ref).exchangeName }) b

variable {numeric} {localOrderId} {evaluate}

def Unregistered (ω : World) : Prop := ∀ w, (ω.backends w).engine.adapters = ∅

theorem backend_adapters (b : Backend) (q : ExecReq Owner) :
    (backend localOrderId b q).2.engine.adapters = b.engine.adapters := by
  cases q with
  | placeOrder owner request => exact Execution.Adapters.same_placeOrder localOrderId b.engine b.venue rfl
  | cancelOrder acct orderId => exact Execution.Adapters.same_cancelOrder b.engine b.venue rfl

theorem server_unregistered (ω : World) (q : Req) (hω : Unregistered ω) :
    Unregistered (server numeric localOrderId ω q).2 := by
  cases q with
  | exec w q =>
      intro w'
      by_cases hw : w' = w
      · subst hw
        simpa [server, backend_adapters] using hω w'
      · simpa [server, hw] using hω w'
  | _ => exact hω

theorem unregistered_step {x : System × World} (hx : Unregistered x.2) (e : Event) :
    Unregistered (step numeric localOrderId evaluate x e).2 := by
  cases e with
  | manager c => exact run_keeps server_unregistered _ _ hx
  | grid w c => exact run_keeps server_unregistered _ _ hx
  | lifespan w gridUp hubUp =>
      intro w'
      by_cases hw : w' = w
      · subst hw
        simp [step, Backend.fresh]
      · simpa [step, hw] using hx w'
  | expire i => exact hx
  | world ω => exact hx

/-- Nothing that the servers do registers an adapter. -/
theorem unregistered_of_reached {x : System × World} (hx : Reached numeric localOrderId evaluate x) :
    Unregistered x.2 := by
  obtain ⟨s, ω, events, rfl⟩ := hx
  exact foldl_keeps (I := fun x : System × World => Unregistered x.2) (fun _ e hx => unregistered_step hx e) events
    (fun _ => rfl)

section

variable {W : Type} {h : Handler W Req Ans} {w : WorkerId} {i : InstanceId} {row : TradingInstance}
variable {b : Option CircuitBreakerState} {α : Type}

abbrev BreakerIs (w : WorkerId) (i : InstanceId) (b : Option CircuitBreakerState) : System → W → Prop :=
  fun s _ => (s.workers w).grid.breakers i = b

theorem breakerIs_setWorker {s : System} {ω : W} (hs : BreakerIs w i b s ω) {f : Worker → Worker}
    (hf : (f (s.workers w)).grid = (s.workers w).grid) : BreakerIs w i b (s.setWorker w f) ω := by
  simp only [BreakerIs, System.setWorker, Function.update_self, hf]
  exact hs

theorem keeps_onGrid {p : Grid.Engine.Op α} (hp : Leaves (fun g => g.breakers i = b) p) :
    Keeps h (BreakerIs w i b) (onGrid w p) := by
  intro s ω hs
  refine (wp_onGrid p).mpr (wp_mono (wp_of_under (fun _ _ => True) (fun _ _ => trivial) (fun _ _ _ => trivial)
    (fun _ _ _ _ _ _ _ => trivial) p (hp _ hs) hs ω trivial) ?_)
  rintro r grid ω' ⟨-, hgrid, -, -⟩
  have hb : grid.breakers i = b := hgrid
  simpa [BreakerIs] using hb

theorem keeps_initializes (j : InstanceId) (args : InitArgs) :
    Keeps h (BreakerIs w i b) (onGrid w (initializeGrid j args)) :=
  keeps_onGrid (writes_initializeGrid j args (fun _ => leaves_modifyGrids_breaker _) (leaves_attemptGrids_breaker _))

theorem keeps_activates (j : InstanceId) (price : ℚ) : Keeps h (BreakerIs w i b) (onGrid w (activateGrid j price)) :=
  keeps_onGrid (writes_activateGrid (tolerates_breaker i b) j price (leaves_modifyGrids_breaker _)
    (leaves_attemptGrids_breaker _))

/-- The store is not even built. -/
theorem keeps_setupBreaker (price : ℚ) :
    Keeps (server numeric localOrderId) (BreakerIs w i b) (setupBreaker w row price) := fun _ _ hs => hs

theorem keeps_subscribe (exchangeName : String) : Keeps h (BreakerIs w i b) (subscribe w exchangeName row) :=
  keeps_bind (keeps_await (fun _ _ hs => hs)) (fun _ => keeps_read_bind (fun _ =>
    keeps_bind (keeps_modify (fun _ _ hs => breakerIs_setWorker hs rfl)) (fun _ => keeps_ret _)))

theorem keeps_wire (ref : Nat) : Keeps (server numeric localOrderId) (BreakerIs w i b) (wire w row ref) := by
  have hconnect : ∀ exchangeName, Keeps (server numeric localOrderId) (BreakerIs w i b)
      (Program.bind (subscribe w exchangeName row) (fun sub => setSubscription ref (some sub))) :=
    fun exchangeName => keeps_bind (keeps_subscribe exchangeName) (fun _ => keeps_modify (fun _ _ hs => hs))
  refine keeps_read_bind (fun s => ?_)
  split
  · exact keeps_ret _
  refine keeps_bind (keeps_await (fun _ _ hs => hs)) (fun profile => ?_)
  cases profile with
  | none => exact keeps_ret _
  | some profile =>
      refine keeps_bind (keeps_await (fun _ _ hs => hs)) (fun steps => keeps_tryCatch ?_ (fun _ => keeps_ret _))
      refine keeps_read_bind (fun s => keeps_bind (keeps_await (fun _ _ hs => hs)) (fun price => ?_))
      refine keeps_bind (keeps_initializes _ _) (fun _ => keeps_bind (keeps_activates _ _) (fun _ => ?_))
      split
      · exact keeps_bind (keeps_setupBreaker price) (fun _ => hconnect _)
      · exact hconnect _

theorem keeps_start (j : InstanceId) (userId : UUID) :
    Keeps (server numeric localOrderId) (BreakerIs w i b) (start w j userId) := by
  have hJ : Calm (server numeric localOrderId) (BreakerIs w i b) := calm _
  refine keeps_opened hJ (fun row => keeps_bind (keeps_checkDuplicateRunning hJ row) (fun _ => ?_))
  refine keeps_bind (keeps_acquireLock hJ (fun _ _ _ hs => hs) w j) (fun _ => keeps_bind (keeps_raiseIf _ _) (fun _ => ?_))
  refine keeps_bind (keeps_build hJ (fun _ _ _ hs => hs) w row) (fun ref => ?_)
  refine keeps_bind (keeps_modify (fun _ _ hs => hs)) (fun _ => ?_)
  refine keeps_bind (keeps_modify (fun _ _ hs => breakerIs_setWorker hs rfl)) (fun _ => ?_)
  refine keeps_bind (keeps_wire ref) (fun _ => ?_)
  exact keeps_bind (keeps_persistStatus hJ (fun _ _ _ hs => hs) row _) (fun _ =>
    keeps_bind (keeps_setState hJ w j) (fun _ => keeps_ret _))

theorem wp_persistStatus_status {status : TradingInstanceStatus} (s : System) (ω : W) :
    wp h (persistStatus row status) (onOk fun row' _ _ => row'.status = status) s ω := by
  refine wp_bind_onOk (fun _ s1 ω1 => ?_) s ω
  rw [bind_eq, wp_bind, wp_modify, andThen_ok, bind_eq, wp_bind, wp_await]
  cases (h ω1 .refresh).1 with
  | error e => exact trivial
  | ok u =>
      simp only [andThen_ok, bind_eq, wp_bind, wp_read, pure_eq, wp_ret, onOk_ok, Dict.get_set, if_true,
        Option.getD_some, TradingInstance.withStatus, id]

theorem wp_start_running (j : InstanceId) (userId : UUID) (s : System) (ω : W) :
    wp h (start w j userId) (onOk fun row _ _ => row.status = .running) s ω := by
  refine wp_bind_onOk (fun row => wp_bind_onOk (fun _ => wp_bind_onOk (fun _ => wp_bind_onOk (fun _ => ?_)))) s ω
  refine wp_bind_onOk (fun _ => wp_bind_onOk (fun _ => wp_bind_onOk (fun ref => wp_bind_onOk (fun _ => ?_))))
  refine wp_bind_onOk (fun _ => wp_bind_onOk (fun _ s1 ω1 => ?_))
  rw [bind_eq, wp_bind]
  refine wp_mono (wp_persistStatus_status s1 ω1) ?_
  rintro (e | row') s2 ω2 hrow
  · exact trivial
  · refine wp_bind_onOk (fun _ s3 ω3 => ?_) s2 ω2
    exact hrow

end

/-- No started bot is armed: no adapter is ever registered, and start leaves the breakers as they are. -/
theorem start_unarmed {x : System × World} (hx : Reached numeric localOrderId evaluate x) {w : WorkerId}
    {i : InstanceId} {userId : UUID} {row : TradingInstance}
    (hrow : (run (server numeric localOrderId) (start w i userId) x.1 x.2).1 = .ok row) :
    row.status = .running ∧
      ¬ Armed numeric w row (run (server numeric localOrderId) (start w i userId) x.1 x.2).2 ∧
      ∀ j, ((run (server numeric localOrderId) (start w i userId) x.1 x.2).2.1.workers w).grid.breakers j =
        (x.1.workers w).grid.breakers j := by
  refine ⟨?_, fun harmed => ?_, fun j => keeps_start i userId x.1 x.2 rfl⟩
  · have hrunning := wp_start_running (h := server numeric localOrderId) (w := w) i userId x.1 x.2
    rw [wp, hrow] at hrunning
    exact hrunning
  · have hnone : Unregistered (run (server numeric localOrderId) (start w i userId) x.1 x.2).2.2 :=
      run_keeps server_unregistered _ _ (unregistered_of_reached hx)
    have hadapter := harmed.adapter
    rw [hnone w] at hadapter
    simp at hadapter

/-- Every request outside the exchange is answered well; the exchange would take every order. -/
def answering : World where
  backends _ := ⟨{}, { answer := fun _ q => Execution.Engine.reporting (Execution.Engine.report "1" "x1" "open") q }⟩
  query _ := { symbol := "BTCUSDT", minContinuationRate := 9 / 10 }
  script _ q := answers (.ok 100) q

def prepared : List Event :=
  [.manager (.createProcess "a" { botArgs 1 with continuationRate := some (9 / 10) }), .manager (.prepare "a" 1)]

def ready : System × World := runEvents (fun _ x => x) Execution.Engine.localId (fun _ _ _ => false)
  (lifespan {} answering) prepared

def runningBot : TradingInstance :=
  { readyBot.withStatus .running with continuationRate := some (9 / 10) }

theorem start_returns : (run (server (fun _ x => x) Execution.Engine.localId) (start 0 "a" 1) ready.1 ready.2).1 =
    .ok runningBot := by decide +kernel

theorem start_unarmed_prepared :
    runningBot.status = .running ∧
      ¬ Armed (fun _ x => x) 0 runningBot
        (run (server (fun _ x => x) Execution.Engine.localId) (start 0 "a" 1) ready.1 ready.2).2 ∧
      ∀ j, ((run (server (fun _ x => x) Execution.Engine.localId) (start 0 "a" 1) ready.1 ready.2).2.1.workers
        0).grid.breakers j = (ready.1.workers 0).grid.breakers j :=
  start_unarmed ⟨{}, answering, prepared, rfl⟩ start_returns

/-- The bot is READY and all requests succeed, and its orders have no adapter to go to. -/
theorem not_armed_prepared :
    (ready.1.rows.get "a").map TradingInstance.status = some .ready ∧
      ¬ ∀ row, (run (server (fun _ x => x) Execution.Engine.localId) (start 0 "a" 1) ready.1 ready.2).1 = .ok row →
        row.status = .running → Armed (fun _ x => x) 0 row
          (run (server (fun _ x => x) Execution.Engine.localId) (start 0 "a" 1) ready.1 ready.2).2 := by
  refine ⟨by decide +kernel, fun h => ?_⟩
  have hadapter := (h runningBot start_returns rfl).adapter
  revert hadapter
  decide +kernel

end Utos.Process.Arming
