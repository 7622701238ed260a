import Utos.Process.Manager

namespace Utos.Process.Wiring

open Coroutine Core.DomainTypes Core.Exceptions Execution.Service Grid.Calculator StateMachine Manager
open Grid.Engine hiding Op

def defaultDropRates : List ℚ :=
  [6 / 10, 12 / 10, 11 / 10, 1, 2, 8 / 10, 15 / 10, 13 / 10, 11 / 10, 25 / 10, 1, 18 / 10, 15 / 10, 12 / 10, 3,
    12 / 10, 2, 18 / 10, 15 / 10, 35 / 10, 15 / 10, 25 / 10, 2, 18 / 10, 4, 18 / 10, 3, 25 / 10, 2, 45 / 10, 2,
    35 / 10, 3, 25 / 10, 5]

def defaultTakeProfits : List ℚ :=
  [15 / 10, 15 / 10, 15 / 10, 15 / 10, 2, 15 / 10, 15 / 10, 2, 2, 2, 2, 2, 25 / 10, 25 / 10, 25 / 10, 25 / 10,
    25 / 10, 3, 3, 3, 3, 3, 35 / 10, 35 / 10, 35 / 10, 35 / 10, 4, 4, 4, 45 / 10, 45 / 10, 5, 5, 55 / 10, 6]

def defaultMultipliers : List ℚ :=
  List.replicate 5 1 ++ List.replicate 10 (15 / 10) ++ List.replicate 15 2 ++ List.replicate 4 (25 / 10) ++ [3]

def defaultStep (i : Nat) : AveragingStep :=
  { stepNumber := i, dropRate := defaultDropRates.getD i 0, multipleBuyAmount := defaultMultipliers.getD i 0
    takeProfit := defaultTakeProfits.getD i 0 }

/-- get_default_averaging_template -/
def defaultAveragingTemplate : AveragingSteps where
  steps := (List.range 35).map defaultStep
  distinct := by
    have hmap : ((List.range 35).map defaultStep).map AveragingStep.stepNumber = List.range 35 := by
      simp [defaultStep, Function.comp_def]
    rw [hmap]
    exact List.nodup_range

example : defaultDropRates.length = 35 ∧ defaultTakeProfits.length = 35 ∧ defaultMultipliers.length = 35 := by decide

def orTemplate (steps : AveragingSteps) : AveragingSteps :=
  if steps.steps = [] then defaultAveragingTemplate else steps

def gridArgs (row : TradingInstance) (profile : GridProfile) (steps : AveragingSteps) (currentPrice : ℚ) : InitArgs :=
  { exchangeAccountId := some row.exchangeAccountId, symbol := row.symbol, upperPrice := currentPrice
    lowerPrice := 0, gridCount := steps.steps.length, investmentPerGrid := profile.investmentPerGrid
    averagingSteps := steps }

/-- BreakerScreeningStore.setup_breaker_for_instance -/
def setupBreaker (w : WorkerId) (row : TradingInstance) (dayOpenPrice : ℚ) : Op Unit := do
  let config ← .await (.breakerConfig row.id) id
  onGrid w (configureCircuitBreaker row.id { config with dayOpenPrice := some dayOpenPrice })

def subscribed (x : Worker) (i : InstanceId) : Worker :=
  { x with subs := x.subs ++ [(x.nextSub, i)], nextSub := x.nextSub + 1 }

/-- MarketHub.subscribe. Opening the stream may fail, and needs no request where one is open. -/
def subscribe (w : WorkerId) (exchangeName : String) (row : TradingInstance) : Op Nat := do
  .await (.openStream exchangeName row.symbol) id
  let s ← .read
  .modify (fun s => s.setWorker w (fun x => subscribed x row.id))
  return (s.workers w).nextSub

/-- MarketHub.unsubscribe: the consumer is gone before the stream is closed. -/
def unsubscribe (w : WorkerId) (sub : Nat) : Op Unit := do
  .modify (fun s => s.setWorker w (fun x => { x with subs := x.subs.filter (fun e => e.1 ≠ sub) }))
  .await .closeStream id

def setSubscription (ref : Nat) (sub : Option Nat) : Op Unit :=
  .modify (fun s => s.setProcess ref (fun p => { p with subscriptionId := sub }))

/-- The body of the try statement of _wire_grid_and_market. -/
def wireGrid (w : WorkerId) (row : TradingInstance) (ref : Nat) (profile : GridProfile) (steps : AveragingSteps) :
    Op Unit := do
  let s ← .read
  let currentPrice ← .await (.getPrice (s.processes ref).exchangeName row.symbol) id
  onGrid w (initializeGrid row.id (gridArgs row profile steps currentPrice))
  let _ ← onGrid w (activateGrid row.id currentPrice)
  if row.breakerEnabled ∧ row.continuationRate ≠ none then setupBreaker w row currentPrice
  let sub ← subscribe w (s.processes ref).exchangeName row
  setSubscription ref (some sub)

/-- _wire_grid_and_market -/
def wire (w : WorkerId) (row : TradingInstance) (ref : Nat) : Op Unit := do
  let s ← .read
  if (s.workers w).gridUp = false ∨ (s.workers w).hubUp = false then return ()
  else
    match ← .await (.gridProfile row.gridProfileId) id with
    | none => return ()
    | some profile => do
        let steps ← .await (.averaging row.id) id
        -- every exception of the wiring is logged, nothing more
        tryCatch (wireGrid w row ref profile (orTemplate steps)) (fun _ => return ())

/-- The first half of _unwire_grid_and_market. -/
def unsubscribeProcess (w : WorkerId) (ref : Nat) : Op Unit := do
  let s ← .read
  match (s.processes ref).subscriptionId with
  | none => return ()
  | some sub => do
      if (s.workers w).hubUp then tryCatch (unsubscribe w sub) (fun _ => return ())
      setSubscription ref none

/-- _unwire_grid_and_market -/
def unwire (w : WorkerId) (row : TradingInstance) (ref : Nat) : Op Unit := do
  unsubscribeProcess w ref
  let s ← .read
  if (s.workers w).gridUp then
    tryCatch (do let _ ← onGrid w (pauseGrid row.id)) (fun _ => return ())

end Utos.Process.Wiring
