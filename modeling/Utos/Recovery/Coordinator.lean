import Utos.Recovery.Reconciler

namespace Utos.Recovery.Coordinator

open Core Core.DomainTypes Core.Exceptions Portfolio Reconciler

/-- InstanceContext; the account and the market are only logged. -/
structure InstanceContext where
  hasGrid : Bool := false
  hasProfitLock : Bool := false
  deriving DecidableEq, Repr

structure RecoveryReport where
  instanceId : String
  connectionOk : Bool := false
  stateOk : Bool := false
  reconciliationOk : Bool := false
  errors : List String := []
  reconciliationResults : List ReconciliationResult := []
  deriving DecidableEq, Repr

structure RecoveryStatus where
  instanceId : String
  state : String
  lastError : Option String
  deriving DecidableEq, Repr

/-- A coordinator whose state recovery and reconciler share one portfolio. -/
structure Coordinator where
  portfolio : PortfolioManager := {}
  instances : Dict String InstanceContext := ∅
  statuses : Dict String RecoveryStatus := ∅

/-- What one recovery is told: by ConnectionRecovery, and by the callbacks of
StateRecovery, each of which may be missing. A grid snapshot is loaded and decoded. -/
structure Callbacks where
  recoverRedis : Except Exn Bool := .ok true
  recoverPostgres : Except Exn Bool := .ok true
  loadInstance : Option (Except Exn (Option String)) := none
  loadGridSnapshot : Option (Except Exn (Option GridState)) := none
  fetchExchangePositions : Option (Except Exn (List PositionEntry)) := none

/-- StateRecovery.recover_trading_process -/
def recoverTradingProcess (callbacks : Callbacks) : Bool :=
  match callbacks.loadInstance with
  | none => true
  | some (.ok (some _)) => true
  | some (.ok none) => false
  | some (.error _) => false

/-- StateRecovery.recover_grid -/
def recoverGrid (callbacks : Callbacks) : Option GridState :=
  match callbacks.loadGridSnapshot with
  | some (.ok gridState) => gridState
  | _ => none

def recovered (instanceId : String) (ep : PositionEntry) : PortfolioManager.RegisterArgs :=
  { instanceId := instanceId, accountId := s!"recovered-{instanceId}", exchange := "recovered", symbol := ep.symbol
    side := ep.side, entryPrice := ep.entryPrice, quantity := ep.quantity }

/-- The loop of recover_portfolio; a registration that fails ends it, and leaves the earlier ones. -/
def registerAll (instanceId : String) : List PositionEntry → PortfolioManager → Except Exn Unit × PortfolioManager
  | [], portfolio => (.ok (), portfolio)
  | ep :: rest, portfolio => match portfolio.registerPosition (recovered instanceId ep) with
    | .ok (_, portfolio) => registerAll instanceId rest portfolio
    | .error exc => (.error exc, portfolio)

/-- StateRecovery.recover_portfolio; whatever fails is logged. -/
def recoverPortfolio (callbacks : Callbacks) (instanceId : String) (portfolio : PortfolioManager) :
    PortfolioManager :=
  match callbacks.fetchExchangePositions with
  | some (.ok exchangePositions) => (registerAll instanceId exchangePositions portfolio).2
  | _ => portfolio

def boolText (b : Bool) : String := if b then "True" else "False"

/-- Layer 1 of recover_instance. -/
def connectionLayer (callbacks : Callbacks) (report : RecoveryReport) : RecoveryReport :=
  match callbacks.recoverRedis, callbacks.recoverPostgres with
  | .error exc, _ => { report with errors := report.errors ++ [s!"Connection recovery failed: {exc.message}"] }
  | .ok _, .error exc => { report with errors := report.errors ++ [s!"Connection recovery failed: {exc.message}"] }
  | .ok redisOk, .ok postgresOk =>
      if redisOk && postgresOk then { report with connectionOk := true }
      else { report with
        errors := report.errors ++
          [s!"Connection recovery partial: redis={boolText redisOk}, postgres={boolText postgresOk}"] }

/-- Layer 2; the grid and the lock that are recovered here go into the checkpoint only. -/
def stateLayer (callbacks : Callbacks) (report : RecoveryReport) : RecoveryReport :=
  if recoverTradingProcess callbacks then { report with stateOk := true }
  else { report with errors := report.errors ++ ["Trading process recovery failed"] }

/-- Layer 3: the grid is reconciled with no orders, and the portfolio with no positions. -/
def reconciliationLayer (context : InstanceContext) (callbacks : Callbacks) (portfolio : PortfolioManager)
    (report : RecoveryReport) : RecoveryReport × PortfolioManager :=
  let gridResults := if context.hasGrid then
      (recoverGrid callbacks).toList.map (fun gridState => (reconcileGrid gridState []).1)
    else []
  let reconciled := reconcilePortfolio portfolio report.instanceId portfolio.getPositions []
  let results := gridResults ++ [reconciled.1]
  ({ report with reconciliationResults := results, reconciliationOk := results.all (fun r => r.action ≠ "failed") },
    reconciled.2)

def finalStatus (report : RecoveryReport) : RecoveryStatus :=
  { instanceId := report.instanceId
    state := if report.errors.length > 2 then "failed" else "completed"
    lastError := report.errors.head? }

def recoverInstance (callbacks : Callbacks) (instanceId : String) (s : Coordinator) :
    Except Exn RecoveryReport × Coordinator :=
  match s.instances.get instanceId with
  | none => (.error (.other "RecoveryError" s!"Instance {instanceId} not registered for recovery"), s)
  | some context =>
      let report := stateLayer callbacks (connectionLayer callbacks { instanceId := instanceId })
      let portfolio := recoverPortfolio callbacks instanceId s.portfolio
      let reconciled := reconciliationLayer context callbacks portfolio report
      (.ok reconciled.1, { s with
        portfolio := reconciled.2
        statuses := s.statuses.set instanceId (finalStatus reconciled.1) })

/-- The loop of recover_all over the instances that are registered when it starts. -/
def recoverEach (callbacks : String → Callbacks) : List String → Coordinator → Coordinator
  | [], s => s
  | instanceId :: rest, s => recoverEach callbacks rest (recoverInstance (callbacks instanceId) instanceId s).2

def recoverAll (callbacks : String → Callbacks) (s : Coordinator) : Coordinator :=
  recoverEach callbacks (s.instances.entries.map Prod.fst) s

def registerInstance (instanceId : String) (context : InstanceContext) (s : Coordinator) : Coordinator :=
  { s with
    instances := s.instances.set instanceId context
    statuses := s.statuses.set instanceId { instanceId := instanceId, state := "idle", lastError := none } }

inductive Call
  | registerInstance (instanceId : String) (context : InstanceContext)
  | recoverInstance (instanceId : String) (callbacks : Callbacks)
  | recoverAll (callbacks : String → Callbacks)

def step (s : Coordinator) : Call → Coordinator
  | .registerInstance instanceId context => registerInstance instanceId context s
  | .recoverInstance instanceId callbacks => (recoverInstance callbacks instanceId s).2
  | .recoverAll callbacks => recoverAll callbacks s

def run (s : Coordinator) (calls : List Call) : Coordinator := calls.foldl step s

end Utos.Recovery.Coordinator

namespace Utos.Recovery.Registered

open Core Core.Exceptions Portfolio Reconciler Coordinator

/-- The loop of recover_portfolio, with the list it returns. -/
def registerEach (instanceId : String) :
    List PositionEntry → List Position → PortfolioManager → Except Exn (List Position) × PortfolioManager
  | [], rebuilt, portfolio => (.ok rebuilt, portfolio)
  | ep :: rest, rebuilt, portfolio => match portfolio.registerPosition (recovered instanceId ep) with
    | .ok (position, portfolio) => registerEach instanceId rest (rebuilt ++ [position]) portfolio
    | .error exc => (.error exc, portfolio)

/-- StateRecovery.recover_portfolio with its answer: every exception is logged, and
answered with an empty list. -/
def recoverPositions (callbacks : Callbacks) (instanceId : String) (portfolio : PortfolioManager) :
    List Position × PortfolioManager :=
  match callbacks.fetchExchangePositions with
  | none => ([], portfolio)
  | some (.error _) => ([], portfolio)
  | some (.ok exchangePositions) => match registerEach instanceId exchangePositions [] portfolio with
    | (.ok rebuilt, portfolio) => (rebuilt, portfolio)
    | (.error _, portfolio) => ([], portfolio)

/-- A position that register_position takes, if its instance has none. -/
structure Valid (ep : PositionEntry) : Prop where
  side : ep.side ∈ ["long", "short"]
  entryPrice : 0 < ep.entryPrice
  quantity : 0 < ep.quantity

/-- Everything that is reported is registered and returned, and an answer that is
shorter leaves the portfolio as it was. -/
def AllOrNothing (callbacks : Callbacks) (i : String) (reported : List PositionEntry) (m : PortfolioManager) :
    Prop :=
  ((recoverPositions callbacks i m).1 = reported.map (fun ep => (recovered i ep).position) ∧
      ∀ ep ∈ reported, (recovered i ep).position ∈ (recoverPositions callbacks i m).2.getPositions) ∧
    ((recoverPositions callbacks i m).1.length < reported.length → (recoverPositions callbacks i m).2 = m)

variable {callbacks : Callbacks} {i : String} {m : PortfolioManager} {ep : PositionEntry}
  {reported : List PositionEntry}

theorem registerEach_portfolio (reported : List PositionEntry) (rebuilt : List Position) (m : PortfolioManager) :
    (registerEach i reported rebuilt m).2 = (registerAll i reported m).2 := by
  induction reported generalizing rebuilt m with
  | nil => rfl
  | cons ep rest ih =>
      simp only [registerEach, registerAll]
      cases m.registerPosition (recovered i ep) with
      | error e => rfl
      | ok r => exact ih _ _

theorem recoverPositions_portfolio (callbacks : Callbacks) (i : String) (m : PortfolioManager) :
    (recoverPositions callbacks i m).2 = recoverPortfolio callbacks i m := by
  unfold recoverPositions recoverPortfolio
  rcases callbacks.fetchExchangePositions with _ | e | exchangePositions
  · rfl
  · rfl
  · simp only [← registerEach_portfolio exchangePositions []]
    cases hr : registerEach i exchangePositions [] m with
    | mk answer m' => cases answer <;> rfl

theorem recovered_instanceId (i : String) (ep : PositionEntry) : (recovered i ep).position.instanceId = i := rfl

theorem registerPosition_fresh (hfree : m.positions.get i = none) (hep : Valid ep) :
    m.registerPosition (recovered i ep) =
      .ok ((recovered i ep).position, m.put i (recovered i ep).position (recovered_instanceId i ep)) := by
  have hside : ep.side = "long" ∨ ep.side = "short" := by simpa using hep.side
  exact PortfolioManager.registerPosition_free hfree hside hep.entryPrice hep.quantity

theorem registerPosition_taken {position : Position} (htaken : m.positions.get i = some position) :
    m.registerPosition (recovered i ep) =
      .error (portfolioError s!"Position already exists for instance {i}") := by
  unfold PortfolioManager.registerPosition
  rw [if_pos (by simp [recovered, htaken])]
  rfl

/-- The positions of one instance share its id, so the second is refused, and the first stays. -/
theorem recoverPositions_several (hfree : m.positions.get i = none) {next : PositionEntry}
    {rest : List PositionEntry} (hep : Valid ep)
    (hreported : callbacks.fetchExchangePositions = some (.ok (ep :: next :: rest))) :
    recoverPositions callbacks i m =
      ([], m.put i (recovered i ep).position (recovered_instanceId i ep)) := by
  have htaken : (m.put i (recovered i ep).position (recovered_instanceId i ep)).positions.get i =
      some (recovered i ep).position := by
    rw [PortfolioManager.put_get, if_pos rfl]
  simp only [recoverPositions, hreported, registerEach, registerPosition_fresh hfree hep,
    registerPosition_taken htaken]

theorem recoverPositions_one (hfree : m.positions.get i = none) (hep : Valid ep)
    (hreported : callbacks.fetchExchangePositions = some (.ok [ep])) :
    recoverPositions callbacks i m =
      ([(recovered i ep).position], m.put i (recovered i ep).position (recovered_instanceId i ep)) := by
  simp only [recoverPositions, hreported, registerEach, registerPosition_fresh hfree hep, List.nil_append]

/-- All of the positions are registered in exactly those cases in which there is at most one. -/
theorem allOrNothing_iff (hfree : m.positions.get i = none) (hvalid : ∀ ep ∈ reported, Valid ep)
    (hreported : callbacks.fetchExchangePositions = some (.ok reported)) :
    AllOrNothing callbacks i reported m ↔ reported.length ≤ 1 := by
  match reported with
  | [] =>
      have hnone : recoverPositions callbacks i m = ([], m) := by
        simp only [recoverPositions, hreported, registerEach]
      refine iff_of_true ⟨⟨?_, by simp⟩, fun _ => ?_⟩ (by simp)
      · rw [hnone]
        rfl
      · rw [hnone]
  | [ep] =>
      have hone := recoverPositions_one hfree (hvalid ep (by simp)) hreported
      refine iff_of_true ⟨⟨?_, ?_⟩, fun hlt => ?_⟩ le_rfl
      · rw [hone]
        rfl
      · intro ep' hep'
        rw [List.mem_singleton.mp hep', hone, PortfolioManager.mem_getPositions, recovered_instanceId,
          PortfolioManager.put_get, if_pos rfl]
      · rw [hone] at hlt
        exact absurd hlt (lt_irrefl 1)
  | ep :: next :: rest =>
      have hseveral := recoverPositions_several hfree (hvalid ep (by simp)) hreported
      refine iff_of_false (fun h => ?_) (by simp)
      have hall := h.1.1
      rw [hseveral] at hall
      cases hall

def bitcoin : PositionEntry := { symbol := "BTCUSDT", side := "long", quantity := 1, entryPrice := 100 }

def ether : PositionEntry := { symbol := "ETHUSDT", side := "short", quantity := 2, entryPrice := 50 }

def bothReported : Callbacks := { fetchExchangePositions := some (.ok [bitcoin, ether]) }

theorem allOrNothing_bitcoin :
    AllOrNothing { fetchExchangePositions := some (.ok [bitcoin]) } "inst-1" [bitcoin] {} := by
  refine (allOrNothing_iff rfl (fun ep hep => ?_) rfl).mpr le_rfl
  rw [List.mem_singleton.mp hep]
  exact ⟨by decide, by decide +kernel, by decide +kernel⟩

/-- Of a long and a short position the first is registered, and the answer is an empty list. -/
theorem bothReported_half_registered :
    ¬ AllOrNothing bothReported "inst-1" [bitcoin, ether] {} ∧ (recoverPositions bothReported "inst-1" {}).1 = [] ∧
      (recoverPositions bothReported "inst-1" {}).2.getPositions.map Position.symbol = ["BTCUSDT"] := by
  refine ⟨fun h => ?_, by decide +kernel, by decide +kernel⟩
  have hall := congrArg List.length h.1.1
  have hnone : (recoverPositions bothReported "inst-1" {}).1.length = 0 := by decide +kernel
  rw [hnone] at hall
  cases hall

end Utos.Recovery.Registered
