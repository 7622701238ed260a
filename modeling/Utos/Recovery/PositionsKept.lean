import Utos.Coroutine.Trace
import Utos.Recovery.Coordinator

namespace Utos.Recovery.PositionsKept

open Coroutine Core Core.Exceptions Portfolio Reconciler Coordinator

variable {s : Coordinator} {callbacks : Callbacks} {i : String}

/-- The positions that the exchange reports to a recovery. -/
def fetched (callbacks : Callbacks) : List PositionEntry :=
  match callbacks.fetchExchangePositions with
  | some (.ok exchangePositions) => exchangePositions
  | _ => []

def reported (s : Coordinator) : Call → List PositionEntry
  | .registerInstance .. => []
  | .recoverInstance i callbacks => if (s.instances.get i).isSome then fetched callbacks else []
  | .recoverAll callbacks => s.instances.entries.flatMap (fun e => fetched (callbacks e.1))

/-- The portfolio has an open position of the symbol and side. -/
def Present (portfolio : PortfolioManager) (ep : PositionEntry) : Prop :=
  ∃ position ∈ portfolio.getPositions, position.closed = false ∧ position.symbol = ep.symbol ∧
    position.side = ep.side

/-- What the exchange reported at any point of the run is in the portfolio at its end. -/
def Keeps (s : Coordinator) (calls : List Call) : Prop :=
  ∀ before call after, calls = before ++ call :: after →
    ∀ ep ∈ reported (run s before) call, Present (run s calls).portfolio ep

def NothingReported (s : Coordinator) (calls : List Call) : Prop :=
  ∀ before call after, calls = before ++ call :: after → reported (run s before) call = []

def AllClosed (portfolio : PortfolioManager) : Prop :=
  ∀ i position, portfolio.positions.get i = some position → position.closed = true

/-- An open position is one of those that the loop still has to close. -/
def Ahead (rest : List Position) (progress : Progress) : Prop :=
  ∀ i position, progress.portfolio.positions.get i = some position → position.closed = false → position ∈ rest

theorem Ahead.next {x : Position} {rest : List Position} {progress : Progress} (h : Ahead (x :: rest) progress) :
    Ahead rest (closeStale [] progress x) := by
  intro i position hget hopen
  have htail : position ≠ x → progress.portfolio.positions.get i = some position → position ∈ rest := fun hne hold =>
    (List.mem_cons.mp (h i position hold hopen)).resolve_left hne
  simp only [closeStale, List.not_mem_nil, or_false, PortfolioManager.closePosition] at hget
  split at hget
  next hclosed => exact htail (fun hx => by rw [hx, hclosed] at hopen; cases hopen) hget
  next =>
    cases hx : progress.portfolio.positions.get x.instanceId with
    | none =>
        rw [hx] at hget
        refine htail (fun heq => ?_) hget
        subst heq
        rw [progress.portfolio.keyed i position hget, hget] at hx
        cases hx
    | some y =>
        rw [hx] at hget
        simp only [PortfolioManager.drop_get] at hget
        split at hget
        next => cases hget
        next hne => exact htail (fun heq => hne (heq ▸ (progress.portfolio.keyed i position hget).symm)) hget

theorem Ahead.run {rest : List Position} {progress : Progress} (h : Ahead rest progress) :
    Ahead [] (rest.foldl (closeStale []) progress) := by
  induction rest generalizing progress with
  | nil => exact h
  | cons x rest ih => exact ih h.next

/-- Compared with no positions at all, every position of the portfolio is stale. -/
theorem allClosed_reconcile (portfolio : PortfolioManager) (i : String) :
    AllClosed (reconcilePortfolio portfolio i portfolio.getPositions []).2 := by
  have hstart : Ahead portfolio.getPositions { portfolio := portfolio } := by
    intro j position hget _
    rw [PortfolioManager.mem_getPositions, portfolio.keyed j position hget]
    exact hget
  intro j position hget
  by_contra hopen
  exact absurd (hstart.run j position hget (by simpa using hopen)) List.not_mem_nil

theorem allClosed_recoverInstance (hi : (s.instances.get i).isSome) :
    AllClosed (recoverInstance callbacks i s).2.portfolio := by
  obtain ⟨context, hcontext⟩ := Option.isSome_iff_exists.mp hi
  simp only [recoverInstance, hcontext, reconciliationLayer]
  exact allClosed_reconcile _ _

@[simp] theorem recoverInstance_instances : (recoverInstance callbacks i s).2.instances = s.instances := by
  unfold recoverInstance
  split <;> rfl

theorem AllClosed.recoverInstance (h : AllClosed s.portfolio) :
    AllClosed (recoverInstance callbacks i s).2.portfolio := by
  by_cases hi : (s.instances.get i).isSome
  · exact allClosed_recoverInstance hi
  · have hnone : s.instances.get i = none := by simpa using hi
    simp only [Coordinator.recoverInstance, hnone]
    exact h

theorem AllClosed.recoverEach {callbacks : String → Callbacks} (ids : List String) {s : Coordinator}
    (h : AllClosed s.portfolio) : AllClosed (recoverEach callbacks ids s).portfolio := by
  induction ids generalizing s with
  | nil => exact h
  | cons i ids ih => exact ih h.recoverInstance

theorem AllClosed.step (h : AllClosed s.portfolio) (call : Call) : AllClosed (step s call).portfolio := by
  cases call with
  | registerInstance i context => exact h
  | recoverInstance i callbacks => exact h.recoverInstance
  | recoverAll callbacks => exact h.recoverEach _

theorem AllClosed.run (calls : List Call) {s : Coordinator} (h : AllClosed s.portfolio) :
    AllClosed (run s calls).portfolio :=
  foldl_keeps (I := fun s : Coordinator => AllClosed s.portfolio) (fun _ call h => h.step call) calls h

/-- A call to which anything was reported has closed everything. -/
theorem allClosed_of_reported {call : Call} {ep : PositionEntry} (hep : ep ∈ reported s call) :
    AllClosed (step s call).portfolio := by
  cases call with
  | registerInstance i context => cases hep
  | recoverInstance i callbacks =>
      simp only [reported] at hep
      split at hep
      next hi => exact allClosed_recoverInstance hi
      next => cases hep
  | recoverAll callbacks =>
      obtain ⟨e, he, -⟩ := List.mem_flatMap.mp hep
      cases hids : s.instances.entries with
      | nil => rw [hids] at he; cases he
      | cons first rest =>
          have hfirst : (s.instances.get first.1).isSome := by
            rw [Dict.get_of_mem (d := s.instances) (k := first.1) (v := first.2) (by rw [hids]; simp)]
            rfl
          simp only [step, recoverAll, hids, List.map_cons, recoverEach]
          exact (allClosed_recoverInstance hfirst).recoverEach _

/-- The positions are kept in exactly those runs in which there are none. -/
theorem positionsKept_iff (s : Coordinator) (calls : List Call) :
    Keeps s calls ↔ NothingReported s calls := by
  constructor
  · intro hkept before call after hcalls
    refine List.eq_nil_iff_forall_not_mem.mpr (fun ep hep => ?_)
    obtain ⟨position, hmem, hopen, -⟩ := hkept before call after hcalls ep hep
    have hclosed : AllClosed (run s calls).portfolio := by
      rw [hcalls]
      have h := (allClosed_of_reported hep).run after
      simpa only [run, List.foldl_append, List.foldl_cons] using h
    have := hclosed _ position (((run s calls).portfolio.mem_getPositions).mp hmem)
    rw [hopen] at this
    cases this
  · intro hnone before call after hcalls ep hep
    rw [hnone before call after hcalls] at hep
    cases hep

def longPosition : PositionEntry := { symbol := "BTCUSDT", side := "long", quantity := 1, entryPrice := 100 }

def firstRecovery : List Call :=
  [.registerInstance "a" {}, .recoverInstance "a" { fetchExchangePositions := some (.ok [longPosition]) }]

/-- One instance is registered, the exchange reports its position, and the recovery closes it. -/
theorem recovery_closes_position : ¬ Keeps {} firstRecovery := by
  intro h
  obtain ⟨position, hmem, -⟩ := h [.registerInstance "a" {}] _ [] rfl longPosition (by decide +kernel)
  have hnone : (run {} firstRecovery).portfolio.getPositions = [] := by decide +kernel
  rw [hnone] at hmem
  cases hmem

end Utos.Recovery.PositionsKept
