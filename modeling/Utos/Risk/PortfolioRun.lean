import Utos.Coroutine.Trace
import Utos.Recovery.CashFlow
import Utos.Risk.Manager
import Mathlib.Data.List.Perm.Subperm

namespace Utos.Risk.PortfolioRun

open Core Core.Exceptions Recovery.Portfolio Recovery.CashFlow Manager
open Recovery.Portfolio.PortfolioManager (RegisterArgs)

/-- A call of the portfolio manager that opens, changes or closes a position. -/
inductive Call
  | register (args : RegisterArgs)
  | update (fill : Fill)
  | close (instanceId : String)

def perform (m : PortfolioManager) : Call → Except Exn (Position × PortfolioManager)
  | .register args => m.registerPosition args
  | .update fill => update m fill
  | .close i => m.closePosition i

/-- What a call leaves. One that raises changes nothing. -/
def step (m : PortfolioManager) (c : Call) : PortfolioManager :=
  match perform m c with
  | .ok r => r.2
  | .error _ => m

/-- The manager after a run of calls. -/
def run (calls : List Call) : PortfolioManager := calls.foldl step .empty

variable {m : PortfolioManager} {c : Call} {i : String} {position : Position}

theorem run_concat (calls : List Call) (c : Call) : run (calls ++ [c]) = step (run calls) c := by
  rw [run, List.foldl_append]
  rfl

/-- What the calls of a run contribute to a list, each in the state that it finds. -/
def collect {α : Type} (contribution : PortfolioManager → Call → List α) : PortfolioManager → List Call → List α
  | _, [] => []
  | m, c :: calls => contribution m c ++ collect contribution (step m c) calls

theorem collect_concat {α : Type} (contribution : PortfolioManager → Call → List α) (m : PortfolioManager)
    (calls : List Call) (c : Call) : collect contribution m (calls ++ [c]) =
      collect contribution m calls ++ contribution (calls.foldl step m) c := by
  induction calls generalizing m with
  | nil => simp [collect]
  | cons first calls ih => rw [List.cons_append, collect, collect, ih, List.append_assoc, List.foldl_cons]

/-- A quantity of every position, summed up. -/
def sumOver (f : Position → ℚ) (m : PortfolioManager) : ℚ := (m.getPositions.map f).sum

theorem sumOver_of_get {f : Position → ℚ} (h : m.positions.get i = some position) :
    sumOver f m = f position + ((m.others i).map f).sum := ((PortfolioManager.perm_others h).map f).sum_eq

theorem sumOver_put {f : Position → ℚ} (h : position.instanceId = i) :
    sumOver f (m.put i position h) = f position + ((m.others i).map f).sum :=
  ((PortfolioManager.put_perm h).map f).sum_eq

theorem sumOver_register {f : Position → ℚ} {args : RegisterArgs} (h : m.positions.get args.instanceId = none) :
    sumOver f (m.put args.instanceId args.position rfl) = f args.position + sumOver f m := by
  have hput := sumOver_put (m := m) (f := f) (show args.position.instanceId = args.instanceId from rfl)
  rw [PortfolioManager.others_of_get_none h] at hput
  exact hput

/-- Of a call that raises nothing remains, and the others do what they are for. -/
theorem step_cases (m : PortfolioManager) (c : Call) :
    ((∃ e, perform m c = .error e) ∧ step m c = m) ∨
      ∃ position m', perform m c = .ok (position, m') ∧ step m c = m' := by
  cases h : perform m c with
  | error e => exact .inl ⟨⟨e, rfl⟩, by rw [step, h]⟩
  | ok r => exact .inr ⟨r.1, r.2, rfl, by rw [step, h]⟩

/-- A position is marked closed exactly when it holds nothing, and it is long or short. -/
def Marked (m : PortfolioManager) : Prop :=
  ∀ i position, m.positions.get i = some position →
    (position.closed = true ↔ position.quantity = 0) ∧ (position.side = "long" ∨ position.side = "short")

theorem marked_init : Marked .empty := fun i position h => by cases h

theorem Marked.put (hm : Marked m) (h : position.instanceId = i)
    (hmarked : position.closed = true ↔ position.quantity = 0)
    (hside : position.side = "long" ∨ position.side = "short") : Marked (m.put i position h) :=
  PortfolioManager.put_forall h hm ⟨hmarked, hside⟩

theorem Marked.quantity_ne_zero (hm : Marked m) (hget : m.positions.get i = some position)
    (hopen : position.closed = false) : position.quantity ≠ 0 := by
  intro hzero
  rw [(hm _ _ hget).1.mpr hzero] at hopen
  cases hopen

theorem Marked.update {m' : PortfolioManager} {f : Fill} (hm : Marked m) (h : update m f = .ok (position, m')) :
    Marked m' := by
  obtain ⟨found, hkey, hget, hopen, rfl, hchanged⟩ := update_ok h
  obtain ⟨hmarked, hside⟩ := hm _ _ hget
  rcases hchanged with ⟨-, hne, rfl⟩ | ⟨-, -, rfl⟩
  · refine hm.put hkey (iff_of_false ?_ hne) hside
    simp [PortfolioManager.increased, hopen]
  · exact hm.put hkey (by simp [PortfolioManager.decreased]) hside

theorem Marked.step (hm : Marked m) (c : Call) : Marked (step m c) := by
  rcases step_cases m c with ⟨-, hstep⟩ | ⟨position, m', hperform, hstep⟩
  · rwa [hstep]
  rw [hstep]
  cases c with
  | register args =>
      obtain ⟨-, hside, -, hq, rfl, rfl⟩ := PortfolioManager.registerPosition_ok hperform
      exact hm.put (show args.position.instanceId = _ from rfl) (iff_of_false Bool.false_ne_true hq.ne') hside
  | update f => exact hm.update hperform
  | close i =>
      obtain ⟨found, -, -, rfl⟩ := PortfolioManager.closePosition_ok hperform
      exact PortfolioManager.drop_forall hm

theorem marked_run (calls : List Call) : Marked (run calls) :=
  Coroutine.foldl_keeps (I := Marked) (fun _ c h => h.step c) calls marked_init

/-- A bitcoin is bought at 100 and sold at 120. -/
def boughtSold : List Call :=
  [.register longBitcoin, .update { instanceId := "a", side := .sell, price := 120, quantity := 1 }]

end Utos.Risk.PortfolioRun
