import Utos.Risk.Manager
import Utos.Core.Decline

namespace Utos.Risk.Metrics

open Core Recovery.Portfolio Manager

/-- The loop of calculate_drawdown, with the peak and the largest fall below it so far. -/
def drawdownFrom (peak maxDd : ℚ) : List ℚ → ℚ
  | [] => maxDd
  | value :: rest => drawdownFrom (max peak value) (max maxDd (max peak value - value)) rest

def calculateDrawdown (pnlHistory : List ℚ) : ℚ :=
  match pnlHistory with
  | [] => 0
  | first :: _ => drawdownFrom first 0 pnlHistory

variable {prices : Dict String ℚ}

end Utos.Risk.Metrics

namespace Utos.Risk.Drawdown

open Core.Decline Metrics

/-- The largest decline of a history, none for an empty one. -/
def MaximalDecline (pnlHistory : List ℚ) (d : ℚ) : Prop :=
  match pnlHistory with
  | [] => d = 0
  | _ :: _ => IsGreatest (declines pnlHistory) d

theorem drawdownFrom_isGreatest (rest : List ℚ) {seen : List ℚ} {peak maxDd : ℚ} (hpeak : IsGreatest {x | x ∈ seen} peak)
    (hmax : IsGreatest (declines seen) maxDd) :
    IsGreatest (declines (seen ++ rest)) (drawdownFrom peak maxDd rest) := by
  induction rest generalizing seen peak maxDd with
  | nil => rwa [List.append_nil]
  | cons value rest ih =>
      have hnext := ih (isGreatest_mem_concat hpeak value) (isGreatest_declines_concat hpeak hmax value)
      rwa [List.append_assoc, List.singleton_append] at hnext

theorem calculateDrawdown_cons (first : ℚ) (rest : List ℚ) :
    calculateDrawdown (first :: rest) = drawdownFrom first 0 rest := by
  simp only [calculateDrawdown, drawdownFrom, max_self, sub_self]

/-- The drawdown is the largest decline of the history. -/
theorem calculateDrawdown_maximal (pnlHistory : List ℚ) : MaximalDecline pnlHistory (calculateDrawdown pnlHistory) := by
  cases pnlHistory with
  | nil => rfl
  | cons first rest =>
      have hpeak : IsGreatest {x | x ∈ [first]} first := ⟨List.mem_singleton_self first, fun x hx => (List.mem_singleton.mp hx).le⟩
      have hgreatest := drawdownFrom_isGreatest rest hpeak (isGreatest_declines_singleton first)
      rw [MaximalDecline, calculateDrawdown_cons]
      exact hgreatest

end Utos.Risk.Drawdown
