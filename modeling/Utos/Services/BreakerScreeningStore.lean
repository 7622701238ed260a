import Utos.Grid.Engine
import Utos.Repositories.BreakerThreshold

namespace Utos.Services.Screening

open Core.DomainTypes Core.Exceptions Grid.CircuitBreaker Grid.Engine Repositories.Thresholds

def fallbackThresholds : List (ℚ × ℚ) := [(7 / 10, 3), (8 / 10, 4), (9 / 10, 5)]

/-- DailyDropAnalyzer._fallback -/
def fallback (minContinuationRate : ℚ) : ℚ := (fallbackThresholds.lookup minContinuationRate).getD 4

/-- BreakerResumeMode(value); none stands for the ValueError. -/
def resumeModeOf : String → Option BreakerResumeMode
  | "ta_confirm" => some .taConfirm
  | "widen_step" => some .widenStep
  | "trailing_buy" => some .trailingBuy
  | _ => none

/-- The dict of get_breaker_config. -/
structure BreakerConfig where
  criticalThreshold : ℚ
  resumeMode : BreakerResumeMode
  recoveryPct : ℚ
  widenMultiplier : ℚ
  minContinuationRate : ℚ
  usedFallback : Bool
  deriving DecidableEq, Repr

/-- The arguments of get_breaker_config. -/
structure BreakerQuery where
  symbol : String
  minContinuationRate : ℚ
  exchange : String := "binance"
  deriving DecidableEq, Repr

variable (numeric : Numeric)

def BreakerQuery.key (query : BreakerQuery) : Key := keyOf numeric query.exchange query.symbol query.minContinuationRate

def storedConfig (key : Key) (row : BreakerThreshold) : BreakerConfig :=
  { criticalThreshold := row.screening.thresholdPct
    resumeMode := (resumeModeOf row.resume.resumeMode).getD .taConfirm
    recoveryPct := row.resume.recoveryPct
    widenMultiplier := row.resume.widenMultiplier
    minContinuationRate := key.rate
    usedFallback := row.screening.usedFallback }

def fallbackConfig (minContinuationRate : ℚ) : BreakerConfig :=
  { criticalThreshold := fallback minContinuationRate
    resumeMode := .taConfirm
    recoveryPct := defaultRecoveryPct
    widenMultiplier := defaultWidenMultiplier
    minContinuationRate := minContinuationRate
    usedFallback := true }

def getBreakerConfig (rows : Rows) (query : BreakerQuery) : BreakerConfig :=
  match rows.get (query.key numeric) with
  | some row => storedConfig (query.key numeric) row
  | none => fallbackConfig query.minContinuationRate

/-- The arguments that setup_breaker_for_instance takes over from the dict. -/
def BreakerConfig.args (config : BreakerConfig) : BreakerArgs :=
  { criticalThreshold := config.criticalThreshold
    minContinuationRate := config.minContinuationRate
    resumeMode := config.resumeMode
    recoveryPct := some config.recoveryPct
    widenMultiplier := some config.widenMultiplier }

/-- BreakerScreeningStore, as far as its methods for an instance go. -/
structure BreakerScreeningStore (Hub : Type) where
  hub : Hub

/-- A call of the class with the market hub that it is passed, if any: the parameter has no default. -/
def BreakerScreeningStore.init {Hub : Type} : Option Hub → Except Exn (BreakerScreeningStore Hub)
  | some hub => .ok ⟨hub⟩
  | none => .error (.other "TypeError"
      "BreakerScreeningStore.__init__() missing 1 required positional argument: 'market_hub'")

/-- The breaker has the threshold and the resume behaviour of the config. -/
structure Installs (config : BreakerConfig) (b : CircuitBreakerState) : Prop where
  criticalThreshold : b.criticalThreshold = config.criticalThreshold
  resumeMode : b.resumeMode = config.resumeMode
  recoveryPct : b.recoveryPct = config.recoveryPct
  widenMultiplier : b.widenMultiplier = config.widenMultiplier

theorem installs_breaker (config : BreakerConfig) (i : String) (dayOpenPrice : ℚ) :
    Installs config ({ config.args with dayOpenPrice := some dayOpenPrice }.breaker i) := ⟨rfl, rfl, rfl, rfl⟩

/-- Without a row of its own an instance gets a breaker that some drop triggers. -/
theorem fallback_pos (minContinuationRate : ℚ) : 0 < fallback minContinuationRate := by
  rw [fallback]
  cases hrate : fallbackThresholds.lookup minContinuationRate with
  | none => decide +kernel
  | some threshold =>
      obtain ⟨before, after, hsplit, -⟩ := List.lookup_eq_some_iff.mp hrate
      have hmem : (minContinuationRate, threshold) ∈ fallbackThresholds := by simp [hsplit]
      have hpos : ∀ x ∈ fallbackThresholds, 0 < x.2 := by decide +kernel
      exact hpos _ hmem

end Utos.Services.Screening
