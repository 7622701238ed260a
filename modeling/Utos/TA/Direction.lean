import Mathlib.Data.List.Perm.Basic
import Utos.Core.Snapshot
import Utos.TA.Indicators

namespace Utos.TA.Engine

open Core Core.Exceptions Core.Sequence Indicators

/-- TAGateResult -/
structure TAGateResult where
  passed : Bool
  operator : Json
  results : List IndicatorResult

variable (root : ℚ → ℚ)

/-- What one indicator decides; an unknown one passes. -/
def decides (indicator params : Json) (candles : List Candle) (currentPrice : ℚ) : Except Exn Bool :=
  if indicator.isText "rsi" then evalRsi params candles
  else if indicator.isText "macd" then evalMacd params candles
  else if indicator.isText "bollinger_bands" then evalBollinger root params candles currentPrice
  else if indicator.isText "fibonacci_retracement" then evalFibonacci params candles currentPrice
  else if indicator.isText "ema_crossover" then evalEmaCrossover params candles
  else if indicator.isText "sma_crossover" then evalSmaCrossover params candles
  else if indicator.isText "stochastic" then evalStochastic params candles
  else if indicator.isText "atr" then evalAtr params candles
  else .ok true

/-- _evaluate_indicator -/
def evaluateIndicator (indicator params : Json) (candles : List Candle) (currentPrice : ℚ) : Except Exn IndicatorResult :=
  (decides root indicator params candles currentPrice).map (fun passed => { indicator, passed })

/-- One turn of the loop over the enabled configs: whatever an indicator raises, it has not passed. -/
def resultOf (candles : List Candle) (currentPrice : ℚ) (config : Json) : Except Exn IndicatorResult := do
  let indicator ← config.item "indicator"
  let params ← config.get "params" (.object [])
  match evaluateIndicator root indicator params candles currentPrice with
  | .ok result => return result
  | .error _ => return { indicator, passed := false }

/-- The configs that are enabled. -/
def enabledConfigs : List Json → Except Exn (List Json)
  | [] => .ok []
  | config :: rest => do
      let enabled ← config.get "enabled" (.bool true)
      let later ← enabledConfigs rest
      return if enabled.truthy then config :: later else later

def combine (operator : Json) (results : List IndicatorResult) : Bool :=
  if operator.isText "and" then results.all IndicatorResult.passed else results.any IndicatorResult.passed

/-- TAEngine.evaluate -/
def evaluate (configs : List Json) (candleData : List Candle) (currentPrice : ℚ) : Except Exn TAGateResult := do
  match ← enabledConfigs configs with
  | [] => return { passed := true, operator := .text "none", results := [] }
  | first :: rest =>
      let operator ← first.get "operator" (.text "and")
      let results ← each (resultOf root candleData currentPrice) (first :: rest)
      return { passed := combine operator results, operator, results }

end Utos.TA.Engine

namespace Utos.TA.Direction

open Core Core.Exceptions Core.Sequence Indicators Engine

/-- How many closes an indicator asks for. -/
def needed (indicator params : Json) : Except Exn ℚ :=
  if indicator.isText "rsi" ∨ indicator.isText "atr" then do
    (number (← params.get "period" (.int 14))).map (· + 1)
  else if indicator.isText "macd" then do
    let slow ← params.get "slow_period" (.int 26)
    let signal ← params.get "signal_period" (.int 9)
    return (← number slow) + (← number signal)
  else if indicator.isText "bollinger_bands" then do number (← params.get "period" (.int 20))
  else if indicator.isText "ema_crossover" ∨ indicator.isText "sma_crossover" then do
    number (← params.get "slow_period" (.int 21))
  else if indicator.isText "stochastic" then do number (← params.get "k_period" (.int 14))
  else .ok 10

/-- The lists that an indicator reads in their order. -/
def ordered (indicator : Json) (candles : List Candle) : List (List ℚ) :=
  if indicator.isText "rsi" ∨ indicator.isText "macd" ∨ indicator.isText "ema_crossover" then [closesOf candles]
  else if indicator.isText "stochastic" ∨ indicator.isText "atr" then
    [highsOf candles, lowsOf candles, closesOf candles]
  else []

/-- The periods of the windows of closes that an indicator reads in any order. -/
def windows (indicator params : Json) : Except Exn (List Json) :=
  if indicator.isText "bollinger_bands" then do return [← params.get "period" (.int 20)]
  else if indicator.isText "fibonacci_retracement" then do return [← params.get "lookback" (.int 100)]
  else if indicator.isText "sma_crossover" then do
    return [← params.get "fast_period" (.int 9), ← params.get "slow_period" (.int 21)]
  else .ok []

/-- The latest closes of a window are the earliest ones, in some order. -/
def EndsAgree (closes : List ℚ) (period : Json) : Prop :=
  ∀ k, index period = .ok k → (since closes.reverse (-k)).Perm (since closes (-k))

/-- An indicator that has enough closes reads the same in both directions. -/
def Steady (indicator params : Json) (candles : List Candle) : Prop :=
  ∀ n, needed indicator params = .ok n → n ≤ (closesOf candles).length →
    (∀ xs ∈ ordered indicator candles, xs.reverse = xs) ∧
      ∀ periods, windows indicator params = .ok periods → ∀ period ∈ periods, EndsAgree (closesOf candles) period

variable {root : ℚ → ℚ} {params : Json} {candles : List Candle} {currentPrice : ℚ}

theorem closesOf_reverse (candles : List Candle) : closesOf candles.reverse = (closesOf candles).reverse :=
  List.filterMap_reverse

theorem highsOf_reverse (candles : List Candle) : highsOf candles.reverse = (highsOf candles).reverse :=
  List.filterMap_reverse

theorem lowsOf_reverse (candles : List Candle) : lowsOf candles.reverse = (lowsOf candles).reverse :=
  List.filterMap_reverse

theorem Steady.closes {indicator : Json} {n : ℚ} (h : Steady indicator params candles)
    (hneeded : needed indicator params = .ok n) (hle : n ≤ (closesOf candles).length)
    (hordered : ordered indicator candles = [closesOf candles]) : closesOf candles.reverse = closesOf candles := by
  have hsame := (h n hneeded hle).1
  rw [hordered] at hsame
  rw [closesOf_reverse, hsame _ List.mem_cons_self]

theorem Steady.ranges {indicator : Json} {n : ℚ} (h : Steady indicator params candles)
    (hneeded : needed indicator params = .ok n) (hle : n ≤ (closesOf candles).length)
    (hordered : ordered indicator candles = [highsOf candles, lowsOf candles, closesOf candles]) :
    highsOf candles.reverse = highsOf candles ∧ lowsOf candles.reverse = lowsOf candles ∧
      closesOf candles.reverse = closesOf candles := by
  have hsame := (h n hneeded hle).1
  rw [hordered] at hsame
  rw [highsOf_reverse, lowsOf_reverse, closesOf_reverse]
  exact ⟨hsame _ List.mem_cons_self, hsame (lowsOf candles) (by simp), hsame (closesOf candles) (by simp)⟩

def candleAt (close : ℚ) : Candle := { high := some close, low := some close, close := some close }

end Utos.TA.Direction
