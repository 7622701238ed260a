import Mathlib.Algebra.Order.Field.Rat

namespace Utos.Grid.CircuitBreaker

/-- A TA parameter is a number or a flag. -/
inductive ParamValue
  | number (x : ℚ)
  | flag (b : Bool)
  deriving DecidableEq, Repr

/-- The indicator configuration dict. -/
structure TAConfig where
  indicator : String
  timeFrame : String
  operator : String
  params : List (String × ParamValue)
  enabled : Bool := true
  priority : Nat
  description : String
  deriving DecidableEq, Repr

/-- A candle dict with its numeric entries. -/
abbrev CandleData := List (String × ℚ)

/-- The passed field of TAEngine.evaluate(configs, candles, price). -/
abbrev Evaluate := List TAConfig → List CandleData → ℚ → Bool

inductive BreakerResumeMode
  | taConfirm
  | widenStep
  | trailingBuy
  deriving DecidableEq, Repr

def defaultRecoveryPct : ℚ := 5

def defaultWidenMultiplier : ℚ := 2

/-- A UTC date, as a day number. -/
abbrev Date := Nat

def defaultTa15mConfigs : List TAConfig :=
  [{ indicator := "rsi", timeFrame := "15m", operator := "and"
     params := [("period", .number 14), ("oversold", .number 30)], priority := 1
     description := "Breaker reversal gate — RSI oversold on 15m" },
   { indicator := "macd", timeFrame := "15m", operator := "and"
     params := [("fast_period", .number 12), ("slow_period", .number 26),
       ("signal_period", .number 9), ("bullish_cross", .flag true)], priority := 2
     description := "Breaker reversal gate — MACD bullish cross on 15m" }]

/-- CircuitBreakerState. The timestamp of the last trigger is only logged. -/
structure CircuitBreakerState where
  instanceId : String
  criticalThreshold : ℚ
  minContinuationRate : ℚ := 4 / 5
  resumeMode : BreakerResumeMode := .taConfirm
  recoveryPct : ℚ := defaultRecoveryPct
  widenMultiplier : ℚ := defaultWidenMultiplier
  dayOpenPrice : Option ℚ := none
  triggered : Bool := false
  triggerDate : Option Date := none
  triggerPrice : Option ℚ := none
  bottomPrice : Option ℚ := none
  ta15mConfigs : List TAConfig := []
  deriving DecidableEq, Repr

namespace CircuitBreakerState

/-- The dataclass constructor followed by __post_init__. -/
def postInit (b : CircuitBreakerState) : CircuitBreakerState :=
  if b.ta15mConfigs = [] then { b with ta15mConfigs := defaultTa15mConfigs } else b

def checkNewDay (b : CircuitBreakerState) (today : Date) (currentPrice : ℚ) : CircuitBreakerState :=
  if b.triggerDate = some today then b
  else match b.triggerDate with
    | none => { b with triggerDate := some today, dayOpenPrice := some (b.dayOpenPrice.getD currentPrice) }
    | some _ => { b with triggered := false, triggerDate := some today, dayOpenPrice := some currentPrice,
                         bottomPrice := none }

def intradayDropPct (b : CircuitBreakerState) (currentPrice : ℚ) : ℚ :=
  match b.dayOpenPrice with
  | none => 0
  | some dayOpen => if dayOpen ≤ 0 then 0 else (currentPrice - dayOpen) / dayOpen * 100

def shouldTrigger (b : CircuitBreakerState) (currentPrice : ℚ) : Bool :=
  if b.triggered then false else b.intradayDropPct currentPrice ≤ -b.criticalThreshold

def updateBottom (b : CircuitBreakerState) (currentPrice : ℚ) : CircuitBreakerState :=
  if !b.triggered then b
  else match b.bottomPrice with
    | none => { b with bottomPrice := some currentPrice }
    | some low => if currentPrice < low then { b with bottomPrice := some currentPrice } else b

def shouldResumeTrailing (b : CircuitBreakerState) (currentPrice : ℚ) : Bool :=
  if !b.triggered then false
  else match b.bottomPrice with
    | none => false
    | some low => if low ≤ 0 then false else low * (1 + b.recoveryPct / 100) ≤ currentPrice

def trigger (b : CircuitBreakerState) (price : ℚ) : CircuitBreakerState :=
  { b with triggered := true, triggerPrice := some price, bottomPrice := some price }

def reset (b : CircuitBreakerState) : CircuitBreakerState := { b with triggered := false }

end CircuitBreakerState

end Utos.Grid.CircuitBreaker
