import Utos.Core.Sequence
import Utos.Core.Json
import Mathlib.Algebra.BigOperators.Group.List.Basic
import Mathlib.Algebra.Order.Field.Rat

namespace Utos.TA.Indicators

open Core Core.Exceptions Core.Sequence

/-- A candle as the indicators read it: each of its keys may be missing. -/
structure Candle where
  high : Option ℚ
  low : Option ℚ
  close : Option ℚ
  deriving DecidableEq, Repr

structure IndicatorResult where
  indicator : Json
  passed : Bool

/-- A parameter in arithmetic or in a comparison with a number. A float that is no number has no exact value. -/
def number : Json → Except Exn ℚ
  | .int n => .ok n
  | .bool b => .ok (if b then 1 else 0)
  | .float (some x) _ => .ok x
  | .float none _ => .error (.other "ValueError" "cannot convert float NaN to a number")
  | j => .error (.other "TypeError" s!"'{j.typeName}' is not a number")

/-- A parameter as the bound of a slice or of a range. -/
def index : Json → Except Exn Int
  | .int n => .ok n
  | .bool b => .ok (if b then 1 else 0)
  | .float _ _ => .error (.other "TypeError" "slice indices must be integers or None or have an __index__ method")
  | j => .error (.other "TypeError" s!"bad operand type: '{j.typeName}'")

/-- x / y -/
def divide (x y : ℚ) : Except Exn ℚ :=
  if y = 0 then .error (.other "ZeroDivisionError" "float division by zero") else .ok (x / y)

/-- max(xs) -/
def maxOf : List ℚ → Except Exn ℚ
  | [] => .error (.other "ValueError" "max() iterable argument is empty")
  | x :: xs => .ok (xs.foldl max x)

/-- min(xs) -/
def minOf : List ℚ → Except Exn ℚ
  | [] => .error (.other "ValueError" "min() iterable argument is empty")
  | x :: xs => .ok (xs.foldl min x)

def closesOf (candles : List Candle) : List ℚ := candles.filterMap Candle.close

def highsOf (candles : List Candle) : List ℚ := candles.filterMap Candle.high

def lowsOf (candles : List Candle) : List ℚ := candles.filterMap Candle.low

/-- How every indicator begins: with too few closes it has not passed. -/
def ifEnough (closes : List ℚ) (needed : Except Exn ℚ) (rest : Except Exn Bool) : Except Exn Bool := do
  if (closes.length : ℚ) < (← needed) then return false
  rest

/-- The averages of the later gains or losses, smoothed. -/
def smoothed (values : List ℚ) (period average : ℚ) : List Int → Except Exn ℚ
  | [] => .ok average
  | i :: rest => do
      let value ← item values i
      let next ← divide (average * (period - 1) + value) period
      smoothed values period next rest

/-- _calculate_rsi -/
def calculateRsi (closes : List ℚ) (period : Int) : Except Exn ℚ :=
  if (closes.length : Int) < period + 1 then .ok 50
  else do
    let diffs := List.zipWith (fun curr prev => curr - prev) closes.tail closes
    let gains := diffs.map (fun diff => max diff 0)
    let losses := diffs.map (fun diff => max (-diff) 0)
    let firstGain ← divide (upTo gains period).sum period
    let firstLoss ← divide (upTo losses period).sum period
    let avgGain ← smoothed gains period firstGain (range period gains.length)
    let avgLoss ← smoothed losses period firstLoss (range period gains.length)
    if avgLoss = 0 then return 100
    let rs ← divide avgGain avgLoss
    let share ← divide 100 (1 + rs)
    return 100 - share

/-- _eval_rsi -/
def evalRsi (params : Json) (candles : List Candle) : Except Exn Bool := do
  let period ← params.get "period" (.int 14)
  let oversold ← params.get "oversold" (.int 30)
  let closes := closesOf candles
  ifEnough closes ((number period).map (· + 1)) do
    let rsi ← calculateRsi closes (← index period)
    return rsi < (← number oversold)

/-- The elements that _calculate_ema appends. -/
def emaTail (values : List ℚ) (multiplier last : ℚ) : List Int → Except Exn (List ℚ)
  | [] => .ok []
  | i :: rest => do
      let value ← item values i
      let next := (value - last) * multiplier + last
      return next :: (← emaTail values multiplier next rest)

/-- _calculate_ema -/
def calculateEma (values : List ℚ) (period : Json) : Except Exn (List ℚ) := do
  if (values.length : ℚ) < (← number period) then return [values.getLast?.getD 0]
  let multiplier ← divide 2 ((← number period) + 1)
  let seed ← divide (upTo values (← index period)).sum (← number period)
  return seed :: (← emaTail values multiplier seed (range (← index period) values.length))

/-- _calculate_macd -/
def calculateMacd (closes : List ℚ) (fast slow signal : Json) : Except Exn (ℚ × ℚ) := do
  let emaFast ← calculateEma closes fast
  let emaSlow ← calculateEma closes slow
  let macdValues := List.zipWith (fun f s => f - s) emaFast emaSlow
  let signalValues ← calculateEma macdValues signal
  return (← item macdValues (-1), ← item signalValues (-1))

/-- _eval_macd -/
def evalMacd (params : Json) (candles : List Candle) : Except Exn Bool := do
  let fast ← params.get "fast_period" (.int 12)
  let slow ← params.get "slow_period" (.int 26)
  let signal ← params.get "signal_period" (.int 9)
  let closes := closesOf candles
  ifEnough closes (do return (← number slow) + (← number signal)) do
    let lines ← calculateMacd closes fast slow signal
    return lines.2 < lines.1

/-- _eval_bollinger; root stands for the power of one half. -/
def evalBollinger (root : ℚ → ℚ) (params : Json) (candles : List Candle) (currentPrice : ℚ) : Except Exn Bool := do
  let period ← params.get "period" (.int 20)
  let stdDev ← params.get "std_dev" (.int 2)
  let closes := closesOf candles
  ifEnough closes (number period) do
    let window := since closes (-(← index period))
    let sma ← divide window.sum (← number period)
    let variance ← divide (window.map (fun c => (c - sma) ^ 2)).sum (← number period)
    if variance < 0 then .error (.other "TypeError" "'<' not supported between instances of 'float' and 'complex'")
    else return currentPrice < sma - (← number stdDev) * root variance

/-- The value whose key is smallest, the first of several. -/
def minBy (key : ℚ → ℚ) (x : ℚ) (xs : List ℚ) : ℚ := xs.foldl (fun least y => if key y < key least then y else least) x

def retracements : List ℚ := [382 / 1000, 500 / 1000, 618 / 1000, 786 / 1000]

/-- _eval_fibonacci -/
def evalFibonacci (params : Json) (candles : List Candle) (currentPrice : ℚ) : Except Exn Bool := do
  let lookback ← params.get "lookback" (.int 100)
  let tolerance ← params.get "tolerance" (.float (some (2 / 100)) "0.02")
  let closes := closesOf candles
  ifEnough closes (.ok 10) do
    let recent ← if (← number lookback) ≤ (closes.length : ℚ) then (index lookback).map (fun n => since closes (-n))
      else .ok closes
    let high ← maxOf recent
    let low ← minOf recent
    let diff := high - low
    if diff = 0 then return false
    let nearest := minBy (fun level => |level - currentPrice|) (low + diff * (236 / 1000))
      (retracements.map (fun ratio => low + diff * ratio))
    let distance ← divide |nearest - currentPrice| currentPrice
    return distance ≤ (← number tolerance)

/-- _eval_ema_crossover -/
def evalEmaCrossover (params : Json) (candles : List Candle) : Except Exn Bool := do
  let fastPeriod ← params.get "fast_period" (.int 9)
  let slowPeriod ← params.get "slow_period" (.int 21)
  let closes := closesOf candles
  ifEnough closes (number slowPeriod) do
    let emaFast ← calculateEma closes fastPeriod
    let emaSlow ← calculateEma closes slowPeriod
    return (← item emaSlow (-1)) < (← item emaFast (-1))

/-- sum(closes[-period:]) / period -/
def latestMean (closes : List ℚ) (period : Json) : Except Exn ℚ := do
  divide (since closes (-(← index period))).sum (← number period)

/-- _eval_sma_crossover -/
def evalSmaCrossover (params : Json) (candles : List Candle) : Except Exn Bool := do
  let fastPeriod ← params.get "fast_period" (.int 9)
  let slowPeriod ← params.get "slow_period" (.int 21)
  let closes := closesOf candles
  ifEnough closes (number slowPeriod) do
    let smaFast ← latestMean closes fastPeriod
    let smaSlow ← latestMean closes slowPeriod
    return smaSlow < smaFast

/-- The loop of _eval_stochastic over the earlier values of %K. -/
def kValues (highs lows closes : List ℚ) (kPeriod : Int) : List Int → Except Exn (List ℚ)
  | [] => .ok []
  | i :: rest =>
      if i < kPeriod then kValues highs lows closes kPeriod rest
      else do
        let h ← maxOf (slice highs (i - kPeriod) i)
        let l ← minOf (slice lows (i - kPeriod) i)
        if h = l then kValues highs lows closes kPeriod rest
        else do
          let close ← item closes i
          return (close - l) / (h - l) * 100 :: (← kValues highs lows closes kPeriod rest)

/-- _eval_stochastic -/
def evalStochastic (params : Json) (candles : List Candle) : Except Exn Bool := do
  let kPeriod ← params.get "k_period" (.int 14)
  let dPeriod ← params.get "d_period" (.int 3)
  let oversold ← params.get "oversold" (.int 20)
  let highs := highsOf candles
  let lows := lowsOf candles
  let closes := closesOf candles
  ifEnough closes (number kPeriod) do
    let k ← index kPeriod
    let recentHigh ← maxOf (since highs (-k))
    let recentLow ← minOf (since lows (-k))
    if recentHigh = recentLow then return false
    let kValue := ((← item closes (-1)) - recentLow) / (recentHigh - recentLow) * 100
    let first := closes.length - (← number dPeriod) * k
    let start ← if k < first then (index dPeriod).map (fun d => closes.length - d * k) else .ok k
    let values ← kValues highs lows closes k (range start closes.length)
    if (← number dPeriod) ≤ (values.length : ℚ) then
      let _ ← latestMean values dPeriod
    return kValue < (← number oversold)

/-- The true ranges of _eval_atr. -/
def trueRanges (highs lows closes : List ℚ) : List Int → Except Exn (List ℚ)
  | [] => .ok []
  | i :: rest => do
      let high ← item highs i
      let low ← item lows i
      let previous ← item closes (i - 1)
      let tr := max (max (high - low) |high - previous|) |low - previous|
      return tr :: (← trueRanges highs lows closes rest)

/-- _eval_atr -/
def evalAtr (params : Json) (candles : List Candle) : Except Exn Bool := do
  let period ← params.get "period" (.int 14)
  let maxMultiplier ← params.get "max_multiplier" (.float (some 3) "3.0")
  let closes := closesOf candles
  ifEnough closes ((number period).map (· + 1)) do
    let ranges ← trueRanges (highsOf candles) (lowsOf candles) closes (range 1 closes.length)
    let atr ← latestMean ranges period
    let avgAtr ← if ranges = [] then .ok atr else divide ranges.sum ranges.length
    return atr ≤ avgAtr * (← number maxMultiplier)

end Utos.TA.Indicators
