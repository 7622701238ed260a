import Utos.ProfitLock.State
import Mathlib.Algebra.Order.Field.Rat

namespace Utos.ProfitLock.Policy

open Core.DomainTypes Core.Exceptions State

structure ProfitResult where
  floatingProfit : ℚ
  profitPercentage : ℚ
  isProfitable : Bool
  entryPrice : ℚ
  currentPrice : ℚ
  quantity : ℚ
  deriving DecidableEq, Repr

/-- ProfitCalculator.validate -/
def validate (entryPrice currentPrice quantity : ℚ) : Except Exn Unit :=
  if entryPrice ≤ 0 then
    .error (.validationError s!"entry_price must be > 0, got {entryPrice}")
  else if currentPrice ≤ 0 then
    .error (.validationError s!"current_price must be > 0, got {currentPrice}")
  else if quantity ≤ 0 then
    .error (.validationError s!"quantity must be > 0, got {quantity}")
  else .ok ()

def floatingProfit (entryPrice currentPrice quantity : ℚ) (side : String) : Except Exn ℚ :=
  if side = "long" then .ok ((currentPrice - entryPrice) * quantity)
  else if side = "short" then .ok ((entryPrice - currentPrice) * quantity)
  else .error (.validationError s!"side must be 'long' or 'short', got '{side}'")

/-- ProfitCalculator.calculate -/
def calculate (entryPrice currentPrice quantity : ℚ) (side : String) : Except Exn ProfitResult := do
  validate entryPrice currentPrice quantity
  let profit ← floatingProfit entryPrice currentPrice quantity side
  let investment := entryPrice * quantity
  return { floatingProfit := profit
           profitPercentage := if 0 < investment then profit / investment * 100 else 0
           isProfitable := 0 < profit
           entryPrice := entryPrice
           currentPrice := currentPrice
           quantity := quantity }

inductive Action
  | none
  | updateLock
  | triggerLock
  | executeLock
  deriving DecidableEq, Repr

/-- PolicyDecision without the reason text, which only logs. -/
structure PolicyDecision where
  action : Action
  newLockPrice : Option ℚ := .none
  deriving DecidableEq, Repr

def newHighest (highestPrice : Option ℚ) (currentPrice : ℚ) : ℚ :=
  match highestPrice with
  | .none => currentPrice
  | some high => if high < currentPrice then currentPrice else high

/-- The part of evaluate reached in status TRIGGERED. -/
def evaluateTriggered (currentPrice newHigh : ℚ) (state : ProfitLockState) : PolicyDecision :=
  let newLock := newHigh * (1 - state.trailPercentage / 100)
  if state.highestPrice.getD 0 < newHigh ∧ (∀ lock ∈ state.lockPrice, lock < newLock) then
    { action := .updateLock, newLockPrice := some newLock }
  else match state.lockPrice with
    | some lock =>
        if currentPrice ≤ lock then { action := .executeLock, newLockPrice := some lock }
        else { action := .none }
    | .none => { action := .none }

/-- ProfitLockPolicy.evaluate -/
def evaluate (currentPrice : ℚ) (profit : ProfitResult) (state : ProfitLockState) : PolicyDecision :=
  if !state.enabled then { action := .none }
  else if state.status ≠ .monitoring ∧ state.status ≠ .triggered then { action := .none }
  else if 0 < state.maxProfitPercentage ∧ state.maxProfitPercentage ≤ profit.profitPercentage then
    { action := .executeLock, newLockPrice := some currentPrice }
  else
    let newHigh := newHighest state.highestPrice currentPrice
    match state.status with
    | .monitoring =>
        if state.triggerPercentage ≤ profit.profitPercentage then
          { action := .triggerLock, newLockPrice := some (newHigh * (1 - state.trailPercentage / 100)) }
        else { action := .none }
    | .triggered => evaluateTriggered currentPrice newHigh state
    | _ => { action := .none }

end Utos.ProfitLock.Policy
