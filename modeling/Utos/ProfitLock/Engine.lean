import Utos.Execution.Service
import Utos.ProfitLock.Policy

namespace Utos.ProfitLock.Engine

open Coroutine Core.DomainTypes Core.Exceptions Execution.Models Execution.Service State Policy

variable {κ ω : Type} [DecidableEq κ] [ToString κ] (owner : κ → ω)

abbrev Lock (κ ω α : Type) := Client (Store κ) ω α

def transition (key : κ) (target : ProfitLockStatus) : Lock κ ω Unit :=
  .attempt (fun store => store.transition key target)

def assign (key : κ) (f : ProfitLockState → ProfitLockState) : Lock κ ω Unit :=
  .modify (fun store => store.assign key f)

def notFound (key : κ) : Exn := .profitLockError s!"Profit lock not found for instance {key}"

structure EnableArgs where
  exchangeAccountId : Option UUID
  symbol : String
  entryPrice : ℚ
  quantity : ℚ
  side : String
  triggerPercentage : ℚ
  trailPercentage : ℚ
  maxProfitPercentage : ℚ := 0

def enabledState (args : EnableArgs) : ProfitLockState :=
  { status := .monitoring, enabled := true
    triggerPercentage := args.triggerPercentage, trailPercentage := args.trailPercentage
    maxProfitPercentage := args.maxProfitPercentage, entryPrice := args.entryPrice
    quantity := args.quantity, side := args.side, highestPrice := some args.entryPrice
    lockPrice := none, isTriggered := false, isExecuted := false
    exchangeAccountId := args.exchangeAccountId, symbol := args.symbol }

def enable (key : κ) (args : EnableArgs) : Lock κ ω Bool := do
  if args.triggerPercentage ≤ 0 then
    throw (.validationError s!"trigger_percentage must be > 0, got {args.triggerPercentage}")
  else if args.trailPercentage ≤ 0 then
    throw (.validationError s!"trail_percentage must be > 0, got {args.trailPercentage}")
  else if 100 ≤ args.trailPercentage then
    throw (.validationError s!"trail_percentage must be < 100, got {args.trailPercentage}")
  else
    .modify (fun store : Store κ => store.put key (enabledState args))
    return true

def disable (key : κ) : Lock κ ω Bool := do
  match (← .read) key with
  | none => throw (notFound key)
  | some state =>
      if state.status = .executing ∧ truthy state.lockOrderId then
        -- a failed cancel is logged and counted, nothing more
        tryCatch (do let _ ← cancelOrder state.exchangeAccountId state.lockOrderId) (fun _ => pure ())
      transition key .disabled
      assign key (fun st => { st with enabled := false, isTriggered := false, lockOrderId := none })
      return true

/-- max(state.highest_price or current_price, current_price) -/
def raisedHigh (highestPrice : Option ℚ) (currentPrice : ℚ) : ℚ :=
  match highestPrice with
  | none => currentPrice
  | some high => if high = 0 then currentPrice else max high currentPrice

def handleTrigger (key : κ) (currentPrice : ℚ) (lockPrice : Option ℚ) : Lock κ ω Unit := do
  match (← .read) key, lockPrice with
  | some state, some lockPrice =>
      if state.status = .monitoring then transition key .triggered
      assign key (fun st => { st with
        isTriggered := true
        highestPrice := some (raisedHigh st.highestPrice currentPrice)
        lockPrice := some lockPrice })
  | _, _ => pure ()

def handleUpdate (key : κ) (currentPrice : ℚ) (newLockPrice : Option ℚ) : Lock κ ω Unit := do
  match (← .read) key, newLockPrice with
  | some _, some lockPrice =>
      assign key (fun st => { st with
        highestPrice := some (raisedHigh st.highestPrice currentPrice)
        lockPrice := some lockPrice })
  | _, _ => pure ()

def lockRequest (state : ProfitLockState) (lockPrice : ℚ) (requestId : UUID) : OrderRequest :=
  { requestId := requestId
    exchangeAccountId := state.exchangeAccountId
    symbol := state.symbol
    side := if state.side = "long" then .sell else .buy
    orderType := .limit
    quantity := state.quantity
    price := some lockPrice }

/-- ProfitLockEngine._place_lock_order -/
def placeLockOrder (key : κ) (lockPrice : ℚ) : Lock κ ω Bool := do
  match (← .read) key with
  | none => throw (notFound key)
  | some state =>
      transition key .executing
      tryCatch
        (do let result ← placeOrder (owner key) (lockRequest state lockPrice)
            assign key (fun st => { st with lockOrderId := result.orderId })
            return true)
        (fun exc => do
          transition key .error
          throw (.profitLockError s!"Failed to place lock order: {exc.message}"))

def handleExecute (key : κ) (lockPrice : Option ℚ) : Lock κ ω Unit := do
  match lockPrice with
  | none => pure ()
  | some lockPrice => do let _ ← placeLockOrder owner key lockPrice

def act (key : κ) (currentPrice : ℚ) (decision : PolicyDecision) : Lock κ ω Unit :=
  match decision.action with
  | .none => pure ()
  | .triggerLock => handleTrigger key currentPrice decision.newLockPrice
  | .updateLock => handleUpdate key currentPrice decision.newLockPrice
  | .executeLock => handleExecute owner key decision.newLockPrice

def onPriceUpdate (key : κ) (currentPrice : ℚ) : Lock κ ω Unit := do
  match (← .read) key with
  | none => pure ()
  | some state =>
      if state.enabled = false then pure ()
      else if state.status ≠ .monitoring ∧ state.status ≠ .triggered then pure ()
      else
        let profit ← .lift (calculate state.entryPrice currentPrice state.quantity state.side)
        act owner key currentPrice (evaluate currentPrice profit state)

def onPositionUpdate (key : κ) (entryPrice quantity : ℚ) : Lock κ ω Unit :=
  assign key (fun st => { st with entryPrice := entryPrice, quantity := quantity })

def onOrderFilled (key : κ) (orderId : OrderId) : Lock κ ω Unit := do
  match (← .read) key with
  | none => pure ()
  | some state =>
      if state.lockOrderId ≠ orderId then pure ()
      else if state.status ≠ .executing then pure ()
      else
        transition key .locked
        assign key (fun st => { st with isExecuted := true, lockOrderId := none })

def onOrderCancelled (key : κ) (orderId : OrderId) : Lock κ ω Unit := do
  match (← .read) key with
  | none => pure ()
  | some state =>
      if state.lockOrderId ≠ orderId then pure ()
      else if state.status ≠ .executing then pure ()
      else
        transition key .triggered
        assign key (fun st => { st with lockOrderId := none })

def executeLock (key : κ) (lockPrice : ℚ) : Lock κ ω Bool := do
  match (← .read) key with
  | none => throw (notFound key)
  | some _ => placeLockOrder owner key lockPrice

end Utos.ProfitLock.Engine
