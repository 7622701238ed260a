import Mathlib.Logic.Basic

namespace Utos.Core.Exceptions

/-- ExchangeError and the subclasses the engines tell apart. -/
inductive ExchangeErrorClass
  | exchangeError
  | exchangeConnectionError
  | exchangeRateLimitError
  | orderExecutionError
  deriving DecidableEq, Repr

/-- Everything an operation of the engines can raise. The constructor other
stands for exceptions outside the hierarchy that an adapter lets through. -/
inductive Exn
  | exchange (cls : ExchangeErrorClass) (message exchangeName : String) (errorCode : Option String)
  | validationError (message : String)
  | orderValidationError (message : String)
  | insufficientBalanceError (message : String)
  | timeoutError (message : String)
  | retryableError (message : String)
  | invalidStateTransition (message currentState targetState : String)
  | gridError (message : String)
  | profitLockError (message : String)
  | orderNotFound (orderId : String)
  | orderAlreadyFilled (orderId : String)
  | other (className message : String)
  deriving DecidableEq, Repr

namespace Exn

/-- str(exc) -/
def message : Exn → String
  | exchange _ m _ _ | validationError m | orderValidationError m | insufficientBalanceError m
  | timeoutError m | retryableError m | invalidStateTransition m _ _ | gridError m
  | profitLockError m | other _ m => m
  | orderNotFound i => s!"Order {i} not found"
  | orderAlreadyFilled i => s!"Order {i} is already filled"

def errorCode : Exn → Option String
  | exchange _ _ _ c => c
  | _ => none

/-- except (ExchangeConnectionError, ExchangeRateLimitError, TimeoutError, RetryableError) -/
def isTransient : Exn → Bool
  | exchange .exchangeConnectionError _ _ _ | exchange .exchangeRateLimitError _ _ _
  | timeoutError _ | retryableError _ => true
  | _ => false

def isExchangeError : Exn → Bool
  | exchange .. => true
  | _ => false

def isInsufficientBalance : Exn → Bool
  | insufficientBalanceError _ => true
  | _ => false

def isOrderExecutionError : Exn → Bool
  | exchange .orderExecutionError _ _ _ => true
  | _ => false

def isOrderAlreadyFilled : Exn → Bool
  | orderAlreadyFilled _ => true
  | _ => false

end Exn

end Utos.Core.Exceptions
