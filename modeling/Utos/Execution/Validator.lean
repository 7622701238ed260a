import Utos.Core.Exceptions
import Utos.Execution.Models
import Mathlib.Algebra.Order.Ring.Rat

namespace Utos.Execution.Validator

open Core.DomainTypes Core.Exceptions Models

/-- str.isspace() of one character. -/
def isSpace (c : Char) : Bool :=
  let n := c.toNat
  (9 ≤ n ∧ n ≤ 13) ∨ (28 ≤ n ∧ n ≤ 32) ∨ n = 133 ∨ n = 160 ∨ n = 5760 ∨ (8192 ≤ n ∧ n ≤ 8202) ∨
    n = 8232 ∨ n = 8233 ∨ n = 8239 ∨ n = 8287 ∨ n = 12288

/-- not s or not s.strip() -/
def blank (s : String) : Bool := s.toList.all isSpace

def missing (x : Option ℚ) : Bool :=
  match x with
  | none => true
  | some x => x ≤ 0

/-- OrderValidator.validate. The checks that the types of OrderRequest already
settle, those of the request id, the side and the order type, are left out. -/
def validate (request : OrderRequest) : Except Exn Unit :=
  if request.exchangeAccountId = none then
    .error (.orderValidationError "exchange_account_id is required")
  else if blank request.symbol then .error (.orderValidationError "symbol is required")
  else if request.quantity ≤ 0 then .error (.orderValidationError "quantity must be greater than zero")
  else if (request.orderType = .limit ∨ request.orderType = .stopLimit) ∧ missing request.price then
    .error (.orderValidationError "price is required for limit and stop_limit orders")
  else if request.orderType = .stopLimit ∧ missing request.stopPrice then
    .error (.orderValidationError "stop_price is required for stop_limit orders")
  else if request.orderType = .market ∧ request.price ≠ none then
    .error (.orderValidationError "price must not be set for market orders")
  else .ok ()

theorem validate_quantity {request : OrderRequest} (h : validate request = .ok ()) :
    0 < request.quantity := by
  unfold validate at h
  split at h
  · cases h
  · split at h
    · cases h
    · split at h
      · cases h
      · next hq => exact not_le.mp hq

end Utos.Execution.Validator
