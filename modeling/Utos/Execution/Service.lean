import Utos.Coroutine.Run
import Utos.Core.Exceptions
import Utos.Execution.Models

namespace Utos.Execution.Service

open Coroutine Core.DomainTypes Core.Exceptions Models

/-- What the strategy engines ask of ExecutionEngine. A request is handed over
as a function of its request_id, which is a fresh uuid4; owner says for whom it
is placed, is not part of the source and is read by no operation. -/
inductive ExecReq (ω : Type)
  | placeOrder (owner : ω) (request : UUID → OrderRequest)
  | cancelOrder (exchangeAccountId : Option UUID) (orderId : OrderId)

abbrev ExecAns (ω : Type) : ExecReq ω → Type := fun _ => Except Exn OrderResult

/-- An operation of an engine with state S that delegates its orders. -/
abbrev Client (S ω α : Type) := Program S (ExecReq ω) (ExecAns ω) Exn α

variable {S ω : Type}

def placeOrder (owner : ω) (request : UUID → OrderRequest) : Client S ω OrderResult :=
  .await (.placeOrder owner request) id

def cancelOrder (exchangeAccountId : Option UUID) (orderId : OrderId) : Client S ω OrderResult :=
  .await (.cancelOrder exchangeAccountId orderId) id

end Utos.Execution.Service
