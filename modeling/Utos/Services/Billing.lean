import Utos.Core.Dict
import Utos.Core.DomainTypes
import Utos.Core.Exceptions
import Utos.Core.Json
import Utos.Coroutine.Pool

namespace Utos.Services.Billing

open Core Core.DomainTypes Core.Exceptions Coroutine Program

inductive InvoiceStatus
  | pending
  | paid
  | failed
  | cancelled
  deriving DecidableEq, Repr

structure Invoice where
  id : UUID
  userId : String
  amount : ℚ
  currency : String
  plan : String
  status : InvoiceStatus := .pending
  provider : Option String := none
  transactionId : Option String := none
  createdAt : Nat
  paidAt : Option Nat := none
  metadata : Dict String Json := ∅

inductive PaymentStatus
  | success
  | failed
  deriving DecidableEq, Repr

structure PaymentResult where
  invoiceId : UUID
  status : PaymentStatus
  transactionId : Option String := none
  error : Option String := none
  deriving DecidableEq, Repr

structure Metrics where
  invoicesCreated : Nat := 0
  paymentsSucceeded : Nat := 0
  paymentsFailed : Nat := 0
  deriving DecidableEq, Repr

/-- The service with its clock and the number of ids drawn so far. -/
structure BillingService where
  providers : List String := ["manual", "stripe", "midtrans", "xendit"]
  invoices : Dict UUID Invoice := ∅
  metrics : Metrics := {}
  now : Nat := 0
  issued : UUID := 0

/-- A call of provider.charge; the invoice id travels in the metadata. -/
structure Charge where
  provider : String
  invoiceId : UUID
  amount : ℚ
  currency : String
  metadata : Dict String Json

abbrev Ans (_ : Charge) := Except Exn PaymentResult

abbrev Op := Program BillingService Charge Ans Exn

def registerProvider (providerName : String) (s : BillingService) : BillingService :=
  { s with providers := s.providers ++ [providerName] }

def createInvoice (userId : String) (amount : ℚ) (currency plan : String) (metadata : Dict String Json)
    (s : BillingService) : Except Exn (Invoice × BillingService) :=
  if amount ≤ 0 then .error (.validationError "Amount must be positive")
  else
    let invoice : Invoice := { id := s.issued, userId, amount, currency := upper currency, plan, createdAt := s.now, metadata }
    .ok (invoice, { s with
      invoices := s.invoices.set invoice.id invoice
      metrics := { s.metrics with invoicesCreated := s.metrics.invoicesCreated + 1 }
      issued := s.issued + 1 })

/-- What process_payment writes to the invoice that it found before the charge. -/
def Invoice.settled (invoice : Invoice) (providerName : String) (now : Nat) (result : PaymentResult) : Invoice :=
  match result.status with
  | .success => { invoice with
      status := .paid, provider := some providerName, transactionId := result.transactionId, paidAt := some now }
  | .failed => { invoice with status := .failed, provider := some providerName }

def Metrics.settled (metrics : Metrics) (result : PaymentResult) : Metrics :=
  match result.status with
  | .success => { metrics with paymentsSucceeded := metrics.paymentsSucceeded + 1 }
  | .failed => { metrics with paymentsFailed := metrics.paymentsFailed + 1 }

/-- The invoice is the object of the dict, which nothing removes or replaces. -/
def settle (invoiceId : UUID) (providerName : String) (result : PaymentResult) (s : BillingService) : BillingService :=
  match s.invoices.get invoiceId with
  | none => s
  | some invoice => { s with
      invoices := s.invoices.set invoiceId (invoice.settled providerName s.now result)
      metrics := s.metrics.settled result }

/-- process_payment after the charge. -/
def afterCharge (invoiceId : UUID) (providerName : String) (answer : Except Exn PaymentResult) : Op PaymentResult :=
  Program.bind (lift answer) (fun result => do
    .modify (settle invoiceId providerName result)
    return result)

def processPayment (invoiceId : UUID) (providerName : String) : Op PaymentResult := do
  let s ← .read
  match s.invoices.get invoiceId with
  | none => .raise (.validationError s!"Invoice not found: {invoiceId}")
  | some invoice =>
      if providerName ∈ s.providers then
        .call ⟨providerName, invoiceId, invoice.amount, invoice.currency, invoice.metadata⟩
          (afterCharge invoiceId providerName)
      else .raise (.validationError s!"Provider not registered: {providerName}")

def cancelInvoice (invoiceId : UUID) (s : BillingService) : Bool × BillingService :=
  match s.invoices.get invoiceId with
  | none => (false, s)
  | some invoice =>
      if invoice.status ≠ .pending then (false, s)
      else (true, { s with invoices := s.invoices.set invoiceId { invoice with status := .cancelled } })

/-- The transaction ids of the successful charges of each invoice. -/
abbrev Charges := UUID → List (Option String)

def successes : Except Exn PaymentResult → List (Option String)
  | .ok result => if result.status = .success then [result.transactionId] else []
  | .error _ => []

/-- A provider answers a charge as it likes; what succeeds is booked. -/
def provider (answer : Except Exn PaymentResult) : Handler Charges Charge Ans := fun charges charge =>
  (answer, Function.update charges charge.invoiceId (charges charge.invoiceId ++ successes answer))

/-- The payments under way take turns on the service. -/
abbrev Desk := Pool BillingService Charges Charge Ans Exn PaymentResult

/-- The number of a task is used once. A charge is answered some time after it was
asked for, and the payment goes on some time after that. -/
inductive Step
  | registerProvider (providerName : String)
  | createInvoice (userId : String) (amount : ℚ) (currency plan : String) (metadata : Dict String Json)
  | cancelInvoice (invoiceId : UUID)
  | processPayment (task : Nat) (invoiceId : UUID) (providerName : String)
  | charge (task : Nat) (answer : Except Exn PaymentResult)
  | resume (task : Nat)
  | elapse (time : Nat)

def step (P : Desk) : Step → Desk
  | .registerProvider providerName => { P with store := registerProvider providerName P.store }
  | .createInvoice userId amount currency plan metadata =>
      match createInvoice userId amount currency plan metadata P.store with
      | .ok (_, s) => { P with store := s }
      | .error _ => P
  | .cancelInvoice invoiceId => { P with store := (cancelInvoice invoiceId P.store).2 }
  | .processPayment task invoiceId providerName =>
      if (P.tasks task).isNone then P.start task (processPayment invoiceId providerName) else P
  | .charge task answer => P.act (provider answer) task
  | .resume task => P.resume task
  | .elapse time => { P with store := { P.store with now := P.store.now + time } }

/-- A new service, without payments under way. -/
def opened : Desk := { store := {}, world := fun _ => [] }

def run (steps : List Step) : Desk := steps.foldl step opened

end Utos.Services.Billing
