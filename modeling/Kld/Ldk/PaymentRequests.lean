import Kld.Database.LdkDatabase
import Kld.Ldk.AsyncSenders
import Kld.Ldk.Controller
import Kld.Lib.Run

/-!
# Outbound payments

A request hands its payment to LDK, stores it as pending, registers a sender and
waits; the handler of LDK's final event looks the sender up and passes the
payment with its outcome back, and the request stores it. A request may be
dropped wherever it awaits something, and a restart drops all of them.
-/

namespace Kld.Payments

open Sql

inductive RetryableSendFailure where
  | paymentExpired
  | routeNotFound
  | duplicatePayment
deriving DecidableEq

def retryableSendFailure : RetryableSendFailure → String
  | .paymentExpired => "Payment failure: payment has expired"
  | .routeNotFound => "Payment failure: route not found"
  | .duplicatePayment => "Payment failure: duplicate payment"

/-- The result of each path of a partial failure is `none` where it was sent. -/
inductive PaymentSendFailure where
  | parameterError (e : APIError)
  | pathParameterError (results : List (Option APIError))
  | allFailedResendSafe (errors : List APIError)
  | duplicatePayment
  | partialFailure (results : List (Option APIError))
deriving DecidableEq

def paymentSendFailure : PaymentSendFailure → String
  | .parameterError e => ldkError e
  | .pathParameterError _ => "Payment failure: Path parameter error. Check logs for more details."
  | .allFailedResendSafe _ =>
    "Payment failure: All failed, resend safe. Check logs for more details."
  | .duplicatePayment => "Payment failed: Duplicate Payment"
  | .partialFailure _ => "Payment failed: Partial failure. Check logs for more details."

/-- LDK's final event about a payment. The payment id of `PaymentSent` is optional, and `named`
where it is given. -/
inductive Outcome where
  | sent (named : Bool) (preimage : PaymentPreimage) (hash : PaymentHash)
      (feePaidMsat : Option UInt64)
  | failed (hash : PaymentHash) (reason : Option PaymentFailureReason)
deriving DecidableEq

def Outcome.named : Outcome → Bool
  | .sent named _ _ _ => named
  | .failed _ _ => true

def Outcome.apply (payment : Payment) : Outcome → Payment
  | .sent _ preimage hash feePaidMsat => payment.succeeded hash preimage feePaidMsat
  | .failed _ reason => payment.failed reason

/-- What LDK knows of a payment id. A handled event may come again after a restart. -/
inductive LdkPayment where
  | unknown
  | inFlight
  | handled (outcome : Outcome)
  | replayable (outcome : Outcome)
deriving DecidableEq

def LdkPayment.outcome : LdkPayment → Option Outcome
  | .handled outcome => some outcome
  | .replayable outcome => some outcome
  | _ => none

def LdkPayment.mayDeliver (ldk : LdkPayment) (outcome : Outcome) : Bool :=
  ldk = .inFlight || ldk = .replayable outcome

def LdkPayment.restart : LdkPayment → LdkPayment
  | .handled outcome => .replayable outcome
  | ldk => ldk

inductive RequestError where
  | message (text : String)
  | database
deriving DecidableEq

inductive Phase where
  | persistInvoice (invoice : Invoice) (payment : Payment)
  | persistPending (payment : Payment)
  | register (payment : Payment)
  | waiting
  | replied (payment : Payment)
  | returned (result : Except RequestError Payment)
  | dropped

def Phase.ended : Phase → Bool
  | .returned _ => true
  | .dropped => true
  | _ => false

/-- The server's answer to a write; unanswered means written although the request sees an error. -/
inductive Answer where
  | stored
  | refused
  | unanswered
deriving DecidableEq

def Answer.written (answer : Answer) : Bool := answer ≠ .refused

inductive Action where
  | payInvoice (invoice : Invoice) (label : Option String) (now : Timestamp)
      (send : Except RetryableSendFailure Unit)
  | keysendPayment (amount : MillisatAmount) (now : Timestamp) (route : Except String Unit)
      (send : Except PaymentSendFailure Unit)
  | persistInvoice (answer : Answer)
  | persistPending (answer : Answer)
  | register
  | persistOutcome (answer : Answer)
  | drop (written : Bool)
  | event (outcome : Outcome)

inductive Step where
  | of (id : PaymentId) (action : Action)
  | restart

structure State where
  requests : PaymentId → Option Phase
  ldk : PaymentId → LdkPayment
  senders : AsyncSenders PaymentId Payment PaymentId
  payments : Table PaymentId PaymentRow
  invoices : Table PaymentHash InvoiceRow

def State.start (payments : Table PaymentId PaymentRow) (invoices : Table PaymentHash InvoiceRow) :
    State :=
  ⟨fun _ => none, fun _ => .unknown, ∅, payments, invoices⟩

def payInvoice (id : PaymentId) (invoice : Invoice) (label : Option String) (now : Timestamp)
    (send : Except RetryableSendFailure Unit) : Phase × Bool :=
  match invoice.amount, send with
  | none, _ => (.returned (.error (.message "amount missing from invoice")), false)
  | some _, .error e => (.returned (.error (.message (retryableSendFailure e))), false)
  | some _, .ok () => (.persistInvoice invoice (.ofInvoiceOutbound id now invoice label), true)

/-- Monitor updates are persisted asynchronously, so an update in progress is no failure. -/
def continues (results : List (Option APIError)) : Bool :=
  results.all fun result => result = none || result = some .monitorUpdateInProgress

/-- The start of `keysend_payment`. After a partial failure some paths are under way. -/
def keysendPayment (id : PaymentId) (amount : MillisatAmount) (now : Timestamp)
    (route : Except String Unit) (send : Except PaymentSendFailure Unit) : Phase × Bool :=
  match route, send with
  | .error e, _ => (.returned (.error (.message e)), false)
  | .ok (), .ok () => (.persistPending (.spontaneousOutbound id now amount), true)
  | .ok (), .error (.partialFailure results) =>
    if continues results then (.persistPending (.spontaneousOutbound id now amount), true)
    else (.returned (.error (.message (paymentSendFailure (.partialFailure results)))), true)
  | .ok (), .error e => (.returned (.error (.message (paymentSendFailure e))), false)

def State.setPhase (s : State) (id : PaymentId) (phase : Phase) : State :=
  { s with requests := Function.update s.requests id (some phase) }

/-- The id is a random one, which no request and no row has yet. -/
def State.begin (s : State) (id : PaymentId) (begun : Phase × Bool) : Option State :=
  match s.requests id, s.payments.lookup id with
  | none, none =>
    some { s.setPhase id begun.1 with
      ldk := if begun.2 then Function.update s.ldk id .inFlight else s.ldk }
  | _, _ => none

/-- The payment with its outcome reaches the request, unless its receiver is gone. -/
def State.respond (s : State) (sender : PaymentId) (payment : Payment) : State :=
  match s.requests sender with
  | some .waiting => s.setPhase sender (.replied payment)
  | _ => s

def State.store (s : State) (payment : Payment) (written : Bool) : State :=
  if written then { s with payments := persistPayment payment s.payments } else s

def stepOf (s : State) (id : PaymentId) : Action → Option State
  | .payInvoice invoice label now send => s.begin id (payInvoice id invoice label now send)
  | .keysendPayment amount now route send => s.begin id (keysendPayment id amount now route send)
  | .persistInvoice answer =>
    match s.requests id with
    | some (.persistInvoice invoice payment) =>
      some
        { s.setPhase id
            (if answer = .stored then .persistPending payment
              else .returned (.error .database)) with
          invoices := if answer.written then persistInvoice invoice s.invoices else s.invoices }
    | _ => none
  | .persistPending answer =>
    match s.requests id with
    | some (.persistPending payment) =>
      some ((s.store payment answer.written).setPhase id
        (if answer = .stored then .register payment else .returned (.error .database)))
    | _ => none
  | .register =>
    match s.requests id with
    | some (.register payment) =>
      some { s.setPhase id .waiting with senders := s.senders.register id payment id }
    | _ => none
  | .persistOutcome answer =>
    match s.requests id with
    | some (.replied payment) =>
      some ((s.store payment answer.written).setPhase id
        (.returned (if answer = .stored then .ok payment else .error .database)))
    | _ => none
  | .drop written =>
    match s.requests id with
    | some (.persistInvoice invoice _) =>
      some { s.setPhase id .dropped with
        invoices := if written then persistInvoice invoice s.invoices else s.invoices }
    | some (.persistPending payment) => some ((s.store payment written).setPhase id .dropped)
    | some (.register _) => some (s.setPhase id .dropped)
    | some .waiting => some (s.setPhase id .dropped)
    | some (.replied payment) => some ((s.store payment written).setPhase id .dropped)
    | _ => none
  | .event outcome =>
    if (s.ldk id).mayDeliver outcome then
      match if outcome.named then s.senders.get id else none with
      | some ((payment, sender), senders) =>
        some { s.respond sender (outcome.apply payment) with
          senders := senders, ldk := Function.update s.ldk id (.handled outcome) }
      | none => some { s with ldk := Function.update s.ldk id (.handled outcome) }
    else none

def Phase.restart (phase : Phase) : Phase := if phase.ended then phase else .dropped

def step (s : State) : Step → Option State
  | .of id action => stepOf s id action
  | .restart =>
    some { s with
      requests := fun id => (s.requests id).map Phase.restart
      ldk := fun id => (s.ldk id).restart
      senders := ∅ }

end Kld.Payments
