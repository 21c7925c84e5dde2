import Kld.Types

/-!
# Payments and invoices

A payment is stored in one row, with amounts as signed integers of the same
width. Only the status and what the network reports of the outcome change
after a payment is built.
-/

namespace Kld

inductive PaymentStatus where
  | pending
  | succeeded
  | recipientRejected
  | userAbandoned
  | retriesExhausted
  | expired
  | routeNotFound
  | error
deriving DecidableEq

inductive PaymentDirection where
  | inbound
  | outbound
deriving DecidableEq

inductive PaymentFailureReason where
  | recipientRejected
  | userAbandoned
  | retriesExhausted
  | paymentExpired
  | routeNotFound
  | unexpectedError
deriving DecidableEq

/-- The parts of a parsed bolt11 invoice that the node reads. -/
structure Bolt11Invoice where
  paymentHash : PaymentHash
  paymentSecret : PaymentSecret
  amountMilliSatoshis : Option UInt64
  expiryTime : UInt64
  text : String
deriving DecidableEq

structure Invoice where
  paymentHash : PaymentHash
  label : Option String
  bolt11 : Bolt11Invoice
  payeePubKey : PublicKey
  expiry : Option UInt64
  amount : Option MillisatAmount
  timestamp : Timestamp
deriving DecidableEq

structure Payment where
  id : PaymentId
  hash : Option PaymentHash
  preimage : Option PaymentPreimage
  secret : Option PaymentSecret
  label : Option String
  status : PaymentStatus
  amount : MillisatAmount
  fee : Option MillisatAmount
  direction : PaymentDirection
  timestamp : Timestamp
  bolt11 : Option Bolt11Invoice
deriving DecidableEq

namespace Payment

/-! The random id and the clock are arguments of the constructors. -/

def spontaneousInbound (id : PaymentId) (now : Timestamp) (hash : PaymentHash)
    (preimage : PaymentPreimage) (amount : MillisatAmount) : Payment :=
  { id := id, hash := some hash, preimage := some preimage, secret := none, label := none
    status := .pending, amount := amount, fee := none, direction := .inbound, timestamp := now
    bolt11 := none }

def spontaneousOutbound (id : PaymentId) (now : Timestamp) (amount : MillisatAmount) : Payment :=
  { id := id, hash := none, preimage := none, secret := none, label := none
    status := .pending, amount := amount, fee := none, direction := .outbound, timestamp := now
    bolt11 := none }

def ofInvoiceInbound (id : PaymentId) (now : Timestamp) (hash : PaymentHash)
    (preimage : Option PaymentPreimage) (secret : PaymentSecret) (amount : MillisatAmount) :
    Payment :=
  { id := id, hash := some hash, preimage := preimage, secret := some secret, label := none
    status := .succeeded, amount := amount, fee := none, direction := .inbound, timestamp := now
    bolt11 := none }

def ofInvoiceOutbound (id : PaymentId) (now : Timestamp) (invoice : Invoice)
    (label : Option String) : Payment :=
  { id := id, hash := some invoice.bolt11.paymentHash, preimage := none
    secret := some invoice.bolt11.paymentSecret, label := label, status := .pending
    amount := invoice.bolt11.amountMilliSatoshis.getD 0, fee := none, direction := .outbound
    timestamp := now, bolt11 := some invoice.bolt11 }

def succeeded (hash : PaymentHash) (preimage : PaymentPreimage) (fee : Option MillisatAmount)
    (payment : Payment) : Payment :=
  { payment with hash := some hash, preimage := some preimage, fee := fee, status := .succeeded }

def failed (reason : Option PaymentFailureReason) (payment : Payment) : Payment :=
  { payment with
    status := match reason with
      | some .recipientRejected => .recipientRejected
      | some .userAbandoned => .userAbandoned
      | some .retriesExhausted => .retriesExhausted
      | some .paymentExpired => .expired
      | some .routeNotFound => .routeNotFound
      | _ => .error }

end Payment

structure PaymentRow where
  hash : Option PaymentHash
  preimage : Option PaymentPreimage
  secret : Option PaymentSecret
  label : Option String
  status : PaymentStatus
  amount : Int64
  fee : Option Int64
  direction : PaymentDirection
  timestamp : Timestamp
deriving DecidableEq

namespace Payment

def toRow (payment : Payment) : PaymentRow :=
  { hash := payment.hash, preimage := payment.preimage, secret := payment.secret
    label := payment.label, status := payment.status, amount := payment.amount.toInt64
    fee := payment.fee.map UInt64.toInt64, direction := payment.direction
    timestamp := payment.timestamp }

/-- The invoice of the row comes from the join with `invoices`. -/
def ofRow (id : PaymentId) (row : PaymentRow) (bolt11 : Option Bolt11Invoice) : Payment :=
  { id := id, hash := row.hash, preimage := row.preimage, secret := row.secret
    label := row.label, status := row.status, amount := row.amount.toUInt64
    fee := row.fee.map Int64.toUInt64, direction := row.direction, timestamp := row.timestamp
    bolt11 := bolt11 }

/-- Storing a payment keeps every field: the casts to signed amounts lose nothing. -/
theorem ofRow_toRow (payment : Payment) :
    ofRow payment.id payment.toRow payment.bolt11 = payment := by
  obtain ⟨id, hash, preimage, secret, label, status, amount, fee, direction, timestamp, bolt11⟩ :=
    payment
  cases fee <;> simp [toRow, ofRow]

end Payment

structure InvoiceRow where
  label : Option String
  bolt11 : String
  payeePubKey : PublicKey
  expiry : Int64
  amount : Option Int64
  timestamp : Timestamp
deriving DecidableEq

def Invoice.toRow (invoice : Invoice) : InvoiceRow :=
  { label := invoice.label, bolt11 := invoice.bolt11.text, payeePubKey := invoice.payeePubKey
    expiry := invoice.bolt11.expiryTime.toInt64, amount := invoice.amount.map UInt64.toInt64
    timestamp := invoice.timestamp }

end Kld
