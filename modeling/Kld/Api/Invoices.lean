import Kld.Api.Channels
import Kld.Database.InvoiceQueries
import Kld.Lib.Machine

/-!
# The listing of invoices

An invoice counts as paid when any payment has its hash, whatever became of that
payment, and as expired when its expiry, a span, is larger than the present time.
-/

namespace Kld.Api

open Sql Fallible PaymentQueries

/-- An error response, or a panic of the handler. -/
inductive Failure where
  | response (error : ApiError)
  | panic
deriving DecidableEq

inductive InvoiceStatus where
  | unpaid
  | paid
  | expired
deriving DecidableEq

inductive Bolt11InvoiceDescription where
  | direct (description : String)
  | hash (bytes : Bytes)
deriving DecidableEq

def Bolt11InvoiceDescription.text : Bolt11InvoiceDescription → String
  | .direct description => description
  | .hash bytes => hexEncode bytes

/-- What the invoice library reads of a text, and of an invoice beyond its fields. -/
structure Bolt11Library where
  parse : String → Except String Bolt11Invoice
  description : Bolt11Invoice → Bolt11InvoiceDescription
  expiresAt : Bolt11Invoice → Option UInt64

structure ListedInvoice where
  label : Option String
  bolt11 : String
  paymentHash : String
  description : String
  status : InvoiceStatus
  amountMsat : Option UInt64
  amountReceivedMsat : Option UInt64
  paidAt : Option UInt32
  expiresAt : Option UInt64
deriving DecidableEq

section Handler

variable (checks : Bool) (library : Bolt11Library)
  (order : List FetchedInvoice → List FetchedInvoice) (payments : Table PaymentId PaymentRow)
  (invoices : Table PaymentHash InvoiceRow)

def amountReceived (payments : List Payment) : Except Failure UInt64 :=
  match Machine.sumU64 checks (payments.map Payment.amount) with
  | some amount => .ok amount
  | none => .error .panic

/-- Nanoseconds from the epoch to the present, or from the creation of an invoice to its end. -/
abbrev Nanoseconds := Int

def expiryTime (bolt11 : Bolt11Invoice) : Nanoseconds := bolt11.expiryTime.toNat * 1000000000

def invoiceStatus (now : Nanoseconds) (invoice : FetchedInvoice) : Except Failure InvoiceStatus :=
  if invoice.payments ≠ [] then .ok .paid
  else if now < 0 then
    .error (.response (.internalServerError "second time provided was later than self"))
  else if now < expiryTime invoice.bolt11 then .ok .expired
  else .ok .unpaid

def listedInvoice (now : Nanoseconds) (invoice : FetchedInvoice) :
    Except Failure ListedInvoice := do
  let amountReceivedMsat ← amountReceived checks invoice.payments
  let status ← invoiceStatus now invoice
  return {
    label := invoice.label
    bolt11 := invoice.bolt11.text
    paymentHash := hexEncode invoice.bolt11.paymentHash.bytes.toList
    description := (library.description invoice.bolt11).text
    status := status
    amountMsat := invoice.bolt11.amountMilliSatoshis
    amountReceivedMsat := if 0 < amountReceivedMsat then some amountReceivedMsat else none
    paidAt := invoice.payments.head?.map fun payment => .ofInt (payment.timestamp / 1000000)
    expiresAt := library.expiresAt invoice.bolt11 }

def fetchFailure : Fault → Failure
  | .panic => .panic
  | .bolt11 message => .response (.internalServerError message)

/-- The clock is read for each invoice. -/
def listInvoices (clock : PaymentHash → Nanoseconds) (label : Option String) :
    Except Failure (List ListedInvoice) :=
  if label.any fun label => 100 < label.utf8ByteSize then
    .error (.response (.badRequest "Label max length is 100 chars"))
  else
    match fetchInvoices library.parse order payments invoices label with
    | .ok fetched =>
      fetched.mapM fun invoice => listedInvoice checks library (clock invoice.paymentHash) invoice
    | .error fault => .error (fetchFailure fault)

end Handler

def Received (payment : Payment) : Prop :=
  payment.status = .succeeded ∧ payment.direction = .inbound

instance receivedDecidable (payment : Payment) : Decidable (Received payment) :=
  inferInstanceAs (Decidable (_ ∧ _))

def received (payments : List Payment) : Nat :=
  ((payments.filter fun payment => Received payment).map fun payment => payment.amount.toNat).sum

def notReceived (payments : List Payment) : Nat :=
  ((payments.filter fun payment => ¬ Received payment).map fun payment => payment.amount.toNat).sum

/-- When the invoice ends, with its timestamp in microseconds. -/
def expiry (invoice : FetchedInvoice) : Nanoseconds :=
  invoice.timestamp * 1000 + expiryTime invoice.bolt11

/-- The entry tells what became of the invoice. -/
structure Reports (now : Nanoseconds) (invoice : FetchedInvoice) (entry : ListedInvoice) :
    Prop where
  paid_iff : entry.status = .paid ↔ ∃ payment ∈ invoice.payments, payment.status = .succeeded
  received_eq : entry.status = .paid →
    (entry.amountReceivedMsat.getD 0).toNat = received invoice.payments
  expired_iff : entry.status ≠ .paid → (entry.status = .expired ↔ expiry invoice ≤ now)

/-- Either no payment has the hash, and the present time lies after the span of the expiry and
before the end of the invoice, or one succeeded, and no other money than received is added. -/
def Tells (checks : Bool) (now : Nanoseconds) (invoice : FetchedInvoice) : Prop :=
  if invoice.payments = [] then
    expiryTime invoice.bolt11 ≤ now ∧ now < expiry invoice ∨
      0 ≤ now ∧ now < expiryTime invoice.bolt11 ∧ expiry invoice ≤ now
  else
    (∃ payment ∈ invoice.payments, payment.status = .succeeded) ∧
      received invoice.payments < 2 ^ 64 ∧
      if checks then notReceived invoice.payments = 0 else 2 ^ 64 ∣ notReceived invoice.payments

theorem received_add_notReceived (payments : List Payment) :
    received payments + notReceived payments =
      ((payments.map Payment.amount).map UInt64.toNat).sum := by
  induction payments with
  | nil => rfl
  | cons payment payments ih =>
    rw [List.map_cons, List.map_cons, List.sum_cons, ← ih]
    unfold received notReceived
    by_cases hReceived : Received payment
    · simp [hReceived, Nat.add_assoc]
    · simp [hReceived, Nat.add_left_comm]

/-- The sum over all payments is the sum of the received ones exactly if the rest adds nothing. -/
theorem amountReceived_eq_iff (checks : Bool) (payments : List Payment) :
    (∃ amount, amountReceived checks payments = .ok amount ∧
        amount.toNat = received payments) ↔
      received payments < 2 ^ 64 ∧
        if checks then notReceived payments = 0 else 2 ^ 64 ∣ notReceived payments := by
  have hSum : ∀ amount, amountReceived checks payments = .ok amount ↔
      Machine.sumU64 checks (payments.map Payment.amount) = some amount := by
    intro amount
    unfold amountReceived
    cases Machine.sumU64 checks (payments.map Payment.amount) <;> simp
  simp only [hSum, Machine.sumU64_eq_some_iff, ← received_add_notReceived]
  constructor
  · rintro ⟨amount, ⟨hFits, hAmount⟩, hReceived⟩
    have hLt := amount.toNat_lt
    cases checks with
    | true =>
      have := hFits rfl
      simp only [if_true]
      omega
    | false =>
      simp only [Bool.false_eq_true, if_false]
      omega
  · rintro ⟨hLt, hRest⟩
    refine ⟨.ofNat (received payments), ⟨?_, ?_⟩, ?_⟩
    · rintro rfl
      rw [if_pos rfl] at hRest
      omega
    · rw [UInt64.toNat_ofNat_of_lt' hLt]
      cases checks with
      | true =>
        rw [if_pos rfl] at hRest
        omega
      | false =>
        rw [if_neg Bool.false_ne_true] at hRest
        omega
    · exact UInt64.toNat_ofNat_of_lt' hLt

theorem getD_amountReceived (amount : UInt64) :
    (if 0 < amount then some amount else none).getD 0 = amount := by
  split
  · rfl
  · rename_i hNot
    rw [Option.getD_none]
    exact (UInt64.le_zero_iff.mp (UInt64.not_lt.mp hNot)).symm

theorem reports_iff (checks : Bool) (library : Bolt11Library) (now : Nanoseconds)
    (invoice : FetchedInvoice) :
    (∃ entry, listedInvoice checks library now invoice = .ok entry ∧ Reports now invoice entry) ↔
      Tells checks now invoice := by
  unfold Tells
  split
  · rename_i hNone
    have hAmount : amountReceived checks invoice.payments = .ok 0 := by
      rw [hNone]
      rfl
    have hUnpaid : ¬ ∃ payment ∈ invoice.payments, payment.status = .succeeded := by
      rw [hNone]
      simp
    unfold listedInvoice invoiceStatus
    rw [hAmount, if_neg (not_not.mpr hNone)]
    constructor
    · rintro ⟨entry, hEntry, hReports⟩
      split at hEntry
      · cases hEntry
      · rename_i hNow
        split at hEntry
        · rename_i hEarly
          cases hEntry
          exact Or.inr ⟨not_lt.mp hNow, hEarly, (hReports.expired_iff nofun).mp rfl⟩
        · rename_i hLate
          cases hEntry
          refine Or.inl ⟨not_lt.mp hLate, not_le.mp fun hEnded => ?_⟩
          cases (hReports.expired_iff nofun).mpr hEnded
    · rintro (⟨hLate, hOpen⟩ | ⟨hNow, hEarly, hEnded⟩)
      · have hPositive : 0 ≤ expiryTime invoice.bolt11 :=
          Int.mul_nonneg (Int.natCast_nonneg _) (by decide)
        rw [if_neg (not_lt.mpr (hPositive.trans hLate)), if_neg (not_lt.mpr hLate)]
        exact ⟨_, rfl, ⟨iff_of_false nofun hUnpaid, nofun,
          fun _ => iff_of_false nofun (not_le.mpr hOpen)⟩⟩
      · rw [if_neg (not_lt.mpr hNow), if_pos hEarly]
        exact ⟨_, rfl, ⟨iff_of_false nofun hUnpaid, nofun, fun _ => iff_of_true rfl hEnded⟩⟩
  · rename_i hSome
    rw [← amountReceived_eq_iff]
    unfold listedInvoice invoiceStatus
    rw [if_pos hSome]
    constructor
    · rintro ⟨entry, hEntry, hReports⟩
      obtain ⟨amount, hAmount, hEntry⟩ := ok_of_bind hEntry
      cases hEntry
      refine ⟨hReports.paid_iff.mp rfl, amount, hAmount, ?_⟩
      have hReceived := hReports.received_eq rfl
      rwa [getD_amountReceived] at hReceived
    · rintro ⟨hPaid, amount, hAmount, hReceived⟩
      rw [hAmount]
      refine ⟨_, rfl, ⟨iff_of_true rfl hPaid, fun _ => ?_, fun hNot => absurd rfl hNot⟩⟩
      dsimp only
      rw [getD_amountReceived, hReceived]

/-- The listing answers an entry for every stored invoice with the label, and each entry tells
what became of its invoice. -/
def ListsInvoices (checks : Bool) (library : Bolt11Library)
    (order : List FetchedInvoice → List FetchedInvoice) (h : History)
    (clock : PaymentHash → Nanoseconds) (label : Option String) : Prop :=
  ∃ fetched entries, fetchInvoices library.parse order h.payments h.invoices label = .ok fetched ∧
    Lists (fun invoice => invoice.paymentHash) fetched (fun hash =>
      ((h.lastInvoice hash).filter fun invoice => HasLabel label invoice.label).map
        (fetchedInvoice h.payments)) ∧
    listInvoices checks library order h.payments h.invoices clock label = .ok entries ∧
    List.Forall₂ (fun invoice entry => Reports (clock invoice.paymentHash) invoice entry) fetched
      entries

/-- After any history the listing is right exactly if every stored invoice with the label is one
that the handler can tell from. -/
theorem listInvoices_sound_iff {checks : Bool} {library : Bolt11Library}
    {order : List FetchedInvoice → List FetchedInvoice} {writes : List Write}
    (hParse : ∀ invoice, .invoice invoice ∈ writes →
      library.parse invoice.bolt11.text = .ok invoice.bolt11)
    (hOrder : ∀ fetched, (order fetched).Perm fetched) (clock : PaymentHash → Nanoseconds)
    {label : Option String} (hLabel : ∀ text, label = some text → text.utf8ByteSize ≤ 100) :
    ListsInvoices checks library order (history writes) clock label ↔
      ∀ hash invoice, (history writes).lastInvoice hash = some invoice →
        HasLabel label invoice.label →
          Tells checks (clock hash) (fetchedInvoice (history writes).payments invoice) := by
  have hAccepted : ¬ (label.any fun label => 100 < label.utf8ByteSize) = true := by
    rw [Option.any_eq_true]
    rintro ⟨text, hText, hLong⟩
    exact absurd (of_decide_eq_true hLong) (Nat.not_lt.mpr (hLabel text hText))
  obtain ⟨fetched, hFetch, hList⟩ := fetchInvoices_lists hParse hOrder label
  have hListing : ListsInvoices checks library order (history writes) clock label ↔
      ∀ invoice ∈ fetched, Tells checks (clock invoice.paymentHash) invoice := by
    simp only [← reports_iff checks library, ← exists_mapM_iff]
    unfold ListsInvoices listInvoices
    rw [if_neg hAccepted, hFetch]
    constructor
    · rintro ⟨_, entries, hSame, _, hEntries, hReports⟩
      cases hSame
      exact ⟨entries, hEntries, hReports⟩
    · rintro ⟨entries, hEntries, hReports⟩
      exact ⟨fetched, entries, rfl, hList, hEntries, hReports⟩
  rw [hListing]
  constructor
  · intro hTells hash invoice hLast hHas
    obtain rfl := (stores_history writes).invoice_hash hash invoice hLast
    refine hTells (fetchedInvoice (history writes).payments invoice) (hList.mem_iff.mpr ?_)
    change Option.map _ (((history writes).lastInvoice invoice.paymentHash).filter _) = _
    rw [hLast, Option.filter_some, if_pos (decide_eq_true hHas)]
    rfl
  · intro hTells fetchedInvoice hMem
    obtain ⟨invoice, hSelected, rfl⟩ := Option.map_eq_some_iff.mp (hList.mem_iff.mp hMem)
    obtain ⟨hLast, hHas⟩ := Option.filter_eq_some_iff.mp hSelected
    exact hTells _ invoice hLast (of_decide_eq_true hHas)

def exampleLibrary : Bolt11Library where
  parse := exampleParse
  description _ := .direct "coffee"
  expiresAt _ := none

def begun : List Write :=
  [.invoice exampleInvoice, .payment (.ofInvoiceOutbound ⟨.replicate 32 3⟩ 0 exampleInvoice none)]

/-- A payment that was only begun makes its invoice a paid one. -/
theorem begun_payment_reported_paid :
    ¬ ListsInvoices true exampleLibrary id (history begun) (fun _ => 0) none := by
  rintro ⟨fetched, entries, hFetch, _, hEntries, hReports⟩
  have hFetched : fetchInvoices exampleLibrary.parse id (history begun).payments
      (history begun).invoices none =
        .ok [fetchedInvoice (history begun).payments exampleInvoice] := by decide +kernel
  have hStatus : (listInvoices true exampleLibrary id (history begun).payments
      (history begun).invoices (fun _ => 0) none).map (List.map ListedInvoice.status) =
        .ok [.paid] := by decide +kernel
  rw [hFetched] at hFetch
  cases hFetch
  obtain ⟨entry, _, hReport, hNil, rfl⟩ := List.forall₂_cons_left_iff.mp hReports
  cases hNil
  rw [hEntries] at hStatus
  have hPaid : entry.status = .paid := (List.cons.inj (Except.ok.inj hStatus)).1
  obtain ⟨payment, hMem, hSucceeded⟩ := hReport.paid_iff.mp hPaid
  have hPending : ∀ payment ∈ (fetchedInvoice (history begun).payments exampleInvoice).payments,
      payment.status ≠ .succeeded := by decide
  exact hPending payment hMem hSucceeded

theorem listInvoices_sound_iff_invoice :
    ListsInvoices true exampleLibrary id (history paidWrites) (fun _ => 0) none ↔
      ∀ hash invoice, (history paidWrites).lastInvoice hash = some invoice →
        HasLabel none invoice.label →
          Tells true 0 (fetchedInvoice (history paidWrites).payments invoice) :=
  listInvoices_sound_iff parse_paidWrites (fun _ => .refl _) _ nofun

end Kld.Api
