import Kld.Api.Invoices
import Kld.Ldk.EventReplay
import Kld.Ldk.PaymentRequests

/-!
# Claimed payments in the listing of payments

A payment that came in is stored once, when LDK reports its claim, and nothing
writes its row again. The requests of the API store the payments that go out.
-/

namespace Kld.Api

open Sql Fallible PaymentQueries EventReplay Transition

inductive PaymentItemStatus where
  | pending
  | failed
  | complete
deriving DecidableEq

structure PaymentItem where
  id : String
  paymentHash : Option String
  destination : Option String
  amountMsat : Option UInt64
  amountSentMsat : UInt64
  createdAt : UInt64
  status : PaymentItemStatus
  paymentPreimage : Option String
  bolt11 : Option String
  memo : Option String
deriving DecidableEq

structure ListPaysParams where
  invoice : Option String
  direction : Option String
deriving DecidableEq

/-- What the invoice library reads of stored texts and of the texts in requests. -/
structure PaymentsLibrary where
  parse : String → Except String Bolt11Invoice
  toInvoice : String → Except String Invoice
  payeePubKey : Bolt11Invoice → Option PublicKey

def paymentItemStatus : PaymentStatus → PaymentItemStatus
  | .pending => .pending
  | .succeeded => .complete
  | _ => .failed

def paymentItem (library : PaymentsLibrary) (p : Payment) : PaymentItem where
  id := hexEncode p.id.bytes.toList
  paymentHash := p.hash.map fun hash => hexEncode hash.bytes.toList
  destination := p.bolt11.bind fun bolt11 =>
    (library.payeePubKey bolt11).map fun key => hexEncode key.bytes.toList
  amountMsat := p.bolt11.bind Bolt11Invoice.amountMilliSatoshis
  amountSentMsat := p.amount
  createdAt := .ofInt (p.timestamp / 1000000)
  status := paymentItemStatus p.status
  paymentPreimage := p.preimage.map fun preimage => hexEncode preimage.bytes.toList
  bolt11 := p.bolt11.map Bolt11Invoice.text
  memo := p.label

def paymentDirectionFromStr : String → Except String PaymentDirection
  | "inbound" => .ok .inbound
  | "outbound" => .ok .outbound
  | text => .error ("unable to deserialize " ++ text)

/-- `transpose` of an optional field, with errors as those of a bad request. -/
def optionalField {α β : Type} (read : α → Except String β) : Option α → Except Failure (Option β)
  | none => .ok none
  | some a =>
    match read a with
    | .ok b => .ok (some b)
    | .error message => .error (.response (.badRequest message))

def listPayments (library : PaymentsLibrary) (payments : Table PaymentId PaymentRow)
    (invoices : Table PaymentHash InvoiceRow) (params : ListPaysParams) :
    Except Failure (List PaymentItem) :=
  match optionalField library.toInvoice params.invoice with
  | .error failure => .error failure
  | .ok invoice =>
    match optionalField paymentDirectionFromStr params.direction with
    | .error failure => .error failure
    | .ok direction =>
      match fetchPayments library.parse payments invoices (invoice.map Invoice.paymentHash)
        direction with
      | .ok fetched => .ok (fetched.map (paymentItem library))
      | .error fault => .error (fetchFailure fault)

/-- A claim that LDK reports, with what the handler draws. -/
structure Claim where
  draw : Draw
  paymentHash : PaymentHash
  purpose : PaymentPurpose
  amountMsat : UInt64
deriving DecidableEq

def Claim.payment (claim : Claim) : Payment :=
  claimedPayment claim.draw claim.paymentHash claim.purpose claim.amountMsat

def Claim.preimage (claim : Claim) : Option PaymentPreimage :=
  match claim.purpose with
  | .invoicePayment preimage _ => preimage
  | .spontaneousPayment preimage => some preimage

def Claim.itemId (claim : Claim) : String := hexEncode claim.draw.paymentId.bytes.toList

structure Ledger where
  history : History
  claimed : List Claim

/-- What the node writes to the two tables: the handler of claims, and the requests. -/
inductive Operation where
  | paymentClaimed (claim : Claim)
  | keysendPayment (id : PaymentId) (now : Timestamp) (amount : MillisatAmount)
  | payInvoice (id : PaymentId) (now : Timestamp) (invoice : Invoice) (label : Option String)
  | persistOutcome (id : PaymentId) (outcome : Payments.Outcome)
  | persistInvoice (invoice : Invoice)

def Ledger.initial : Ledger := ⟨PaymentQueries.history [], []⟩

def Ledger.store (s : Ledger) (payment : Payment) : Ledger :=
  { s with history := s.history.next (.payment payment) }

/-- An id that is drawn is not in use. -/
def Ledger.storeNew (s : Ledger) (payment : Payment) : Option Ledger :=
  match s.history.lastPayment payment.id with
  | some _ => none
  | none => some (s.store payment)

/-- The outcome of a request is stored under the id of its payment, which went out. -/
def Ledger.step (s : Ledger) : Operation → Option Ledger
  | .paymentClaimed claim =>
    (s.storeNew claim.payment).map fun s' => { s' with claimed := claim :: s'.claimed }
  | .keysendPayment id now amount => s.storeNew (.spontaneousOutbound id now amount)
  | .payInvoice id now invoice label => s.storeNew (.ofInvoiceOutbound id now invoice label)
  | .persistOutcome id outcome =>
    match s.history.lastPayment id with
    | some payment =>
      if payment.direction = .outbound then some (s.store (outcome.apply payment)) else none
    | none => none
  | .persistInvoice invoice => some { s with history := s.history.next (.invoice invoice) }

/-- All payments, or those that came in. -/
def listingParams (inboundOnly : Bool) : ListPaysParams :=
  ⟨none, if inboundOnly then some "inbound" else none⟩

def Ledger.listing (library : PaymentsLibrary) (inboundOnly : Bool) (s : Ledger) :
    Except Failure (List PaymentItem) :=
  listPayments library s.history.payments s.history.invoices (listingParams inboundOnly)

structure Claim.ReportedBy (claim : Claim) (item : PaymentItem) : Prop where
  id_eq : item.id = claim.itemId
  hash_eq : item.paymentHash = some (hexEncode claim.paymentHash.bytes.toList)
  amount_eq : item.amountSentMsat = claim.amountMsat
  preimage_eq : ∀ preimage, claim.preimage = some preimage →
    item.paymentPreimage = some (hexEncode preimage.bytes.toList)
  complete : item.status = .complete

/-- Every claim is listed as complete, and no claimed payment as pending. -/
structure ReportsClaims (library : PaymentsLibrary) (inboundOnly : Bool) (s : Ledger) : Prop where
  complete : ∀ claim ∈ s.claimed, ∃ items, s.listing library inboundOnly = .ok items ∧
    ∃ item ∈ items, claim.ReportedBy item
  pending : ∀ items, s.listing library inboundOnly = .ok items → ∀ item ∈ items,
    item.status = .pending → ∀ claim ∈ s.claimed, item.id ≠ claim.itemId

def wantedDirection (inboundOnly : Bool) : Option PaymentDirection :=
  if inboundOnly then some .inbound else none

/-- No spontaneous payment has been claimed, and from the first claim on, every payment that the
listing selects has a stored invoice. -/
structure OnlyInvoices (inboundOnly : Bool) (s : Ledger) : Prop where
  invoicePayment : ∀ claim ∈ s.claimed, ∀ preimage, claim.purpose ≠ .spontaneousPayment preimage
  invoiced : s.claimed ≠ [] → ∀ id payment, s.history.lastPayment id = some payment →
    Matches none (wantedDirection inboundOnly) payment → s.history.invoiceOf payment ≠ none

structure Ledger.Recorded (s : Ledger) : Prop where
  stores : Stores s.history
  claimed : ∀ claim ∈ s.claimed,
    s.history.lastPayment claim.draw.paymentId = some claim.payment

theorem claim_payment_fields (claim : Claim) :
    claim.payment.id = claim.draw.paymentId ∧ claim.payment.direction = .inbound ∧
      claim.payment.hash = some claim.paymentHash ∧ claim.payment.amount = claim.amountMsat ∧
      claim.payment.preimage = claim.preimage := by
  obtain ⟨draw, hash, purpose, amount⟩ := claim
  cases purpose <;> exact ⟨rfl, rfl, rfl, rfl, rfl⟩

theorem claim_status_eq (claim : Claim) :
    claim.payment.status = .succeeded ↔
      ∀ preimage, claim.purpose ≠ .spontaneousPayment preimage := by
  obtain ⟨draw, hash, purpose, amount⟩ := claim
  cases purpose with
  | invoicePayment preimage secret => exact iff_of_true rfl nofun
  | spontaneousPayment preimage => exact iff_of_false nofun fun h => h preimage rfl

theorem claim_status_cases (claim : Claim) :
    claim.payment.status = .succeeded ∨ claim.payment.status = .pending := by
  obtain ⟨draw, hash, purpose, amount⟩ := claim
  cases purpose with
  | invoicePayment preimage secret => exact Or.inl rfl
  | spontaneousPayment preimage => exact Or.inr rfl

theorem storeNew_eq_some {s s' : Ledger} {payment : Payment} (h : s.storeNew payment = some s') :
    s.history.lastPayment payment.id = none ∧ s' = s.store payment := by
  unfold Ledger.storeNew at h
  split at h
  · exact nomatch h
  · rename_i hNew
    exact ⟨hNew, (Option.some.inj h).symm⟩

/-- An operation adds a claim, writes a payment under no id of a payment that came in, or writes
an invoice. -/
theorem step_cases {s s' : Ledger} {operation : Operation} (hStores : Stores s.history)
    (h : s.step operation = some s') :
    (∃ claim, s.history.lastPayment claim.draw.paymentId = none ∧
      s' = { s.store claim.payment with claimed := claim :: s.claimed }) ∨
    (∃ payment, s' = s.store payment ∧ ∀ stored,
      s.history.lastPayment payment.id = some stored → stored.direction = .outbound) ∨
    ∃ invoice, s' = { s with history := s.history.next (.invoice invoice) } := by
  cases operation with
  | paymentClaimed claim =>
    obtain ⟨s'', hNew, rfl⟩ := Option.map_eq_some_iff.mp h
    obtain ⟨hNone, rfl⟩ := storeNew_eq_some hNew
    rw [(claim_payment_fields claim).1] at hNone
    exact Or.inl ⟨claim, hNone, rfl⟩
  | keysendPayment id now amount =>
    obtain ⟨hNone, rfl⟩ := storeNew_eq_some h
    exact Or.inr (Or.inl ⟨_, rfl, fun stored hStored => nomatch hNone.symm.trans hStored⟩)
  | payInvoice id now invoice label =>
    obtain ⟨hNone, rfl⟩ := storeNew_eq_some h
    exact Or.inr (Or.inl ⟨_, rfl, fun stored hStored => nomatch hNone.symm.trans hStored⟩)
  | persistOutcome id outcome =>
    dsimp only [Ledger.step] at h
    split at h
    · rename_i payment hLast
      split at h
      · rename_i hOutbound
        refine Or.inr (Or.inl ⟨_, (Option.some.inj h).symm, fun stored hStored => ?_⟩)
        have hId : (outcome.apply payment).id = id := by
          rw [← hStores.payment_id id payment hLast]
          cases outcome <;> rfl
        rw [hId, hLast] at hStored
        exact Option.some.inj hStored ▸ hOutbound
      · exact nomatch h
    · exact nomatch h
  | persistInvoice invoice => exact Or.inr (Or.inr ⟨invoice, (Option.some.inj h).symm⟩)

theorem lastPayment_store (s : Ledger) (payment : Payment) :
    (s.store payment).history.lastPayment =
      Function.update s.history.lastPayment payment.id (some payment) := rfl

theorem lastPayment_next_invoice (h : History) (invoice : Invoice) :
    (h.next (.invoice invoice)).lastPayment = h.lastPayment := by
  unfold History.next
  dsimp only
  split <;> rfl

theorem recorded_step {s s' : Ledger} (operation : Operation) (hRecorded : s.Recorded)
    (h : s.step operation = some s') : s'.Recorded := by
  obtain ⟨claim, hNew, rfl⟩ | ⟨payment, rfl, hOutbound⟩ | ⟨invoice, rfl⟩ :=
    step_cases hRecorded.stores h
  · refine ⟨stores_next hRecorded.stores (.payment claim.payment), fun earlier hEarlier => ?_⟩
    dsimp only
    rw [lastPayment_store, (claim_payment_fields claim).1]
    rcases List.mem_cons.mp hEarlier with rfl | hEarlier
    · exact Function.update_self ..
    · have hStored := hRecorded.claimed earlier hEarlier
      have hNe : earlier.draw.paymentId ≠ claim.draw.paymentId := by
        intro hId
        rw [hId, hNew] at hStored
        exact nomatch hStored
      rwa [Function.update_of_ne hNe]
  · refine ⟨stores_next hRecorded.stores (.payment payment), fun claim hClaim => ?_⟩
    have hStored := hRecorded.claimed claim hClaim
    have hNe : claim.draw.paymentId ≠ payment.id := by
      intro hId
      rw [hId] at hStored
      exact nomatch (hOutbound _ hStored).symm.trans (claim_payment_fields claim).2.1
    rwa [lastPayment_store, Function.update_of_ne hNe]
  · refine ⟨stores_next hRecorded.stores (.invoice invoice), fun claim hClaim => ?_⟩
    dsimp only
    rw [lastPayment_next_invoice]
    exact hRecorded.claimed claim hClaim

section Listing

variable {library : PaymentsLibrary} {inboundOnly : Bool} {s : Ledger} {items : List PaymentItem}

theorem listing_eq (library : PaymentsLibrary) (inboundOnly : Bool) (s : Ledger) :
    s.listing library inboundOnly =
      match fetchPayments library.parse s.history.payments s.history.invoices none
        (wantedDirection inboundOnly) with
      | .ok fetched => .ok (fetched.map (paymentItem library))
      | .error fault => .error (fetchFailure fault) := by
  cases inboundOnly <;> rfl

theorem ofRow_toRow_with (payment : Payment) (bolt11 : Option Bolt11Invoice) :
    Payment.ofRow payment.id payment.toRow bolt11 = { payment with bolt11 := bolt11 } :=
  Payment.ofRow_toRow { payment with bolt11 := bolt11 }

/-- The payments that a successful listing reads are those that were stored. -/
theorem mem_fetched {fetched : List Payment} {payment : Payment} (hStores : Stores s.history)
    (hFetch : fetchPayments library.parse s.history.payments s.history.invoices none
      (wantedDirection inboundOnly) = .ok fetched) :
    payment ∈ fetched ↔ ∃ stored invoice, s.history.lastPayment stored.id = some stored ∧
      Matches none (wantedDirection inboundOnly) stored ∧
      s.history.invoiceOf stored = some invoice ∧
      payment = { stored with bolt11 := (library.parse invoice.bolt11.text).toOption } := by
  rw [mem_fetchPayments hFetch]
  constructor
  · rintro ⟨id, row, invoiceRow, hRow, hSelected, hInvoice, rfl⟩
    rw [hStores.payment_eq, Option.map_eq_some_iff] at hRow
    obtain ⟨stored, hLast, rfl⟩ := hRow
    obtain rfl := hStores.payment_id id stored hLast
    rw [invoiceRow_eq hStores, Option.map_eq_some_iff] at hInvoice
    obtain ⟨invoice, hInvoice, rfl⟩ := hInvoice
    exact ⟨stored, invoice, hLast, hSelected, hInvoice, ofRow_toRow_with stored _⟩
  · rintro ⟨stored, invoice, hLast, hMatches, hInvoice, rfl⟩
    refine ⟨stored.id, stored.toRow, invoice.toRow, ?_, hMatches, ?_,
      (ofRow_toRow_with stored _).symm⟩
    · rw [hStores.payment_eq, hLast]
      rfl
    · rw [invoiceRow_eq hStores, hInvoice]
      rfl

theorem fetchable_iff (library : PaymentsLibrary) (hStores : Stores s.history) :
    (∃ fetched, fetchPayments library.parse s.history.payments s.history.invoices none
      (wantedDirection inboundOnly) = .ok fetched) ↔
    ∀ id payment, s.history.lastPayment id = some payment →
      Matches none (wantedDirection inboundOnly) payment →
        s.history.invoiceOf payment ≠ none := by
  rw [fetchPayments_ok_iff]
  constructor
  · intro hInvoiced id payment hLast hMatches hNone
    refine hInvoiced id payment.toRow ?_ hMatches ?_
    · rw [hStores.payment_eq, hLast]
      rfl
    · rw [invoiceRow_eq hStores, hNone]
      rfl
  · intro hInvoiced id row hRow hSelected hNone
    rw [hStores.payment_eq, Option.map_eq_some_iff] at hRow
    obtain ⟨payment, hLast, rfl⟩ := hRow
    rw [invoiceRow_eq hStores, Option.map_eq_none_iff] at hNone
    exact hInvoiced id payment hLast hSelected hNone

theorem paymentId_hex_inj {id id' : PaymentId} :
    hexEncode id.bytes.toList = hexEncode id'.bytes.toList ↔ id = id' := by
  refine hexEncode_field_inj ?_
  rintro ⟨bytes⟩ ⟨bytes'⟩ hBytes
  exact congrArg PaymentId.mk hBytes

theorem paymentItem_id_eq_iff (library : PaymentsLibrary) (payment : Payment) (claim : Claim) :
    (paymentItem library payment).id = claim.itemId ↔ payment.id = claim.draw.paymentId :=
  paymentId_hex_inj

theorem listing_eq_ok_iff :
    s.listing library inboundOnly = .ok items ↔
      ∃ fetched, fetchPayments library.parse s.history.payments s.history.invoices none
        (wantedDirection inboundOnly) = .ok fetched ∧
        items = fetched.map (paymentItem library) := by
  rw [listing_eq]
  split
  · rename_i fetched hFetch
    rw [hFetch]
    simp [eq_comm]
  · rename_i fault hFetch
    rw [hFetch]
    exact iff_of_false nofun fun ⟨_, h, _⟩ => nomatch h

/-- The item of a claim in a successful listing is that of the payment stored for it. -/
theorem item_of_claim (hRecorded : s.Recorded)
    (hListing : s.listing library inboundOnly = .ok items)
    {claim : Claim} (hClaim : claim ∈ s.claimed) {item : PaymentItem} (hItem : item ∈ items)
    (hId : item.id = claim.itemId) : item.status = paymentItemStatus claim.payment.status := by
  obtain ⟨fetched, hFetch, rfl⟩ := listing_eq_ok_iff.mp hListing
  obtain ⟨payment, hPayment, rfl⟩ := List.mem_map.mp hItem
  obtain ⟨stored, invoice, hLast, _, _, rfl⟩ := (mem_fetched hRecorded.stores hFetch).mp hPayment
  have hStoredId : stored.id = claim.draw.paymentId :=
    (paymentItem_id_eq_iff library _ claim).mp hId
  rw [hStoredId, hRecorded.claimed claim hClaim] at hLast
  rw [Option.some.inj hLast]
  rfl

theorem matches_claim (claim : Claim) :
    Matches none (wantedDirection inboundOnly) claim.payment := by
  refine ⟨nofun, fun wanted hWanted => ?_⟩
  have hDirection : claim.payment.toRow.direction = .inbound := (claim_payment_fields claim).2.1
  cases inboundOnly with
  | true => exact hDirection.trans (Option.some.inj hWanted)
  | false => exact nomatch hWanted

theorem reports_claims_iff (hRecorded : s.Recorded) :
    ReportsClaims library inboundOnly s ↔ OnlyInvoices inboundOnly s := by
  constructor
  · intro hReports
    refine ⟨fun claim hClaim => (claim_status_eq claim).mp ?_, fun hClaimed => ?_⟩
    · obtain ⟨items, hListing, item, hItem, hReported⟩ := hReports.complete claim hClaim
      have hStatus := item_of_claim hRecorded hListing hClaim hItem hReported.id_eq
      rw [hReported.complete] at hStatus
      refine (claim_status_cases claim).resolve_right fun hPending => ?_
      rw [hPending] at hStatus
      exact nomatch hStatus
    · obtain ⟨claim, hClaim⟩ := List.exists_mem_of_ne_nil _ hClaimed
      obtain ⟨items, hListing, _⟩ := hReports.complete claim hClaim
      obtain ⟨fetched, hFetch, _⟩ := listing_eq_ok_iff.mp hListing
      exact (fetchable_iff library hRecorded.stores).mp ⟨fetched, hFetch⟩
  · rintro ⟨hInvoicePayment, hInvoiced⟩
    have hSucceeded : ∀ claim ∈ s.claimed, claim.payment.status = .succeeded := fun claim hClaim =>
      (claim_status_eq claim).mpr (hInvoicePayment claim hClaim)
    refine ⟨fun claim hClaim => ?_, fun items hListing item hItem hPending claim hClaim hId => ?_⟩
    · have hNotNone := hInvoiced (List.ne_nil_of_mem hClaim)
      obtain ⟨fetched, hFetch⟩ := (fetchable_iff library hRecorded.stores).mpr hNotNone
      have hLast := hRecorded.claimed claim hClaim
      obtain ⟨hId, _, hHash, hAmount, hPreimage⟩ := claim_payment_fields claim
      obtain ⟨invoice, hInvoice⟩ := Option.ne_none_iff_exists'.mp
        (hNotNone _ _ hLast (matches_claim claim))
      refine ⟨_, listing_eq_ok_iff.mpr ⟨fetched, hFetch, rfl⟩, paymentItem library
        { claim.payment with bolt11 := (library.parse invoice.bolt11.text).toOption }, ?_, ?_⟩
      · refine List.mem_map_of_mem ((mem_fetched hRecorded.stores hFetch).mpr ?_)
        exact ⟨claim.payment, invoice, hId ▸ hLast, matches_claim claim, hInvoice, rfl⟩
      · refine ⟨(paymentItem_id_eq_iff library _ claim).mpr hId, ?_, hAmount,
          fun preimage hKnown => ?_, ?_⟩
        · exact congrArg (Option.map _) hHash
        · exact congrArg (Option.map _) (hPreimage.trans hKnown)
        · exact congrArg paymentItemStatus (hSucceeded claim hClaim)
    · have hStatus := item_of_claim hRecorded hListing hClaim hItem hId
      rw [hSucceeded claim hClaim, hPending] at hStatus
      exact nomatch hStatus

end Listing

theorem recorded_initial : Ledger.initial.Recorded := ⟨stores_history [], nofun⟩

theorem claims_reported_iff (library : PaymentsLibrary) (inboundOnly : Bool)
    (operations : List Operation) :
    Always Ledger.step (ReportsClaims library inboundOnly) .initial operations ↔
      Always Ledger.step (OnlyInvoices inboundOnly) .initial operations :=
  always_congr (fun _ operation _ hRecorded hStep => recorded_step operation hRecorded hStep)
    (fun _ hRecorded => reports_claims_iff hRecorded) recorded_initial operations

def exampleToInvoice (text : String) : Except String Invoice :=
  (exampleParse text).map fun bolt11 => { exampleInvoice with bolt11 := bolt11 }

theorem exampleToInvoice_text : exampleToInvoice exampleBolt11.text = .ok exampleInvoice := by
  rw [exampleToInvoice, exampleParse_text]
  rfl

def examplePayments : PaymentsLibrary :=
  ⟨exampleParse, exampleToInvoice, fun _ => none⟩

def keysendClaim : Claim :=
  ⟨exampleDraw 3, exampleInvoice.paymentHash, .spontaneousPayment ⟨.replicate 32 4⟩, 1000⟩

/-- A claimed keysend payment stays pending, although its invoice text can be read. -/
theorem keysend_claim_pending :
    ¬ Always Ledger.step (ReportsClaims examplePayments true) .initial
      [.persistInvoice exampleInvoice, .paymentClaimed keysendClaim] := by
  rintro ⟨_, hFirst⟩
  obtain ⟨_, hSecond⟩ := hFirst _ rfl
  have hReports : ReportsClaims examplePayments true _ := hSecond _ rfl
  have hRecorded := recorded_step (.paymentClaimed keysendClaim)
    (recorded_step (.persistInvoice exampleInvoice) recorded_initial rfl) rfl
  obtain ⟨items, hListing, item, hItem, hReported⟩ :=
    hReports.complete keysendClaim List.mem_cons_self
  have hStatus := item_of_claim hRecorded hListing List.mem_cons_self hItem hReported.id_eq
  rw [hReported.complete] at hStatus
  exact absurd hStatus (by decide)

end Kld.Api
