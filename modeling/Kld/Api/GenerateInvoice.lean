import Kld.Api.Invoices
import Kld.Database.Invoice

/-!
# Invoices as they are generated, listed and decoded

Three handlers describe an invoice, each from the invoice itself. The response to
the request that generates it has the text of the invoice in place of its hash.
-/

namespace Kld.Api

open Sql Fallible PaymentQueries

structure GenerateInvoice where
  amount : UInt64
  label : String
  description : String
  expiry : Option UInt32
deriving DecidableEq

structure GenerateInvoiceResponse where
  paymentHash : String
  expiresAt : UInt32
  bolt11 : String
deriving DecidableEq

structure DecodedInvoice where
  valid : Bool
  amountMsat : Option UInt64
  createdAt : Option UInt64
  currency : Option String
  description : Option String
  expiry : Option UInt64
  minFinalCltvExpiry : Option UInt64
  payee : Option String
  paymentHash : Option String
  signature : Option String
deriving DecidableEq

/-- What LDK, the invoice library and the server of the database answer: the invoice for an
amount, a description and an expiry; the parts of an invoice; the text of a failed write. -/
structure InvoiceLibrary extends Bolt11Library where
  raw : SignedRawBolt11
  createInvoice : Option UInt64 → String → UInt32 → Except String Bolt11Invoice
  checkSignature : Bolt11Invoice → Bool
  currency : Bolt11Invoice → String
  minFinalCltvExpiryDelta : Bolt11Invoice → UInt64
  payeePubKey : Bolt11Invoice → Option PublicKey
  signature : Bolt11Invoice → String
  databaseError : String

section Handlers

variable (library : InvoiceLibrary)

/-- `generate_invoice` of the controller. A write with a label that another invoice has fails. -/
def createAndPersist (label : String) (amount : Option UInt64) (description : String)
    (expiry : Option UInt32) (h : History) : Except String Invoice × History :=
  match library.createInvoice amount description (expiry.getD defaultExpiryTime.toUInt32) with
  | .error e => (.error e, h)
  | .ok bolt11 =>
    match Invoice.new library.raw (some label) bolt11 with
    | .error e => (.error e, h)
    | .ok invoice =>
      (if LabelTaken invoice h.invoices then .error library.databaseError else .ok invoice,
        h.next (.invoice invoice))

def generateInvoice (request : GenerateInvoice) (h : History) :
    Except Failure GenerateInvoiceResponse × History :=
  if 100 < request.label.utf8ByteSize then
    (.error (.response (.badRequest "Label max length is 100 chars")), h)
  else
    match createAndPersist library request.label (some request.amount) request.description
      request.expiry h with
    | (.error e, h') => (.error (.response (.internalServerError e)), h')
    | (.ok invoice, h') =>
      match library.expiresAt invoice.bolt11 with
      | none => (.error (.response (.badRequest "expiry is too far in the future")), h')
      | some expiresAt =>
        (.ok
          { paymentHash := invoice.bolt11.text, expiresAt := expiresAt.toUInt32
            bolt11 := invoice.bolt11.text }, h')

def decodeInvoice (maybeInvoice : String) : Except Failure DecodedInvoice :=
  match library.parse maybeInvoice with
  | .error _ => .error (.response (.badRequest "Invoice could not be decoded"))
  | .ok bolt11 =>
    if library.raw.timestamp bolt11 < 0 then
      .error (.response (.badRequest "second time provided was later than self"))
    else
      .ok
        { valid := library.checkSignature bolt11
          amountMsat := bolt11.amountMilliSatoshis
          createdAt := some (.ofInt (library.raw.timestamp bolt11 / 1000000))
          currency := some (library.currency bolt11)
          description := some (library.description bolt11).text
          expiry := some bolt11.expiryTime
          minFinalCltvExpiry := some (library.minFinalCltvExpiryDelta bolt11)
          payee := (library.payeePubKey bolt11).map fun key => hexEncode key.bytes.toList
          paymentHash := some (hexEncode bolt11.paymentHash.bytes.toList)
          signature := some (library.signature bolt11) }

end Handlers

/-- The entry has the hash, the text and the end of the response. -/
structure SameInvoice (response : GenerateInvoiceResponse) (entry : ListedInvoice) : Prop where
  hash_eq : entry.paymentHash = response.paymentHash
  bolt11_eq : entry.bolt11 = response.bolt11
  expiresAt_eq : entry.expiresAt = some response.expiresAt.toUInt64

/-- The invoice of the response is listed, every entry of it agrees with the response, and so does
what is decoded from its text. -/
def DescribedAlike (checks : Bool) (library : InvoiceLibrary)
    (order : List FetchedInvoice → List FetchedInvoice) (h : History)
    (clock : PaymentHash → Nanoseconds) (label : Option String)
    (response : GenerateInvoiceResponse) : Prop :=
  (∃ entries, listInvoices checks library.toBolt11Library order h.payments h.invoices clock
      label = .ok entries ∧
    (∃ entry ∈ entries, entry.bolt11 = response.bolt11) ∧
    ∀ entry ∈ entries, entry.bolt11 = response.bolt11 → SameInvoice response entry) ∧
  ∃ decoded, decodeInvoice library response.bolt11 = .ok decoded ∧
    decoded.paymentHash = some response.paymentHash

section Generated

variable {checks : Bool} {library : InvoiceLibrary}
  {order : List FetchedInvoice → List FetchedInvoice} {h h' : History}
  {clock : PaymentHash → Nanoseconds} {label : Option String} {request : GenerateInvoice}
  {response : GenerateInvoiceResponse}

/-- A response is that of an invoice that was created, persisted and not yet labelled. -/
theorem generateInvoice_ok
    (hOk : generateInvoice library request h = (.ok response, h')) :
    ∃ bolt11 invoice expiresAt,
      library.createInvoice (some request.amount) request.description
        (request.expiry.getD defaultExpiryTime.toUInt32) = .ok bolt11 ∧
      Invoice.new library.raw (some request.label) bolt11 = .ok invoice ∧
      ¬ LabelTaken invoice h.invoices ∧ h' = h.next (.invoice invoice) ∧
      library.expiresAt bolt11 = some expiresAt ∧
      response =
        { paymentHash := bolt11.text, expiresAt := expiresAt.toUInt32, bolt11 := bolt11.text } := by
  unfold generateInvoice at hOk
  split at hOk
  · cases (Prod.mk.inj hOk).1
  · unfold createAndPersist at hOk
    cases hCreate : library.createInvoice (some request.amount) request.description
        (request.expiry.getD defaultExpiryTime.toUInt32) with
    | error e =>
      rw [hCreate] at hOk
      cases (Prod.mk.inj hOk).1
    | ok bolt11 =>
      rw [hCreate] at hOk
      dsimp only at hOk
      cases hNew : Invoice.new library.raw (some request.label) bolt11 with
      | error e =>
        rw [hNew] at hOk
        cases (Prod.mk.inj hOk).1
      | ok invoice =>
        obtain ⟨rfl, _⟩ := new_eq_ok hNew
        rw [hNew] at hOk
        by_cases hTaken : LabelTaken invoice h.invoices
        · simp only [if_pos hTaken] at hOk
          cases (Prod.mk.inj hOk).1
        · simp only [if_neg hTaken] at hOk
          split at hOk
          · cases (Prod.mk.inj hOk).1
          · rename_i expiresAt hExpires
            obtain ⟨hResponse, rfl⟩ := Prod.mk.inj hOk
            exact ⟨_, invoice, expiresAt, rfl, hNew, hTaken, rfl, hExpires,
              (Except.ok.inj hResponse).symm⟩

theorem hexDigit_ne_l : ∀ n : Fin 16, hexDigit n ≠ 'l' := by decide

/-- The text of an invoice begins with `ln`, digits of a hash do not. -/
theorem head_hexEncode_ne (bytes : Bytes) : (hexEncode bytes).toList.head? ≠ some 'l' := by
  unfold hexEncode
  rw [String.toList_ofList]
  cases bytes with
  | nil => exact nofun
  | cons b bytes =>
    have hLt := b.toNat_lt
    intro hHead
    exact hexDigit_ne_l ⟨b.toNat / 16, by omega⟩ (Option.some.inj hHead)

theorem listedInvoice_fields {library : Bolt11Library} {now : Nanoseconds}
    {invoice : FetchedInvoice} {entry : ListedInvoice}
    (h : listedInvoice checks library now invoice = .ok entry) :
    entry.paymentHash = hexEncode invoice.bolt11.paymentHash.bytes.toList ∧
      entry.bolt11 = invoice.bolt11.text ∧ entry.expiresAt = library.expiresAt invoice.bolt11 := by
  obtain ⟨amount, _, h⟩ := ok_of_bind h
  obtain ⟨status, _, h⟩ := ok_of_bind h
  cases h
  exact ⟨rfl, rfl, rfl⟩

theorem listed_hash {library : Bolt11Library} {entries : List ListedInvoice}
    (hListing : listInvoices checks library order h.payments h.invoices clock label = .ok entries)
    {entry : ListedInvoice} (hEntry : entry ∈ entries) :
    ∃ bytes, entry.paymentHash = hexEncode bytes := by
  unfold listInvoices at hListing
  split at hListing
  · cases hListing
  · split at hListing
    · obtain ⟨invoice, _, hListed⟩ := (mem_of_mapM hListing).mp hEntry
      exact ⟨_, (listedInvoice_fields hListed).1⟩
    · cases hListing

/-- What an entry of the generated invoice has in common with the response: the text, and the end
if that fits into the response. -/
theorem generated_entry (hOk : generateInvoice library request h = (.ok response, h')) :
    ∃ invoice expiresAt, h'.lastInvoice invoice.paymentHash = some invoice ∧
      library.expiresAt invoice.bolt11 = some expiresAt ∧
      ∀ payments now entry, listedInvoice checks library.toBolt11Library now
          (fetchedInvoice payments invoice) = .ok entry →
        entry.bolt11 = response.bolt11 ∧
          (entry.expiresAt = some response.expiresAt.toUInt64 ↔ expiresAt.toNat < 2 ^ 32) := by
  obtain ⟨bolt11, invoice, expiresAt, _, hNew, hTaken, rfl, hExpires, rfl⟩ := generateInvoice_ok hOk
  obtain ⟨rfl, _⟩ := new_eq_ok hNew
  refine ⟨invoice, expiresAt, ?_, hExpires, fun payments now entry hListed => ?_⟩
  · unfold History.next
    dsimp only
    rw [if_neg hTaken]
    exact Function.update_self ..
  · obtain ⟨_, hText, hEnd⟩ := listedInvoice_fields hListed
    refine ⟨hText, ?_⟩
    rw [hEnd]
    change library.expiresAt invoice.bolt11 = _ ↔ _
    rw [hExpires, Option.some_inj, ← UInt64.toNat_inj, UInt32.toNat_toUInt64,
      UInt64.toNat_toUInt32]
    omega

/-- No generated invoice is described alike: no hash is the text of an invoice. -/
theorem never_described_alike
    (hText : ∀ amount description expiry bolt11,
      library.createInvoice amount description expiry = .ok bolt11 →
        bolt11.text.toList.head? = some 'l')
    (hOk : generateInvoice library request h = (.ok response, h')) (later : History)
    (order : List FetchedInvoice → List FetchedInvoice) (clock : PaymentHash → Nanoseconds)
    (label : Option String) :
    ¬ DescribedAlike checks library order later clock label response := by
  rintro ⟨⟨entries, hListing, ⟨entry, hEntry, hSame⟩, hAgrees⟩, _⟩
  obtain ⟨bolt11, _, _, hCreate, _, _, _, _, rfl⟩ := generateInvoice_ok hOk
  obtain ⟨bytes, hHash⟩ := listed_hash hListing hEntry
  refine head_hexEncode_ne bytes ?_
  rw [← hHash, (hAgrees entry hEntry hSame).hash_eq]
  exact hText _ _ _ bolt11 hCreate

end Generated

def exampleInvoices : InvoiceLibrary where
  parse := exampleParse
  description _ := .direct "coffee"
  expiresAt _ := some 3600
  raw := exampleRaw
  createInvoice _ _ _ := .ok exampleBolt11
  checkSignature _ := true
  currency _ := "bc"
  minFinalCltvExpiryDelta _ := 18
  payeePubKey _ := none
  signature _ := ""
  databaseError := "db error"

def coffeeRequest : GenerateInvoice := ⟨1000, "label", "coffee", none⟩

def coffeeResponse : GenerateInvoiceResponse :=
  ⟨exampleBolt11.text, 3600, exampleBolt11.text⟩

theorem coffee_head : exampleBolt11.text.toList.head? = some 'l' := by decide +kernel

theorem coffee_answered :
    (generateInvoice exampleInvoices coffeeRequest (history [])).1 = .ok coffeeResponse := by
  decide +kernel

/-- The response names the invoice's text where the other two name its hash. -/
theorem coffee_hash_is_text :
    (generateInvoice exampleInvoices coffeeRequest (history [])).1 = .ok coffeeResponse ∧
      ((listInvoices true exampleInvoices.toBolt11Library id ∅
          (generateInvoice exampleInvoices coffeeRequest (history [])).2.invoices (fun _ => 0)
          none).map (List.map ListedInvoice.paymentHash)) =
        .ok [hexEncode exampleBolt11.paymentHash.bytes.toList] ∧
      ¬ DescribedAlike true exampleInvoices id
        (generateInvoice exampleInvoices coffeeRequest (history [])).2 (fun _ => 0) none
        coffeeResponse := by
  refine ⟨coffee_answered, by decide +kernel, ?_⟩
  rintro ⟨⟨entries, hListing, ⟨entry, hEntry, hSame⟩, hAgrees⟩, _⟩
  obtain ⟨bytes, hHash⟩ := listed_hash hListing hEntry
  refine head_hexEncode_ne bytes ?_
  rw [← hHash, (hAgrees entry hEntry hSame).hash_eq]
  exact coffee_head

theorem coffee_never_described_alike :
    ¬ DescribedAlike true exampleInvoices id
      (generateInvoice exampleInvoices coffeeRequest (history [])).2 (fun _ => 0) none
      coffeeResponse :=
  never_described_alike
    (fun _ _ _ bolt11 hCreate => by
      obtain rfl := Except.ok.inj hCreate
      exact coffee_head)
    (Prod.ext coffee_answered rfl) _ id _ _

end Kld.Api
