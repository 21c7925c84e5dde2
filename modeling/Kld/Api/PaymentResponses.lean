import Kld.Api.Payments
import Kld.Ldk.ReturnedPayments

/-!
# The responses of payment requests beside the listing of payments

A response is made of the request and of the payment that the request returns, an
item of the listing of the payment's row and of the invoice stored under its hash.
-/

namespace Kld.Api

open Sql PaymentQueries Transition

structure KeysendRequest where
  pubkey : String
  amount : UInt64
deriving DecidableEq

structure PayInvoice where
  invoice : String
  label : Option String
deriving DecidableEq

structure PaymentResponse where
  destination : String
  paymentHash : String
  createdAt : UInt64
  parts : UInt64
  amountMsat : Option UInt64
  amountSentMsat : UInt64
  paymentPreimage : String
  status : String
deriving DecidableEq

def paymentStatusText : PaymentStatus → String
  | .pending => "pending"
  | .succeeded => "succeeded"
  | .recipientRejected => "recipient rejected"
  | .userAbandoned => "user abandoned"
  | .retriesExhausted => "retries exhausted"
  | .expired => "expired"
  | .routeNotFound => "route not found"
  | .error => "error"

def responseHash (payment : Payment) : Except Failure String :=
  match payment.hash with
  | some hash => .ok (hexEncode hash.bytes.toList)
  | none => .error (.response (.internalServerError "missing payment hash"))

def responsePreimage (payment : Payment) : String :=
  (payment.preimage.map fun preimage => hexEncode preimage.bytes.toList).getD ""

def unixSeconds (timestamp : Timestamp) : UInt64 := .ofInt (timestamp / 1000000)

section Handlers

variable (checks : Bool) (nodeIdFromStr : String → Option PublicKey) (library : PaymentsLibrary)

/-- The amount sent is the amount of the request as if it were in satoshis. -/
def keysend (keysendPayment : PublicKey → UInt64 → Except String Payment)
    (request : KeysendRequest) : Except Failure PaymentResponse :=
  match nodeIdFromStr request.pubkey with
  | none => .error (.response (.badRequest "node id decode error"))
  | some nodeId =>
    match keysendPayment nodeId request.amount with
    | .error message => .error (.response (.internalServerError message))
    | .ok payment => do
      let paymentHash ← responseHash payment
      match Machine.mulU64 checks request.amount 1000 with
      | none => .error .panic
      | some amountSentMsat =>
        return {
          destination := request.pubkey
          paymentHash := paymentHash
          createdAt := unixSeconds payment.timestamp
          parts := 1
          amountMsat := some request.amount
          amountSentMsat := amountSentMsat
          paymentPreimage := responsePreimage payment
          status := paymentStatusText payment.status }

def payInvoice (pay : Invoice → Option String → Except String Payment) (request : PayInvoice) :
    Except Failure PaymentResponse :=
  match library.toInvoice request.invoice with
  | .error message => .error (.response (.badRequest message))
  | .ok invoice =>
    match pay invoice request.label with
    | .error message => .error (.response (.internalServerError message))
    | .ok payment => do
      let paymentHash ← responseHash payment
      return {
        destination := hexEncode invoice.payeePubKey.bytes.toList
        paymentHash := paymentHash
        createdAt := unixSeconds payment.timestamp
        parts := 1
        amountMsat := invoice.amount
        amountSentMsat := payment.amount
        paymentPreimage := responsePreimage payment
        status := paymentStatusText payment.status }

inductive PaymentRequest where
  | keysend (request : KeysendRequest)
  | payInvoice (request : PayInvoice)

/-- The request asks the lightning interface for this. -/
def PaymentRequest.Asks : PaymentRequest → Payments.Action → Prop
  | .keysend request, .keysendPayment amount _ _ _ =>
    nodeIdFromStr request.pubkey ≠ none ∧ amount = request.amount
  | .payInvoice request, .payInvoice invoice label _ _ =>
    library.toInvoice request.invoice = .ok invoice ∧ label = request.label
  | _, _ => False

/-- The response of the request when the interface returned the payment. -/
def PaymentRequest.respond (payment : Payment) : PaymentRequest → Except Failure PaymentResponse
  | .keysend request => Api.keysend checks nodeIdFromStr (fun _ _ => .ok payment) request
  | .payInvoice request => Api.payInvoice library (fun _ _ => .ok payment) request

end Handlers

/-- The item agrees with the response. A missing preimage is an empty one in a response. -/
structure SameItem (response : PaymentResponse) (item : PaymentItem) : Prop where
  hash_eq : item.paymentHash = some response.paymentHash
  preimage_eq : item.paymentPreimage.getD "" = response.paymentPreimage
  createdAt_eq : item.createdAt = response.createdAt
  amountSent_eq : item.amountSentMsat = response.amountSentMsat

def PaymentRequest.Same (response : PaymentResponse) (item : PaymentItem) : PaymentRequest → Prop
  | .keysend _ => SameItem response item
  | .payInvoice _ => SameItem response item ∧ item.amountMsat = response.amountMsat ∧
      item.destination = some response.destination

/-- There is a response, and the listing has the payment and shows it as the response does. -/
def ResponseListed (checks : Bool) (nodeIdFromStr : String → Option PublicKey)
    (library : PaymentsLibrary) (payments : Table PaymentId PaymentRow)
    (invoices : Table PaymentHash InvoiceRow) (params : ListPaysParams) (request : PaymentRequest)
    (payment : Payment) : Prop :=
  ∃ response items, request.respond checks nodeIdFromStr library payment = .ok response ∧
    listPayments library payments invoices params = .ok items ∧
    (∃ item ∈ items, item.id = hexEncode payment.id.bytes.toList) ∧
    ∀ item ∈ items, item.id = hexEncode payment.id.bytes.toList → request.Same response item

/-- A keysend request sends nothing; the invoice stored under the hash of the payment gives the
amount of the requested one, and names the payee that was recovered from that. -/
def PaymentRequest.Faithful (library : PaymentsLibrary) (invoices : Table PaymentHash InvoiceRow)
    (payment : Payment) : PaymentRequest → Prop
  | .keysend request => request.amount = 0
  | .payInvoice request => ∃ invoice row bolt11, library.toInvoice request.invoice = .ok invoice ∧
      payment.hash.bind invoices.lookup = some row ∧ library.parse row.bolt11 = .ok bolt11 ∧
      bolt11.amountMilliSatoshis = invoice.amount ∧
      library.payeePubKey bolt11 = some invoice.payeePubKey

section Responses

variable {checks : Bool} {nodeIdFromStr : String → Option PublicKey} {library : PaymentsLibrary}
  {payments : Table PaymentId PaymentRow} {invoices : Table PaymentHash InvoiceRow}
  {params : ListPaysParams} {invoice : Option Invoice} {direction : Option PaymentDirection}
  {payment : Payment}

theorem listPayments_eq_ok_iff {items : List PaymentItem}
    (hInvoice : optionalField library.toInvoice params.invoice = .ok invoice)
    (hDirection : optionalField paymentDirectionFromStr params.direction = .ok direction) :
    listPayments library payments invoices params = .ok items ↔
      ∃ fetched, fetchPayments library.parse payments invoices
        (invoice.map Invoice.paymentHash) direction = .ok fetched ∧
        items = fetched.map (paymentItem library) := by
  unfold listPayments
  rw [hInvoice, hDirection]
  dsimp only
  cases fetchPayments library.parse payments invoices (invoice.map Invoice.paymentHash)
      direction with
  | ok fetched => simp [eq_comm]
  | error fault => simp

/-- The item of a stored payment in the listing. -/
def storedItem (library : PaymentsLibrary) (payment : Payment) (row : InvoiceRow) : PaymentItem :=
  paymentItem library { payment with bolt11 := (library.parse row.bolt11).toOption }

/-- The items with the id of a stored payment are its own. -/
theorem mem_items_iff {fetched : List Payment} {paymentHash : Option PaymentHash}
    (hFetch : fetchPayments library.parse payments invoices paymentHash direction = .ok fetched)
    (hRow : payments.lookup payment.id = some payment.toRow)
    (hSelected : Selected paymentHash direction payment.toRow) (item : PaymentItem) :
    (item ∈ fetched.map (paymentItem library) ∧
        item.id = hexEncode payment.id.bytes.toList) ↔
      ∃ row, payment.hash.bind invoices.lookup = some row ∧
        item = storedItem library payment row := by
  constructor
  · rintro ⟨hItem, hId⟩
    obtain ⟨other, hMem, rfl⟩ := List.mem_map.mp hItem
    obtain ⟨id, row, invoiceRow, hOther, _, hFound, rfl⟩ := (mem_fetchPayments hFetch).mp hMem
    have hSame : id = payment.id := paymentId_hex_inj.mp hId
    rw [hSame, hRow] at hOther
    obtain rfl := Option.some.inj hOther
    refine ⟨invoiceRow, hFound, ?_⟩
    rw [hSame, ofRow_toRow_with]
    rfl
  · rintro ⟨row, hFound, rfl⟩
    refine ⟨List.mem_map_of_mem ((mem_fetchPayments hFetch).mpr ?_), rfl⟩
    exact ⟨payment.id, payment.toRow, row, hRow, hSelected, hFound, (ofRow_toRow_with _ _).symm⟩

theorem listed_payment_iff {Shows : PaymentItem → Prop}
    (hInvoice : optionalField library.toInvoice params.invoice = .ok invoice)
    (hDirection : optionalField paymentDirectionFromStr params.direction = .ok direction)
    (hRow : payments.lookup payment.id = some payment.toRow)
    (hSelected : Selected (invoice.map Invoice.paymentHash) direction payment.toRow) :
    (∃ items, listPayments library payments invoices params = .ok items ∧
      (∃ item ∈ items, item.id = hexEncode payment.id.bytes.toList) ∧
      ∀ item ∈ items, item.id = hexEncode payment.id.bytes.toList → Shows item) ↔
    Invoiced payments invoices (invoice.map Invoice.paymentHash) direction ∧
      ∃ row, payment.hash.bind invoices.lookup = some row ∧
        Shows (storedItem library payment row) := by
  constructor
  · rintro ⟨items, hListing, ⟨item, hItem, hId⟩, hShows⟩
    obtain ⟨fetched, hFetch, rfl⟩ := (listPayments_eq_ok_iff hInvoice hDirection).mp hListing
    obtain ⟨row, hFound, rfl⟩ := (mem_items_iff hFetch hRow hSelected item).mp ⟨hItem, hId⟩
    exact ⟨fetchPayments_ok_iff.mp ⟨fetched, hFetch⟩, row, hFound, hShows _ hItem hId⟩
  · rintro ⟨hInvoiced, row, hFound, hShown⟩
    obtain ⟨fetched, hFetch⟩ : ∃ fetched, fetchPayments library.parse payments invoices
        (invoice.map Invoice.paymentHash) direction = .ok fetched :=
      fetchPayments_ok_iff.mpr hInvoiced
    have hItems := mem_items_iff hFetch hRow hSelected
    refine ⟨_, (listPayments_eq_ok_iff hInvoice hDirection).mpr ⟨fetched, hFetch, rfl⟩,
      ⟨_, (hItems _).mpr ⟨row, hFound, rfl⟩⟩, fun item hItem hId => ?_⟩
    obtain ⟨row', hFound', rfl⟩ := (hItems item).mp ⟨hItem, hId⟩
    obtain rfl := Option.some.inj (hFound.symm.trans hFound')
    exact hShown

theorem respond_keysend {request : KeysendRequest} {hash : PaymentHash}
    (hNode : nodeIdFromStr request.pubkey ≠ none) (hHash : payment.hash = some hash)
    {response : PaymentResponse} :
    (PaymentRequest.keysend request).respond checks nodeIdFromStr library payment = .ok response ↔
      ∃ sent, Machine.mulU64 checks request.amount 1000 = some sent ∧ response =
        { destination := request.pubkey, paymentHash := hexEncode hash.bytes.toList
          createdAt := unixSeconds payment.timestamp, parts := 1, amountMsat := some request.amount
          amountSentMsat := sent, paymentPreimage := responsePreimage payment
          status := paymentStatusText payment.status } := by
  obtain ⟨nodeId, hNodeId⟩ := Option.ne_none_iff_exists'.mp hNode
  unfold PaymentRequest.respond keysend responseHash
  dsimp only
  rw [hNodeId, hHash]
  dsimp only
  cases Machine.mulU64 checks request.amount 1000 with
  | none => exact iff_of_false nofun nofun
  | some sent =>
    constructor
    · exact fun hResponse => ⟨sent, rfl, (Except.ok.inj hResponse).symm⟩
    · rintro ⟨_, hSent, rfl⟩
      cases hSent
      rfl

theorem respond_payInvoice {request : PayInvoice} {invoice : Invoice} {hash : PaymentHash}
    (hInvoice : library.toInvoice request.invoice = .ok invoice) (hHash : payment.hash = some hash)
    {response : PaymentResponse} :
    (PaymentRequest.payInvoice request).respond checks nodeIdFromStr library payment =
        .ok response ↔
      response =
        { destination := hexEncode invoice.payeePubKey.bytes.toList
          paymentHash := hexEncode hash.bytes.toList
          createdAt := unixSeconds payment.timestamp, parts := 1, amountMsat := invoice.amount
          amountSentMsat := payment.amount, paymentPreimage := responsePreimage payment
          status := paymentStatusText payment.status } := by
  unfold PaymentRequest.respond payInvoice responseHash
  dsimp only
  rw [hInvoice, hHash]
  exact ⟨fun hResponse => (Except.ok.inj hResponse).symm, fun hResponse => hResponse ▸ rfl⟩

theorem sameItem_iff {response : PaymentResponse} {row : InvoiceRow} {hash : PaymentHash}
    (hHash : payment.hash = some hash)
    (hResponseHash : response.paymentHash = hexEncode hash.bytes.toList)
    (hPreimage : response.paymentPreimage = responsePreimage payment)
    (hCreated : response.createdAt = unixSeconds payment.timestamp) :
    SameItem response (storedItem library payment row) ↔
      response.amountSentMsat = payment.amount := by
  constructor
  · exact fun hSame => hSame.amountSent_eq.symm
  · intro hAmount
    refine ⟨?_, hPreimage.symm, hCreated.symm, hAmount.symm⟩
    rw [hResponseHash]
    exact congrArg (Option.map _) hHash

theorem publicKey_hex_inj {key key' : PublicKey} :
    hexEncode key.bytes.toList = hexEncode key'.bytes.toList ↔ key = key' := by
  refine hexEncode_field_inj ?_
  rintro ⟨bytes⟩ ⟨bytes'⟩ hBytes
  exact congrArg PublicKey.mk hBytes

/-- The stored invoice gives the amount and the payee. -/
theorem storedItem_invoice_iff {row : InvoiceRow} {requested : Invoice} :
    ((storedItem library payment row).amountMsat = requested.amount ∧
        (storedItem library payment row).destination =
          some (hexEncode requested.payeePubKey.bytes.toList)) ↔
      ∃ bolt11, library.parse row.bolt11 = .ok bolt11 ∧
        bolt11.amountMilliSatoshis = requested.amount ∧
        library.payeePubKey bolt11 = some requested.payeePubKey := by
  unfold storedItem paymentItem
  dsimp only
  cases hParse : library.parse row.bolt11 with
  | error message => exact iff_of_false (fun hBoth => nomatch hBoth.2) nofun
  | ok bolt11 =>
    dsimp only [Except.toOption, Option.bind_some]
    simp only [Except.ok.injEq, exists_eq_left', Option.map_eq_some_iff, publicKey_hex_inj,
      exists_eq_right]

theorem responseListed_iff {request : PaymentRequest}
    (hInvoice : optionalField library.toInvoice params.invoice = .ok invoice)
    (hDirection : optionalField paymentDirectionFromStr params.direction = .ok direction)
    (hRow : payments.lookup payment.id = some payment.toRow)
    (hSelected : Selected (invoice.map Invoice.paymentHash) direction payment.toRow) :
    ResponseListed checks nodeIdFromStr library payments invoices params request payment ↔
      Invoiced payments invoices (invoice.map Invoice.paymentHash) direction ∧
        ∃ response row, request.respond checks nodeIdFromStr library payment = .ok response ∧
          payment.hash.bind invoices.lookup = some row ∧
          request.Same response (storedItem library payment row) := by
  have hListed : ∀ response, (∃ items, listPayments library payments invoices params = .ok items ∧
      (∃ item ∈ items, item.id = hexEncode payment.id.bytes.toList) ∧
      ∀ item ∈ items, item.id = hexEncode payment.id.bytes.toList →
        request.Same response item) ↔
      Invoiced payments invoices (invoice.map Invoice.paymentHash) direction ∧
        ∃ row, payment.hash.bind invoices.lookup = some row ∧
          request.Same response (storedItem library payment row) :=
    fun _ => listed_payment_iff hInvoice hDirection hRow hSelected
  unfold ResponseListed
  simp only [exists_and_left, hListed]
  constructor
  · rintro ⟨response, hResponse, hInvoiced, row, hFound, hSame⟩
    exact ⟨hInvoiced, response, hResponse, row, hFound, hSame⟩
  · rintro ⟨hInvoiced, response, hResponse, row, hFound, hSame⟩
    exact ⟨response, hResponse, hInvoiced, row, hFound, hSame⟩

theorem keysend_listed_iff {request : KeysendRequest} {hash : PaymentHash}
    (hNode : nodeIdFromStr request.pubkey ≠ none) (hAmount : payment.amount = request.amount)
    (hHash : payment.hash = some hash) {row : InvoiceRow}
    (hFound : payment.hash.bind invoices.lookup = some row) :
    (∃ response row, (PaymentRequest.keysend request).respond checks nodeIdFromStr library payment =
        .ok response ∧ payment.hash.bind invoices.lookup = some row ∧
        (PaymentRequest.keysend request).Same response (storedItem library payment row)) ↔
      request.amount = 0 := by
  rw [← Machine.mulU64_thousand_eq_self_iff checks]
  constructor
  · rintro ⟨response, row', hResponse, _, hSame⟩
    obtain ⟨sent, hSent, rfl⟩ := (respond_keysend hNode hHash).mp hResponse
    have hSentAmount := (sameItem_iff hHash rfl rfl rfl).mp hSame
    rw [hSent, ← hAmount, ← hSentAmount]
  · intro hSent
    exact ⟨_, row, (respond_keysend hNode hHash).mpr ⟨_, hSent, rfl⟩, hFound,
      (sameItem_iff hHash rfl rfl rfl).mpr hAmount.symm⟩

theorem payInvoice_listed_iff {request : PayInvoice} {requested : Invoice} {hash : PaymentHash}
    (hRequested : library.toInvoice request.invoice = .ok requested)
    (hHash : payment.hash = some hash) :
    (∃ response row, (PaymentRequest.payInvoice request).respond checks nodeIdFromStr library
        payment = .ok response ∧ payment.hash.bind invoices.lookup = some row ∧
        (PaymentRequest.payInvoice request).Same response (storedItem library payment row)) ↔
      (PaymentRequest.payInvoice request).Faithful library invoices payment := by
  constructor
  · rintro ⟨response, row, hResponse, hFound, _, hAmount, hDestination⟩
    obtain rfl := (respond_payInvoice hRequested hHash).mp hResponse
    obtain ⟨bolt11, hParse, hBolt11⟩ := storedItem_invoice_iff.mp ⟨hAmount, hDestination⟩
    exact ⟨requested, row, bolt11, hRequested, hFound, hParse, hBolt11⟩
  · rintro ⟨invoice, row, bolt11, hInvoice, hFound, hParse, hBolt11⟩
    obtain rfl := Except.ok.inj (hInvoice.symm.trans hRequested)
    obtain ⟨hAmount, hDestination⟩ := storedItem_invoice_iff.mpr ⟨bolt11, hParse, hBolt11⟩
    exact ⟨_, row, (respond_payInvoice hRequested hHash).mpr rfl, hFound,
      (sameItem_iff hHash rfl rfl rfl).mpr rfl, hAmount, hDestination⟩

end Responses

/-- Whatever ran before and since, a response agrees with a later listing exactly if the listing
does not fail, and the request sent nothing or the stored invoice tells what the requested does. -/
theorem response_listed_iff {checks : Bool} {nodeIdFromStr : String → Option PublicKey}
    {library : PaymentsLibrary} {payments payments₀ : Table PaymentId PaymentRow}
    {invoices invoices₀ : Table PaymentHash InvoiceRow} {params : ListPaysParams}
    {invoice : Option Invoice} {direction : Option PaymentDirection} {request : PaymentRequest}
    {action : Payments.Action} {id : PaymentId} {earlier later : List Payments.Step}
    {s₀ s₁ s : Payments.State} {payment : Payment}
    (hEarlier : run Payments.step (.start payments₀ invoices₀) earlier = some s₀)
    (hAsks : request.Asks nodeIdFromStr library action)
    (hBegin : Payments.step s₀ (.of id action) = some s₁)
    (hLater : run Payments.step s₁ later = some s)
    (hReturned : s.requests id = some (.returned (.ok payment))) (hHash : payment.hash ≠ none)
    (hRow : payments.lookup id = s.payments.lookup id)
    (hInvoice : optionalField library.toInvoice params.invoice = .ok invoice)
    (hDirection : optionalField paymentDirectionFromStr params.direction = .ok direction)
    (hSelected : Selected (invoice.map Invoice.paymentHash) direction payment.toRow) :
    ResponseListed checks nodeIdFromStr library payments invoices params request payment ↔
      Invoiced payments invoices (invoice.map Invoice.paymentHash) direction ∧
        request.Faithful library invoices payment := by
  obtain ⟨hash, hHash⟩ := Option.ne_none_iff_exists'.mp hHash
  have hListed : ∀ built, action.built id = some built →
      (ResponseListed checks nodeIdFromStr library payments invoices params request payment ↔
        Invoiced payments invoices (invoice.map Invoice.paymentHash) direction ∧
          ∃ response row, request.respond checks nodeIdFromStr library payment = .ok response ∧
            payment.hash.bind invoices.lookup = some row ∧
            request.Same response (storedItem library payment row)) ∧
      payment.amount = built.amount ∧ payments.lookup id = some payment.toRow := by
    intro built hBuilt
    obtain ⟨⟨outcome, hPayment⟩, hStored⟩ :=
      Payments.returned_stored hEarlier hBuilt hBegin hLater hReturned
    obtain ⟨hId, hAmount⟩ := Payments.apply_built hBuilt outcome
    rw [← hPayment] at hId hAmount
    rw [← hRow] at hStored
    exact ⟨responseListed_iff hInvoice hDirection (hId.symm ▸ hStored) hSelected, hAmount, hStored⟩
  cases request with
  | keysend request =>
    cases action with
    | keysendPayment amount now route send =>
      obtain ⟨hNode, rfl⟩ := hAsks
      obtain ⟨hIff, hAmount, hStored⟩ := hListed _ rfl
      refine hIff.trans (and_congr_right fun hInvoiced => ?_)
      obtain ⟨row, hFound⟩ := Option.ne_none_iff_exists'.mp (hInvoiced id _ hStored hSelected)
      exact keysend_listed_iff hNode hAmount hHash hFound
    | _ => exact hAsks.elim
  | payInvoice request =>
    cases action with
    | payInvoice requested label now send =>
      exact (hListed _ rfl).1.trans (and_congr_right fun _ => payInvoice_listed_iff hAsks.1 hHash)
    | _ => exact hAsks.elim

def keysendOutcome : Payments.Outcome :=
  .sent true ⟨.replicate 32 4⟩ exampleInvoice.paymentHash (some 7)

/-- What follows on the start of a request that succeeds. -/
def succeeding : List Payments.Action :=
  [.persistPending .stored, .register, .event keysendOutcome, .persistOutcome .stored]

def exampleNodeId (_ : String) : Option PublicKey := some exampleInvoice.payeePubKey

/-- The library finds the payee in the invoice. -/
def namedPayee : PaymentsLibrary :=
  ⟨exampleParse, exampleToInvoice, fun _ => some exampleInvoice.payeePubKey⟩

def sentKeysend : Payment :=
  keysendOutcome.apply (.spontaneousOutbound Payments.examplePaymentId 0 1000)

/-- The response of a keysend request shows a thousandfold of what was sent. -/
theorem keysend_shows_thousandfold :
    ∃ s, run Payments.step (.start ∅ (persistInvoice exampleInvoice ∅))
        ((.keysendPayment 1000 0 (.ok ()) (.ok ()) :: succeeding).map
          (.of Payments.examplePaymentId)) = some s ∧
      s.requests Payments.examplePaymentId = some (.returned (.ok sentKeysend)) ∧
      ¬ ResponseListed true exampleNodeId namedPayee s.payments s.invoices ⟨none, none⟩
        (.keysend ⟨"02", 1000⟩) sentKeysend := by
  refine ⟨_, rfl, rfl, ?_⟩
  intro hListed
  have hSelected : Selected ((none : Option Invoice).map Invoice.paymentHash) none
      sentKeysend.toRow := ⟨nofun, nofun⟩
  obtain ⟨_, hShown⟩ := (responseListed_iff rfl rfl rfl hSelected).mp hListed
  have hZero := (keysend_listed_iff (Option.some_ne_none _) rfl rfl rfl).mp hShown
  exact absurd hZero (by decide)

def paying : List Payments.Action := .persistInvoice .stored :: succeeding

def paidInvoice : Payment :=
  keysendOutcome.apply (.ofInvoiceOutbound Payments.examplePaymentId 0 exampleInvoice none)

def paidPayments : Table PaymentId PaymentRow :=
  persistPayment paidInvoice
    (persistPayment (.ofInvoiceOutbound Payments.examplePaymentId 0 exampleInvoice none) ∅)

theorem paidPayments_invoiced :
    Invoiced paidPayments (persistInvoice exampleInvoice ∅) none none := by
  intro id row hRow _
  unfold paidPayments at hRow
  rw [persistPayment, persistPayment, Table.lookup_upsert_row, Table.lookup_upsert_row] at hRow
  split at hRow
  · obtain rfl := Option.some.inj hRow
    decide
  · split at hRow
    · obtain rfl := Option.some.inj hRow
      decide
    · cases hRow

def invoiceStarted : Payments.State :=
  (Payments.step (.start ∅ ∅) (.of Payments.examplePaymentId
    (.payInvoice exampleInvoice none 0 (.ok ())))).getD (.start ∅ ∅)

theorem invoiceStarted_eq :
    Payments.step (.start ∅ ∅) (.of Payments.examplePaymentId
      (.payInvoice exampleInvoice none 0 (.ok ()))) = some invoiceStarted := rfl

theorem payInvoice_listed_as_answered :
    ResponseListed true exampleNodeId namedPayee paidPayments (persistInvoice exampleInvoice ∅)
      ⟨none, none⟩ (.payInvoice ⟨exampleBolt11.text, none⟩) paidInvoice := by
  have hLater : run Payments.step invoiceStarted
      (paying.map (.of Payments.examplePaymentId)) = some _ := rfl
  have hAsks : (PaymentRequest.payInvoice ⟨exampleBolt11.text, none⟩).Asks exampleNodeId namedPayee
      (.payInvoice exampleInvoice none 0 (.ok ())) := ⟨exampleToInvoice_text, rfl⟩
  have hSelected : Selected ((none : Option Invoice).map Invoice.paymentHash) none
      paidInvoice.toRow := ⟨nofun, nofun⟩
  refine (response_listed_iff (run_nil _) hAsks invoiceStarted_eq hLater rfl
    (Option.some_ne_none _) rfl rfl rfl hSelected).mpr ?_
  exact ⟨paidPayments_invoiced, exampleInvoice, exampleInvoice.toRow, exampleBolt11,
    exampleToInvoice_text, rfl, exampleParse_text, rfl, rfl⟩

end Kld.Api
