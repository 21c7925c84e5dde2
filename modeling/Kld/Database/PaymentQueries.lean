import Kld.Database.LdkDatabase
import Kld.Lib.Fallible
import Kld.Lib.Listing

/-!
# Queries of payments and invoices

A payment is fetched with the invoice of its hash. Every row of a payment without
one has no invoice text, which is read as if it could not be missing.
-/

namespace Kld.PaymentQueries

open Sql Fallible

/-- A missing column, or an invoice text that does not parse. -/
inductive Fault where
  | panic
  | bolt11 (message : String)
deriving DecidableEq

inductive Write where
  | payment (payment : Payment)
  | invoice (invoice : Invoice)
deriving DecidableEq

/-- The tables, beside what was last persisted under each of their keys. -/
structure History where
  payments : Table PaymentId PaymentRow
  invoices : Table PaymentHash InvoiceRow
  lastPayment : PaymentId → Option Payment
  lastInvoice : PaymentHash → Option Invoice

/-- The labels of invoices are unique, `NULL` apart. -/
def LabelTaken (invoice : Invoice) (invoices : Table PaymentHash InvoiceRow) : Prop :=
  ∃ entry ∈ invoices.rows, entry.1 ≠ invoice.paymentHash ∧ invoice.label ≠ none ∧
    entry.2.label = invoice.label

instance labelTakenDecidable (invoice : Invoice) (invoices : Table PaymentHash InvoiceRow) :
    Decidable (LabelTaken invoice invoices) :=
  inferInstanceAs (Decidable (∃ entry ∈ invoices.rows, entry.1 ≠ invoice.paymentHash ∧
    invoice.label ≠ none ∧ entry.2.label = invoice.label))

def History.next (h : History) : Write → History
  | .payment payment =>
    { h with
      payments := persistPayment payment h.payments
      lastPayment := Function.update h.lastPayment payment.id (some payment) }
  | .invoice invoice =>
    if LabelTaken invoice h.invoices then h
    else
      { h with
        invoices := persistInvoice invoice h.invoices
        lastInvoice := Function.update h.lastInvoice invoice.paymentHash (some invoice) }

def history (writes : List Write) : History :=
  writes.foldl History.next ⟨∅, ∅, fun _ => none, fun _ => none⟩

section Fetch

variable (parse : String → Except String Bolt11Invoice) (payments : Table PaymentId PaymentRow)
  (invoices : Table PaymentHash InvoiceRow)

/-- `Payment::try_from`, which reads the text of the invoice as one that is there. -/
def readPayment (id : PaymentId) (row : PaymentRow) (bolt11 : Option String) :
    Except Fault Payment :=
  match bolt11 with
  | some text => .ok (.ofRow id row (parse text).toOption)
  | none => .error .panic

def Selected (paymentHash : Option PaymentHash) (direction : Option PaymentDirection)
    (row : PaymentRow) : Prop :=
  (∀ hash, paymentHash = some hash → row.hash = some hash) ∧
    ∀ wanted, direction = some wanted → row.direction = wanted

instance selectedDecidable (paymentHash : Option PaymentHash) (direction : Option PaymentDirection)
    (row : PaymentRow) : Decidable (Selected paymentHash direction row) :=
  inferInstanceAs (Decidable (_ ∧ _))

def fetchPayments (paymentHash : Option PaymentHash) (direction : Option PaymentDirection) :
    Except Fault (List Payment) :=
  let joined := leftJoin (fun payment invoice => payment.2.hash = some invoice.1) payments.rows
    invoices.rows
  (joined.filter fun row => Selected paymentHash direction row.1.2).mapM fun row =>
    readPayment parse row.1.1 row.1.2 (row.2.map fun invoice => invoice.2.bolt11)

end Fetch

/-- The rows are those of what was persisted. -/
structure Stores (h : History) : Prop where
  payment_eq : ∀ id, h.payments.lookup id = (h.lastPayment id).map Payment.toRow
  payment_id : ∀ id payment, h.lastPayment id = some payment → payment.id = id
  invoice_eq : ∀ hash, h.invoices.lookup hash = (h.lastInvoice hash).map Invoice.toRow
  invoice_hash : ∀ hash invoice, h.lastInvoice hash = some invoice → invoice.paymentHash = hash

theorem stores_next {h : History} (hStores : Stores h) (write : Write) : Stores (h.next write) := by
  cases write with
  | payment payment =>
    refine ⟨fun id => ?_, forall_update rfl hStores.payment_id, hStores.invoice_eq,
      hStores.invoice_hash⟩
    unfold History.next
    dsimp only
    rw [persistPayment, Table.lookup_upsert_row, Function.update_apply, hStores.payment_eq]
    split <;> rfl
  | invoice invoice =>
    unfold History.next
    dsimp only
    split
    · exact hStores
    · refine ⟨hStores.payment_eq, hStores.payment_id, fun hash => ?_,
        forall_update rfl hStores.invoice_hash⟩
      dsimp only
      rw [persistInvoice, Table.lookup_upsert_row, Function.update_apply, hStores.invoice_eq]
      split <;> rfl

theorem stores_history (writes : List Write) : Stores (history writes) := by
  have hFold : ∀ (writes : List Write) (h : History), Stores h →
      Stores (writes.foldl History.next h) := by
    intro writes
    induction writes with
    | nil => exact fun h hStores => hStores
    | cons write writes ih => exact fun h hStores => ih _ (stores_next hStores write)
  exact hFold writes _ ⟨fun _ => rfl, fun _ _ hNone => absurd hNone.symm (Option.some_ne_none _),
    fun _ => rfl, fun _ _ hNone => absurd hNone.symm (Option.some_ne_none _)⟩

/-- Every stored invoice was persisted at some time. -/
theorem mem_of_lastInvoice {writes : List Write} {hash : PaymentHash} {invoice : Invoice}
    (hLast : (history writes).lastInvoice hash = some invoice) : .invoice invoice ∈ writes := by
  have hFold : ∀ (writes : List Write) (h : History),
      (writes.foldl History.next h).lastInvoice hash = some invoice →
        h.lastInvoice hash = some invoice ∨ .invoice invoice ∈ writes := by
    intro writes
    induction writes with
    | nil => exact fun h hSome => Or.inl hSome
    | cons write writes ih =>
      intro h hSome
      rcases ih _ hSome with hNext | hMem
      · cases write with
        | payment payment => exact Or.inl hNext
        | invoice other =>
          unfold History.next at hNext
          dsimp only at hNext
          split at hNext
          · exact Or.inl hNext
          · dsimp only at hNext
            rw [Function.update_apply] at hNext
            split at hNext
            · rw [Option.some.inj hNext]
              exact Or.inr List.mem_cons_self
            · exact Or.inl hNext
      · exact Or.inr (List.mem_cons_of_mem _ hMem)
  rcases hFold writes _ hLast with hNone | hMem
  · cases hNone
  · exact hMem

def Matches (paymentHash : Option PaymentHash) (direction : Option PaymentDirection)
    (payment : Payment) : Prop := Selected paymentHash direction payment.toRow

instance matchesDecidable (paymentHash : Option PaymentHash) (direction : Option PaymentDirection)
    (payment : Payment) : Decidable (Matches paymentHash direction payment) :=
  inferInstanceAs (Decidable (Selected ..))

def History.invoiceOf (h : History) (payment : Payment) : Option Invoice :=
  payment.hash.bind h.lastInvoice

/-- The query succeeds with every matching payment once, as it was last persisted, with the
invoice of its hash. -/
def FetchesExactly (parse : String → Except String Bolt11Invoice) (h : History)
    (paymentHash : Option PaymentHash) (direction : Option PaymentDirection) : Prop :=
  ∃ fetched, fetchPayments parse h.payments h.invoices paymentHash direction = .ok fetched ∧
    Lists Payment.id fetched fun id =>
      ((h.lastPayment id).filter fun payment => Matches paymentHash direction payment).map
        fun payment => { payment with bolt11 := (h.invoiceOf payment).map Invoice.bolt11 }

section Exact

variable {parse : String → Except String Bolt11Invoice} {h : History}
  {paymentHash : Option PaymentHash} {direction : Option PaymentDirection}

/-- The join looks up the invoice of each payment. -/
theorem fetchPayments_eq (parse : String → Except String Bolt11Invoice)
    (payments : Table PaymentId PaymentRow) (invoices : Table PaymentHash InvoiceRow)
    (paymentHash : Option PaymentHash) (direction : Option PaymentDirection) :
    fetchPayments parse payments invoices paymentHash direction =
      (payments.rows.filter fun row => Selected paymentHash direction row.2).mapM fun row =>
        readPayment parse row.1 row.2
          ((row.2.hash.bind invoices.lookup).map InvoiceRow.bolt11) := by
  have hFound : ∀ row ∈ payments.rows,
      invoices.rows.filter (fun invoice => row.2.hash = some invoice.1) =
        (row.2.hash.bind fun hash => (invoices.lookup hash).map (hash, ·)).toList := by
    intro row _
    cases row.2.hash with
    | none => simp
    | some hash =>
      rw [Option.bind_some, ← (Lists.rows invoices).filter_key hash]
      simp only [Option.some_inj, eq_comm]
  unfold fetchPayments
  dsimp only
  rw [leftJoin_eq_map hFound, List.filter_map, List.mapM_map]
  congr 1
  funext row
  dsimp only [Function.comp_apply]
  cases row.2.hash with
  | none => rfl
  | some hash =>
    rw [Option.bind_some, Option.bind_some]
    cases invoices.lookup hash <;> rfl

theorem readPayment_eq_ok_iff {parse : String → Except String Bolt11Invoice} {id : PaymentId}
    {row : PaymentRow} {text : Option String} {payment : Payment} :
    readPayment parse id row text = .ok payment ↔
      ∃ bolt11, text = some bolt11 ∧ payment = .ofRow id row (parse bolt11).toOption := by
  cases text with
  | none => exact iff_of_false nofun nofun
  | some bolt11 => simp [readPayment, eq_comm]

/-- Every selected payment has a stored invoice. -/
def Invoiced (payments : Table PaymentId PaymentRow) (invoices : Table PaymentHash InvoiceRow)
    (paymentHash : Option PaymentHash) (direction : Option PaymentDirection) : Prop :=
  ∀ id row, payments.lookup id = some row → Selected paymentHash direction row →
    row.hash.bind invoices.lookup ≠ none

section Tables

variable {parse : String → Except String Bolt11Invoice} {payments : Table PaymentId PaymentRow}
  {invoices : Table PaymentHash InvoiceRow} {paymentHash : Option PaymentHash}
  {direction : Option PaymentDirection}

theorem fetchPayments_ok_iff :
    (∃ fetched, fetchPayments parse payments invoices paymentHash direction = .ok fetched) ↔
      Invoiced payments invoices paymentHash direction := by
  rw [fetchPayments_eq]
  constructor
  · rintro ⟨fetched, hFetch⟩ id row hRow hSelected hNone
    obtain ⟨payment, hRead⟩ := ok_of_mapM hFetch (id, row) (List.mem_filter.mpr
      ⟨(Table.mem_rows_iff ..).mpr hRow, decide_eq_true hSelected⟩)
    dsimp only at hRead
    rw [hNone] at hRead
    exact nomatch hRead
  · intro hInvoiced
    refine ⟨_, mapM_ok (g := fun row => .ofRow row.1 row.2 ((row.2.hash.bind
      invoices.lookup).bind fun invoice => (parse invoice.bolt11).toOption)) ?_⟩
    rintro ⟨id, row⟩ hMem
    obtain ⟨hRow, hSelected⟩ := List.mem_filter.mp hMem
    obtain ⟨invoice, hInvoice⟩ := Option.ne_none_iff_exists'.mp
      (hInvoiced id row ((Table.mem_rows_iff ..).mp hRow) (of_decide_eq_true hSelected))
    dsimp only
    rw [hInvoice]
    rfl

theorem mem_fetchPayments {fetched : List Payment} {payment : Payment}
    (hFetch : fetchPayments parse payments invoices paymentHash direction = .ok fetched) :
    payment ∈ fetched ↔ ∃ id row invoice, payments.lookup id = some row ∧
      Selected paymentHash direction row ∧ row.hash.bind invoices.lookup = some invoice ∧
      payment = .ofRow id row (parse invoice.bolt11).toOption := by
  rw [fetchPayments_eq] at hFetch
  rw [mem_of_mapM hFetch]
  constructor
  · rintro ⟨⟨id, row⟩, hMem, hRead⟩
    obtain ⟨hRow, hSelected⟩ := List.mem_filter.mp hMem
    obtain ⟨text, hText, rfl⟩ := readPayment_eq_ok_iff.mp hRead
    obtain ⟨invoice, hInvoice, rfl⟩ := Option.map_eq_some_iff.mp hText
    exact ⟨id, row, invoice, (Table.mem_rows_iff ..).mp hRow, of_decide_eq_true hSelected,
      hInvoice, rfl⟩
  · rintro ⟨id, row, invoice, hRow, hSelected, hInvoice, rfl⟩
    refine ⟨(id, row), List.mem_filter.mpr
      ⟨(Table.mem_rows_iff ..).mpr hRow, decide_eq_true hSelected⟩, ?_⟩
    exact readPayment_eq_ok_iff.mpr ⟨invoice.bolt11, congrArg (Option.map _) hInvoice, rfl⟩

end Tables

theorem invoiceRow_eq (hStores : Stores h) (payment : Payment) :
    payment.toRow.hash.bind h.invoices.lookup = (h.invoiceOf payment).map Invoice.toRow := by
  unfold History.invoiceOf
  change payment.hash.bind _ = _
  cases payment.hash with
  | none => rfl
  | some hash => exact hStores.invoice_eq hash

theorem mem_rows_of_lastPayment (hStores : Stores h) {id : PaymentId} {payment : Payment}
    (hLast : h.lastPayment id = some payment) : (id, payment.toRow) ∈ h.payments.rows := by
  rw [Table.mem_rows_iff, hStores.payment_eq, hLast]
  rfl

/-- Rows selected by their columns, with the invoices given to them, are payments that were
persisted. -/
theorem lists_payments (hStores : Stores h) (selects : PaymentRow → Bool)
    (bolt11 : PaymentRow → Option Bolt11Invoice) :
    Lists Payment.id
      ((h.payments.rows.filter fun entry => selects entry.2).map fun entry =>
        .ofRow entry.1 entry.2 (bolt11 entry.2))
      fun id => ((h.lastPayment id).filter fun payment => selects payment.toRow).map
        fun payment => { payment with bolt11 := bolt11 payment.toRow } := by
  have hId : ∀ entry : PaymentId × PaymentRow,
      (Payment.ofRow entry.1 entry.2 (bolt11 entry.2)).id = entry.1 := fun _ => rfl
  have hRows := ((Lists.rows h.payments).filter fun entry => selects entry.2).map _ hId
  convert hRows using 2 with id
  rw [hStores.payment_eq]
  cases hLast : h.lastPayment id with
  | none => rfl
  | some payment =>
    obtain rfl := hStores.payment_id id payment hLast
    rw [Option.map_some, Option.map_some, Option.filter_some, Option.filter_some]
    split
    · exact congrArg some
        (Payment.ofRow_toRow { payment with bolt11 := bolt11 payment.toRow }).symm
    · rfl

end Exact

/-- A query is exact after any history exactly if every payment that it selects has a stored
invoice. -/
theorem fetchPayments_exact_iff {parse : String → Except String Bolt11Invoice} {writes : List Write}
    (hParse : ∀ invoice, .invoice invoice ∈ writes →
      parse invoice.bolt11.text = .ok invoice.bolt11)
    (paymentHash : Option PaymentHash) (direction : Option PaymentDirection) :
    FetchesExactly parse (history writes) paymentHash direction ↔
      ∀ id payment, (history writes).lastPayment id = some payment →
        Matches paymentHash direction payment → (history writes).invoiceOf payment ≠ none := by
  have hStores := stores_history writes
  constructor
  · rintro ⟨fetched, hFetch, _⟩ id payment hLast hMatches hNone
    rw [fetchPayments_eq] at hFetch
    have hMem := mem_rows_of_lastPayment hStores hLast
    obtain ⟨read, hRead⟩ := ok_of_mapM hFetch (id, payment.toRow)
      (List.mem_filter.mpr ⟨hMem, decide_eq_true hMatches⟩)
    dsimp only at hRead
    rw [invoiceRow_eq hStores, hNone] at hRead
    cases hRead
  · intro hInvoiced
    refine ⟨_, ?_, lists_payments hStores (fun row => Selected paymentHash direction row)
      fun row => (row.hash.bind (history writes).lastInvoice).map Invoice.bolt11⟩
    rw [fetchPayments_eq]
    refine mapM_ok ?_
    rintro ⟨id, row⟩ hMem
    obtain ⟨hRow, hSelected⟩ := List.mem_filter.mp hMem
    rw [Table.mem_rows_iff, hStores.payment_eq, Option.map_eq_some_iff] at hRow
    obtain ⟨payment, hLast, rfl⟩ := hRow
    obtain ⟨invoice, hInvoice⟩ := Option.ne_none_iff_exists'.mp
      (hInvoiced id payment hLast (of_decide_eq_true hSelected))
    obtain ⟨hash, _, hLastInvoice⟩ := Option.bind_eq_some_iff.mp hInvoice
    obtain rfl := hStores.payment_id id payment hLast
    dsimp only
    change _ = Except.ok (Payment.ofRow payment.id payment.toRow
      (((history writes).invoiceOf payment).map Invoice.bolt11))
    rw [invoiceRow_eq hStores, hInvoice, Option.map_some, Option.map_some, Option.map_some]
    change Except.ok (Payment.ofRow payment.id payment.toRow
      (parse invoice.bolt11.text).toOption) = _
    rw [hParse invoice (mem_of_lastInvoice hLastInvoice)]
    rfl

def exampleBolt11 : Bolt11Invoice where
  paymentHash := ⟨.replicate 32 1⟩
  paymentSecret := ⟨.replicate 32 2⟩
  amountMilliSatoshis := some 1000
  expiryTime := 3600
  text :=
    "lnbc10n1qqqqqqqpp5qyqszqgpqyqszqgpqyqszqgpqyqszqgpqyqszqgpqyqszqgpqyqssp5qgpqyqszqgpqyqs" ++
      "zqgpqyqszqgpqyqszqgpqyqszqgpqyqszqgpqdq2vdhkven9v59qrsgqq3je5lm2969g65f42gq239zxhk88fn8y" ++
      "xjtkh3y2xfqem55cpccr9k8vhwvww5jt60knvmpau87fw4cdp0cnnxfxksf2hl3dew0huvqqkfgxxt"

def exampleExpiring : Bolt11Invoice where
  paymentHash := ⟨.replicate 32 4⟩
  paymentSecret := ⟨.replicate 32 2⟩
  amountMilliSatoshis := some 1000
  expiryTime := 60
  text :=
    "lnbc10n1qqqqqqqpp5qszqgpqyqszqgpqyqszqgpqyqszqgpqyqszqgpqyqszqgpqyqszqsp5qgpqyqszqgpqyqs" ++
      "zqgpqyqszqgpqyqszqgpqyqszqgpqyqszqgpqdq2vdhkven9v5xqzpu9qrsgqjtfyxa4plvftvftgtjtf0ye8dfn" ++
      "2n0ya606yvuws6svq05c9u0wsgrtfsjzmylp7sr8sza4f96367qz678xcrvm6v3sngq7zhmfszrgplh5l7w"

/-- A parser that knows two texts. -/
def exampleParse (text : String) : Except String Bolt11Invoice :=
  if text = exampleBolt11.text then .ok exampleBolt11
  else if text = exampleExpiring.text then .ok exampleExpiring
  else .error "invalid invoice"

theorem exampleParse_text : exampleParse exampleBolt11.text = .ok exampleBolt11 := if_pos rfl

theorem exampleParse_expiring : exampleParse exampleExpiring.text = .ok exampleExpiring := by
  rw [exampleParse, if_neg (by decide +kernel), if_pos rfl]

attribute [irreducible] exampleParse

def exampleInvoice : Invoice where
  paymentHash := ⟨.replicate 32 1⟩
  label := none
  bolt11 := exampleBolt11
  payeePubKey := ⟨.replicate 33 2⟩
  expiry := none
  amount := some 1000
  timestamp := 0

def keysend : Payment := .spontaneousOutbound ⟨.replicate 32 3⟩ 0 5000

def paidPayment : Payment :=
  { Payment.ofInvoiceOutbound ⟨.replicate 32 3⟩ 0 exampleInvoice none with status := .succeeded }

def failedPayment : Payment :=
  { Payment.ofInvoiceOutbound ⟨.replicate 32 5⟩ 0 exampleInvoice none with
    status := .recipientRejected }

/-- Two payments of one invoice: the first failed and the second succeeded. -/
def paidWrites : List Write :=
  [.invoice exampleInvoice, .payment failedPayment, .payment paidPayment]

theorem parse_paidWrites : ∀ invoice, .invoice invoice ∈ paidWrites →
    exampleParse invoice.bolt11.text = .ok invoice.bolt11 := by
  intro invoice hMem
  obtain rfl : invoice = exampleInvoice := by simpa [paidWrites] using hMem
  exact exampleParse_text

/-- A single payment without an invoice takes the whole listing down. -/
theorem keysend_fails_listing :
    ¬ FetchesExactly exampleParse (history [.payment keysend]) none none := by
  rintro ⟨fetched, hFetch, _⟩
  have hPanic : fetchPayments exampleParse (history [.payment keysend]).payments
      (history [.payment keysend]).invoices none none = .error .panic := by decide
  rw [hPanic] at hFetch
  cases hFetch

theorem fetchPayments_exact_iff_invoice :
    FetchesExactly exampleParse (history paidWrites) none (some .outbound) ↔
      ∀ id payment, (history paidWrites).lastPayment id = some payment →
        Matches none (some .outbound) payment → (history paidWrites).invoiceOf payment ≠ none :=
  fetchPayments_exact_iff parse_paidWrites none (some .outbound)

end Kld.PaymentQueries
