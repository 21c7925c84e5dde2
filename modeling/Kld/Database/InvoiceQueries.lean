import Kld.Database.PaymentQueries

/-!
# Invoices with the payments of their hash

The rows of the join are gathered by payment hash in a hash map, whose values
come out in an order of its own.
-/

namespace Kld.PaymentQueries

open Sql Fallible

structure FetchedInvoice extends Invoice where
  payments : List Payment
deriving DecidableEq

section Fetch

variable (parse : String → Except String Bolt11Invoice)
  (order : List FetchedInvoice → List FetchedInvoice) (payments : Table PaymentId PaymentRow)
  (invoices : Table PaymentHash InvoiceRow)

def deserialize (paymentHash : PaymentHash) (row : InvoiceRow) : Except Fault FetchedInvoice :=
  match parse row.bolt11 with
  | .ok bolt11 =>
    .ok
      { paymentHash := paymentHash, label := row.label, bolt11 := bolt11
        payeePubKey := row.payeePubKey, expiry := some row.expiry.toUInt64
        amount := row.amount.map Int64.toUInt64, timestamp := row.timestamp, payments := [] }
  | .error message => .error (.bolt11 message)

/-- A row of the join adds its payment to the invoice of its hash, which the first row creates. -/
def gather (found : Table PaymentHash FetchedInvoice)
    (row : (PaymentHash × InvoiceRow) × Option (PaymentId × PaymentRow)) :
    Except Fault (Table PaymentHash FetchedInvoice) := do
  let payment ← row.2.mapM fun payment =>
    readPayment parse payment.1 payment.2 (some row.1.2.bolt11)
  match found.lookup row.1.1 with
  | some invoice =>
    match payment with
    | some payment =>
      return found.insert row.1.1 { invoice with payments := invoice.payments ++ [payment] }
    | none => return found
  | none =>
    let invoice ← deserialize parse row.1.1 row.1.2
    return found.insert row.1.1 { invoice with payments := payment.toList }

def HasLabel (label : Option String) (found : Option String) : Prop :=
  ∀ wanted, label = some wanted → found = some wanted

instance hasLabelDecidable (label found : Option String) : Decidable (HasLabel label found) :=
  inferInstanceAs (Decidable (∀ wanted, label = some wanted → found = some wanted))

def fetchInvoices (label : Option String) : Except Fault (List FetchedInvoice) :=
  let joined := leftJoin (fun invoice payment => some invoice.1 = payment.2.hash) invoices.rows
    payments.rows
  ((joined.filter fun row => HasLabel label row.1.2.label).foldlM (gather parse) ∅).map fun found =>
    order (found.rows.map Prod.snd)

/-- A row as it is fetched, with the payments of its hash. -/
def readInvoice (row : PaymentHash × InvoiceRow) : Except Fault FetchedInvoice :=
  (deserialize parse row.1 row.2).map fun invoice =>
    { invoice with
      payments := (payments.rows.filter fun entry => some row.1 = entry.2.hash).map fun entry =>
        .ofRow entry.1 entry.2 (parse row.2.bolt11).toOption }

end Fetch

/-- A stored invoice as it is fetched, with the stored payments of its hash. -/
def fetchedInvoice (payments : Table PaymentId PaymentRow) (invoice : Invoice) : FetchedInvoice :=
  { invoice with
    expiry := some invoice.bolt11.expiryTime
    payments := (payments.rows.filter fun entry => some invoice.paymentHash = entry.2.hash).map
      fun entry => .ofRow entry.1 entry.2 (some invoice.bolt11) }

variable {parse : String → Except String Bolt11Invoice}
  {order : List FetchedInvoice → List FetchedInvoice} {h : History} {label : Option String}

theorem deserialize_toRow {invoice : Invoice}
    (hParse : parse invoice.bolt11.text = .ok invoice.bolt11) :
    deserialize parse invoice.paymentHash invoice.toRow =
      .ok { invoice with expiry := some invoice.bolt11.expiryTime, payments := [] } := by
  unfold deserialize
  change (match parse invoice.bolt11.text with | .ok bolt11 => _ | .error message => _) = _
  rw [hParse]
  obtain ⟨hash, label, bolt11, payee, expiry, amount, timestamp⟩ := invoice
  cases amount <;> simp [Invoice.toRow]

theorem readInvoice_toRow {invoice : Invoice}
    (hParse : parse invoice.bolt11.text = .ok invoice.bolt11)
    (payments : Table PaymentId PaymentRow) :
    readInvoice parse payments (invoice.paymentHash, invoice.toRow) =
      .ok (fetchedInvoice payments invoice) := by
  have hText : parse invoice.toRow.bolt11 = .ok invoice.bolt11 := hParse
  rw [readInvoice, deserialize_toRow hParse, hText]
  rfl

/-- Once its invoice is there, every further row adds its payment. -/
theorem gather_payments (row : PaymentHash × InvoiceRow) (entries : List (PaymentId × PaymentRow))
    (found : Table PaymentHash FetchedInvoice) (fetched : FetchedInvoice) :
    (entries.map fun entry => (row, some entry)).foldlM (gather parse)
        (found.insert row.1 fetched) =
      .ok (found.insert row.1
        { fetched with
          payments := fetched.payments ++ entries.map fun entry =>
            .ofRow entry.1 entry.2 (parse row.2.bolt11).toOption }) := by
  induction entries generalizing fetched with
  | nil =>
    rw [List.map_nil, List.map_nil, List.append_nil]
    rfl
  | cons entry entries ih =>
    have hRow : gather parse (found.insert row.1 fetched) (row, some entry) =
        .ok (found.insert row.1
          { fetched with
            payments := fetched.payments ++
              [.ofRow entry.1 entry.2 (parse row.2.bolt11).toOption] }) := by
      unfold gather
      dsimp only
      rw [Option.mapM_some, AList.lookup_insert]
      exact congrArg Except.ok (AList.insert_insert ..)
    rw [List.map_cons, List.foldlM_cons, hRow]
    refine (ih _).trans ?_
    rw [List.append_assoc, List.singleton_append, List.map_cons]

/-- The rows of one invoice make one entry of the map. -/
theorem gather_row {row : PaymentHash × InvoiceRow} {payments : Table PaymentId PaymentRow}
    {fetched : FetchedInvoice} (hRead : readInvoice parse payments row = .ok fetched)
    {found : Table PaymentHash FetchedInvoice} (hNew : row.1 ∉ found) :
    (leftJoin (fun invoice payment => some invoice.1 = payment.2.hash) [row]
        payments.rows).foldlM (gather parse) found = .ok (found.insert row.1 fetched) := by
  have hLookup : found.lookup row.1 = none := AList.lookup_eq_none.mpr hNew
  unfold readInvoice at hRead
  cases hInvoice : deserialize parse row.1 row.2 with
  | error fault =>
    rw [hInvoice] at hRead
    cases hRead
  | ok invoice =>
    rw [hInvoice] at hRead
    cases hRead
    have hFirst : ∀ payment, gather parse found (row, payment) =
        .ok (found.insert row.1
          { invoice with
            payments := (payment.map fun entry =>
              .ofRow entry.1 entry.2 (parse row.2.bolt11).toOption).toList }) := by
      intro payment
      unfold gather
      dsimp only
      cases payment with
      | none =>
        rw [Option.mapM_none, hLookup, hInvoice]
        rfl
      | some entry =>
        rw [Option.mapM_some, hLookup, hInvoice]
        rfl
    unfold leftJoin
    rw [List.flatMap_singleton]
    split
    · rename_i hNone
      rw [hNone, List.foldlM_cons, hFirst]
      rfl
    · cases hMatched : payments.rows.filter fun entry => some row.1 = entry.2.hash with
      | nil => contradiction
      | cons entry entries =>
        rw [List.map_cons, List.foldlM_cons, hFirst]
        refine (gather_payments row entries found _).trans ?_
        rw [List.map_cons]
        rfl

theorem gather_rows {payments : Table PaymentId PaymentRow}
    {rows : List (PaymentHash × InvoiceRow)} {fetched : List FetchedInvoice}
    (hRead : rows.mapM (readInvoice parse payments) = .ok fetched)
    (hNodup : (rows.map Prod.fst).Nodup) {found : Table PaymentHash FetchedInvoice}
    (hNew : ∀ row ∈ rows, row.1 ∉ found) :
    ∃ found', (leftJoin (fun invoice payment => some invoice.1 = payment.2.hash) rows
        payments.rows).foldlM (gather parse) found = .ok found' ∧
      found'.rows.map Prod.snd = fetched.reverse ++ found.rows.map Prod.snd := by
  induction rows generalizing found fetched with
  | nil =>
    cases hRead
    exact ⟨found, rfl, rfl⟩
  | cons row rows ih =>
    rw [List.map_cons, List.nodup_cons] at hNodup
    obtain ⟨invoice, rest, hInvoice, hRest, rfl⟩ := ok_of_mapM_cons hRead
    have hHead := gather_row hInvoice (hNew row List.mem_cons_self)
    have hFresh : ∀ other ∈ rows, other.1 ∉ found.insert row.1 invoice := by
      intro other hMem hInserted
      rcases (AList.mem_insert _).mp hInserted with hSame | hFound
      · exact hNodup.1 (List.mem_map.mpr ⟨other, hMem, hSame⟩)
      · exact hNew other (List.mem_cons_of_mem _ hMem) hFound
    obtain ⟨found', hFold, hRows⟩ := ih hRest hNodup.2 hFresh
    refine ⟨found', ?_, ?_⟩
    · rw [leftJoin_cons, List.foldlM_append, hHead]
      exact hFold
    · rw [hRows, Table.rows_insert_of_notMem (hNew row List.mem_cons_self), List.map_cons,
        List.reverse_cons, List.append_assoc, List.singleton_append]

/-- The query fetches the rows with the label, if they can be read. -/
theorem fetchInvoices_of_read {payments : Table PaymentId PaymentRow}
    {invoices : Table PaymentHash InvoiceRow} {fetched : List FetchedInvoice}
    (hRead : (invoices.rows.filter fun row => HasLabel label row.2.label).mapM
      (readInvoice parse payments) = .ok fetched) :
    fetchInvoices parse order payments invoices label = .ok (order fetched.reverse) := by
  have hNodup : ((invoices.rows.filter fun row => HasLabel label row.2.label).map
      Prod.fst).Nodup :=
    (List.filter_sublist.map Prod.fst).nodup (Table.rows_map_fst invoices ▸ invoices.keys_nodup)
  obtain ⟨found, hFold, hFound⟩ := gather_rows hRead hNodup fun _ _ => AList.notMem_empty _
  have hValues : found.rows.map Prod.snd = fetched.reverse := hFound.trans (List.append_nil _)
  unfold fetchInvoices
  dsimp only
  rw [filter_leftJoin _ (fun row : PaymentHash × InvoiceRow => HasLabel label row.2.label), hFold,
    Except.map, hValues]

/-- The query lists the stored invoices, each with the payments of its hash. -/
theorem fetchInvoices_lists {writes : List Write}
    (hParse : ∀ invoice, .invoice invoice ∈ writes → parse invoice.bolt11.text = .ok invoice.bolt11)
    (hOrder : ∀ fetched, (order fetched).Perm fetched) (label : Option String) :
    ∃ fetched, fetchInvoices parse order (history writes).payments (history writes).invoices label =
        .ok fetched ∧
      Lists (fun invoice => invoice.paymentHash) fetched fun hash =>
        (((history writes).lastInvoice hash).filter fun invoice =>
          HasLabel label invoice.label).map (fetchedInvoice (history writes).payments) := by
  have hStores := stores_history writes
  obtain ⟨invoices, hRows, hList⟩ := Lists.of_table hStores.invoice_hash hStores.invoice_eq
  have hSelected := hList.filter fun invoice => HasLabel label invoice.label
  have hRead : ((history writes).invoices.rows.filter fun row => HasLabel label row.2.label).mapM
      (readInvoice parse (history writes).payments) =
        .ok ((invoices.filter fun invoice => HasLabel label invoice.label).map
          (fetchedInvoice (history writes).payments)) := by
    rw [hRows, List.filter_map, List.mapM_map]
    refine mapM_ok fun invoice hMem => readInvoice_toRow (hParse invoice ?_) _
    exact mem_of_lastInvoice (hList.mem_iff.mp (List.mem_filter.mp hMem).1)
  refine ⟨_, fetchInvoices_of_read hRead, ?_⟩
  have hHash : ∀ invoice,
      (fetchedInvoice (history writes).payments invoice).toInvoice.paymentHash =
        invoice.paymentHash := fun _ => rfl
  have hFetched : Lists (fun fetched : FetchedInvoice => fetched.paymentHash) _ _ :=
    hSelected.map _ hHash
  exact hFetched.perm (List.Perm.symm ((hOrder _).trans (List.reverse_perm _)))

theorem lists_attached (hStores : Stores h) (invoice : Invoice) :
    Lists Payment.id (fetchedInvoice h.payments invoice).payments fun id =>
      ((h.lastPayment id).filter fun payment => some invoice.paymentHash = payment.hash).map
        fun payment => { payment with bolt11 := some invoice.bolt11 } :=
  lists_payments hStores (fun row => some invoice.paymentHash = row.hash)
    fun _ => some invoice.bolt11

end Kld.PaymentQueries
