import Kld.Database.InvoiceQueries

/-!
# Invoices as they are built, stored and fetched

An invoice takes its expiry from the signed invoice, where it may be missing. What
is stored is the expiry of the parsed one, which has a default then.
-/

namespace Kld

/-- What the invoice library reads of the signed part of an invoice, and its timestamp. -/
structure SignedRawBolt11 where
  expiryTime : Bolt11Invoice → Option UInt64
  recoverPayeePubKey : Bolt11Invoice → Except String PublicKey
  amountPicoBtc : Bolt11Invoice → Option UInt64
  paymentHash : Bolt11Invoice → Option PaymentHash
  timestamp : Bolt11Invoice → Timestamp

def defaultExpiryTime : UInt64 := 3600

/-- The accessors of the invoice read its signed part, and put in the default expiry. -/
structure SignedRawBolt11.Reads (raw : SignedRawBolt11) (bolt11 : Bolt11Invoice) : Prop where
  expiryTime_eq : bolt11.expiryTime = (raw.expiryTime bolt11).getD defaultExpiryTime
  amount_eq : bolt11.amountMilliSatoshis = (raw.amountPicoBtc bolt11).map (· / 10)
  paymentHash_eq : raw.paymentHash bolt11 = some bolt11.paymentHash

def Invoice.new (raw : SignedRawBolt11) (label : Option String) (bolt11 : Bolt11Invoice) :
    Except String Invoice :=
  match raw.recoverPayeePubKey bolt11, raw.paymentHash bolt11 with
  | .error e, _ => .error e
  | .ok _, none => .error "missing payment hash"
  | .ok payeePubKey, some paymentHash =>
    .ok
      { paymentHash := paymentHash, label := label, bolt11 := bolt11, payeePubKey := payeePubKey
        expiry := raw.expiryTime bolt11, amount := (raw.amountPicoBtc bolt11).map (· / 10)
        timestamp := raw.timestamp bolt11 }

namespace PaymentQueries

open Sql

/-- The payments of the invoice, as they were persisted, with the invoice they are fetched with. -/
def persistedPayments (h : History) (invoice : Invoice) (id : PaymentId) : Option Payment :=
  ((h.lastPayment id).filter fun payment => payment.hash = some invoice.paymentHash).map
    fun payment => { payment with bolt11 := some invoice.bolt11 }

/-- With no filter and with its label the invoice is fetched once, as it was persisted and with
its payments; with another label it is not fetched. -/
structure RoundTrips (parse : String → Except String Bolt11Invoice)
    (order : List FetchedInvoice → List FetchedInvoice) (h : History) (invoice : Invoice) :
    Prop where
  fetched_once : ∀ label, HasLabel label invoice.label →
    ∃ fetched found, fetchInvoices parse order h.payments h.invoices label = .ok fetched ∧
      fetched.filter (fun other => other.paymentHash = invoice.paymentHash) = [found] ∧
      found.toInvoice = invoice ∧
      Lists Payment.id found.payments (persistedPayments h invoice)
  not_fetched : ∀ label, ¬ HasLabel label invoice.label →
    ∃ fetched, fetchInvoices parse order h.payments h.invoices label = .ok fetched ∧
      ∀ other ∈ fetched, other.paymentHash ≠ invoice.paymentHash

section RoundTrip

variable {raw : SignedRawBolt11} {parse : String → Except String Bolt11Invoice}
  {order : List FetchedInvoice → List FetchedInvoice} {writes : List Write}
  {label : Option String} {bolt11 : Bolt11Invoice} {invoice : Invoice}

theorem new_eq_ok (h : Invoice.new raw label bolt11 = .ok invoice) :
    invoice.bolt11 = bolt11 ∧ invoice.label = label ∧ invoice.expiry = raw.expiryTime bolt11 ∧
      invoice.amount = (raw.amountPicoBtc bolt11).map (· / 10) ∧
      raw.paymentHash bolt11 = some invoice.paymentHash ∧
      raw.recoverPayeePubKey bolt11 = .ok invoice.payeePubKey := by
  unfold Invoice.new at h
  split at h
  · cases h
  · cases h
  · rename_i hPayee hHash
    obtain rfl := Except.ok.inj h
    exact ⟨rfl, rfl, rfl, rfl, hHash, hPayee⟩

/-- The expiry that is stored is the invoice's unless it has none. -/
theorem expiryTime_eq_iff (hRaw : raw.Reads bolt11)
    (h : Invoice.new raw label bolt11 = .ok invoice) :
    some invoice.bolt11.expiryTime = invoice.expiry ↔ raw.expiryTime bolt11 ≠ none := by
  obtain ⟨rfl, _, hExpiry, _⟩ := new_eq_ok h
  rw [hExpiry, hRaw.expiryTime_eq]
  cases raw.expiryTime invoice.bolt11 with
  | none => simp
  | some expiry => simp

theorem fetchedInvoice_eq_iff (payments : Table PaymentId PaymentRow) :
    (fetchedInvoice payments invoice).toInvoice = invoice ↔
      some invoice.bolt11.expiryTime = invoice.expiry := by
  obtain ⟨hash, label, bolt11, payee, expiry, amount, timestamp⟩ := invoice
  simp [fetchedInvoice]

theorem lists_persistedPayments (writes : List Write) (invoice : Invoice) :
    Lists Payment.id (fetchedInvoice (history writes).payments invoice).payments
      (persistedPayments (history writes) invoice) := by
  have hAttached := lists_attached (stores_history writes) invoice
  unfold persistedPayments
  simpa only [eq_comm (a := some invoice.paymentHash)] using hAttached

/-- What is fetched under the hash of a persisted invoice: the invoice, if the filter lets it. -/
theorem fetched_under_hash
    (hParse : ∀ invoice, .invoice invoice ∈ writes → parse invoice.bolt11.text = .ok invoice.bolt11)
    (hOrder : ∀ fetched, (order fetched).Perm fetched)
    (hPersisted : (history writes).lastInvoice invoice.paymentHash = some invoice)
    (wanted : Option String) :
    ∃ fetched, fetchInvoices parse order (history writes).payments (history writes).invoices
        wanted = .ok fetched ∧
      fetched.filter (fun other => other.paymentHash = invoice.paymentHash) =
        if HasLabel wanted invoice.label then [fetchedInvoice (history writes).payments invoice]
        else [] := by
  obtain ⟨fetched, hFetch, hList⟩ := fetchInvoices_lists hParse hOrder wanted
  refine ⟨fetched, hFetch, (hList.filter_key invoice.paymentHash).trans ?_⟩
  rw [hPersisted, Option.filter_some]
  split
  · rename_i hLabel
    rw [if_pos (of_decide_eq_true hLabel)]
    rfl
  · rename_i hLabel
    rw [if_neg fun hHas => hLabel (decide_eq_true hHas)]
    rfl

/-- After any history an invoice comes back as it was persisted exactly if its expiry is given. -/
theorem roundTrips_iff (hRaw : raw.Reads bolt11)
    (hParse : ∀ invoice, .invoice invoice ∈ writes → parse invoice.bolt11.text = .ok invoice.bolt11)
    (hOrder : ∀ fetched, (order fetched).Perm fetched)
    (hNew : Invoice.new raw label bolt11 = .ok invoice)
    (hPersisted : (history writes).lastInvoice invoice.paymentHash = some invoice) :
    RoundTrips parse order (history writes) invoice ↔ raw.expiryTime bolt11 ≠ none := by
  rw [← expiryTime_eq_iff hRaw hNew, ← fetchedInvoice_eq_iff (history writes).payments]
  constructor
  · intro hRoundTrips
    obtain ⟨fetched, found, hFetch, hFound, hSame, _⟩ := hRoundTrips.fetched_once none nofun
    obtain ⟨fetched', hFetch', hFound'⟩ := fetched_under_hash hParse hOrder hPersisted none
    obtain rfl := Except.ok.inj (hFetch.symm.trans hFetch')
    rw [if_pos (show HasLabel none invoice.label from nofun), hFound] at hFound'
    rw [← (List.cons.inj hFound').1]
    exact hSame
  · intro hSame
    refine ⟨fun wanted hLabel => ?_, fun wanted hLabel => ?_⟩
    · obtain ⟨fetched, hFetch, hFound⟩ := fetched_under_hash hParse hOrder hPersisted wanted
      rw [if_pos hLabel] at hFound
      exact ⟨fetched, _, hFetch, hFound, hSame, lists_persistedPayments writes invoice⟩
    · obtain ⟨fetched, hFetch, hFound⟩ := fetched_under_hash hParse hOrder hPersisted wanted
      rw [if_neg hLabel, List.filter_eq_nil_iff] at hFound
      exact ⟨fetched, hFetch, fun other hMem hHash =>
        hFound other hMem (decide_eq_true hHash)⟩

end RoundTrip

def exampleRaw : SignedRawBolt11 where
  expiryTime bolt11 :=
    if bolt11.expiryTime = defaultExpiryTime then none else some bolt11.expiryTime
  recoverPayeePubKey _ := .ok ⟨.replicate 33 2⟩
  amountPicoBtc bolt11 := bolt11.amountMilliSatoshis.map (· * 10)
  paymentHash bolt11 := some bolt11.paymentHash
  timestamp _ := 0

def newInvoice (bolt11 : Bolt11Invoice) : Invoice :=
  { exampleInvoice with
    paymentHash := bolt11.paymentHash
    bolt11 := bolt11
    expiry := if bolt11.expiryTime = defaultExpiryTime then none else some bolt11.expiryTime }

/-- An invoice without an expiry comes back with the default one. -/
theorem absent_expiry_filled_in :
    exampleRaw.Reads exampleBolt11 ∧
      Invoice.new exampleRaw none exampleBolt11 = .ok (newInvoice exampleBolt11) ∧
      ¬ RoundTrips exampleParse id
        (history [.invoice (newInvoice exampleBolt11)]) (newInvoice exampleBolt11) := by
  refine ⟨⟨rfl, rfl, rfl⟩, rfl, fun hRoundTrips => ?_⟩
  obtain ⟨fetched, found, hFetch, hFound, hSame, _⟩ := hRoundTrips.fetched_once none nofun
  have hRead : fetchInvoices exampleParse id
      (history [.invoice (newInvoice exampleBolt11)]).payments
      (history [.invoice (newInvoice exampleBolt11)]).invoices none =
        .ok [fetchedInvoice (history [.invoice (newInvoice exampleBolt11)]).payments
          (newInvoice exampleBolt11)] := by
    decide +kernel
  obtain rfl := Except.ok.inj (hRead.symm.trans hFetch)
  rw [← (List.cons.inj hFound).1] at hSame
  exact absurd hSame (by decide +kernel)

def expiringPayment (id : UInt8) : Payment :=
  .ofInvoiceOutbound ⟨.replicate 32 id⟩ 0 (newInvoice exampleExpiring) none

/-- Two invoices, and two payments of the second one: the first failed and the second succeeded. -/
def expiringWrites : List Write :=
  [.invoice exampleInvoice, .invoice (newInvoice exampleExpiring),
    .payment { expiringPayment 3 with status := .retriesExhausted },
    .payment { expiringPayment 5 with status := .succeeded }]

theorem roundTrips_iff_expiring :
    RoundTrips exampleParse id (history expiringWrites) (newInvoice exampleExpiring) ↔
      exampleRaw.expiryTime exampleExpiring ≠ none :=
  roundTrips_iff ⟨rfl, rfl, rfl⟩
    (fun invoice hMem => by
      obtain rfl | rfl : invoice = exampleInvoice ∨ invoice = newInvoice exampleExpiring := by
        simpa [expiringWrites] using hMem
      · exact exampleParse_text
      · exact exampleParse_expiring)
    (fun _ => .refl _) (show Invoice.new exampleRaw none exampleExpiring = _ from rfl) rfl

end PaymentQueries

end Kld
