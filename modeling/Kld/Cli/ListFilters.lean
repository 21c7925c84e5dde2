import Kld.Cli.Client

/-!
# Filters of the listings on the command line

The client builds a request for each listing, and the server reads the parameters
that its handlers declare. One filter is written into the URL as it is, one goes by
another name than the handler's, and two are agreed on.
-/

namespace Kld.Cli

open Utf8 FormUrlencoded Sql Fallible PaymentQueries Kld.Api Kld.Api.Router
open Kld.Cli.Client (Request Reaches Clean reaches_fixed reaches_of_path path_of_query
  parse_rawQuery param)

section Responses

variable (serde : SerdeJson) (checks : Bool) (library : Bolt11Library)
  (paymentsLibrary : PaymentsLibrary) (order : List FetchedInvoice → List FetchedInvoice)
  (payments : Table PaymentId PaymentRow) (invoices : Table PaymentHash InvoiceRow)
  (clock : PaymentHash → Nanoseconds) (forwards : Table Uuid ForwardRow)

/-- The answers of the handlers; undefined where another one or none runs. -/
def serveListInvoices (r : Request) : Option (Except Failure (List ListedInvoice)) :=
  match admitted serde (r.toHttp serde) with
  | .run .listInvoices [.listInvoiceParams params] =>
    some (Api.listInvoices checks library order payments invoices clock params.label)
  | _ => none

def serveListPayments (r : Request) : Option (Except Failure (List PaymentItem)) :=
  match admitted serde (r.toHttp serde) with
  | .run .listPayments [.listPaysParams params] =>
    some (Api.listPayments paymentsLibrary payments invoices params)
  | _ => none

def serveListForwards (r : Request) : Option (Except Failure (List ForwardEntry)) :=
  match admitted serde (r.toHttp serde) with
  | .run .listForwards [.listForwardsQueryParams params] =>
    some (Api.listForwards checks params.status forwards)
  | _ => none

/-- A filter that is given asks for its text, and one that is not asks for nothing. -/
def Wanted (filter found : Option String) : Prop := ∀ text, filter = some text → found = some text

instance wantedDecidable (filter found : Option String) : Decidable (Wanted filter found) :=
  inferInstanceAs (Decidable (∀ text, filter = some text → found = some text))

def directionText : PaymentDirection → String
  | .inbound => "inbound"
  | .outbound => "outbound"

/-- The status under which the listing shows a stored forward. -/
def shownStatus : ForwardStatus → ForwardEntryStatus
  | .succeeded => .settled
  | .failed => .failed

def shownInvoice (row : PaymentHash × InvoiceRow) : Except Failure ListedInvoice :=
  match readInvoice library.parse payments row with
  | .ok invoice => listedInvoice checks library (clock invoice.paymentHash) invoice
  | .error fault => .error (fetchFailure fault)

def bolt11Of (row : PaymentId × PaymentRow) : Option String :=
  (row.2.hash.bind invoices.lookup).map InvoiceRow.bolt11

def shownPayment (row : PaymentId × PaymentRow) : Except Failure PaymentItem :=
  match readPayment paymentsLibrary.parse row.1 row.2 (bolt11Of invoices row) with
  | .ok payment => .ok (paymentItem paymentsLibrary payment)
  | .error fault => .error (fetchFailure fault)

def shownForward (row : Uuid × ForwardRow) : Except Failure ForwardEntry :=
  forwardEntry checks (.ofRow row.1 row.2)

end Responses

/-- The answer lists the given rows and nothing else, if they can be shown at all. -/
def ListsExactly {α β : Type} (answer : Option (Except Failure (List β)))
    (shown : α → Except Failure β) (rows : List α) : Prop :=
  ∀ items, rows.mapM shown = .ok items → ∃ listed, answer = some (.ok listed) ∧ listed.Perm items

section Requests

variable {serde : SerdeJson}

theorem reaches_listInvoices (label : Option String) :
    Reaches (Client.listInvoices label) .listInvoices [] := by
  have hPath : (Client.listInvoices label).path = listInvoicesRoute := by
    cases label with
    | none => rfl
    | some label => exact path_of_query (by decide) rfl
  refine reaches_of_path hPath ?_ rfl
  cases label <;> rfl

theorem reaches_listPayments (bolt11 direction : Option String) :
    Reaches (Client.listPayments bolt11 direction) .listPayments [] :=
  reaches_fixed rfl rfl rfl

theorem reaches_listForwards (status : Option String) :
    Reaches (Client.listForwards status) .listForwards [] :=
  reaches_fixed rfl rfl rfl

theorem admitted_listInvoices_iff {label : Option String} {params : ListInvoiceParams} :
    admitted serde ((Client.listInvoices label).toHttp serde) =
        .run .listInvoices [.listInvoiceParams params] ↔
      ListInvoiceParams.ofPairs (parse (Client.listInvoices label).rawQuery) = some params :=
  (reaches_listInvoices label).admitted_query_iff (fun _ _ => Argument.listInvoiceParams.inj) rfl
    fun _ => rfl

theorem admitted_listPayments_iff {bolt11 direction : Option String} {params : ListPaysParams} :
    admitted serde ((Client.listPayments bolt11 direction).toHttp serde) =
        .run .listPayments [.listPaysParams params] ↔
      ListPaysParams.ofPairs (param "bolt11" bolt11 ++ param "direction" direction) =
        some params := by
  have hPairs : parse (Client.listPayments bolt11 direction).rawQuery =
      param "bolt11" bolt11 ++ param "direction" direction := parse_rawQuery rfl
  rw [← hPairs]
  exact (reaches_listPayments bolt11 direction).admitted_query_iff
    (fun _ _ => Argument.listPaysParams.inj) rfl fun _ => rfl

theorem admitted_listForwards_iff {status : Option String} {params : ListForwardsQueryParams} :
    admitted serde ((Client.listForwards status).toHttp serde) =
        .run .listForwards [.listForwardsQueryParams params] ↔
      ListForwardsQueryParams.ofPairs (param "status" status) = some params := by
  have hPairs : parse (Client.listForwards status).rawQuery = param "status" status :=
    parse_rawQuery rfl
  rw [← hPairs]
  exact (reaches_listForwards status).admitted_query_iff
    (fun _ _ => Argument.listForwardsQueryParams.inj) rfl fun _ => rfl

end Requests

section Fields

@[simp] theorem queryField_param (name : String) (value : Option String) :
    queryField name (param name value) = some value := by
  cases value <;> simp [param, queryField]

theorem param_other {name name' : String} (hName : name' ≠ name) (value : Option String) :
    (param name' value).filter (fun pair => pair.1 = name) = [] := by
  cases value <;> simp [param, hName]

theorem queryField_skip {name name' : String} (hName : name' ≠ name) (value : Option String)
    (pairs : List (String × String)) :
    queryField name (param name' value ++ pairs) = queryField name pairs := by
  rw [queryField, List.filter_append, param_other hName, List.nil_append, queryField]

theorem queryField_absent {name name' : String} (hName : name' ≠ name) (value : Option String) :
    queryField name (param name' value) = some none := by
  rw [queryField, param_other hName]

theorem listInvoicesRoute_plain :
    ∀ b ∈ encode listInvoicesRoute, 32 < b ∧ b ≠ 35 ∧ b ≠ 63 := by
  have hAll : (encode listInvoicesRoute).all (fun b => 32 < b ∧ b ≠ 35 ∧ b ≠ 63) = true := by
    decide
  exact fun b hb => of_decide_eq_true (List.all_eq_true.mp hAll b hb)

theorem rawQuery_listInvoices_some (label : String) :
    (Client.listInvoices (some label)).rawQuery =
      percentEncode isQueryEscaped (trimUrl (encode label)) := by
  have hText : encode (listInvoicesRoute ++ "?" ++ label) =
      encode listInvoicesRoute ++ 63 :: encode label := by
    rw [encode_append, encode_append, List.append_assoc]
    rfl
  change (urlQuery (encode (listInvoicesRoute ++ "?" ++ label))).getD [] = _
  rw [hText, urlQuery_append listInvoicesRoute_plain]
  rfl

/-- A label is not read as the label that it is. -/
theorem listInvoices_agrees_iff (label : Option String) :
    ListInvoiceParams.ofPairs (parse (Client.listInvoices label).rawQuery) = some ⟨label⟩ ↔
      label = none := by
  cases label with
  | none =>
    exact iff_of_true (by decide) rfl
  | some label =>
    refine iff_of_false ?_ nofun
    intro h
    rw [rawQuery_listInvoices_some, ListInvoiceParams.ofPairs] at h
    simp only [Option.bind_eq_bind, Option.bind_eq_some_iff, Option.pure_def, Option.some_inj,
      ListInvoiceParams.mk.injEq] at h
    obtain ⟨value, hField, hLabel⟩ := h
    unfold emptyStringAsNone at hLabel
    split at hLabel
    · cases hLabel
    · rename_i hNonempty
      rw [hLabel] at hField hNonempty
      refine notMem_parse_trimUrl "label" label ?_ (mem_of_queryField hField)
      rintro rfl
      exact hNonempty rfl

/-- Without an equals sign nothing is read of a label, and all invoices are listed. -/
theorem listInvoices_unfiltered {label : String} (hAnd : (38 : UInt8) ∉ encode label)
    (hEq : (61 : UInt8) ∉ encode label) :
    ListInvoiceParams.ofPairs (parse (Client.listInvoices (some label)).rawQuery) =
      some ⟨none⟩ := by
  have hParse := parse_of_notMem
    (notMem_percentEncode (by decide) (by decide) (fun h => hAnd (mem_of_mem_trimUrl h))
      isQueryEscaped)
    (notMem_percentEncode (by decide) (by decide) (fun h => hEq (mem_of_mem_trimUrl h))
      isQueryEscaped)
  rw [rawQuery_listInvoices_some, ListInvoiceParams.ofPairs, hParse]
  split
  · rfl
  · by_cases hLabel : decodePart (percentEncode isQueryEscaped (trimUrl (encode label))) =
      "label" <;>
      simp [queryField, hLabel, emptyStringAsNone]

/-- The handler has another name for the invoice. -/
theorem listPayments_ofPairs (bolt11 direction : Option String) :
    ListPaysParams.ofPairs (param "bolt11" bolt11 ++ param "direction" direction) =
      some ⟨none, emptyStringAsNone direction⟩ := by
  have hInvoice : queryField "invoice"
      (param "bolt11" bolt11 ++ param "direction" direction) = some none := by
    rw [queryField_skip (by decide), queryField_absent (by decide)]
  have hDirection : queryField "direction"
      (param "bolt11" bolt11 ++ param "direction" direction) = some direction := by
    rw [queryField_skip (by decide), queryField_param]
  rw [ListPaysParams.ofPairs, hInvoice, hDirection]
  rfl

theorem listPayments_agrees_iff (bolt11 direction : Option String) :
    ListPaysParams.ofPairs (param "bolt11" bolt11 ++ param "direction" direction) =
        some ⟨bolt11, direction⟩ ↔ bolt11 = none ∧ direction ≠ some "" := by
  rw [listPayments_ofPairs, Option.some_inj, ListPaysParams.mk.injEq,
    emptyStringAsNone_eq_self_iff]
  exact and_congr_left fun _ => eq_comm

theorem listForwards_agrees_iff {status : Option String} {wanted : Option ForwardEntryStatus} :
    ListForwardsQueryParams.ofPairs (param "status" status) = some ⟨wanted⟩ ↔
      status = wanted.map statusText := by
  rw [ListForwardsQueryParams.ofPairs, queryField_param]
  cases status with
  | none => cases wanted <;> simp
  | some text =>
    cases hText : statusFromText text with
    | none =>
      refine iff_of_false (by simp [hText]) ?_
      intro hStatus
      obtain ⟨known, _, rfl⟩ := Option.map_eq_some_iff.mp hStatus.symm
      exact nomatch (statusFromText_eq_some_iff.mpr rfl).symm.trans hText
    | some known =>
      obtain rfl := statusFromText_eq_some_iff.mp hText
      cases wanted with
      | none => simp [hText]
      | some wanted => simp [hText, statusText_injective.eq_iff]

end Fields

/-- The requests of the three listings are read as the filters that were given, and answered by
the stored rows that match them. The invoices come out of a hash map in some order. -/
structure FiltersAgree (serde : SerdeJson) (label bolt11 direction status : Option String) :
    Prop where
  invoices : admitted serde ((Client.listInvoices label).toHttp serde) =
    .run .listInvoices [.listInvoiceParams ⟨label⟩]
  payments : admitted serde ((Client.listPayments bolt11 direction).toHttp serde) =
    .run .listPayments [.listPaysParams ⟨bolt11, direction⟩]
  forwards : ∃ wanted : Option ForwardEntryStatus, status = wanted.map statusText ∧
    admitted serde ((Client.listForwards status).toHttp serde) =
      .run .listForwards [.listForwardsQueryParams ⟨wanted⟩]
  listedInvoices : ∀ checks library order payments (invoices : Table PaymentHash InvoiceRow) clock,
    (∀ fetched, (order fetched).Perm fetched) →
      ListsExactly (serveListInvoices serde checks library order payments invoices clock
          (Client.listInvoices label))
        (shownInvoice checks library payments clock)
        (invoices.rows.filter fun row => Wanted label row.2.label)
  listedPayments : ∀ library (payments : Table PaymentId PaymentRow) invoices,
    ListsExactly
      (serveListPayments serde library payments invoices (Client.listPayments bolt11 direction))
      (shownPayment library invoices)
      (payments.rows.filter fun row => Wanted bolt11 (bolt11Of invoices row) ∧
        Wanted direction (some (directionText row.2.direction)))
  listedForwards : ∀ checks (forwards : Table Uuid ForwardRow),
    ListsExactly (serveListForwards serde checks forwards (Client.listForwards status))
      (shownForward checks)
      (forwards.rows.filter fun row =>
        Wanted status (some (statusText (shownStatus row.2.status))))

section Answers

variable {checks : Bool} {library : Bolt11Library} {paymentsLibrary : PaymentsLibrary}
  {order : List FetchedInvoice → List FetchedInvoice} {payments : Table PaymentId PaymentRow}
  {invoices : Table PaymentHash InvoiceRow} {clock : PaymentHash → Nanoseconds}
  {forwards : Table Uuid ForwardRow}

theorem listInvoices_exact (hOrder : ∀ fetched, (order fetched).Perm fetched)
    {label : Option String} (hLabel : ∀ text, label = some text → text.utf8ByteSize ≤ 100) :
    ListsExactly (some (Api.listInvoices checks library order payments invoices clock label))
      (shownInvoice checks library payments clock)
      (invoices.rows.filter fun row => Wanted label row.2.label) := by
  intro items hItems
  have hThrough : ∀ row entry, shownInvoice checks library payments clock row = .ok entry →
      ∃ invoice, readInvoice library.parse payments row = .ok invoice ∧
        listedInvoice checks library (clock invoice.paymentHash) invoice = .ok entry := by
    intro row entry hEntry
    unfold shownInvoice at hEntry
    split at hEntry
    · rename_i invoice hInvoice
      exact ⟨invoice, hInvoice, hEntry⟩
    · cases hEntry
  obtain ⟨fetched, hFetched, hEntries⟩ := mapM_through hThrough hItems
  obtain ⟨listed, hListed, hPerm⟩ :=
    mapM_perm ((hOrder fetched.reverse).trans (List.reverse_perm fetched)) hEntries
  have hAccepted : ¬ (label.any fun label => 100 < label.utf8ByteSize) = true := by
    rw [Option.any_eq_true]
    rintro ⟨text, hText, hLong⟩
    exact absurd (of_decide_eq_true hLong) (Nat.not_lt.mpr (hLabel text hText))
  refine ⟨listed, ?_, hPerm⟩
  rw [Api.listInvoices, if_neg hAccepted, fetchInvoices_of_read hFetched]
  exact congrArg some hListed

theorem directionFromStr_eq_ok_iff {text : String} {direction : PaymentDirection} :
    paymentDirectionFromStr text = .ok direction ↔ text = directionText direction := by
  constructor
  · intro h
    unfold paymentDirectionFromStr at h
    split at h <;> cases h <;> rfl
  · rintro rfl
    cases direction <;> rfl

theorem directionText_injective : Function.Injective directionText := by
  intro direction direction' h
  cases direction <;> cases direction' <;> first | rfl | exact absurd h (by decide)

theorem listPayments_exact (direction : Option PaymentDirection) :
    ListsExactly (some (Api.listPayments paymentsLibrary payments invoices
        ⟨none, direction.map directionText⟩))
      (shownPayment paymentsLibrary invoices)
      (payments.rows.filter fun row => Wanted none (bolt11Of invoices row) ∧
        Wanted (direction.map directionText) (some (directionText row.2.direction))) := by
  intro items hItems
  have hThrough : ∀ row item, shownPayment paymentsLibrary invoices row = .ok item →
      ∃ payment, readPayment paymentsLibrary.parse row.1 row.2 (bolt11Of invoices row) =
          .ok payment ∧
        (Except.ok (paymentItem paymentsLibrary payment) : Except Failure _) = .ok item := by
    intro row item hItem
    unfold shownPayment at hItem
    split at hItem
    · rename_i payment hPayment
      exact ⟨payment, hPayment, hItem⟩
    · cases hItem
  obtain ⟨fetched, hFetched, hEntries⟩ := mapM_through hThrough hItems
  have hMap : fetched.mapM (fun payment =>
      (Except.ok (paymentItem paymentsLibrary payment) : Except Failure _)) =
        .ok (fetched.map (paymentItem paymentsLibrary)) := mapM_ok fun _ _ => rfl
  obtain rfl := Except.ok.inj (hMap.symm.trans hEntries)
  refine ⟨_, ?_, .refl _⟩
  have hSelected : payments.rows.filter (fun row => Selected none direction row.2) =
      payments.rows.filter fun row => Wanted none (bolt11Of invoices row) ∧
        Wanted (direction.map directionText) (some (directionText row.2.direction)) := by
    refine List.filter_congr fun row _ => decide_eq_decide.mpr ?_
    unfold Selected Wanted
    cases direction with
    | none => simp
    | some direction => simp [eq_comm, directionText_injective.eq_iff]
  have hRead : optionalField paymentDirectionFromStr (direction.map directionText) =
      .ok direction := by
    cases direction with
    | none => rfl
    | some direction =>
      rw [Option.map_some, optionalField, directionFromStr_eq_ok_iff.mpr rfl]
  have hFetch : fetchPayments paymentsLibrary.parse payments invoices none direction =
      .ok fetched := by
    rw [fetchPayments_eq, hSelected]
    exact hFetched
  unfold Api.listPayments
  rw [hRead]
  simp only [optionalField, Option.map_none, hFetch]

theorem listForwards_exact {wanted : Option ForwardEntryStatus} (hOffered : wanted ≠ some .offered)
    (hLocal : wanted ≠ some .localFailed) :
    ListsExactly (some (Api.listForwards checks wanted forwards)) (shownForward checks)
      (forwards.rows.filter fun row =>
        Wanted (wanted.map statusText) (some (statusText (shownStatus row.2.status)))) := by
  intro items hItems
  have hStatus : forwards.rows.filter (fun row => HasStatus (wantedStatus wanted) row.2.status) =
      forwards.rows.filter fun row =>
        Wanted (wanted.map statusText) (some (statusText (shownStatus row.2.status))) := by
    refine List.filter_congr fun row _ => decide_eq_decide.mpr ?_
    obtain - | - | - | - | - := wanted
    all_goals cases row.2.status <;>
      simp_all [HasStatus, wantedStatus, Wanted, shownStatus, statusText]
  rw [← hStatus] at hItems
  obtain ⟨listed, hListed, hPerm⟩ := mapM_perm (List.mergeSort_perm _ _) hItems
  refine ⟨listed, ?_, hPerm⟩
  unfold Api.listForwards fetchForwards
  rw [List.mapM_map]
  exact congrArg some hListed

end Answers

/-- A forward that was settled, and one that failed. -/
def exampleForwards : Table Uuid ForwardRow :=
  persistForward (.success ⟨.replicate 16 1⟩ 0 ⟨.replicate 32 1⟩ ⟨.replicate 32 2⟩ 1000 5)
    (persistForward (.failure ⟨.replicate 16 2⟩ 0 ⟨.replicate 32 1⟩ (.unknownNextHop 7)) ∅)

/-- The forwards that were offered are answered by those that were settled, and the ones that
failed here by all that failed. -/
theorem status_of_exact {wanted : ForwardEntryStatus}
    (h : ListsExactly (some (Api.listForwards true (some wanted) exampleForwards))
      (shownForward true) (exampleForwards.rows.filter fun row =>
        Wanted (some (statusText wanted)) (some (statusText (shownStatus row.2.status))))) :
    wanted = .settled ∨ wanted = .failed := by
  have hLength : ∀ wanted : ForwardEntryStatus,
      (fetchForwards (wantedStatus (some wanted)) exampleForwards).length = 1 := by
    intro wanted
    rw [fetchForwards, List.length_map, List.length_mergeSort]
    cases wanted <;> decide
  -- A listing of nothing is none of the one row that is fetched.
  have hSome : ∀ wanted : ForwardEntryStatus,
      ¬ ∃ listed, some (Api.listForwards true (some wanted) exampleForwards) = some (.ok listed) ∧
        listed.Perm [] := by
    rintro wanted ⟨listed, hListed, hPerm⟩
    rw [List.perm_nil.mp hPerm] at hListed
    have hSame := (mapM_eq_ok_iff.mp (Option.some.inj hListed)).length_eq
    rw [hLength] at hSame
    cases hSame
  cases wanted with
  | settled => exact .inl rfl
  | failed => exact .inr rfl
  | offered => exact (hSome .offered (h [] (by decide))).elim
  | localFailed => exact (hSome .localFailed (h [] (by decide))).elim

theorem serveListForwards_typed (serde : SerdeJson) (checks : Bool)
    (forwards : Table Uuid ForwardRow) (wanted : Option ForwardEntryStatus) :
    serveListForwards serde checks forwards (Client.listForwards (wanted.map statusText)) =
      some (Api.listForwards checks wanted forwards) := by
  have hAdmitted : admitted serde ((Client.listForwards (wanted.map statusText)).toHttp serde) =
      .run .listForwards [.listForwardsQueryParams ⟨wanted⟩] :=
    admitted_listForwards_iff.mpr (listForwards_agrees_iff.mpr rfl)
  rw [serveListForwards, hAdmitted]

/-- The listings agree exactly if no label and no invoice is asked for, the direction is one that
the server knows, and the status is one under which it shows forwards. -/
theorem filters_agree_iff (serde : SerdeJson) (label bolt11 direction status : Option String) :
    FiltersAgree serde label bolt11 direction status ↔
      label = none ∧ bolt11 = none ∧
        (∀ text, direction = some text → text ∈ ["inbound", "outbound"]) ∧
        ∀ text, status = some text → text ∈ ["settled", "failed"] := by
  constructor
  · intro h
    obtain ⟨rfl, hDirection⟩ :=
      (listPayments_agrees_iff bolt11 direction).mp (admitted_listPayments_iff.mp h.payments)
    have hLabel := (listInvoices_agrees_iff label).mp (admitted_listInvoices_iff.mp h.invoices)
    refine ⟨hLabel, rfl, ?_, ?_⟩
    · rintro text rfl
      obtain ⟨listed, hListed, _⟩ := h.listedPayments ⟨.error, .error, fun _ => none⟩ ∅ ∅ [] rfl
      rw [serveListPayments, h.payments] at hListed
      simp only [Option.some.injEq, Api.listPayments, optionalField] at hListed
      cases hText : paymentDirectionFromStr text with
      | error message =>
        rw [hText] at hListed
        cases hListed
      | ok direction =>
        rw [directionFromStr_eq_ok_iff.mp hText]
        cases direction <;> decide
    · rintro text rfl
      obtain ⟨wanted, hStatus, _⟩ := h.forwards
      obtain ⟨wanted, rfl, rfl⟩ := Option.map_eq_some_iff.mp hStatus.symm
      have hListed := h.listedForwards true exampleForwards
      have hServed := serveListForwards_typed serde true exampleForwards (some wanted)
      rw [Option.map_some] at hServed
      rw [hServed] at hListed
      rcases status_of_exact hListed with rfl | rfl <;> decide
  · rintro ⟨rfl, rfl, hDirection, hStatus⟩
    obtain ⟨direction, rfl⟩ : ∃ known : Option PaymentDirection,
        known.map directionText = direction := by
      cases direction with
      | none => exact ⟨none, rfl⟩
      | some text =>
        rcases List.mem_pair.mp (hDirection text rfl) with rfl | rfl
        · exact ⟨some .inbound, rfl⟩
        · exact ⟨some .outbound, rfl⟩
    obtain ⟨wanted, rfl, hOffered, hLocal⟩ : ∃ wanted : Option ForwardEntryStatus,
        wanted.map statusText = status ∧ wanted ≠ some .offered ∧ wanted ≠ some .localFailed := by
      cases status with
      | none => exact ⟨none, rfl, nofun, nofun⟩
      | some text =>
        rcases List.mem_pair.mp (hStatus text rfl) with rfl | rfl
        · exact ⟨some .settled, rfl, nofun, nofun⟩
        · exact ⟨some .failed, rfl, nofun, nofun⟩
    have hNotEmpty : direction.map directionText ≠ some "" := by
      cases direction with
      | none => nofun
      | some direction => cases direction <;> decide
    have hPays : admitted serde ((Client.listPayments none (direction.map directionText)).toHttp
        serde) = _ :=
      admitted_listPayments_iff.mpr ((listPayments_agrees_iff _ _).mpr ⟨rfl, hNotEmpty⟩)
    have hInvoices : admitted serde ((Client.listInvoices none).toHttp serde) = _ :=
      admitted_listInvoices_iff.mpr ((listInvoices_agrees_iff none).mpr rfl)
    refine ⟨hInvoices, hPays, ⟨wanted, rfl, ?_⟩, ?_, ?_, ?_⟩
    · exact admitted_listForwards_iff.mpr (listForwards_agrees_iff.mpr rfl)
    · intro checks library order payments invoices clock hOrder
      rw [serveListInvoices, hInvoices]
      exact listInvoices_exact hOrder nofun
    · intro library payments invoices
      rw [serveListPayments, hPays]
      exact listPayments_exact direction
    · intro checks forwards
      rw [serveListForwards_typed]
      exact listForwards_exact hOffered hLocal

theorem paid_label_is_ignored :
    (admitted exampleSerde ((Client.listInvoices (some "paid")).toHttp exampleSerde) =
      .run .listInvoices [.listInvoiceParams ⟨none⟩]) ∧
    (admitted exampleSerde ((Client.listPayments (some "lnbc1") none).toHttp exampleSerde) =
      .run .listPayments [.listPaysParams ⟨none, none⟩]) ∧
    (∀ params, admitted exampleSerde
      ((Client.listForwards (some "succeeded")).toHttp exampleSerde) ≠
        .run .listForwards [.listForwardsQueryParams params]) ∧
    ¬ FiltersAgree exampleSerde (some "paid") none none none := by
  refine ⟨?_, ?_, ?_, ?_⟩
  · exact admitted_listInvoices_iff.mpr (listInvoices_unfiltered (by decide) (by decide))
  · exact admitted_listPayments_iff.mpr (listPayments_ofPairs (some "lnbc1") none)
  · intro params hRun
    have hNone : ListForwardsQueryParams.ofPairs (param "status" (some "succeeded")) = none := rfl
    exact nomatch hNone.symm.trans (admitted_listForwards_iff.mp hRun)
  · exact fun h => nomatch
      (listInvoices_agrees_iff (some "paid")).mp (admitted_listInvoices_iff.mp h.invoices)

end Kld.Cli
