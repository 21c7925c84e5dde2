import Kld.Api.Router

/-!
# The client of the command line

A request has a method, a route in which parameters are replaced, the pairs of a query and a body.
The path of its URL ends where the query or a fragment begins. Values that are put into a path are
plain: the ids, numbers and invoices of this API have no characters that URLs escape.
-/

namespace Kld.Cli.Client

open Kld.Api Kld.Api.Router Utf8 FormUrlencoded Fallible
open Kld.OpenChannel (FeeRate)

structure Request where
  method : Method
  route : String
  query : List (String × String)
  body : Option Payload

def request (method : Method) (route : String) : Request := ⟨method, route, [], none⟩

def requestWithBody (method : Method) (route : String) (body : Payload) : Request :=
  ⟨method, route, [], some body⟩

/-- The route is a part of a URL that is parsed. -/
def Request.path (r : Request) : String :=
  .ofList (r.route.toList.takeWhile fun c => c ≠ '?' ∧ c ≠ '#')

/-- No route that is sent with pairs has a query of its own. -/
def Request.rawQuery (r : Request) : Bytes :=
  match r.query with
  | [] => (urlQuery (encode r.route)).getD []
  | pairs => serialize pairs

def Request.toHttp (serde : SerdeJson) (r : Request) : HttpRequest where
  method := r.method
  path := r.path
  query := r.rawQuery
  jsonContentType := true
  body := (r.body.map fun payload => encode (serde.toString payload)).getD []
  webSocketUpgrade := false

section Api

def feeRateOption : Option String → Except String (Option FeeRate)
  | none => .ok none
  | some text => (FeeRate.visitStr text).map some

def withdraw (address satoshis : String) (feeRate : Option String) : Except String Request :=
  (feeRateOption feeRate).map fun feeRate =>
    requestWithBody .post withdrawRoute (.walletTransfer ⟨address, satoshis, feeRate, none, []⟩)

def disconnectPeer (id : String) : Request :=
  request .delete (replace ":id" id disconnectPeerRoute)

def openChannel (id satoshis : String) (pushMsat : Option String) (announce : Option Bool)
    (feeRate : Option String) : Except String Request :=
  (feeRateOption feeRate).map fun feeRate =>
    requestWithBody .post openChannelRoute (.fundChannel
      ⟨id, satoshis, feeRate, announce, none, [], pushMsat, none, none, none⟩)

def closeChannel (id : String) : Option UInt32 → Request
  | some feeRate => request .delete (replace ":fee_rate" (toString feeRate.toNat)
      (replace ":id" id closeChannelWithFeeRoute))
  | none => request .delete (replace ":id" id closeChannelRoute)

def forceCloseChannel (id : String) (mayBroadcast : Bool) : Request :=
  request .delete (replace ":id" id (if mayBroadcast then forceCloseChannelWithBroadcastRoute
    else forceCloseChannelWithoutBroadcastRoute))

def listNetworkNodes : Option String → Request
  | some id => request .get (replace ":id" id listNetworkNodeRoute)
  | none => request .get listNetworkNodesRoute

def listNetworkChannels : Option String → Request
  | some id => request .get (replace ":id" id listNetworkChannelRoute)
  | none => request .get listNetworkChannelsRoute

def feeRates (style : Option String) : Request :=
  request .get (replace ":style" (style.getD "perkb") feeRatesRoute)

def listInvoices : Option String → Request
  | some label => request .get (listInvoicesRoute ++ "?" ++ label)
  | none => request .get listInvoicesRoute

def param (name : String) (value : Option String) : List (String × String) :=
  (value.map fun value => (name, value)).toList

def listPayments (bolt11 direction : Option String) : Request where
  method := .get
  route := listPaymentsRoute
  query := param "bolt11" bolt11 ++ param "direction" direction
  body := none

def listForwards (status : Option String) : Request where
  method := .get
  route := listForwardsRoute
  query := param "status" status
  body := none

def decode (invoice : String) : Request :=
  request .get (replace ":invoice" invoice decodeInvoiceRoute)

end Api

/-- Ids and numbers have no characters that templates or URLs use. -/
def Plain (s : String) : Prop := s ≠ "" ∧ ∀ c ∈ s.toList, c.isAlphanum

theorem notMem_of_plain {s : String} {c : Char} (h : Plain s) (hc : c.isAlphanum = false) :
    c ∉ s.toList := by
  intro hMem
  rw [h.2 c hMem] at hc
  cases hc

theorem plain_toString (n : Nat) : Plain (toString n) := by
  refine ⟨Nat.repr_ne_empty, ?_⟩
  intro c hc
  have hDigits : c ∈ Nat.toDigits 10 n := by rwa [← Nat.toList_repr]
  have hDigit := Nat.isDigit_of_mem_toDigits (by decide) (by decide) hDigits
  rw [Char.isAlphanum, hDigit, Bool.or_true]

theorem ascii_of_isAlphanum {c : Char} (h : c.isAlphanum = true) :
    c.utf8Size = 1 ∧ c.val.toUInt8 ≠ 37 := by
  have hRange : 48 ≤ c.val.toNat ∧ c.val.toNat < 128 := by
    unfold Char.isAlphanum Char.isAlpha Char.isUpper Char.isLower Char.isDigit at h
    simp only [Bool.or_eq_true, Bool.and_eq_true, decide_eq_true_eq, ge_iff_le,
      UInt32.le_iff_toNat_le] at h
    simp at h ⊢
    omega
  constructor
  · have hSmall : c.val ≤ 127 := UInt32.le_iff_toNat_le.mpr (Nat.le_of_lt_succ hRange.2)
    exact if_pos hSmall
  · intro hPercent
    have hByte := congrArg UInt8.toNat hPercent
    rw [UInt32.toNat_toUInt8] at hByte
    have hValue : c.val.toNat % 2 ^ 8 = 37 := hByte
    omega

/-- A plain value is extracted as it is. -/
theorem urlParam_of_plain {value : String} (h : Plain value) : urlParam value = .ok value := by
  have hPercent : (37 : UInt8) ∉ encode value := by
    intro hMem
    obtain ⟨c, hChar, hByte⟩ :=
      mem_encode_of_ascii (fun c hChar => (ascii_of_isAlphanum (h.2 c hChar)).1) hMem
    exact (ascii_of_isAlphanum (h.2 c hChar)).2 hByte.symm
  rw [urlParam, percentDecode_of_notMem hPercent, decode_encode]

/-! ## Paths with a parameter at their end -/

theorem matchSegments_front {front : List String} (hFront : ∀ t ∈ front, isParam t = false)
    (ts ps : List String) :
    matchSegments (front ++ ts) (front ++ ps) = matchSegments ts ps := by
  induction front with
  | nil => rfl
  | cons t front ih =>
    obtain ⟨hHead, hRest⟩ := List.forall_mem_cons.mp hFront
    rw [List.cons_append, List.cons_append, matchSegments, if_neg (of_decide_eq_false hHead),
      if_pos rfl, ih hRest]

theorem matchSegments_param {t p : String} (ht : isParam t = true) (hp : p ≠ "")
    (ts ps : List String) :
    matchSegments (t :: ts) (p :: ps) = (matchSegments ts ps).map (p :: ·) := by
  rw [matchSegments, if_pos (of_decide_eq_true ht), if_neg hp]

theorem replace_param {start : String} (hStart : ':' ∉ start.toList)
    (name value rest : String) :
    replace (":" ++ name) value (start ++ (":" ++ name ++ rest)) =
      start ++ (value ++
        .ofList (replaceFrom (":" ++ name).toList value.toList 0 rest.toList)) := by
  apply String.toList_injective
  have hReplace := replaceFrom_append hStart name.toList value.toList rest.toList
  have hName : (":" ++ name).toList = ':' :: name.toList := by simp
  rw [replace, String.toList_ofList, hName]
  simpa using hReplace

theorem replace_last {start name value : String} (hStart : ':' ∉ start.toList) :
    replace (":" ++ name) value (start ++ (":" ++ name)) = start ++ value := by
  have hReplace := replace_param hStart name value ""
  simpa [replaceFrom] using hReplace

theorem intercalate_concat (front : List String) (value : String) :
    (String.singleton '/').intercalate (front ++ [value]) =
      (String.singleton '/').intercalate (front ++ [""]) ++ value := by
  apply String.toList_injective
  rw [String.toList_append, String.toList_intercalate, String.toList_intercalate]
  induction front with
  | nil => simp
  | cons part front ih =>
    cases front with
    | nil => simp [List.intercalate]
    | cons next front =>
      simp only [List.intercalate, List.cons_append, List.map_cons, List.intersperse_cons_cons,
        List.flatten_cons, List.append_assoc] at ih ⊢
      rw [ih]

theorem segments_concat {front : List String} {value : String}
    (hFront : ∀ part ∈ front, '/' ∉ part.toList) (hValue : '/' ∉ value.toList) :
    segments ((String.singleton '/').intercalate (front ++ [""]) ++ value) = front ++ [value] := by
  rw [← intercalate_concat]
  refine split_intercalate (by simp) fun part hPart => ?_
  obtain hMem | hMem := List.mem_append.mp hPart
  · exact hFront part hMem
  · exact List.mem_singleton.mp hMem ▸ hValue

/-- The text has no character that ends the path of a URL. -/
def Clean (text : String) : Prop := (text.toList.all fun c => c ≠ '?' ∧ c ≠ '#') = true

instance cleanDecidable (text : String) : Decidable (Clean text) :=
  inferInstanceAs (Decidable (_ = true))

theorem clean_iff {text : String} : Clean text ↔ '?' ∉ text.toList ∧ '#' ∉ text.toList := by
  unfold Clean
  rw [List.all_eq_true]
  constructor
  · intro h
    constructor <;> intro hMem <;> exact absurd (h _ hMem) (by decide)
  · rintro ⟨hQuery, hFragment⟩ c hMem
    refine decide_eq_true ⟨?_, ?_⟩
    · rintro rfl
      exact hQuery hMem
    · rintro rfl
      exact hFragment hMem

theorem clean_of_plain {value : String} (h : Plain value) : Clean value :=
  clean_iff.mpr ⟨notMem_of_plain h (by decide), notMem_of_plain h (by decide)⟩

theorem clean_append {start value : String} (hStart : Clean start) (hValue : Clean value) :
    Clean (start ++ value) := by
  unfold Clean at *
  rw [String.toList_append, List.all_append, hStart, hValue, Bool.and_true]

theorem takeWhile_clean {path : String} (hPath : Clean path) (rest : List Char) :
    (path.toList ++ rest).takeWhile (fun c => c ≠ '?' ∧ c ≠ '#') =
      path.toList ++ rest.takeWhile fun c => c ≠ '?' ∧ c ≠ '#' :=
  List.takeWhile_append_of_pos (List.all_eq_true.mp hPath)

theorem path_of_clean {r : Request} (h : Clean r.route) : r.path = r.route := by
  have hAll := takeWhile_clean h []
  rw [List.append_nil, List.takeWhile_nil, List.append_nil] at hAll
  rw [Request.path, hAll, String.ofList_toList]

theorem path_of_query {r : Request} {path rest : String} (hPath : Clean path)
    (hRoute : r.route = path ++ "?" ++ rest) : r.path = path := by
  rw [Request.path, hRoute, String.toList_append, String.toList_append, List.append_assoc,
    takeWhile_clean hPath]
  have hEnd : ("?".toList ++ rest.toList).takeWhile (fun c => c ≠ '?' ∧ c ≠ '#') = [] := rfl
  rw [hEnd, List.append_nil, String.ofList_toList]

/-- The request gets to the route of the handler, which it matches with these parameters. -/
structure Reaches (r : Request) (handler : Handler) (params : List String) : Prop where
  params : (declared handler).2.params r.path = some params
  method : (declared handler).2.methodRouter.handle r.method = some handler

section Served

variable {κ : Type} [DecidableEq κ] {formats : MacaroonFormats κ} {headers : MacaroonHeaders}
  {key : κ} {serde : SerdeJson} {r : Request} {handler : Handler} {params : List String}

theorem Reaches.not_options (h : Reaches r handler params) : r.method ≠ .options := by
  intro hOptions
  have hMethod := h.method
  rw [hOptions, options_not_handled] at hMethod
  exact nomatch hMethod

theorem Reaches.admitted_eq_answer (h : Reaches r handler params) :
    admitted serde (r.toHttp serde) =
      (declared handler).2.answer serde params (r.toHttp serde) :=
  admitted_of_route (r := r.toHttp serde) (declared_mem handler) h.params h.not_options

/-- What a request that gets to its handler is answered where it is let through. -/
theorem Reaches.admitted_eq (h : Reaches r handler params) :
    admitted serde (r.toHttp serde) =
      match extract serde params (r.toHttp serde) (extractors handler) with
      | .ok arguments => .run handler arguments
      | .error rejection => .rejected rejection := by
  rw [h.admitted_eq_answer]
  exact answer_of_handle (r := r.toHttp serde) h.method

theorem Reaches.serve_eq (h : Reaches r handler params) :
    serve formats headers key serde (r.toHttp serde) =
      (roleAuth formats headers (declared handler).1.text key).map fun admission =>
        match admission with
        | .unauthorized message => .unauthorized message
        | .next => admitted serde (r.toHttp serde) := by
  rw [h.admitted_eq_answer]
  exact serve_of_route (r := r.toHttp serde) (declared_mem handler) h.params h.not_options

/-- The handler runs with what its extractors read. -/
theorem Reaches.admitted_eq_run_iff (h : Reaches r handler params) {handler' : Handler}
    {arguments : List Argument} :
    admitted serde (r.toHttp serde) = .run handler' arguments ↔ handler = handler' ∧
      extract serde params (r.toHttp serde) (extractors handler) = .ok arguments := by
  rw [h.admitted_eq]
  cases extract serde params (r.toHttp serde) (extractors handler) with
  | error rejection => exact iff_of_false nofun fun h => nomatch h.2
  | ok arguments' => rw [Outcome.run.injEq, Except.ok.injEq]

/-- A handler of one extractor, which reads the query, runs with what is read of it. -/
theorem Reaches.admitted_query_iff (h : Reaches r handler []) {α : Type}
    {ofPairs : List (String × String) → Option α} {argument : α → Argument}
    (hInjective : Function.Injective argument) {extractor : Extractor}
    (hExtractors : extractors handler = [extractor])
    (hExtract : ∀ http, extractor.extract serde [] http = (fromQuery ofPairs http).map argument)
    {params : α} :
    admitted serde (r.toHttp serde) = .run handler [argument params] ↔
      ofPairs (parse r.rawQuery) = some params := by
  rw [h.admitted_eq_run_iff, and_iff_right rfl, hExtractors, extract, mapM_eq_ok_iff,
    List.forall₂_cons, and_iff_left List.Forall₂.nil, hExtract]
  exact fromQuery_eq_ok_iff hInjective

end Served

/-- The pairs that the client writes are those that the server reads. -/
theorem parse_rawQuery {r : Request} (hRoute : urlQuery (encode r.route) = none) :
    parse r.rawQuery = r.query := by
  unfold Request.rawQuery
  cases r.query with
  | nil =>
    rw [hRoute]
    rfl
  | cons pair pairs => exact parse_serialize _

section Reaching

variable {r : Request} {handler : Handler}

/-- A handler that takes nothing of its path has a route without parameters. -/
theorem template_fixed (handler : Handler)
    (hFixed : (extractors handler).contains .pathString = false) :
    ∀ t ∈ segments (declared handler).2.template, isParam t = false := by
  have hAll : ∀ declared ∈ routes,
      (extractors declared.2.methodRouter.handler).contains .pathString = false →
        ∀ t ∈ segments declared.2.template, isParam t = false := by decide +kernel
  refine hAll _ (declared_mem handler) ?_
  rw [declared_handler]
  exact hFixed

theorem reaches_of_path (hPath : r.path = (declared handler).2.template)
    (hMethod : (declared handler).2.methodRouter.handle r.method = some handler)
    (hFixed : (extractors handler).contains .pathString = false) : Reaches r handler [] := by
  refine ⟨?_, hMethod⟩
  have hFront := matchSegments_front (template_fixed handler hFixed) [] []
  rw [List.append_nil] at hFront
  rw [hPath, Route.params, hFront]
  rfl

theorem clean_template (handler : Handler) : Clean (declared handler).2.template := by
  have hAll : ∀ r ∈ routes, Clean r.2.template := by decide +kernel
  exact hAll _ (declared_mem handler)

theorem reaches_fixed (hRoute : r.route = (declared handler).2.template)
    (hMethod : (declared handler).2.methodRouter.handle r.method = some handler)
    (hFixed : (extractors handler).contains .pathString = false) : Reaches r handler [] := by
  refine reaches_of_path (Eq.trans (path_of_clean ?_) hRoute) hMethod hFixed
  rw [hRoute]
  exact clean_template handler

/-- A template whose last segment, and no other, is a parameter. -/
structure ParamAtEnd (template start : String) (front : List String) (name : String) : Prop where
  template_eq : template = start ++ (":" ++ name)
  start_eq : start = (String.singleton '/').intercalate (front ++ [""])
  segments_eq : segments template = front ++ [":" ++ name]
  colon : ':' ∉ start.toList
  clean : Clean start
  front_segments : (front.all fun part => '/' ∉ part.toList && !isParam part) = true

theorem reaches_param {start name value : String} {front : List String}
    (hEnd : ParamAtEnd (declared handler).2.template start front name) (hValue : Plain value)
    (hRoute : r.route = replace (":" ++ name) value (declared handler).2.template)
    (hMethod : (declared handler).2.methodRouter.handle r.method = some handler) :
    Reaches r handler [value] := by
  have hReplaced : r.route = start ++ value := by
    rw [hRoute, hEnd.template_eq, replace_last hEnd.colon]
  have hPath : r.path = start ++ value :=
    (path_of_clean (hReplaced ▸ clean_append hEnd.clean (clean_of_plain hValue))).trans hReplaced
  have hFront := List.all_eq_true.mp hEnd.front_segments
  simp only [Bool.and_eq_true, decide_eq_true_eq, Bool.not_eq_true'] at hFront
  refine ⟨?_, hMethod⟩
  rw [hPath, Route.params, hEnd.segments_eq, hEnd.start_eq,
    segments_concat (fun part hPart => (hFront part hPart).1) (notMem_of_plain hValue (by decide)),
    matchSegments_front fun part hPart => (hFront part hPart).2,
    matchSegments_param (by simp [isParam]) hValue.1]
  rfl

end Reaching

end Kld.Cli.Client
