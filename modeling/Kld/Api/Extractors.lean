import Kld.Api.FeeRate
import Kld.Api.Forwards
import Kld.Api.GenerateInvoice
import Kld.Api.PaymentResponses
import Kld.Api.Payments
import Kld.Api.Wallet
import Kld.Lib.FormUrlencoded

/-!
# Extractors

What the handlers of the API read of a request: the parameters of its path, the fields of its
query and its body. A handler runs after all of its extractors, and not if one of them fails.
-/

namespace Kld.Api

open Utf8 FormUrlencoded Decimal Fallible
open Kld.OpenChannel (FeeRate)

structure FundChannel where
  id : String
  satoshis : String
  feeRate : Option FeeRate
  announce : Option Bool
  minConf : Option UInt8
  utxos : List String
  pushMsat : Option String
  closeTo : Option String
  requestAmt : Option String
  compactLease : Option String
deriving DecidableEq

structure EstimateChannelLiquidityBody where
  scid : UInt64
  target : String
deriving DecidableEq

inductive Payload where
  | signRequest (message : String)
  | walletTransfer (body : WalletTransfer)
  | peerConnect (id : String)
  | fundChannel (body : FundChannel)
  | channelFee (body : ChannelFee)
  | keysendRequest (body : KeysendRequest)
  | generateInvoice (body : GenerateInvoice)
  | payInvoice (body : PayInvoice)
  | estimateChannelLiquidity (body : EstimateChannelLiquidityBody)

inductive PayloadType where
  | signRequest
  | walletTransfer
  | peerConnect
  | fundChannel
  | channelFee
  | keysendRequest
  | generateInvoice
  | payInvoice
  | estimateChannelLiquidity
deriving DecidableEq

def Payload.type : Payload → PayloadType
  | .signRequest _ => .signRequest
  | .walletTransfer _ => .walletTransfer
  | .peerConnect _ => .peerConnect
  | .fundChannel _ => .fundChannel
  | .channelFee _ => .channelFee
  | .keysendRequest _ => .keysendRequest
  | .generateInvoice _ => .generateInvoice
  | .payInvoice _ => .payInvoice
  | .estimateChannelLiquidity _ => .estimateChannelLiquidity

/-- The texts of the payloads, and what is read of a body where one of a type is asked for. -/
structure SerdeJson where
  toString : Payload → String
  fromSlice : PayloadType → Bytes → Option Payload

inductive Method where
  | get
  | head
  | post
  | delete
  | options
  | other
deriving DecidableEq

/-- What the server is sent, besides the macaroon. The path is without the query, and a request
without a query or a body has an empty one. -/
structure HttpRequest where
  method : Method
  path : String
  query : Bytes
  jsonContentType : Bool
  body : Bytes
  webSocketUpgrade : Bool

section QueryFields

/-- A field may be left out but not repeated; pairs with other names are ignored. -/
def queryField (name : String) (pairs : List (String × String)) : Option (Option String) :=
  match pairs.filter fun pair => pair.1 = name with
  | [] => some none
  | [pair] => some (some pair.2)
  | _ => none

def emptyStringAsNone : Option String → Option String
  | some "" => none
  | value => value

structure ListInvoiceParams where
  label : Option String
deriving DecidableEq

structure ListForwardsQueryParams where
  status : Option ForwardEntryStatus
deriving DecidableEq

structure NewAddressQueryParams where
  addressType : Option String
deriving DecidableEq

def statusText : ForwardEntryStatus → String
  | .offered => "offered"
  | .settled => "settled"
  | .localFailed => "local_failed"
  | .failed => "failed"

def statusFromText : String → Option ForwardEntryStatus
  | "offered" => some .offered
  | "settled" => some .settled
  | "local_failed" => some .localFailed
  | "failed" => some .failed
  | _ => none

def ListInvoiceParams.ofPairs (pairs : List (String × String)) : Option ListInvoiceParams := do
  let label ← queryField "label" pairs
  return ⟨emptyStringAsNone label⟩

def ListPaysParams.ofPairs (pairs : List (String × String)) : Option ListPaysParams := do
  let invoice ← queryField "invoice" pairs
  let direction ← queryField "direction" pairs
  return ⟨emptyStringAsNone invoice, emptyStringAsNone direction⟩

def ListForwardsQueryParams.ofPairs (pairs : List (String × String)) :
    Option ListForwardsQueryParams := do
  match ← queryField "status" pairs with
  | none => return ⟨none⟩
  | some text => return ⟨some (← statusFromText text)⟩

def NewAddressQueryParams.ofPairs (pairs : List (String × String)) :
    Option NewAddressQueryParams := do
  let addressType ← queryField "addressType" pairs
  return ⟨addressType⟩

end QueryFields

inductive Extractor where
  | pathString
  | pathU32
  | listInvoiceParams
  | listPaysParams
  | listForwardsQueryParams
  | newAddressQueryParams
  | json (type : PayloadType)
  | webSocketUpgrade
deriving DecidableEq

/-- What an extractor hands to its handler. -/
inductive Argument where
  | pathString (value : String)
  | pathU32 (value : UInt32)
  | listInvoiceParams (params : ListInvoiceParams)
  | listPaysParams (params : ListPaysParams)
  | listForwardsQueryParams (params : ListForwardsQueryParams)
  | newAddressQueryParams (params : NewAddressQueryParams)
  | json (payload : Payload)
  | webSocketUpgrade

inductive Rejection where
  | invalidUtf8InPathParam
  | wrongNumberOfParameters (got : Nat)
  | parseError (value : String) (error : ParseIntError)
  | failedToDeserializeQueryString
  | missingJsonContentType
  | failedToDeserializeBody
  | methodNotGet
  | notAnUpgrade
deriving DecidableEq

section Extraction

def urlParam (param : String) : Except Rejection String :=
  match decode (percentDecode (encode param)) with
  | some value => .ok value
  | none => .error .invalidUtf8InPathParam

/-- A path is extracted as one value only where the route has one parameter. -/
def pathParam (params : List String) : Except Rejection String :=
  match params.mapM urlParam with
  | .ok [value] => .ok value
  | .ok values => .error (.wrongNumberOfParameters values.length)
  | .error rejection => .error rejection

def fromQuery {α : Type} (ofPairs : List (String × String) → Option α) (r : HttpRequest) :
    Except Rejection α :=
  match ofPairs (parse r.query) with
  | some params => .ok params
  | none => .error .failedToDeserializeQueryString

variable (serde : SerdeJson)

def fromBody (type : PayloadType) (r : HttpRequest) : Except Rejection Payload :=
  if r.jsonContentType then
    match serde.fromSlice type r.body with
    | some payload => .ok payload
    | none => .error .failedToDeserializeBody
  else .error .missingJsonContentType

def fromUpgrade (r : HttpRequest) : Except Rejection Argument :=
  if r.method = .get then
    if r.webSocketUpgrade then .ok .webSocketUpgrade else .error .notAnUpgrade
  else .error .methodNotGet

def Extractor.extract (params : List String) (r : HttpRequest) :
    Extractor → Except Rejection Argument
  | .pathString => (pathParam params).map .pathString
  | .pathU32 =>
    match pathParam params with
    | .ok value => ((u32FromStr value).mapError (.parseError value)).map .pathU32
    | .error rejection => .error rejection
  | .listInvoiceParams => (fromQuery ListInvoiceParams.ofPairs r).map .listInvoiceParams
  | .listPaysParams => (fromQuery ListPaysParams.ofPairs r).map .listPaysParams
  | .listForwardsQueryParams =>
    (fromQuery ListForwardsQueryParams.ofPairs r).map .listForwardsQueryParams
  | .newAddressQueryParams => (fromQuery NewAddressQueryParams.ofPairs r).map .newAddressQueryParams
  | .json type => (fromBody serde type r).map .json
  | .webSocketUpgrade => fromUpgrade r

/-- Extractors run in the order of the handler's arguments, and the first failure is answered. -/
def extract (params : List String) (r : HttpRequest) (extractors : List Extractor) :
    Except Rejection (List Argument) :=
  extractors.mapM (·.extract serde params r)

end Extraction

section Lemmas

theorem statusFromText_eq_some_iff {text : String} {status : ForwardEntryStatus} :
    statusFromText text = some status ↔ text = statusText status := by
  constructor
  · intro h
    unfold statusFromText at h
    split at h <;> cases h <;> rfl
  · rintro rfl
    cases status <;> rfl

theorem statusText_injective : Function.Injective statusText := by
  intro status status' h
  exact Option.some.inj ((statusFromText_eq_some_iff.mpr rfl).symm.trans
    (statusFromText_eq_some_iff.mpr h))

theorem emptyStringAsNone_eq_self_iff {value : Option String} :
    emptyStringAsNone value = value ↔ value ≠ some "" := by
  unfold emptyStringAsNone
  split
  · simp
  · simp_all

theorem mem_of_queryField {name value : String} {pairs : List (String × String)}
    (h : queryField name pairs = some (some value)) : (name, value) ∈ pairs := by
  unfold queryField at h
  split at h
  · cases h
  · rename_i pair hPair
    obtain rfl := Option.some.inj (Option.some.inj h)
    have hFiltered : pair ∈ pairs.filter fun pair => pair.1 = name := by simp [hPair]
    obtain ⟨hMem, hName⟩ := List.mem_filter.mp hFiltered
    obtain rfl := of_decide_eq_true hName
    exact hMem
  · cases h

variable {serde : SerdeJson} {params : List String} {r : HttpRequest}

theorem fromQuery_eq_ok_iff {α : Type} {ofPairs : List (String × String) → Option α}
    {argument : α → Argument} (hInjective : Function.Injective argument) {value : α} :
    (fromQuery ofPairs r).map argument = .ok (argument value) ↔
      ofPairs (parse r.query) = some value := by
  unfold fromQuery
  cases ofPairs (parse r.query) with
  | none => exact iff_of_false nofun nofun
  | some read =>
    rw [Option.some_inj]
    constructor
    · intro hOk
      exact hInjective (Except.ok.inj hOk)
    · rintro rfl
      rfl

/-- A value is never extracted of a path with two parameters. -/
theorem extract_pathString_ne_ok (hParams : params.length ≠ 1) (rest : List Extractor)
    (arguments : List Argument) : extract serde params r (.pathString :: rest) ≠ .ok arguments := by
  intro hOk
  obtain ⟨argument, _, hHead, _⟩ := ok_of_mapM_cons hOk
  unfold Extractor.extract pathParam at hHead
  cases hValues : params.mapM urlParam with
  | error rejection =>
    rw [hValues] at hHead
    cases hHead
  | ok values =>
    have hLength := (mapM_eq_ok_iff.mp hValues).length_eq
    rw [hValues] at hHead
    match values with
    | [] => cases hHead
    | [value] => exact hParams hLength
    | _ :: _ :: _ => cases hHead

end Lemmas

end Kld.Api
