import Kld.Cli.CloseChannel
import Kld.Cli.ListFilters

/-!
# The commands of the command line

A command becomes a request, which the server routes to the handler that the command is for. The
handler runs with the values of the command, but for the few that do not get there.
-/

namespace Kld.Cli.Commands

open Kld.Api Kld.Api.Router Kld.Cli.Client Fallible
open Kld.Cli.CloseChannel (paramAtEnd_closeChannel reaches_closeChannel_none
  reaches_closeChannel_some extract_pathString extract_two)
open Kld.OpenChannel (FeeRate)

inductive Command where
  | sign (message : String)
  | getInfo
  | getBalance
  | newAddress
  | withdraw (address amount : String) (feeRate : Option String)
  | listFunds
  | listPeerChannels
  | listPeers
  | connectPeer (publicKey : String)
  | disconnectPeer (publicKey : String)
  | openChannel (publicKey sats : String) (pushMsat : Option String) (announce : Option Bool)
      (feeRate : Option String)
  | setChannelFee (id : String) (baseFee ppmFee : Option UInt32)
  | closeChannel (id : String) (feeRate : Option UInt32) (forceClose : Option String)
  | networkNodes (id : Option String)
  | networkChannels (id : Option String)
  | feeRates (style : Option String)
  | keysend (publicKey : String) (amount : UInt64)
  | generateInvoice (amount : UInt64) (label description : String) (expiry : Option UInt32)
  | listInvoices (label : Option String)
  | payInvoice (bolt11 : String) (label : Option String)
  | listPayments (bolt11 direction : Option String)
  | estimateChannelLiquidity (scid : UInt64) (target : String)
  | localRemoteBalance
  | getFees
  | listForwards (status : Option String)
  | listChannelHistory
  | decode (invoice : String)
  | scorer (path : Option String)
  | listChannels

def needBroadcast : String → Except String Bool
  | "broadcast" => .ok true
  | "no-broadcast" => .ok false
  | _ => .error "the broadcast-flag need to `broadcast` or `no-broadcast`"

def runCommand : Command → Except String Request
  | .sign message => .ok (requestWithBody .post signRoute (.signRequest message))
  | .getInfo => .ok (request .get getInfoRoute)
  | .getBalance => .ok (request .get getBalanceRoute)
  | .newAddress => .ok (request .get newAddrRoute)
  | .withdraw address amount feeRate => withdraw address amount feeRate
  | .listFunds => .ok (request .get listFundsRoute)
  | .listPeerChannels => .ok (request .get listPeerChannelsRoute)
  | .listPeers => .ok (request .get listPeersRoute)
  | .connectPeer publicKey =>
    .ok (requestWithBody .post connectPeerRoute (.peerConnect publicKey))
  | .disconnectPeer publicKey => .ok (disconnectPeer publicKey)
  | .openChannel publicKey sats pushMsat announce feeRate =>
    Client.openChannel publicKey sats pushMsat announce feeRate
  | .setChannelFee id baseFee ppmFee =>
    .ok (requestWithBody .post setChannelFeeRoute (.channelFee ⟨id, baseFee, ppmFee⟩))
  | .closeChannel id feeRate none => .ok (Client.closeChannel id feeRate)
  | .closeChannel id _ (some broadcastFlag) =>
    (needBroadcast broadcastFlag).map (forceCloseChannel id)
  | .networkNodes id => .ok (listNetworkNodes id)
  | .networkChannels id => .ok (listNetworkChannels id)
  | .feeRates style => .ok (feeRates style)
  | .keysend publicKey amount =>
    .ok (requestWithBody .post keysendRoute (.keysendRequest ⟨publicKey, amount⟩))
  | .generateInvoice amount label description expiry =>
    .ok (requestWithBody .post generateInvoiceRoute
      (.generateInvoice ⟨amount, label, description, expiry⟩))
  | .listInvoices label => .ok (Client.listInvoices label)
  | .payInvoice bolt11 label =>
    .ok (requestWithBody .post payInvoiceRoute (.payInvoice ⟨bolt11, label⟩))
  | .listPayments bolt11 direction => .ok (Client.listPayments bolt11 direction)
  | .estimateChannelLiquidity scid target =>
    .ok (requestWithBody .get estimateChannelLiquidityRoute
      (.estimateChannelLiquidity ⟨scid, target⟩))
  | .localRemoteBalance => .ok (request .get localRemoteBalanceRoute)
  | .getFees => .ok (request .get getFeesRoute)
  | .listForwards status => .ok (Client.listForwards status)
  | .listChannelHistory => .ok (request .get listChannelHistoryRoute)
  | .decode invoice => .ok (Client.decode invoice)
  | .scorer _ => .ok (request .get scorerRoute)
  | .listChannels => .ok (request .get listChannelsRoute)

section Targets

def closeTarget : Option UInt32 → Option String → Handler
  | _, some "broadcast" => .forceCloseChannelWithBroadcast
  | _, some _ => .forceCloseChannelWithoutBroadcast
  | some _, none => .closeChannelWithFee
  | none, none => .closeChannel

/-- The handler that a command is for. -/
def target : Command → Handler
  | .sign _ => .sign
  | .getInfo => .getInfo
  | .getBalance => .getBalance
  | .newAddress => .newAddress
  | .withdraw .. => .transfer
  | .listFunds => .listFunds
  | .listPeerChannels => .listPeerChannels
  | .listPeers => .listPeers
  | .connectPeer _ => .connectPeer
  | .disconnectPeer _ => .disconnectPeer
  | .openChannel .. => .openChannel
  | .setChannelFee .. => .setChannelFee
  | .closeChannel _ feeRate forceClose => closeTarget feeRate forceClose
  | .networkNodes (some _) => .getNetworkNode
  | .networkNodes none => .listNetworkNodes
  | .networkChannels (some _) => .getNetworkChannel
  | .networkChannels none => .listNetworkChannels
  | .feeRates _ => .feeRates
  | .keysend .. => .keysend
  | .generateInvoice .. => .generateInvoice
  | .listInvoices _ => .listInvoices
  | .payInvoice .. => .payInvoice
  | .listPayments .. => .listPayments
  | .estimateChannelLiquidity .. => .estimateChannelLiquidityRange
  | .localRemoteBalance => .localRemoteBalance
  | .getFees => .getFees
  | .listForwards _ => .listForwards
  | .listChannelHistory => .channelHistory
  | .decode _ => .decodeInvoice
  | .scorer _ => .score
  | .listChannels => .listChannels

/-- The values of a command that are put into a path. -/
def pathValues : Command → List String
  | .disconnectPeer publicKey => [publicKey]
  | .closeChannel id (some feeRate) none => [id, toString feeRate.toNat]
  | .closeChannel id _ _ => [id]
  | .networkNodes id => id.toList
  | .networkChannels id => id.toList
  | .feeRates style => [style.getD "perkb"]
  | .decode invoice => [invoice]
  | _ => []

def feeRateOf (feeRate : Option String) : Option FeeRate :=
  feeRate.bind fun text => (FeeRate.visitStr text).toOption

/-- The values of a command, as its handler takes them. -/
def arguments : Command → List Argument
  | .sign message => [.json (.signRequest message)]
  | .newAddress => [.newAddressQueryParams ⟨none⟩]
  | .withdraw address amount feeRate =>
    [.json (.walletTransfer ⟨address, amount, feeRateOf feeRate, none, []⟩)]
  | .connectPeer publicKey => [.json (.peerConnect publicKey)]
  | .disconnectPeer publicKey => [.pathString publicKey]
  | .openChannel publicKey sats pushMsat announce feeRate =>
    [.json (.fundChannel ⟨publicKey, sats, feeRateOf feeRate, announce, none, [], pushMsat, none,
      none, none⟩)]
  | .setChannelFee id baseFee ppmFee => [.json (.channelFee ⟨id, baseFee, ppmFee⟩)]
  | .closeChannel id (some feeRate) none => [.pathString id, .pathU32 feeRate]
  | .closeChannel id _ _ => [.pathString id]
  | .networkNodes id => id.toList.map .pathString
  | .networkChannels id => id.toList.map .pathString
  | .feeRates style => [.pathString (style.getD "perkb")]
  | .keysend publicKey amount => [.json (.keysendRequest ⟨publicKey, amount⟩)]
  | .generateInvoice amount label description expiry =>
    [.json (.generateInvoice ⟨amount, label, description, expiry⟩)]
  | .listInvoices label => [.listInvoiceParams ⟨label⟩]
  | .payInvoice bolt11 label => [.json (.payInvoice ⟨bolt11, label⟩)]
  | .listPayments bolt11 direction => [.listPaysParams ⟨bolt11, direction⟩]
  | .estimateChannelLiquidity scid target => [.json (.estimateChannelLiquidity ⟨scid, target⟩)]
  | .listForwards status => [.listForwardsQueryParams ⟨status.bind statusFromText⟩]
  | .decode invoice => [.pathString invoice]
  | _ => []

/-- The command has no value that gets lost or refused on the way. A fee rate to close a channel
with, the label of an invoice and the text of a paid one are always, and so is an empty
direction and a status that the server does not know. -/
def Carried : Command → Prop
  | .closeChannel _ feeRate forceClose => feeRate = none ∨ forceClose ≠ none
  | .listInvoices label => label = none
  | .listPayments bolt11 direction => bolt11 = none ∧ direction ≠ some ""
  | .listForwards status => ∀ text, status = some text → statusFromText text ≠ none
  | _ => True

end Targets

section Paths

theorem paramAtEnd_disconnectPeer : ParamAtEnd disconnectPeerRoute "/v1/peer/disconnect/"
    ["", "v1", "peer", "disconnect"] "id" :=
  ⟨by decide, by decide, by decide, by decide, by decide, by decide⟩

theorem paramAtEnd_forceCloseWithBroadcast : ParamAtEnd forceCloseChannelWithBroadcastRoute
    "/v1/channel/forceCloseChannelWithBoradCast/"
    ["", "v1", "channel", "forceCloseChannelWithBoradCast"] "id" :=
  ⟨by decide, by decide, by decide, by decide, by decide, by decide⟩

theorem paramAtEnd_forceCloseWithoutBroadcast : ParamAtEnd forceCloseChannelWithoutBroadcastRoute
    "/v1/channel/forceCloseChannelWithoutBoradCast/"
    ["", "v1", "channel", "forceCloseChannelWithoutBoradCast"] "id" :=
  ⟨by decide, by decide, by decide, by decide, by decide, by decide⟩

theorem paramAtEnd_listNetworkNode : ParamAtEnd listNetworkNodeRoute "/v1/network/listNode/"
    ["", "v1", "network", "listNode"] "id" :=
  ⟨by decide, by decide, by decide, by decide, by decide, by decide⟩

theorem paramAtEnd_listNetworkChannel : ParamAtEnd listNetworkChannelRoute
    "/v1/network/listChannel/" ["", "v1", "network", "listChannel"] "id" :=
  ⟨by decide, by decide, by decide, by decide, by decide, by decide⟩

theorem paramAtEnd_feeRates : ParamAtEnd feeRatesRoute "/v1/network/feeRates/"
    ["", "v1", "network", "feeRates"] "style" :=
  ⟨by decide, by decide, by decide, by decide, by decide, by decide⟩

theorem paramAtEnd_decodeInvoice : ParamAtEnd decodeInvoiceRoute "/v1/utility/decode/"
    ["", "v1", "utility", "decode"] "invoice" :=
  ⟨by decide, by decide, by decide, by decide, by decide, by decide⟩

theorem needBroadcast_ok {flag : String} {mayBroadcast : Bool}
    (h : needBroadcast flag = .ok mayBroadcast) :
    flag = if mayBroadcast then "broadcast" else "no-broadcast" := by
  unfold needBroadcast at h
  split at h <;> cases h <;> rfl

theorem forceClose_cases {id : String} {feeRate : Option UInt32} {flag : String} {r : Request}
    (h : runCommand (.closeChannel id feeRate (some flag)) = .ok r) :
    flag = "broadcast" ∧ r = forceCloseChannel id true ∨
      flag = "no-broadcast" ∧ r = forceCloseChannel id false := by
  rw [runCommand] at h
  cases hFlag : needBroadcast flag with
  | error message =>
    rw [hFlag] at h
    cases h
  | ok mayBroadcast =>
    rw [hFlag] at h
    have hText := needBroadcast_ok hFlag
    obtain rfl := Except.ok.inj h
    cases mayBroadcast with
    | true => exact Or.inl ⟨hText, rfl⟩
    | false => exact Or.inr ⟨hText, rfl⟩

theorem feeRateOption_ok {feeRate : Option String} {rate : Option FeeRate}
    (h : feeRateOption feeRate = .ok rate) : rate = feeRateOf feeRate := by
  cases feeRate with
  | none => exact (Except.ok.inj h).symm
  | some text =>
    rw [feeRateOption] at h
    cases hRate : FeeRate.visitStr text with
    | error message =>
      rw [hRate] at h
      cases h
    | ok read =>
      rw [hRate] at h
      obtain rfl := Except.ok.inj h
      rw [feeRateOf, Option.bind_some, hRate]
      rfl

theorem ok_of_withFeeRate {feeRate : Option String} {make : Option FeeRate → Request}
    {r : Request} (h : (feeRateOption feeRate).map make = .ok r) :
    r = make (feeRateOf feeRate) := by
  cases hRate : feeRateOption feeRate with
  | error message =>
    rw [hRate] at h
    cases h
  | ok rate =>
    rw [hRate] at h
    rw [← feeRateOption_ok hRate]
    exact (Except.ok.inj h).symm

/-- A request gets to the handler of its command, with what was given for its path. -/
theorem reaches_target {c : Command} {r : Request} (hPlain : ∀ value ∈ pathValues c, Plain value)
    (hRequest : runCommand c = .ok r) : Reaches r (target c) (pathValues c) := by
  cases c with
  | withdraw address amount feeRate =>
    obtain rfl := ok_of_withFeeRate hRequest
    exact reaches_fixed rfl rfl rfl
  | openChannel publicKey sats pushMsat announce feeRate =>
    obtain rfl := ok_of_withFeeRate hRequest
    exact reaches_fixed rfl rfl rfl
  | disconnectPeer publicKey =>
    obtain rfl := Except.ok.inj hRequest
    exact reaches_param paramAtEnd_disconnectPeer (hPlain _ List.mem_cons_self) rfl rfl
  | closeChannel id feeRate forceClose =>
    cases forceClose with
    | none =>
      obtain rfl := Except.ok.inj hRequest
      cases feeRate with
      | none => exact reaches_closeChannel_none (hPlain _ List.mem_cons_self)
      | some feeRate => exact reaches_closeChannel_some (hPlain _ List.mem_cons_self) feeRate
    | some flag =>
      have hValues : pathValues (.closeChannel id feeRate (some flag)) = [id] := by
        cases feeRate <;> rfl
      rw [hValues] at hPlain ⊢
      obtain ⟨rfl, rfl⟩ | ⟨rfl, rfl⟩ := forceClose_cases hRequest
      · exact reaches_param paramAtEnd_forceCloseWithBroadcast (hPlain _ List.mem_cons_self) rfl rfl
      · exact reaches_param paramAtEnd_forceCloseWithoutBroadcast (hPlain _ List.mem_cons_self) rfl
          rfl
  | networkNodes id =>
    obtain rfl := Except.ok.inj hRequest
    cases id with
    | none => exact reaches_fixed rfl rfl rfl
    | some id =>
      exact reaches_param paramAtEnd_listNetworkNode (hPlain _ List.mem_cons_self) rfl rfl
  | networkChannels id =>
    obtain rfl := Except.ok.inj hRequest
    cases id with
    | none => exact reaches_fixed rfl rfl rfl
    | some id =>
      exact reaches_param paramAtEnd_listNetworkChannel (hPlain _ List.mem_cons_self) rfl rfl
  | feeRates style =>
    obtain rfl := Except.ok.inj hRequest
    exact reaches_param paramAtEnd_feeRates (hPlain _ List.mem_cons_self) rfl rfl
  | decode invoice =>
    obtain rfl := Except.ok.inj hRequest
    exact reaches_param paramAtEnd_decodeInvoice (hPlain _ List.mem_cons_self) rfl rfl
  | listInvoices label =>
    obtain rfl := Except.ok.inj hRequest
    exact reaches_listInvoices label
  | listPayments bolt11 direction =>
    obtain rfl := Except.ok.inj hRequest
    exact reaches_listPayments bolt11 direction
  | listForwards status =>
    obtain rfl := Except.ok.inj hRequest
    exact reaches_listForwards status
  | sign | getInfo | getBalance | newAddress | listFunds | listPeerChannels | listPeers
  | connectPeer | setChannelFee | keysend | generateInvoice | payInvoice | estimateChannelLiquidity
  | localRemoteBalance | getFees | listChannelHistory | scorer | listChannels =>
    -- The path of the request is the template itself.
    obtain rfl := Except.ok.inj hRequest
    exact reaches_fixed rfl rfl rfl

end Paths

section Bodies

variable {serde : SerdeJson}

/-- The server reads the body of a request as the payload that the client wrote. -/
def BodyRead (serde : SerdeJson) (r : Request) : Prop :=
  ∀ payload, r.body = some payload →
    serde.fromSlice payload.type (Utf8.encode (serde.toString payload)) = some payload

theorem extract_json {r : Request} {payload : Payload} (hBody : BodyRead serde r)
    (hPayload : r.body = some payload) (params : List String) :
    extract serde params (r.toHttp serde) [.json payload.type] = .ok [.json payload] := by
  refine mapM_eq_ok_iff.mpr (.cons ?_ .nil)
  have hText : (r.toHttp serde).body = Utf8.encode (serde.toString payload) := by
    rw [Request.toHttp, hPayload]
    rfl
  rw [Extractor.extract, fromBody, hText, hBody payload hPayload]
  rfl

end Bodies

theorem listForwards_carried_iff (status : Option String) :
    status = (status.bind statusFromText).map statusText ↔
      ∀ text, status = some text → statusFromText text ≠ none := by
  cases status with
  | none => simp
  | some text =>
    cases hText : statusFromText text with
    | none => simp [hText]
    | some known =>
      obtain rfl := statusFromText_eq_some_iff.mp hText
      simp [hText]

/-- The handler of a command runs with the values of the command exactly if these are carried. -/
theorem admitted_iff {serde : SerdeJson} {c : Command} {r : Request}
    (hPlain : ∀ value ∈ pathValues c, Plain value) (hBody : BodyRead serde r)
    (hRequest : runCommand c = .ok r) :
    admitted serde (r.toHttp serde) = .run (target c) (arguments c) ↔ Carried c := by
  have hReaches := reaches_target hPlain hRequest
  cases c with
  | listInvoices label =>
    obtain rfl := Except.ok.inj hRequest
    exact admitted_listInvoices_iff.trans (listInvoices_agrees_iff label)
  | listPayments bolt11 direction =>
    obtain rfl := Except.ok.inj hRequest
    exact admitted_listPayments_iff.trans (listPayments_agrees_iff bolt11 direction)
  | listForwards status =>
    obtain rfl := Except.ok.inj hRequest
    exact (admitted_listForwards_iff.trans listForwards_agrees_iff).trans
      (listForwards_carried_iff status)
  | closeChannel id feeRate forceClose =>
    rw [hReaches.admitted_eq_run_iff, and_iff_right rfl]
    cases forceClose with
    | none =>
      cases feeRate with
      | none =>
        exact iff_of_true (extract_pathString (hPlain _ List.mem_cons_self) _) (Or.inl rfl)
      | some feeRate =>
        refine iff_of_false ?_ (by simp [Carried])
        intro hOk
        exact nomatch (extract_two (hPlain _ List.mem_cons_self)
          (plain_toString feeRate.toNat) _ _).symm.trans hOk
    | some flag =>
      refine iff_of_true ?_ (Or.inr nofun)
      have hValues : pathValues (.closeChannel id feeRate (some flag)) = [id] := by
        cases feeRate <;> rfl
      have hArguments : arguments (.closeChannel id feeRate (some flag)) = [.pathString id] := by
        cases feeRate <;> rfl
      have hExtractors : extractors (target (.closeChannel id feeRate (some flag))) =
          [.pathString] := by
        obtain ⟨rfl, _⟩ | ⟨rfl, _⟩ := forceClose_cases hRequest <;> cases feeRate <;> rfl
      rw [hValues] at hPlain ⊢
      rw [hArguments, hExtractors]
      exact extract_pathString (hPlain _ List.mem_cons_self) _
  | disconnectPeer | feeRates | decode =>
    rw [hReaches.admitted_eq_run_iff, and_iff_right rfl]
    exact iff_of_true (extract_pathString (hPlain _ List.mem_cons_self) _) trivial
  | networkNodes id | networkChannels id =>
    rw [hReaches.admitted_eq_run_iff, and_iff_right rfl]
    refine iff_of_true ?_ trivial
    cases id with
    | none => rfl
    | some id => exact extract_pathString (hPlain _ List.mem_cons_self) _
  | withdraw | openChannel =>
    rw [hReaches.admitted_eq_run_iff, and_iff_right rfl]
    obtain rfl := ok_of_withFeeRate hRequest
    exact iff_of_true (extract_json hBody rfl _) trivial
  | sign | connectPeer | setChannelFee | keysend | generateInvoice | payInvoice
  | estimateChannelLiquidity =>
    rw [hReaches.admitted_eq_run_iff, and_iff_right rfl]
    obtain rfl := Except.ok.inj hRequest
    exact iff_of_true (extract_json hBody rfl _) trivial
  | newAddress | getInfo | getBalance | listFunds | listPeerChannels | listPeers
  | localRemoteBalance | getFees | listChannelHistory | scorer | listChannels =>
    -- Nothing is extracted, or a query that is empty.
    rw [hReaches.admitted_eq_run_iff, and_iff_right rfl]
    obtain rfl := Except.ok.inj hRequest
    exact iff_of_true rfl trivial

def signHello : Request := requestWithBody .post signRoute (.signRequest "hello")

end Kld.Cli.Commands
