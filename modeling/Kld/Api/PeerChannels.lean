import Kld.Api.ListChannels
import Kld.Api.Invoices
import Kld.Ldk.ListPeers

/-!
# Channels with the status of their peers

The listing of the channels of peers and the listing of funds look up the peer of each
channel in the listing of peers. An amount in millisatoshis that does not fit its type
panics where overflows are checked.
-/

namespace Kld.Api

open PeerManager Fallible

inductive Opener where
  | localNode
  | remoteNode
deriving DecidableEq

inductive PeerChannelState where
  | openingd
  | channeldNormal
deriving DecidableEq

structure PeerChannel where
  nodeAlias : String
  channelId : String
  dustLimitMsat : UInt64
  features : List String
  feeBaseMsat : UInt32
  feeProportionalMillionths : UInt32
  fundingTxid : Option String
  opener : Opener
  peerConnected : Bool
  peerId : String
  isPrivate : Bool
  receivableMsat : UInt64
  shortChannelId : Option String
  spendableMsat : UInt64
  state : PeerChannelState
  ourReserveMsat : Option UInt64
  theirReserveMsat : UInt64
  toThemMsat : UInt64
  minimumHtlcInMsat : Option UInt64
  maxTotalHtlcInMsat : Option UInt64
  minimumHtlcOutMsat : UInt64
  maximumHtlcOutMsat : UInt64
  toUsMsat : UInt64
  totalMsat : UInt64
deriving DecidableEq

inductive ChannelState where
  | usable
  | ready
  | pending
deriving DecidableEq

structure ListFundsChannel where
  peerId : String
  connected : Bool
  state : ChannelState
  shortChannelId : String
  channelSat : UInt64
  ourAmountMsat : UInt64
  amountMsat : UInt64
  fundingTxid : String
  fundingOutput : UInt16
deriving DecidableEq

inductive OutputStatus where
  | confirmed
  | unconfirmed
deriving DecidableEq

structure ListFundsOutput where
  txid : String
  output : UInt32
  amountMsat : UInt64
  address : String
  scriptpubkey : String
  status : OutputStatus
  blockHeight : Option UInt32
deriving DecidableEq

structure ListFunds where
  outputs : List ListFundsOutput
  channels : List ListFundsChannel
deriving DecidableEq

/-- An output of the wallet with the height at which its transaction was confirmed. -/
structure LocalUtxo where
  txid : Txid
  vout : UInt32
  value : UInt64
  scriptPubkey : Bytes
  confirmationHeight : Option UInt32
deriving DecidableEq

/-- The texts that libraries make, and whether overflows are checked. -/
structure FundsLibrary where
  checks : Bool
  channelTypeText : Bytes → String
  addressFromScript : Bytes → Except String String
  asmText : Bytes → String

section Handlers

variable (library : FundsLibrary) (node : Node)

def orPanic {α : Type} : Option α → Except Failure α
  | some a => .ok a
  | none => .error .panic

def inMsat (satoshis : UInt64) : Except Failure UInt64 :=
  orPanic (Machine.mulU64 library.checks satoshis 1000)

def txidText (txid : Txid) : String := hexEncode txid.bytes.toList.reverse

def peerId (channel : ChannelDetails) : String := hexEncode channel.counterparty.nodeId.bytes.toList

def peerConnected (peers : List Peer) (channel : ChannelDetails) : Bool :=
  ((peers.find? fun p => p.publicKey = channel.counterparty.nodeId).map
    fun p => decide (p.status = .connected)).getD false

def fetchedPeers : Except Failure (List Peer) :=
  (listPeers node).mapError fun
    | .rowCount => .response (.internalServerError "query returned an unexpected number of rows")
    | .parsingAddress => .response (.internalServerError "Error parsing address")

def peerChannel (peers : List Peer) (channel : ChannelDetails) : Except Failure PeerChannel := do
  let config ← (channel.config.elim
    (.error (.response (.internalServerError "expected channel config"))) .ok :
      Except Failure ChannelConfig)
  let ourReserveMsat ← channel.unspendablePunishmentReserve.mapM (inMsat library)
  let theirReserveMsat ← inMsat library channel.counterparty.unspendablePunishmentReserve
  let valueMsat ← inMsat library channel.channelValueSatoshis
  let toThemMsat ← orPanic (Machine.subU64 library.checks valueMsat channel.balanceMsat)
  pure {
    nodeAlias := (node.aliasOf channel.counterparty.nodeId).getD ""
    channelId := channelIdHex channel
    dustLimitMsat := (dustExposure config.maxDustHTLCExposure).2
    features := (channel.channelType.map fun channelType =>
      formatFeatures (library.channelTypeText channelType)).getD []
    feeBaseMsat := config.forwardingFeeBaseMsat
    feeProportionalMillionths := config.forwardingFeeProportionalMillionths
    fundingTxid := channel.fundingTxo.map fun txo => txidText txo.txid
    opener := if channel.isOutbound then .localNode else .remoteNode
    peerConnected := peerConnected peers channel
    peerId := peerId channel
    isPrivate := !channel.isPublic
    receivableMsat := channel.inboundCapacityMsat
    shortChannelId := channel.shortChannelId.map fun id => toString id.toNat
    spendableMsat := channel.outboundCapacityMsat
    state := if channel.isUsable then .channeldNormal else .openingd
    ourReserveMsat
    theirReserveMsat
    toThemMsat
    minimumHtlcInMsat := channel.inboundHtlcMinimumMsat
    maxTotalHtlcInMsat := channel.inboundHtlcMaximumMsat
    minimumHtlcOutMsat := channel.nextOutboundHtlcMinimumMsat
    maximumHtlcOutMsat := channel.nextOutboundHtlcLimitMsat
    toUsMsat := channel.balanceMsat
    totalMsat := valueMsat }

def listPeerChannels : Except Failure (List PeerChannel) := do
  let peers ← fetchedPeers node
  node.channels.mapM (peerChannel library node peers)

def fundsOutput (utxo : LocalUtxo) : Except Failure ListFundsOutput := do
  let amountMsat ← inMsat library utxo.value
  let address ← (library.addressFromScript utxo.scriptPubkey).mapError fun message =>
    .response (.internalServerError message)
  pure {
    txid := txidText utxo.txid
    output := utxo.vout
    amountMsat
    address
    scriptpubkey := library.asmText utxo.scriptPubkey
    status := if utxo.confirmationHeight.isSome then .confirmed else .unconfirmed
    blockHeight := utxo.confirmationHeight }

def fundsChannel (peers : List Peer) (funded : ChannelDetails × OutPoint) :
    Except Failure ListFundsChannel := do
  let (channel, fundingTxo) := funded
  let amountMsat ← inMsat library channel.channelValueSatoshis
  pure {
    peerId := peerId channel
    connected := peerConnected peers channel
    state := if channel.isUsable then .usable
      else if channel.isChannelReady then .ready else .pending
    shortChannelId := (channel.shortChannelId.map fun id => toString id.toNat).getD ""
    channelSat := channel.channelValueSatoshis
    ourAmountMsat := channel.balanceMsat
    amountMsat
    fundingTxid := txidText fundingTxo.txid
    fundingOutput := fundingTxo.index }

def funded (channels : List ChannelDetails) : List (ChannelDetails × OutPoint) :=
  channels.filterMap fun channel => channel.fundingTxo.map (channel, ·)

def listFunds (utxos : Except String (List LocalUtxo)) : Except Failure ListFunds := do
  let utxos ← utxos.mapError fun message => .response (.internalServerError message)
  let outputs ← utxos.mapM (fundsOutput library)
  let peers ← fetchedPeers node
  let channels ← (funded node.channels).mapM (fundsChannel library peers)
  pure ⟨outputs, channels⟩

end Handlers

/-- The channels of peers say of each channel whether its peer is connected. -/
def PeerChannelsReport (library : FundsLibrary) (node : Node) : Prop :=
  ∀ entries, listPeerChannels library node = .ok entries →
    List.Forall₂ (fun channel entry =>
        entry.peerConnected = isConnected node.peerNodeIds channel.counterparty.nodeId)
      node.channels entries

/-- The funds say of each funded channel whether its peer is connected. -/
def FundsReport (library : FundsLibrary) (node : Node) : Prop :=
  ∀ utxos funds, listFunds library node utxos = .ok funds →
    List.Forall₂ (fun funded entry =>
        entry.connected = isConnected node.peerNodeIds funded.1.counterparty.nodeId)
      (funded node.channels) funds.channels

structure PeersExact (library : FundsLibrary) (node : Node) : Prop where
  listing : ∃ listing, listPeers node = .ok listing ∧ ExactUnion node listing ∧
    StatusCorrect node listing
  peerChannels : PeerChannelsReport library node
  funds : FundsReport library node

variable {library : FundsLibrary} {node : Node} {listing : List Peer} {channel : ChannelDetails}

theorem ok_of_fetchedPeers (h : fetchedPeers node = .ok listing) : listPeers node = .ok listing :=
  ok_of_mapError h

theorem peerConnected_eq (hUnion : ExactUnion node listing) (hStatus : StatusCorrect node listing)
    (hMem : channel ∈ node.channels) : peerConnected listing channel =
      isConnected node.peerNodeIds channel.counterparty.nodeId := by
  have hKey := (hUnion.keys channel.counterparty.nodeId).mpr
    (Or.inr (Or.inl (List.mem_map_of_mem hMem)))
  obtain ⟨peer, hPeer, hKey⟩ := List.mem_map.mp hKey
  cases hFind : listing.find? fun p => p.publicKey = channel.counterparty.nodeId with
  | none =>
    have hNot := List.find?_eq_none.mp hFind peer hPeer
    exact absurd (decide_eq_true hKey) hNot
  | some found =>
    have hFound : found.publicKey = channel.counterparty.nodeId :=
      of_decide_eq_true (List.find?_some hFind :)
    rw [peerConnected, hFind, ← hFound, Bool.eq_iff_iff]
    exact decide_eq_true_iff.trans (hStatus found (List.mem_of_find?_eq_some hFind))

theorem peerChannel_connected {entry : PeerChannel}
    (h : peerChannel library node listing channel = .ok entry) :
    entry.peerConnected = peerConnected listing channel := by
  unfold peerChannel at h
  obtain ⟨_, -, h⟩ := ok_of_bind h
  obtain ⟨_, -, h⟩ := ok_of_bind h
  obtain ⟨_, -, h⟩ := ok_of_bind h
  obtain ⟨_, -, h⟩ := ok_of_bind h
  obtain ⟨_, -, h⟩ := ok_of_bind h
  cases h
  rfl

theorem fundsChannel_connected {txo : OutPoint} {entry : ListFundsChannel}
    (h : fundsChannel library listing (channel, txo) = .ok entry) :
    entry.connected = peerConnected listing channel := by
  obtain ⟨_, -, h⟩ := ok_of_bind h
  cases h
  rfl

theorem peerChannelsReport (hListing : listPeers node = .ok listing)
    (hStatus : StatusCorrect node listing) : PeerChannelsReport library node := by
  intro entries h
  obtain ⟨peers, hPeers, h⟩ := ok_of_bind h
  obtain rfl := Except.ok.inj (hListing.symm.trans (ok_of_fetchedPeers hPeers))
  refine forall₂_of_mapM h fun channel hMem entry hEntry => ?_
  rw [peerChannel_connected hEntry, peerConnected_eq (listPeers_union hListing) hStatus hMem]

theorem fundsReport (hListing : listPeers node = .ok listing)
    (hStatus : StatusCorrect node listing) : FundsReport library node := by
  intro utxos funds h
  obtain ⟨_, -, h⟩ := ok_of_bind h
  obtain ⟨_, -, h⟩ := ok_of_bind h
  obtain ⟨peers, hPeers, h⟩ := ok_of_bind h
  obtain ⟨channels, hChannels, h⟩ := ok_of_bind h
  cases h
  obtain rfl := Except.ok.inj (hListing.symm.trans (ok_of_fetchedPeers hPeers))
  refine forall₂_of_mapM hChannels fun pair hMem entry hEntry => ?_
  obtain ⟨channel, hChannel, hPair⟩ := List.mem_filterMap.mp hMem
  obtain ⟨txo, _, rfl⟩ := Option.map_eq_some_iff.mp hPair
  rw [fundsChannel_connected hEntry, peerConnected_eq (listPeers_union hListing) hStatus hChannel]

theorem peersExact_iff (library : FundsLibrary) (node : Node) : PeersExact library node ↔
    AddressesRead node.codec node.peers ∧ AddressesKnown node.peerNodeIds := by
  constructor
  · rintro ⟨⟨listing, hListing, _, hStatus⟩, _, _⟩
    exact ⟨listPeers_ok_iff.mp ⟨listing, hListing⟩, (statusCorrect_iff hListing).mp hStatus⟩
  · rintro ⟨hRead, hKnown⟩
    obtain ⟨listing, hListing⟩ := listPeers_ok_iff.mpr hRead
    have hStatus := (statusCorrect_iff hListing).mpr hKnown
    exact ⟨⟨listing, hListing, listPeers_union hListing, hStatus⟩,
      peerChannelsReport hListing hStatus, fundsReport hListing hStatus⟩

def plainTexts : FundsLibrary := ⟨true, fun _ => "", fun _ => .ok "", fun _ => ""⟩

/-- The peer of a channel has connected itself, from an address that LDK does not know. -/
def inboundNode : Node where
  codec := Peers.exampleCodec
  order := ⟨id, fun _ => .refl _⟩
  peerNodeIds := [(pendingChannel.counterparty.nodeId, none)]
  channels := [pendingChannel]
  peers := ∅
  aliasOf _ := none

theorem inbound_peer_disconnected :
    (∃ listing, listPeers inboundNode = .ok listing ∧ ¬ StatusCorrect inboundNode listing) ∧
      ¬ PeerChannelsReport plainTexts inboundNode := by
  constructor
  · refine ⟨_, rfl, fun hStatus => ?_⟩
    have hPeer := hStatus _ (List.mem_singleton_self _)
    exact absurd (hPeer.mpr (by decide)) (by decide)
  · intro hReport
    cases hReport _ rfl with
    | cons hEntry _ => exact absurd hEntry (by decide)

end Kld.Api
