import Kld.Database.Peers
import Kld.Ldk.ChannelDetails
import Kld.Lib.Fallible

/-!
# The peers of a node

Peers are those that are connected, those of channels and those in the database. A peer
counts as connected if an address of its connection is known, which is not so for every
connection that the peer itself has opened.
-/

namespace Kld.PeerManager

open Peers (PeersTable FetchError fetchPeers insertPeer deserialize)
open Sql Serial

/-- The wrapper of the API around the addresses of LDK. -/
structure SocketAddress where
  inner : Peers.SocketAddress
deriving DecidableEq

/-- What LDK answers: the peers of all connections, with their addresses where they are known. -/
abbrev PeerNodeIds := List (PublicKey × Option Peers.SocketAddress)

def getConnectedPeers (peerNodeIds : PeerNodeIds) : List (PublicKey × Option SocketAddress) :=
  peerNodeIds.map fun p => (p.1, p.2.map SocketAddress.mk)

def isConnected (peerNodeIds : PeerNodeIds) (publicKey : PublicKey) : Bool :=
  peerNodeIds.any fun p => p.1 = publicKey

inductive PeerStatus where
  | connected
  | disconnected
deriving DecidableEq

structure Peer where
  publicKey : PublicKey
  netAddress : Option SocketAddress
  status : PeerStatus
  nodeAlias : String
deriving DecidableEq

/-- The order in which the elements of a hash set come. -/
structure SetOrder (α : Type) where
  arrange : List α → List α
  perm : ∀ xs, (arrange xs).Perm xs

/-- A node as `list_peers` finds it. -/
structure Node where
  codec : Codec Peers.SocketAddress
  order : SetOrder PublicKey
  peerNodeIds : PeerNodeIds
  channels : List ChannelDetails
  peers : PeersTable
  aliasOf : PublicKey → Option String

def allPubKeys (connectedPeers : List (PublicKey × Option SocketAddress))
    (channelPeers : List PublicKey)
    (persistentPeers : Table PublicKey Peers.SocketAddress) : List PublicKey :=
  (connectedPeers.map Prod.fst ++ channelPeers ++ persistentPeers.keys).dedup

def netAddressOf (connectedPeers : List (PublicKey × Option SocketAddress))
    (publicKey : PublicKey) : Option SocketAddress :=
  (connectedPeers.find? fun p => p.1 = publicKey).bind Prod.snd

def listPeers (node : Node) : Except FetchError (List Peer) := do
  let connectedPeers := getConnectedPeers node.peerNodeIds
  let channelPeers := node.channels.map fun c => c.counterparty.nodeId
  let persistentPeers ← fetchPeers node.codec node.peers
  pure ((node.order.arrange (allPubKeys connectedPeers channelPeers persistentPeers)).map
    fun publicKey =>
      let netAddress := netAddressOf connectedPeers publicKey
      { publicKey
        netAddress
        status := if netAddress.isSome then .connected else .disconnected
        nodeAlias := (node.aliasOf publicKey).getD "" })

/-- Every key of the three sources is listed once, and no other. -/
structure ExactUnion (node : Node) (listing : List Peer) : Prop where
  nodup : (listing.map Peer.publicKey).Nodup
  keys : ∀ publicKey, publicKey ∈ listing.map Peer.publicKey ↔
    publicKey ∈ node.peerNodeIds.map Prod.fst ∨
      publicKey ∈ node.channels.map (fun c => c.counterparty.nodeId) ∨
      ∃ bytes, (publicKey, bytes) ∈ node.peers

def StatusCorrect (node : Node) (listing : List Peer) : Prop :=
  ∀ peer ∈ listing, peer.status = .connected ↔ isConnected node.peerNodeIds peer.publicKey

/-- The addresses in the database are texts that can be read. -/
def AddressesRead (codec : Codec Peers.SocketAddress) (peers : PeersTable) : Prop :=
  ∀ key ∈ peers, codec.read key.2 ≠ none

/-- The first connection of every peer has an address. -/
def AddressesKnown (peerNodeIds : PeerNodeIds) : Prop :=
  ∀ publicKey p, peerNodeIds.find? (fun p => p.1 = publicKey) = some p → p.2 ≠ none

variable {node : Node} {codec : Codec Peers.SocketAddress}

theorem insertPeer_eq {row : (PublicKey × Bytes) × Unit} {address : Peers.SocketAddress}
    (h : codec.read row.1.2 = some address) (found : Table PublicKey Peers.SocketAddress) :
    insertPeer codec found row = .ok (found.insert row.1.1 address) := by
  rw [insertPeer, deserialize, h]
  rfl

theorem ok_of_insertPeer {row : (PublicKey × Bytes) × Unit}
    {found found' : Table PublicKey Peers.SocketAddress}
    (h : insertPeer codec found row = .ok found') :
    ∃ address, codec.read row.1.2 = some address ∧ found' = found.insert row.1.1 address := by
  cases hRead : codec.read row.1.2 with
  | none =>
    rw [insertPeer, deserialize, hRead] at h
    cases h
  | some address =>
    rw [insertPeer_eq hRead] at h
    exact ⟨address, rfl, (Except.ok.inj h).symm⟩

theorem keys_of_foldlM {rows : List ((PublicKey × Bytes) × Unit)}
    {found found' : Table PublicKey Peers.SocketAddress}
    (h : rows.foldlM (insertPeer codec) found = .ok found') :
    (∀ row ∈ rows, codec.read row.1.2 ≠ none) ∧
      ∀ publicKey, publicKey ∈ found' ↔
        publicKey ∈ found ∨ ∃ row ∈ rows, row.1.1 = publicKey := by
  induction rows generalizing found with
  | nil =>
    cases h
    exact ⟨fun row hMem => absurd hMem List.not_mem_nil, fun publicKey => by simp⟩
  | cons row rows ih =>
    rw [List.foldlM_cons] at h
    obtain ⟨found₁, hRow, hRows⟩ := Fallible.ok_of_bind h
    obtain ⟨address, hRead, rfl⟩ := ok_of_insertPeer hRow
    obtain ⟨hReads, hKeys⟩ := ih hRows
    refine ⟨List.forall_mem_cons.mpr ⟨hRead ▸ Option.some_ne_none _, hReads⟩, fun publicKey => ?_⟩
    rw [hKeys, AList.mem_insert, List.exists_mem_cons_iff, ← or_assoc, or_comm (a := _ = _),
      eq_comm]

theorem exists_foldlM {rows : List ((PublicKey × Bytes) × Unit)}
    (h : ∀ row ∈ rows, codec.read row.1.2 ≠ none)
    (found : Table PublicKey Peers.SocketAddress) :
    ∃ found', rows.foldlM (insertPeer codec) found = .ok found' := by
  induction rows generalizing found with
  | nil => exact ⟨found, rfl⟩
  | cons row rows ih =>
    obtain ⟨hRow, hRows⟩ := List.forall_mem_cons.mp h
    obtain ⟨address, hRead⟩ := Option.ne_none_iff_exists'.mp hRow
    rw [List.foldlM_cons, insertPeer_eq hRead]
    exact ih hRows _

theorem mem_rows {peers : PeersTable} {key : PublicKey × Bytes} :
    (∃ row ∈ peers.rows, row.1 = key) ↔ key ∈ peers := by
  rw [← List.mem_map, show peers.rows.map (fun row => row.1) = peers.keys from
    Table.rows_map_fst peers, AList.mem_keys]

theorem mem_allPubKeys {found : Table PublicKey Peers.SocketAddress}
    (hFound : fetchPeers node.codec node.peers = .ok found) (publicKey : PublicKey) :
    publicKey ∈ allPubKeys (getConnectedPeers node.peerNodeIds)
        (node.channels.map fun c => c.counterparty.nodeId) found ↔
      publicKey ∈ node.peerNodeIds.map Prod.fst ∨
        publicKey ∈ node.channels.map (fun c => c.counterparty.nodeId) ∨
        ∃ bytes, (publicKey, bytes) ∈ node.peers := by
  have hConnected : (getConnectedPeers node.peerNodeIds).map Prod.fst =
      node.peerNodeIds.map Prod.fst := by
    rw [getConnectedPeers, List.map_map]
    rfl
  have hStored : publicKey ∈ found.keys ↔ ∃ bytes, (publicKey, bytes) ∈ node.peers := by
    rw [← AList.mem_keys, (keys_of_foldlM hFound).2 publicKey]
    constructor
    · rintro (hNone | ⟨row, hMem, rfl⟩)
      · exact absurd hNone (AList.notMem_empty _)
      · exact ⟨row.1.2, mem_rows.mp ⟨row, hMem, rfl⟩⟩
    · rintro ⟨bytes, hMem⟩
      obtain ⟨row, hRow, hKey⟩ := mem_rows.mpr hMem
      exact Or.inr ⟨row, hRow, congrArg Prod.fst hKey⟩
  rw [allPubKeys, List.mem_dedup, List.mem_append, List.mem_append, hConnected, hStored, or_assoc]

theorem listPeers_union {listing : List Peer} (h : listPeers node = .ok listing) :
    ExactUnion node listing := by
  obtain ⟨found, hFound, h⟩ := Fallible.ok_of_bind h
  cases h
  have hKeys : ∀ (keys : List PublicKey) (f : PublicKey → Peer), (∀ key, (f key).publicKey = key) →
      (keys.map f).map Peer.publicKey = keys := by
    intro keys f hf
    rw [List.map_map, List.map_id'' (f := Peer.publicKey ∘ f) hf]
  constructor
  · rw [hKeys _ _ fun _ => rfl, (node.order.perm _).nodup_iff]
    exact List.nodup_dedup _
  · intro publicKey
    rw [hKeys _ _ fun _ => rfl, (node.order.perm _).mem_iff]
    exact mem_allPubKeys hFound publicKey

theorem isConnected_iff {peerNodeIds : PeerNodeIds} {publicKey : PublicKey} :
    isConnected peerNodeIds publicKey ↔ publicKey ∈ peerNodeIds.map Prod.fst := by
  simp [isConnected]

theorem netAddressOf_eq (peerNodeIds : PeerNodeIds) (publicKey : PublicKey) :
    netAddressOf (getConnectedPeers peerNodeIds) publicKey =
      ((peerNodeIds.find? fun p => p.1 = publicKey).bind Prod.snd).map SocketAddress.mk := by
  rw [netAddressOf, getConnectedPeers, List.find?_map]
  change ((peerNodeIds.find? fun p => p.1 = publicKey).map _).bind Prod.snd = _
  cases peerNodeIds.find? fun p => p.1 = publicKey <;> rfl

/-- A listed peer has the status of its connection exactly if that has an address, or is none. -/
theorem listed_status_iff (peerNodeIds : PeerNodeIds) (publicKey : PublicKey) :
    ((netAddressOf (getConnectedPeers peerNodeIds) publicKey).isSome ↔
        isConnected peerNodeIds publicKey) ↔
      ∀ p, peerNodeIds.find? (fun p => p.1 = publicKey) = some p → p.2 ≠ none := by
  rw [netAddressOf_eq, Option.isSome_map]
  cases hFind : peerNodeIds.find? fun p => p.1 = publicKey with
  | none =>
    refine iff_of_true (iff_of_false (by simp) ?_) (fun p hp => by cases hp)
    rw [isConnected, Bool.not_eq_true, List.any_eq_false]
    exact List.find?_eq_none.mp hFind
  | some p =>
    have hKey := List.find?_some hFind
    have hConnected : isConnected peerNodeIds publicKey :=
      List.any_eq_true.mpr ⟨p, List.mem_of_find?_eq_some hFind, hKey⟩
    simp [hConnected, Option.isSome_iff_ne_none]

theorem statusCorrect_iff {listing : List Peer} (h : listPeers node = .ok listing) :
    StatusCorrect node listing ↔ AddressesKnown node.peerNodeIds := by
  have hUnion := listPeers_union h
  obtain ⟨found, hFound, h⟩ := Fallible.ok_of_bind h
  cases h
  have hStatus : ∀ address : Option SocketAddress,
      (if address.isSome then PeerStatus.connected else .disconnected) = .connected ↔
        address.isSome := by
    intro address
    cases address <;> simp
  constructor
  · intro hCorrect publicKey p hFind
    have hKey : p.1 = publicKey := of_decide_eq_true (List.find?_some hFind :)
    have hListed := (hUnion.keys publicKey).mpr
      (Or.inl (List.mem_map.mpr ⟨p, List.mem_of_find?_eq_some hFind, hKey⟩))
    obtain ⟨peer, hMem, rfl⟩ := List.mem_map.mp hListed
    refine (listed_status_iff _ _).mp ?_ p hFind
    rw [← hCorrect peer hMem]
    obtain ⟨publicKey, _, rfl⟩ := List.mem_map.mp hMem
    exact (hStatus _).symm
  · intro hKnown peer hMem
    obtain ⟨publicKey, _, rfl⟩ := List.mem_map.mp hMem
    exact (hStatus _).trans ((listed_status_iff _ _).mpr (hKnown publicKey))

theorem listPeers_ok_iff :
    (∃ listing, listPeers node = .ok listing) ↔ AddressesRead node.codec node.peers := by
  constructor
  · rintro ⟨listing, h⟩ key hMem
    obtain ⟨found, hFound, _⟩ := Fallible.ok_of_bind h
    obtain ⟨row, hRow, rfl⟩ := mem_rows.mpr hMem
    exact (keys_of_foldlM hFound).1 row hRow
  · intro hRead
    obtain ⟨found, hFound⟩ : ∃ found, fetchPeers node.codec node.peers = .ok found :=
      exists_foldlM (fun row hRow => hRead row.1 (mem_rows.mp ⟨row, hRow, rfl⟩)) ∅
    cases hListing : listPeers node with
    | ok listing => exact ⟨listing, rfl⟩
    | error e =>
      rw [listPeers, hFound] at hListing
      cases hListing

theorem addressesRead_next {s : Peers.State} (h : AddressesRead codec s.peers)
    (write : Peers.PeerWrite) : AddressesRead codec (Peers.next codec s write).peers := by
  cases write with
  | persistPeer peer =>
    intro key hMem
    rcases (AList.mem_insert _).mp hMem with rfl | hMem
    · rw [codec.read_write]
      exact Option.some_ne_none _
    · exact h key hMem
  | deletePeer publicKey => exact fun key hMem => h key (Table.mem_deleteWhere.mp hMem).1

/-- Whatever was written to the table before, its addresses can be read. -/
theorem addressesRead_history (codec : Codec Peers.SocketAddress) (writes : List Peers.PeerWrite) :
    AddressesRead codec (writes.foldl (Peers.next codec) Peers.initial).peers := by
  have hNone : AddressesRead codec Peers.initial.peers := fun key hMem =>
    absurd hMem (AList.notMem_empty _)
  exact List.foldlRecOn (motive := fun s => AddressesRead codec s.peers) writes (Peers.next codec)
    hNone fun s h write _ => addressesRead_next h write

end Kld.PeerManager
