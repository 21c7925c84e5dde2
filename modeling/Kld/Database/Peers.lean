import Kld.Lib.Listing
import Kld.Lib.Run
import Kld.Types

/-!
# The peers table

A peer is stored under its public key and its address together, so that a peer
announced at a second address gets a second row. The lookup that reconnects the
peers of channels accepts a single row.
-/

namespace Kld.Peers

open Sql Serial Transition

inductive SocketAddress where
  | tcpIpV4 (addr : Vector UInt8 4) (port : UInt16)
  | tcpIpV6 (addr : Vector UInt8 16) (port : UInt16)
  | onionV2 (addr : Vector UInt8 12)
  | onionV3 (ed25519Pubkey : Vector UInt8 32) (checksum : UInt16) (version : UInt8) (port : UInt16)
  | hostname (hostname : Bytes) (port : UInt16)
deriving DecidableEq, Encodable

structure Peer where
  publicKey : PublicKey
  address : SocketAddress
deriving DecidableEq

abbrev PeersTable := Table (PublicKey × Bytes) Unit

inductive FetchError where
  | rowCount
  | parsingAddress
deriving DecidableEq

section Statements

variable (codec : Codec SocketAddress)

def persistPeer (peer : Peer) (peers : PeersTable) : PeersTable :=
  peers.upsert (peer.publicKey, codec.write peer.address) () id

def deletePeer (publicKey : PublicKey) (peers : PeersTable) : PeersTable :=
  peers.deleteWhere fun key => key.1 = publicKey

def deserialize (key : PublicKey × Bytes) : Except FetchError Peer :=
  match codec.read key.2 with
  | some address => .ok ⟨key.1, address⟩
  | none => .error .parsingAddress

/-- The query of `query_opt` fails when it gets more than one row. -/
def fetchPeer (peers : PeersTable) (publicKey : PublicKey) : Except FetchError (Option Peer) :=
  match peers.rows.filter fun row => row.1.1 = publicKey with
  | [] => .ok none
  | [row] => (deserialize codec row.1).map some
  | _ => .error .rowCount

def insertPeer (found : Table PublicKey SocketAddress) (row : (PublicKey × Bytes) × Unit) :
    Except FetchError (Table PublicKey SocketAddress) :=
  (deserialize codec row.1).map fun peer => found.insert peer.publicKey peer.address

def fetchPeers (peers : PeersTable) : Except FetchError (Table PublicKey SocketAddress) :=
  peers.rows.foldlM (insertPeer codec) ∅

end Statements

inductive PeerWrite where
  | persistPeer (peer : Peer)
  | deletePeer (publicKey : PublicKey)
deriving DecidableEq

/-- The table, and the address of the last `persist_peer` of each key that was not deleted since. -/
structure State where
  peers : PeersTable
  last : PublicKey → Option SocketAddress

def initial : State := ⟨∅, fun _ => none⟩

def next (codec : Codec SocketAddress) (s : State) : PeerWrite → State
  | .persistPeer peer =>
    { peers := persistPeer codec peer s.peers
      last := Function.update s.last peer.publicKey (some peer.address) }
  | .deletePeer publicKey =>
    { peers := deletePeer publicKey s.peers
      last := Function.update s.last publicKey none }

/-- Both readers succeed and return the last addresses. -/
structure IsMap (codec : Codec SocketAddress) (s : State) : Prop where
  fetchPeer_eq : ∀ publicKey,
    fetchPeer codec s.peers publicKey = .ok ((s.last publicKey).map (Peer.mk publicKey))
  fetchPeers_eq : ∃ found, fetchPeers codec s.peers = .ok found ∧
    ∀ publicKey, found.lookup publicKey = s.last publicKey

/-- A peer that is still stored is only stored again at the same address. -/
def SameAddress (s : State) : PeerWrite → Prop
  | .persistPeer peer => ∀ address, s.last peer.publicKey = some address → peer.address = address
  | .deletePeer _ => True

def Inv (codec : Codec SocketAddress) (s : State) : Prop :=
  ∀ publicKey bytes, (publicKey, bytes) ∈ s.peers ↔
    ∃ address, s.last publicKey = some address ∧ bytes = codec.write address

variable {codec : Codec SocketAddress} {s s' : State}

def entryRow (codec : Codec SocketAddress) (entry : PublicKey × SocketAddress) :
    (PublicKey × Bytes) × Unit := ((entry.1, codec.write entry.2), ())

/-- The rows are those of the last addresses, in some order. -/
theorem entries_of_inv (h : Inv codec s) :
    ∃ entries, s.peers.rows = entries.map (entryRow codec) ∧
      Lists Prod.fst entries fun publicKey => (s.last publicKey).map (publicKey, ·) := by
  refine Lists.of_rows (fun _ _ hSame => congrArg (fun row => row.1.1) hSame)
    (Lists.rows_nodup s.peers) ?_ ?_
  · intro publicKey entry hEntry
    obtain ⟨address, _, rfl⟩ := Option.map_eq_some_iff.mp hEntry
    rfl
  · rintro ⟨⟨publicKey, bytes⟩, ⟨⟩⟩
    have hMem : ((publicKey, bytes), ()) ∈ s.peers.rows ↔ (publicKey, bytes) ∈ s.peers := by
      rw [Table.mem_rows_iff, ← AList.lookup_isSome]
      exact ⟨fun hRow => hRow ▸ rfl, Option.eq_some_of_isSome⟩
    rw [hMem, h]
    constructor
    · rintro ⟨address, hLast, rfl⟩
      exact ⟨(publicKey, address), by simp [hLast], rfl⟩
    · rintro ⟨⟨publicKey', address⟩, hEntry, hRow⟩
      cases hRow
      obtain ⟨address', hLast, hSame⟩ := Option.map_eq_some_iff.mp hEntry
      cases hSame
      exact ⟨address, hLast, rfl⟩

theorem deserialize_entryRow (entry : PublicKey × SocketAddress) :
    deserialize codec (entryRow codec entry).1 = .ok ⟨entry.1, entry.2⟩ := by
  simp [deserialize, entryRow]

theorem fetchPeer_of_inv (h : Inv codec s) (publicKey : PublicKey) :
    fetchPeer codec s.peers publicKey = .ok ((s.last publicKey).map (Peer.mk publicKey)) := by
  obtain ⟨entries, hRows, hEntries⟩ := entries_of_inv h
  unfold fetchPeer
  rw [hRows, List.filter_map, show (fun row : (PublicKey × Bytes) × Unit =>
      decide (row.1.1 = publicKey)) ∘ entryRow codec = fun entry => decide (entry.1 = publicKey)
      from rfl, hEntries.filter_key]
  cases s.last publicKey with
  | none => rfl
  | some address =>
    change (deserialize codec (entryRow codec (publicKey, address)).1).map some = _
    rw [deserialize_entryRow]
    rfl

theorem foldlM_insertPeer (entries : List (PublicKey × SocketAddress))
    (found : Table PublicKey SocketAddress) :
    (entries.map (entryRow codec)).foldlM (insertPeer codec) found =
      .ok (entries.foldl (fun found entry => found.insert entry.1 entry.2) found) := by
  induction entries generalizing found with
  | nil => rfl
  | cons entry entries ih =>
    rw [List.map_cons, List.foldlM_cons, insertPeer, deserialize_entryRow]
    exact ih _

theorem isMap_of_inv (h : Inv codec s) : IsMap codec s := by
  refine ⟨fetchPeer_of_inv h, ?_⟩
  obtain ⟨entries, hRows, hEntries⟩ := entries_of_inv h
  refine ⟨entries.foldl (fun found entry => found.insert entry.1 entry.2) ∅, ?_,
    fun publicKey => ?_⟩
  · unfold fetchPeers
    rw [hRows]
    exact foldlM_insertPeer entries ∅
  · rw [hEntries.lookup_foldl_insert]
    cases s.last publicKey <;> rfl

theorem inv_initial : Inv codec initial := fun _ _ =>
  ⟨fun h => absurd h (AList.notMem_empty _), fun ⟨_, hLast, _⟩ => by cases hLast⟩

theorem inv_next {write : PeerWrite} (hInv : Inv codec s) (hOk : SameAddress s write) :
    Inv codec (next codec s write) := by
  intro publicKey bytes
  cases write with
  | persistPeer peer =>
    have hStored : (publicKey, bytes) ∈ persistPeer codec peer s.peers ↔
        (publicKey, bytes) = (peer.publicKey, codec.write peer.address) ∨
          (publicKey, bytes) ∈ s.peers := AList.mem_insert _
    refine hStored.trans ?_
    rw [hInv]
    by_cases hKey : publicKey = peer.publicKey
    · subst hKey
      simp only [next, Function.update_self, Option.some_inj, exists_eq_left', Prod.mk.injEq,
        true_and]
      constructor
      · rintro (hNew | ⟨address, hLast, hBytes⟩)
        · exact hNew
        · rw [hOk address hLast]
          exact hBytes
      · exact Or.inl
    · simp [next, hKey]
  | deletePeer deleted =>
    refine Table.mem_deleteWhere.trans ?_
    rw [hInv]
    by_cases hKey : publicKey = deleted <;> simp [next, hKey]

/-- Two stored addresses of one key make the lookup fail. -/
theorem address_unique {publicKey : PublicKey} {bytes bytes' : Bytes} {found : Option Peer}
    (hFound : fetchPeer codec s.peers publicKey = .ok found)
    (hMem : (publicKey, bytes) ∈ s.peers) (hMem' : (publicKey, bytes') ∈ s.peers) :
    bytes = bytes' := by
  have hRow : ∀ {bytes}, (publicKey, bytes) ∈ s.peers →
      ((publicKey, bytes), ()) ∈ s.peers.rows.filter fun row => row.1.1 = publicKey := by
    intro bytes hMem
    rw [List.mem_filter, Table.mem_rows_iff]
    exact ⟨Option.eq_some_of_isSome (AList.lookup_isSome.mpr hMem), by simp⟩
  have hIn := hRow hMem
  have hIn' := hRow hMem'
  unfold fetchPeer at hFound
  cases hRows : s.peers.rows.filter fun row => row.1.1 = publicKey with
  | nil =>
    rw [hRows] at hIn
    cases hIn
  | cons row rows =>
    cases rows with
    | nil =>
      rw [hRows, List.mem_singleton] at hIn hIn'
      rw [← hIn'] at hIn
      cases hIn
      rfl
    | cons row' rows =>
      rw [hRows] at hFound
      cases hFound

theorem not_isMap_next {write : PeerWrite} (hInv : Inv codec s) (hBad : ¬ SameAddress s write) :
    ¬ IsMap codec (next codec s write) := by
  intro hMap
  cases write with
  | persistPeer peer =>
    refine hBad fun address hLast => ?_
    have hOld : (peer.publicKey, codec.write address) ∈ persistPeer codec peer s.peers :=
      (AList.mem_insert _).mpr (Or.inr ((hInv _ _).mpr ⟨address, hLast, rfl⟩))
    have hNew : (peer.publicKey, codec.write peer.address) ∈ persistPeer codec peer s.peers :=
      (AList.mem_insert _).mpr (Or.inl rfl)
    exact codec.write_injective
      (address_unique (hMap.fetchPeer_eq peer.publicKey) hNew hOld)
  | deletePeer publicKey => exact hBad trivial

/-- The peers table is a map over a whole history exactly if no peer is stored at an address
other than the one it is stored at already. -/
theorem peers_map_iff (codec : Codec SocketAddress) (writes : List PeerWrite) :
    Always (total (next codec)) (IsMap codec) initial writes ↔
      Along (total (next codec)) SameAddress initial writes := by
  have hGood : ∀ s write, Inv codec s → SameAddress s write → Inv codec (next codec s write) :=
    fun _ _ => inv_next
  exact always_iff_along_total (fun _ => isMap_of_inv) hGood (fun _ _ => not_isMap_next)
    inv_initial writes

def exampleCodec : Codec SocketAddress := .ofEncodable SocketAddress

def exampleKey : PublicKey := ⟨.replicate 33 2⟩

def exampleMove : List PeerWrite :=
  [.persistPeer ⟨exampleKey, .tcpIpV4 (.replicate 4 1) 9735⟩,
    .persistPeer ⟨exampleKey, .tcpIpV4 (.replicate 4 2) 9735⟩]

/-- A peer that moved to a second address can no longer be looked up. -/
theorem moved_peer_not_found :
    ¬ Always (total (next exampleCodec)) (IsMap exampleCodec) initial exampleMove := by
  intro hAlways
  have hStored : Inv exampleCodec (next exampleCodec initial
      (.persistPeer ⟨exampleKey, .tcpIpV4 (.replicate 4 1) 9735⟩)) :=
    inv_next inv_initial nofun
  refine not_isMap_next hStored (fun hSame : SameAddress _ (.persistPeer ⟨exampleKey, _⟩) => ?_)
    ((hAlways.2 _ rfl).2 _ rfl)
  have hAddress := hSame (.tcpIpV4 (.replicate 4 1) 9735) (by simp [next])
  exact absurd hAddress (by decide)

end Kld.Peers
