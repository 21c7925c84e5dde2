import Kld.Ldk.StoredPeers
import Kld.Lib.Trace

/-!
# A round of the loop that reconnects the peers of channels

The loop compares the peers of channels with the connections once, and then goes through
those that were not connected, one at a time, while everything else goes on. Each of them
is looked up in the table when its turn comes.
-/

namespace Kld.PeerConnections

open Sql Serial Transition
open Peers (Peer PeersTable fetchPeer persistPeer exampleCodec exampleKey)
open PeerManager (SocketAddress)

variable {codec : Codec Peers.SocketAddress} {s s' t : State} {e : Step} {es : List Step}
  {id : Nat} {r r' : Request} {caller : Caller} {call : Call} {publicKey : PublicKey}

/-- The peer that the loop takes from its queue to dial. -/
def keeperDials (codec : Codec Peers.SocketAddress) (s : State) : Step → List Peer
  | .fetchPeer true => (s.queue.head?.bind (toDial codec s.peers)).toList
  | _ => []

/-- A key that the loop takes from its queue, with the table in which it looks its peer up; the
database may fail to answer. -/
structure Lookup where
  publicKey : PublicKey
  peers : PeersTable
  reachable : Bool

def Lookup.found (codec : Codec Peers.SocketAddress) (lookup : Lookup) : Option Peer :=
  if lookup.reachable then toDial codec lookup.peers lookup.publicKey else none

def lookups (s : State) : Step → List Lookup
  | .fetchPeer reachable =>
    (s.queue.head?.map fun publicKey => ⟨publicKey, s.peers, reachable⟩).toList
  | _ => []

/-- The round goes on: the loop begins no other one and is not lost with the process. -/
def Continues : Step → Prop
  | .scan _ => False
  | .restart => False
  | _ => True

/-- During a round, the database answers, and only the loop writes rows of `keys`. -/
def Elsewhere (keys : List PublicKey) (s : State) : Step → Prop
  | .persistPeer (.request id) _ _ =>
    ∀ call, s.calls (.request id) = some call → call.peer.publicKey ∉ keys
  | .deletePeer publicKey _ => publicKey ∉ keys
  | .fetchPeer reachable => reachable = true
  | .scan _ => False
  | .restart => False
  | _ => True

/-- The rows of `keys` are those that the round has found. -/
structure RoundInv (codec : Codec Peers.SocketAddress) (keys : List PublicKey)
    (peers : PeersTable) (s : State) : Prop where
  rows : ∀ publicKey ∈ keys, ∀ bytes, (publicKey, bytes) ∈ s.peers ↔ (publicKey, bytes) ∈ peers
  queue : s.queue ⊆ keys
  call : ∀ call, s.calls .keeper = some call → call.peer.publicKey ∈ keys ∧
    (call.peer.publicKey, codec.write call.peer.address) ∈ peers

variable {keys : List PublicKey}

theorem mem_filter_rows {peers : PeersTable} {row : (PublicKey × Bytes) × Unit} :
    row ∈ peers.rows.filter (fun row => row.1.1 = publicKey) ↔
      row.1 ∈ peers ∧ row.1.1 = publicKey := by
  rw [List.mem_filter, decide_eq_true_iff, ← PeerManager.mem_rows]
  refine and_congr_left' ⟨fun hMem => ⟨row, hMem, rfl⟩, ?_⟩
  rintro ⟨row', hMem, hSame⟩
  obtain rfl : row' = row := Prod.ext hSame rfl
  exact hMem

/-- A lookup depends only on the rows of its key, in any order. -/
theorem fetchPeer_congr {peers' : PeersTable}
    (h : ∀ bytes, (publicKey, bytes) ∈ peers' ↔ (publicKey, bytes) ∈ peers) :
    fetchPeer codec peers' publicKey = fetchPeer codec peers publicKey := by
  have hPerm : (peers'.rows.filter fun row => row.1.1 = publicKey).Perm
      (peers.rows.filter fun row => row.1.1 = publicKey) := by
    refine (List.perm_ext_iff_of_nodup ((Lists.rows_nodup peers').filter _)
      ((Lists.rows_nodup peers).filter _)).mpr fun row => ?_
    rw [mem_filter_rows, mem_filter_rows]
    refine and_congr_left fun hKey => ?_
    rw [show row.1 = (publicKey, row.1.2) from Prod.ext hKey rfl, h]
  unfold fetchPeer
  cases hRows : peers.rows.filter fun row => row.1.1 = publicKey with
  | nil =>
    rw [hRows] at hPerm
    rw [hPerm.eq_nil]
  | cons row rows =>
    rw [hRows] at hPerm
    cases rows with
    | nil => rw [List.perm_singleton.mp hPerm]
    | cons row' rows =>
      have hLength := hPerm.length_eq
      split
      · rename_i hNone
        rw [hNone] at hLength
        simp at hLength
      · rename_i hOne
        rw [hOne] at hLength
        simp at hLength
      · rfl

theorem toDial_congr {peers' : PeersTable}
    (h : ∀ bytes, (publicKey, bytes) ∈ peers' ↔ (publicKey, bytes) ∈ peers) :
    toDial codec peers' publicKey = toDial codec peers publicKey := by
  unfold toDial
  rw [fetchPeer_congr h]

theorem RoundInv.rows_step (hInv : RoundInv codec keys peers s) (hElse : Elsewhere keys s e)
    (hStep : step codec s e = some s') (hKey : publicKey ∈ keys) (bytes : Bytes) :
    (publicKey, bytes) ∈ s'.peers ↔ (publicKey, bytes) ∈ peers := by
  rw [← hInv.rows publicKey hKey bytes]
  obtain hSame | ⟨caller, _, _, call, rfl, hCall, _, hPeers⟩ | ⟨deleted, _, rfl, hPeers⟩ :=
    peers_cases hStep
  · rw [hSame]
  · rw [hPeers]
    refine (AList.mem_insert _).trans (or_iff_right_of_imp fun hNew => ?_)
    obtain ⟨rfl, rfl⟩ := Prod.mk.inj hNew
    cases caller with
    | request id => exact absurd hKey (hElse call hCall)
    | keeper => exact (hInv.rows _ hKey _).mpr (hInv.call call hCall).2
  · rw [hPeers]
    refine Table.mem_deleteWhere.trans (and_iff_left ?_)
    have hOther : publicKey ≠ deleted := fun hSame => hElse (hSame ▸ hKey)
    simpa using hOther

theorem RoundInv.toDial_eq (hInv : RoundInv codec keys peers s) (hKey : publicKey ∈ keys) :
    toDial codec s.peers publicKey = toDial codec peers publicKey :=
  toDial_congr (hInv.rows publicKey hKey)

theorem RoundInv.call_step (hInv : RoundInv codec keys peers s)
    (hWritten : ∀ publicKey ∈ keys, ∀ bytes, (publicKey, bytes) ∈ peers →
      ∃ address, bytes = codec.write address)
    (hStep : step codec s e = some s') (hCall : s'.calls .keeper = some call) :
    call.peer.publicKey ∈ keys ∧
      (call.peer.publicKey, codec.write call.peer.address) ∈ peers := by
  obtain hOld | ⟨_, ⟨_, _, hCaller, _⟩ | ⟨_, publicKey, hQueue, hDial⟩⟩ | ⟨hOld, _⟩ :=
    call_origin hStep hCall
  · exact hInv.call call hOld
  · exact nomatch hCaller
  · have hKey := hInv.queue hQueue
    rw [hInv.toDial_eq hKey] at hDial
    obtain ⟨rfl, bytes, hMem, hRead⟩ := mem_of_fetchPeer (fetchPeer_of_toDial hDial)
    obtain ⟨address, rfl⟩ := hWritten _ hKey bytes hMem
    rw [codec.read_write] at hRead
    obtain rfl := Option.some.inj hRead
    exact ⟨hKey, hMem⟩
  · exact hInv.call ⟨call.peer, none⟩ hOld

/-- Only the loop itself takes keys from its queue. -/
theorem queue_step (hContinues : Continues e) (hStep : step codec s e = some s') :
    s'.queue = s.queue ∨
      ∃ publicKey reachable, e = .fetchPeer reachable ∧ s.queue = publicKey :: s'.queue := by
  cases move_of_step hStep with
  | dialKeeper hQueue hDial => exact Or.inr ⟨_, _, rfl, hQueue⟩
  | skip hQueue => exact Or.inr ⟨_, _, rfl, hQueue⟩
  | notConnected hCall => exact Or.inl (finishCall_queue ..)
  | persisted hCall result => exact Or.inl (finishCall_queue ..)
  | scan => exact absurd hContinues id
  | restart => exact absurd hContinues id
  | connectPeer | advance | dialRequest | connected | abandon | disconnectByNodeId | deletePeer
  | connectInbound | setStatus => exact Or.inl rfl

theorem lookups_of_queue (hQueue : s'.queue = s.queue) (hStep : step codec s e = some s') :
    lookups s e = [] := by
  cases e with
  | fetchPeer reachable =>
    dsimp only [step] at hStep
    split at hStep
    · rename_i publicKey queue hIdle hCons
      have hLength := congrArg List.length (hQueue.trans hCons)
      split at hStep <;> obtain rfl := Option.some.inj hStep <;> simp at hLength
    · exact nomatch hStep
  | _ => rfl

theorem lookups_step (hContinues : Continues e) (hStep : step codec s e = some s') :
    s.queue = (lookups s e).map Lookup.publicKey ++ s'.queue := by
  obtain hSame | ⟨publicKey, reachable, rfl, hQueue⟩ := queue_step hContinues hStep
  · rw [lookups_of_queue hSame hStep, hSame, List.map_nil, List.nil_append]
  · rw [lookups, hQueue]
    rfl

theorem keeperDials_eq (codec : Codec Peers.SocketAddress) (s : State) (e : Step) :
    keeperDials codec s e = (lookups s e).filterMap (Lookup.found codec) := by
  cases e with
  | fetchPeer reachable =>
    unfold keeperDials lookups
    cases s.queue with
    | nil => cases reachable <;> rfl
    | cons publicKey queue =>
      cases reachable with
      | false => rfl
      | true =>
        simp only [List.head?_cons, Option.bind_some, Option.map_some, Option.toList_some,
          List.filterMap_cons, List.filterMap_nil, Lookup.found, if_true]
        cases toDial codec s.peers publicKey <;> rfl
  | _ => rfl

theorem Elsewhere.continues (hElse : Elsewhere keys s e) : Continues e := by
  cases e with
  | scan | restart => exact hElse
  | _ => trivial

theorem roundInv_step (hWritten : ∀ publicKey ∈ keys, ∀ bytes, (publicKey, bytes) ∈ peers →
      ∃ address, bytes = codec.write address)
    (hInv : RoundInv codec keys peers s) (hElse : Elsewhere keys s e)
    (hStep : step codec s e = some s') :
    RoundInv codec keys peers s' ∧ s.queue.filterMap (toDial codec peers) =
      keeperDials codec s e ++ s'.queue.filterMap (toDial codec peers) := by
  have hRows := fun publicKey (hKey : publicKey ∈ keys) bytes =>
    hInv.rows_step hElse hStep hKey bytes
  have hCalls : ∀ call, s'.calls .keeper = some call → call.peer.publicKey ∈ keys ∧
      (call.peer.publicKey, codec.write call.peer.address) ∈ peers :=
    fun _ => hInv.call_step hWritten hStep
  obtain hSame | ⟨publicKey, reachable, rfl, hQueue⟩ := queue_step hElse.continues hStep
  · refine ⟨⟨hRows, hSame ▸ hInv.queue, hCalls⟩, ?_⟩
    rw [keeperDials_eq, lookups_of_queue hSame hStep, hSame]
    rfl
  · have hKeys := hInv.queue
    rw [hQueue] at hKeys
    obtain ⟨hKey, hRest⟩ := List.cons_subset.mp hKeys
    obtain rfl : reachable = true := hElse
    refine ⟨⟨hRows, hRest, hCalls⟩, ?_⟩
    rw [keeperDials, hQueue, List.head?_cons, Option.bind_some, hInv.toDial_eq hKey,
      List.filterMap_cons]
    cases toDial codec peers publicKey <;> rfl

theorem round_of_scan {channelPeers : List PublicKey} {s₁ : State}
    (hScan : step codec s (.scan channelPeers) = some s₁) :
    s.calls .keeper = none ∧
      s₁ = { s with queue := channelPeers.filter fun publicKey => !s.isConnected publicKey } := by
  dsimp only [step] at hScan
  split at hScan
  · rename_i hIdle hQueue
    exact ⟨hIdle, (Option.some.inj hScan).symm⟩
  · exact nomatch hScan

def exampleStored : PeersTable := persistPeer exampleCodec ⟨exampleKey, exampleAddress⟩ ∅

/-- The peer of two channels is dialed in vain and then dropped. -/
def exampleRound : List Step :=
  [.fetchPeer true, .connectOutbound .keeper false, .disconnectByNodeId exampleKey,
    .deletePeer exampleKey .stored, .fetchPeer true]

theorem example_toDial :
    toDial exampleCodec exampleStored exampleKey = some ⟨exampleKey, exampleAddress⟩ := by
  have hRows : exampleStored.rows = [((exampleKey, exampleCodec.write exampleAddress), ())] :=
    Table.rows_insert_of_notMem (AList.notMem_empty _)
  have hFetch : fetchPeer exampleCodec exampleStored exampleKey =
      .ok (some ⟨exampleKey, exampleAddress⟩) := by
    simp [fetchPeer, hRows, Peers.deserialize, Except.map]
  rw [toDial, hFetch]
  rfl

end Kld.PeerConnections
