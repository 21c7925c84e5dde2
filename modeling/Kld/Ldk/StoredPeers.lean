import Kld.Ldk.PeerConnections

/-!
# The addresses that are stored for peers

A call stores the address to which it has connected, and the loop dials what is stored. A
peer that is dropped is forgotten unless something is under way for it.
-/

namespace Kld.PeerConnections

open Sql Serial Transition
open Peers (Peer PeersTable fetchPeer persistPeer exampleCodec exampleKey)
open PeerManager (SocketAddress)
open SktAddr (SocketAddr)

variable {codec : Codec Peers.SocketAddress} {s s' t : State} {e : Step} {es : List Step}
  {id : Nat} {r r' : Request} {caller : Caller} {call : Call} {publicKey : PublicKey}

/-- What a connection keeps over all its statuses. -/
def Connection.origin (c : Connection) : PublicKey × Option Peers.SocketAddress × Bool :=
  (c.publicKey, c.netAddress, c.outbound)

def State.origins (s : State) : List (PublicKey × Option Peers.SocketAddress × Bool) :=
  s.connections.map Connection.origin

/-- An outbound connection to the peer at the address has been established. -/
def Dialed (s : State) (peer : Peer) : Prop := (peer.publicKey, some peer.address, true) ∈ s.origins

theorem origins_set {connection : Nat} {c : Connection} (status : Status)
    (hConnection : s.connections[connection]? = some c) :
    (s.connections.set connection { c with status }).map Connection.origin = s.origins := by
  obtain ⟨hLt, rfl⟩ := List.getElem?_eq_some_iff.mp hConnection
  rw [List.map_set]
  change (s.connections.map Connection.origin).set connection s.connections[connection].origin = _
  rw [← List.getElem_map Connection.origin (h := by rwa [List.length_map])]
  exact List.set_getElem_self _

theorem origins_cases (hStep : step codec s e = some s') :
    s'.origins = s.origins ∨
      (∃ caller peer, e = .connectOutbound caller true ∧ s.calls caller = some ⟨peer, none⟩ ∧
        s'.origins = s.origins ++ [(peer.publicKey, some peer.address, true)]) ∨
      ∃ publicKey netAddress,
        s'.origins = s.origins ++ [(publicKey, netAddress, false)] := by
  cases move_of_step hStep with
  | @connected caller peer hCall =>
    exact Or.inr (Or.inl ⟨caller, peer, rfl, hCall, by simp [State.origins, Connection.origin]⟩)
  | connectInbound publicKey netAddress =>
    exact Or.inr (Or.inr ⟨publicKey, netAddress, by simp [State.origins, Connection.origin]⟩)
  | setStatus hConnection hLeads => exact Or.inl (origins_set _ hConnection)
  | disconnectByNodeId publicKey =>
    refine Or.inl (List.map_map.trans (List.map_congr_left fun c _ => ?_))
    dsimp only [Function.comp, Connection.disconnect]
    split <;> rfl
  | restart => exact Or.inl (List.map_map.trans (List.map_congr_left fun c _ => rfl))
  | notConnected hCall => exact Or.inl (congrArg (List.map _) (finishCall_connections ..))
  | persisted hCall result => exact Or.inl (congrArg (List.map _) (finishCall_connections ..))
  | connectPeer | advance | dialRequest | dialKeeper | skip | abandon | deletePeer | scan =>
    exact Or.inl rfl

theorem dialed_mono (hStep : step codec s e = some s') {peer : Peer} (hDialed : Dialed s peer) :
    Dialed s' peer := by
  unfold Dialed
  obtain hSame | ⟨_, _, _, _, hMore⟩ | ⟨_, _, hMore⟩ := origins_cases hStep
  · rwa [hSame]
  · rw [hMore]
    exact List.mem_append_left _ hDialed
  · rw [hMore]
    exact List.mem_append_left _ hDialed

/-- The request of the label names the address, or the graph does for it. -/
def Names (publicKey : PublicKey) (address : Peers.SocketAddress) : Step → Prop
  | .connectPeer _ publicKey' (some netAddress) _ =>
    publicKey' = publicKey ∧ netAddress.inner = address
  | .connectPeer _ publicKey' none (some addresses) => publicKey' = publicKey ∧ address ∈ addresses
  | _ => False

/-- The database held the address at the start, or a request of the run has named it. -/
def Known (codec : Codec Peers.SocketAddress) (peers : PeersTable) (es : List Step)
    (peer : Peer) : Prop :=
  (∃ bytes, (peer.publicKey, bytes) ∈ peers ∧ codec.read bytes = some peer.address) ∨
    ∃ e ∈ es, Names peer.publicKey peer.address e

/-- Only what `P` allows is tried, and only what was dialed is stored. -/
structure Inv (codec : Codec Peers.SocketAddress) (peers : PeersTable) (P : Peer → Prop)
    (s : State) : Prop where
  rows : ∀ publicKey bytes, (publicKey, bytes) ∈ s.peers → (publicKey, bytes) ∈ peers ∨
    ∃ address, bytes = codec.write address ∧ Dialed s ⟨publicKey, address⟩
  calls : ∀ caller call, s.calls caller = some call →
    P call.peer ∧ (call.connection ≠ none → Dialed s call.peer)
  requests : ∀ id r, s.requests id = some r → ∀ a ∈ r.addresses, P ⟨r.publicKey, a.inner⟩
  dialed : ∀ peer, Dialed s peer → P peer

variable {peers : PeersTable} {P : Peer → Prop}

theorem mem_of_fetchPeer {peer : Peer} (h : fetchPeer codec peers publicKey = .ok (some peer)) :
    peer.publicKey = publicKey ∧
      ∃ bytes, (publicKey, bytes) ∈ peers ∧ codec.read bytes = some peer.address := by
  unfold fetchPeer at h
  split at h
  · cases h
  · rename_i row hRows
    have hRow : row ∈ peers.rows.filter fun row => row.1.1 = publicKey := by
      rw [hRows]
      exact List.mem_cons_self
    obtain ⟨hMem, hKey⟩ := List.mem_filter.mp hRow
    obtain rfl : row.1.1 = publicKey := of_decide_eq_true hKey
    unfold Peers.deserialize at h
    cases hRead : codec.read row.1.2 with
    | none =>
      rw [hRead] at h
      cases h
    | some address =>
      rw [hRead] at h
      cases h
      exact ⟨rfl, row.1.2, PeerManager.mem_rows.mp ⟨row, hMem, rfl⟩, hRead⟩
  · cases h

theorem fetchPeer_of_toDial {peer : Peer} (h : toDial codec peers publicKey = some peer) :
    fetchPeer codec peers publicKey = .ok (some peer) := by
  unfold toDial at h
  split at h
  · rename_i found hFound
    split at h
    · rw [← Option.some.inj h]
      exact hFound
    · exact nomatch h
  · exact nomatch h

theorem Inv.allows_toDial (hInv : Inv codec peers P s)
    (hStored : ∀ peer bytes, (peer.publicKey, bytes) ∈ peers →
      codec.read bytes = some peer.address → P peer) {peer : Peer}
    (hDial : toDial codec s.peers publicKey = some peer) : P peer := by
  obtain ⟨rfl, bytes, hMem, hRead⟩ := mem_of_fetchPeer (fetchPeer_of_toDial hDial)
  obtain hOld | ⟨address, rfl, hDialed⟩ := hInv.rows _ _ hMem
  · exact hStored peer bytes hOld hRead
  · rw [codec.read_write] at hRead
    obtain rfl := Option.some.inj hRead
    exact hInv.dialed _ hDialed

theorem newRequest_names (id : Nat) {peerAddress : Option SocketAddress} {a : SocketAddress}
    {graphAddresses : Option (List Peers.SocketAddress)}
    (hMem : a ∈ (newRequest publicKey peerAddress graphAddresses).addresses) :
    (newRequest publicKey peerAddress graphAddresses).publicKey = publicKey ∧
      Names publicKey a.inner (.connectPeer id publicKey peerAddress graphAddresses) := by
  cases peerAddress with
  | some netAddress =>
    rw [newRequest, List.mem_singleton] at hMem
    exact ⟨rfl, rfl, congrArg _ hMem.symm⟩
  | none =>
    cases graphAddresses with
    | none => exact absurd hMem List.not_mem_nil
    | some addresses =>
      obtain ⟨address, hAddress, rfl⟩ := List.mem_map.mp (List.mem_filter.mp hMem).1
      exact ⟨rfl, rfl, hAddress⟩

theorem inv_started : Inv codec peers P (started peers) :=
  ⟨fun _ _ hMem => Or.inl hMem, nofun, nofun, fun _ hDialed => absurd hDialed List.not_mem_nil⟩

theorem Inv.rows_step (hInv : Inv codec peers P s) (hStep : step codec s e = some s')
    {bytes : Bytes} (hMem : (publicKey, bytes) ∈ s'.peers) :
    (publicKey, bytes) ∈ peers ∨
      ∃ address, bytes = codec.write address ∧ Dialed s' ⟨publicKey, address⟩ := by
  have hKept : (publicKey, bytes) ∈ s.peers → (publicKey, bytes) ∈ peers ∨
      ∃ address, bytes = codec.write address ∧ Dialed s' ⟨publicKey, address⟩ := by
    intro hOld
    refine (hInv.rows _ _ hOld).imp_right ?_
    exact fun ⟨address, hBytes, hDialed⟩ => ⟨address, hBytes, dialed_mono hStep hDialed⟩
  obtain hSame | ⟨_, _, _, call, _, hCall, hConnected, hPeers⟩ | ⟨_, _, _, hPeers⟩ :=
    peers_cases hStep
  · exact hKept (hSame ▸ hMem)
  · rw [hPeers] at hMem
    obtain hNew | hOld := (AList.mem_insert _).mp hMem
    · obtain ⟨rfl, rfl⟩ := Prod.mk.inj hNew
      exact Or.inr ⟨_, rfl, dialed_mono hStep ((hInv.calls _ _ hCall).2 hConnected)⟩
    · exact hKept hOld
  · rw [hPeers] at hMem
    exact hKept (Table.mem_deleteWhere.mp hMem).1

theorem Inv.calls_step (hInv : Inv codec peers P s)
    (hStored : ∀ peer bytes, (peer.publicKey, bytes) ∈ peers →
      codec.read bytes = some peer.address → P peer)
    (hStep : step codec s e = some s') (hCall : s'.calls caller = some call) :
    P call.peer ∧ (call.connection ≠ none → Dialed s' call.peer) := by
  obtain hOld | ⟨hNone, hBegun⟩ | ⟨hOld, _, hConnections⟩ := call_origin hStep hCall
  · obtain ⟨hP, hDialed⟩ := hInv.calls _ _ hOld
    exact ⟨hP, fun hConnected => dialed_mono hStep (hDialed hConnected)⟩
  · refine ⟨?_, fun hConnected => absurd hNone hConnected⟩
    obtain ⟨id, r, _, hRequest, _, hKey, hAddress⟩ | ⟨_, _, _, hDial⟩ := hBegun
    · have hP := hInv.requests id r hRequest _ hAddress
      rwa [← hKey] at hP
    · exact hInv.allows_toDial hStored hDial
  · refine ⟨(hInv.calls _ _ hOld).1, fun _ => ?_⟩
    rw [Dialed, State.origins, hConnections]
    simp [Connection.origin]

theorem Inv.dialed_step (hInv : Inv codec peers P s) (hStep : step codec s e = some s')
    {peer : Peer} (hDialed : Dialed s' peer) : P peer := by
  unfold Dialed at hDialed
  obtain hSame | ⟨_, peer', _, hCall, hMore⟩ | ⟨_, _, hMore⟩ := origins_cases hStep
  · rw [hSame] at hDialed
    exact hInv.dialed peer hDialed
  · rw [hMore, List.mem_append, List.mem_singleton] at hDialed
    obtain hOld | hNew := hDialed
    · exact hInv.dialed peer hOld
    · obtain rfl : peer = peer' := by
        cases peer
        cases peer'
        simp_all
      exact (hInv.calls _ _ hCall).1
  · rw [hMore, List.mem_append, List.mem_singleton] at hDialed
    obtain hOld | hNew := hDialed
    · exact hInv.dialed peer hOld
    · simp at hNew

theorem Inv.requests_step (hInv : Inv codec peers P s)
    (hNamed : ∀ peer, Names peer.publicKey peer.address e → P peer)
    (hStep : step codec s e = some s') (hRequest : s'.requests id = some r') {a : SocketAddress}
    (hMem : a ∈ r'.addresses) : P ⟨r'.publicKey, a.inner⟩ := by
  obtain ⟨r, hOld, hFollows⟩ | ⟨_, _, _, rfl, rfl⟩ := request_origin hStep hRequest
  · rw [hFollows.publicKey]
    exact hInv.requests id r hOld a (hFollows.addresses.subset hMem)
  · obtain ⟨hKey, hNames⟩ := newRequest_names id hMem
    rw [hKey]
    exact hNamed _ hNames

theorem inv_step (hStored : ∀ peer bytes, (peer.publicKey, bytes) ∈ peers →
      codec.read bytes = some peer.address → P peer)
    (hNamed : ∀ peer, Names peer.publicKey peer.address e → P peer)
    (hInv : Inv codec peers P s) (hStep : step codec s e = some s') : Inv codec peers P s' where
  rows _ _ hMem := hInv.rows_step hStep hMem
  calls _ _ hCall := hInv.calls_step hStored hStep hCall
  requests _ _ hRequest _ hMem := hInv.requests_step hNamed hStep hRequest hMem
  dialed _ hDialed := hInv.dialed_step hStep hDialed

theorem inv_run (hStored : ∀ peer bytes, (peer.publicKey, bytes) ∈ peers →
      codec.read bytes = some peer.address → P peer)
    (hNamed : ∀ e ∈ es, ∀ peer, Names peer.publicKey peer.address e → P peer)
    (hInv : Inv codec peers P s) (hRun : run (step codec) s es = some t) :
    Inv codec peers P t := by
  induction es generalizing s with
  | nil => exact Option.some.inj hRun ▸ hInv
  | cons e es ih =>
    obtain ⟨s', hStep, hRest⟩ := run_cons_eq_some hRun
    obtain ⟨hFirst, hNamed⟩ := List.forall_mem_cons.mp hNamed
    exact ih hNamed (inv_step hStored hFirst hInv hStep) hRest

/-- Whatever the order of steps, an address is stored only after a connection to it was
established, and the only addresses dialed are those that the database held at the start and
those of requests. -/
theorem stored_address_dialed (codec : Codec Peers.SocketAddress) (peers : PeersTable)
    (es : List Step) (s : State) (hRun : run (step codec) (started peers) es = some s) :
    (∀ publicKey bytes, (publicKey, bytes) ∈ s.peers → (publicKey, bytes) ∈ peers ∨
      ∃ address, bytes = codec.write address ∧ Dialed s ⟨publicKey, address⟩) ∧
    ∀ peer, Dialed s peer → Known codec peers es peer := by
  have hInv : Inv codec peers (Known codec peers es) s := by
    refine inv_run ?_ ?_ inv_started hRun
    · exact fun peer bytes hMem hRead => Or.inl ⟨bytes, hMem, hRead⟩
    · exact fun e hMem peer hNames => Or.inr ⟨e, hMem, hNames⟩
  exact ⟨hInv.rows, hInv.dialed⟩

theorem example_stored_address_dialed :
    ∃ s, run (step exampleCodec) (started ∅) (exampleRequest :: exampleRun) = some s ∧
      ∀ peer, Dialed s peer → Known exampleCodec ∅ (exampleRequest :: exampleRun) peer :=
  ⟨_, rfl, (stored_address_dialed _ _ _ _ rfl).2⟩

/-- If requests and the database agree on one address for each peer, the lookup of the loop
never fails: it finds that address or nothing. -/
theorem lookup_of_single_address (codec : Codec Peers.SocketAddress) (peers : PeersTable)
    (es : List Step) (s : State) (addressOf : PublicKey → Peers.SocketAddress)
    (hStored : ∀ publicKey bytes, (publicKey, bytes) ∈ peers →
      bytes = codec.write (addressOf publicKey))
    (hNamed : ∀ e ∈ es, ∀ publicKey address, Names publicKey address e →
      address = addressOf publicKey)
    (hRun : run (step codec) (started peers) es = some s) (publicKey : PublicKey) :
    fetchPeer codec s.peers publicKey =
      .ok (if (publicKey, codec.write (addressOf publicKey)) ∈ s.peers then
        some ⟨publicKey, addressOf publicKey⟩ else none) := by
  have hInv : Inv codec peers (fun peer => peer.address = addressOf peer.publicKey) s := by
    refine inv_run ?_ ?_ inv_started hRun
    · intro peer bytes hMem hRead
      rw [hStored _ _ hMem, codec.read_write] at hRead
      exact (Option.some.inj hRead).symm
    · exact fun e hMem peer hNames => hNamed e hMem _ _ hNames
  have hBytes : ∀ publicKey bytes, (publicKey, bytes) ∈ s.peers →
      bytes = codec.write (addressOf publicKey) := by
    intro publicKey bytes hMem
    obtain hOld | ⟨address, rfl, hDialed⟩ := hInv.rows _ _ hMem
    · exact hStored _ _ hOld
    · rw [← hInv.dialed _ hDialed]
  have hMap : Peers.Inv codec ⟨s.peers, fun publicKey =>
      if (publicKey, codec.write (addressOf publicKey)) ∈ s.peers then
        some (addressOf publicKey) else none⟩ := by
    intro publicKey bytes
    constructor
    · intro hMem
      obtain rfl := hBytes _ _ hMem
      exact ⟨addressOf publicKey, if_pos hMem, rfl⟩
    · rintro ⟨address, hLast, rfl⟩
      obtain ⟨hMem, hSame⟩ := Option.ite_none_right_eq_some.mp hLast
      obtain rfl := Option.some.inj hSame
      exact hMem
  rw [Peers.fetchPeer_of_inv hMap]
  exact congrArg Except.ok (apply_ite (Option.map (Peer.mk publicKey)) _ _ _)

theorem example_lookup_of_single_address :
    ∃ s, run (step exampleCodec) (started ∅) (exampleRequest :: exampleRun) = some s ∧
      fetchPeer exampleCodec s.peers exampleKey =
        .ok (if (exampleKey, exampleCodec.write exampleAddress) ∈ s.peers then
          some ⟨exampleKey, exampleAddress⟩ else none) := by
  refine ⟨_, rfl, lookup_of_single_address exampleCodec ∅ (exampleRequest :: exampleRun) _
    (fun _ => exampleAddress) (fun _ _ hMem => absurd hMem (AList.notMem_empty _)) ?_ rfl _⟩
  simp [exampleRequest, exampleRun, Names, eq_comm]

/-! ## Dropped peers -/

def State.dialedTo (s : State) (publicKey : PublicKey) :
    List (PublicKey × Option Peers.SocketAddress × Bool) :=
  s.origins.filter fun origin => origin.1 = publicKey && origin.2.2

/-- Nothing is under way for the peer: no call has it, and the requests for it were answered. -/
structure Quiet (s : State) (publicKey : PublicKey) : Prop where
  calls : ∀ caller call, s.calls caller = some call → call.peer.publicKey ≠ publicKey
  requests : ∀ id r, s.requests id = some r → r.publicKey = publicKey →
    r.Answered ∧ s.calls (.request id) = none

structure Gone (s : State) (publicKey : PublicKey) : Prop extends Quiet s publicKey where
  absent : ∀ bytes, (publicKey, bytes) ∉ s.peers

def Asks (publicKey : PublicKey) : Step → Prop
  | .connectPeer _ publicKey' _ _ => publicKey' = publicKey
  | _ => False

theorem Gone.calls_step (hGone : Gone s publicKey) (hStep : step codec s e = some s')
    (hCall : s'.calls caller = some call) : call.peer.publicKey ≠ publicKey := by
  obtain hOld | ⟨_, hBegun⟩ | ⟨hOld, _⟩ := call_origin hStep hCall
  · exact hGone.calls _ _ hOld
  · obtain ⟨id, r, _, hRequest, hPending, hKey, _⟩ | ⟨_, publicKey', _, hDial⟩ := hBegun
    · exact fun hSame => hPending (hGone.requests id r hRequest (hKey.symm.trans hSame)).1
    · obtain ⟨hKey, bytes, hMem, _⟩ := mem_of_fetchPeer (fetchPeer_of_toDial hDial)
      rintro rfl
      exact hGone.absent bytes (hKey ▸ hMem)
  · exact hGone.calls caller ⟨call.peer, none⟩ hOld

theorem Gone.requests_step (hGone : Gone s publicKey) (hAsks : ¬ Asks publicKey e)
    (hStep : step codec s e = some s') (hRequest : s'.requests id = some r')
    (hKey : r'.publicKey = publicKey) : r'.Answered ∧ s'.calls (.request id) = none := by
  obtain ⟨r, hOld, hFollows⟩ | ⟨publicKey', peerAddress, graphAddresses, rfl, rfl⟩ :=
    request_origin hStep hRequest
  · obtain ⟨hAnswered, hIdle⟩ := hGone.requests id r hOld (hFollows.publicKey.symm.trans hKey)
    obtain rfl := answered_step hStep hOld hAnswered hIdle hRequest
    exact ⟨hAnswered, idle_step hStep hOld hAnswered hIdle⟩
  · refine absurd ?_ hAsks
    cases peerAddress with
    | some _ => exact hKey
    | none => cases graphAddresses <;> exact hKey

theorem Gone.absent_step (hGone : Gone s publicKey) (hStep : step codec s e = some s')
    (bytes : Bytes) : (publicKey, bytes) ∉ s'.peers := by
  intro hMem
  obtain hSame | ⟨_, _, _, call, _, hCall, _, hPeers⟩ | ⟨_, _, _, hPeers⟩ := peers_cases hStep
  · exact hGone.absent bytes (hSame ▸ hMem)
  · rw [hPeers] at hMem
    obtain hNew | hOld := (AList.mem_insert _).mp hMem
    · exact hGone.calls _ _ hCall (Prod.mk.inj hNew).1.symm
    · exact hGone.absent bytes hOld
  · rw [hPeers] at hMem
    exact hGone.absent bytes (Table.mem_deleteWhere.mp hMem).1

theorem gone_step (hGone : Gone s publicKey) (hAsks : ¬ Asks publicKey e)
    (hStep : step codec s e = some s') : Gone s' publicKey where
  calls _ _ hCall := hGone.calls_step hStep hCall
  requests _ _ hRequest hKey := hGone.requests_step hAsks hStep hRequest hKey
  absent bytes := hGone.absent_step hStep bytes

theorem Gone.dialedTo_step (hGone : Gone s publicKey) (hStep : step codec s e = some s') :
    s'.dialedTo publicKey = s.dialedTo publicKey := by
  unfold State.dialedTo
  obtain hSame | ⟨_, peer, _, hCall, hMore⟩ | ⟨_, _, hMore⟩ := origins_cases hStep
  · rw [hSame]
  · have hOther : peer.publicKey ≠ publicKey := hGone.calls _ _ hCall
    simp [hMore, hOther]
  · simp [hMore]

theorem gone_run (hGone : Gone s publicKey) (hAsks : ∀ e ∈ es, ¬ Asks publicKey e)
    (hRun : run (step codec) s es = some t) :
    Gone t publicKey ∧ t.dialedTo publicKey = s.dialedTo publicKey := by
  induction es generalizing s with
  | nil =>
    obtain rfl := Option.some.inj hRun
    exact ⟨hGone, rfl⟩
  | cons e es ih =>
    obtain ⟨s', hStep, hRest⟩ := run_cons_eq_some hRun
    obtain ⟨hFirst, hAsks⟩ := List.forall_mem_cons.mp hAsks
    obtain ⟨hEnd, hDialed⟩ := ih (gone_step hGone hFirst hStep) hAsks hRest
    exact ⟨hEnd, hDialed.trans (hGone.dialedTo_step hStep)⟩

/-- A peer that was dropped while no call and no unanswered request was under way for it is
neither stored nor dialed again, by the loop or by a request, before the next request for it. -/
theorem dropped_stays_dropped (codec : Codec Peers.SocketAddress) (s s' t : State)
    (es : List Step) (publicKey : PublicKey) (answer : Answer) (hQuiet : Quiet s publicKey)
    (hDelete : step codec s (.deletePeer publicKey answer) = some s')
    (hWritten : answer.written = true) (hAsks : ∀ e ∈ es, ¬ Asks publicKey e)
    (hRun : run (step codec) s' es = some t) :
    (∀ bytes, (publicKey, bytes) ∉ t.peers) ∧ t.dialedTo publicKey = s.dialedTo publicKey := by
  simp only [step, hWritten, if_true] at hDelete
  split at hDelete
  · obtain rfl := Option.some.inj hDelete
    have hGone : Gone { s with
        peers := Peers.deletePeer publicKey s.peers
        drops := s.drops.erase publicKey } publicKey := by
      refine ⟨⟨hQuiet.calls, hQuiet.requests⟩, fun bytes hMem => ?_⟩
      simpa using (Table.mem_deleteWhere.mp hMem).2
    obtain ⟨hEnd, hDialed⟩ := gone_run hGone hAsks hRun
    exact ⟨hEnd.absent, hDialed⟩
  · exact nomatch hDelete

/-- A stored peer was disconnected. A request for it was answered because it was connected, and
has an address left. -/
def exampleDropping : State :=
  { started (persistPeer exampleCodec ⟨exampleKey, exampleAddress⟩ ∅) with
    connections := [⟨exampleKey, some exampleAddress, true, .closed⟩]
    requests := fun id =>
      if id = 0 then some ⟨exampleKey, false, [⟨exampleAddress⟩], .answered (.ok ())⟩ else none
    drops := [exampleKey] }

theorem example_dropped_stays_dropped :
    (exampleKey, exampleCodec.write exampleAddress) ∈ exampleDropping.peers ∧
    ∃ s t, step exampleCodec exampleDropping (.deletePeer exampleKey .stored) = some s ∧
      run (step exampleCodec) s [.attempt 0, .scan [exampleKey], .fetchPeer true] = none ∧
      run (step exampleCodec) s [.scan [exampleKey], .fetchPeer true] = some t ∧
      (∀ bytes, (exampleKey, bytes) ∉ t.peers) ∧
      t.dialedTo exampleKey = [(exampleKey, some exampleAddress, true)] := by
  have hQuiet : Quiet exampleDropping exampleKey := by
    refine ⟨nofun, fun id r hRequest _ => ⟨?_, rfl⟩⟩
    obtain ⟨_, hAnswered⟩ := Option.ite_none_right_eq_some.mp hRequest
    obtain rfl := Option.some.inj hAnswered
    exact ⟨_, rfl⟩
  refine ⟨(AList.mem_insert _).mpr (Or.inl rfl), _, _, rfl, rfl, rfl, ?_⟩
  exact dropped_stays_dropped exampleCodec exampleDropping _ _ [.scan [exampleKey],
    .fetchPeer true] exampleKey .stored hQuiet rfl rfl (by simp [Asks]) rfl

/-- A call that has dialed the peer before the drop stores it again. -/
theorem call_undoes_drop (codec : Codec Peers.SocketAddress) (s : State) (caller : Caller)
    (peer : Peer) (connection : Nat) (hCall : s.calls caller = some ⟨peer, some connection⟩) :
    ∃ t, run (step codec) s [.disconnectByNodeId peer.publicKey,
        .deletePeer peer.publicKey .stored, .persistPeer caller .stored ""] = some t ∧
      (peer.publicKey, codec.write peer.address) ∈ t.peers := by
  have hDrop : peer.publicKey ∈ peer.publicKey :: s.drops := List.mem_cons_self
  simp only [run_cons, run_nil, step, Option.bind_some, if_pos hDrop, hCall,
    Payments.Answer.written]
  refine ⟨_, rfl, ?_⟩
  rw [finishCall_peers]
  exact (AList.mem_insert _).mpr (Or.inl rfl)

end Kld.PeerConnections
