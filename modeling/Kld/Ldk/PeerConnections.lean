import Kld.Api.SktAddr
import Kld.Ldk.PaymentRequests
import Kld.Lib.Run

/-!
# Connecting to peers

Requests to connect, requests to disconnect and the loop that reconnects the peers of
channels share the connections of LDK and the peers table. Each of them waits for LDK or
for the database between any two of its steps.
-/

namespace Kld.PeerConnections

open Sql Serial Transition
open Peers (Peer PeersTable fetchPeer persistPeer exampleKey)
open PeerManager (SocketAddress PeerNodeIds isConnected)
open SktAddr (SocketAddr SocketAddress.isIpv4)

abbrev Answer := Payments.Answer

/-- LDK lists a connection from its handshake on. The task that waits for the end of an
outbound one finishes some time after the connection was closed. -/
inductive Status where
  | handshake
  | listed
  | closed
  | finished
deriving DecidableEq

structure Connection where
  publicKey : PublicKey
  netAddress : Option Peers.SocketAddress
  outbound : Bool
  status : Status
deriving DecidableEq

inductive Stage where
  | trying
  | connecting
  | waiting (connection : Nat)
  | unlisted (connection : Nat)
  | answered (answer : Except String Unit)

/-- A request to connect, with the addresses that it has not tried yet. -/
structure Request where
  publicKey : PublicKey
  fromGraph : Bool
  addresses : List SocketAddress
  stage : Stage

inductive Caller where
  | request (id : Nat)
  | keeper
deriving DecidableEq

/-- A call of `connect_peer`, which dials the peer and then stores it. -/
structure Call where
  peer : Peer
  connection : Option Nat
deriving DecidableEq

/-- `queue` holds the unconnected peers of channels that the loop has still to go through. -/
structure State where
  connections : List Connection
  peers : PeersTable
  calls : Caller → Option Call
  requests : Nat → Option Request
  queue : List PublicKey
  drops : List PublicKey

def started (peers : PeersTable) : State := ⟨[], peers, fun _ => none, fun _ => none, [], []⟩

inductive Step where
  | connectPeer (id : Nat) (publicKey : PublicKey) (peerAddress : Option SocketAddress)
      (graphAddresses : Option (List Peers.SocketAddress))
  | attempt (id : Nat)
  | connectOutbound (caller : Caller) (success : Bool)
  | persistPeer (caller : Caller) (answer : Answer) (message : String)
  | checkConnected (id : Nat)
  | checkFinished (id : Nat)
  | abandon (id : Nat)
  | disconnectByNodeId (publicKey : PublicKey)
  | deletePeer (publicKey : PublicKey) (answer : Answer)
  | scan (channelPeers : List PublicKey)
  | fetchPeer (reachable : Bool)
  | connectInbound (publicKey : PublicKey) (netAddress : Option Peers.SocketAddress)
  | setStatus (connection : Nat) (status : Status)
  | restart

def State.peerNodeIds (s : State) : PeerNodeIds :=
  (s.connections.filter fun c => c.status = .listed).map fun c => (c.publicKey, c.netAddress)

def State.isConnected (s : State) (publicKey : PublicKey) : Bool :=
  PeerManager.isConnected s.peerNodeIds publicKey

def State.setRequest (s : State) (id : Nat) (r : Request) : State :=
  { s with requests := Function.update s.requests id (some r) }

def State.setCall (s : State) (caller : Caller) (call : Option Call) : State :=
  { s with calls := Function.update s.calls caller call }

def newRequest (publicKey : PublicKey) :
    Option SocketAddress → Option (List Peers.SocketAddress) → Request
  | some netAddress, _ => ⟨publicKey, false, [netAddress], .trying⟩
  | none, some addresses =>
    ⟨publicKey, true, (addresses.map SocketAddress.mk).filter SocketAddress.isIpv4, .trying⟩
  | none, none => ⟨publicKey, true, [], .answered (.error "No addresses found for node")⟩

/-- A failure is returned, or logged if the graph may know a further address. -/
def Request.failed (r : Request) (message : String) : Request :=
  { r with stage := if r.fromGraph then .trying else .answered (.error message) }

def noAddressLeft : String := "Could not connect to any peer addresses."

def attempt (s : State) (id : Nat) (r : Request) : State :=
  match r.addresses with
  | [] => s.setRequest id { r with stage := .answered (.error noAddressLeft) }
  | address :: addresses =>
    if s.isConnected r.publicKey then s.setRequest id { r with stage := .answered (.ok ()) }
    else
      match SocketAddr.tryFrom address with
      | .error message => s.setRequest id ({ r with addresses }.failed message)
      | .ok _ => (s.setRequest id { r with addresses, stage := .connecting }).setCall
          (.request id) (some ⟨⟨r.publicKey, address.inner⟩, none⟩)

def Request.returned (r : Request) : Except String Nat → Request
  | .ok connection => { r with stage := .waiting connection }
  | .error message => r.failed message

/-- What becomes of the result of a call; the loop ignores it. -/
def finishCall (s : State) (result : Except String Nat) : Caller → State
  | .keeper => s
  | .request id =>
    match s.requests id with
    | some r => s.setRequest id (r.returned result)
    | none => s

/-- The context of the error is not a format string. -/
def couldNotConnect : String := "Could not connect to peer \x7bpublic_key\x7d@\x7bpeer_addr\x7d"

def Connection.disconnect (publicKey : PublicKey) (c : Connection) : Connection :=
  if c.status = .listed ∧ c.publicKey = publicKey then { c with status := .closed } else c

/-- Whether a connection can pass from one status to the other. -/
def Status.leadsTo : Status → Status → Bool
  | .handshake, .listed => true
  | .handshake, .closed => true
  | .listed, .closed => true
  | .closed, .finished => true
  | _, _ => false

section Steps

variable (codec : Codec Peers.SocketAddress)

/-- The peer that the loop dials for a key, if it finds one with an address that it can dial. -/
def toDial (peers : PeersTable) (publicKey : PublicKey) : Option Peer :=
  match fetchPeer codec peers publicKey with
  | .ok (some peer) =>
    match SocketAddr.tryFrom ⟨peer.address⟩ with
    | .ok _ => some peer
    | .error _ => none
  | _ => none

def step (s : State) : Step → Option State
  | .connectPeer id publicKey peerAddress graphAddresses =>
    match s.requests id with
    | none => some (s.setRequest id (newRequest publicKey peerAddress graphAddresses))
    | some _ => none
  | .attempt id =>
    match s.requests id with
    | some r =>
      match r.stage with
      | .trying => some (attempt s id r)
      | _ => none
    | none => none
  | .connectOutbound caller success =>
    match s.calls caller with
    | some ⟨peer, none⟩ =>
      if success then
        some { s.setCall caller (some ⟨peer, some s.connections.length⟩) with
          connections := s.connections ++
            [⟨peer.publicKey, some peer.address, true, .handshake⟩] }
      else some (finishCall (s.setCall caller none) (.error couldNotConnect) caller)
    | _ => none
  | .persistPeer caller answer message =>
    match s.calls caller with
    | some ⟨peer, some connection⟩ =>
      let stored := { s.setCall caller none with
        peers := if answer.written then persistPeer codec peer s.peers else s.peers }
      some (finishCall stored (if answer = .stored then .ok connection else .error message) caller)
    | _ => none
  | .checkConnected id =>
    match s.requests id with
    | some r =>
      match r.stage with
      | .waiting connection => some (s.setRequest id { r with
          stage := if s.isConnected r.publicKey then .answered (.ok ()) else .unlisted connection })
      | _ => none
    | none => none
  | .checkFinished id =>
    match s.requests id with
    | some r =>
      match r.stage with
      | .unlisted connection => some (s.setRequest id
          (if (s.connections[connection]?).any fun c => c.status = .finished then
            r.failed "Peer disconnected"
          else { r with stage := .waiting connection }))
      | _ => none
    | none => none
  | .abandon id => some { s.setCall (.request id) none with
      requests := Function.update s.requests id none }
  | .disconnectByNodeId publicKey => some { s with
      connections := s.connections.map (Connection.disconnect publicKey)
      drops := publicKey :: s.drops }
  | .deletePeer publicKey answer =>
    if publicKey ∈ s.drops then
      some { s with
        peers := if answer.written then Peers.deletePeer publicKey s.peers else s.peers
        drops := s.drops.erase publicKey }
    else none
  | .scan channelPeers =>
    match s.calls .keeper, s.queue with
    | none, [] => some { s with
        queue := channelPeers.filter fun publicKey => !s.isConnected publicKey }
    | _, _ => none
  | .fetchPeer reachable =>
    match s.calls .keeper, s.queue with
    | none, publicKey :: queue =>
      if reachable then
        some { s.setCall .keeper ((toDial codec s.peers publicKey).map (⟨·, none⟩)) with queue }
      else some { s with queue }
    | _, _ => none
  | .connectInbound publicKey netAddress => some { s with
      connections := s.connections ++ [⟨publicKey, netAddress, false, .handshake⟩] }
  | .setStatus connection status =>
    match s.connections[connection]? with
    | some c =>
      if c.status.leadsTo status then
        some { s with connections := s.connections.set connection { c with status } }
      else none
    | none => none
  | .restart => some { started s.peers with
      connections := s.connections.map fun c => { c with status := .finished } }

end Steps

variable {codec : Codec Peers.SocketAddress} {s s' t : State} {e : Step} {es : List Step}
  {id : Nat} {r r' : Request} {caller : Caller} {call : Call} {publicKey : PublicKey}

/-! ## What a step changes -/

@[simp] theorem finishCall_peers (s : State) (result : Except String Nat) (caller : Caller) :
    (finishCall s result caller).peers = s.peers := by
  cases caller with
  | keeper => rfl
  | request id =>
    dsimp only [finishCall]
    split <;> rfl

@[simp] theorem finishCall_calls (s : State) (result : Except String Nat) (caller : Caller) :
    (finishCall s result caller).calls = s.calls := by
  cases caller with
  | keeper => rfl
  | request id =>
    dsimp only [finishCall]
    split <;> rfl

@[simp] theorem finishCall_queue (s : State) (result : Except String Nat) (caller : Caller) :
    (finishCall s result caller).queue = s.queue := by
  cases caller with
  | keeper => rfl
  | request id =>
    dsimp only [finishCall]
    split <;> rfl

@[simp] theorem finishCall_connections (s : State) (result : Except String Nat)
    (caller : Caller) : (finishCall s result caller).connections = s.connections := by
  cases caller with
  | keeper => rfl
  | request id =>
    dsimp only [finishCall]
    split <;> rfl

@[simp] theorem failed_publicKey (r : Request) (message : String) :
    (r.failed message).publicKey = r.publicKey := rfl

@[simp] theorem failed_fromGraph (r : Request) (message : String) :
    (r.failed message).fromGraph = r.fromGraph := rfl

@[simp] theorem failed_addresses (r : Request) (message : String) :
    (r.failed message).addresses = r.addresses := rfl

/-- The later states of a request: its peer stays, and addresses are only used up. -/
structure Request.Follows (r' r : Request) : Prop where
  publicKey : r'.publicKey = r.publicKey
  fromGraph : r'.fromGraph = r.fromGraph
  addresses : r'.addresses <:+ r.addresses

theorem Request.Follows.refl (r : Request) : r.Follows r := ⟨rfl, rfl, List.suffix_refl _⟩

theorem Request.Follows.trans {r'' : Request} (h' : r''.Follows r') (h : r'.Follows r) :
    r''.Follows r :=
  ⟨h'.publicKey.trans h.publicKey, h'.fromGraph.trans h.fromGraph,
    h'.addresses.trans h.addresses⟩

theorem returned_follows (r : Request) (result : Except String Nat) :
    (r.returned result).Follows r := by
  cases result <;> exact ⟨rfl, rfl, List.suffix_refl _⟩

/-- Whether the answer is the one of a peer that was found connected. -/
def Request.Connected (r : Request) : Prop := r.stage = .answered (.ok ())

/-- The graph is asked for further addresses before a request is refused. -/
def Request.RefusedLast (r : Request) : Prop :=
  ∀ message, r.stage = .answered (.error message) → r.fromGraph = true → r.addresses = []

def Request.Answered (r : Request) : Prop := ∃ answer, r.stage = .answered answer

theorem not_answered {stage : Stage} (hStage : r.stage = stage)
    (hNot : ∀ answer, stage ≠ .answered answer) : ¬ r.Answered :=
  fun ⟨answer, hAnswer⟩ => hNot answer (hStage.symm.trans hAnswer)

/-- A step of a request on its own. -/
structure Request.Advances (s : State) (e : Step) (id : Nat) (r r' : Request) : Prop
    extends r'.Follows r where
  pending : ¬ r.Answered
  addresses_eq : e ≠ .attempt id → r'.addresses = r.addresses
  connected : r'.Connected → s.isConnected r.publicKey = true
  refusedLast : r'.RefusedLast

/-- What the steps do, with what each of them finds. -/
inductive Move (codec : Codec Peers.SocketAddress) (s : State) : Step → State → Prop where
  | connectPeer {id : Nat} {publicKey : PublicKey} {peerAddress : Option SocketAddress}
      {graphAddresses : Option (List Peers.SocketAddress)} (hNew : s.requests id = none) :
      Move codec s (.connectPeer id publicKey peerAddress graphAddresses)
        (s.setRequest id (newRequest publicKey peerAddress graphAddresses))
  | advance {e : Step} {id : Nat} {r r' : Request} (hRequest : s.requests id = some r)
      (hAdvances : r.Advances s e id r') : Move codec s e (s.setRequest id r')
  | dialRequest {id : Nat} {r : Request} {address : SocketAddress}
      {addresses : List SocketAddress} (hRequest : s.requests id = some r)
      (hPending : ¬ r.Answered) (hAddresses : r.addresses = address :: addresses) :
      Move codec s (.attempt id)
        ((s.setRequest id { r with addresses, stage := .connecting }).setCall (.request id)
          (some ⟨⟨r.publicKey, address.inner⟩, none⟩))
  | dialKeeper {publicKey : PublicKey} {queue : List PublicKey} {peer : Peer}
      (hQueue : s.queue = publicKey :: queue) (hDial : toDial codec s.peers publicKey = some peer) :
      Move codec s (.fetchPeer true) { s.setCall .keeper (some ⟨peer, none⟩) with queue }
  | skip {reachable : Bool} {publicKey : PublicKey} {queue : List PublicKey}
      (hQueue : s.queue = publicKey :: queue) :
      Move codec s (.fetchPeer reachable) { s with queue }
  | connected {caller : Caller} {peer : Peer} (hCall : s.calls caller = some ⟨peer, none⟩) :
      Move codec s (.connectOutbound caller true)
        { s.setCall caller (some ⟨peer, some s.connections.length⟩) with
          connections := s.connections ++
            [⟨peer.publicKey, some peer.address, true, .handshake⟩] }
  | notConnected {caller : Caller} {peer : Peer} (hCall : s.calls caller = some ⟨peer, none⟩) :
      Move codec s (.connectOutbound caller false)
        (finishCall (s.setCall caller none) (.error couldNotConnect) caller)
  | persisted {caller : Caller} {peer : Peer} {connection : Nat} {answer : Answer}
      {message : String} (hCall : s.calls caller = some ⟨peer, some connection⟩)
      (result : Except String Nat) :
      Move codec s (.persistPeer caller answer message)
        (finishCall { s.setCall caller none with
          peers := if answer.written then persistPeer codec peer s.peers else s.peers }
          result caller)
  | abandon (id : Nat) : Move codec s (.abandon id)
      { s.setCall (.request id) none with requests := Function.update s.requests id none }
  | disconnectByNodeId (publicKey : PublicKey) : Move codec s (.disconnectByNodeId publicKey)
      { s with
        connections := s.connections.map (Connection.disconnect publicKey)
        drops := publicKey :: s.drops }
  | deletePeer {publicKey : PublicKey} {answer : Answer} (hDrop : publicKey ∈ s.drops) :
      Move codec s (.deletePeer publicKey answer)
        { s with
          peers := if answer.written then Peers.deletePeer publicKey s.peers else s.peers
          drops := s.drops.erase publicKey }
  | scan {channelPeers : List PublicKey} (hIdle : s.calls .keeper = none) (hQueue : s.queue = []) :
      Move codec s (.scan channelPeers)
        { s with queue := channelPeers.filter fun publicKey => !s.isConnected publicKey }
  | connectInbound (publicKey : PublicKey) (netAddress : Option Peers.SocketAddress) :
      Move codec s (.connectInbound publicKey netAddress)
        { s with connections := s.connections ++ [⟨publicKey, netAddress, false, .handshake⟩] }
  | setStatus {connection : Nat} {status : Status} {c : Connection}
      (hConnection : s.connections[connection]? = some c)
      (hLeads : c.status.leadsTo status = true) :
      Move codec s (.setStatus connection status)
        { s with connections := s.connections.set connection { c with status } }
  | restart : Move codec s .restart
      { started s.peers with
        connections := s.connections.map fun c => { c with status := .finished } }

theorem failed_not_connected (r : Request) (message : String) :
    ¬ (r.failed message).Connected := by
  unfold Request.Connected Request.failed
  split <;> exact nofun

theorem failed_refusedLast (r : Request) (message : String) :
    (r.failed message).RefusedLast := by
  intro message' hStage hGraph
  unfold Request.failed at hStage
  rw [failed_fromGraph] at hGraph
  rw [hGraph] at hStage
  exact nomatch hStage

theorem move_attempt (hRequest : s.requests id = some r) (hPending : ¬ r.Answered) :
    Move codec s (.attempt id) (attempt s id r) := by
  unfold attempt
  split
  · rename_i hNone
    exact .advance hRequest ⟨⟨rfl, rfl, List.suffix_refl _⟩, hPending, fun h => absurd rfl h,
      nofun, fun _ _ _ => hNone⟩
  · rename_i address addresses hAddresses
    have hSuffix : addresses <:+ r.addresses := hAddresses ▸ List.suffix_cons ..
    split
    · rename_i hConnected
      exact .advance hRequest ⟨⟨rfl, rfl, List.suffix_refl _⟩, hPending,
        fun h => absurd rfl h, fun _ => hConnected, nofun⟩
    · split
      · exact .advance hRequest ⟨⟨rfl, rfl, hSuffix⟩, hPending, fun h => absurd rfl h,
          fun h => absurd h (failed_not_connected _ _), failed_refusedLast _ _⟩
      · exact .dialRequest hRequest hPending hAddresses

theorem move_checkConnected {connection : Nat} (hRequest : s.requests id = some r)
    (hPending : ¬ r.Answered) :
    Move codec s (.checkConnected id) (s.setRequest id { r with
      stage := if s.isConnected r.publicKey then .answered (.ok ())
        else .unlisted connection }) := by
  refine .advance hRequest ⟨⟨rfl, rfl, List.suffix_refl _⟩, hPending, fun _ => rfl,
    fun h => ?_, ?_⟩
  · unfold Request.Connected at h
    split at h
    · rename_i hConnected
      exact hConnected
    · exact nomatch h
  · intro message hStage
    dsimp only at hStage
    split at hStage <;> exact nomatch hStage

theorem move_checkFinished {connection : Nat} (finished : Bool)
    (hRequest : s.requests id = some r) (hPending : ¬ r.Answered) :
    Move codec s (.checkFinished id) (s.setRequest id
      (if finished then r.failed "Peer disconnected"
        else { r with stage := .waiting connection })) := by
  cases finished with
  | true =>
    exact .advance hRequest ⟨⟨rfl, rfl, List.suffix_refl _⟩, hPending, fun _ => rfl,
      fun h => absurd h (failed_not_connected _ _), failed_refusedLast _ _⟩
  | false =>
    exact .advance hRequest ⟨⟨rfl, rfl, List.suffix_refl _⟩, hPending, fun _ => rfl, nofun, nofun⟩

theorem move_fetchPeer {queue : List PublicKey} (hIdle : s.calls .keeper = none)
    (hQueue : s.queue = publicKey :: queue) :
    Move codec s (.fetchPeer true)
      { s.setCall .keeper ((toDial codec s.peers publicKey).map (⟨·, none⟩)) with queue } := by
  cases hDial : toDial codec s.peers publicKey with
  | none =>
    have hSame : s.setCall .keeper none = s := by
      rw [State.setCall, ← hIdle, Function.update_eq_self]
    rw [Option.map_none, hSame]
    exact .skip hQueue
  | some peer => exact .dialKeeper hQueue hDial

theorem move_of_step (hStep : step codec s e = some s') : Move codec s e s' := by
  cases e with
  | connectPeer id publicKey peerAddress graphAddresses =>
    dsimp only [step] at hStep
    split at hStep
    · rename_i hNew
      obtain rfl := Option.some.inj hStep
      exact .connectPeer hNew
    · exact nomatch hStep
  | attempt id =>
    dsimp only [step] at hStep
    split at hStep
    · rename_i r hRequest
      split at hStep
      · rename_i hStage
        obtain rfl := Option.some.inj hStep
        exact move_attempt hRequest (not_answered hStage nofun)
      · exact nomatch hStep
    · exact nomatch hStep
  | connectOutbound caller success =>
    dsimp only [step] at hStep
    split at hStep
    · rename_i peer hCall
      cases success with
      | true =>
        obtain rfl := Option.some.inj hStep
        exact .connected hCall
      | false =>
        obtain rfl := Option.some.inj hStep
        exact .notConnected hCall
    · exact nomatch hStep
  | persistPeer caller answer message =>
    dsimp only [step] at hStep
    split at hStep
    · rename_i peer connection hCall
      obtain rfl := Option.some.inj hStep
      exact .persisted hCall _
    · exact nomatch hStep
  | checkConnected id =>
    dsimp only [step] at hStep
    split at hStep
    · rename_i r hRequest
      split at hStep
      · rename_i hStage
        obtain rfl := Option.some.inj hStep
        exact move_checkConnected hRequest (not_answered hStage nofun)
      · exact nomatch hStep
    · exact nomatch hStep
  | checkFinished id =>
    dsimp only [step] at hStep
    split at hStep
    · rename_i r hRequest
      split at hStep
      · rename_i hStage
        obtain rfl := Option.some.inj hStep
        exact move_checkFinished _ hRequest (not_answered hStage nofun)
      · exact nomatch hStep
    · exact nomatch hStep
  | abandon id =>
    obtain rfl := Option.some.inj hStep
    exact .abandon id
  | disconnectByNodeId publicKey =>
    obtain rfl := Option.some.inj hStep
    exact .disconnectByNodeId publicKey
  | deletePeer publicKey answer =>
    dsimp only [step] at hStep
    split at hStep
    · rename_i hDrop
      obtain rfl := Option.some.inj hStep
      exact .deletePeer hDrop
    · exact nomatch hStep
  | scan channelPeers =>
    dsimp only [step] at hStep
    split at hStep
    · rename_i hIdle hQueue
      obtain rfl := Option.some.inj hStep
      exact .scan hIdle hQueue
    · exact nomatch hStep
  | fetchPeer reachable =>
    dsimp only [step] at hStep
    split at hStep
    · rename_i publicKey queue hIdle hQueue
      cases reachable with
      | true =>
        obtain rfl := Option.some.inj hStep
        exact move_fetchPeer hIdle hQueue
      | false =>
        obtain rfl := Option.some.inj hStep
        exact .skip hQueue
    · exact nomatch hStep
  | connectInbound publicKey netAddress =>
    obtain rfl := Option.some.inj hStep
    exact .connectInbound publicKey netAddress
  | setStatus connection status =>
    dsimp only [step] at hStep
    split at hStep
    · rename_i c hConnection
      split at hStep
      · rename_i hLeads
        obtain rfl := Option.some.inj hStep
        exact .setStatus hConnection hLeads
      · exact nomatch hStep
    · exact nomatch hStep
  | restart =>
    obtain rfl := Option.some.inj hStep
    exact .restart

theorem requests_setRequest {id' : Nat} (s : State) (r : Request)
    (hRequest : (s.setRequest id r).requests id' = some r') :
    (id' = id ∧ r' = r) ∨ s.requests id' = some r' := by
  obtain hSame | hOther := PartialMap.update_eq_some_iff.mp hRequest
  · exact Or.inl hSame
  · exact Or.inr hOther.2

theorem requests_finishCall (s : State) (result : Except String Nat) (caller : Caller)
    (hRequest : (finishCall s result caller).requests id = some r') :
    ∃ r, s.requests id = some r ∧ r'.Follows r := by
  cases caller with
  | keeper => exact ⟨r', hRequest, .refl r'⟩
  | request id' =>
    dsimp only [finishCall] at hRequest
    split at hRequest
    · rename_i r hOld
      obtain ⟨rfl, rfl⟩ | hOther := requests_setRequest s _ hRequest
      · exact ⟨r, hOld, returned_follows r result⟩
      · exact ⟨r', hOther, .refl r'⟩
    · exact ⟨r', hRequest, .refl r'⟩

/-- A request after a step: it is new, or follows the one before. -/
theorem request_origin (hStep : step codec s e = some s') (hRequest : s'.requests id = some r') :
    (∃ r, s.requests id = some r ∧ r'.Follows r) ∨
      ∃ publicKey peerAddress graphAddresses,
        e = .connectPeer id publicKey peerAddress graphAddresses ∧
          r' = newRequest publicKey peerAddress graphAddresses := by
  cases move_of_step hStep with
  | connectPeer hNew =>
    obtain ⟨rfl, rfl⟩ | hOther := requests_setRequest s _ hRequest
    · exact Or.inr ⟨_, _, _, rfl, rfl⟩
    · exact Or.inl ⟨r', hOther, .refl r'⟩
  | advance hOld hAdvances =>
    obtain ⟨rfl, rfl⟩ | hOther := requests_setRequest s _ hRequest
    · exact Or.inl ⟨_, hOld, hAdvances.toFollows⟩
    · exact Or.inl ⟨r', hOther, .refl r'⟩
  | dialRequest hOld _ hAddresses =>
    obtain ⟨rfl, rfl⟩ | hOther := requests_setRequest s _ hRequest
    · exact Or.inl ⟨_, hOld, rfl, rfl, hAddresses ▸ List.suffix_cons ..⟩
    · exact Or.inl ⟨r', hOther, .refl r'⟩
  | notConnected hCall =>
    have hOld := requests_finishCall _ _ _ hRequest
    exact Or.inl hOld
  | persisted hCall result =>
    have hOld := requests_finishCall _ _ _ hRequest
    exact Or.inl hOld
  | abandon id' =>
    change Function.update s.requests id' none id = some r' at hRequest
    by_cases hSame : id = id'
    · rw [hSame, Function.update_self] at hRequest
      exact nomatch hRequest
    · rw [Function.update_of_ne hSame] at hRequest
      exact Or.inl ⟨r', hRequest, .refl r'⟩
  | restart => exact nomatch hRequest
  | dialKeeper | skip | connected | disconnectByNodeId | deletePeer | scan | connectInbound
  | setStatus => exact Or.inl ⟨r', hRequest, .refl r'⟩

theorem calls_setCall {caller' : Caller} {call' : Option Call}
    (hCall : (s.setCall caller call').calls caller' = some call) :
    (caller' = caller ∧ call' = some call) ∨ s.calls caller' = some call := by
  change Function.update s.calls caller call' caller' = some call at hCall
  by_cases hSame : caller' = caller
  · rw [hSame, Function.update_self] at hCall
    exact Or.inl ⟨hSame, hCall⟩
  · rw [Function.update_of_ne hSame] at hCall
    exact Or.inr hCall

/-- A call after a step: it was there, or has begun for a request or in the loop, or has just
been connected. -/
theorem call_origin (hStep : step codec s e = some s') (hCall : s'.calls caller = some call) :
    s.calls caller = some call ∨
      (call.connection = none ∧
        ((∃ id r, caller = .request id ∧ s.requests id = some r ∧ ¬ r.Answered ∧
            call.peer.publicKey = r.publicKey ∧ ⟨call.peer.address⟩ ∈ r.addresses) ∨
          (caller = .keeper ∧
            ∃ publicKey ∈ s.queue, toDial codec s.peers publicKey = some call.peer))) ∨
      (s.calls caller = some ⟨call.peer, none⟩ ∧ call.connection = some s.connections.length ∧
        s'.connections = s.connections ++
          [⟨call.peer.publicKey, some call.peer.address, true, .handshake⟩]) := by
  cases move_of_step hStep with
  | dialRequest hRequest hPending hAddresses =>
    obtain ⟨rfl, hNew⟩ | hOld := calls_setCall hCall
    · obtain rfl := Option.some.inj hNew
      refine Or.inr (Or.inl ⟨rfl, Or.inl ⟨_, _, rfl, hRequest, hPending, rfl, ?_⟩⟩)
      rw [hAddresses]
      exact List.mem_cons_self
    · exact Or.inl hOld
  | dialKeeper hQueue hDial =>
    obtain ⟨rfl, hNew⟩ | hOld := calls_setCall hCall
    · obtain rfl := Option.some.inj hNew
      exact Or.inr (Or.inl ⟨rfl, Or.inr ⟨rfl, _, hQueue ▸ List.mem_cons_self, hDial⟩⟩)
    · exact Or.inl hOld
  | connected hDialing =>
    obtain ⟨rfl, hNew⟩ | hOld := calls_setCall hCall
    · obtain rfl := Option.some.inj hNew
      exact Or.inr (Or.inr ⟨hDialing, rfl, rfl⟩)
    · exact Or.inl hOld
  | notConnected hDialing =>
    rw [finishCall_calls] at hCall
    obtain ⟨_, hNew⟩ | hOld := calls_setCall hCall
    · exact nomatch hNew
    · exact Or.inl hOld
  | persisted hStored result =>
    rw [finishCall_calls] at hCall
    obtain ⟨_, hNew⟩ | hOld := calls_setCall (s := s) hCall
    · exact nomatch hNew
    · exact Or.inl hOld
  | abandon id =>
    obtain ⟨_, hNew⟩ | hOld := calls_setCall (s := s) hCall
    · exact nomatch hNew
    · exact Or.inl hOld
  | restart => exact nomatch hCall
  | connectPeer | advance | skip | disconnectByNodeId | deletePeer | scan | connectInbound
  | setStatus => exact Or.inl hCall

/-- Only an attempt of the request itself begins a call for it. -/
theorem idle_step (hStep : step codec s e = some s') (hRequest : s.requests id = some r)
    (hAnswered : r.Answered) (hIdle : s.calls (.request id) = none) :
    s'.calls (.request id) = none := by
  by_contra hCall
  obtain ⟨call, hCall⟩ := Option.ne_none_iff_exists'.mp hCall
  obtain hOld | ⟨_, ⟨_, _, hCaller, hSame, hPending, _⟩ | ⟨hCaller, _⟩⟩ | ⟨hOld, _⟩ :=
    call_origin hStep hCall
  · exact nomatch hIdle.symm.trans hOld
  · cases hCaller
    obtain rfl := Option.some.inj (hRequest.symm.trans hSame)
    exact hPending hAnswered
  · exact nomatch hCaller
  · exact nomatch hIdle.symm.trans hOld

theorem finishCall_idle {caller : Caller} (hOther : caller ≠ .request id)
    (result : Except String Nat) : (finishCall s result caller).requests id = s.requests id := by
  cases caller with
  | keeper => rfl
  | request id' =>
    dsimp only [finishCall]
    split
    · exact Function.update_of_ne (fun hSame => hOther (congrArg _ hSame.symm)) ..
    · rfl

/-- A request that was answered, and that has no call under way, stays as it is. -/
theorem answered_step (hStep : step codec s e = some s') (hRequest : s.requests id = some r)
    (hAnswered : r.Answered) (hIdle : s.calls (.request id) = none)
    (hNext : s'.requests id = some r') : r' = r := by
  have hCaller : ∀ {caller call}, s.calls caller = some call → caller ≠ .request id := by
    rintro _ _ hCall rfl
    exact nomatch hIdle.symm.trans hCall
  have hKept : s.requests id = some r' → r' = r := fun h =>
    Option.some.inj (h.symm.trans hRequest)
  cases move_of_step hStep with
  | connectPeer hNew =>
    obtain ⟨rfl, rfl⟩ | hOther := requests_setRequest s _ hNext
    · exact nomatch hNew.symm.trans hRequest
    · exact hKept hOther
  | advance hOld hAdvances =>
    obtain ⟨rfl, rfl⟩ | hOther := requests_setRequest s _ hNext
    · obtain rfl := Option.some.inj (hOld.symm.trans hRequest)
      exact absurd hAnswered hAdvances.pending
    · exact hKept hOther
  | dialRequest hOld hPending =>
    obtain ⟨rfl, rfl⟩ | hOther := requests_setRequest s _ hNext
    · obtain rfl := Option.some.inj (hOld.symm.trans hRequest)
      exact absurd hAnswered hPending
    · exact hKept hOther
  | notConnected hCall =>
    rw [finishCall_idle (hCaller hCall)] at hNext
    exact hKept hNext
  | persisted hCall result =>
    rw [finishCall_idle (hCaller hCall)] at hNext
    exact hKept hNext
  | abandon id' =>
    change Function.update s.requests id' none id = some r' at hNext
    by_cases hSame : id = id'
    · rw [hSame, Function.update_self] at hNext
      exact nomatch hNext
    · rw [Function.update_of_ne hSame] at hNext
      exact hKept hNext
  | restart => exact nomatch hNext
  | dialKeeper | skip | connected | disconnectByNodeId | deletePeer | scan | connectInbound
  | setStatus => exact hKept hNext

/-- The table changes where a call stores its peer, and where a peer is deleted. -/
theorem peers_cases (hStep : step codec s e = some s') :
    s'.peers = s.peers ∨
      (∃ caller answer message call, e = .persistPeer caller answer message ∧
        s.calls caller = some call ∧ call.connection ≠ none ∧
        s'.peers = persistPeer codec call.peer s.peers) ∨
      ∃ publicKey answer, e = .deletePeer publicKey answer ∧
        s'.peers = Peers.deletePeer publicKey s.peers := by
  cases move_of_step hStep with
  | @persisted caller peer connection answer message hCall result =>
    rw [finishCall_peers]
    cases hWritten : answer.written with
    | false => exact Or.inl rfl
    | true => exact Or.inr (Or.inl ⟨_, _, _, _, rfl, hCall, nofun, rfl⟩)
  | @deletePeer publicKey answer hDrop =>
    cases hWritten : answer.written with
    | false => exact Or.inl rfl
    | true => exact Or.inr (Or.inr ⟨_, _, rfl, rfl⟩)
  | notConnected hCall => exact Or.inl (finishCall_peers ..)
  | connectPeer | advance | dialRequest | dialKeeper | skip | connected | abandon
  | disconnectByNodeId | scan | connectInbound | setStatus | restart => exact Or.inl rfl

def exampleAddress : Peers.SocketAddress := .tcpIpV4 (.replicate 4 1) 9735

def exampleRequest : Step := .connectPeer 0 exampleKey (some ⟨exampleAddress⟩) none

/-- The request dials its peer, stores it and then finds it connected. -/
def exampleRun : List Step :=
  [.attempt 0, .connectOutbound (.request 0) true, .persistPeer (.request 0) .stored "",
    .setStatus 0 .listed, .checkConnected 0]

end Kld.PeerConnections
