import Kld.Ldk.PeerConnections
import Kld.Lib.Trace

/-!
# The answers of requests to connect

A request with an address dials that one; another one goes through the IPv4 addresses
that the graph knows, until it finds its peer connected.
-/

namespace Kld.PeerConnections

open Sql Serial Transition
open Peers (Peer PeersTable exampleCodec exampleKey)
open PeerManager (SocketAddress)
open SktAddr (SocketAddr SocketAddress.isIpv4)

variable {codec : Codec Peers.SocketAddress} {s s' t : State} {e : Step} {es : List Step}
  {id : Nat} {r r' : Request} {caller : Caller} {call : Call} {publicKey : PublicKey}

def dialable (address : SocketAddress) : Bool := (SocketAddr.tryFrom address).isOk

/-- The address that an attempt dials. -/
def dialOf (s : State) (r : Request) : Option SocketAddress :=
  r.addresses.head?.filter fun address => !s.isConnected r.publicKey && dialable address

def requestDials (id : Nat) (s : State) : Step → List SocketAddress
  | .attempt id' => if id' = id then ((s.requests id).bind (dialOf s)).toList else []
  | _ => []

/-- The request is neither abandoned by its client nor lost with the process. -/
def Keeps (id : Nat) (e : Step) : Prop := e ≠ .abandon id ∧ e ≠ .restart

/-- What a step makes of a request that is kept. -/
structure Request.Next (s : State) (e : Step) (id : Nat) (r r' : Request) : Prop
    extends r'.Follows r where
  addresses_eq : e ≠ .attempt id → r'.addresses = r.addresses
  connected : r'.Connected → r.Connected ∨ s.isConnected r.publicKey = true
  refusedLast : r.RefusedLast → r'.RefusedLast

theorem next_refl (s : State) (e : Step) (id : Nat) (r : Request) : r.Next s e id r :=
  ⟨.refl r, fun _ => rfl, Or.inl, fun h => h⟩

theorem returned_next (s : State) (e : Step) (id : Nat) (r : Request)
    (result : Except String Nat) : r.Next s e id (r.returned result) where
  toFollows := returned_follows r result
  addresses_eq _ := by cases result <;> rfl
  connected h := by
    cases result with
    | ok connection => exact nomatch h
    | error message => exact absurd h (failed_not_connected r message)
  refusedLast _ := by
    cases result with
    | ok connection => exact nofun
    | error message => exact failed_refusedLast r message

theorem next_finishCall (s₀ : State) (result : Except String Nat) (caller : Caller)
    (hRequest : s₀.requests id = some r) :
    ∃ r', (finishCall s₀ result caller).requests id = some r' ∧ r.Next s e id r' := by
  cases caller with
  | keeper => exact ⟨r, hRequest, next_refl s e id r⟩
  | request id' =>
    dsimp only [finishCall]
    split
    · rename_i r' hOld
      by_cases hSame : id = id'
      · subst hSame
        obtain rfl := Option.some.inj (hRequest.symm.trans hOld)
        exact ⟨_, Function.update_self .., returned_next s e id r result⟩
      · exact ⟨r, (Function.update_of_ne hSame ..).trans hRequest, next_refl s e id r⟩
    · exact ⟨r, hRequest, next_refl s e id r⟩

theorem next_step (hKeeps : Keeps id e) (hStep : step codec s e = some s')
    (hRequest : s.requests id = some r) :
    ∃ r', s'.requests id = some r' ∧ r.Next s e id r' := by
  cases move_of_step hStep with
  | @connectPeer id' _ _ _ hNew =>
    have hOther : id ≠ id' := by
      rintro rfl
      exact nomatch hRequest.symm.trans hNew
    exact ⟨r, (Function.update_of_ne hOther ..).trans hRequest, next_refl ..⟩
  | @advance _ id' r₀ r' hOld hAdvances =>
    by_cases hSame : id = id'
    · subst hSame
      obtain rfl := Option.some.inj (hRequest.symm.trans hOld)
      exact ⟨r', Function.update_self .., hAdvances.toFollows, hAdvances.addresses_eq,
        fun h => Or.inr (hAdvances.connected h), fun _ => hAdvances.refusedLast⟩
    · exact ⟨r, (Function.update_of_ne hSame ..).trans hRequest, next_refl ..⟩
  | @dialRequest id' r₀ address addresses hOld _ hAddresses =>
    by_cases hSame : id = id'
    · subst hSame
      obtain rfl := Option.some.inj (hRequest.symm.trans hOld)
      exact ⟨_, Function.update_self .., ⟨rfl, rfl, hAddresses ▸ List.suffix_cons ..⟩,
        fun h => absurd rfl h, nofun, fun _ => nofun⟩
    · exact ⟨r, (Function.update_of_ne hSame ..).trans hRequest, next_refl ..⟩
  | notConnected hCall => exact next_finishCall (s.setCall _ none) _ _ hRequest
  | persisted hCall result =>
    exact next_finishCall { s.setCall _ none with peers := _ } result _ hRequest
  | abandon id' =>
    have hOther : id ≠ id' := fun hSame => hKeeps.1 (congrArg _ hSame.symm)
    exact ⟨r, (Function.update_of_ne hOther ..).trans hRequest, next_refl ..⟩
  | restart => exact absurd rfl hKeeps.2
  | dialKeeper | skip | connected | disconnectByNodeId | deletePeer | scan | connectInbound
  | setStatus => exact ⟨r, hRequest, next_refl ..⟩

/-- An attempt dials what it uses up, unless that cannot be dialed. -/
theorem attempt_dials (s : State) (id : Nat) (r : Request) :
    ∃ r', (attempt s id r).requests id = some r' ∧
      r.addresses.filter dialable = (dialOf s r).toList ++ r'.addresses.filter dialable := by
  unfold attempt dialOf
  cases hAddresses : r.addresses with
  | nil => exact ⟨_, Function.update_self .., by simp⟩
  | cons address addresses =>
    rw [List.head?_cons]
    cases hConnected : s.isConnected r.publicKey with
    | true => exact ⟨_, Function.update_self .., by simp⟩
    | false =>
      dsimp only
      rw [if_neg Bool.false_ne_true]
      cases hTry : SocketAddr.tryFrom address with
      | error message =>
        have hDialable : dialable address = false := by rw [dialable, hTry]; rfl
        exact ⟨_, Function.update_self .., by simp [hDialable]⟩
      | ok addr =>
        have hDialable : dialable address = true := by rw [dialable, hTry]; rfl
        exact ⟨_, Function.update_self .., by simp [hDialable, Option.filter]⟩

/-- The addresses of a request that can still be dialed. -/
def todo (id : Nat) (s : State) : List SocketAddress :=
  (s.requests id).elim [] fun r => r.addresses.filter dialable

theorem todo_step (hKeeps : Keeps id e) (hStep : step codec s e = some s')
    (hRequest : s.requests id = some r) :
    todo id s = requestDials id s e ++ todo id s' := by
  by_cases hAttempt : e = .attempt id
  · subst hAttempt
    simp only [step, hRequest] at hStep
    split at hStep
    · obtain rfl := Option.some.inj hStep
      obtain ⟨r', hNext, hDials⟩ := attempt_dials s id r
      rw [todo, todo, hRequest, hNext, requestDials, if_pos rfl, hRequest]
      exact hDials
    · exact nomatch hStep
  · obtain ⟨r', hNext, hFollows⟩ := next_step hKeeps hStep hRequest
    have hNone : requestDials id s e = [] := by
      cases e with
      | attempt id' => exact if_neg fun hSame => hAttempt (congrArg _ hSame)
      | _ => rfl
    rw [todo, todo, hRequest, hNext, hNone, Option.elim_some, Option.elim_some,
      hFollows.addresses_eq hAttempt, List.nil_append]

theorem request_run (hKeeps : ∀ e ∈ es, Keeps id e) (hRun : run (step codec) s es = some t)
    (hRequest : s.requests id = some r) :
    ∃ r', t.requests id = some r' ∧ r'.Follows r ∧ (r.RefusedLast → r'.RefusedLast) ∧
      trace (step codec) (requestDials id) s es ++ r'.addresses.filter dialable =
        r.addresses.filter dialable := by
  induction es generalizing s r with
  | nil =>
    obtain rfl := Option.some.inj hRun
    exact ⟨r, hRequest, .refl r, fun h => h, rfl⟩
  | cons e es ih =>
    obtain ⟨s', hStep, hRest⟩ := run_cons_eq_some hRun
    obtain ⟨hFirst, hKeeps⟩ := List.forall_mem_cons.mp hKeeps
    obtain ⟨r₁, hNext, hFollows⟩ := next_step hFirst hStep hRequest
    obtain ⟨r', hEnd, hFollows', hRefused, hDials⟩ := ih hKeeps hRest hNext
    refine ⟨r', hEnd, hFollows'.trans hFollows.toFollows,
      fun h => hRefused (hFollows.refusedLast h), ?_⟩
    have hTodo := todo_step hFirst hStep hRequest
    rw [todo, todo, hRequest, hNext] at hTodo
    rw [trace_cons hStep, List.append_assoc, hDials]
    exact hTodo.symm

/-- A request that has succeeded in a run did so where its peer was connected. -/
theorem connected_run (hKeeps : ∀ e ∈ es, Keeps id e) (hRun : run (step codec) s es = some t)
    (hRequest : s.requests id = some r) (hNot : ¬ r.Connected) (hEnd : t.requests id = some r')
    (hConnected : r'.Connected) :
    ∃ before e after u, es = before ++ e :: after ∧ run (step codec) s before = some u ∧
      u.isConnected r.publicKey = true := by
  have hStart : ¬ ∃ r, s.requests id = some r ∧ r.Connected := by
    rintro ⟨r₁, hSame, hSuccess⟩
    obtain rfl := Option.some.inj (hRequest.symm.trans hSame)
    exact hNot hSuccess
  obtain ⟨before, e, after, u, u', rfl, hBefore, hPending, hStep, ⟨r₂, hNext, hSuccess⟩, _⟩ :=
    exists_step_of_change (Q := fun s => ∃ r, s.requests id = some r ∧ r.Connected) hStart
      ⟨r', hEnd, hConnected⟩ hRun
  obtain ⟨hFirst, hRest⟩ := List.forall_mem_append.mp hKeeps
  obtain ⟨r₁, hMiddle, hFollows, _⟩ := request_run hFirst hBefore hRequest
  obtain ⟨r₃, hSame, hMove⟩ := next_step (hRest e List.mem_cons_self) hStep hMiddle
  obtain rfl := Option.some.inj (hNext.symm.trans hSame)
  refine ⟨before, e, after, u, rfl, hBefore, ?_⟩
  obtain hEarlier | hFound := hMove.connected hSuccess
  · exact absurd ⟨r₁, hMiddle, hEarlier⟩ hPending
  · exact hFollows.publicKey ▸ hFound

theorem newRequest_not_connected (publicKey : PublicKey) (peerAddress : Option SocketAddress)
    (graphAddresses : Option (List Peers.SocketAddress)) :
    (newRequest publicKey peerAddress graphAddresses).publicKey = publicKey ∧
      (newRequest publicKey peerAddress graphAddresses).fromGraph = peerAddress.isNone ∧
      ¬ (newRequest publicKey peerAddress graphAddresses).Connected ∧
      (newRequest publicKey peerAddress graphAddresses).RefusedLast := by
  cases peerAddress with
  | some _ => exact ⟨rfl, rfl, nofun, nofun⟩
  | none =>
    cases graphAddresses with
    | some _ => exact ⟨rfl, rfl, nofun, nofun⟩
    | none => exact ⟨rfl, rfl, nofun, fun _ _ _ => rfl⟩

theorem dialable_of_graph {graphAddresses : Option (List Peers.SocketAddress)} :
    ∀ a ∈ (newRequest publicKey none graphAddresses).addresses, dialable a = true := by
  cases graphAddresses with
  | none => exact fun a hMem => absurd hMem List.not_mem_nil
  | some addresses =>
    intro a hMem
    have hIpv4 := (List.mem_filter.mp hMem).2
    unfold SocketAddress.isIpv4 at hIpv4
    unfold dialable SocketAddr.tryFrom
    split at hIpv4
    · rename_i hInner
      rw [hInner]
      rfl
    · cases hIpv4

end Kld.PeerConnections
