import Kld.Ldk.AsyncSenders
import Kld.Lib.Run
import Kld.Types

/-!
# Requests to open a channel

A request registers its sender after LDK has accepted the channel, and then waits
for the handler of the events of that channel. The handler takes one event at a
time; between taking a sender and answering it lets other tasks run.
-/

namespace Kld.OpenChannel

open Transition

inductive FeeRate where
  | urgent
  | normal
  | slow
  | perKw (feerate : UInt32)
  | perKb (feerate : UInt32)
deriving DecidableEq

/-- LDK keeps user channel ids in 128 bits, and the handler casts them back. -/
def asU128 (id : UInt64) : BitVec 128 := id.toBitVec.setWidth 128

def asU64 (id : BitVec 128) : UInt64 := ⟨id.setWidth 64⟩

structure Response where
  userChannelId : BitVec 128
  result : Except String Transaction

/-- After `create_channel` succeeded, the request registers its sender, waits and finishes. -/
inductive Stage where
  | created
  | waiting
  | finished
deriving DecidableEq

inductive FirstEvent where
  | awaited
  | taken
  | handled
deriving DecidableEq

structure Request where
  feeRate : FeeRate
  stage : Stage
  firstEvent : FirstEvent
  responses : List Response

structure Responder where
  userChannelId : BitVec 128
  sender : UInt64

/-- Requests go by their user channel ids, which are distinct; so do their senders. -/
structure State where
  requests : UInt64 → Option Request
  senders : AsyncSenders UInt64 FeeRate UInt64
  handling : Option Responder
  dropped : List (BitVec 128)

inductive Funding where
  | failedFunding (e : String)
  | failedOpening (e : String)
  | funded (tx : Transaction)
deriving DecidableEq

def Funding.result : Funding → Except String Transaction
  | .failedFunding e => .error ("Failed funding transaction: " ++ e)
  | .failedOpening e => .error ("Failed opening channel: " ++ e)
  | .funded tx => .ok tx

inductive Step where
  | createChannel (userChannelId : UInt64) (feeRate : FeeRate)
  | register (userChannelId : UInt64)
  | receive (userChannelId : UInt64)
  | fundingGenerationReady (userChannelId : UInt64)
  | respond (funding : Funding)
  | channelClosed (userChannelId : UInt64) (reason : String)

def initial : State := ⟨fun _ => none, ∅, none, []⟩

def State.setRequest (s : State) (id : UInt64) (r : Request) : State :=
  { s with requests := Function.update s.requests id (some r) }

def State.deliver (s : State) (sender : UInt64) (response : Response) : State :=
  match s.requests sender with
  | some r => s.setRequest sender { r with responses := r.responses ++ [response] }
  | none => s

def State.note (s : State) (id : UInt64) (firstEvent : FirstEvent) : State :=
  match s.requests id with
  | some r =>
    if r.firstEvent = .handled then s else s.setRequest id { r with firstEvent := firstEvent }
  | none => s

/-- An event without a sender is dropped, if nobody has answered the request before. -/
def State.drop (s : State) (id : UInt64) (r : Request) : State :=
  if r.firstEvent = .awaited then { s.note id .handled with dropped := asU128 id :: s.dropped }
  else s

def step (s : State) : Step → Option State
  | .createChannel id feeRate =>
    match s.requests id with
    | some _ => none
    | none => some (s.setRequest id ⟨feeRate, .created, .awaited, []⟩)
  | .register id =>
    match s.requests id with
    | some ⟨feeRate, .created, firstEvent, responses⟩ =>
      some { s.setRequest id ⟨feeRate, .waiting, firstEvent, responses⟩ with
        senders := s.senders.register id feeRate id }
    | _ => none
  | .receive id =>
    match s.requests id with
    | some ⟨feeRate, .waiting, firstEvent, response :: rest⟩ =>
      some (s.setRequest id ⟨feeRate, .finished, firstEvent, response :: rest⟩)
    | _ => none
  | .fundingGenerationReady id =>
    match s.handling, s.requests id with
    | none, some r =>
      match s.senders.get (asU64 (asU128 id)) with
      | some ((_, sender), senders) =>
        some { s.note id .taken with senders := senders, handling := some ⟨asU128 id, sender⟩ }
      | none => some (s.drop id r)
    | _, _ => none
  | .respond funding =>
    match s.handling with
    | some responder =>
      some
        { (s.deliver responder.sender ⟨responder.userChannelId, funding.result⟩).note
            (asU64 responder.userChannelId) .handled with handling := none }
    | none => none
  | .channelClosed id reason =>
    match s.handling, s.requests id with
    | none, some r =>
      match s.senders.get (asU64 (asU128 id)) with
      | some ((_, sender), senders) =>
        some
          { (s.deliver sender
              ⟨asU128 id, .error ("Channel closed due to " ++ reason)⟩).note id .handled with
            senders := senders }
      | none => some (s.drop id r)
    | _, _ => none

/-- Every request whose first event has been handled has got one reply, for its own channel, its
sender is gone, and no event went without a sender. -/
structure AnsweredOnce (s : State) : Prop where
  dropped : s.dropped = []
  answered : ∀ id r, s.requests id = some r → r.firstEvent = .handled →
    ∃ result, r.responses = [⟨asU128 id, result⟩]
  atMostOnce : ∀ id r, s.requests id = some r → r.responses.length ≤ 1
  removed : ∀ id r, s.requests id = some r → r.responses ≠ [] → id ∉ s.senders

def SenderRegistered (s : State) : Step → Prop
  | .fundingGenerationReady id =>
    ∀ r, s.requests id = some r → r.firstEvent = .awaited → id ∈ s.senders
  | .channelClosed id _ => ∀ r, s.requests id = some r → r.firstEvent = .awaited → id ∈ s.senders
  | _ => True

structure RequestInv (s : State) (id : UInt64) (r : Request) : Prop where
  created : r.stage = .created → r.firstEvent = .awaited
  awaited : r.firstEvent = .awaited → r.responses = []
  taken : r.firstEvent = .taken → r.responses = [] ∧ s.handling = some ⟨asU128 id, id⟩
  handled : r.firstEvent = .handled → ∃ result, r.responses = [⟨asU128 id, result⟩]
  registered : s.senders.lookup id =
    if r.stage = .waiting ∧ r.firstEvent = .awaited then some (r.feeRate, id) else none

structure Inv (s : State) : Prop where
  requests : ∀ id r, s.requests id = some r → RequestInv s id r
  unknown : ∀ id, s.requests id = none → s.senders.lookup id = none
  handling : ∀ h, s.handling = some h → ∃ r, s.requests h.sender = some r ∧ r.firstEvent = .taken
  dropped : s.dropped = []

variable {s s' : State} {id : UInt64}

theorem asU64_asU128 (id : UInt64) : asU64 (asU128 id) = id := by
  unfold asU64 asU128
  rw [BitVec.setWidth_setWidth_of_le _ (by decide), BitVec.setWidth_eq]

theorem inv_initial : Inv initial := ⟨nofun, fun _ _ => AList.lookup_empty _, nofun, rfl⟩

theorem Inv.answeredOnce (hInv : Inv s) : AnsweredOnce s where
  dropped := hInv.dropped
  answered id r hRequest := (hInv.requests id r hRequest).handled
  atMostOnce id r hRequest := by
    have hR := hInv.requests id r hRequest
    cases hEvent : r.firstEvent with
    | awaited => rw [hR.awaited hEvent]; decide
    | taken => rw [(hR.taken hEvent).1]; decide
    | handled =>
      obtain ⟨result, hResponses⟩ := hR.handled hEvent
      rw [hResponses]
      exact le_refl 1
  removed id r hRequest hResponses := by
    have hR := hInv.requests id r hRequest
    rw [← AList.lookup_eq_none, hR.registered, if_neg]
    rintro ⟨_, hEvent⟩
    exact hResponses (hR.awaited hEvent)

theorem Inv.of_update (hInv : Inv s) {r : Request}
    (hRequests : s'.requests = Function.update s.requests id (some r))
    (hSenders : ∀ k, k ≠ id → s'.senders.lookup k = s.senders.lookup k)
    (hTaken : ∀ k r, k ≠ id → s.requests k = some r → r.firstEvent = .taken →
      s'.handling = s.handling)
    (hNew : RequestInv s' id r)
    (hHandling : ∀ h, s'.handling = some h →
      ∃ r, s'.requests h.sender = some r ∧ r.firstEvent = .taken)
    (hDropped : s'.dropped = s.dropped) : Inv s' where
  requests := by
    intro k r' hRequest
    rw [hRequests] at hRequest
    obtain ⟨rfl, rfl⟩ | ⟨hSame, hRequest⟩ := PartialMap.update_eq_some_iff.mp hRequest
    · exact hNew
    · have hOld := hInv.requests k r' hRequest
      exact
        { hOld with
          taken := fun hEvent =>
            ⟨(hOld.taken hEvent).1, (hTaken k r' hSame hRequest hEvent).trans (hOld.taken hEvent).2⟩
          registered := (hSenders k hSame).trans hOld.registered }
  unknown := by
    intro k hNone
    rw [hRequests] at hNone
    obtain ⟨hSame, hNone⟩ := PartialMap.update_eq_none_iff.mp hNone
    exact (hSenders k hSame).trans (hInv.unknown k hNone)
  handling := hHandling
  dropped := hDropped.trans hInv.dropped

theorem Inv.handling_update (hInv : Inv s) {r : Request}
    (hKeep : ∀ old, s.requests id = some old → old.firstEvent = .taken → r.firstEvent = .taken) :
    ∀ h, s.handling = some h →
      ∃ r', Function.update s.requests id (some r) h.sender = some r' ∧ r'.firstEvent = .taken := by
  intro h hHandling
  exact PartialMap.exists_update hKeep (hInv.handling h hHandling)

theorem RequestInv.of_lookup {r : Request} (hR : RequestInv s id r) {entry : FeeRate × UInt64}
    (hLookup : s.senders.lookup id = some entry) :
    entry = (r.feeRate, id) ∧ r.stage = .waiting ∧ r.firstEvent = .awaited := by
  have hIf := hR.registered.symm.trans hLookup
  split at hIf
  · rename_i hWaiting
    exact ⟨(Option.some.inj hIf).symm, hWaiting⟩
  · cases hIf

theorem note_eq {r : Request} (hRequest : s.requests id = some r) (hEvent : r.firstEvent ≠ .handled)
    (e : FirstEvent) : s.note id e = s.setRequest id { r with firstEvent := e } := by
  rw [State.note, hRequest]
  exact if_neg hEvent

theorem drop_eq_self {r : Request} (hEvent : r.firstEvent ≠ .awaited) : s.drop id r = s :=
  if_neg hEvent

theorem deliver_note {r : Request} (hRequest : s.requests id = some r)
    (hEvent : r.firstEvent ≠ .handled) (response : Response) :
    (s.deliver id response).note id .handled =
      s.setRequest id
        { r with responses := r.responses ++ [response], firstEvent := .handled } := by
  have hDeliver : s.deliver id response =
    s.setRequest id { r with responses := r.responses ++ [response] } := by
    rw [State.deliver, hRequest]
  have hNext : (s.setRequest id { r with responses := r.responses ++ [response] }).requests id =
      some { r with responses := r.responses ++ [response] } := Function.update_self ..
  rw [hDeliver, note_eq hNext hEvent]
  unfold State.setRequest
  rw [Function.update_idem]

theorem inv_createChannel {feeRate : FeeRate} (hInv : Inv s)
    (hStep : step s (.createChannel id feeRate) = some s') : Inv s' := by
  dsimp only [step] at hStep
  split at hStep
  · cases hStep
  · rename_i hNone
    obtain rfl := Option.some.inj hStep
    refine hInv.of_update rfl (fun _ _ => rfl) (fun _ _ _ _ _ => rfl) ?_
      (hInv.handling_update ?_) rfl
    · exact ⟨fun _ => rfl, fun _ => rfl, nofun, nofun, hInv.unknown id hNone⟩
    · intro old hOld
      rw [hNone] at hOld
      cases hOld

theorem inv_register (hInv : Inv s) (hStep : step s (.register id) = some s') : Inv s' := by
  dsimp only [step] at hStep
  split at hStep
  · rename_i feeRate firstEvent responses hRequest
    obtain rfl := Option.some.inj hStep
    have hR := hInv.requests id _ hRequest
    have hEvent : firstEvent = .awaited := hR.created rfl
    subst hEvent
    refine hInv.of_update rfl ?_ (fun _ _ _ _ _ => rfl) ?_ (hInv.handling_update ?_) rfl
    · exact fun k hNe => AsyncSenders.lookup_register_of_ne hNe feeRate id
    · exact ⟨nofun, hR.awaited, nofun, nofun, AsyncSenders.lookup_register_self feeRate id⟩
    · intro old hOld hTaken
      rw [hRequest] at hOld
      rw [← Option.some.inj hOld] at hTaken
      cases hTaken
  · cases hStep

theorem inv_receive (hInv : Inv s) (hStep : step s (.receive id) = some s') : Inv s' := by
  dsimp only [step] at hStep
  split at hStep
  · rename_i feeRate firstEvent response rest hRequest
    obtain rfl := Option.some.inj hStep
    have hR := hInv.requests id _ hRequest
    have hEvent : firstEvent = .handled := by
      cases firstEvent with
      | awaited => cases hR.awaited rfl
      | taken => cases (hR.taken rfl).1
      | handled => rfl
    subst hEvent
    refine hInv.of_update rfl (fun _ _ => rfl) (fun _ _ _ _ _ => rfl) ?_
      (hInv.handling_update ?_) rfl
    · exact ⟨nofun, nofun, nofun, hR.handled, hR.registered⟩
    · intro old hOld hTaken
      rw [hRequest] at hOld
      rw [← Option.some.inj hOld] at hTaken
      cases hTaken
  · cases hStep

theorem Inv.not_taken (hInv : Inv s) (hIdle : s.handling = none) {r : Request}
    (hRequest : s.requests id = some r) : r.firstEvent ≠ .taken := by
  intro hEvent
  have hBusy := ((hInv.requests id r hRequest).taken hEvent).2
  rw [hIdle] at hBusy
  cases hBusy

/-- A request whose sender is missing has had its first event, if its sender is there for that. -/
theorem drop_eq_of_registered {r : Request} (hRequest : s.requests id = some r)
    (hOk : ∀ r, s.requests id = some r → r.firstEvent = .awaited → id ∈ s.senders)
    (hGet : s.senders.get id = none) : s.drop id r = s := by
  apply drop_eq_self
  intro hEvent
  have hNone := AList.lookup_eq_none.mp (AsyncSenders.get_eq_none_iff.mp hGet)
  exact hNone (hOk r hRequest hEvent)

theorem inv_fundingGenerationReady (hInv : Inv s)
    (hOk : SenderRegistered s (.fundingGenerationReady id))
    (hStep : step s (.fundingGenerationReady id) = some s') : Inv s' := by
  dsimp only [step] at hStep
  split at hStep
  · rename_i r hIdle hRequest
    rw [asU64_asU128] at hStep
    have hR := hInv.requests id r hRequest
    split at hStep
    · rename_i feeRate sender senders hGet
      obtain rfl := Option.some.inj hStep
      obtain ⟨hLookup, rfl⟩ := AsyncSenders.get_eq_some_iff.mp hGet
      obtain ⟨hEntry, hWaiting, hEvent⟩ := hR.of_lookup hLookup
      obtain ⟨rfl, rfl⟩ := Prod.mk.inj hEntry
      have hNotHandled : r.firstEvent ≠ .handled := by
        rw [hEvent]
        exact nofun
      rw [note_eq hRequest hNotHandled]
      refine hInv.of_update rfl (fun k hNe => AList.lookup_erase_ne hNe) ?_ ?_ ?_ rfl
      · exact fun k other _ hOther hTaken => absurd hTaken (hInv.not_taken hIdle hOther)
      · refine ⟨fun hCreated => ?_, nofun, fun _ => ⟨hR.awaited hEvent, rfl⟩, nofun, ?_⟩
        · cases hWaiting.symm.trans hCreated
        · exact (AList.lookup_erase sender s.senders).trans (if_neg nofun).symm
      · rintro h hBusy
        obtain rfl := Option.some.inj hBusy
        exact ⟨_, Function.update_self .., rfl⟩
    · rename_i hGet
      obtain rfl := Option.some.inj hStep
      rw [drop_eq_of_registered hRequest hOk hGet]
      exact hInv
  · cases hStep

theorem inv_respond {funding : Funding} (hInv : Inv s)
    (hStep : step s (.respond funding) = some s') :
    Inv s' := by
  dsimp only [step] at hStep
  split at hStep
  · rename_i responder hHandling
    obtain rfl := Option.some.inj hStep
    obtain ⟨userChannelId, id⟩ := responder
    obtain ⟨r, hRequest, hEvent⟩ := hInv.handling _ hHandling
    have hR := hInv.requests id r hRequest
    obtain ⟨hResponses, hOwn⟩ := hR.taken hEvent
    obtain rfl : userChannelId = asU128 id :=
      congrArg Responder.userChannelId (Option.some.inj (hHandling.symm.trans hOwn))
    have hNotHandled : r.firstEvent ≠ .handled := by
      rw [hEvent]
      exact nofun
    rw [asU64_asU128, deliver_note hRequest hNotHandled]
    refine hInv.of_update rfl (fun _ _ => rfl) ?_ ?_ nofun rfl
    · intro k other hNe hOther hTaken
      have hSame :=
        Option.some.inj (((hInv.requests k other hOther).taken hTaken).2.symm.trans hHandling)
      exact absurd (congrArg Responder.sender hSame) hNe
    · refine ⟨fun hCreated => ?_, nofun, nofun, fun _ => ⟨funding.result, ?_⟩, ?_⟩
      · cases hEvent.symm.trans (hR.created hCreated)
      · rw [hResponses]
        rfl
      · refine hR.registered.trans ((if_neg ?_).trans (if_neg nofun).symm)
        rintro ⟨_, hAwaited⟩
        cases hEvent.symm.trans hAwaited
  · cases hStep

theorem inv_channelClosed {reason : String} (hInv : Inv s)
    (hOk : SenderRegistered s (.channelClosed id reason))
    (hStep : step s (.channelClosed id reason) = some s') : Inv s' := by
  dsimp only [step] at hStep
  split at hStep
  · rename_i r hIdle hRequest
    rw [asU64_asU128] at hStep
    have hR := hInv.requests id r hRequest
    split at hStep
    · rename_i feeRate sender senders hGet
      obtain rfl := Option.some.inj hStep
      obtain ⟨hLookup, rfl⟩ := AsyncSenders.get_eq_some_iff.mp hGet
      obtain ⟨hEntry, hWaiting, hEvent⟩ := hR.of_lookup hLookup
      obtain ⟨rfl, rfl⟩ := Prod.mk.inj hEntry
      have hNotHandled : r.firstEvent ≠ .handled := by
        rw [hEvent]
        exact nofun
      rw [deliver_note hRequest hNotHandled]
      refine hInv.of_update rfl (fun k hNe => AList.lookup_erase_ne hNe) (fun _ _ _ _ _ => rfl)
        ?_ ?_ rfl
      · refine ⟨fun hCreated => ?_, nofun, nofun,
          fun _ => ⟨.error ("Channel closed due to " ++ reason), ?_⟩, ?_⟩
        · cases hWaiting.symm.trans hCreated
        · rw [hR.awaited hEvent]
          rfl
        · exact (AList.lookup_erase sender s.senders).trans (if_neg nofun).symm
      · intro h hBusy
        cases hIdle.symm.trans hBusy
    · rename_i hGet
      obtain rfl := Option.some.inj hStep
      rw [drop_eq_of_registered hRequest hOk hGet]
      exact hInv
  · cases hStep

theorem inv_step {e : Step} (hInv : Inv s) (hOk : SenderRegistered s e)
    (hStep : step s e = some s') :
    Inv s' := by
  cases e with
  | createChannel id feeRate => exact inv_createChannel hInv hStep
  | register id => exact inv_register hInv hStep
  | receive id => exact inv_receive hInv hStep
  | fundingGenerationReady id => exact inv_fundingGenerationReady hInv hOk hStep
  | respond funding => exact inv_respond hInv hStep
  | channelClosed id reason => exact inv_channelClosed hInv hOk hStep

theorem not_answeredOnce_drop {r : Request} (hEvent : r.firstEvent = .awaited) :
    ¬ AnsweredOnce (s.drop id r) := by
  intro hAnswered
  have hDropped := hAnswered.dropped
  rw [State.drop, if_pos hEvent] at hDropped
  cases hDropped

theorem not_answeredOnce_step {e : Step} (hBad : ¬ SenderRegistered s e)
    (hStep : step s e = some s') :
    ¬ AnsweredOnce s' := by
  cases e with
  | fundingGenerationReady id =>
    dsimp only [SenderRegistered] at hBad
    push Not at hBad
    obtain ⟨r, hRequest, hEvent, hMissing⟩ := hBad
    have hGet := AsyncSenders.get_eq_none_iff.mpr (AList.lookup_eq_none.mpr hMissing)
    dsimp only [step] at hStep
    rw [hRequest, asU64_asU128, hGet] at hStep
    split at hStep
    · rename_i r' _ hSame
      obtain rfl := Option.some.inj hSame
      obtain rfl := Option.some.inj hStep
      exact not_answeredOnce_drop hEvent
    · cases hStep
  | channelClosed id reason =>
    dsimp only [SenderRegistered] at hBad
    push Not at hBad
    obtain ⟨r, hRequest, hEvent, hMissing⟩ := hBad
    have hGet := AsyncSenders.get_eq_none_iff.mpr (AList.lookup_eq_none.mpr hMissing)
    dsimp only [step] at hStep
    rw [hRequest, asU64_asU128, hGet] at hStep
    split at hStep
    · rename_i r' _ hSame
      obtain rfl := Option.some.inj hSame
      obtain rfl := Option.some.inj hStep
      exact not_answeredOnce_drop hEvent
    · cases hStep
  | _ => exact absurd trivial hBad

/-- Every request is answered exactly once in every state of a run exactly if the first event
about each channel finds the sender of its request registered. -/
theorem answered_once_iff {es : List Step} {t : State} (hRun : run step initial es = some t) :
    Always step AnsweredOnce initial es ↔ Along step SenderRegistered initial es :=
  always_iff_along (fun _ => Inv.answeredOnce) (fun _ _ _ => inv_step)
    (fun _ _ _ _ => not_answeredOnce_step) inv_initial hRun

/-- A channel closed before its request has registered a sender leaves the request waiting. -/
theorem closed_before_registered :
    ∃ t, run step initial
        [.createChannel 1 .normal, .channelClosed 1 "rejected", .register 1] = some t ∧
      t.dropped = [asU128 1] ∧ ¬ AnsweredOnce t := by
  refine ⟨_, rfl, rfl, fun hAnswered => ?_⟩
  cases hAnswered.dropped

theorem closed_after_registered :
    ∃ t, run step initial
        [.createChannel 1 .normal, .register 1, .channelClosed 1 "rejected"] = some t ∧
      Always step AnsweredOnce initial
        [.createChannel 1 .normal, .register 1, .channelClosed 1 "rejected"] := by
  have hRun :
    run step initial [.createChannel 1 .normal, .register 1, .channelClosed 1 "rejected"] =
      some _ := rfl
  refine ⟨_, hRun, (answered_once_iff hRun).mpr ?_⟩
  refine (along_cons rfl).mpr
    ⟨trivial, (along_cons rfl).mpr ⟨trivial, (along_cons rfl).mpr ⟨?_, trivial⟩⟩⟩
  intro r _ _
  exact AList.lookup_isSome.mp rfl

end Kld.OpenChannel
