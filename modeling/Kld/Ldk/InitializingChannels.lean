import Kld.Ldk.OpenChannel
import Kld.Ldk.PaymentRequests

/-!
# The records of channels that are being opened

A request inserts the record of its channel after the handler of
`FundingGenerationReady` has updated it and replied; the handler of `ChannelPending`
updates it again. Events are handled one at a time, between the steps of requests.
-/

namespace Kld.InitializingChannels

open Sql Transition OpenChannel

abbrev Answer := Payments.Answer

inductive Stage where
  | created
  | waiting
  | replied (reply : Except String Txid)
  | returned (result : Except String Txid)
  | dropped (registered : Bool)

/-- Whether the sender of the request has been registered. -/
def Stage.registered : Stage → Bool
  | .created => false
  | .dropped registered => registered
  | _ => true

/-- The first event of the channel is `FundingGenerationReady`. The last status is the one that a
handler wrote last, whether or not a row was there. -/
structure Opening where
  userChannelId : UInt64
  isPublic : Bool
  counterparty : PublicKey
  stage : Stage
  firstEvent : FirstEvent
  funded : Bool
  pending : Option (ChannelId × UInt32)
  lastStatus : Option String

inductive Handling where
  | funding (temporaryChannelId : ChannelId)
  | updated (temporaryChannelId : ChannelId) (txid : Txid)

/-- Requests go by the temporary ids of their channels, which are distinct. -/
structure State where
  openings : ChannelId → Option Opening
  handling : Option Handling
  rows : Table ChannelId InitializingChannelRow

def initial : State := ⟨fun _ => none, none, ∅⟩

inductive Step where
  | createChannel (temporaryChannelId : ChannelId) (userChannelId : UInt64) (isPublic : Bool)
      (counterparty : PublicKey)
  | register (temporaryChannelId : ChannelId)
  | fundingGenerationReady (temporaryChannelId : ChannelId)
  | fundingFailed (message : String)
  | updateFunded (now : Timestamp) (txid : Txid) (answer : Answer)
  | respond
  | finish (temporaryChannelId : ChannelId) (now : Timestamp) (answer : Answer)
  | drop (temporaryChannelId : ChannelId)
  | channelPending (channelId : ChannelId) (formerTemporaryChannelId : ChannelId)
      (vout : UInt32) (now : Timestamp) (answer : Answer)

def State.set (s : State) (id : ChannelId) (o : Opening) : State :=
  { s with openings := Function.update s.openings id (some o) }

/-- A reply reaches the request unless that was dropped. -/
def Opening.reply (o : Opening) (reply : Except String Txid) : Opening :=
  match o.stage with
  | .waiting => { o with stage := .replied reply }
  | _ => o

def fundedStatus (userChannelId : UInt64) : String :=
  "Channel with user channel id " ++ toString userChannelId.toNat ++ " has been funded"

def pendingStatus : String := "Updated by ChannelPending Event"

/-- The last lines of a request; the failure of the insertion is logged only. -/
def finishRequest (s : State) (id : ChannelId) (o : Opening) (now : Timestamp) (answer : Answer) :
    Except String Txid → State
  | .error message => s.set id { o with stage := .returned (.error message) }
  | .ok txid =>
    let inserted := if answer.written then
        persistInitializingChannel now id o.isPublic o.counterparty txid s.rows
      else none
    { s.set id { o with stage := .returned (.ok txid) } with rows := inserted.getD s.rows }

def step (s : State) : Step → Option State
  | .createChannel id userChannelId isPublic counterparty =>
    match s.openings id with
    | some _ => none
    | none => some (s.set id
        ⟨userChannelId, isPublic, counterparty, .created, .awaited, false, none, none⟩)
  | .register id =>
    match s.openings id with
    | some o =>
      match o.stage with
      | .created => some (s.set id { o with stage := .waiting })
      | _ => none
    | none => none
  | .fundingGenerationReady id =>
    match s.handling, s.openings id with
    | none, some o =>
      if o.firstEvent ≠ .awaited then none
      else if o.stage.registered then
        some { s.set id { o with firstEvent := .taken } with handling := some (.funding id) }
      else some (s.set id { o with firstEvent := .handled })
    | _, _ => none
  | .fundingFailed message =>
    match s.handling with
    | some (.funding id) => (s.openings id).map fun o =>
      { s.set id { o.reply (.error message) with firstEvent := .handled } with handling := none }
    | _ => none
  | .updateFunded now txid answer =>
    match s.handling with
    | some (.funding id) => (s.openings id).map fun o =>
      { s.set id { o with
          lastStatus := if answer.written then some (fundedStatus o.userChannelId)
            else o.lastStatus } with
        handling := some (.updated id txid)
        rows := if answer.written then
            updateInitializingChannel now id none (some (fundedStatus o.userChannelId)) s.rows
          else s.rows }
    | _ => none
  | .respond =>
    match s.handling with
    | some (.updated id txid) => (s.openings id).map fun o =>
      { s.set id { o.reply (.ok txid) with firstEvent := .handled, funded := true } with
        handling := none }
    | _ => none
  | .finish id now answer =>
    match s.openings id with
    | some o =>
      match o.stage with
      | .replied reply => some (finishRequest s id o now answer reply)
      | _ => none
    | none => none
  | .drop id =>
    match s.openings id with
    | some o =>
      match o.stage with
      | .returned _ => none
      | _ => some (s.set id { o with stage := .dropped o.stage.registered })
    | none => none
  | .channelPending channelId id vout now answer =>
    match s.handling, s.openings id with
    | none, some o =>
      if o.funded ∧ o.pending = none then
        some { s.set id { o with
            pending := some (channelId, vout)
            lastStatus := if answer.written then some pendingStatus else o.lastStatus } with
          rows := if answer.written then
              updateInitializingChannel now id (some (channelId, vout)) none s.rows
            else s.rows }
      else none
    | _, _ => none

/-- The one row of the temporary id carries what the event reported and the last status. -/
def FinalRow (rows : Table ChannelId InitializingChannelRow) (id : ChannelId) (o : Opening)
    (channelId : ChannelId) (vout : UInt32) : Prop :=
  ∃ row, rows.lookup id = some row ∧ row.channelId = some channelId ∧
    row.vout = some vout.toInt32 ∧ row.status = o.lastStatus

def ReachesFinal (s : State) : Prop :=
  ∀ id o txid channelId vout, s.openings id = some o → o.stage = .returned (.ok txid) →
    o.funded = true → o.pending = some (channelId, vout) → FinalRow s.rows id o channelId vout

/-- A request inserts its row before `ChannelPending` is handled, and the update of that event
finds the row, and is written, once the request has returned. -/
def InsertedFirst (s : State) : Step → Prop
  | .finish id _ _ => ∀ o txid, s.openings id = some o → o.stage = .replied (.ok txid) →
    o.pending = none
  | .channelPending _ id _ _ answer => ∀ o txid, s.openings id = some o →
    o.stage = .returned (.ok txid) → id ∈ s.rows ∧ answer.written = true
  | _ => True

def State.handles (s : State) : Option ChannelId :=
  s.handling.map fun
    | .funding id => id
    | .updated id _ => id

/-- Nothing but a reply with a transaction lets a request return one. -/
def Stage.Unfunded (stage : Stage) : Prop :=
  ∀ txid, stage ≠ .replied (.ok txid) ∧ stage ≠ .returned (.ok txid)

/-- A row is there only for a request that returned; a request has been replied to only after
its channel was funded. -/
structure OpeningInv (rows : Table ChannelId InitializingChannelRow) (id : ChannelId)
    (o : Opening) : Prop where
  unfunded : o.firstEvent ≠ .handled ∨ o.funded = false → o.stage.Unfunded
  noRow : (∀ txid, o.stage ≠ .returned (.ok txid)) → rows.lookup id = none
  unset : o.pending = none → ∀ row, rows.lookup id = some row → row.channelId = none
  final : ∀ txid channelId vout, o.stage = .returned (.ok txid) →
    o.pending = some (channelId, vout) → FinalRow rows id o channelId vout

structure Inv (s : State) : Prop where
  openings : ∀ id o, s.openings id = some o → OpeningInv s.rows id o
  unknown : ∀ id, s.openings id = none → s.rows.lookup id = none
  handling : ∀ id, s.handles = some id → ∃ o, s.openings id = some o ∧ o.firstEvent = .taken

variable {s s' : State} {id : ChannelId} {o o' : Opening} {now : Timestamp} {answer : Answer}
  {rows : Table ChannelId InitializingChannelRow}

theorem inv_initial : Inv initial :=
  ⟨fun _ _ h => (nomatch h), fun _ _ => AList.lookup_empty _, nofun⟩

theorem Inv.reachesFinal (hInv : Inv s) : ReachesFinal s :=
  fun id o txid channelId vout hOpening hStage _ hPending =>
    (hInv.openings id o hOpening).final txid channelId vout hStage hPending

theorem OpeningInv.congr (h : OpeningInv rows id o)
    {rows' : Table ChannelId InitializingChannelRow} (hRows : rows'.lookup id = rows.lookup id) :
    OpeningInv rows' id o where
  unfunded := h.unfunded
  noRow hStage := hRows.trans (h.noRow hStage)
  unset hPending row hRow := h.unset hPending row (hRows.symm.trans hRow)
  final txid channelId vout hStage hPending := by
    obtain ⟨row, hRow, hRest⟩ := h.final txid channelId vout hStage hPending
    exact ⟨row, hRows.trans hRow, hRest⟩

/-- An opening whose request has not returned a transaction has no row. -/
theorem openingInv_of_noRow (hUnfunded : o.firstEvent ≠ .handled ∨ o.funded = false →
    o.stage.Unfunded) (hNot : ∀ txid, o.stage ≠ .returned (.ok txid))
    (hNoRow : rows.lookup id = none) : OpeningInv rows id o where
  unfunded := hUnfunded
  noRow _ := hNoRow
  unset _ _ hRow := nomatch hNoRow.symm.trans hRow
  final txid _ _ hStage := absurd hStage (hNot txid)

/-- A step that changes one opening, and no other row than its own. -/
theorem Inv.of_update (hInv : Inv s)
    (hOpenings : s'.openings = Function.update s.openings id (some o'))
    (hRows : ∀ k, k ≠ id → s'.rows.lookup k = s.rows.lookup k)
    (hNew : OpeningInv s'.rows id o')
    (hHandling : ∀ k, s'.handles = some k → ∃ r, s'.openings k = some r ∧ r.firstEvent = .taken) :
    Inv s' := by
  refine ⟨?_, ?_, hHandling⟩
  · intro k r hOpening
    rw [hOpenings] at hOpening
    obtain ⟨rfl, rfl⟩ | ⟨hSame, hOpening⟩ := PartialMap.update_eq_some_iff.mp hOpening
    · exact hNew
    · exact (hInv.openings k r hOpening).congr (hRows k hSame)
  · intro k hNone
    rw [hOpenings] at hNone
    obtain ⟨hSame, hNone⟩ := PartialMap.update_eq_none_iff.mp hNone
    exact (hRows k hSame).trans (hInv.unknown k hNone)

theorem Inv.handling_update (hInv : Inv s)
    (hKeep : ∀ old, s.openings id = some old → old.firstEvent = .taken → o'.firstEvent = .taken) :
    ∀ k, s.handles = some k →
      ∃ r, Function.update s.openings id (some o') k = some r ∧ r.firstEvent = .taken := by
  intro k hHandles
  exact PartialMap.exists_update hKeep (hInv.handling k hHandles)

theorem keep_event (hOpening : s.openings id = some o) (hEvent : o'.firstEvent = o.firstEvent) :
    ∀ old, s.openings id = some old → old.firstEvent = .taken → o'.firstEvent = .taken := by
  intro old hOld hTaken
  obtain rfl := Option.some.inj (hOpening.symm.trans hOld)
  exact hEvent.trans hTaken

theorem lookup_updatePending (now : Timestamp) (id channelId : ChannelId) (vout : UInt32)
    (rows : Table ChannelId InitializingChannelRow) (k : ChannelId) :
    (updateInitializingChannel now id (some (channelId, vout)) none rows).lookup k =
      if k = id then (rows.lookup id).map fun row =>
        { row with
          channelId := some channelId, vout := some vout.toInt32, updateTimestamp := now
          status := some pendingStatus } else rows.lookup k :=
  Table.lookup_update ..

theorem lookup_updatePending_absent (hNoRow : rows.lookup id = none) (channelId : ChannelId)
    (vout : UInt32) (k : ChannelId) :
    (updateInitializingChannel now id (some (channelId, vout)) none rows).lookup k =
      rows.lookup k :=
  Table.lookup_update_of_none hNoRow ..

theorem lookup_updateFunded_absent (hNoRow : rows.lookup id = none) (status : String)
    (k : ChannelId) :
    (updateInitializingChannel now id none (some status) rows).lookup k = rows.lookup k :=
  Table.lookup_update_of_none hNoRow ..

/-- The insertion succeeds, and the row says nothing of the final channel. -/
theorem persist_row (now : Timestamp) (hNoRow : rows.lookup id = none) (o : Opening)
    (txid : Txid) :
    ∃ rows', persistInitializingChannel now id o.isPublic o.counterparty txid rows = some rows' ∧
      ∀ k, rows'.lookup k = if k = id then some
        ⟨o.counterparty, o.isPublic, none, none, txid, none, now, now⟩ else rows.lookup k := by
  refine ⟨_, Table.insertNew_eq_some_iff.mpr ⟨hNoRow, rfl⟩, fun k => ?_⟩
  split
  · rename_i hSame
    rw [hSame]
    exact AList.lookup_insert rows
  · rename_i hSame
    exact AList.lookup_insert_ne hSame

theorem inv_createChannel {userChannelId : UInt64} {isPublic : Bool} {counterparty : PublicKey}
    (hInv : Inv s)
    (hStep : step s (.createChannel id userChannelId isPublic counterparty) = some s') :
    Inv s' := by
  dsimp only [step] at hStep
  split at hStep
  · exact nomatch hStep
  · rename_i hNone
    obtain rfl := Option.some.inj hStep
    refine hInv.of_update rfl (fun _ _ => rfl) ?_ (hInv.handling_update fun old hOld => ?_)
    · exact openingInv_of_noRow (fun _ _ => ⟨nofun, nofun⟩) nofun (hInv.unknown id hNone)
    · exact nomatch hNone.symm.trans hOld

theorem inv_register (hInv : Inv s) (hStep : step s (.register id) = some s') : Inv s' := by
  dsimp only [step] at hStep
  split at hStep
  · rename_i o hOpening
    split at hStep
    · rename_i hStage
      obtain rfl := Option.some.inj hStep
      have hOld := hInv.openings id o hOpening
      refine hInv.of_update rfl (fun _ _ => rfl) ?_
        (hInv.handling_update (keep_event hOpening rfl))
      refine openingInv_of_noRow (fun _ _ => ⟨nofun, nofun⟩) nofun (hOld.noRow fun _ => ?_)
      rw [hStage]
      exact nofun
    · exact nomatch hStep
  · exact nomatch hStep

theorem inv_fundingGenerationReady (hInv : Inv s)
    (hStep : step s (.fundingGenerationReady id) = some s') : Inv s' := by
  dsimp only [step] at hStep
  split at hStep
  · rename_i o hIdle hOpening
    have hOld := hInv.openings id o hOpening
    split at hStep
    · exact nomatch hStep
    · rename_i hAwaited
      have hUnfunded := hOld.unfunded (Or.inl (by rw [not_not.mp hAwaited]; exact nofun))
      split at hStep
      · obtain rfl := Option.some.inj hStep
        refine hInv.of_update rfl (fun _ _ => rfl)
          ⟨fun _ => hUnfunded, hOld.noRow, hOld.unset, hOld.final⟩ ?_
        intro k hHandles
        obtain rfl := Option.some.inj hHandles
        exact ⟨_, Function.update_self .., rfl⟩
      · obtain rfl := Option.some.inj hStep
        refine hInv.of_update rfl (fun _ _ => rfl)
          ⟨fun _ => hUnfunded, hOld.noRow, hOld.unset, hOld.final⟩ ?_
        intro k hHandles
        rw [State.handles, State.set, hIdle] at hHandles
        exact nomatch hHandles
  · exact nomatch hStep

theorem inv_drop (hInv : Inv s) (hStep : step s (.drop id) = some s') : Inv s' := by
  dsimp only [step] at hStep
  split at hStep
  · rename_i o hOpening
    split at hStep
    · exact nomatch hStep
    · rename_i hStage
      obtain rfl := Option.some.inj hStep
      have hOld := hInv.openings id o hOpening
      refine hInv.of_update rfl (fun _ _ => rfl) ?_
        (hInv.handling_update (keep_event hOpening rfl))
      exact openingInv_of_noRow (fun _ _ => ⟨nofun, nofun⟩) nofun
        (hOld.noRow fun txid hReturned => hStage _ hReturned)
  · exact nomatch hStep

/-- The opening whose funding is being handled. -/
theorem Inv.handled (hInv : Inv s) (hHandles : s.handles = some id) :
    ∃ o, s.openings id = some o ∧ o.stage.Unfunded ∧ s.rows.lookup id = none := by
  obtain ⟨o, hOpening, hTaken⟩ := hInv.handling id hHandles
  have hOld := hInv.openings id o hOpening
  have hUnfunded := hOld.unfunded (Or.inl (by rw [hTaken]; exact nofun))
  exact ⟨o, hOpening, hUnfunded, hOld.noRow fun txid => (hUnfunded txid).2⟩

theorem reply_stage (o : Opening) (reply : Except String Txid) :
    (o.reply reply).stage = .replied reply ∨ (o.reply reply).stage = o.stage := by
  unfold Opening.reply
  split
  · exact Or.inl rfl
  · exact Or.inr rfl

theorem inv_fundingFailed {message : String} (hInv : Inv s)
    (hStep : step s (.fundingFailed message) = some s') : Inv s' := by
  dsimp only [step] at hStep
  split at hStep
  · rename_i id hFunding
    have hHandles : s.handles = some id := congrArg (Option.map _) hFunding
    obtain ⟨o, hOpening, hUnfunded, hNoRow⟩ := hInv.handled hHandles
    rw [hOpening] at hStep
    obtain rfl := Option.some.inj hStep
    have hReply : (o.reply (.error message)).stage.Unfunded := by
      obtain hStage | hStage := reply_stage o (.error message)
      · rw [hStage]
        exact fun txid => ⟨nofun, nofun⟩
      · rwa [hStage]
    exact hInv.of_update rfl (fun _ _ => rfl)
      (openingInv_of_noRow (fun _ => hReply) (fun txid => (hReply txid).2) hNoRow) nofun
  · exact nomatch hStep

theorem inv_updateFunded {txid : Txid} (hInv : Inv s)
    (hStep : step s (.updateFunded now txid answer) = some s') : Inv s' := by
  dsimp only [step] at hStep
  split at hStep
  · rename_i id hFunding
    have hHandles : s.handles = some id := congrArg (Option.map _) hFunding
    obtain ⟨o, hOpening, hUnfunded, hNoRow⟩ := hInv.handled hHandles
    rw [hOpening] at hStep
    obtain rfl := Option.some.inj hStep
    have hRows : ∀ k, (if answer.written then updateInitializingChannel now id none
        (some (fundedStatus o.userChannelId)) s.rows else s.rows).lookup k = s.rows.lookup k := by
      intro k
      split
      · exact lookup_updateFunded_absent hNoRow _ k
      · rfl
    refine hInv.of_update rfl (fun k _ => hRows k) (openingInv_of_noRow (fun _ => hUnfunded)
      (fun txid => (hUnfunded txid).2) ((hRows id).trans hNoRow)) ?_
    intro k hNext
    obtain rfl := Option.some.inj hNext
    obtain ⟨old, hOld, hTaken⟩ := hInv.handling id hHandles
    obtain rfl := Option.some.inj (hOpening.symm.trans hOld)
    exact ⟨_, Function.update_self .., hTaken⟩
  · exact nomatch hStep

theorem inv_respond (hInv : Inv s) (hStep : step s .respond = some s') : Inv s' := by
  dsimp only [step] at hStep
  split at hStep
  · rename_i id txid hUpdated
    have hHandles : s.handles = some id := congrArg (Option.map _) hUpdated
    obtain ⟨o, hOpening, hUnfunded, hNoRow⟩ := hInv.handled hHandles
    rw [hOpening] at hStep
    obtain rfl := Option.some.inj hStep
    refine hInv.of_update rfl (fun _ _ => rfl) (openingInv_of_noRow nofun ?_ hNoRow) nofun
    obtain hStage | hStage := reply_stage o (.ok txid)
    · dsimp only
      rw [hStage]
      exact nofun
    · dsimp only
      rw [hStage]
      exact fun txid => (hUnfunded txid).2
  · exact nomatch hStep

/-- The row of a request that finishes is the one that it inserts, if it inserts one. -/
theorem finish_cases (hInv : Inv s) (hStep : step s (.finish id now answer) = some s') :
    ∃ o, s.openings id = some o ∧ s'.handles = s.handles ∧ ((∃ message,
      o.stage = .replied (.error message) ∧ s'.openings = Function.update s.openings id
        (some { o with stage := .returned (.error message) }) ∧
      s'.rows = s.rows ∧ s.rows.lookup id = none) ∨
    ∃ txid, o.stage = .replied (.ok txid) ∧ o.firstEvent = .handled ∧ o.funded = true ∧
      s'.openings = Function.update s.openings id
        (some { o with stage := .returned (.ok txid) }) ∧
      (∀ k, k ≠ id → s'.rows.lookup k = s.rows.lookup k) ∧
      ∀ row, s'.rows.lookup id = some row → row.channelId = none) := by
  dsimp only [step] at hStep
  split at hStep
  · rename_i o hOpening
    have hOld := hInv.openings id o hOpening
    refine ⟨o, hOpening, ?_⟩
    split at hStep
    · rename_i reply hStage
      obtain rfl := Option.some.inj hStep
      have hNoRow := hOld.noRow (by rw [hStage]; exact nofun)
      cases reply with
      | error message => exact ⟨rfl, Or.inl ⟨message, hStage, rfl, rfl, hNoRow⟩⟩
      | ok txid =>
        have hFunded : o.firstEvent = .handled ∧ o.funded = true := by
          by_contra hNot
          rw [not_and_or, Bool.not_eq_true] at hNot
          exact (hOld.unfunded hNot txid).1 hStage
        refine ⟨rfl, Or.inr ⟨txid, hStage, hFunded.1, hFunded.2, rfl, ?_⟩⟩
        dsimp only [finishRequest]
        split
        · obtain ⟨rows', hPersist, hRows⟩ := persist_row now hNoRow o txid
          rw [hPersist, Option.getD_some]
          refine ⟨fun k hNe => ?_, fun row hRow => ?_⟩
          · rw [hRows, if_neg hNe]
          · rw [hRows, if_pos rfl] at hRow
            rw [← Option.some.inj hRow]
        · refine ⟨fun _ _ => rfl, fun row hRow => ?_⟩
          exact nomatch hNoRow.symm.trans hRow
    · exact nomatch hStep
  · exact nomatch hStep

theorem inv_finish (hInv : Inv s) (hFirst : InsertedFirst s (.finish id now answer))
    (hStep : step s (.finish id now answer) = some s') : Inv s' := by
  obtain ⟨o, hOpening, hHandles, ⟨message, _, hOpenings, hRows, hNoRow⟩ |
    ⟨txid, hStage, hHandled, hFunded, hOpenings, hRows, hUnset⟩⟩ := finish_cases hInv hStep
  · refine hInv.of_update hOpenings (fun k _ => by rw [hRows]) ?_ ?_
    · exact openingInv_of_noRow (fun _ _ => ⟨nofun, nofun⟩) nofun (hRows ▸ hNoRow)
    · rw [hHandles, hOpenings]
      exact hInv.handling_update (keep_event hOpening rfl)
  · have hPending : o.pending = none := hFirst o txid hOpening hStage
    refine hInv.of_update hOpenings hRows ⟨fun hNot => ?_, fun hNot => ?_, fun _ => hUnset,
      fun _ channelId vout _ hSome => ?_⟩ ?_
    · exact (hNot.elim (fun h => h hHandled) (Bool.eq_false_iff.mp · hFunded)).elim
    · exact absurd rfl (hNot txid)
    · exact nomatch hPending.symm.trans hSome
    · rw [hHandles, hOpenings]
      exact hInv.handling_update (keep_event hOpening rfl)

theorem channelPending_eq_some {channelId : ChannelId} {vout : UInt32}
    (hStep : step s (.channelPending channelId id vout now answer) = some s') :
    ∃ o, s.handling = none ∧ s.openings id = some o ∧ o.funded = true ∧ o.pending = none ∧
      s' = { s.set id { o with
          pending := some (channelId, vout)
          lastStatus := if answer.written then some pendingStatus else o.lastStatus } with
        rows := if answer.written then
            updateInitializingChannel now id (some (channelId, vout)) none s.rows
          else s.rows } := by
  dsimp only [step] at hStep
  split at hStep
  · rename_i o hIdle hOpening
    split at hStep
    · rename_i hPending
      exact ⟨o, hIdle, hOpening, hPending.1, hPending.2, (Option.some.inj hStep).symm⟩
    · exact nomatch hStep
  · exact nomatch hStep

theorem inv_channelPending {channelId : ChannelId} {vout : UInt32} (hInv : Inv s)
    (hFirst : InsertedFirst s (.channelPending channelId id vout now answer))
    (hStep : step s (.channelPending channelId id vout now answer) = some s') : Inv s' := by
  obtain ⟨o, hIdle, hOpening, hFunded, hPending, rfl⟩ := channelPending_eq_some hStep
  have hOld := hInv.openings id o hOpening
  refine hInv.of_update rfl (fun k hNe => ?_) ?_ (hInv.handling_update (keep_event hOpening rfl))
  · dsimp only
    split
    · rw [lookup_updatePending, if_neg hNe]
    · rfl
  · by_cases hReturned : ∃ txid, o.stage = .returned (.ok txid)
    · obtain ⟨txid, hStage⟩ := hReturned
      obtain ⟨hMem, hWritten⟩ := hFirst o txid hOpening hStage
      obtain ⟨row, hRow⟩ := Option.isSome_iff_exists.mp (AList.lookup_isSome.mpr hMem)
      dsimp only
      rw [if_pos hWritten, if_pos hWritten]
      refine ⟨hOld.unfunded, fun hNot => absurd hStage (hNot txid), nofun, ?_⟩
      intro _ channelId' vout' _ hSome
      cases hSome
      have hUpdated := lookup_updatePending now id channelId vout s.rows id
      rw [if_pos rfl, hRow, Option.map_some] at hUpdated
      exact ⟨_, hUpdated, rfl, rfl, rfl⟩
    · have hNot : ∀ txid, o.stage ≠ .returned (.ok txid) := not_exists.mp hReturned
      have hNoRow := hOld.noRow hNot
      refine openingInv_of_noRow hOld.unfunded hNot ?_
      dsimp only
      split
      · exact (lookup_updatePending_absent hNoRow channelId vout id).trans hNoRow
      · exact hNoRow

theorem inv_step (s : State) (e : Step) (s' : State) (hInv : Inv s) (hFirst : InsertedFirst s e)
    (hStep : step s e = some s') : Inv s' := by
  cases e with
  | createChannel id userChannelId isPublic counterparty => exact inv_createChannel hInv hStep
  | register id => exact inv_register hInv hStep
  | fundingGenerationReady id => exact inv_fundingGenerationReady hInv hStep
  | fundingFailed message => exact inv_fundingFailed hInv hStep
  | updateFunded now txid answer => exact inv_updateFunded hInv hStep
  | respond => exact inv_respond hInv hStep
  | finish id now answer => exact inv_finish hInv hFirst hStep
  | drop id => exact inv_drop hInv hStep
  | channelPending channelId id vout now answer => exact inv_channelPending hInv hFirst hStep

/-- A row that is inserted after `ChannelPending` was handled never hears of the final channel. -/
theorem not_final_of_finish (hInv : Inv s) (hLate : ¬ InsertedFirst s (.finish id now answer))
    (hStep : step s (.finish id now answer) = some s') : ¬ ReachesFinal s' := by
  unfold InsertedFirst at hLate
  push Not at hLate
  obtain ⟨o, txid, hOpening, hStage, hPending⟩ := hLate
  obtain ⟨⟨channelId, vout⟩, hSome⟩ := Option.ne_none_iff_exists'.mp hPending
  obtain ⟨o', hOpening', _, hFinish⟩ := finish_cases hInv hStep
  obtain rfl := Option.some.inj (hOpening.symm.trans hOpening')
  intro hReaches
  obtain ⟨message, hStage', _⟩ | ⟨txid', hStage', _, hFunded, hOpenings, _, hUnset⟩ := hFinish
  · exact nomatch hStage.symm.trans hStage'
  · obtain ⟨row, hRow, hChannel, _⟩ := hReaches id { o with stage := .returned (.ok txid') } txid'
      channelId vout (by rw [hOpenings, Function.update_self]) rfl hFunded hSome
    exact nomatch (hUnset row hRow).symm.trans hChannel

theorem not_final_of_channelPending {channelId : ChannelId} {vout : UInt32} (hInv : Inv s)
    (hLate : ¬ InsertedFirst s (.channelPending channelId id vout now answer))
    (hStep : step s (.channelPending channelId id vout now answer) = some s') :
    ¬ ReachesFinal s' := by
  unfold InsertedFirst at hLate
  push Not at hLate
  obtain ⟨o, txid, hOpening, hStage, hMissing⟩ := hLate
  obtain ⟨o', _, hOpening', hFunded, hPending, rfl⟩ := channelPending_eq_some hStep
  obtain rfl := Option.some.inj (hOpening.symm.trans hOpening')
  have hOld := hInv.openings id o hOpening
  intro hReaches
  obtain ⟨row, hRow, hChannel, _⟩ := hReaches id _ txid channelId vout (Function.update_self ..)
    hStage hFunded rfl
  dsimp only at hRow
  split at hRow
  · rename_i hWritten
    have hNoRow : s.rows.lookup id = none :=
      AList.lookup_eq_none.mpr fun hMem => hMissing hMem hWritten
    rw [lookup_updatePending_absent hNoRow, hNoRow] at hRow
    exact nomatch hRow
  · exact nomatch (hOld.unset hPending row hRow).symm.trans hChannel

theorem reaches_final_iff {steps : List Step} {t : State} (hRun : run step initial steps = some t) :
    Always step ReachesFinal initial steps ↔ Along step InsertedFirst initial steps := by
  refine always_iff_along (fun _ hInv => hInv.reachesFinal) inv_step ?_ inv_initial hRun
  intro s e s' hInv hLate hStep
  cases e with
  | finish id now answer => exact not_final_of_finish hInv hLate hStep
  | channelPending channelId id vout now answer =>
    exact not_final_of_channelPending hInv hLate hStep
  | _ => exact absurd trivial hLate

def temporaryId : ChannelId := ⟨.replicate 32 1⟩

def finalId : ChannelId := ⟨.replicate 32 2⟩

def opened : List Step :=
  [.createChannel temporaryId 7 true ⟨.replicate 33 3⟩, .register temporaryId,
    .fundingGenerationReady temporaryId, .updateFunded 1 ⟨.replicate 32 4⟩ .stored, .respond]

def insertRow : Step := .finish temporaryId 2 .stored

def reportPending : Step := .channelPending finalId temporaryId 0 3 .stored

/-- The other party signs before the request gets to its insertion. -/
theorem late_row_stays_initial :
    ¬ Always step ReachesFinal initial (opened ++ [reportPending, insertRow]) := by
  intro hAlways
  obtain ⟨row, hRow, hChannel, _⟩ := hAlways.end rfl temporaryId _ ⟨.replicate 32 4⟩ finalId 0
    rfl rfl rfl rfl
  obtain rfl := Option.some.inj (hRow.symm.trans rfl)
  exact nomatch hChannel

theorem reaches_final_iff_in_order :
    Always step ReachesFinal initial (opened ++ [insertRow, reportPending]) ↔
      Along step InsertedFirst initial (opened ++ [insertRow, reportPending]) :=
  reaches_final_iff rfl

end Kld.InitializingChannels
