import Kld.Database.ChannelHistory
import Kld.Lib.Fallible
import Kld.Lib.Listing

/-! # The records of all channels, with the details that were stored of them -/

namespace Kld.ChannelRecords

open Sql Serial Transition Fallible ChannelHistory

/-- Identifiers are given as values instead of their digits. -/
structure ChannelRecord where
  channelId : ChannelId
  counterparty : PublicKey
  openTimestamp : Timestamp
  updateTimestamp : Timestamp
  closureReason : Option String
  detail : Option ChannelDetails
deriving DecidableEq

inductive DecodeError where
  | unreadable
deriving DecidableEq

section Fetch

variable (codec : Codec ChannelDetails)

/-- The record of a row, with the column that says whether the channel is usable in its details. -/
def channelRecord (entry : ChannelId × ChannelRow) (detail : Option ChannelDetails) :
    ChannelRecord :=
  { channelId := entry.1, counterparty := entry.2.counterparty
    openTimestamp := entry.2.openTimestamp, updateTimestamp := entry.2.updateTimestamp
    closureReason := entry.2.closureReason
    detail := detail.map fun detail => { detail with isUsable := entry.2.isUsable } }

def readRecord (entry : ChannelId × ChannelRow) : Except DecodeError ChannelRecord :=
  match readOptional codec entry.2 with
  | some detail => .ok (channelRecord entry detail)
  | none => .error .unreadable

def fetchChannels (channels : Table ChannelId ChannelRow) :
    Except DecodeError (List ChannelRecord) :=
  channels.rows.mapM (readRecord codec)

def storedDetail (row : ChannelRow) : Option ChannelDetails := row.data.bind codec.read

end Fetch

variable {codec : Codec ChannelDetails} {channels : Table ChannelId ChannelRow}

/-- Well-formed rows have a record each, whose details are those of the channel. -/
theorem fetchChannels_lists (h : WellFormed codec channels) :
    ∃ records, fetchChannels codec channels = .ok records ∧
      Lists ChannelRecord.channelId records (fun channelId =>
        ((channels.lookup channelId).map (channelId, ·)).map fun entry =>
          channelRecord entry (storedDetail codec entry.2)) ∧
      ∀ record ∈ records, ∀ detail, record.detail = some detail →
        detail.channelId = record.channelId := by
  refine ⟨channels.rows.map fun entry => channelRecord entry (storedDetail codec entry.2),
    mapM_ok fun entry hMem => ?_, (Lists.rows channels).map _ fun _ => rfl, ?_⟩
  · unfold readRecord readOptional storedDetail
    rcases h entry.1 entry.2 (Table.mem_rows_iff.mp hMem) with hNone | ⟨detail, _, hData⟩
    · rw [hNone]
      rfl
    · rw [hData]
      dsimp only
      rw [codec.read_write, Option.bind_some, codec.read_write]
      rfl
  · intro record hRecord detail hDetail
    obtain ⟨entry, hMem, rfl⟩ := List.mem_map.mp hRecord
    obtain ⟨stored, hStored, rfl⟩ := Option.map_eq_some_iff.mp hDetail
    rcases h entry.1 entry.2 (Table.mem_rows_iff.mp hMem) with hNone | ⟨written, hId, hData⟩
    · rw [storedDetail, hNone] at hStored
      cases hStored
    · rw [storedDetail, hData, Option.bind_some, codec.read_write] at hStored
      obtain rfl := Option.some.inj hStored
      exact hId

theorem wellFormed_run {calls : List Statement} {s : State}
    (hRun : run (step codec) initial calls = some s) : WellFormed codec s.channels :=
  invariant_run (fun _ _ _ => wellFormed_step) inv_initial.wellFormed hRun

end Kld.ChannelRecords
