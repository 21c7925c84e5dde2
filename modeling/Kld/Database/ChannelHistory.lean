import Kld.Database.LdkDatabase
import Kld.Lib.Run

/-!
# The channel history

The history is read off the columns of the channels table: a row counts as
closed when it is not usable. The same column is overwritten whenever channel
details are stored, whether they come from an event or from a snapshot that an
API request took earlier.
-/

namespace Kld.ChannelHistory

open Sql Serial Transition

inductive Call where
  | createChannel (channelId : ChannelId) (isPublic : Bool) (counterparty : PublicKey)
      (now : Timestamp)
  | persistChannel (channel : ChannelDetails) (now : Timestamp)
  | updateChannels (channels : List (ChannelDetails × Timestamp))
  | closeChannel (channelId : ChannelId) (closureReason : String) (now : Timestamp)

inductive Statement where
  | create (channelId : ChannelId) (isPublic : Bool) (counterparty : PublicKey) (now : Timestamp)
  | persist (channel : ChannelDetails) (now : Timestamp)
  | close (channelId : ChannelId) (closureReason : String) (now : Timestamp)

def Call.statements : Call → List Statement
  | .createChannel channelId isPublic counterparty now =>
    [.create channelId isPublic counterparty now]
  | .persistChannel channel now => [.persist channel now]
  | .updateChannels channels => channels.map fun entry => .persist entry.1 entry.2
  | .closeChannel channelId closureReason now => [.close channelId closureReason now]

/-- The table, and for each channel the reason and time of the last call that closed it. -/
structure State where
  channels : Table ChannelId ChannelRow
  lastClose : ChannelId → Option (String × Timestamp)

def initial : State := ⟨∅, fun _ => none⟩

def step (codec : Codec ChannelDetails) (s : State) : Statement → Option State
  | .create channelId isPublic counterparty now =>
    some { s with
      channels := (createChannel now channelId isPublic counterparty s.channels).getD s.channels }
  | .persist channel now => some { s with channels := persistChannel codec now channel s.channels }
  | .close channelId reason now =>
    some
      { channels := closeChannel now channelId reason s.channels
        lastClose := Function.update s.lastClose channelId (some (reason, now)) }

/-- A record of the history; identifiers are given as values instead of their digits. -/
structure ChannelRecord where
  channelId : ChannelId
  counterparty : PublicKey
  openTimestamp : Timestamp
  updateTimestamp : Timestamp
  closureReason : Option String
  detail : ChannelDetails
deriving DecidableEq

def record (row : ChannelRow) (detail : ChannelDetails) : ChannelRecord :=
  { channelId := detail.channelId, counterparty := detail.counterparty.nodeId
    openTimestamp := row.openTimestamp, updateTimestamp := row.updateTimestamp
    closureReason := row.closureReason, detail := { detail with isUsable := false } }

/-- `read_optional("data")`: `none` if there are bytes that cannot be read. -/
def readOptional (codec : Codec ChannelDetails) (row : ChannelRow) :
    Option (Option ChannelDetails) :=
  match row.data with
  | none => some none
  | some bytes => (codec.read bytes).map some

def collectRecords (codec : Codec ChannelDetails) : List ChannelRow → Option (List ChannelRecord)
  | [] => some []
  | row :: rows =>
    match readOptional codec row with
    | none => none
    | some none => collectRecords codec rows
    | some (some detail) =>
      (collectRecords codec rows).map fun records => record row detail :: records

def fetchChannelHistory (codec : Codec ChannelDetails) (channels : Table ChannelId ChannelRow) :
    Option (List ChannelRecord) :=
  collectRecords codec ((channels.rows.map Prod.snd).filter fun row => row.isUsable = false)

def HasDetails (channels : Table ChannelId ChannelRow) (channelId : ChannelId) : Prop :=
  ∃ row, channels.lookup channelId = some row ∧ row.data ≠ none

/-- The history holds the closed channels with details, each once and with its last close. -/
def HistoryRight (codec : Codec ChannelDetails) (s : State) : Prop :=
  ∃ records, fetchChannelHistory codec s.channels = some records ∧
    (records.map ChannelRecord.channelId).Nodup ∧
    (∀ channelId, channelId ∈ records.map ChannelRecord.channelId ↔
      HasDetails s.channels channelId ∧ s.lastClose channelId ≠ none) ∧
    ∀ r ∈ records, ∃ reason, r.closureReason = some reason ∧
      s.lastClose r.channelId = some (reason, r.updateTimestamp)

/-- What is stored is usable and not closed, or else repeats the recorded close. -/
def StoresOpen (s : State) : Statement → Prop
  | .persist channel now =>
    match s.lastClose channel.channelId with
    | none => channel.isUsable = true
    | some (reason, time) =>
      channel.isUsable = false ∧ now = time ∧
        ∃ row, s.channels.lookup channel.channelId = some row ∧ row.closureReason = some reason
  | _ => True

def WellFormed (codec : Codec ChannelDetails) (channels : Table ChannelId ChannelRow) : Prop :=
  ∀ channelId row, channels.lookup channelId = some row → row.data = none ∨
    ∃ detail : ChannelDetails, detail.channelId = channelId ∧ row.data = some (codec.write detail)

def RowRight (row : ChannelRow) (lastClose : Option (String × Timestamp)) : Prop :=
  row.data ≠ none →
    match lastClose with
    | none => row.isUsable = true
    | some (reason, time) =>
      row.isUsable = false ∧ row.closureReason = some reason ∧ row.updateTimestamp = time

structure Inv (codec : Codec ChannelDetails) (s : State) : Prop where
  wellFormed : WellFormed codec s.channels
  rows : ∀ channelId row, s.channels.lookup channelId = some row →
    RowRight row (s.lastClose channelId)

variable {codec : Codec ChannelDetails} {s s' : State} {channels : Table ChannelId ChannelRow}

def historyRecord (codec : Codec ChannelDetails) (entry : ChannelId × ChannelRow) :
    Option ChannelRecord :=
  if entry.2.isUsable then none else (entry.2.data.bind codec.read).map (record entry.2)

theorem collectRecords_eq {entries : List (ChannelId × ChannelRow)}
    (h : ∀ entry ∈ entries, entry.2.data = none ∨
      ∃ detail : ChannelDetails, detail.channelId = entry.1 ∧
        entry.2.data = some (codec.write detail)) :
    collectRecords codec ((entries.map Prod.snd).filter fun row => row.isUsable = false) =
      some (entries.filterMap (historyRecord codec)) := by
  induction entries with
  | nil => rfl
  | cons entry entries ih =>
    obtain ⟨hHead, hTail⟩ := List.forall_mem_cons.mp h
    rw [List.map_cons, List.filterMap_cons]
    cases hUsable : entry.2.isUsable with
    | true =>
      rw [List.filter_cons_of_neg (by simp [hUsable]), ih hTail]
      simp [historyRecord, hUsable]
    | false =>
      rw [List.filter_cons_of_pos (by simp [hUsable]), collectRecords, ih hTail]
      rcases hHead with hNone | ⟨detail, _, hData⟩
      · simp [historyRecord, readOptional, hUsable, hNone]
      · simp [historyRecord, readOptional, hUsable, hData]

theorem historyRecord_eq_some_iff {entry : ChannelId × ChannelRow} {r : ChannelRecord}
    (h : entry.2.data = none ∨
      ∃ detail : ChannelDetails, detail.channelId = entry.1 ∧
        entry.2.data = some (codec.write detail)) :
    historyRecord codec entry = some r ↔ entry.2.isUsable = false ∧
      ∃ detail : ChannelDetails, detail.channelId = entry.1 ∧
        entry.2.data = some (codec.write detail) ∧
        r = record entry.2 detail := by
  unfold historyRecord
  cases hUsable : entry.2.isUsable with
  | true => exact iff_of_false nofun fun hRecord => absurd hRecord.1 nofun
  | false =>
    rw [if_neg Bool.false_ne_true]
    rcases h with hNone | ⟨detail, hId, hData⟩
    · rw [hNone]
      refine iff_of_false nofun ?_
      rintro ⟨_, detail, _, hSome, _⟩
      cases hSome
    · rw [hData, Option.bind_some, codec.read_write, Option.map_some]
      constructor
      · intro hRecord
        exact ⟨rfl, detail, hId, rfl, (Option.some.inj hRecord).symm⟩
      · rintro ⟨_, detail', _, hSame, rfl⟩
        rw [codec.write_injective (Option.some.inj hSame)]

theorem map_filterMap_sublist {α β κ : Type} {f : α × κ → Option β} {g : β → α} {xs : List (α × κ)}
    (h : ∀ x ∈ xs, ∀ y, f x = some y → g y = x.1) :
    ((xs.filterMap f).map g).Sublist (xs.map Prod.fst) := by
  induction xs with
  | nil => exact .slnil
  | cons x xs ih =>
    obtain ⟨hHead, hTail⟩ := List.forall_mem_cons.mp h
    rw [List.filterMap_cons, List.map_cons]
    cases hF : f x with
    | none => exact (ih hTail).cons _
    | some y =>
      rw [List.map_cons, hHead y hF]
      exact (ih hTail).cons_cons _

/-- The history can always be fetched, and holds one record for each row that is not usable and
has details. -/
theorem fetchChannelHistory_spec (h : WellFormed codec channels) :
    ∃ records, fetchChannelHistory codec channels = some records ∧
      (records.map ChannelRecord.channelId).Nodup ∧
      ∀ r, r ∈ records ↔ ∃ row detail, channels.lookup r.channelId = some row ∧
        row.isUsable = false ∧
        detail.channelId = r.channelId ∧ row.data = some (codec.write detail) ∧
          r = record row detail := by
  have hEntries : ∀ entry ∈ channels.rows, entry.2.data = none ∨
      ∃ detail : ChannelDetails, detail.channelId = entry.1 ∧
        entry.2.data = some (codec.write detail) :=
    fun entry hEntry => h entry.1 entry.2 (Table.mem_rows_iff.mp hEntry)
  refine ⟨channels.rows.filterMap (historyRecord codec), collectRecords_eq hEntries, ?_, ?_⟩
  · refine List.Nodup.sublist ?_ (channels.rows_map_fst ▸ channels.keys_nodup)
    refine map_filterMap_sublist fun entry hEntry r hRecord => ?_
    obtain ⟨_, detail, hId, _, rfl⟩ :=
      (historyRecord_eq_some_iff (hEntries entry hEntry)).mp hRecord
    exact hId
  · intro r
    rw [List.mem_filterMap]
    constructor
    · rintro ⟨⟨key, row⟩, hEntry, hRecord⟩
      obtain ⟨hUsable, detail, rfl, hData, rfl⟩ :=
        (historyRecord_eq_some_iff (hEntries _ hEntry)).mp hRecord
      exact ⟨row, detail, Table.mem_rows_iff.mp hEntry, hUsable, rfl, hData, rfl⟩
    · rintro ⟨row, detail, hRow, hUsable, hId, hData, hRecord⟩
      have hEntry := Table.mem_rows_iff.mpr hRow
      exact ⟨_, hEntry, (historyRecord_eq_some_iff (hEntries _ hEntry)).mpr
        ⟨hUsable, detail, hId, hData, hRecord⟩⟩

theorem historyRight_iff (h : WellFormed codec s.channels) :
    HistoryRight codec s ↔
      ∀ channelId row, s.channels.lookup channelId = some row →
        RowRight row (s.lastClose channelId) := by
  obtain ⟨records, hFetch, hNodup, hMem⟩ := fetchChannelHistory_spec h
  constructor
  · rintro ⟨records', hFetch', _, hIds, hLast⟩ channelId row hRow hData
    obtain rfl : records = records' := Option.some.inj (hFetch.symm.trans hFetch')
    obtain ⟨detail, rfl, hWritten⟩ := (h channelId row hRow).resolve_left hData
    cases hClosed : s.lastClose detail.channelId with
    | none =>
      by_contra hUsable
      have hRecord : record row detail ∈ records := (hMem _).mpr
        ⟨row, detail, hRow, Bool.eq_false_iff.mpr hUsable, rfl, hWritten, rfl⟩
      exact ((hIds _).mp (List.mem_map_of_mem hRecord)).2 hClosed
    | some last =>
      have hNotNone : s.lastClose detail.channelId ≠ none := by
        rw [hClosed]
        exact nofun
      obtain ⟨r, hRecord, hSame⟩ := List.mem_map.mp ((hIds _).mpr ⟨⟨row, hRow, hData⟩, hNotNone⟩)
      obtain ⟨reason, hReason, hTime⟩ := hLast r hRecord
      obtain ⟨row', detail', hRow', hUsable, _, _, hEq⟩ := (hMem r).mp hRecord
      obtain rfl : row = row' := Option.some.inj (hRow.symm.trans (hSame ▸ hRow'))
      rw [hSame, hClosed] at hTime
      obtain rfl := Option.some.inj hTime
      rw [hEq] at hReason ⊢
      exact ⟨hUsable, hReason, rfl⟩
  · intro hRows
    have hLast : ∀ r ∈ records, ∃ reason, r.closureReason = some reason ∧
        s.lastClose r.channelId = some (reason, r.updateTimestamp) := by
      intro r hRecord
      obtain ⟨row, detail, hRow, hUsable, _, hData, hEq⟩ := (hMem r).mp hRecord
      have hRight := hRows r.channelId row hRow (by rw [hData]; exact nofun)
      cases hClosed : s.lastClose r.channelId with
      | none =>
        rw [hClosed] at hRight
        exact absurd (hUsable.symm.trans hRight) Bool.false_ne_true
      | some last =>
        rw [hClosed] at hRight
        obtain ⟨_, hReason, hTime⟩ := hRight
        rw [hEq]
        exact ⟨last.1, hReason, congrArg (fun time => some (last.1, time)) hTime.symm⟩
    refine ⟨records, hFetch, hNodup, fun channelId => ⟨?_, ?_⟩, hLast⟩
    · intro hIn
      obtain ⟨r, hRecord, rfl⟩ := List.mem_map.mp hIn
      obtain ⟨reason, _, hClosed⟩ := hLast r hRecord
      obtain ⟨row, detail, hRow, _, _, hData, _⟩ := (hMem r).mp hRecord
      exact ⟨⟨row, hRow, by rw [hData]; exact nofun⟩, by rw [hClosed]; exact nofun⟩
    · rintro ⟨⟨row, hRow, hData⟩, hClosed⟩
      obtain ⟨detail, rfl, hWritten⟩ := (h channelId row hRow).resolve_left hData
      obtain ⟨last, hLastClose⟩ := Option.ne_none_iff_exists'.mp hClosed
      have hRight := hRows _ row hRow hData
      rw [hLastClose] at hRight
      have hRecord : record row detail ∈ records :=
        (hMem _).mpr ⟨row, detail, hRow, hRight.1, rfl, hWritten, rfl⟩
      exact List.mem_map_of_mem hRecord

theorem persistChannel_lookup_self (codec : Codec ChannelDetails)
    (channels : Table ChannelId ChannelRow) (now : Timestamp) (channel : ChannelDetails) :
    ∃ row, (persistChannel codec now channel channels).lookup channel.channelId = some row ∧
      row.isUsable = channel.isUsable ∧ row.data = some (codec.write channel) ∧
        row.updateTimestamp = now ∧
      row.closureReason = (channels.lookup channel.channelId).bind ChannelRow.closureReason := by
  unfold persistChannel
  cases channel.shortChannelId <;>
    (dsimp only; rw [Table.lookup_upsert_self]; cases channels.lookup channel.channelId) <;>
    exact ⟨_, rfl, rfl, rfl, rfl, rfl⟩

theorem persistChannel_lookup_of_ne {now : Timestamp} {channel : ChannelDetails}
    {channelId : ChannelId} (h : channelId ≠ channel.channelId) :
    (persistChannel codec now channel channels).lookup channelId = channels.lookup channelId := by
  unfold persistChannel
  cases channel.shortChannelId <;> exact Table.lookup_upsert_of_ne h _ _ _

theorem lookup_create {now : Timestamp} {created channelId : ChannelId} {isPublic : Bool}
    {counterparty : PublicKey} {row : ChannelRow}
    (h : ((createChannel now created isPublic counterparty channels).getD channels).lookup
      channelId = some row) : channels.lookup channelId = some row ∨ row.data = none := by
  cases hCreate : createChannel now created isPublic counterparty channels with
  | none =>
    rw [hCreate] at h
    exact Or.inl h
  | some channels' =>
    obtain ⟨_, rfl⟩ := Table.insertNew_eq_some_iff.mp hCreate
    rw [hCreate, Option.getD_some] at h
    by_cases hSame : channelId = created
    · rw [hSame, AList.lookup_insert] at h
      obtain rfl := Option.some.inj h
      exact Or.inr rfl
    · rw [AList.lookup_insert_ne hSame] at h
      exact Or.inl h

theorem lookup_close {now : Timestamp} {closed channelId : ChannelId} {reason : String}
    {row : ChannelRow} (h : (closeChannel now closed reason channels).lookup channelId = some row) :
    (channelId = closed ∧ ∃ old, channels.lookup channelId = some old ∧
      row = { old with isUsable := false, updateTimestamp := now, closureReason := some reason }) ∨
    (channelId ≠ closed ∧ channels.lookup channelId = some row) := by
  rw [closeChannel, Table.lookup_update] at h
  split at h
  · rename_i hSame
    obtain ⟨old, hOld, rfl⟩ := Option.map_eq_some_iff.mp h
    exact Or.inl ⟨hSame, old, hSame ▸ hOld, rfl⟩
  · rename_i hNe
    exact Or.inr ⟨hNe, h⟩

theorem inv_initial : Inv codec initial := by
  constructor <;>
  · intro channelId row hRow
    cases hRow

theorem step_isSome (codec : Codec ChannelDetails) (s : State) (e : Statement) :
    ∃ s', step codec s e = some s' := by
  cases e <;> exact ⟨_, rfl⟩

theorem run_isSome (codec : Codec ChannelDetails) (s : State) (es : List Statement) :
    ∃ t, run (step codec) s es = some t := by
  induction es generalizing s with
  | nil => exact ⟨s, rfl⟩
  | cons e es ih =>
    obtain ⟨s', hStep⟩ := step_isSome codec s e
    obtain ⟨t, hRest⟩ := ih s'
    exact ⟨t, by rw [run_cons, hStep]; exact hRest⟩

theorem wellFormed_step {e : Statement} (h : WellFormed codec s.channels)
    (hStep : step codec s e = some s') : WellFormed codec s'.channels := by
  intro channelId row hRow
  cases e with
  | create created isPublic counterparty now =>
    obtain rfl := Option.some.inj hStep
    exact (lookup_create hRow).elim (h channelId row) Or.inl
  | persist channel now =>
    obtain rfl := Option.some.inj hStep
    by_cases hSame : channelId = channel.channelId
    · subst hSame
      obtain ⟨row', hRow', _, hData, _⟩ := persistChannel_lookup_self codec s.channels now channel
      obtain rfl : row' = row := Option.some.inj (hRow'.symm.trans hRow)
      exact Or.inr ⟨channel, rfl, hData⟩
    · exact h channelId row ((persistChannel_lookup_of_ne hSame).symm.trans hRow)
  | close closed reason now =>
    obtain rfl := Option.some.inj hStep
    rcases lookup_close hRow with ⟨_, old, hOld, rfl⟩ | ⟨_, hOld⟩
    · exact h channelId old hOld
    · exact h channelId row hOld

theorem rowRight_persist_iff {channel : ChannelDetails} {now : Timestamp} {row : ChannelRow}
    (hRow : (persistChannel codec now channel s.channels).lookup channel.channelId = some row) :
    RowRight row (s.lastClose channel.channelId) ↔ StoresOpen s (.persist channel now) := by
  obtain ⟨row', hRow', hUsable, hData, hTime, hReason⟩ :=
    persistChannel_lookup_self codec s.channels now channel
  obtain rfl : row' = row := Option.some.inj (hRow'.symm.trans hRow)
  have hSome : row'.data ≠ none := by
    rw [hData]
    exact nofun
  refine Iff.trans (forall_prop_of_true hSome) ?_
  dsimp only [StoresOpen]
  cases s.lastClose channel.channelId with
  | none => exact hUsable ▸ Iff.rfl
  | some last =>
    dsimp only
    rw [hUsable, hReason, hTime, Option.bind_eq_some_iff]
    exact and_congr_right' and_comm

theorem inv_step {e : Statement} (hInv : Inv codec s) (hOk : StoresOpen s e)
    (hStep : step codec s e = some s') : Inv codec s' := by
  refine ⟨wellFormed_step hInv.wellFormed hStep, fun channelId row hRow => ?_⟩
  cases e with
  | create created isPublic counterparty now =>
    obtain rfl := Option.some.inj hStep
    rcases lookup_create hRow with hOld | hNone
    · exact hInv.rows channelId row hOld
    · exact fun hData => absurd hNone hData
  | persist channel now =>
    obtain rfl := Option.some.inj hStep
    by_cases hSame : channelId = channel.channelId
    · subst hSame
      exact (rowRight_persist_iff hRow).mpr hOk
    · exact hInv.rows channelId row ((persistChannel_lookup_of_ne hSame).symm.trans hRow)
  | close closed reason now =>
    obtain rfl := Option.some.inj hStep
    rcases lookup_close hRow with ⟨rfl, old, _, rfl⟩ | ⟨hNe, hOld⟩
    · dsimp only
      rw [Function.update_self]
      exact fun _ => ⟨rfl, rfl, rfl⟩
    · dsimp only
      rw [Function.update_of_ne hNe]
      exact hInv.rows channelId row hOld

theorem historyWrong_step {e : Statement} (hInv : Inv codec s) (hBad : ¬ StoresOpen s e)
    (hStep : step codec s e = some s') : ¬ HistoryRight codec s' := by
  intro hRight
  have hRows := (historyRight_iff (wellFormed_step hInv.wellFormed hStep)).mp hRight
  cases e with
  | persist channel now =>
    obtain rfl := Option.some.inj hStep
    obtain ⟨row, hRow, _⟩ := persistChannel_lookup_self codec s.channels now channel
    exact hBad ((rowRight_persist_iff hRow).mp (hRows channel.channelId row hRow))
  | _ => exact hBad trivial

/-- The history is right after every prefix of the calls exactly if only usable details of
channels that were not closed are stored, or details that repeat the recorded close. -/
theorem history_right_iff (codec : Codec ChannelDetails) (calls : List Call) :
    Always (step codec) (HistoryRight codec) initial (calls.flatMap Call.statements) ↔
      Along (step codec) StoresOpen initial (calls.flatMap Call.statements) := by
  obtain ⟨t, hRun⟩ := run_isSome codec initial (calls.flatMap Call.statements)
  have hP : ∀ s, Inv codec s → HistoryRight codec s := fun s hInv =>
    (historyRight_iff hInv.wellFormed).mpr hInv.rows
  exact always_iff_along hP (fun _ _ _ => inv_step) (fun _ _ _ => historyWrong_step) inv_initial
    hRun

def exampleCodec : Codec ChannelDetails := .ofEncodable ChannelDetails

def openChannel : ChannelDetails :=
  { pendingChannel with shortChannelId := some 1, isUsable := true }

/-- A channel that is still pending is part of the history, and a closed channel leaves it when a
snapshot from before the close is stored. -/
theorem pending_in_history_and_closed_reopened :
    ¬ Always (step exampleCodec) (HistoryRight exampleCodec) initial
        ([Call.persistChannel pendingChannel 1].flatMap Call.statements) ∧
    ¬ Always (step exampleCodec) (HistoryRight exampleCodec) initial
        ([Call.persistChannel openChannel 1, .closeChannel openChannel.channelId "closed" 2,
          .updateChannels [(openChannel, 3)]].flatMap Call.statements) := by
  constructor
  · intro hAlways
    refine historyWrong_step inv_initial (e := .persist pendingChannel 1) ?_ rfl
      (hAlways.2 _ rfl).start
    exact Bool.false_ne_true
  · intro hAlways
    have hOpened : Inv exampleCodec _ := inv_step inv_initial (e := .persist openChannel 1) rfl rfl
    have hClosed : Inv exampleCodec _ :=
      inv_step hOpened (e := .close openChannel.channelId "closed" 2) trivial rfl
    refine historyWrong_step hClosed (e := .persist openChannel 3) ?_ rfl
      ((((hAlways.2 _ rfl).2 _ rfl).2 _ rfl)).start
    rintro ⟨hUsable, _⟩
    exact Bool.noConfusion hUsable

end Kld.ChannelHistory
