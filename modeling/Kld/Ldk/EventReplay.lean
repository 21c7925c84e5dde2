import Kld.Database.LdkDatabase

/-!
# Events that write to the database, handled again

LDK delivers an event again when the channel manager was not persisted after its
first delivery. A restart lies between the two, so the random identifiers, the
clock and the answers of the collaborators are those of each delivery. The
statements on the database are carried out.
-/

namespace Kld.EventReplay

open Sql Serial

inductive PaymentPurpose where
  | invoicePayment (paymentPreimage : Option PaymentPreimage) (paymentSecret : PaymentSecret)
  | spontaneousPayment (preimage : PaymentPreimage)
deriving DecidableEq

inductive Event where
  | paymentClaimed (paymentHash : PaymentHash) (purpose : PaymentPurpose) (amountMsat : UInt64)
  | paymentForwarded (prevChannelId nextChannelId : Option ChannelId)
      (feeEarnedMsat : Option UInt64)
      (outboundAmountForwardedMsat : Option UInt64)
  | htlcHandlingFailed (prevChannelId : ChannelId) (failedNextDestination : HTLCDestination)
  | channelPending (channelId : ChannelId) (formerTemporaryChannelId : Option ChannelId)
      (counterpartyNodeId : PublicKey) (fundingVout : UInt32)
  | channelReady (channelId : ChannelId)
  | spendableOutputs (outputs : List SpendableOutputDescriptor) (channelId : Option ChannelId)
  | channelClosed (channelId : ChannelId) (reason : String)
deriving DecidableEq

/-- What the handler is told: the channels in memory, and whether it comes by the transaction
that spends outputs, for which it needs an address, the block height and the keys. -/
structure Collaborators where
  listChannels : List ChannelDetails
  spendingTx : Bool

def Collaborators.listed (env : Collaborators) (channelId : ChannelId) : Option ChannelDetails :=
  env.listChannels.find? fun c => c.channelId = channelId

structure Draw where
  paymentId : PaymentId
  forwardId : Uuid
  now : Timestamp
deriving DecidableEq

inductive HandleError where
  | duplicateChannel
  | noSpendingTx
deriving DecidableEq

variable (codec : Codec ChannelDetails) (env : Collaborators)

def claimedPayment (draw : Draw) (paymentHash : PaymentHash) (purpose : PaymentPurpose)
    (amountMsat : UInt64) : Payment :=
  match purpose with
  | .invoicePayment preimage secret =>
    .ofInvoiceInbound draw.paymentId draw.now paymentHash preimage secret amountMsat
  | .spontaneousPayment preimage =>
    .spontaneousInbound draw.paymentId draw.now paymentHash preimage amountMsat

def persistOutputs (now : Timestamp) (outputs : List SpendableOutputDescriptor)
    (channelId : Option ChannelId)
    (isSpent : Bool) (table : Table (Txid × Int16) SpendableOutputRow) :
    Table (Txid × Int16) SpendableOutputRow :=
  outputs.foldl (fun table output => persistSpendableOutput now output channelId isSpent table)
    table

/-- The write of a forward is spawned; it is counted here as part of the handling. -/
def handleEvent (draw : Draw) (event : Event) (db : Database) :
    Except HandleError Unit × Database :=
  match event with
  | .paymentClaimed paymentHash purpose amountMsat =>
    (.ok (), { db with
      payments := persistPayment (claimedPayment draw paymentHash purpose amountMsat) db.payments })
  | .paymentForwarded prevChannelId nextChannelId feeEarnedMsat outboundAmountForwardedMsat =>
    match prevChannelId, nextChannelId, outboundAmountForwardedMsat, feeEarnedMsat with
    | some inbound, some outbound, some amount, some fee =>
      (.ok (), { db with
        forwards := persistForward (.success draw.forwardId draw.now inbound outbound amount fee)
          db.forwards })
    | _, _, _, _ => (.ok (), db)
  | .htlcHandlingFailed prevChannelId failedNextDestination =>
    (.ok (), { db with
      forwards :=
        persistForward (.failure draw.forwardId draw.now prevChannelId failedNextDestination)
        db.forwards })
  | .channelPending channelId formerTemporaryChannelId counterpartyNodeId fundingVout =>
    let initializing := match formerTemporaryChannelId with
      | some former =>
        updateInitializingChannel draw.now former (some (channelId, fundingVout)) none
          db.initializingChannels
      | none => db.initializingChannels
    match env.listChannels.find? fun c => c.channelId = channelId with
    | some detail =>
      (.ok (), { db with
        initializingChannels := initializing
        channels := persistChannel codec draw.now detail db.channels })
    | none =>
      match createChannel draw.now channelId true counterpartyNodeId db.channels with
      | some channels =>
        (.ok (), { db with initializingChannels := initializing, channels := channels })
      | none => (.error .duplicateChannel, { db with initializingChannels := initializing })
  | .channelReady channelId =>
    match env.listChannels.find? fun c => c.channelId = channelId with
    | some detail =>
      (.ok (), { db with channels := persistChannel codec draw.now detail db.channels })
    | none =>
      (.ok (), { db with
        channels :=
          closeChannel draw.now channelId "Channel detail missing when receiving ChannelReady"
          db.channels })
  | .spendableOutputs outputs channelId =>
    let found := persistOutputs draw.now outputs channelId false db.spendableOutputs
    if env.spendingTx then
      (.ok (), { db with spendableOutputs := persistOutputs draw.now outputs channelId true found })
    else (.error .noSpendingTx, { db with spendableOutputs := found })
  | .channelClosed channelId reason =>
    (.ok (), { db with channels := closeChannel draw.now channelId reason db.channels })

/-- The tables that the events write, up to timestamps. -/
structure View where
  payments : PaymentId → Option PaymentRow
  forwards : Uuid → Option ForwardRow
  channels : ChannelId → Option ChannelRow
  initializingChannels : ChannelId → Option InitializingChannelRow
  spendableOutputs : Txid × Int16 → Option SpendableOutputRow

def view (db : Database) : View where
  payments := db.payments.seen PaymentRow.timeless
  forwards := db.forwards.seen ForwardRow.timeless
  channels := db.channels.seen ChannelRow.timeless
  initializingChannels := db.initializingChannels.seen InitializingChannelRow.timeless
  spendableOutputs := db.spendableOutputs.seen SpendableOutputRow.timeless

/-- The event is stored under an identifier that is drawn when it is handled. -/
def StoredUnderFreshId : Event → Prop
  | .paymentClaimed _ _ _ => True
  | .paymentForwarded (some _) (some _) (some _) (some _) => True
  | .htlcHandlingFailed _ _ => True
  | _ => False

structure Fresh (first second : Draw) (db : Database) : Prop where
  paymentId_ne : second.paymentId ≠ first.paymentId
  paymentId_unused : second.paymentId ∉ db.payments
  forwardId_ne : second.forwardId ≠ first.forwardId
  forwardId_unused : second.forwardId ∉ db.forwards

def handledOnce (first : Draw) (event : Event) (db : Database) : Database :=
  (handleEvent codec env first event db).2

/-- The second delivery has an environment of its own. -/
def handledTwice (env' : Collaborators) (first second : Draw) (event : Event) (db : Database) :
    Database :=
  handledOnce codec env' second event (handledOnce codec env first event db)

/-- What `ChannelReady` gives as the reason of closing a channel that is not listed. -/
def missingDetail : String := "Channel detail missing when receiving ChannelReady"

/-- The second delivery finds written what it writes. An event of a channel does if both
deliveries are told the same details, or if the row of the channel, as the first one left it,
already says what the second one writes. -/
def FoundWritten (env' : Collaborators) (db : Database) : Event → Prop
  | .paymentClaimed _ _ _ => False
  | .paymentForwarded (some _) (some _) (some _) (some _) => False
  | .paymentForwarded _ _ _ _ => True
  | .htlcHandlingFailed _ _ => False
  | .channelPending channelId _ _ _ =>
    match env.listed channelId, env'.listed channelId with
    | _, none => True
    | some earlier, some later => earlier = later
    | none, some later =>
      ∃ row, db.channels.lookup channelId = some row ∧ row.Records codec later
  | .channelReady channelId =>
    match env.listed channelId, env'.listed channelId with
    | none, none => True
    | some earlier, some later => earlier = later
    | some earlier, none =>
      earlier.isUsable = false ∧
        ∃ row, db.channels.lookup channelId = some row ∧ row.closureReason = some missingDetail
    | none, some later =>
      ∃ row, db.channels.lookup channelId = some row ∧
        ChannelRow.Records codec later { row with isUsable := false }
  | .spendableOutputs outputs _ => outputs = [] ∨ env.spendingTx = env'.spendingTx
  | .channelClosed _ _ => True

variable {codec : Codec ChannelDetails} {env env' : Collaborators} {first second draw : Draw}
  {db : Database}

theorem channelId_of_listed {channelId : ChannelId} {detail : ChannelDetails}
    (h : env.listed channelId = some detail) : detail.channelId = channelId := by
  have hFound := List.find?_some h
  exact of_decide_eq_true hFound

theorem view_channels_iff {channels channels' : Table ChannelId ChannelRow} :
    view { db with channels := channels } = view { db with channels := channels' } ↔
      channels.seen ChannelRow.timeless = channels'.seen ChannelRow.timeless :=
  ⟨congrArg View.channels, congrArg fun channels => { view db with channels := channels }⟩

/-! Channels. -/

def readied (codec : Codec ChannelDetails) (env : Collaborators) (now : Timestamp)
    (channelId : ChannelId) (channels : Table ChannelId ChannelRow) : Table ChannelId ChannelRow :=
  match env.listed channelId with
  | some detail => persistChannel codec now detail channels
  | none => closeChannel now channelId missingDetail channels

theorem handledOnce_channelReady (channelId : ChannelId) :
    handledOnce codec env draw (.channelReady channelId) db =
      { db with channels := readied codec env draw.now channelId db.channels } := by
  unfold handledOnce handleEvent readied Collaborators.listed
  dsimp only
  cases env.listChannels.find? fun c => c.channelId = channelId <;> rfl

def pended (codec : Codec ChannelDetails) (env : Collaborators) (now : Timestamp)
    (channelId : ChannelId) (counterparty : PublicKey) (channels : Table ChannelId ChannelRow) :
    Table ChannelId ChannelRow :=
  match env.listed channelId with
  | some detail => persistChannel codec now detail channels
  | none => (createChannel now channelId true counterparty channels).getD channels

def initialized (now : Timestamp) (former : Option ChannelId) (channelId : ChannelId)
    (vout : UInt32) (channels : Table ChannelId InitializingChannelRow) :
    Table ChannelId InitializingChannelRow :=
  former.elim channels fun former =>
    updateInitializingChannel now former (some (channelId, vout)) none channels

theorem handledOnce_channelPending (channelId : ChannelId) (former : Option ChannelId)
    (counterparty : PublicKey) (vout : UInt32) :
    handledOnce codec env draw (.channelPending channelId former counterparty vout) db =
      { db with
        initializingChannels :=
          initialized draw.now former channelId vout db.initializingChannels
        channels := pended codec env draw.now channelId counterparty db.channels } := by
  unfold handledOnce handleEvent pended Collaborators.listed
  dsimp only
  cases env.listChannels.find? fun c => c.channelId = channelId with
  | some detail => cases former <;> rfl
  | none =>
    dsimp only
    cases createChannel draw.now channelId true counterparty db.channels with
    | some channels => cases former <;> rfl
    | none => cases former <;> rfl

theorem seen_initialized_twice (now now' : Timestamp) (former : Option ChannelId)
    (channelId : ChannelId) (vout : UInt32) (channels : Table ChannelId InitializingChannelRow) :
    (initialized now' former channelId vout
        (initialized now former channelId vout channels)).seen InitializingChannelRow.timeless =
      (initialized now former channelId vout channels).seen InitializingChannelRow.timeless := by
  cases former with
  | none => rfl
  | some former =>
    exact seen_updateInitializingChannel_twice now now' former (some (channelId, vout)) none
      channels

section

variable {now now' : Timestamp} {channelId : ChannelId} {counterparty : PublicKey}
  {channels : Table ChannelId ChannelRow} {earlier later : ChannelDetails}

/-- A channel that was written is written again exactly if the details are the same. -/
theorem seen_persisted_iff (hSame : later.channelId = earlier.channelId) :
    (persistChannel codec now' later (persistChannel codec now earlier channels)).seen
        ChannelRow.timeless =
      (persistChannel codec now earlier channels).seen ChannelRow.timeless ↔
      earlier = later := by
  obtain ⟨row, hRow, hRecords, -⟩ := lookup_persistChannel codec now earlier channels
  rw [seen_persistChannel_eq_iff, hSame, hRow]
  constructor
  · rintro ⟨_, hRow', hLater⟩
    cases hRow'
    exact hRecords.unique hLater
  · rintro rfl
    exact ⟨row, rfl, hRecords⟩

theorem seen_pended_iff :
    (pended codec env' now' channelId counterparty
        (pended codec env now channelId counterparty channels)).seen ChannelRow.timeless =
      (pended codec env now channelId counterparty channels).seen ChannelRow.timeless ↔
      match env.listed channelId, env'.listed channelId with
      | _, none => True
      | some earlier, some later => earlier = later
      | none, some later => ∃ row, channels.lookup channelId = some row ∧
          row.Records codec later := by
  unfold pended
  cases hLater : env'.listed channelId with
  | none =>
    refine iff_of_true ?_ trivial
    dsimp only
    have hMem : channelId ∈ match env.listed channelId with
        | some detail => persistChannel codec now detail channels
        | none => (createChannel now channelId true counterparty channels).getD channels := by
      cases hEarlier : env.listed channelId with
      | some earlier =>
        obtain ⟨row, hRow, -⟩ := lookup_persistChannel codec now earlier channels
        rw [channelId_of_listed hEarlier] at hRow
        exact AList.lookup_isSome.mp (Option.isSome_of_eq_some hRow)
      | none =>
        cases hCreate : createChannel now channelId true counterparty channels with
        | some created => exact mem_createChannel hCreate
        | none => exact createChannel_eq_none_iff.mp hCreate
    rw [createChannel_eq_none_iff.mpr hMem, Option.getD_none]
  | some later =>
    have hId := channelId_of_listed hLater
    cases hEarlier : env.listed channelId with
    | some earlier => exact seen_persisted_iff (hId.trans (channelId_of_listed hEarlier).symm)
    | none =>
      dsimp only
      rw [seen_persistChannel_eq_iff, hId]
      cases hCreate : createChannel now channelId true counterparty channels with
      | none => rfl
      | some created =>
        -- The created row has no details, and there was none before it.
        obtain ⟨row, hRow, hData⟩ := lookup_createChannel hCreate
        have hNone : channels.lookup channelId = none := AList.lookup_eq_none.mpr
          fun hMem => by simp [createChannel_eq_none_iff.mpr hMem] at hCreate
        rw [Option.getD_some, hRow, hNone]
        refine iff_of_false ?_ nofun
        rintro ⟨_, hRow', hRecords⟩
        cases hRow'
        cases hData.symm.trans hRecords.data

theorem seen_readied_iff :
    (readied codec env' now' channelId (readied codec env now channelId channels)).seen
        ChannelRow.timeless =
      (readied codec env now channelId channels).seen ChannelRow.timeless ↔
      match env.listed channelId, env'.listed channelId with
      | none, none => True
      | some earlier, some later => earlier = later
      | some earlier, none => earlier.isUsable = false ∧
          ∃ row, channels.lookup channelId = some row ∧ row.closureReason = some missingDetail
      | none, some later => ∃ row, channels.lookup channelId = some row ∧
          ChannelRow.Records codec later { row with isUsable := false } := by
  unfold readied
  cases hEarlier : env.listed channelId with
  | none =>
    cases hLater : env'.listed channelId with
    | none => exact iff_of_true (Table.seen_update_update fun _ => rfl) trivial
    | some later =>
      dsimp only
      rw [seen_persistChannel_eq_iff, channelId_of_listed hLater, lookup_closeChannel]
      constructor
      · rintro ⟨_, hRow, hRecords⟩
        obtain ⟨row, hStored, rfl⟩ := Option.map_eq_some_iff.mp hRow
        exact ⟨row, hStored, { hRecords with }⟩
      · rintro ⟨row, hRow, hRecords⟩
        exact ⟨_, Option.map_eq_some_iff.mpr ⟨row, hRow, rfl⟩, { hRecords with }⟩
  | some earlier =>
    cases hLater : env'.listed channelId with
    | some later =>
      exact seen_persisted_iff
        ((channelId_of_listed hLater).trans (channelId_of_listed hEarlier).symm)
    | none =>
      have hId := channelId_of_listed hEarlier
      obtain ⟨row, hRow, hRecords, hReason⟩ := lookup_persistChannel codec now earlier channels
      rw [hId] at hRow hReason
      dsimp only
      rw [seen_closeChannel_eq_iff, hRow]
      rw [← Option.bind_eq_some_iff, ← hReason, ← hRecords.isUsable]
      exact ⟨fun h => h row rfl, fun h _ hSame => Option.some.inj hSame ▸ h⟩

end

/-! Spendable outputs. -/

theorem persistOutputs_eq_writes (now : Timestamp) (outputs : List SpendableOutputDescriptor)
    (channelId : Option ChannelId) (isSpent : Bool)
    (table : Table (Txid × Int16) SpendableOutputRow) :
    persistOutputs now outputs channelId isSpent table =
      (outputs.map fun output => (output, isSpent)).foldl (writeOutput now channelId) table := by
  rw [List.foldl_map]
  rfl

def outputWrites (env : Collaborators) (outputs : List SpendableOutputDescriptor) :
    List (SpendableOutputDescriptor × Bool) :=
  (outputs.map fun output => (output, false)) ++
    if env.spendingTx then outputs.map fun output => (output, true) else []

theorem handledOnce_spendableOutputs (outputs : List SpendableOutputDescriptor)
    (channelId : Option ChannelId) :
    handledOnce codec env draw (.spendableOutputs outputs channelId) db =
      { db with
        spendableOutputs :=
          (outputWrites env outputs).foldl (writeOutput draw.now channelId)
            db.spendableOutputs } := by
  unfold handledOnce handleEvent outputWrites
  dsimp only
  rw [List.foldl_append, persistOutputs_eq_writes, persistOutputs_eq_writes]
  split <;> rfl

/-- The row of the last output says whether the sweep went through. -/
theorem seen_outputWrites_last (env : Collaborators) (output : SpendableOutputDescriptor)
    (outputs : List SpendableOutputDescriptor) (now : Timestamp) (channelId : Option ChannelId)
    (table : Table (Txid × Int16) SpendableOutputRow) :
    ∃ channelId', ((outputWrites env (outputs ++ [output])).foldl (writeOutput now channelId)
        table).seen SpendableOutputRow.timeless output.key =
      some (outputRow channelId' (output, env.spendingTx)) := by
  have hLast : ∃ writes, outputWrites env (outputs ++ [output]) =
      writes ++ [(output, env.spendingTx)] := by
    unfold outputWrites
    cases env.spendingTx with
    | false =>
      exact ⟨outputs.map fun output => (output, false), by simp⟩
    | true =>
      exact ⟨((outputs ++ [output]).map fun output => (output, false)) ++
        outputs.map fun output => (output, true), by simp⟩
  obtain ⟨writes, hWrites⟩ := hLast
  rw [hWrites, List.foldl_append, List.foldl_cons, List.foldl_nil]
  exact ⟨_, seen_writeOutput_self (output, env.spendingTx)⟩

theorem seen_outputWrites_iff {outputs : List SpendableOutputDescriptor} {now now' : Timestamp}
    {channelId : Option ChannelId} {table : Table (Txid × Int16) SpendableOutputRow} :
    ((outputWrites env' outputs).foldl (writeOutput now' channelId)
        ((outputWrites env outputs).foldl (writeOutput now channelId) table)).seen
          SpendableOutputRow.timeless =
      ((outputWrites env outputs).foldl (writeOutput now channelId) table).seen
          SpendableOutputRow.timeless ↔
      outputs = [] ∨ env.spendingTx = env'.spendingTx := by
  constructor
  · intro hSame
    rcases List.eq_nil_or_concat' outputs with rfl | ⟨outputs, output, rfl⟩
    · exact .inl rfl
    · obtain ⟨_, hFirst⟩ := seen_outputWrites_last env output outputs now channelId table
      obtain ⟨_, hSecond⟩ := seen_outputWrites_last env' output outputs now' channelId
        ((outputWrites env (outputs ++ [output])).foldl (writeOutput now channelId) table)
      rw [hSame, hFirst] at hSecond
      exact .inr (congrArg SpendableOutputRow.isSpent (Option.some.inj hSecond))
  · rintro (rfl | hTx)
    · cases hFirst : env.spendingTx <;> cases hSecond : env'.spendingTx <;>
        simp [outputWrites, hFirst, hSecond]
    · have hWrites : outputWrites env' outputs = outputWrites env outputs := by
        unfold outputWrites
        rw [hTx]
      rw [hWrites]
      exact seen_writes_twice _

/-! Payments and forwards. -/

theorem seen_upsert_ne {κ ρ τ : Type} [DecidableEq κ] {strip : ρ → τ} {table : Table κ ρ} {k k' : κ}
    {row row' : ρ} {set set' : ρ → ρ} (hNe : k' ≠ k) (hUnused : k' ∉ table) :
    ((table.upsert k row set).upsert k' row' set').seen strip ≠
      (table.upsert k row set).seen strip := by
  rw [Ne, Table.seen_upsert_eq_iff, Table.lookup_upsert_of_ne hNe,
    AList.lookup_eq_none.mpr hUnused]
  rintro ⟨_, hNone, _⟩
  cases hNone

theorem handledTwice_of_fresh {event : Event} (hFresh : Fresh first second db)
    (h : StoredUnderFreshId event) :
    view (handledTwice codec env env' first second event db) ≠
      view (handledOnce codec env first event db) := by
  intro hSame
  cases event with
  | paymentClaimed hash purpose amount =>
    have hId : ∀ draw, (claimedPayment draw hash purpose amount).id = draw.paymentId := by
      intro draw
      cases purpose <;> rfl
    refine seen_upsert_ne ?_ ?_ (congrArg View.payments hSame)
    · rw [hId, hId]
      exact hFresh.paymentId_ne
    · rw [hId]
      exact hFresh.paymentId_unused
  | htlcHandlingFailed prev destination =>
    exact seen_upsert_ne hFresh.forwardId_ne hFresh.forwardId_unused (congrArg View.forwards hSame)
  | paymentForwarded prev next fee amount =>
    match prev, next, fee, amount, h with
    | some _, some _, some _, some _, _ =>
      exact seen_upsert_ne hFresh.forwardId_ne hFresh.forwardId_unused
        (congrArg View.forwards hSame)
  | _ => exact h

theorem handledOnce_of_incomplete {prev next : Option ChannelId} {fee amount : Option UInt64}
    (h : ¬ StoredUnderFreshId (.paymentForwarded prev next fee amount)) :
    handledOnce codec env draw (.paymentForwarded prev next fee amount) db = db := by
  cases prev <;> cases next <;> cases amount <;> cases fee <;>
    first | rfl | exact absurd trivial h

theorem foundWritten_paymentForwarded {prev next : Option ChannelId} {fee amount : Option UInt64} :
    FoundWritten codec env env' db (.paymentForwarded prev next fee amount) ↔
      ¬ StoredUnderFreshId (.paymentForwarded prev next fee amount) := by
  cases prev <;> cases next <;> cases amount <;> cases fee <;>
    first | exact iff_of_true trivial id | exact iff_of_false id fun h => h trivial

/-- Handling an event twice leaves the tables as handling it once, up to timestamps, exactly if
the second delivery finds written what it writes. -/
theorem handled_twice_iff (event : Event) (hFresh : Fresh first second db) :
    view (handledTwice codec env env' first second event db) =
      view (handledOnce codec env first event db) ↔
      FoundWritten codec env env' db event := by
  cases event with
  | paymentClaimed hash purpose amount =>
    exact iff_of_false (handledTwice_of_fresh hFresh trivial) id
  | htlcHandlingFailed prev destination =>
    exact iff_of_false (handledTwice_of_fresh hFresh trivial) id
  | paymentForwarded prev next fee amount =>
    rw [foundWritten_paymentForwarded]
    refine ⟨fun hSame h => handledTwice_of_fresh hFresh h hSame, fun h => ?_⟩
    rw [handledTwice, handledOnce_of_incomplete h]
  | channelPending channelId former counterparty vout =>
    unfold handledTwice
    rw [handledOnce_channelPending, handledOnce_channelPending]
    refine Iff.trans ⟨congrArg View.channels, fun hChannels => ?_⟩ seen_pended_iff
    exact congrArg₂ (fun initializing channels =>
      { view db with initializingChannels := initializing, channels := channels })
      (seen_initialized_twice first.now second.now former channelId vout _) hChannels
  | channelReady channelId =>
    unfold handledTwice
    rw [handledOnce_channelReady, handledOnce_channelReady]
    exact view_channels_iff.trans seen_readied_iff
  | spendableOutputs outputs channelId =>
    unfold handledTwice
    rw [handledOnce_spendableOutputs, handledOnce_spendableOutputs]
    exact Iff.trans ⟨congrArg View.spendableOutputs,
      congrArg fun outputs => { view db with spendableOutputs := outputs }⟩ seen_outputWrites_iff
  | channelClosed channelId reason =>
    exact iff_of_true
      (view_channels_iff.mpr (Table.seen_update_update fun _ => rfl)) trivial

def exampleDraw (n : UInt8) : Draw := ⟨⟨.replicate 32 n⟩, ⟨.replicate 16 n⟩, 0⟩

def exampleForward : Event :=
  .paymentForwarded (some ⟨.replicate 32 1⟩) (some ⟨.replicate 32 2⟩) (some 5) (some 100)

theorem forward_counted_twice :
    view (handledTwice (.ofEncodable ChannelDetails) ⟨[], true⟩ ⟨[], true⟩ (exampleDraw 1)
        (exampleDraw 2) exampleForward default) ≠
      view (handledOnce (.ofEncodable ChannelDetails) ⟨[], true⟩ (exampleDraw 1)
        exampleForward default) ∧
    fetchTotalForwards (handledOnce (.ofEncodable ChannelDetails) ⟨[], true⟩ (exampleDraw 1)
        exampleForward default).forwards = some ⟨1, 100, 5⟩ ∧
    fetchTotalForwards (handledTwice (.ofEncodable ChannelDetails) ⟨[], true⟩ ⟨[], true⟩
        (exampleDraw 1) (exampleDraw 2) exampleForward default).forwards =
          some ⟨2, 200, 10⟩ := by
  refine ⟨fun hSame => ?_, by decide, by decide⟩
  exact seen_upsert_ne (by decide) (AList.notMem_empty _) (congrArg View.forwards hSame)

def exampleOutput : SpendableOutputDescriptor :=
  .staticOutput ⟨⟨.replicate 32 3⟩, 0⟩ 100000 []

/-- Outputs that were swept at both deliveries, and outputs that were swept at the second one. -/
theorem sweeps_twice :
    view (handledTwice (.ofEncodable ChannelDetails) ⟨[], true⟩ ⟨[], true⟩ (exampleDraw 1)
        (exampleDraw 2) (.spendableOutputs [exampleOutput] none) default) =
      view (handledOnce (.ofEncodable ChannelDetails) ⟨[], true⟩ (exampleDraw 1)
        (.spendableOutputs [exampleOutput] none) default) ∧
    view (handledTwice (.ofEncodable ChannelDetails) ⟨[], false⟩ ⟨[], true⟩ (exampleDraw 1)
        (exampleDraw 2) (.spendableOutputs [exampleOutput] none) default) ≠
      view (handledOnce (.ofEncodable ChannelDetails) ⟨[], false⟩ (exampleDraw 1)
        (.spendableOutputs [exampleOutput] none) default) := by
  have hFresh : Fresh (exampleDraw 1) (exampleDraw 2) default :=
    ⟨by decide, AList.notMem_empty _, by decide, AList.notMem_empty _⟩
  refine ⟨(handled_twice_iff _ hFresh).mpr (.inr rfl), fun hSame => ?_⟩
  rcases (handled_twice_iff _ hFresh).mp hSame with hNil | hTx
  · cases hNil
  · cases hTx

end Kld.EventReplay
