import Kld.Ldk.EventReplay
import Kld.Lib.Run

/-!
# Sweeping spendable outputs

The handler stores the outputs of an event, builds a transaction that spends
them, spawns its broadcast and marks the outputs as spent. The failures of writes
are logged; every other failure ends the handling. The broadcast is on its own:
nothing tells the handler what bitcoind answered.
-/

namespace Kld.SpendableOutputs

open Sql Transition

structure Event where
  outputs : List SpendableOutputDescriptor
  channelId : Option ChannelId
deriving DecidableEq

/-- Where the handling of an event stands, with the outputs that are still to be written. -/
inductive Handler where
  | idle
  | storing (event : Event) (rest : List SpendableOutputDescriptor)
  | locking (event : Event)
  | building (event : Event)
  | marking (event : Event) (rest : List SpendableOutputDescriptor)
deriving DecidableEq

def Handler.outputs : Handler → List SpendableOutputDescriptor
  | .idle => []
  | .storing event _ => event.outputs
  | .locking event => event.outputs
  | .building event => event.outputs
  | .marking event _ => event.outputs

/-- The table, beside the outputs that bitcoind accepted a spending transaction of, those whose
sweep failed, and those whose row was marked at some time. -/
structure Ledger where
  rows : Table (Txid × Int16) SpendableOutputRow
  accepted : List (Txid × Int16)
  failed : List (Txid × Int16)
  marked : List (Txid × Int16)

namespace Ledger

def persist (now : Timestamp) (output : SpendableOutputDescriptor) (channelId : Option ChannelId)
    (isSpent : Bool) (l : Ledger) : Ledger :=
  { l with
    rows := persistSpendableOutput now output channelId isSpent l.rows
    marked := if isSpent then output.key :: l.marked else l.marked }

def accept (outputs : List SpendableOutputDescriptor) (l : Ledger) : Ledger :=
  { l with accepted := outputs.map (·.key) ++ l.accepted }

def fail (outputs : List SpendableOutputDescriptor) (l : Ledger) : Ledger :=
  { l with failed := outputs.map (·.key) ++ l.failed }

def Spent (l : Ledger) (key : Txid × Int16) : Prop :=
  ∃ row, l.rows.lookup key = some row ∧ row.isSpent = true

def Unspent (l : Ledger) (key : Txid × Int16) : Prop :=
  ∃ row, l.rows.lookup key = some row ∧ row.isSpent = false

/-- Only swept outputs are marked, marks stay, and outputs whose sweep failed are stored without
one. -/
structure Sound (l : Ledger) : Prop where
  accepted_of_spent : ∀ key, l.Spent key → key ∈ l.accepted
  spent_of_marked : ∀ key ∈ l.marked, l.Spent key
  unspent_of_failed : ∀ key ∈ l.failed, key ∉ l.accepted → l.Unspent key

structure Inv (l : Ledger) : Prop extends Sound l where
  marked_of_spent : ∀ key, l.Spent key → key ∈ l.marked

/-- The outputs that were not swept are stored. -/
def Kept (l : Ledger) (outputs : List SpendableOutputDescriptor) : Prop :=
  ∀ output ∈ outputs, output.key ∈ l.accepted ∨ output.key ∈ l.rows

def MayPersist (l : Ledger) (output : SpendableOutputDescriptor) (isSpent : Bool) : Prop :=
  if isSpent then output.key ∈ l.accepted else ¬ l.Spent output.key

variable {l : Ledger} {output : SpendableOutputDescriptor}
  {outputs : List SpendableOutputDescriptor} {channelId : Option ChannelId} {isSpent : Bool}
  {now : Timestamp} {key : Txid × Int16}

theorem lookup_persist_self (l : Ledger) (now : Timestamp) (output : SpendableOutputDescriptor)
    (channelId : Option ChannelId) (isSpent : Bool) : ∃ row,
    (l.persist now output channelId isSpent).rows.lookup output.key = some row ∧
      row.isSpent = isSpent := by
  refine ⟨_, Table.lookup_upsert_self .., ?_⟩
  cases l.rows.lookup output.key <;> rfl

theorem lookup_persist_of_ne (hKey : key ≠ output.key) :
    (l.persist now output channelId isSpent).rows.lookup key = l.rows.lookup key :=
  Table.lookup_upsert_of_ne hKey ..

theorem spent_persist :
    (l.persist now output channelId isSpent).Spent key ↔
      if key = output.key then isSpent = true else l.Spent key := by
  split
  · rename_i hKey
    obtain ⟨row, hRow, hSpent⟩ := lookup_persist_self l now output channelId isSpent
    unfold Spent
    rw [hKey, hRow]
    simp [hSpent]
  · rename_i hKey
    unfold Spent
    rw [lookup_persist_of_ne hKey]

theorem unspent_of_mem (hMem : key ∈ l.rows) (hNot : ¬ l.Spent key) : l.Unspent key := by
  obtain ⟨row, hRow⟩ := Option.isSome_iff_exists.mp (AList.lookup_isSome.mpr hMem)
  refine ⟨row, hRow, ?_⟩
  by_contra hSpent
  exact hNot ⟨row, hRow, by simpa using hSpent⟩

theorem inv_persist (hInv : l.Inv) (hMay : l.MayPersist output isSpent) :
    (l.persist now output channelId isSpent).Inv := by
  have hMarked : ∀ key, key ∈ (l.persist now output channelId isSpent).marked ↔
      (isSpent = true ∧ key = output.key) ∨ key ∈ l.marked := by
    intro key
    cases isSpent <;> simp [persist]
  refine ⟨⟨fun key hSpent => ?_, fun key hKey => ?_, fun key hFailed hNot => ?_⟩,
    fun key hSpent => ?_⟩
  · rw [spent_persist] at hSpent
    split at hSpent
    · rename_i hKey
      subst hSpent hKey
      exact hMay
    · exact hInv.accepted_of_spent key hSpent
  · rw [spent_persist]
    rw [hMarked] at hKey
    split
    · rename_i hSame
      rcases hKey with ⟨hTrue, _⟩ | hKey
      · exact hTrue
      · by_contra hFalse
        rw [MayPersist, if_neg hFalse, ← hSame] at hMay
        exact hMay (hInv.spent_of_marked key hKey)
    · rename_i hOther
      rcases hKey with ⟨_, hSame⟩ | hKey
      · exact absurd hSame hOther
      · exact hInv.spent_of_marked key hKey
  · by_cases hKey : key = output.key
    · obtain ⟨row, hRow, hSpent⟩ := lookup_persist_self l now output channelId isSpent
      subst hKey
      refine ⟨row, hRow, hSpent.trans ?_⟩
      by_contra hTrue
      rw [MayPersist, if_pos (by simpa using hTrue)] at hMay
      exact hNot hMay
    · obtain ⟨row, hRow, hUnspent⟩ := hInv.unspent_of_failed key hFailed hNot
      exact ⟨row, (lookup_persist_of_ne hKey).trans hRow, hUnspent⟩
  · rw [hMarked]
    rw [spent_persist] at hSpent
    split at hSpent
    · rename_i hKey
      exact Or.inl ⟨hSpent, hKey⟩
    · exact Or.inr (hInv.marked_of_spent key hSpent)

theorem not_sound_persist (hInv : l.Inv) (hNot : ¬ l.MayPersist output isSpent) :
    ¬ (l.persist now output channelId isSpent).Sound := by
  intro hSound
  cases isSpent with
  | true =>
    have hSpent : (l.persist now output channelId true).Spent output.key := by
      rw [spent_persist, if_pos rfl]
    exact hNot (hSound.accepted_of_spent _ hSpent)
  | false =>
    have hSpent : l.Spent output.key := not_not.mp hNot
    have hAfter := hSound.spent_of_marked _ (hInv.marked_of_spent _ hSpent)
    rw [spent_persist, if_pos rfl] at hAfter
    cases hAfter

theorem inv_accept (hInv : l.Inv) : (l.accept outputs).Inv := by
  refine ⟨⟨fun key hSpent => ?_, hInv.spent_of_marked, fun key hFailed hNot => ?_⟩,
    hInv.marked_of_spent⟩
  · exact List.mem_append_right _ (hInv.accepted_of_spent key hSpent)
  · exact hInv.unspent_of_failed key hFailed fun hMem => hNot (List.mem_append_right _ hMem)

theorem inv_fail (hInv : l.Inv) (hKept : l.Kept outputs) : (l.fail outputs).Inv := by
  refine ⟨⟨hInv.accepted_of_spent, hInv.spent_of_marked, fun key hFailed hNot => ?_⟩,
    hInv.marked_of_spent⟩
  rcases List.mem_append.mp hFailed with hNew | hOld
  · obtain ⟨output, hOutput, rfl⟩ := List.mem_map.mp hNew
    rcases hKept output hOutput with hAccepted | hMem
    · exact absurd hAccepted hNot
    · exact unspent_of_mem hMem fun hSpent => hNot (hInv.accepted_of_spent _ hSpent)
  · exact hInv.unspent_of_failed key hOld hNot

theorem not_sound_fail (hNot : ¬ l.Kept outputs) : ¬ (l.fail outputs).Sound := by
  intro hSound
  refine hNot fun output hOutput => or_iff_not_imp_left.mpr fun hAccepted => ?_
  obtain ⟨row, hRow, _⟩ := hSound.unspent_of_failed output.key
    (List.mem_append_left _ (List.mem_map_of_mem hOutput)) hAccepted
  exact AList.lookup_isSome.mp (Option.isSome_of_eq_some hRow)

end Ledger

structure State where
  ledger : Ledger
  handler : Handler
  broadcasts : List (List SpendableOutputDescriptor)

/-- The answers of the collaborators, in the order in which the handler asks them, the end of a
spawned broadcast, and a restart, which forgets what is in memory. -/
inductive Label where
  | spendableOutputs (event : Event)
  | persistSpendableOutput (stored : Option Timestamp)
  | newInternalAddress (drawn : Bool)
  | blockHeight (height : Option UInt64)
  | spendSpendableOutputs (built : Bool)
  | sendTransaction (task : Nat) (accepted : Bool)
  | restart
deriving DecidableEq

/-- `LockTime::from_height` refuses what would be read as a time. -/
def lockTime (height : UInt64) : Option UInt32 :=
  if height.toUInt32 < 500000000 then some height.toUInt32 else none

def State.persist (s : State) (event : Event) (output : SpendableOutputDescriptor) (isSpent : Bool)
    (stored : Option Timestamp) : State :=
  { s with
    ledger := stored.elim s.ledger fun now =>
      s.ledger.persist now output event.channelId isSpent }

def State.proceed (s : State) (handler : Handler) : State := { s with handler := handler }

def State.abandon (s : State) (event : Event) : State :=
  { s with ledger := s.ledger.fail event.outputs, handler := .idle }

def step (s : State) : Label → Option State
  | .spendableOutputs event =>
    match s.handler with
    | .idle => some (s.proceed (.storing event event.outputs))
    | .marking _ [] => some (s.proceed (.storing event event.outputs))
    | _ => none
  | .persistSpendableOutput stored =>
    match s.handler with
    | .storing event (output :: rest) =>
      some ((s.persist event output false stored).proceed (.storing event rest))
    | .marking event (output :: rest) =>
      some ((s.persist event output true stored).proceed (.marking event rest))
    | _ => none
  | .newInternalAddress drawn =>
    match s.handler with
    | .storing event [] => some (if drawn then s.proceed (.locking event) else s.abandon event)
    | _ => none
  | .blockHeight height =>
    match s.handler with
    | .locking event =>
      some (if (height.bind lockTime).isSome then s.proceed (.building event) else s.abandon event)
    | _ => none
  | .spendSpendableOutputs built =>
    match s.handler with
    | .building event =>
      some (if built then
        { s with
          handler := .marking event event.outputs, broadcasts := s.broadcasts ++ [event.outputs] }
        else s.abandon event)
    | _ => none
  | .sendTransaction task accepted =>
    match s.broadcasts[task]? with
    | some outputs =>
      some
        { s with
          ledger := if accepted then s.ledger.accept outputs else s.ledger.fail outputs
          broadcasts := s.broadcasts.eraseIdx task }
    | none => none
  | .restart => some { s with handler := .idle, broadcasts := [] }

def initial : State := ⟨⟨∅, [], [], []⟩, .idle, []⟩

/-- A failure concerns outputs that were swept or stored before. -/
def FailsKept (s : State) : Label → Prop
  | .newInternalAddress drawn => drawn = false → s.ledger.Kept s.handler.outputs
  | .blockHeight height => height.bind lockTime = none → s.ledger.Kept s.handler.outputs
  | .spendSpendableOutputs built => built = false → s.ledger.Kept s.handler.outputs
  | .sendTransaction task accepted =>
    accepted = false → ∀ outputs, s.broadcasts[task]? = some outputs → s.ledger.Kept outputs
  | _ => True

/-- A write that is stored marks a swept output or leaves a mark, and a failure concerns outputs
that are stored. -/
def Harmless (s : State) : Label → Prop
  | .persistSpendableOutput (some _) =>
    match s.handler with
    | .storing _ (output :: _) => s.ledger.MayPersist output false
    | .marking _ (output :: _) => s.ledger.MayPersist output true
    | _ => True
  | label => FailsKept s label

/-- What a step does to the ledger: nothing, a write, a sweep or a failure. -/
inductive Effect (s : State) (label : Label) : Ledger → Prop where
  | quiet (hHarmless : Harmless s label) : Effect s label s.ledger
  | persist (now : Timestamp) (output : SpendableOutputDescriptor) (channelId : Option ChannelId)
      (isSpent : Bool) (hIff : Harmless s label ↔ s.ledger.MayPersist output isSpent) :
      Effect s label (s.ledger.persist now output channelId isSpent)
  | accept (outputs : List SpendableOutputDescriptor) (hHarmless : Harmless s label) :
      Effect s label (s.ledger.accept outputs)
  | fail (outputs : List SpendableOutputDescriptor)
      (hIff : Harmless s label ↔ s.ledger.Kept outputs) : Effect s label (s.ledger.fail outputs)

theorem effect_answer {s : State} {label : Label} {event : Event} {good : Bool} {next : State}
    (hNext : next.ledger = s.ledger)
    (hHarmless : Harmless s label ↔ (good = false → s.ledger.Kept event.outputs)) :
    Effect s label (if good then next else s.abandon event).ledger := by
  cases good with
  | true =>
    rw [if_pos rfl, hNext]
    exact .quiet (hHarmless.mpr nofun)
  | false => exact .fail event.outputs (hHarmless.trans (forall_prop_of_true rfl))

theorem step_effect {s s' : State} {label : Label} (hStep : step s label = some s') :
    Effect s label s'.ledger := by
  cases label with
  | spendableOutputs event =>
    unfold step at hStep
    dsimp only at hStep
    split at hStep <;> cases hStep <;> exact .quiet trivial
  | persistSpendableOutput stored =>
    unfold step at hStep
    dsimp only at hStep
    split at hStep
    · rename_i event output rest hHandler
      cases hStep
      cases stored with
      | none => exact .quiet trivial
      | some now =>
        refine .persist now output event.channelId false ?_
        unfold Harmless
        rw [hHandler]
    · rename_i event output rest hHandler
      cases hStep
      cases stored with
      | none => exact .quiet trivial
      | some now =>
        refine .persist now output event.channelId true ?_
        unfold Harmless
        rw [hHandler]
    · cases hStep
  | newInternalAddress drawn =>
    unfold step at hStep
    dsimp only at hStep
    split at hStep
    · rename_i event hHandler
      cases hStep
      refine effect_answer rfl ?_
      unfold Harmless FailsKept
      rw [hHandler]
      rfl
    · cases hStep
  | blockHeight height =>
    unfold step at hStep
    dsimp only at hStep
    split at hStep
    · rename_i event hHandler
      cases hStep
      refine effect_answer rfl ?_
      unfold Harmless FailsKept
      rw [hHandler, Option.isSome_eq_false_iff, Option.isNone_iff_eq_none]
      rfl
    · cases hStep
  | spendSpendableOutputs built =>
    unfold step at hStep
    dsimp only at hStep
    split at hStep
    · rename_i event hHandler
      cases hStep
      refine effect_answer rfl ?_
      unfold Harmless FailsKept
      rw [hHandler]
      rfl
    · cases hStep
  | sendTransaction task accepted =>
    unfold step at hStep
    dsimp only at hStep
    split at hStep
    · rename_i outputs hTask
      cases hStep
      cases accepted with
      | true => exact .accept outputs nofun
      | false =>
        refine .fail outputs ⟨fun hHarmless => hHarmless rfl outputs hTask, ?_⟩
        intro hKept _ outputs' hTask'
        exact Option.some.inj (hTask.symm.trans hTask') ▸ hKept
    · cases hStep
  | restart =>
    cases hStep
    exact .quiet trivial

theorem inv_step {s s' : State} {label : Label} (hInv : s.ledger.Inv) (hOk : Harmless s label)
    (hStep : step s label = some s') : s'.ledger.Inv := by
  have hEffect := step_effect hStep
  generalize s'.ledger = after at hEffect ⊢
  cases hEffect with
  | quiet => exact hInv
  | persist now output channelId isSpent hIff => exact Ledger.inv_persist hInv (hIff.mp hOk)
  | accept outputs => exact Ledger.inv_accept hInv
  | fail outputs hIff => exact Ledger.inv_fail hInv (hIff.mp hOk)

theorem not_sound_step {s s' : State} {label : Label} (hInv : s.ledger.Inv)
    (hNot : ¬ Harmless s label) (hStep : step s label = some s') : ¬ s'.ledger.Sound := by
  have hEffect := step_effect hStep
  generalize s'.ledger = after at hEffect ⊢
  cases hEffect with
  | quiet hHarmless => exact absurd hHarmless hNot
  | persist now output channelId isSpent hIff =>
    exact Ledger.not_sound_persist hInv fun hMay => hNot (hIff.mpr hMay)
  | accept outputs hHarmless => exact absurd hHarmless hNot
  | fail outputs hIff => exact Ledger.not_sound_fail fun hKept => hNot (hIff.mpr hKept)

theorem inv_initial : initial.ledger.Inv := by
  refine ⟨⟨?_, nofun, nofun⟩, ?_⟩
  all_goals
    rintro key ⟨row, hRow, _⟩
    cases hRow

/-- The marks are those of swept outputs exactly while no step breaks them. -/
theorem sound_iff_harmless {labels : List Label} {t : State}
    (hRun : run step initial labels = some t) :
    Always step (fun s => s.ledger.Sound) initial labels ↔ Along step Harmless initial labels :=
  always_iff_along (fun _ hInv => hInv.toSound) (fun _ _ _ => inv_step)
    (fun _ _ _ => not_sound_step) inv_initial hRun

/-- What the others do, in view of what they did before: the first mark of an output is stored
after bitcoind accepted a sweep of it, an output is not delivered and stored again after its mark,
and a failure concerns outputs that were swept or stored before. -/
def Orderly (s : State) : Label → Prop
  | .persistSpendableOutput (some _) =>
    match s.handler with
    | .storing _ (output :: _) => output.key ∉ s.ledger.marked
    | .marking _ (output :: _) => output.key ∉ s.ledger.marked → output.key ∈ s.ledger.accepted
    | _ => True
  | label => FailsKept s label

theorem Ledger.Inv.spent_iff {l : Ledger} (hInv : l.Inv) {key : Txid × Int16} :
    l.Spent key ↔ key ∈ l.marked :=
  ⟨hInv.marked_of_spent key, hInv.spent_of_marked key⟩

theorem harmless_iff_orderly {s : State} (hInv : s.ledger.Inv) (label : Label) :
    Harmless s label ↔ Orderly s label := by
  cases label with
  | persistSpendableOutput stored =>
    cases stored with
    | none => exact Iff.rfl
    | some now =>
      unfold Harmless Orderly
      dsimp only
      split
      · exact not_congr hInv.spent_iff
      · rename_i event output rest hHandler
        change output.key ∈ s.ledger.accepted ↔ _
        constructor
        · exact fun hAccepted _ => hAccepted
        · intro hFirst
          by_cases hMarked : output.key ∈ s.ledger.marked
          · exact hInv.accepted_of_spent _ (hInv.spent_iff.mpr hMarked)
          · exact hFirst hMarked
      · exact Iff.rfl
  | _ => exact Iff.rfl

/-- The marks are those of swept outputs over a whole run exactly if bitcoind accepts the sweep of
an output before its first mark is stored, no output is delivered and stored again after its mark,
and nothing fails for an output that was neither swept nor stored. -/
theorem marks_sound_iff {labels : List Label} {t : State}
    (hRun : run step initial labels = some t) :
    Always step (fun s => s.ledger.Sound) initial labels ↔ Along step Orderly initial labels :=
  (sound_iff_harmless hRun).trans
    (along_congr (fun _ _ _ => inv_step) (fun _ label hInv => harmless_iff_orderly hInv label)
      inv_initial labels)

section Handling

/-- The writes of one pass over the outputs: the first stores them, the second marks them. -/
def Handler.writing : Bool → Event → List SpendableOutputDescriptor → Handler
  | false => .storing
  | true => .marking

def Ledger.persistAll (now : Timestamp) (outputs : List SpendableOutputDescriptor)
    (channelId : Option ChannelId) (isSpent : Bool) (l : Ledger) : Ledger :=
  outputs.foldl (fun l output => l.persist now output channelId isSpent) l

/-- The handling of an event without a fault, apart from the building of the sweep. -/
def handling (event : Event) (now : Timestamp) (height : UInt64) (built : Bool) : List Label :=
  .spendableOutputs event ::
    (.replicate event.outputs.length (.persistSpendableOutput (some now)) ++
      .newInternalAddress true :: .blockHeight (some height) :: .spendSpendableOutputs built ::
        if built then .replicate event.outputs.length (.persistSpendableOutput (some now)) else [])

theorem rows_persistAll (now : Timestamp) (outputs : List SpendableOutputDescriptor)
    (channelId : Option ChannelId) (isSpent : Bool) (l : Ledger) :
    (l.persistAll now outputs channelId isSpent).rows =
      EventReplay.persistOutputs now outputs channelId isSpent l.rows := by
  induction outputs generalizing l with
  | nil => rfl
  | cons output outputs ih => exact ih (l.persist now output channelId isSpent)

theorem run_writing (s : State) (event : Event) (now : Timestamp) (isSpent : Bool)
    (rest : List SpendableOutputDescriptor) :
    run step (s.proceed (.writing isSpent event rest))
        (.replicate rest.length (.persistSpendableOutput (some now))) =
      some (State.proceed { s with ledger := s.ledger.persistAll now rest event.channelId isSpent }
        (.writing isSpent event [])) := by
  induction rest generalizing s with
  | nil => rfl
  | cons output rest ih =>
    rw [List.length_cons, List.replicate_succ, run_cons]
    cases isSpent with
    | false => exact ih (s.persist event output false (some now))
    | true => exact ih (s.persist event output true (some now))

/-- Step by step the handler writes what its handling in one piece writes. -/
theorem rows_handling {codec : Serial.Codec ChannelDetails} (env : EventReplay.Collaborators)
    (draw : EventReplay.Draw) {s : State} {db : Database} (event : Event) {height : UInt64}
    (hIdle : s.handler = .idle) (hHeight : (lockTime height).isSome)
    (hRows : s.ledger.rows = db.spendableOutputs) :
    ∃ t, run step s (handling event draw.now height env.spendingTx) = some t ∧
      t.ledger.rows = (EventReplay.handledOnce codec env draw
        (.spendableOutputs event.outputs event.channelId) db).spendableOutputs := by
  have hStart : step s (.spendableOutputs event) =
      some (s.proceed (.writing false event event.outputs)) := by
    unfold step
    rw [hIdle]
    rfl
  have hFound := rows_persistAll draw.now event.outputs event.channelId false s.ledger
  unfold handling
  rw [run_cons, hStart, Option.bind_some, run_append, run_writing, Option.bind_some]
  generalize s.ledger.persistAll draw.now event.outputs event.channelId false = found at hFound ⊢
  have hDrawn : step (State.proceed { s with ledger := found } (.writing false event []))
      (.newInternalAddress true) =
        some (State.proceed { s with ledger := found } (.locking event)) := rfl
  have hLocked : step (State.proceed { s with ledger := found } (.locking event))
      (.blockHeight (some height)) =
        some (State.proceed { s with ledger := found } (.building event)) :=
    congrArg some (if_pos hHeight)
  rw [run_cons, hDrawn, Option.bind_some, run_cons, hLocked, Option.bind_some]
  unfold EventReplay.handledOnce EventReplay.handleEvent
  dsimp only
  cases env.spendingTx with
  | false => exact ⟨_, rfl, hFound.trans (by rw [hRows]; rfl)⟩
  | true =>
    refine ⟨_, run_writing
      { s with ledger := found, broadcasts := s.broadcasts ++ [event.outputs] }
      event draw.now true event.outputs, ?_⟩
    refine (rows_persistAll draw.now event.outputs event.channelId true found).trans ?_
    rw [hFound, hRows]
    rfl

end Handling

def exampleOutput : SpendableOutputDescriptor := .staticOutput ⟨⟨.replicate 32 7⟩, 0⟩ 1000 []

/-- A sweep that bitcoind answers before the outputs are marked. -/
def answered (accepted : Bool) : List Label :=
  [.spendableOutputs ⟨[exampleOutput], none⟩, .persistSpendableOutput (some 0),
    .newInternalAddress true,
    .blockHeight (some 800000), .spendSpendableOutputs true, .sendTransaction 0 accepted,
    .persistSpendableOutput (some 0)]

theorem rejected_sweep_marked :
    ¬ Always step (fun s => s.ledger.Sound) initial (answered false) := by
  intro hAlways
  have hRun : run step initial (answered false) = some _ := rfl
  have hEnd := hAlways.end hRun
  cases hEnd.accepted_of_spent exampleOutput.key ⟨_, rfl, rfl⟩

theorem marks_sound_iff_answered :
    Always step (fun s => s.ledger.Sound) initial (answered true) ↔
      Along step Orderly initial (answered true) :=
  marks_sound_iff rfl

end Kld.SpendableOutputs
