import Kld.Database.ChannelMonitors
import Kld.Database.WalletDatabase
import Kld.Lib.Run

/-!
# Persisting channel monitors beside the wallet

Each call of `persist_new_channel` or `update_persisted_channel` hands a task of
its own to the runtime. The task writes the monitor over the connection that the
wallet uses too, and acknowledges the update to LDK once the write is answered.
-/

namespace Kld.MonitorPersistence

open Sql Serial Transition

/-- What LDK passes to `persist_new_channel`: the monitor of the outpoint, after the update. -/
structure PersistCall where
  fundingTxo : OutPoint
  monitor : ChannelMonitor
  updateId : UInt64
  monitor_fundingTxo : monitor.fundingTxo = fundingTxo
  monitor_latestUpdateId : monitor.latestUpdateId = updateId

structure Task where
  call : PersistCall
  stored : Bool

structure State where
  session : Session Database
  tasks : List Task
  acknowledged : List (OutPoint × UInt64)

/-- `unanswered` is a write that the server performs just before the connection is lost. -/
inductive Answer where
  | answered
  | refused
  | unanswered
deriving DecidableEq

inductive LdkStep where
  | persist (call : PersistCall)
  | execute (task : Nat) (answer : Answer)
  | acknowledge (task : Nat)

inductive Step where
  | ldk (step : LdkStep)
  | wallet (command : WalletCommand)
  | connectionLost
  | processStopped

def initial : State := ⟨.connect default, [], []⟩

/-- `update_persisted_channel` stores the whole monitor again, whatever the update is. -/
def updatePersistedChannel (call : PersistCall) : LdkStep := .persist call

def upsertEffect (codec : Codec ChannelMonitor) (call : PersistCall) (refused : Bool)
    (db : Database) :
    Option Database :=
  if refused then none
  else some { db with
    channelMonitors := upsertMonitor codec call.fundingTxo call.monitor db.channelMonitors }

def execute (codec : Codec ChannelMonitor) (s : State) (i : Nat) (call : PersistCall)
    (answer : Answer) :
    State :=
  let reply := s.session.statement (upsertEffect codec call (answer = .refused))
  match answer, reply.1 with
  | .unanswered, _ => { s with session := reply.2.reconnect, tasks := s.tasks.eraseIdx i }
  | _, .error => { s with session := reply.2, tasks := s.tasks.eraseIdx i }
  | _, .ok => { s with session := reply.2, tasks := s.tasks.set i ⟨call, true⟩ }

def ldkStep (codec : Codec ChannelMonitor) (s : State) : LdkStep → Option State
  | .persist call => some { s with tasks := s.tasks ++ [⟨call, false⟩] }
  | .execute i answer =>
    match s.tasks[i]? with
    | some ⟨call, false⟩ => some (execute codec s i call answer)
    | _ => none
  | .acknowledge i =>
    match s.tasks[i]? with
    | some ⟨call, true⟩ =>
      some { s with
        tasks := s.tasks.eraseIdx i
        acknowledged := (call.fundingTxo, call.updateId) :: s.acknowledged }
    | _ => none

def step (dialect : Dialect) (codec : Codec ChannelMonitor) (s : State) : Step → Option State
  | .ldk e => ldkStep codec s e
  | .wallet command => some { s with session := (s.session.execute dialect command.toCommand).2 }
  | .connectionLost => some { s with session := s.session.reconnect }
  | .processStopped => some { s with session := s.session.reconnect, tasks := [] }

def State.monitors (s : State) : Table Bytes MonitorRow :=
  s.session.reconnect.committed.channelMonitors

def State.Writes (s : State) (i : Nat) (call : PersistCall) : Prop :=
  s.tasks[i]? = some ⟨call, false⟩

def ReplacesNoneNewer (codec : Codec ChannelMonitor) (s : State) : LdkStep → Prop
  | .execute i answer =>
    ∀ call, s.Writes i call → answer ≠ .refused →
      NoneNewer codec s.monitors call.fundingTxo call.updateId
  | _ => True

def OutsideBatch (s : State) : Step → Prop
  | .ldk (.execute _ .answered) => ∀ working, s.session.transaction ≠ .active working
  | _ => True

def Undisturbed (codec : Codec ChannelMonitor) (s : State) : Step → Prop
  | .ldk e => OutsideBatch s (.ldk e) ∧
      (s.session.transaction = .idle → ReplacesNoneNewer codec s e)
  | _ => True

structure Inv (codec : Codec ChannelMonitor) (s : State) : Prop where
  wellStored : WellStored codec s.monitors
  batch : s.session.Untouched Database.channelMonitors
  tasks : ∀ task ∈ s.tasks, task.stored = true →
    Stored codec s.monitors task.call.fundingTxo task.call.updateId
  acknowledged : ∀ a ∈ s.acknowledged, Stored codec s.monitors a.1 a.2

variable {dialect : Dialect} {codec : Codec ChannelMonitor} {s s' : State}

theorem inv_initial : Inv codec initial where
  wellStored := wellStored_empty
  batch := nofun
  tasks := nofun
  acknowledged := nofun

theorem Inv.of_monitors_eq (hInv : Inv codec s) (hMonitors : s'.monitors = s.monitors)
    (hBatch : s'.session.Untouched Database.channelMonitors)
    (hTasks : ∀ task ∈ s'.tasks, task.stored = true → task ∈ s.tasks)
    (hAcknowledged : s'.acknowledged = s.acknowledged) : Inv codec s' where
  wellStored := hMonitors ▸ hInv.wellStored
  batch := hBatch
  tasks := by
    intro task hTask hStored
    rw [hMonitors]
    exact hInv.tasks task (hTasks task hTask hStored) hStored
  acknowledged := by
    rw [hMonitors, hAcknowledged]
    exact hInv.acknowledged

theorem Inv.reconnect (hInv : Inv codec s) {tasks : List Task} (hTasks : tasks ⊆ s.tasks) :
    Inv codec { s with session := s.session.reconnect, tasks := tasks } :=
  hInv.of_monitors_eq rfl nofun (fun _ hTask _ => hTasks hTask) rfl

theorem Inv.store (hInv : Inv codec s) (call : PersistCall)
    (hNone : NoneNewer codec s.monitors call.fundingTxo call.updateId) {db : Database}
    (hEffect : upsertEffect codec call false s.session.committed = some db) {tasks : List Task}
    (hTasks : ∀ task ∈ tasks, task ∈ s.tasks ∨ task = ⟨call, true⟩) :
    Inv codec { s with session := .connect db, tasks := tasks } := by
  obtain ⟨fundingTxo, monitor, updateId, rfl, rfl⟩ := call
  obtain rfl := Option.some.inj hEffect
  have hStored := stored_upsertMonitor codec s.monitors monitor
  refine ⟨hInv.wellStored.upsertMonitor, nofun, ?_, fun a ha =>
    (hInv.acknowledged a ha).upsertMonitor hNone⟩
  intro task hTask hDone
  rcases hTasks task hTask with hOld | rfl
  · exact (hInv.tasks task hOld hDone).upsertMonitor hNone
  · exact hStored

theorem inv_execute {i : Nat} {call : PersistCall} {answer : Answer} (hInv : Inv codec s)
    (hBatch : answer = .answered → ∀ working, s.session.transaction ≠ .active working)
    (hNone : s.session.transaction = .idle → answer ≠ .refused →
      NoneNewer codec s.monitors call.fundingTxo call.updateId) :
    Inv codec (execute codec s i call answer) := by
  have hErase : s.tasks.eraseIdx i ⊆ s.tasks := List.eraseIdx_subset
  have hEnded : Inv codec { s with tasks := s.tasks.eraseIdx i } :=
    hInv.of_monitors_eq rfl hInv.batch (fun _ hTask _ => hErase hTask) rfl
  cases hT : s.session.transaction with
  | idle =>
    unfold execute
    rw [statement_idle hT]
    cases answer with
    | refused =>
      exact hInv.of_monitors_eq rfl nofun (fun _ hTask _ => hErase hTask) rfl
    | unanswered =>
      exact hInv.store call (hNone hT nofun) rfl fun _ hTask => Or.inl (hErase hTask)
    | answered =>
      exact hInv.store call (hNone hT nofun) rfl fun _ hTask => List.mem_or_eq_of_mem_set hTask
  | active working =>
    have hOpen : s.session.transaction ≠ .idle := by rw [hT]; exact nofun
    have hCommitted := statement_committed (upsertEffect codec call (answer = .refused)) hOpen
    cases answer with
    | answered => exact absurd hT (hBatch rfl working)
    | unanswered =>
      exact hInv.of_monitors_eq (congrArg Database.channelMonitors hCommitted) nofun
        (fun _ hTask _ => hErase hTask) rfl
    | refused =>
      unfold execute
      rw [statement_refused hT rfl]
      exact hInv.of_monitors_eq rfl nofun (fun _ hTask _ => hErase hTask) rfl
  | aborted =>
    unfold execute
    rw [statement_aborted hT]
    cases answer with
    | unanswered => exact hInv.reconnect hErase
    | _ => exact hEnded

theorem inv_ldkStep {e : LdkStep} (hInv : Inv codec s) (hOk : Undisturbed codec s (.ldk e))
    (hStep : ldkStep codec s e = some s') : Inv codec s' := by
  cases e with
  | persist call =>
    obtain rfl := Option.some.inj hStep
    refine hInv.of_monitors_eq rfl hInv.batch ?_ rfl
    intro task hTask hStored
    rcases List.mem_append.mp hTask with hOld | hNew
    · exact hOld
    · rw [List.mem_singleton.mp hNew] at hStored
      cases hStored
  | execute i answer =>
    dsimp only [ldkStep] at hStep
    split at hStep
    · rename_i call hWrites
      obtain rfl := Option.some.inj hStep
      apply inv_execute hInv
      · rintro rfl
        exact hOk.1
      · intro hIdle hAnswer
        exact hOk.2 hIdle call hWrites hAnswer
    · cases hStep
  | acknowledge i =>
    dsimp only [ldkStep] at hStep
    split at hStep
    · rename_i call hDone
      obtain rfl := Option.some.inj hStep
      have hStored := hInv.tasks ⟨call, true⟩ (List.mem_of_getElem? hDone) rfl
      refine ⟨hInv.wellStored, hInv.batch, fun task hTask => hInv.tasks task
        (List.eraseIdx_subset hTask), ?_⟩
      intro a ha
      rcases List.mem_cons.mp ha with rfl | hOld
      · exact hStored
      · exact hInv.acknowledged a hOld
    · cases hStep

theorem inv_step {e : Step} (hInv : Inv codec s) (hOk : Undisturbed codec s e)
    (hStep : step dialect codec s e = some s') : Inv codec s' := by
  cases e with
  | ldk e => exact inv_ldkStep hInv hOk hStep
  | wallet command =>
    obtain rfl := Option.some.inj hStep
    have hEffect : ∀ effect, command.toCommand = .statement effect →
        ∀ db db', effect db = some db' → db'.channelMonitors = db.channelMonitors := by
      intro effect hCommand db db' hDb
      cases command with
      | execute statement refused =>
        cases hCommand
        exact WalletStatement.effect_channelMonitors hDb
      | _ => cases hCommand
    obtain ⟨hMonitors, hBatch⟩ := execute_untouched dialect hEffect hInv.batch
    exact hInv.of_monitors_eq hMonitors hBatch (fun _ hTask _ => hTask) rfl
  | connectionLost =>
    obtain rfl := Option.some.inj hStep
    exact hInv.reconnect (List.Subset.refl _)
  | processStopped =>
    obtain rfl := Option.some.inj hStep
    exact hInv.reconnect (List.nil_subset _)

/-- Without an open batch around a write, and without a newer monitor beneath it, an
acknowledged monitor is found again whenever the session is established anew. -/
theorem acknowledged_durable {es : List Step}
    (hOk : Along (step dialect codec) (Undisturbed codec) initial es)
    (hRun : run (step dialect codec) initial es = some s) :
    ∀ a ∈ s.acknowledged, Stored codec s.session.reconnect.committed.channelMonitors a.1 a.2 :=
  (invariant_of_along (fun _ _ _ => inv_step) inv_initial hOk hRun).acknowledged

def exampleMonitor (id : UInt64) : ChannelMonitor :=
  { fundingTxo := ⟨⟨.replicate 32 0⟩, 0⟩, latestUpdateId := id, bestBlockHash := ⟨.replicate 32 0⟩,
    state := [] }

def exampleCall (id : UInt64) : PersistCall := ⟨_, exampleMonitor id, id, rfl, rfl⟩

def exampleCodec : Codec ChannelMonitor := .ofEncodable ChannelMonitor

theorem not_stored_of_read {outPoint : OutPoint} {id : UInt64} {table : Table Bytes MonitorRow}
    (h : ∀ row monitor, table.lookup outPoint.write = some row →
      codec.read row.monitor = some monitor → monitor.latestUpdateId < id) :
    ¬ Stored codec table outPoint id := by
  rintro ⟨row, monitor, hRow, hRead, _, hId⟩
  exact absurd hId (UInt64.not_le.mpr (h row monitor hRow hRead))

def writtenInsideBatch : List Step :=
  [.ldk (.persist (exampleCall 1)), .wallet .beginBatch, .ldk (.execute 0 .answered),
    .ldk (.acknowledge 0), .connectionLost]

def writtenBeforeBatch : List Step :=
  [.ldk (.persist (exampleCall 1)), .ldk (.execute 0 .answered), .wallet .beginBatch,
    .ldk (.acknowledge 0), .connectionLost]

/-- A monitor acknowledged inside the wallet's batch is gone when the batch is. -/
theorem acknowledged_lost_with_batch :
    ∃ s, run (step ⟨false, false⟩ exampleCodec) initial writtenInsideBatch = some s ∧
      ((exampleCall 1).fundingTxo, 1) ∈ s.acknowledged ∧
      ¬ Stored exampleCodec s.session.reconnect.committed.channelMonitors
        (exampleCall 1).fundingTxo 1 := by
  refine ⟨_, rfl, List.mem_cons_self, not_stored_of_read ?_⟩
  intro row monitor hRow
  cases hRow

theorem acknowledged_durable_before_batch :
    ∃ s, run (step ⟨false, false⟩ exampleCodec) initial writtenBeforeBatch = some s ∧
      s.acknowledged = [((exampleCall 1).fundingTxo, 1)] ∧
      ∀ a ∈ s.acknowledged,
        Stored exampleCodec s.session.reconnect.committed.channelMonitors a.1 a.2 := by
  have hRun : run (step ⟨false, false⟩ exampleCodec) initial writtenBeforeBatch = some _ := rfl
  refine ⟨_, hRun, rfl, acknowledged_durable ?_ hRun⟩
  refine (along_cons rfl).mpr ⟨⟨trivial, fun _ => trivial⟩, (along_cons rfl).mpr ⟨?_,
    (along_cons rfl).mpr ⟨trivial, (along_cons rfl).mpr ⟨⟨trivial, fun _ => trivial⟩,
      (along_cons rfl).mpr ⟨trivial, trivial⟩⟩⟩⟩⟩
  refine ⟨nofun, fun _ call hWrites _ row monitor hRow => ?_⟩
  cases hRow

theorem ldkStep_idle {e : LdkStep} (hIdle : s.session.transaction = .idle)
    (hStep : ldkStep codec s e = some s') : s'.session.transaction = .idle := by
  cases e with
  | persist call =>
    obtain rfl := Option.some.inj hStep
    exact hIdle
  | execute i answer =>
    dsimp only [ldkStep] at hStep
    split at hStep
    · obtain rfl := Option.some.inj hStep
      unfold execute
      rw [statement_idle hIdle]
      cases answer <;> rfl
    · cases hStep
  | acknowledge i =>
    dsimp only [ldkStep] at hStep
    split at hStep
    · obtain rfl := Option.some.inj hStep
      exact hIdle
    · cases hStep

theorem undisturbed_of_idle {e : LdkStep} (hIdle : s.session.transaction = .idle)
    (hOk : ReplacesNoneNewer codec s e) : Undisturbed codec s (.ldk e) := by
  refine ⟨?_, fun _ => hOk⟩
  cases e with
  | execute i answer =>
    cases answer with
    | answered =>
      intro working hActive
      rw [hIdle] at hActive
      cases hActive
    | _ => trivial
  | _ => trivial

/-- While no write replaces a newer monitor, every acknowledged update stays in its row, and
`fetch_channel_monitors` finds exactly one monitor for each outpoint, which is as new. -/
theorem monitors_never_go_backwards {es : List LdkStep}
    (hOk : Along (ldkStep codec) (ReplacesNoneNewer codec) initial es)
    (hRun : run (ldkStep codec) initial es = some s) :
    (∀ a ∈ s.acknowledged, Stored codec s.session.committed.channelMonitors a.1 a.2) ∧
    ∃ monitors, fetchChannelMonitors codec s.session.committed.channelMonitors = .ok monitors ∧
      (monitors.map fun found => found.2.fundingTxo).Nodup ∧
      (∀ outPoint, outPoint.write ∈ s.session.committed.channelMonitors ↔
        outPoint ∈ monitors.map fun found => found.2.fundingTxo) ∧
      ∀ a ∈ s.acknowledged, ∃ found ∈ monitors,
        found.2.fundingTxo = a.1 ∧ a.2 ≤ found.2.latestUpdateId := by
  have hKeep : ∀ s e s', (Inv codec s ∧ s.session.transaction = .idle) →
      ReplacesNoneNewer codec s e → ldkStep codec s e = some s' →
        Inv codec s' ∧ s'.session.transaction = .idle := by
    rintro s e s' ⟨hInv, hIdle⟩ hNone hStep
    exact ⟨inv_ldkStep hInv (undisturbed_of_idle hIdle hNone) hStep, ldkStep_idle hIdle hStep⟩
  obtain ⟨hInv, _⟩ := invariant_of_along hKeep ⟨inv_initial, rfl⟩ hOk hRun
  obtain ⟨monitors, hFetch, hNodup, hOutPoints, hFound⟩ := fetchChannelMonitors_spec hInv.wellStored
  refine ⟨hInv.acknowledged, monitors, hFetch, hNodup, hOutPoints, ?_⟩
  intro a ha
  exact hFound a.1 a.2 (hInv.acknowledged a ha)

def overtaken : List LdkStep :=
  [.persist (exampleCall 1), updatePersistedChannel (exampleCall 2), .execute 1 .answered,
    .acknowledge 1, .execute 0 .answered]

def inOrder : List LdkStep :=
  [.persist (exampleCall 1), updatePersistedChannel (exampleCall 2), .execute 0 .answered,
    .execute 1 .answered, .acknowledge 1]

/-- The task of the first update overtaken by that of the second puts the older monitor back. -/
theorem older_monitor_put_back :
    ∃ s, run (ldkStep exampleCodec) initial overtaken = some s ∧
      ((exampleCall 2).fundingTxo, 2) ∈ s.acknowledged ∧
      ¬ Stored exampleCodec s.session.committed.channelMonitors (exampleCall 2).fundingTxo 2 := by
  refine ⟨_, rfl, List.mem_cons_self, not_stored_of_read ?_⟩
  intro row monitor hRow hRead
  rw [eq_of_read_upsertMonitor hRow hRead]
  decide

theorem monitors_go_forward_in_order :
    ∃ s, run (ldkStep exampleCodec) initial inOrder = some s ∧
      s.acknowledged = [((exampleCall 2).fundingTxo, 2)] ∧
      ∀ a ∈ s.acknowledged, Stored exampleCodec s.session.committed.channelMonitors a.1 a.2 := by
  have hRun : run (ldkStep exampleCodec) initial inOrder = some _ := rfl
  refine ⟨_, hRun, rfl, (monitors_never_go_backwards ?_ hRun).1⟩
  refine (along_cons rfl).mpr ⟨trivial, (along_cons rfl).mpr ⟨trivial, (along_cons rfl).mpr ⟨?_,
    (along_cons rfl).mpr ⟨?_, (along_cons rfl).mpr ⟨trivial, trivial⟩⟩⟩⟩⟩
  · intro call _ _ row monitor hRow
    cases hRow
  · intro call hWrites _ row monitor hRow hRead
    obtain rfl : exampleCall 2 = call := congrArg Task.call (Option.some.inj hWrites)
    rw [eq_of_read_upsertMonitor hRow hRead]
    decide

end Kld.MonitorPersistence
