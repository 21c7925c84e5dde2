import Kld.Lib.Run
import Mathlib.Data.List.Sort

/-!
# The command history of the terminal interface

A command is stored with the second in which it is executed, and its thread writes
the output to the rows of that second. The list of the history reads all rows; the
details of an entry are looked up by its second. Both can be read in every state,
also after a restart, which ends the threads and keeps the table.
-/

namespace Kld.History

open Transition

inductive Cmd where
  | appInfo
  | chanBala
  | chanClos
  | chanHist
  | chanList
  | chanLsfd
  | chanOpen
  | chanSetf
  | invoDeco
  | invoGene
  | invoList
  | netwFeer
  | netwLsnd
  | nodeEslq
  | nodeFees
  | nodeInfo
  | nodeLsfd
  | nodeSign
  | paymList
  | paymPayi
  | paymSdky
  | peerCont
  | peerDisc
  | peerList
deriving DecidableEq

def Cmd.debug : Cmd → String
  | .appInfo => "AppInfo"
  | .chanBala => "ChanBala"
  | .chanClos => "ChanClos"
  | .chanHist => "ChanHist"
  | .chanList => "ChanList"
  | .chanLsfd => "ChanLsfd"
  | .chanOpen => "ChanOpen"
  | .chanSetf => "ChanSetf"
  | .invoDeco => "InvoDeco"
  | .invoGene => "InvoGene"
  | .invoList => "InvoList"
  | .netwFeer => "NetwFeer"
  | .netwLsnd => "NetwLsnd"
  | .nodeEslq => "NodeEslq"
  | .nodeFees => "NodeFees"
  | .nodeInfo => "NodeInfo"
  | .nodeLsfd => "NodeLsfd"
  | .nodeSign => "NodeSign"
  | .paymList => "PaymList"
  | .paymPayi => "PaymPayi"
  | .paymSdky => "PaymSdky"
  | .peerCont => "PeerCont"
  | .peerDisc => "PeerDisc"
  | .peerList => "PeerList"

/-- Only these commands start a thread that queries the node. -/
def Cmd.queries : Cmd → Bool
  | .nodeInfo => true
  | .chanList => true
  | .peerCont => true
  | .chanOpen => true
  | _ => false

structure Row where
  timestamp : Nat
  command : String
  input : String
  output : String
deriving DecidableEq

/-- `ended` is a run that delivers no output any more. -/
inductive Stage where
  | querying
  | finished (output : String)
  | ended
deriving DecidableEq

/-- An executed command; it is recorded if its row was inserted. -/
structure Run where
  command : Cmd
  input : String
  timestamp : Nat
  recorded : Bool
  stage : Stage
deriving DecidableEq

def Run.output (run : Run) : String :=
  match run.stage with
  | .finished output => output
  | _ => ""

def Run.stop (run : Run) : Run :=
  match run.stage with
  | .querying => { run with stage := .ended }
  | _ => run

def Run.item (run : Run) : Nat × String := (run.timestamp, run.command.debug)

def Run.key (run : Run) : Nat × String × String := (run.timestamp, run.command.debug, run.input)

def Row.key (row : Row) : Nat × String × String := (row.timestamp, row.command, row.input)

structure State where
  rows : List Row
  runs : List Run

def initial : State := ⟨[], []⟩

inductive Event where
  | execute (command : Cmd) (input : String) (now : Nat) (inserted : Bool)
  | complete (run : Nat) (output : String) (updated : Bool)
  | restart

def updateOutput (timestamp : Nat) (output : String) (rows : List Row) : List Row :=
  rows.map fun row => if row.timestamp = timestamp then { row with output := output } else row

/-- The thread is started whether or not the row was inserted. -/
def execute (command : Cmd) (input : String) (now : Nat) (inserted : Bool) (s : State) : State where
  rows := if inserted then s.rows ++ [⟨now, command.debug, input, ""⟩] else s.rows
  runs := s.runs ++
    [⟨command, input, now, inserted, if command.queries then .querying else .ended⟩]

def step (s : State) : Event → Option State
  | .execute command input now inserted => some (execute command input now inserted s)
  | .complete i output updated =>
    match s.runs[i]? with
    | some run =>
      match run.stage with
      | .querying => some
        ⟨if updated then updateOutput run.timestamp output s.rows else s.rows,
          s.runs.set i { run with stage := .finished output }⟩
      | _ => none
    | none => none
  | .restart => some ⟨s.rows, s.runs.map Run.stop⟩

/-- The items of the history list. -/
def loadItems (rows : List Row) : List (Nat × String) :=
  (rows.mergeSort fun row row' => row'.timestamp ≤ row.timestamp).map
    fun row => (row.timestamp, row.command)

/-- The input and the output that are shown for an entry: the first row of its second. -/
def details (timestamp : Nat) (rows : List Row) : String × String :=
  match rows.find? fun row => row.timestamp = timestamp with
  | some row => (row.input, row.output)
  | none => ("", "fail to fetch command history from db")

/-- Each recorded command is listed once, and is shown with its own input and output. -/
structure ShowsOwnOutput (s : State) : Prop where
  once : (loadItems s.rows).Perm ((s.runs.filter Run.recorded).map Run.item)
  own : ∀ run ∈ s.runs, run.recorded = true →
    details run.timestamp s.rows = (run.input, run.output)

/-- The condition on an event: commands of one second must not differ in what is shown, and an
output has to be written. -/
def Distinguished (s : State) : Event → Prop
  | .execute _ input now inserted => inserted = true →
      ∀ run ∈ s.runs, run.recorded = true → run.timestamp = now →
        run.input = input ∧ run.output = ""
  | .complete i output updated => ∀ run, s.runs[i]? = some run →
      if updated then ∀ j other, j ≠ i → s.runs[j]? = some other → other.recorded = true →
        other.timestamp = run.timestamp → other.output = output
      else run.recorded = true → output = ""
  | .restart => True

/-- The rows are those of the recorded commands, in the order of their execution. -/
def Recorded (s : State) : Prop :=
  s.rows.map Row.key = (s.runs.filter Run.recorded).map Run.key

@[simp] theorem Run.stop_recorded (run : Run) : run.stop.recorded = run.recorded := by
  unfold Run.stop
  split <;> rfl

@[simp] theorem Run.stop_key (run : Run) : run.stop.key = run.key := by
  unfold Run.stop
  split <;> rfl

@[simp] theorem Run.stop_output (run : Run) : run.stop.output = run.output := by
  unfold Run.stop
  split
  · rename_i hStage
    rw [Run.output, Run.output, hStage]
  · rfl

theorem updateOutput_key (timestamp : Nat) (output : String) (rows : List Row) :
    (updateOutput timestamp output rows).map Row.key = rows.map Row.key := by
  rw [updateOutput, List.map_map]
  refine List.map_congr_left fun row _ => ?_
  dsimp only [Function.comp]
  split <;> rfl

theorem Recorded.once {s : State} (h : Recorded s) :
    (loadItems s.rows).Perm ((s.runs.filter Run.recorded).map Run.item) := by
  have hItems : s.rows.map (fun row => (row.timestamp, row.command)) =
      (s.runs.filter Run.recorded).map Run.item := by
    have hProjected := congrArg (List.map fun key : Nat × String × String => (key.1, key.2.1)) h
    rw [List.map_map, List.map_map] at hProjected
    exact hProjected
  rw [← hItems]
  exact (List.mergeSort_perm s.rows _).map _

theorem Recorded.exists_row {s : State} (h : Recorded s) {run : Run} (hRun : run ∈ s.runs)
    (hRecorded : run.recorded = true) : ∃ row ∈ s.rows, row.timestamp = run.timestamp := by
  have hKey : run.key ∈ s.rows.map Row.key := by
    rw [h]
    exact List.mem_map_of_mem (List.mem_filter.mpr ⟨hRun, hRecorded⟩)
  obtain ⟨row, hRow, hKey⟩ := List.mem_map.mp hKey
  exact ⟨row, hRow, congrArg Prod.fst hKey⟩

theorem Recorded.exists_run {s : State} (h : Recorded s) {row : Row} (hRow : row ∈ s.rows) :
    ∃ run ∈ s.runs, run.recorded = true ∧ run.timestamp = row.timestamp := by
  have hKey : row.key ∈ (s.runs.filter Run.recorded).map Run.key := by
    rw [← h]
    exact List.mem_map_of_mem hRow
  obtain ⟨run, hRun, hKey⟩ := List.mem_map.mp hKey
  obtain ⟨hRun, hRecorded⟩ := List.mem_filter.mp hRun
  exact ⟨run, hRun, hRecorded, congrArg Prod.fst hKey⟩

theorem filter_set {runs : List Run} {i : Nat} {run run' : Run} (hRun : runs[i]? = some run)
    (hRecorded : run'.recorded = run.recorded) (hKey : run'.key = run.key) :
    ((runs.set i run').filter Run.recorded).map Run.key =
      (runs.filter Run.recorded).map Run.key := by
  induction runs generalizing i with
  | nil => rfl
  | cons first runs ih =>
    cases i with
    | zero =>
      obtain rfl := Option.some.inj hRun
      rw [List.set_cons_zero, List.filter_cons, List.filter_cons, hRecorded]
      split
      · rw [List.map_cons, List.map_cons, hKey]
      · rfl
    | succ i =>
      rw [List.set_cons_succ, List.filter_cons, List.filter_cons]
      split
      · rw [List.map_cons, List.map_cons, ih hRun]
      · exact ih hRun

theorem filter_stop (runs : List Run) :
    ((runs.map Run.stop).filter Run.recorded).map Run.key =
      (runs.filter Run.recorded).map Run.key := by
  have hRecorded : Run.recorded ∘ Run.stop = Run.recorded := funext Run.stop_recorded
  have hKey : Run.key ∘ Run.stop = Run.key := funext Run.stop_key
  rw [List.filter_map, List.map_map, hRecorded, hKey]

theorem step_complete {s s' : State} {i : Nat} {output : String} {updated : Bool}
    (hStep : step s (.complete i output updated) = some s') :
    ∃ run, s.runs[i]? = some run ∧ run.stage = .querying ∧
      s' = ⟨if updated then updateOutput run.timestamp output s.rows else s.rows,
        s.runs.set i { run with stage := .finished output }⟩ := by
  dsimp only [step] at hStep
  split at hStep
  · rename_i run hRun
    split at hStep
    · rename_i hStage
      exact ⟨run, hRun, hStage, (Option.some.inj hStep).symm⟩
    · cases hStep
  · cases hStep

theorem recorded_step {s s' : State} {e : Event} (h : Recorded s) (hStep : step s e = some s') :
    Recorded s' := by
  cases e with
  | execute command input now inserted =>
    obtain rfl := Option.some.inj hStep
    unfold Recorded execute
    cases inserted with
    | false =>
      rw [List.filter_append, List.filter_cons_of_neg Bool.false_ne_true, List.filter_nil,
        List.append_nil]
      exact h
    | true =>
      rw [if_pos rfl, List.map_append, h, List.filter_append, List.map_append]
      rfl
  | complete i output updated =>
    obtain ⟨run, hRun, _, rfl⟩ := step_complete hStep
    have hRuns : ((s.runs.set i { run with stage := .finished output }).filter
        Run.recorded).map Run.key = (s.runs.filter Run.recorded).map Run.key :=
      filter_set hRun rfl rfl
    refine Eq.trans ?_ (h.trans hRuns.symm)
    dsimp only
    split
    · exact updateOutput_key _ _ _
    · rfl
  | restart =>
    obtain rfl := Option.some.inj hStep
    exact h.trans (filter_stop s.runs).symm

theorem details_append_of_mem {timestamp : Nat} {rows : List Row} {row : Row}
    (h : ∃ row ∈ rows, row.timestamp = timestamp) :
    details timestamp (rows ++ [row]) = details timestamp rows := by
  obtain ⟨row', hRow, hTime⟩ := h
  unfold details
  rw [List.find?_append]
  cases hFind : rows.find? fun row => row.timestamp = timestamp with
  | none => exact absurd hTime (by simpa using List.find?_eq_none.mp hFind row' hRow)
  | some _ => rfl

theorem details_append_of_notMem {rows : List Row} (row : Row)
    (h : ∀ row' ∈ rows, row'.timestamp ≠ row.timestamp) :
    details row.timestamp (rows ++ [row]) = (row.input, row.output) := by
  unfold details
  rw [List.find?_append, List.find?_eq_none.mpr (by simpa using h)]
  simp

theorem find_updateOutput (timestamp timestamp' : Nat) (output : String) (rows : List Row) :
    (updateOutput timestamp output rows).find? (fun row => row.timestamp = timestamp') =
      (rows.find? fun row => row.timestamp = timestamp').map fun row =>
        if row.timestamp = timestamp then { row with output := output } else row := by
  rw [updateOutput, List.find?_map]
  congr 2
  funext row
  dsimp only [Function.comp]
  split <;> rfl

theorem details_updateOutput_of_ne {timestamp timestamp' : Nat} (hNe : timestamp' ≠ timestamp)
    (output : String) (rows : List Row) :
    details timestamp' (updateOutput timestamp output rows) = details timestamp' rows := by
  unfold details
  rw [find_updateOutput]
  cases hFind : rows.find? fun row => row.timestamp = timestamp' with
  | none => rfl
  | some row =>
    have hTime : row.timestamp = timestamp' := by simpa using List.find?_some hFind
    rw [Option.map_some, if_neg (hTime ▸ hNe)]

theorem details_updateOutput_self {timestamp : Nat} {rows : List Row}
    (h : ∃ row ∈ rows, row.timestamp = timestamp) (output : String) :
    details timestamp (updateOutput timestamp output rows) =
      ((details timestamp rows).1, output) := by
  obtain ⟨row', hRow, hTime⟩ := h
  unfold details
  rw [find_updateOutput]
  cases hFind : rows.find? fun row => row.timestamp = timestamp with
  | none => exact absurd hTime (by simpa using List.find?_eq_none.mp hFind row' hRow)
  | some row =>
    have hTime : row.timestamp = timestamp := by simpa using List.find?_some hFind
    rw [Option.map_some, if_pos hTime]

theorem execute_own_iff {s : State} (hRows : Recorded s) (hShows : ShowsOwnOutput s)
    (command : Cmd) (input : String) (now : Nat) (inserted : Bool) :
    (∀ run ∈ (execute command input now inserted s).runs, run.recorded = true →
        details run.timestamp (execute command input now inserted s).rows =
          (run.input, run.output)) ↔
      Distinguished s (.execute command input now inserted) := by
  unfold execute
  cases inserted with
  | false =>
    refine iff_of_true (fun run hRun hRecorded => ?_) (fun hInserted => nomatch hInserted)
    rcases List.mem_append.mp hRun with hRun | hRun
    · exact hShows.own run hRun hRecorded
    · rw [List.mem_singleton.mp hRun] at hRecorded
      cases hRecorded
  | true =>
    have hOutput : (⟨command, input, now, true,
        if command.queries then .querying else .ended⟩ : Run).output = "" := by
      cases hQueries : command.queries <;> simp [Run.output]
    have hOld : ∀ run ∈ s.runs, run.recorded = true →
        details run.timestamp (s.rows ++ [⟨now, command.debug, input, ""⟩]) =
          (run.input, run.output) := fun run hRun hRecorded =>
      (details_append_of_mem (hRows.exists_row hRun hRecorded)).trans
        (hShows.own run hRun hRecorded)
    constructor
    · rintro h - run hRun hRecorded rfl
      have hNew := h _ (List.mem_append_right _ (List.mem_singleton_self _)) rfl
      have hBoth := (hOld run hRun hRecorded).symm.trans hNew
      rw [hOutput] at hBoth
      exact Prod.mk.inj hBoth
    · intro h run hRun hRecorded
      rcases List.mem_append.mp hRun with hRun | hRun
      · exact hOld run hRun hRecorded
      · rw [List.mem_singleton.mp hRun, hOutput]
        by_cases hSame : ∃ row ∈ s.rows, row.timestamp = now
        · obtain ⟨row, hRow, hTime⟩ := hSame
          obtain ⟨old, hMem, hOldRecorded, hOldTime⟩ := hRows.exists_run hRow
          obtain ⟨hInput, hEmpty⟩ := h rfl old hMem hOldRecorded (hOldTime.trans hTime)
          have hDetails := hOld old hMem hOldRecorded
          rwa [hInput, hEmpty, hOldTime, hTime] at hDetails
        · exact details_append_of_notMem ⟨now, command.debug, input, ""⟩
            fun row hRow hTime => hSame ⟨row, hRow, hTime⟩

theorem forall_mem_set_iff {α : Type} {xs : List α} {i : Nat} (hLt : i < xs.length) {z : α}
    {P : α → Prop} :
    (∀ y ∈ xs.set i z, P y) ↔ P z ∧ ∀ j y, j ≠ i → xs[j]? = some y → P y := by
  constructor
  · intro h
    refine ⟨h z (List.mem_of_getElem? (List.getElem?_set_self hLt)), fun j y hj hy => ?_⟩
    exact h y (List.mem_of_getElem? ((List.getElem?_set_ne (Ne.symm hj)).trans hy))
  · rintro ⟨hSelf, hOthers⟩ y hy
    obtain ⟨j, hj⟩ := List.mem_iff_getElem?.mp hy
    by_cases hEq : j = i
    · subst hEq
      rw [List.getElem?_set_self hLt] at hj
      obtain rfl := Option.some.inj hj
      exact hSelf
    · rw [List.getElem?_set_ne (Ne.symm hEq)] at hj
      exact hOthers j y hEq hj

/-- An output that is lost is missed unless it is empty. -/
theorem lost_own_iff {s : State} (hShows : ShowsOwnOutput s) {i : Nat} {run : Run}
    (hRun : s.runs[i]? = some run) (hEmpty : run.output = "") (output : String) :
    ((run.recorded = true → details run.timestamp s.rows = (run.input, output)) ∧
      ∀ j other, j ≠ i → s.runs[j]? = some other → other.recorded = true →
        details other.timestamp s.rows = (other.input, other.output)) ↔
      (run.recorded = true → output = "") := by
  have hMem := List.mem_of_getElem? hRun
  constructor
  · rintro ⟨hSelf, _⟩ hRecorded
    have hBoth := (hSelf hRecorded).symm.trans (hShows.own run hMem hRecorded)
    exact (Prod.mk.inj hBoth).2.trans hEmpty
  · intro h
    refine ⟨fun hRecorded => ?_, fun j other _ hOther => ?_⟩
    · rw [h hRecorded, ← hEmpty]
      exact hShows.own run hMem hRecorded
    · exact hShows.own other (List.mem_of_getElem? hOther)

/-- An output is written to all rows of its second. -/
theorem written_own_iff {s : State} (hRows : Recorded s) (hShows : ShowsOwnOutput s) {i : Nat}
    {run : Run} (hRun : s.runs[i]? = some run) (output : String) :
    ((run.recorded = true →
        details run.timestamp (updateOutput run.timestamp output s.rows) = (run.input, output)) ∧
      ∀ j other, j ≠ i → s.runs[j]? = some other → other.recorded = true →
        details other.timestamp (updateOutput run.timestamp output s.rows) =
          (other.input, other.output)) ↔
      ∀ j other, j ≠ i → s.runs[j]? = some other → other.recorded = true →
        other.timestamp = run.timestamp → other.output = output := by
  have hUpdated : ∀ other ∈ s.runs, other.recorded = true →
      other.timestamp = run.timestamp →
        details other.timestamp (updateOutput run.timestamp output s.rows) =
          (other.input, output) := by
    intro other hOther hRecorded hTime
    rw [← hTime, details_updateOutput_self (hRows.exists_row hOther hRecorded),
      hShows.own other hOther hRecorded]
  constructor
  · rintro ⟨_, hOthers⟩ j other hj hOther hRecorded hTime
    have hBoth := (hOthers j other hj hOther hRecorded).symm.trans
      (hUpdated other (List.mem_of_getElem? hOther) hRecorded hTime)
    exact (Prod.mk.inj hBoth).2
  · intro h
    refine ⟨fun hRecorded => hUpdated run (List.mem_of_getElem? hRun) hRecorded rfl, ?_⟩
    intro j other hj hOther hRecorded
    by_cases hTime : other.timestamp = run.timestamp
    · rw [h j other hj hOther hRecorded hTime]
      exact hUpdated other (List.mem_of_getElem? hOther) hRecorded hTime
    · rw [details_updateOutput_of_ne hTime]
      exact hShows.own other (List.mem_of_getElem? hOther) hRecorded

theorem complete_own_iff {s s' : State} (hRows : Recorded s) (hShows : ShowsOwnOutput s) {i : Nat}
    {output : String} {updated : Bool}
    (hStep : step s (.complete i output updated) = some s') :
    (∀ run ∈ s'.runs, run.recorded = true →
        details run.timestamp s'.rows = (run.input, run.output)) ↔
      Distinguished s (.complete i output updated) := by
  obtain ⟨run, hRun, hStage, rfl⟩ := step_complete hStep
  have hEmpty : run.output = "" := by rw [Run.output, hStage]
  have hLt : i < s.runs.length := (List.getElem?_eq_some_iff.mp hRun).1
  have hDistinguished : Distinguished s (.complete i output updated) ↔
      if updated then ∀ j other, j ≠ i → s.runs[j]? = some other → other.recorded = true →
        other.timestamp = run.timestamp → other.output = output
      else run.recorded = true → output = "" := by
    constructor
    · exact fun h => h run hRun
    · intro h run' hRun'
      obtain rfl := Option.some.inj (hRun.symm.trans hRun')
      exact h
  refine (forall_mem_set_iff hLt).trans (Iff.trans ?_ hDistinguished.symm)
  cases updated with
  | false => exact lost_own_iff hShows hRun hEmpty output
  | true => exact written_own_iff hRows hShows hRun output

theorem step_showsOwnOutput_iff {s s' : State} {e : Event} (hRows : Recorded s)
    (hShows : ShowsOwnOutput s) (hStep : step s e = some s') :
    ShowsOwnOutput s' ↔ Distinguished s e := by
  have hOnce := (recorded_step hRows hStep).once
  have hOwn : ShowsOwnOutput s' ↔ ∀ run ∈ s'.runs, run.recorded = true →
      details run.timestamp s'.rows = (run.input, run.output) :=
    ⟨fun h => h.own, fun h => ⟨hOnce, h⟩⟩
  rw [hOwn]
  cases e with
  | execute command input now inserted =>
    obtain rfl := Option.some.inj hStep
    exact execute_own_iff hRows hShows command input now inserted
  | complete i output updated => exact complete_own_iff hRows hShows hStep
  | restart =>
    obtain rfl := Option.some.inj hStep
    refine iff_of_true (fun run hRun hRecorded => ?_) trivial
    obtain ⟨old, hOld, rfl⟩ := List.mem_map.mp hRun
    have hShown := hShows.own old hOld (old.stop_recorded ▸ hRecorded)
    have hTime : old.stop.timestamp = old.timestamp := congrArg Prod.fst old.stop_key
    have hInput : old.stop.input = old.input := congrArg (·.2.2) old.stop_key
    rw [hTime, hInput, Run.stop_output]
    exact hShown

/-- A second of its own distinguishes a command. -/
theorem distinguished_execute {s : State} {now : Nat} (h : now ∉ s.runs.map Run.timestamp)
    {command : Cmd} {input : String} {inserted : Bool} :
    Distinguished s (.execute command input now inserted) := by
  rintro _ run hRun _ rfl
  exact absurd (List.mem_map_of_mem hRun) h

theorem distinguished_complete {s : State} (h : (s.runs.map Run.timestamp).Nodup) {i : Nat}
    {output : String} : Distinguished s (.complete i output true) := by
  intro run hRun
  rw [if_pos rfl]
  intro j other hj hOther _ hTime
  have hLt : j < (s.runs.map Run.timestamp).length := by
    rw [List.length_map]
    exact (List.getElem?_eq_some_iff.mp hOther).1
  refine absurd ((List.getElem?_inj hLt h).mp ?_) hj
  rw [List.getElem?_map, List.getElem?_map, hRun, hOther, Option.map_some, Option.map_some, hTime]

/-- In every state of a run each command is listed once and shown with its own output, exactly if
no event of the run confuses commands of one second. -/
theorem history_iff {es : List Event} {s : State} (hRun : run step initial es = some s) :
    Always step ShowsOwnOutput initial es ↔ Along step Distinguished initial es := by
  have hInitial : Recorded initial := rfl
  have hShows : ShowsOwnOutput initial :=
    ⟨hInitial.once, fun _ hMem => absurd hMem List.not_mem_nil⟩
  refine always_iff_along (fun s (h : Recorded s ∧ ShowsOwnOutput s) => h.2) ?_ ?_
    ⟨hInitial, hShows⟩ hRun
  · intro s e s' hInv hOk hStep
    exact ⟨recorded_step hInv.1 hStep, (step_showsOwnOutput_iff hInv.1 hInv.2 hStep).mpr hOk⟩
  · intro s e s' hInv hNotOk hStep
    exact mt (step_showsOwnOutput_iff hInv.1 hInv.2 hStep).mp hNotOk

theorem one_command_a_second :
    Always step ShowsOwnOutput initial
      [.execute .nodeInfo "" 100 true, .execute .peerCont "peer" 101 true,
        .complete 1 "connected" true, .restart] := by
  refine (history_iff rfl).mpr ?_
  refine (along_cons rfl).mpr ⟨distinguished_execute (by decide), ?_⟩
  refine (along_cons rfl).mpr ⟨distinguished_execute (by decide), ?_⟩
  refine (along_cons rfl).mpr ⟨distinguished_complete (by decide), ?_⟩
  exact (along_cons rfl).mpr ⟨trivial, trivial⟩

theorem same_second_confused :
    ∃ s, run step initial
        [.execute .nodeInfo "" 100 true, .execute .chanList "" 100 true,
          .complete 0 "info" true, .complete 1 "channels" true] = some s ∧
      details 100 s.rows = ("", "channels") ∧ ¬ ShowsOwnOutput s := by
  refine ⟨_, rfl, rfl, fun h => ?_⟩
  have hInfo := h.own ⟨.nodeInfo, "", 100, true, .finished "info"⟩ List.mem_cons_self rfl
  exact absurd hInfo (by decide)

end Kld.History
