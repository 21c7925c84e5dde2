import Kld.Database.WalletStore
import Kld.Lib.Run

/-!
# The script pubkeys of the wallet

Paths and scripts are looked up in both directions in one table without a
primary key, to which setting a script appends. Lookups take the first row that
matches; a row that is set again is therefore stored twice.
-/

namespace Kld.WalletScripts

open Sql Transition Wallet

structure Path where
  keychain : KeychainKind
  child : UInt32
deriving DecidableEq

section Operations

variable (tables : WalletTables)

def setScriptPubkey (script : Bytes) (path : Path) : Except Fault Unit × WalletTables :=
  execute (.insertScriptPubkey path.keychain.toJson path.child script) tables

def selectScriptPubkeyByPath (path : Path) : Option Bytes :=
  (tables.scriptPubkeys.find? fun row =>
    row.keychain = path.keychain.toJson ∧ row.child = path.child.toInt32).map (·.script)

def selectScriptPubkeyByScript (script : Bytes) : Except Fault (Option Path) :=
  match tables.scriptPubkeys.find? fun row => row.script = script with
  | some row =>
    match KeychainKind.ofJson row.keychain with
    | some keychain => .ok (some ⟨keychain, row.child.toUInt32⟩)
    | none => .error .json
  | none => .ok none

def getScriptPubkeyFromPath (path : Path) : Except Fault (Option Bytes) :=
  .ok (selectScriptPubkeyByPath tables path)

def getPathFromScriptPubkey (script : Bytes) : Except Fault (Option Path) :=
  selectScriptPubkeyByScript tables script

def iterScriptPubkeys (keychain : Option KeychainKind) : List Bytes :=
  match keychain with
  | some keychain =>
    (tables.scriptPubkeys.filter fun row => row.keychain = keychain.toJson).map (·.script)
  | none => tables.scriptPubkeys.map (·.script)

def delScriptPubkeyFromPath (path : Path) : Except Fault (Option Bytes) × WalletTables :=
  deleteFound (.ok (selectScriptPubkeyByPath tables path))
    (.deleteScriptPubkeyByPath path.keychain.toJson path.child) tables

def delPathFromScriptPubkey (script : Bytes) : Except Fault (Option Path) × WalletTables :=
  deleteFound (selectScriptPubkeyByScript tables script) (.deleteScriptPubkeyByScript script) tables

end Operations

inductive ScriptOperation where
  | setScriptPubkey (script : Bytes) (path : Path)
  | delScriptPubkeyFromPath (path : Path)
  | delPathFromScriptPubkey (script : Bytes)
deriving DecidableEq

/-- The tables, and for each path the script that was last set for it and not deleted since. -/
structure State where
  tables : WalletTables
  current : Path → Option Bytes

def initial : State := ⟨(default : Database).wallet, fun _ => none⟩

def next (s : State) : ScriptOperation → State
  | .setScriptPubkey script path =>
    { tables := (setScriptPubkey s.tables script path).2
      current := Function.update s.current path (some script) }
  | .delScriptPubkeyFromPath path =>
    { tables := (delScriptPubkeyFromPath s.tables path).2
      current := Function.update s.current path none }
  | .delPathFromScriptPubkey script =>
    { tables := (delPathFromScriptPubkey s.tables script).2
      current := fun path => (s.current path).filter (· ≠ script) }

/-- Both lookups, the listings and both deletions agree with the current scripts. -/
structure TwoWay (s : State) : Prop where
  script_of_path : ∀ path, getScriptPubkeyFromPath s.tables path = .ok (s.current path)
  path_of_script : ∀ script path,
    getPathFromScriptPubkey s.tables script = .ok (some path) ↔ s.current path = some script
  no_path : ∀ script, (∀ path, s.current path ≠ some script) →
    getPathFromScriptPubkey s.tables script = .ok none
  iter_nodup : ∀ keychain, (iterScriptPubkeys s.tables keychain).Nodup
  mem_iter : ∀ script, script ∈ iterScriptPubkeys s.tables none ↔
    ∃ path, s.current path = some script
  mem_iter_keychain : ∀ keychain script, script ∈ iterScriptPubkeys s.tables (some keychain) ↔
    ∃ child, s.current ⟨keychain, child⟩ = some script
  deleted_by_path : ∀ path, (delScriptPubkeyFromPath s.tables path).1 = .ok (s.current path) ∧
    getScriptPubkeyFromPath (delScriptPubkeyFromPath s.tables path).2 path = .ok none ∧
    ∀ script, s.current path = some script →
      getPathFromScriptPubkey (delScriptPubkeyFromPath s.tables path).2 script = .ok none
  deleted_by_script : ∀ script,
    (delPathFromScriptPubkey s.tables script).1 = getPathFromScriptPubkey s.tables script ∧
    getPathFromScriptPubkey (delPathFromScriptPubkey s.tables script).2 script = .ok none ∧
    ∀ path, s.current path = some script →
      getScriptPubkeyFromPath (delPathFromScriptPubkey s.tables script).2 path = .ok none

/-- A script is set only for a path without one, and only if no path has that script. -/
def SetsNew (s : State) : ScriptOperation → Prop
  | .setScriptPubkey script path => s.current path = none ∧ ∀ other, s.current other ≠ some script
  | _ => True

def entryRow (entry : Path × Bytes) : ScriptPubkeyRow :=
  ⟨entry.1.keychain.toJson, entry.1.child.toInt32, entry.2⟩

/-- The rows are those of the current scripts, with neither a path nor a script twice. -/
def Inv (s : State) : Prop :=
  ∃ entries, s.tables.scriptPubkeys = entries.map entryRow ∧
    Lists Prod.fst entries (fun path => (s.current path).map (path, ·)) ∧
    (entries.map Prod.snd).Nodup

variable {s : State} {entries : List (Path × Bytes)}

@[simp] theorem next_set_current (script : Bytes) (path : Path) :
    (next s (.setScriptPubkey script path)).current =
      Function.update s.current path (some script) := rfl

@[simp] theorem next_delByPath_current (path : Path) :
    (next s (.delScriptPubkeyFromPath path)).current = Function.update s.current path none := rfl

@[simp] theorem next_delByScript_current (script : Bytes) :
    (next s (.delPathFromScriptPubkey script)).current =
      fun path => (s.current path).filter (· ≠ script) := rfl

theorem entryRow_path (entry : Path × Bytes) (path : Path) :
    ((entryRow entry).keychain = path.keychain.toJson ∧
      (entryRow entry).child = path.child.toInt32) ↔ entry.1 = path := by
  obtain ⟨⟨keychain, child⟩, script⟩ := entry
  obtain ⟨keychain', child'⟩ := path
  simp [entryRow, toInt32_inj]

theorem current_iff (hList : Lists Prod.fst entries fun path => (s.current path).map (path, ·))
    (path : Path) (script : Bytes) : s.current path = some script ↔ (path, script) ∈ entries := by
  rw [hList.mem_iff, Option.map_eq_some_iff]
  simp

theorem selectByPath_eq (hRows : s.tables.scriptPubkeys = entries.map entryRow)
    (hList : Lists Prod.fst entries fun path => (s.current path).map (path, ·)) (path : Path) :
    selectScriptPubkeyByPath s.tables path = s.current path := by
  unfold selectScriptPubkeyByPath
  simp only [hRows, List.find?_map, Function.comp_def, entryRow_path]
  rw [hList.find]
  cases s.current path <;> rfl

theorem selectByScript_eq (hRows : s.tables.scriptPubkeys = entries.map entryRow)
    (script : Bytes) :
    selectScriptPubkeyByScript s.tables script =
      .ok ((entries.find? fun entry => entry.2 = script).map Prod.fst) := by
  unfold selectScriptPubkeyByScript
  rw [hRows, List.find?_map]
  change (match Option.map entryRow (entries.find? fun entry => entry.2 = script) with
    | some row => _
    | none => _) = _
  cases entries.find? fun entry => entry.2 = script with
  | none => rfl
  | some entry => simp [entryRow]

theorem pathOfScript_iff (hRows : s.tables.scriptPubkeys = entries.map entryRow)
    (hScripts : (entries.map Prod.snd).Nodup) (script : Bytes) (path : Path) :
    getPathFromScriptPubkey s.tables script = .ok (some path) ↔ (path, script) ∈ entries := by
  have hFind := (Lists.of_nodup hScripts).some_iff script
  rw [getPathFromScriptPubkey, selectByScript_eq hRows, Except.ok.injEq, Option.map_eq_some_iff]
  constructor
  · rintro ⟨entry, hEntry, rfl⟩
    obtain ⟨hMem, rfl⟩ := (hFind entry).mp hEntry
    exact hMem
  · exact fun hMem => ⟨_, (hFind _).mpr ⟨hMem, rfl⟩, rfl⟩

theorem iter_none (hRows : s.tables.scriptPubkeys = entries.map entryRow) :
    iterScriptPubkeys s.tables none = entries.map Prod.snd := by
  simp [iterScriptPubkeys, hRows, entryRow]

theorem iter_keychain (hRows : s.tables.scriptPubkeys = entries.map entryRow)
    (keychain : KeychainKind) :
    iterScriptPubkeys s.tables (some keychain) =
      (entries.filter fun entry => entry.1.keychain = keychain).map Prod.snd := by
  simp [iterScriptPubkeys, hRows, List.filter_map, Function.comp_def, entryRow]

theorem inv_append {script : Bytes} {path : Path} (hInv : Inv s)
    (hOk : SetsNew s (.setScriptPubkey script path)) :
    Inv (next s (.setScriptPubkey script path)) := by
  obtain ⟨entries, hRows, hList, hScripts⟩ := hInv
  obtain ⟨hPath, hScript⟩ := hOk
  refine ⟨entries ++ [(path, script)], ?_, ?_, ?_⟩
  · rw [List.map_append, ← hRows]
    rfl
  · have hNew := hList.append (x := (path, script)) (by simp [hPath])
    convert hNew using 1
    exact funext (Function.apply_update (fun other found => found.map (other, ·)) s.current path
      (some script))
  · refine nodup_map_concat_iff.mpr ⟨hScripts, ?_⟩
    rintro ⟨other, _⟩ hEntry rfl
    exact hScript other ((current_iff hList other _).mpr hEntry)

theorem delByPath_answer (hRows : s.tables.scriptPubkeys = entries.map entryRow)
    (hList : Lists Prod.fst entries fun path => (s.current path).map (path, ·)) (path : Path) :
    (delScriptPubkeyFromPath s.tables path).1 = .ok (s.current path) := by
  unfold delScriptPubkeyFromPath
  rw [selectByPath_eq hRows hList]
  cases s.current path <;> rfl

theorem delByPath_rows (hRows : s.tables.scriptPubkeys = entries.map entryRow)
    (hList : Lists Prod.fst entries fun path => (s.current path).map (path, ·)) (path : Path) :
    (delScriptPubkeyFromPath s.tables path).2.scriptPubkeys =
      (entries.filter fun entry => entry.1 ≠ path).map entryRow := by
  unfold delScriptPubkeyFromPath
  rw [selectByPath_eq hRows hList]
  cases hCurrent : s.current path with
  | some script =>
    change s.tables.scriptPubkeys.filter _ = _
    simp only [hRows, List.filter_map, Function.comp_def, entryRow_path]
  | none =>
    have hAll : ∀ entry ∈ entries, entry.1 ≠ path := fun entry hMem =>
      hList.ne_of_none (by rw [hCurrent]; rfl) hMem
    change s.tables.scriptPubkeys = _
    rw [hRows, List.filter_eq_self.mpr fun entry hMem => decide_eq_true (hAll entry hMem)]

theorem delByScript_answer (hRows : s.tables.scriptPubkeys = entries.map entryRow)
    (script : Bytes) :
    (delPathFromScriptPubkey s.tables script).1 = getPathFromScriptPubkey s.tables script := by
  unfold delPathFromScriptPubkey getPathFromScriptPubkey
  rw [selectByScript_eq hRows]
  cases entries.find? fun entry => entry.2 = script <;> rfl

theorem delByScript_rows (hRows : s.tables.scriptPubkeys = entries.map entryRow)
    (script : Bytes) :
    (delPathFromScriptPubkey s.tables script).2.scriptPubkeys =
      (entries.filter fun entry => entry.2 ≠ script).map entryRow := by
  unfold delPathFromScriptPubkey
  rw [selectByScript_eq hRows]
  cases hFind : entries.find? fun entry => entry.2 = script with
  | some entry =>
    change s.tables.scriptPubkeys.filter _ = _
    rw [hRows, List.filter_map]
    rfl
  | none =>
    have hAll : ∀ entry ∈ entries, entry.2 ≠ script := fun entry hMem => by
      simpa using List.find?_eq_none.mp hFind entry hMem
    change s.tables.scriptPubkeys = _
    rw [hRows, List.filter_eq_self.mpr fun entry hMem => decide_eq_true (hAll entry hMem)]

theorem inv_next {operation : ScriptOperation} (hInv : Inv s) (hOk : SetsNew s operation) :
    Inv (next s operation) := by
  cases operation with
  | setScriptPubkey script path => exact inv_append hInv hOk
  | delScriptPubkeyFromPath path =>
    obtain ⟨entries, hRows, hList, hScripts⟩ := hInv
    refine ⟨_, delByPath_rows hRows hList path, ?_, (List.filter_sublist.map _).nodup hScripts⟩
    convert hList.erase path using 1
    exact funext (Function.apply_update (fun other found => found.map (other, ·)) s.current path
      none)
  | delPathFromScriptPubkey script =>
    obtain ⟨entries, hRows, hList, hScripts⟩ := hInv
    refine ⟨_, delByScript_rows hRows script, ?_, (List.filter_sublist.map _).nodup hScripts⟩
    convert hList.filter fun entry => entry.2 ≠ script using 1
    funext path
    cases hCurrent : s.current path with
    | none => simp [hCurrent]
    | some stored =>
      by_cases hSame : stored = script <;> simp [hCurrent, hSame, Option.filter]

theorem no_path_of_inv (hInv : Inv s) {script : Bytes}
    (hNone : ∀ path, s.current path ≠ some script) :
    getPathFromScriptPubkey s.tables script = .ok none := by
  obtain ⟨entries, hRows, hList, -⟩ := hInv
  have hFind : entries.find? (fun entry => entry.2 = script) = none := by
    rw [List.find?_eq_none]
    rintro ⟨path, stored⟩ hMem hSame
    obtain rfl : stored = script := of_decide_eq_true hSame
    exact hNone path ((current_iff hList path stored).mpr hMem)
  rw [getPathFromScriptPubkey, selectByScript_eq hRows, hFind]
  rfl

theorem script_of_path_of_inv (hInv : Inv s) (path : Path) :
    getScriptPubkeyFromPath s.tables path = .ok (s.current path) := by
  obtain ⟨entries, hRows, hList, -⟩ := hInv
  exact congrArg Except.ok (selectByPath_eq hRows hList path)

/-- No two paths have one script. -/
theorem current_injective (hInv : Inv s) {path other : Path} {script : Bytes}
    (h : s.current path = some script) (hOther : s.current other = some script) : path = other := by
  obtain ⟨entries, -, hList, hScripts⟩ := hInv
  have hMem := (current_iff hList path script).mp h
  have hMem' := (current_iff hList other script).mp hOther
  exact congrArg Prod.fst (List.inj_on_of_nodup_map hScripts hMem hMem' rfl)

theorem twoWay_of_inv (hInv : Inv s) : TwoWay s := by
  obtain ⟨entries, hRows, hList, hScripts⟩ := id hInv
  have hCurrent := current_iff hList
  refine ⟨script_of_path_of_inv hInv, ?_, fun _ => no_path_of_inv hInv, ?_, ?_, ?_, ?_, ?_⟩
  · intro script path
    rw [pathOfScript_iff hRows hScripts, hCurrent]
  · intro keychain
    cases keychain with
    | none => exact (iter_none hRows).symm ▸ hScripts
    | some keychain =>
      rw [iter_keychain hRows]
      exact (List.filter_sublist.map _).nodup hScripts
  · intro script
    simp [iter_none hRows, hCurrent]
  · intro keychain script
    rw [iter_keychain hRows, List.mem_map]
    constructor
    · rintro ⟨⟨⟨_, child⟩, _⟩, hMem, rfl⟩
      obtain ⟨hEntry, hKeychain⟩ := List.mem_filter.mp hMem
      obtain rfl := of_decide_eq_true hKeychain
      exact ⟨child, (hCurrent _ _).mpr hEntry⟩
    · rintro ⟨child, hChild⟩
      exact ⟨(⟨keychain, child⟩, script),
        List.mem_filter.mpr ⟨(hCurrent _ _).mp hChild, by simp⟩, rfl⟩
  · intro path
    have hNext : Inv (next s (.delScriptPubkeyFromPath path)) := inv_next hInv trivial
    refine ⟨delByPath_answer hRows hList path, ?_, fun script hScript => ?_⟩
    · have hGone := script_of_path_of_inv hNext path
      rwa [next_delByPath_current, Function.update_self] at hGone
    · refine no_path_of_inv hNext fun other hOther => ?_
      by_cases hSame : other = path
      · subst hSame
        simp at hOther
      · rw [next_delByPath_current, Function.update_of_ne hSame] at hOther
        exact hSame (current_injective hInv hOther hScript)
  · intro script
    have hNext : Inv (next s (.delPathFromScriptPubkey script)) := inv_next hInv trivial
    refine ⟨delByScript_answer hRows script, no_path_of_inv hNext fun path hPath => ?_,
      fun path hPath => ?_⟩
    · simp [Option.filter_eq_some_iff] at hPath
    · have hFilter : (s.current path).filter (· ≠ script) = none := by simp [hPath, Option.filter]
      exact (script_of_path_of_inv hNext path).trans (congrArg Except.ok hFilter)

theorem not_twoWay_next {operation : ScriptOperation} (hInv : Inv s)
    (hBad : ¬ SetsNew s operation) : ¬ TwoWay (next s operation) := by
  cases operation with
  | delScriptPubkeyFromPath path => exact absurd trivial hBad
  | delPathFromScriptPubkey script => exact absurd trivial hBad
  | setScriptPubkey script path =>
    intro hTwoWay
    obtain ⟨entries, hRows, hList, hScripts⟩ := id hInv
    have hRows' : (next s (.setScriptPubkey script path)).tables.scriptPubkeys =
        (entries ++ [(path, script)]).map entryRow := by
      rw [List.map_append, ← hRows]
      rfl
    have hNodup := hTwoWay.iter_nodup none
    have hMem := hTwoWay.mem_iter
    simp only [iter_none hRows'] at hNodup hMem
    rw [nodup_map_concat_iff] at hNodup
    have hUnset : ∀ other, s.current other ≠ some script := fun other hOther =>
      hNodup.2 _ ((current_iff hList other script).mp hOther) rfl
    refine hBad ⟨?_, hUnset⟩
    cases hOld : s.current path with
    | none => rfl
    | some old =>
      -- The row of the old script is still listed, though the script is no longer current.
      have hListed : old ∈ (entries ++ [(path, script)]).map Prod.snd :=
        List.mem_map.mpr ⟨(path, old), List.mem_append_left _
          ((current_iff hList path old).mp hOld), rfl⟩
      obtain ⟨other, hOther⟩ := (hMem old).mp hListed
      by_cases hSame : other = path
      · subst hSame
        rw [next_set_current, Function.update_self] at hOther
        exact absurd (hOld.trans hOther.symm) (hUnset other)
      · rw [next_set_current, Function.update_of_ne hSame] at hOther
        exact absurd (current_injective hInv hOther hOld) hSame

theorem inv_initial : Inv initial := ⟨[], rfl, Lists.nil Prod.fst, List.nodup_nil⟩

/-- The script pubkeys are a two-way map over a whole run exactly if every script that is set is
new, and so is its path. -/
theorem two_way_iff (operations : List ScriptOperation) :
    Always (total next) TwoWay initial operations ↔
      Along (total next) SetsNew initial operations := by
  have hGood : ∀ s operation, Inv s → SetsNew s operation → Inv (next s operation) :=
    fun _ _ => inv_next
  exact always_iff_along_total (fun _ => twoWay_of_inv) hGood (fun _ _ => not_twoWay_next)
    inv_initial operations

def exampleScript : ScriptOperation := .setScriptPubkey [0x51] ⟨.external, 0⟩

/-- A wallet that syncs again sets the scripts that it has, and lists them twice. -/
theorem script_set_again_listed_twice :
    ¬ Always (total next) TwoWay initial [exampleScript, exampleScript] ∧
      iterScriptPubkeys ([exampleScript, exampleScript].foldl next initial).tables none =
        [[0x51], [0x51]] := by
  refine ⟨fun hAlways => ?_, by decide⟩
  have hSet : Inv (next initial exampleScript) := inv_next inv_initial ⟨rfl, nofun⟩
  refine not_twoWay_next hSet (fun hNew : SetsNew _ exampleScript => ?_)
    ((hAlways.2 _ rfl).2 _ rfl)
  obtain ⟨hPath, -⟩ := hNew
  simp [exampleScript] at hPath

end Kld.WalletScripts
