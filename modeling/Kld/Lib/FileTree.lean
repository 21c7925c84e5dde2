import Kld.Lib.Table
import Mathlib.Data.List.Infix

/-!
# A tree of files

A path is a list of names. A directory is made together with those above it, and a
file is opened without being truncated, so that it keeps the end of what was longer.
-/

namespace FileTree

universe u v w

inductive Node (β : Type v) (μ : Type w) where
  | directory
  | file (content : List β) (mode : μ)

structure Entry (ν : Type u) (β : Type v) (μ : Type w) where
  path : List ν
  content : List β
  mode : μ

abbrev Tree (ν : Type u) (β : Type v) (μ : Type w) := Sql.Table (List ν) (Node β μ)

variable {ν : Type u} {β : Type v} {μ : Type w} [DecidableEq ν]

def overwrite (content old : List β) : List β := content ++ old.drop content.length

def createDir (t : Tree ν β μ) (path : List ν) : Option (Tree ν β μ) :=
  match t.lookup path with
  | none => some (t.insert path .directory)
  | some .directory => some t
  | some (.file _ _) => none

def createDirAll (path : List ν) (t : Tree ν β μ) : Option (Tree ν β μ) :=
  path.inits.foldlM createDir t

def openWrite (e : Entry ν β μ) (t : Tree ν β μ) : Option (Tree ν β μ) :=
  match t.lookup e.path with
  | none => some (t.insert e.path (.file e.content e.mode))
  | some .directory => none
  | some (.file old mode) => some (t.insert e.path (.file (overwrite e.content old) mode))

def write (t : Tree ν β μ) (e : Entry ν β μ) : Option (Tree ν β μ) :=
  (createDirAll e.path.dropLast t).bind (openWrite e)

/-- The root alone. -/
def root : Tree ν β μ := (∅ : Tree ν β μ).insert [] .directory

def writeAll (entries : List (Entry ν β μ)) : Option (Tree ν β μ) := entries.foldlM write root

/-- No file is where a directory has to be. -/
def Compatible (entries : List (Entry ν β μ)) : Prop :=
  ∀ e ∈ entries, e.path ≠ [] ∧ ∀ e' ∈ entries, e.path <+: e'.path → e.path = e'.path

/-- What is in the file of a path when all entries are written. -/
def stored (entries : List (Entry ν β μ)) (path : List ν) : Option (List β × μ) :=
  entries.foldl (fun found e => if e.path = path then
    some (found.elim (e.content, e.mode) fun old => (overwrite e.content old.1, old.2))
    else found) none

def laid (entries : List (Entry ν β μ)) (path : List ν) : Option (Node β μ) :=
  match stored entries path with
  | some (content, mode) => some (.file content mode)
  | none => if path = [] ∨ ∃ e ∈ entries, path <+: e.path then some .directory else none

variable {t t' : Tree ν β μ} {entries : List (Entry ν β μ)} {e : Entry ν β μ} {path : List ν}

def IsFile (node : Option (Node β μ)) : Prop := ∃ content mode, node = some (.file content mode)

theorem lookup_insert_eq (t : Tree ν β μ) (path p : List ν) (node : Node β μ) :
    (t.insert path node).lookup p = if p = path then some node else t.lookup p := by
  rw [← Sql.Table.upsert_row, Sql.Table.lookup_upsert_row]

theorem createDir_eq_some_iff :
    createDir t path = some t' ↔ ¬ IsFile (t.lookup path) ∧
      t' = if t.lookup path = none then t.insert path .directory else t := by
  unfold createDir
  split
  · rename_i hNone
    rw [hNone, if_pos rfl, Option.some.injEq, eq_comm, and_iff_right nofun]
  · rename_i hDirectory
    rw [hDirectory, if_neg nofun, Option.some.injEq, eq_comm, and_iff_right nofun]
  · rename_i content mode hFile
    exact iff_of_false nofun fun h => h.1 ⟨content, mode, hFile⟩

theorem lookup_createDir (h : createDir t path = some t') (p : List ν) :
    t'.lookup p = if p = path then some .directory else t.lookup p := by
  obtain ⟨hNot, rfl⟩ := createDir_eq_some_iff.mp h
  split
  · exact lookup_insert_eq t path p .directory
  · rename_i hThere
    split
    · rename_i hPath
      cases hNode : t.lookup path with
      | none => exact absurd hNode hThere
      | some node =>
        cases node with
        | directory => exact hPath ▸ hNode
        | file content mode => exact absurd ⟨content, mode, hNode⟩ hNot
    · rfl

theorem isFile_createDir (h : createDir t path = some t') {p : List ν} :
    IsFile (t'.lookup p) ↔ IsFile (t.lookup p) := by
  rw [lookup_createDir h]
  split
  · rename_i hPath
    exact iff_of_false nofun (hPath ▸ (createDir_eq_some_iff.mp h).1)
  · rfl

theorem foldlM_createDir {paths : List (List ν)} (h : paths.foldlM createDir t = some t') :
    (∀ p ∈ paths, ¬ IsFile (t.lookup p)) ∧
      ∀ p, t'.lookup p = if p ∈ paths then some .directory else t.lookup p := by
  induction paths generalizing t with
  | nil =>
    obtain rfl := Option.some.inj h
    exact ⟨fun p hMem => absurd hMem List.not_mem_nil, fun p => (if_neg List.not_mem_nil).symm⟩
  | cons path paths ih =>
    rw [List.foldlM_cons] at h
    obtain ⟨u, hFirst, hRest⟩ := Option.bind_eq_some_iff.mp h
    obtain ⟨hNone, hLookup⟩ := ih hRest
    refine ⟨List.forall_mem_cons.mpr ⟨(createDir_eq_some_iff.mp hFirst).1, fun p hMem => ?_⟩,
      fun p => ?_⟩
    · exact mt (isFile_createDir hFirst).mpr (hNone p hMem)
    · rw [hLookup, lookup_createDir hFirst]
      by_cases hMem : p ∈ paths
      · rw [if_pos hMem, if_pos (List.mem_cons_of_mem _ hMem)]
      · simp only [hMem, if_false, List.mem_cons, or_false]

theorem exists_foldlM_createDir {paths : List (List ν)}
    (h : ∀ p ∈ paths, ¬ IsFile (t.lookup p)) : ∃ t', paths.foldlM createDir t = some t' := by
  induction paths generalizing t with
  | nil => exact ⟨t, rfl⟩
  | cons path paths ih =>
    obtain ⟨hHead, hTail⟩ := List.forall_mem_cons.mp h
    have hFirst := createDir_eq_some_iff.mpr ⟨hHead, rfl⟩
    obtain ⟨t', hRest⟩ := ih fun p hMem => mt (isFile_createDir hFirst).mp (hTail p hMem)
    refine ⟨t', ?_⟩
    rw [List.foldlM_cons, hFirst]
    exact hRest

theorem createDirAll_spec (h : createDirAll path t = some t') :
    (∀ p, p <+: path → ¬ IsFile (t.lookup p)) ∧
      ∀ p, t'.lookup p = if p <+: path then some .directory else t.lookup p := by
  obtain ⟨hNone, hLookup⟩ := foldlM_createDir h
  refine ⟨fun p hPrefix => hNone p ((List.mem_inits _ _).mpr hPrefix), fun p => ?_⟩
  rw [hLookup]
  simp only [List.mem_inits]

theorem exists_createDirAll (h : ∀ p, p <+: path → ¬ IsFile (t.lookup p)) :
    ∃ t', createDirAll path t = some t' :=
  exists_foldlM_createDir fun p hMem => h p ((List.mem_inits _ _).mp hMem)

/-- What an entry makes of what is found in its place. -/
def layer (e : Entry ν β μ) (found : Option (List β × μ)) : List β × μ :=
  found.elim (e.content, e.mode) fun old => (overwrite e.content old.1, old.2)

theorem stored_concat (entries : List (Entry ν β μ)) (e : Entry ν β μ) (path : List ν) :
    stored (entries ++ [e]) path =
      if e.path = path then some (layer e (stored entries path)) else stored entries path := by
  rw [stored, List.foldl_append]
  rfl

theorem stored_isSome_iff : (stored entries path).isSome ↔ ∃ e ∈ entries, e.path = path := by
  induction entries using List.reverseRecOn with
  | nil => simp [stored]
  | append_singleton entries e ih =>
    rw [stored_concat]
    split
    · rename_i hPath
      exact iff_of_true rfl ⟨e, List.mem_concat_self, hPath⟩
    · rename_i hPath
      rw [ih]
      simp [hPath]

/-- An entry whose path no other one has is stored as it is. -/
theorem stored_of_nodup (h : (entries.map Entry.path).Nodup) (hMem : e ∈ entries) :
    stored entries e.path = some (e.content, e.mode) := by
  induction entries using List.reverseRecOn with
  | nil => exact absurd hMem List.not_mem_nil
  | append_singleton entries last ih =>
    rw [List.map_append, List.map_singleton, List.nodup_append] at h
    rw [stored_concat]
    rcases List.mem_append.mp hMem with hFront | hLast
    · have hOther : last.path ≠ e.path :=
        (h.2.2 _ (List.mem_map_of_mem hFront) _ (List.mem_singleton_self _)).symm
      rw [if_neg hOther]
      exact ih h.1 hFront
    · obtain rfl := List.mem_singleton.mp hLast
      have hNone : stored entries e.path = none := by
        rw [← Option.not_isSome_iff_eq_none, stored_isSome_iff]
        rintro ⟨other, hOther, hPath⟩
        exact h.2.2 _ (List.mem_map_of_mem hOther) _ (List.mem_singleton_self _) hPath
      rw [if_pos rfl, hNone]
      rfl

theorem isFile_laid_iff : IsFile (laid entries path) ↔ ∃ e ∈ entries, e.path = path := by
  rw [← stored_isSome_iff, laid]
  cases stored entries path with
  | some old => exact iff_of_true ⟨old.1, old.2, rfl⟩ rfl
  | none =>
    refine iff_of_false ?_ nofun
    rintro ⟨content, mode, h⟩
    dsimp only at h
    split at h <;> cases h

/-- The entry is in place next to those that are laid out. -/
def Fits (entries : List (Entry ν β μ)) (e : Entry ν β μ) : Prop :=
  e.path ≠ [] ∧ ∀ e' ∈ entries, e'.path <+: e.path ∨ e.path <+: e'.path → e'.path = e.path

omit [DecidableEq ν] in
theorem compatible_concat_iff :
    Compatible (entries ++ [e]) ↔ Compatible entries ∧ Fits entries e := by
  unfold Compatible Fits
  simp only [List.forall_mem_append, List.forall_mem_singleton]
  constructor
  · rintro ⟨hOld, hNe, hNew, _⟩
    refine ⟨fun e' hMem => ⟨(hOld e' hMem).1, (hOld e' hMem).2.1⟩, hNe, ?_⟩
    rintro e' hMem (hAbove | hBelow)
    · exact (hOld e' hMem).2.2 hAbove
    · exact (hNew e' hMem hBelow).symm
  · rintro ⟨hOld, hNe, hFits⟩
    refine ⟨fun e' hMem => ⟨(hOld e' hMem).1, (hOld e' hMem).2, ?_⟩, hNe, ?_, fun _ => trivial⟩
    · exact fun hAbove => hFits e' hMem (Or.inl hAbove)
    · exact fun e' hMem hBelow => (hFits e' hMem (Or.inr hBelow)).symm

omit [DecidableEq ν] in
theorem prefix_dropLast_iff {p q : List ν} (h : q ≠ []) : p <+: q.dropLast ↔ p <+: q ∧ p ≠ q := by
  conv_rhs => rw [← List.dropLast_concat_getLast h, List.prefix_concat_iff]
  constructor
  · intro hPrefix
    refine ⟨Or.inr hPrefix, fun hSame => ?_⟩
    have hLength := hPrefix.length_le
    rw [hSame, List.length_append, List.length_singleton] at hLength
    omega
  · rintro ⟨hSame | hPrefix, hNe⟩
    · exact absurd hSame hNe
    · exact hPrefix

/-- The file that an entry makes of a node that is no directory. -/
def fileOver (e : Entry ν β μ) : Option (Node β μ) → Node β μ
  | some (.file old mode) => .file (overwrite e.content old) mode
  | _ => .file e.content e.mode

theorem openWrite_spec (h : openWrite e t = some t') :
    t.lookup e.path ≠ some .directory ∧
      ∀ p, t'.lookup p = if p = e.path then
        some (fileOver e (t.lookup e.path)) else t.lookup p := by
  unfold openWrite at h
  split at h
  · rename_i hNone
    obtain rfl := Option.some.inj h
    rw [hNone]
    exact ⟨nofun, fun p => lookup_insert_eq ..⟩
  · cases h
  · rename_i old mode hFile
    obtain rfl := Option.some.inj h
    rw [hFile]
    exact ⟨nofun, fun p => lookup_insert_eq ..⟩

theorem exists_openWrite (h : t.lookup e.path ≠ some .directory) :
    ∃ t', openWrite e t = some t' := by
  unfold openWrite
  split
  · exact ⟨_, rfl⟩
  · rename_i hDirectory
    exact absurd hDirectory h
  · exact ⟨_, rfl⟩

/-- Under what is above a new path no file is in the way. -/
theorem not_isFile_above_iff (hPath : e.path ≠ []) :
    (∀ p, p <+: e.path.dropLast → ¬ IsFile (laid entries p)) ↔
      ∀ e' ∈ entries, e'.path <+: e.path → e'.path = e.path := by
  simp only [isFile_laid_iff, prefix_dropLast_iff hPath]
  constructor
  · intro h e' hMem hPrefix
    by_contra hNe
    exact h e'.path ⟨hPrefix, hNe⟩ ⟨e', hMem, rfl⟩
  · rintro h p ⟨hPrefix, hNe⟩ ⟨e', hMem, rfl⟩
    exact hNe (h e' hMem hPrefix)

theorem laid_eq_directory_iff :
    laid entries path = some .directory ↔
      (∀ e ∈ entries, e.path ≠ path) ∧ (path = [] ∨ ∃ e ∈ entries, path <+: e.path) := by
  have hStored : (stored entries path).isSome ↔ _ := stored_isSome_iff
  unfold laid
  cases hFound : stored entries path with
  | some old =>
    rw [hFound] at hStored
    obtain ⟨e, hMem, hPath⟩ := hStored.mp rfl
    exact iff_of_false nofun fun h => h.1 e hMem hPath
  | none =>
    rw [hFound] at hStored
    have hNone : ∀ e ∈ entries, e.path ≠ path := fun e hMem hPath =>
      Bool.noConfusion (hStored.mpr ⟨e, hMem, hPath⟩)
    dsimp only
    rw [Option.ite_none_right_eq_some, and_iff_left rfl, and_iff_right hNone]

/-- What is laid out below a path makes it a directory, unless it is a file itself. -/
theorem not_directory_iff (hPath : e.path ≠ []) (hCompatible : Compatible entries) :
    laid entries e.path ≠ some .directory ↔
      ∀ e' ∈ entries, e.path <+: e'.path → e'.path = e.path := by
  rw [Ne, laid_eq_directory_iff, or_iff_right hPath, not_and, not_exists]
  constructor
  · intro h e' hMem hBelow
    by_contra hOther
    refine h (fun other hSame hTaken => hOther ?_) e' ⟨hMem, hBelow⟩
    rw [← hTaken] at hBelow ⊢
    exact ((hCompatible other hSame).2 e' hMem hBelow).symm
  · rintro h hFree e' ⟨hMem, hBelow⟩
    exact hFree e' hMem (h e' hMem hBelow)

theorem laid_concat (hAbove : ∀ p, p <+: e.path.dropLast → ¬ IsFile (laid entries p))
    (hPath : e.path ≠ []) (p : List ν) :
    laid (entries ++ [e]) p =
      if p = e.path then some (.file (layer e (stored entries p)).1 (layer e (stored entries p)).2)
      else if p <+: e.path.dropLast then some .directory else laid entries p := by
  rw [laid, stored_concat]
  by_cases hSame : p = e.path
  · rw [if_pos hSame.symm, if_pos hSame]
  · rw [if_neg (Ne.symm hSame), if_neg hSame]
    by_cases hUp : p <+: e.path.dropLast
    · have hNone : stored entries p = none := by
        rw [← Option.not_isSome_iff_eq_none, stored_isSome_iff, ← isFile_laid_iff]
        exact hAbove p hUp
      rw [if_pos hUp, hNone]
      exact if_pos (Or.inr ⟨e, List.mem_concat_self, ((prefix_dropLast_iff hPath).mp hUp).1⟩)
    · rw [if_neg hUp, laid]
      cases stored entries p with
      | some old => rfl
      | none =>
        refine if_congr (or_congr_right ?_) rfl rfl
        have hLast : ¬ p <+: e.path := fun hPrefix =>
          hUp ((prefix_dropLast_iff hPath).mpr ⟨hPrefix, hSame⟩)
        simp [or_and_right, exists_or, hLast]

omit [DecidableEq ν] in
theorem fileOver_directory (e : Entry ν β μ) (above : Prop) [Decidable above] :
    fileOver e (if above then some .directory else none) = .file e.content e.mode := by
  split <;> rfl

theorem fileOver_laid (entries : List (Entry ν β μ)) (e : Entry ν β μ) (path : List ν) :
    fileOver e (laid entries path) =
      .file (layer e (stored entries path)).1 (layer e (stored entries path)).2 := by
  unfold laid
  cases stored entries path with
  | some old => rfl
  | none => exact fileOver_directory e _

theorem write_spec (hCompatible : Compatible entries) (hLaid : ∀ p, t.lookup p = laid entries p)
    (h : write t e = some t') :
    Fits entries e ∧ ∀ p, t'.lookup p = laid (entries ++ [e]) p := by
  obtain ⟨u, hDirs, hOpen⟩ := Option.bind_eq_some_iff.mp h
  obtain ⟨hAbove, hDir⟩ := createDirAll_spec hDirs
  obtain ⟨hFree, hFile⟩ := openWrite_spec hOpen
  have hPath : e.path ≠ [] := by
    intro hRoot
    rw [hDir, hRoot, if_pos List.nil_prefix] at hFree
    exact hFree rfl
  have hNotUp : ¬ e.path <+: e.path.dropLast := fun hPrefix =>
    ((prefix_dropLast_iff hPath).mp hPrefix).2 rfl
  rw [hDir, if_neg hNotUp, hLaid] at hFree hFile
  simp only [hLaid] at hAbove
  have hOver := (not_isFile_above_iff hPath).mp hAbove
  have hUnder := (not_directory_iff hPath hCompatible).mp hFree
  refine ⟨⟨hPath, fun e' hMem => Or.rec (hOver e' hMem) (hUnder e' hMem)⟩, fun p => ?_⟩
  rw [laid_concat hAbove hPath, hFile, hDir, hLaid, fileOver_laid]
  split
  · rename_i hSame
    rw [hSame]
  · rfl

theorem exists_write (hCompatible : Compatible entries)
    (hLaid : ∀ p, t.lookup p = laid entries p) (hFits : Fits entries e) :
    ∃ t', write t e = some t' := by
  obtain ⟨hPath, hOnly⟩ := hFits
  have hAbove := (not_isFile_above_iff hPath).mpr fun e' hMem hUp => hOnly e' hMem (Or.inl hUp)
  have hFree := (not_directory_iff hPath hCompatible).mpr fun e' hMem hBelow =>
    hOnly e' hMem (Or.inr hBelow)
  obtain ⟨u, hDirs⟩ : ∃ u, createDirAll e.path.dropLast t = some u :=
    exists_createDirAll fun p hUp => hLaid p ▸ hAbove p hUp
  have hNotUp : ¬ e.path <+: e.path.dropLast := fun hPrefix =>
    ((prefix_dropLast_iff hPath).mp hPrefix).2 rfl
  obtain ⟨t', hOpen⟩ : ∃ t', openWrite e u = some t' := exists_openWrite <| by
    rw [(createDirAll_spec hDirs).2, if_neg hNotUp, hLaid]
    exact hFree
  exact ⟨t', by rw [write, hDirs]; exact hOpen⟩

theorem writeAll_concat (entries : List (Entry ν β μ)) (e : Entry ν β μ) :
    writeAll (entries ++ [e]) = (writeAll entries).bind fun t => write t e := by
  rw [writeAll, List.foldlM_append]
  exact Option.bind_congr fun t _ => Option.bind_fun_some _

theorem lookup_root (p : List ν) :
    (root : Tree ν β μ).lookup p = laid ([] : List (Entry ν β μ)) p := by
  rw [root, lookup_insert_eq, AList.lookup_empty]
  simp [laid, stored]

/-- A tree that is written from the root holds what the entries lay out, which is all that is
there. -/
theorem writeAll_spec (h : writeAll entries = some t) :
    Compatible entries ∧ ∀ p, t.lookup p = laid entries p := by
  induction entries using List.reverseRecOn generalizing t with
  | nil =>
    obtain rfl := Option.some.inj h
    exact ⟨fun e hMem => absurd hMem List.not_mem_nil, lookup_root⟩
  | append_singleton entries e ih =>
    rw [writeAll_concat] at h
    obtain ⟨u, hFront, hLast⟩ := Option.bind_eq_some_iff.mp h
    obtain ⟨hCompatible, hLaid⟩ := ih hFront
    obtain ⟨hFits, hLookup⟩ := write_spec hCompatible hLaid hLast
    exact ⟨compatible_concat_iff.mpr ⟨hCompatible, hFits⟩, hLookup⟩

theorem exists_writeAll (h : Compatible entries) : ∃ t, writeAll entries = some t := by
  induction entries using List.reverseRecOn with
  | nil => exact ⟨root, rfl⟩
  | append_singleton entries e ih =>
    obtain ⟨hCompatible, hFits⟩ := compatible_concat_iff.mp h
    obtain ⟨t, hFront⟩ := ih hCompatible
    obtain ⟨t', hLast⟩ := exists_write hCompatible (writeAll_spec hFront).2 hFits
    refine ⟨t', ?_⟩
    rw [writeAll_concat, hFront]
    exact hLast

theorem isFile_iff_of_writeAll (h : writeAll entries = some t) {p : List ν} :
    IsFile (t.lookup p) ↔ ∃ e ∈ entries, e.path = p := by
  rw [(writeAll_spec h).2, isFile_laid_iff]

/-- Where no path comes twice, the files of the tree are the entries. -/
theorem lookup_writeAll_eq_file_iff (hNodup : (entries.map Entry.path).Nodup)
    (h : writeAll entries = some t) {content : List β} {mode : μ} :
    t.lookup path = some (.file content mode) ↔ ⟨path, content, mode⟩ ∈ entries := by
  have hLookup := (writeAll_spec h).2
  have hEntry : ∀ e ∈ entries, t.lookup e.path = some (.file e.content e.mode) := by
    intro e hMem
    rw [hLookup, laid, stored_of_nodup hNodup hMem]
  constructor
  · intro hFile
    obtain ⟨e, hMem, rfl⟩ := (isFile_iff_of_writeAll h).mp ⟨content, mode, hFile⟩
    obtain ⟨rfl, rfl⟩ := Node.file.inj (Option.some.inj ((hEntry e hMem).symm.trans hFile))
    exact hMem
  · exact hEntry _

end FileTree
