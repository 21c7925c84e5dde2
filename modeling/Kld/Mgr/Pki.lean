import Mathlib.Data.List.Nodup
import Mathlib.Logic.Function.Basic

/-!
# A directory of keys and certificates

External commands and file operations succeed or fail, and those that succeed read
and write files of one directory. Every generated key is a new one; a certificate
records the key that it is for and the key that signed it. A run goes through the
leaves, which it keeps or renews one by one.
-/

namespace Kld.Pki

abbrev Key := Nat

inductive IpAddr where
  | v4 (bits : BitVec 32)
  | v6 (bits : BitVec 128)
deriving DecidableEq

inductive GeneralName where
  | dns (name : String)
  | ip (address : IpAddr)
deriving DecidableEq

structure Certificate where
  subject : Key
  signer : Key
  altNames : List GeneralName
deriving DecidableEq

/-- `text` is what has no PEM block. -/
inductive Content where
  | key (key : Key)
  | certificate (certificate : Certificate)
  | request (subject : Key)
  | config (altNames : List GeneralName)
  | text
deriving DecidableEq

/-- The name of a file, split at its last dot. -/
structure Path where
  stem : String
  extension : String
deriving DecidableEq

def Path.toText (path : Path) : String := path.stem ++ "." ++ path.extension

def keyOf (stem : String) : Path := ⟨stem, "key"⟩

theorem keyOf_ne {name name' : String} (h : name ≠ name') : keyOf name ≠ keyOf name' := by
  simpa [keyOf] using h

structure Directory where
  files : Path → Option Content
  nextKey : Key

/-- The commands that have been run so far count the answers that were used. -/
structure World where
  dir : Directory
  calls : Nat

/-- The error of an action is the list of its contexts, the outermost first. -/
abbrev Action := EStateM (List String) World

def Directory.write (path : Path) (content : Content) (d : Directory) : Directory :=
  { d with files := Function.update d.files path (some content) }

def Directory.remove (path : Path) (d : Directory) : Directory :=
  { d with files := Function.update d.files path none }

def Directory.generateKey (path : Path) (d : Directory) : Directory :=
  { d.write path (.key d.nextKey) with nextKey := d.nextKey + 1 }

/-- An operation has an effect if the environment lets it succeed and it finds what it reads. -/
def attempt (succeeds : Nat → Bool) (effect : Directory → Option Directory) :
    Action Unit := fun w =>
  match if succeeds w.calls then effect w.dir else none with
  | some dir => .ok () ⟨dir, w.calls + 1⟩
  | none => .error [] ⟨w.dir, w.calls + 1⟩

def context (message : String) {α : Type} (action : Action α) : Action α := fun w =>
  match action w with
  | .ok x w' => .ok x w'
  | .error contexts w' => .error (message :: contexts) w'

def fileExists (path : Path) : Action Bool := fun w => .ok (w.dir.files path).isSome w

def unlessExists (path : Path) (action : Action Unit) : Action Unit := do
  if ← fileExists path then pure () else action

def whenExists (path : Path) (action : Action Unit) : Action Unit := do
  if ← fileExists path then action else pure ()

def unlessBoth (key cert : Path) (action : Action Unit) : Action Unit := do
  if (← fileExists key) && (← fileExists cert) then pure () else action

def rename (source target : Path) (d : Directory) : Option Directory :=
  (d.files source).map fun content => (d.remove source).write target content

/-- A key file and a certificate file. -/
abbrev Pair := Option Content × Option Content

/-- The certificate belongs to the key beside it and is signed by the key `ca`. -/
def Issued (ca : Key) (pair : Pair) : Prop :=
  ∃ certificate : Certificate,
    pair = (some (.key certificate.subject), some (.certificate certificate)) ∧
      certificate.signer = ca

/-- The certificate of the CA belongs to its key `ca`. -/
def CaOf (ca : Key) (pair : Pair) : Prop :=
  ∃ certificate : Certificate,
    pair = (some (.key ca), some (.certificate certificate)) ∧ certificate.subject = ca

def Consistent (caPair : Pair) (leaves : List Pair) : Prop :=
  ∃ ca, CaOf ca caPair ∧ ∀ leaf ∈ leaves, Issued ca leaf

def Content.keys : Content → List Key
  | .key subject => [subject]
  | .certificate c => [c.subject, c.signer]
  | .request subject => [subject]
  | .config _ => []
  | .text => []

/-- The next key is in no file yet. -/
def Directory.Fresh (d : Directory) : Prop :=
  ∀ path content, d.files path = some content → ∀ key ∈ content.keys, key < d.nextKey

theorem ok_of_bind {α β : Type} {a : Action α} {f : α → Action β} {w w' : World} {y : β}
    (h : (a >>= f) w = .ok y w') : ∃ x w₁, a w = .ok x w₁ ∧ f x w₁ = .ok y w' := by
  cases hA : a w with
  | ok x w₁ =>
    refine ⟨x, w₁, rfl, ?_⟩
    change EStateM.bind a f w = _ at h
    rw [EStateM.bind, hA] at h
    exact h
  | error contexts w₁ =>
    change EStateM.bind a f w = _ at h
    rw [EStateM.bind, hA] at h
    cases h

theorem ok_of_context {message : String} {α : Type} {a : Action α} {w w' : World} {x : α}
    (h : context message a w = .ok x w') : a w = .ok x w' := by
  unfold context at h
  split at h
  · rename_i hA
    rw [hA]
    exact h
  · cases h

theorem effect_of_attempt {succeeds : Nat → Bool} {effect : Directory → Option Directory}
    {w w' : World} (h : attempt succeeds effect w = .ok () w') : effect w.dir = some w'.dir := by
  unfold attempt at h
  split at h
  · rename_i dir hEffect
    cases h
    split at hEffect
    · exact hEffect
    · cases hEffect
  · cases h

theorem ok_of_unlessExists {path : Path} {action : Action Unit} {w w' : World}
    (h : unlessExists path action w = .ok () w') :
    (w.dir.files path ≠ none ∧ w' = w) ∨ (w.dir.files path = none ∧ action w = .ok () w') := by
  obtain ⟨found, w₁, hFound, h⟩ := ok_of_bind h
  cases hFound
  cases hFile : w.dir.files path with
  | none =>
    rw [hFile] at h
    exact Or.inr ⟨rfl, h⟩
  | some content =>
    rw [hFile] at h
    cases h
    exact Or.inl ⟨Option.some_ne_none content, rfl⟩

theorem eq_of_unlessExists {path : Path} {action : Action Unit} {w w' : World}
    (h : unlessExists path action w = .ok () w') (hPresent : w.dir.files path ≠ none) :
    w' = w := by
  rcases ok_of_unlessExists h with ⟨_, hSame⟩ | ⟨hMissing, _⟩
  · exact hSame
  · exact absurd hMissing hPresent

theorem ok_of_whenExists {path : Path} {action : Action Unit} {w w' : World}
    (h : whenExists path action w = .ok () w') :
    (w.dir.files path ≠ none ∧ action w = .ok () w') ∨ (w.dir.files path = none ∧ w' = w) := by
  obtain ⟨found, w₁, hFound, h⟩ := ok_of_bind h
  cases hFound
  cases hFile : w.dir.files path with
  | none =>
    rw [hFile] at h
    cases h
    exact Or.inr ⟨rfl, rfl⟩
  | some content =>
    rw [hFile] at h
    exact Or.inl ⟨Option.some_ne_none content, h⟩

theorem ok_of_unlessBoth {key cert : Path} {action : Action Unit} {w w' : World}
    (h : unlessBoth key cert action w = .ok () w') :
    ((w.dir.files key ≠ none ∧ w.dir.files cert ≠ none) ∧ w' = w) ∨
      (¬ (w.dir.files key ≠ none ∧ w.dir.files cert ≠ none) ∧ action w = .ok () w') := by
  obtain ⟨found, w₁, hFound, h⟩ := ok_of_bind h
  cases hFound
  obtain ⟨found, w₁, hFound, h⟩ := ok_of_bind h
  cases hFound
  have hBoth : ((w.dir.files key).isSome && (w.dir.files cert).isSome) = true ↔
      w.dir.files key ≠ none ∧ w.dir.files cert ≠ none := by
    rw [Bool.and_eq_true, Option.isSome_iff_ne_none, Option.isSome_iff_ne_none]
  split at h
  · rename_i hFound
    cases h
    exact Or.inl ⟨hBoth.mp hFound, rfl⟩
  · rename_i hMissing
    exact Or.inr ⟨mt hBoth.mpr hMissing, h⟩

@[simp] theorem write_files_self (path : Path) (content : Content) (d : Directory) :
    (d.write path content).files path = some content := by
  simp [Directory.write]

theorem write_files_of_ne {path other : Path} (h : other ≠ path) (content : Content)
    (d : Directory) : (d.write path content).files other = d.files other := by
  simp [Directory.write, h]

@[simp] theorem remove_files_self (path : Path) (d : Directory) :
    (d.remove path).files path = none := by
  simp [Directory.remove]

theorem remove_files_of_ne {path other : Path} (h : other ≠ path) (d : Directory) :
    (d.remove path).files other = d.files other := by
  simp [Directory.remove, h]

@[simp] theorem generateKey_files_self (path : Path) (d : Directory) :
    (d.generateKey path).files path = some (.key d.nextKey) :=
  write_files_self path (.key d.nextKey) d

theorem generateKey_files_of_ne {path other : Path} (h : other ≠ path) (d : Directory) :
    (d.generateKey path).files other = d.files other :=
  write_files_of_ne h (.key d.nextKey) d

theorem Directory.Fresh.write {d : Directory} (h : d.Fresh) (path : Path) {content : Content}
    (hKeys : ∀ key ∈ content.keys, key < d.nextKey) : (d.write path content).Fresh := by
  intro other content' hFile key hKey
  by_cases hOther : other = path
  · subst hOther
    obtain rfl := Option.some.inj ((write_files_self other content d).symm.trans hFile)
    exact hKeys key hKey
  · exact h other content' ((write_files_of_ne hOther content d).symm.trans hFile) key hKey

theorem Directory.Fresh.generateKey {d : Directory} (h : d.Fresh) (path : Path) :
    (d.generateKey path).Fresh := by
  intro other content hFile key hKey
  refine Nat.lt_succ_iff.mpr ?_
  by_cases hOther : other = path
  · subst hOther
    obtain rfl := Option.some.inj ((generateKey_files_self other d).symm.trans hFile)
    exact Nat.le_of_eq (List.mem_singleton.mp hKey)
  · exact Nat.le_of_lt
      (h other content ((generateKey_files_of_ne hOther d).symm.trans hFile) key hKey)

theorem Directory.Fresh.remove {d : Directory} (h : d.Fresh) (path : Path) :
    (d.remove path).Fresh := by
  intro other content hFile
  by_cases hOther : other = path
  · subst hOther
    rw [remove_files_self] at hFile
    cases hFile
  · rw [remove_files_of_ne hOther] at hFile
    exact h other content hFile

theorem rename_files {source target : Path} {d d' : Directory}
    (h : rename source target d = some d') :
    d'.files target = d.files source ∧
      ∀ path, path ≠ source → path ≠ target → d'.files path = d.files path := by
  obtain ⟨content, hFile, rfl⟩ := Option.map_eq_some_iff.mp h
  refine ⟨(write_files_self target content _).trans hFile.symm, fun path hSource hTarget => ?_⟩
  rw [write_files_of_ne hTarget, remove_files_of_ne hSource]

theorem Directory.Fresh.rename {d d' : Directory} {source target : Path} (h : d.Fresh)
    (hRename : Pki.rename source target d = some d') : d'.Fresh := by
  obtain ⟨content, hFile, rfl⟩ := Option.map_eq_some_iff.mp hRename
  exact (h.remove source).write target (h source content hFile)

theorem Issued.signer_lt {ca : Key} {d : Directory} {key cert : Path} (hFresh : d.Fresh)
    (h : Issued ca (d.files key, d.files cert)) : ca < d.nextKey := by
  obtain ⟨c, hPair, rfl⟩ := h
  exact hFresh _ _ (congrArg Prod.snd hPair) c.signer (by simp [Content.keys])

theorem CaOf.key_eq {ca : Key} {pair : Pair} (h : CaOf ca pair) : pair.1 = some (.key ca) := by
  obtain ⟨c, rfl, _⟩ := h
  rfl

/-- The pair of the CA fixes its key. -/
theorem exists_caOf_iff {κ : Type} {caPair : Pair} {leaves : List κ} {kept : κ → Prop}
    {pair : κ → Pair} :
    (∃ ca, CaOf ca caPair ∧ ∀ leaf ∈ leaves, kept leaf → Issued ca (pair leaf)) ↔
      (∃ ca, CaOf ca caPair) ∧ ∀ leaf ∈ leaves, kept leaf →
        ∃ ca, caPair.1 = some (.key ca) ∧ Issued ca (pair leaf) := by
  constructor
  · rintro ⟨ca, hCa, hLeaves⟩
    exact ⟨⟨ca, hCa⟩, fun leaf hLeaf hKept => ⟨ca, hCa.key_eq, hLeaves leaf hLeaf hKept⟩⟩
  · rintro ⟨⟨ca, hCa⟩, hLeaves⟩
    refine ⟨ca, hCa, fun leaf hLeaf hKept => ?_⟩
    obtain ⟨ca', hKey, hIssued⟩ := hLeaves leaf hLeaf hKept
    obtain rfl := Content.key.inj (Option.some.inj (hKey.symm.trans hCa.key_eq))
    exact hIssued

theorem CaOf.subject_lt {ca : Key} {d : Directory} {cert : Path} {key : Option Content}
    (hFresh : d.Fresh) (h : CaOf ca (key, d.files cert)) : ca < d.nextKey := by
  obtain ⟨c, hPair, rfl⟩ := h
  exact hFresh _ _ (congrArg Prod.snd hPair) c.subject List.mem_cons_self

section

variable {κ : Type} (certExtension : String) (stem : κ → String) (kept : κ → Pair → Prop)
  (scratch : List String)

def Directory.pair (d : Directory) (stem : String) : Pair :=
  (d.files (keyOf stem), d.files ⟨stem, certExtension⟩)

def Directory.HasCa (d : Directory) : Prop :=
  d.files (keyOf "ca") ≠ none ∧ d.files ⟨"ca", certExtension⟩ ≠ none

/-- What keeping or renewing the leaves does to a directory. -/
structure Renews (leaves : List κ) (d d' : Directory) : Prop where
  fresh : d'.Fresh
  ca_eq : d'.pair certExtension "ca" = d.pair certExtension "ca"
  frame : ∀ name, name ∉ leaves.map stem → name ∉ scratch →
    d'.pair certExtension name = d.pair certExtension name
  issued_iff : ∀ leaf ∈ leaves, ∀ ca, d.files (keyOf "ca") = some (.key ca) →
    (Issued ca (d'.pair certExtension (stem leaf)) ↔
      (kept leaf (d.pair certExtension (stem leaf)) →
        Issued ca (d.pair certExtension (stem leaf))))

variable {certExtension stem kept scratch}

theorem Renews.nil {d : Directory} (hFresh : d.Fresh) :
    Renews certExtension stem kept scratch [] d d :=
  ⟨hFresh, rfl, fun _ _ _ => rfl, nofun⟩

theorem Renews.of_kept {leaf : κ} {d : Directory} (hFresh : d.Fresh)
    (hKept : kept leaf (d.pair certExtension (stem leaf))) :
    Renews certExtension stem kept scratch [leaf] d d := by
  refine ⟨hFresh, rfl, fun _ _ _ => rfl, ?_⟩
  intro other hOther ca _
  obtain rfl := List.mem_singleton.mp hOther
  exact ⟨fun hIssued _ => hIssued, fun hIssued => hIssued hKept⟩

/-- A leaf that is not kept is issued, and no other changes. -/
theorem Renews.of_issued {leaf : κ} {d d' : Directory} {signer : Key} (hFresh : d'.Fresh)
    (hCa : d'.pair certExtension "ca" = d.pair certExtension "ca")
    (hFrame : ∀ name, name ≠ stem leaf → name ∉ scratch →
      d'.pair certExtension name = d.pair certExtension name)
    (hSigner : d.files (keyOf "ca") = some (.key signer))
    (hIssued : Issued signer (d'.pair certExtension (stem leaf)))
    (hNew : ¬ kept leaf (d.pair certExtension (stem leaf))) :
    Renews certExtension stem kept scratch [leaf] d d' := by
  refine ⟨hFresh, hCa, fun name hName => hFrame name (by simpa using hName), ?_⟩
  intro other hOther ca hCaKey
  obtain rfl := List.mem_singleton.mp hOther
  obtain rfl := Content.key.inj (Option.some.inj (hSigner.symm.trans hCaKey))
  exact iff_of_true hIssued fun hKept => absurd hKept hNew

theorem Renews.hasCa {leaves : List κ} {d d' : Directory}
    (h : Renews certExtension stem kept scratch leaves d d') (hCa : d.HasCa certExtension) :
    d'.HasCa certExtension := by
  obtain ⟨hKey, hCert⟩ := Prod.mk.inj h.ca_eq
  rw [Directory.HasCa, hKey, hCert]
  exact hCa

theorem Renews.map {ι : Type} {f : ι → κ} {leaves : List ι} {d d' : Directory}
    (h : Renews certExtension (stem ∘ f) (kept ∘ f) scratch leaves d d') :
    Renews certExtension stem kept scratch (leaves.map f) d d' where
  fresh := h.fresh
  ca_eq := h.ca_eq
  frame name hName := h.frame name (by rwa [List.map_map] at hName)
  issued_iff leaf hLeaf := by
    obtain ⟨source, hSource, rfl⟩ := List.mem_map.mp hLeaf
    exact h.issued_iff source hSource

theorem Renews.append {xs ys : List κ} {d d₁ d₂ : Directory}
    (h : Renews certExtension stem kept scratch xs d d₁)
    (h' : Renews certExtension stem kept scratch ys d₁ d₂)
    (hDisjoint : List.Disjoint (xs.map stem) (ys.map stem))
    (hScratch : ∀ leaf ∈ xs ++ ys, stem leaf ∉ scratch) :
    Renews certExtension stem kept scratch (xs ++ ys) d d₂ where
  fresh := h'.fresh
  ca_eq := h'.ca_eq.trans h.ca_eq
  frame name hName hNot := by
    rw [List.map_append, List.mem_append, not_or] at hName
    rw [h'.frame name hName.2 hNot, h.frame name hName.1 hNot]
  issued_iff leaf hLeaf ca hCa := by
    have hNot := hScratch leaf hLeaf
    rcases List.mem_append.mp hLeaf with hLeaf | hLeaf
    · rw [h'.frame _ (hDisjoint (List.mem_map_of_mem hLeaf)) hNot]
      exact h.issued_iff leaf hLeaf ca hCa
    · have hSame := h.frame (stem leaf)
        (fun hMem => hDisjoint hMem (List.mem_map_of_mem hLeaf)) hNot
      have hCa' : d₁.files (keyOf "ca") = some (.key ca) :=
        (congrArg Prod.fst h.ca_eq).trans hCa
      rw [← hSame]
      exact h'.issued_iff leaf hLeaf ca hCa'

theorem renews_forM {act : κ → Action Unit}
    (hAct : ∀ leaf w w', w.dir.Fresh → w.dir.HasCa certExtension → act leaf w = .ok () w' →
      Renews certExtension stem kept scratch [leaf] w.dir w'.dir)
    {leaves : List κ} (hNodup : (leaves.map stem).Nodup)
    (hScratch : ∀ leaf ∈ leaves, stem leaf ∉ scratch) {w w' : World} (hFresh : w.dir.Fresh)
    (hCa : w.dir.HasCa certExtension)
    (h : leaves.forM act w = .ok () w') :
    Renews certExtension stem kept scratch leaves w.dir w'.dir := by
  induction leaves generalizing w with
  | nil =>
    cases h
    exact Renews.nil hFresh
  | cons leaf leaves ih =>
    obtain ⟨_, w₁, hHead, h⟩ := ok_of_bind (a := act leaf) (f := fun _ => leaves.forM act) h
    obtain ⟨hNotMem, hNodup⟩ := List.nodup_cons.mp hNodup
    have hFirst := hAct leaf w w₁ hFresh hCa hHead
    have hRest := ih hNodup (fun leaf hLeaf => hScratch leaf (List.mem_cons_of_mem _ hLeaf))
      hFirst.fresh (hFirst.hasCa hCa) h
    refine hFirst.append hRest ?_ hScratch
    intro name hName hRestName
    rw [List.map_singleton, List.mem_singleton] at hName
    exact hNotMem (hName ▸ hRestName)

/-- The leaves are consistent with the CA afterwards if those that are kept were before. -/
theorem consistent_iff_of_renews {leaves : List κ} {d d' : Directory}
    (h : Renews certExtension stem kept scratch leaves d d') :
    Consistent (d'.pair certExtension "ca")
        (leaves.map fun leaf => d'.pair certExtension (stem leaf)) ↔
      ∃ ca, CaOf ca (d.pair certExtension "ca") ∧
        ∀ leaf ∈ leaves, kept leaf (d.pair certExtension (stem leaf)) →
          Issued ca (d.pair certExtension (stem leaf)) := by
  rw [Consistent, h.ca_eq]
  refine exists_congr fun ca => and_congr_right fun hCa => ?_
  obtain ⟨certificate, hPair, _⟩ := hCa
  rw [List.forall_mem_map]
  exact forall₂_congr fun leaf hLeaf =>
    h.issued_iff leaf hLeaf ca (congrArg Prod.fst hPair)

end

end Kld.Pki
