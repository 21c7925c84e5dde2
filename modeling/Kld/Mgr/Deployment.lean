import Kld.Lib.Run
import Kld.Mgr.NodeStart
import Kld.Mgr.Secrets

/-!
# From the secret directory to the nodes

A host that is installed with the mnemonic of the manager copies it to the data directory whenever
its node starts. The manager goes on to a host only after it has written its secrets.
-/

namespace Kld.Deployment

open Api FileAction
open Secrets (SecretsDir TempDir)

variable {μ κ : Type}

/-- A host that has been installed, and whether the mnemonic of the manager is for its node. -/
structure Machine where
  preset : Bool
  root : Files (List String) Bytes

structure World where
  dir : Files (List String) Bytes
  generated : Bool
  hosts : String → Option Machine

inductive Event (μ : Type) where
  | change (path : List String) (file : Option Bytes)
  | generate (g : Generation μ)
  | upload (host : Config.Host) (accessTokens : String) (lookupFails : Bool) (tmp : TempDir)
      (fresh : Files (List String) Bytes) (installed : Bool)
  | boot (name : String) (boot : Boot μ)

/-- The secrets are copied over the root of a new system. -/
def copyOver (fresh : Files (List String) Bytes) (tree : Secrets.Tree) :
    Files (List String) Bytes := fun path =>
  match tree.lookup path with
  | some (.file content _) => some content
  | _ => fresh path

def SecretsDir.ofFiles (dir : Files (List String) Bytes) (lookupFails : Bool) : SecretsDir :=
  ⟨dir, !lookupFails && (dir ["mnemonic"]).isSome⟩

section Source

variable (tools : Tools μ κ)

/-- The manager goes on to a host only when it has written what is to be set for it. -/
def step (d : World) : Event μ → Option World
  | .change path file =>
    if path = ["mnemonic"] then none else some { d with dir := Function.update d.dir path file }
  | .generate g =>
    match generateMnemonicAndMacaroons tools g d.dir with
    | .ok () files => some { d with dir := files, generated := true }
    | .error _ files => some { d with dir := files, generated := false }
  | .upload host accessTokens lookupFails tmp fresh installed =>
    let preset := host.kldPresetMnemonic.getD false
    if preset ∧ ¬ d.generated then none else
      match Secrets.secrets host (SecretsDir.ofFiles d.dir lookupFails) tmp accessTokens with
      | .error _ => some d
      | .ok prepared => some { d with
          hosts := Function.update d.hosts host.name
            (if installed then some ⟨preset, copyOver fresh prepared.tree⟩ else none) }
  | .boot name boot =>
    (d.hosts name).map fun machine => { d with
      hosts := Function.update d.hosts name
        (some ⟨machine.preset, filesOf (startNode tools machine.preset boot machine.root)⟩) }

end Source

/-- The path of the mnemonic was looked up where it mattered. -/
def Event.Plain : Event μ → Prop
  | .generate g => g.lookupFails = false
  | .upload _ _ lookupFails _ _ _ => lookupFails = false
  | _ => True

variable {tools : Tools μ κ} {files files' : Files (List String) Bytes}

/-- Where the manager has come as far as the hosts, its file holds a mnemonic, and the hosts that
are to have it do. -/
structure Invariant (tools : Tools μ κ) (d : World) : Prop where
  generated : d.generated = true → ∃ mnemonic, Holds tools.library d.dir mnemonic
  uploaded : ∀ name machine, d.hosts name = some machine → machine.preset = true →
    (∃ mnemonic, Holds tools.library d.dir mnemonic) ∧
      machine.root uploadedMnemonic = d.dir ["mnemonic"]

/-- What a step can do to the mnemonic and to its copies. -/
def Change (tools : Tools μ κ) (d d' : World) : Event μ → Prop
  | .change path _ => path ≠ ["mnemonic"] ∧ d'.dir ["mnemonic"] = d.dir ["mnemonic"] ∧
      d'.generated = d.generated ∧ d'.hosts = d.hosts
  | .generate g => d'.dir = filesOf (generateMnemonicAndMacaroons tools g d.dir) ∧
      (d'.generated = true → generateMnemonicAndMacaroons tools g d.dir = .ok () d'.dir) ∧
      d'.hosts = d.hosts
  | .upload host accessTokens lookupFails tmp fresh _ =>
      d'.dir = d.dir ∧ d'.generated = d.generated ∧
      ∀ name machine, d'.hosts name = some machine → d.hosts name = some machine ∨
        (machine.preset = true → d.generated = true) ∧
          ∃ prepared, Secrets.secrets host (SecretsDir.ofFiles d.dir lookupFails) tmp
            accessTokens = .ok prepared ∧ machine.root = copyOver fresh prepared.tree
  | .boot _ _ => d'.dir = d.dir ∧ d'.generated = d.generated ∧
      ∀ name machine, d'.hosts name = some machine → ∃ old, d.hosts name = some old ∧
        machine.preset = old.preset ∧
        machine.root uploadedMnemonic = old.root uploadedMnemonic

theorem eq_of_update {hosts : String → Option Machine} {name name' : String}
    {fresh : Option Machine} {machine : Machine}
    (h : Function.update hosts name fresh name' = some machine) :
    name' = name ∧ fresh = some machine ∨ hosts name' = some machine := by
  by_cases hName : name' = name
  · subst hName
    rw [Function.update_self] at h
    exact Or.inl ⟨rfl, h⟩
  · rw [Function.update_of_ne hName] at h
    exact Or.inr h

theorem step_change {d d' : World} {event : Event μ} (h : step tools d event = some d') :
    Change tools d d' event := by
  cases event with
  | change path file =>
    rw [step] at h
    split at h
    · cases h
    · rename_i hPath
      cases h
      exact ⟨hPath, Function.update_of_ne (Ne.symm hPath) _ _, rfl, rfl⟩
  | generate g =>
    rw [step] at h
    split at h
    · rename_i files hOk
      cases h
      exact ⟨by rw [hOk]; rfl, fun _ => hOk, rfl⟩
    · rename_i e files hError
      cases h
      exact ⟨by rw [hError]; rfl, nofun, rfl⟩
  | upload host accessTokens lookupFails tmp fresh installed =>
    rw [step] at h
    split at h
    · cases h
    · rename_i hEnabled
      split at h
      · cases h
        exact ⟨rfl, rfl, fun name machine hMachine => Or.inl hMachine⟩
      · rename_i prepared hPrepared
        cases h
        refine ⟨rfl, rfl, fun name machine hMachine => ?_⟩
        rcases eq_of_update hMachine with ⟨_, hFresh⟩ | hOld
        · split at hFresh
          · cases hFresh
            exact Or.inr ⟨fun hPreset => not_not.mp fun hNot => hEnabled ⟨hPreset, hNot⟩,
              prepared, hPrepared, rfl⟩
          · cases hFresh
        · exact Or.inl hOld
  | boot name boot =>
    obtain ⟨machine, hMachine, rfl⟩ := Option.map_eq_some_iff.mp h
    refine ⟨rfl, rfl, fun name' machine' hMachine' => ?_⟩
    rcases eq_of_update hMachine' with ⟨rfl, hBooted⟩ | hOld
    · cases hBooted
      exact ⟨machine, hMachine, rfl, touches_startNode tools _ _ _ _ uploaded_not_nodeFile⟩
    · exact ⟨machine', hOld, rfl, rfl⟩

/-- A step leaves the mnemonic that is held, if its path is looked up. -/
theorem mnemonic_kept {d d' : World} {event : Event μ} (hPlain : event.Plain)
    (hThere : d.dir ["mnemonic"] ≠ none) (hChange : Change tools d d' event) :
    d'.dir ["mnemonic"] = d.dir ["mnemonic"] := by
  cases event with
  | change path file => exact hChange.2.1
  | generate g => exact hChange.1 ▸ generate_kept hThere hPlain
  | upload host accessTokens lookupFails tmp fresh installed => rw [hChange.1]
  | boot name boot => rw [hChange.1]

theorem mnemonic_planned (host : Config.Host) (accessTokens : String) :
    Secrets.mnemonicSecret ∈ Secrets.planned host true accessTokens :=
  List.mem_append_left _ (List.mem_append_right _ (List.mem_singleton_self _))

/-- The mnemonic of the directory is among the files of a host. -/
theorem copyOver_mnemonic {host : Config.Host} {tmp : TempDir} {accessTokens : String}
    {fresh dir : Files (List String) Bytes} {prepared : Secrets.Prepared}
    (hThere : dir ["mnemonic"] ≠ none)
    (h : Secrets.secrets host (SecretsDir.ofFiles dir false) tmp accessTokens = .ok prepared) :
    copyOver fresh prepared.tree uploadedMnemonic = dir ["mnemonic"] := by
  obtain ⟨content, hContent⟩ := Option.ne_none_iff_exists'.mp hThere
  have hExists : (SecretsDir.ofFiles dir false).mnemonicExists = true := by
    rw [SecretsDir.ofFiles, hContent]
    rfl
  have hPlace : Secrets.components Secrets.mnemonicSecret.dest = uploadedMnemonic := by
    decide +kernel
  have hFile : prepared.tree.lookup uploadedMnemonic = some (.file content 0o600) := by
    refine (Secrets.lookup_secrets_iff h).mpr ⟨Secrets.mnemonicSecret, ?_, hPlace, hContent, rfl⟩
    rw [hExists]
    exact mnemonic_planned host accessTokens
  rw [copyOver, hFile, hContent]

theorem invariant_step
    (hParse : ∀ mnemonic, tools.library.parse (tools.library.toString mnemonic) = .ok mnemonic)
    {d d' : World} {event : Event μ} (hInv : Invariant tools d) (hPlain : event.Plain)
    (hStep : step tools d event = some d') : Invariant tools d' := by
  have hChange := step_change hStep
  have hHeld : (∃ mnemonic, Holds tools.library d.dir mnemonic) →
      ∃ mnemonic, Holds tools.library d'.dir mnemonic := fun ⟨mnemonic, hHolds⟩ =>
    ⟨mnemonic, hHolds.of_eq (mnemonic_kept hPlain (ne_none_of_holds hHolds) hChange)⟩
  have hCopied : ∀ name machine, d.hosts name = some machine → machine.preset = true →
      (∃ mnemonic, Holds tools.library d'.dir mnemonic) ∧
        machine.root uploadedMnemonic = d'.dir ["mnemonic"] := by
    intro name machine hMachine hPreset
    obtain ⟨⟨mnemonic, hHolds⟩, hRoot⟩ := hInv.uploaded name machine hMachine hPreset
    refine ⟨hHeld ⟨mnemonic, hHolds⟩, hRoot.trans (Eq.symm ?_)⟩
    exact mnemonic_kept hPlain (ne_none_of_holds hHolds) hChange
  cases event with
  | change path file =>
    obtain ⟨_, _, hGenerated, hHosts⟩ := hChange
    refine ⟨fun h => hHeld (hInv.generated (hGenerated ▸ h)), fun name machine hMachine => ?_⟩
    exact hCopied name machine (hHosts ▸ hMachine)
  | generate g =>
    obtain ⟨_, hOk, hHosts⟩ := hChange
    refine ⟨fun h => ?_, fun name machine hMachine => hCopied name machine (hHosts ▸ hMachine)⟩
    obtain ⟨mnemonic, hHolds, _⟩ := generate_ok hParse (hOk h)
    exact ⟨mnemonic, hHolds⟩
  | upload host accessTokens lookupFails tmp fresh installed =>
    obtain ⟨hDir, hGenerated, hHosts⟩ := hChange
    refine ⟨fun h => hHeld (hInv.generated (hGenerated ▸ h)), ?_⟩
    intro name machine hMachine hPreset
    rcases hHosts name machine hMachine with hOld | ⟨hEnabled, prepared, hPrepared, hRoot⟩
    · exact hCopied name machine hOld hPreset
    · obtain ⟨mnemonic, hHolds⟩ := hInv.generated (hEnabled hPreset)
      cases hPlain
      refine ⟨hHeld ⟨mnemonic, hHolds⟩, ?_⟩
      rw [hRoot, hDir, copyOver_mnemonic (ne_none_of_holds hHolds) hPrepared]
  | boot name boot =>
    obtain ⟨hDir, hGenerated, hHosts⟩ := hChange
    refine ⟨fun h => hHeld (hInv.generated (hGenerated ▸ h)), ?_⟩
    intro name machine hMachine hPreset
    obtain ⟨old, hOld, hSame, hRoot⟩ := hHosts name machine hMachine
    obtain ⟨hMnemonic, hUploaded⟩ := hCopied name old hOld (hSame ▸ hPreset)
    exact ⟨hMnemonic, hRoot.trans hUploaded⟩

/-- Nothing has been generated or installed. -/
def World.Bare (d : World) : Prop := d.generated = false ∧ ∀ name, d.hosts name = none

theorem World.Bare.invariant {d : World} (h : d.Bare) : Invariant tools d :=
  ⟨fun hGenerated => Bool.noConfusion (h.1.symm.trans hGenerated),
    fun name _ hMachine => absurd ((h.2 name).symm.trans hMachine) nofun⟩

section Runs

open Transition (run)

variable {d₀ d₁ d₂ : World} {before after : List (Event μ)} {g : Generation μ}

theorem invariant_run
    (hParse : ∀ mnemonic, tools.library.parse (tools.library.toString mnemonic) = .ok mnemonic)
    {events : List (Event μ)} (hInv : Invariant tools d₀) (hPlain : ∀ e ∈ events, e.Plain)
    (hRun : run (step tools) d₀ events = some d₁) : Invariant tools d₁ := by
  induction events generalizing d₀ with
  | nil => exact Option.some.inj hRun ▸ hInv
  | cons e events ih =>
    obtain ⟨d, hStep, hRest⟩ := Transition.run_cons_eq_some hRun
    obtain ⟨hHead, hTail⟩ := List.forall_mem_cons.mp hPlain
    exact ih (invariant_step hParse hInv hHead hStep) hTail hRest

/-- A run leaves the mnemonic that is held. -/
theorem mnemonic_run {events : List (Event μ)} (hThere : d₀.dir ["mnemonic"] ≠ none)
    (hPlain : ∀ e ∈ events, e.Plain) (hRun : run (step tools) d₀ events = some d₁) :
    d₁.dir ["mnemonic"] = d₀.dir ["mnemonic"] := by
  induction events generalizing d₀ with
  | nil => rw [Option.some.inj hRun]
  | cons e events ih =>
    obtain ⟨d, hStep, hRest⟩ := Transition.run_cons_eq_some hRun
    obtain ⟨hHead, hTail⟩ := List.forall_mem_cons.mp hPlain
    have hKept := mnemonic_kept hHead hThere (step_change hStep)
    exact (ih (hKept ▸ hThere) hTail hRest).trans hKept

/-- What the manager has generated at the end of a run. -/
theorem minted_of_run
    (hParse : ∀ mnemonic, tools.library.parse (tools.library.toString mnemonic) = .ok mnemonic)
    (hRun : run (step tools) d₀ (before ++ [.generate g]) = some d₁)
    (hGenerated : d₁.generated = true) :
    ∃ mnemonic, Holds tools.library d₁.dir mnemonic ∧
      Minted tools [] (keyOf tools mnemonic) d₁.dir := by
  rw [Transition.run_append] at hRun
  obtain ⟨d, _, hLast⟩ := Option.bind_eq_some_iff.mp hRun
  obtain ⟨d', hStep, hEnd⟩ := Transition.run_cons_eq_some hLast
  obtain rfl := Option.some.inj hEnd
  exact generate_ok hParse ((step_change hStep).2.1 hGenerated)

/-- Once the manager has generated its secrets, its mnemonic is never changed again; and every node
that it has installed with the mnemonic, whenever it starts and whatever failed in between, has
this mnemonic, writes the same macaroons and admits those of the manager to exactly their roles. -/
theorem manager_macaroons_admitted [DecidableEq κ] {formats : MacaroonFormats κ}
    (hParse : ∀ mnemonic, tools.library.parse (tools.library.toString mnemonic) = .ok mnemonic)
    (hReadable : Readable tools formats) (hBare : d₀.Bare)
    (hPlain : ∀ e ∈ before ++ [.generate g], e.Plain)
    (hBefore : run (step tools) d₀ (before ++ [.generate g]) = some d₁)
    (hGenerated : d₁.generated = true) (hPlainAfter : ∀ e ∈ after, e.Plain)
    (hAfter : run (step tools) d₁ after = some d₂) :
    ∃ mnemonic, Holds tools.library d₁.dir mnemonic ∧
      d₂.dir ["mnemonic"] = d₁.dir ["mnemonic"] ∧
      ∀ name machine (boot : Boot μ) keyGenerator key root, d₂.hosts name = some machine →
        machine.preset = true → boot.mnemonic.readFails = false →
        startNode tools true boot machine.root = .ok (keyGenerator, key) root →
        keyGenerator.mnemonic = mnemonic ∧
          (∀ file ∈ ["access.macaroon", "admin.macaroon", "readonly.macaroon"],
            root (dataDir ++ ["macaroons"] ++ [file]) = d₁.dir [file]) ∧
          ∃ admin readonly, d₁.dir ["admin.macaroon"] = some admin ∧
            d₁.dir ["readonly.macaroon"] = some readonly ∧
            AdmitsExactly formats key admin readonly := by
  obtain ⟨mnemonic, hHolds, hMinted⟩ := minted_of_run hParse hBefore hGenerated
  have hInv := invariant_run hParse
    (invariant_run hParse hBare.invariant hPlain hBefore) hPlainAfter hAfter
  have hKept := mnemonic_run (ne_none_of_holds hHolds) hPlainAfter hAfter
  refine ⟨mnemonic, hHolds, hKept, ?_⟩
  intro name machine boot keyGenerator key root hMachine hPreset hRead hBoot
  have hRoot := (hInv.uploaded name machine hMachine hPreset).2.trans hKept
  obtain ⟨content, words, hFile, hDecode, hWords⟩ := id hHolds
  obtain ⟨hNode, hKey, hWritten⟩ :=
    ok_of_startNode hRead (hRoot.trans hFile) hDecode hBoot
  obtain rfl : mnemonic = keyGenerator.mnemonic := Except.ok.inj (hWords.symm.trans hNode)
  subst hKey
  exact ⟨rfl, fun file hMem => same_files_of_minted hWritten hMinted file hMem,
    admitted_of_minted hReadable hMinted⟩

end Runs

section Example

open Transition (run)

def exampleTools : Tools Bool Unit where
  library := {
    parse := fun words => if words = KeyGenerator.zeros then .ok false
      else if words = KeyGenerator.ones then .ok true else .error "invalid checksum"
    toString := fun mnemonic => if mnemonic then KeyGenerator.ones else KeyGenerator.zeros
    toSeed := fun mnemonic _ => [if mnemonic then 1 else 0]
    sha256 := fun _ => .replicate 32 0 }
  macaroonKey _ := ()
  serialize m := if m = adminMacaroon () then some "admin"
    else if m = readonlyMacaroon () then some "readonly" else none
  decodeUrlSafe text := some (Utf8.encode text)

def exampleFormats : MacaroonFormats Unit where
  headerText bytes := Utf8.decode bytes
  deserialize text := if text = "admin" then some (adminMacaroon ())
    else if text = "readonly" then some (readonlyMacaroon ()) else none
  fromHex _ := none
  deserializeBinary _ := none

theorem example_parse (mnemonic : Bool) :
    exampleTools.library.parse (exampleTools.library.toString mnemonic) = .ok mnemonic := by
  have hDistinct : KeyGenerator.ones ≠ KeyGenerator.zeros := by decide
  cases mnemonic with
  | false => simp [exampleTools]
  | true => simp [exampleTools, hDistinct]

theorem admin_ne_readonly : readonlyMacaroon () ≠ adminMacaroon () := by decide

theorem example_readable : Readable exampleTools exampleFormats := by
  refine ⟨fun m text _ => Utf8.decode_encode text, fun m text hText => ?_⟩
  unfold exampleTools at hText
  dsimp only at hText
  split at hText
  · rename_i hAdmin
    cases hText
    exact congrArg some hAdmin.symm
  · split at hText
    · rename_i hReadonly
      cases hText
      exact congrArg some hReadonly.symm
    · cases hText

theorem example_serializes : Serializes exampleTools () := by
  have hAdmin : exampleTools.serialize (adminMacaroon ()) = some "admin" := by
    simp [exampleTools]
  have hReadonly : exampleTools.serialize (readonlyMacaroon ()) = some "readonly" := by
    simp [exampleTools, admin_ne_readonly]
  exact ⟨⟨"admin", Utf8.encode "admin", hAdmin, rfl⟩, ⟨"readonly", hReadonly⟩⟩

/-- The certificates and keys are there, and no mnemonic yet. -/
def exampleWorld : World where
  dir path := if path = ["mnemonic"] then none else some []
  generated := false
  hosts _ := none

def exampleGeneration : Generation Bool := ⟨false, false, some true, .done, ⟨.done, .done, .done⟩⟩

def exampleBoot : Boot Bool :=
  ⟨.done, ⟨false, none, .refused⟩, true, true, ⟨.done, .done, .done⟩⟩

/-- The system lets everything be written. -/
def exampleTempDir : TempDir :=
  ⟨some "/tmp/kuutamo-secrets.0", fun _ => true, fun _ => true, fun _ => true⟩

def exampleUpload : Event Bool :=
  .upload Secrets.exampleHost "" false exampleTempDir (fun _ => none) true

/-- A host is installed and its node starts. -/
theorem example_run : ∃ d₁ d₂ machine root,
    run (step exampleTools) exampleWorld ([] ++ [.generate exampleGeneration]) = some d₁ ∧
      d₁.generated = true ∧ run (step exampleTools) d₁ [exampleUpload] = some d₂ ∧
      d₂.hosts "kld-00" = some machine ∧ machine.preset = true ∧
      startNode exampleTools true exampleBoot machine.root = .ok (⟨true⟩, ()) root := by
  have hAbsent : exampleWorld.dir ["mnemonic"] = none := rfl
  obtain ⟨dir, hGenerate, hFiles⟩ := generate_done true false false hAbsent example_serializes
  have hMnemonic : dir ["mnemonic"] = some (Utf8.encode KeyGenerator.ones) :=
    (hFiles _ mnemonic_not_macaroon).trans (Function.update_self _ _ _)
  have hThere : dir ["mnemonic"] ≠ none := hMnemonic ▸ Option.some_ne_none _
  have hReads : ∀ p ∈ Secrets.planned Secrets.exampleHost true "",
      p.content (SecretsDir.ofFiles dir false) ≠ none := by
    intro p hMem
    obtain ⟨dest, source, mode⟩ := p
    cases source with
    | text content => exact Option.some_ne_none _
    | file path message =>
      have hPath : path ∈ Secrets.sourcePaths "kld-00" := Secrets.mem_sourcePaths hMem rfl
      have hOther : ¬ MacaroonFile [] path := by
        rintro ⟨name, hName, rfl⟩
        refine Secrets.not_foreign hPath (Or.inr (Or.inl ?_))
        exact List.mem_map_of_mem (f := fun name => [name]) hName
      by_cases hSame : path = ["mnemonic"]
      · exact hSame ▸ hThere
      · have hKept := (hFiles path hOther).trans (Function.update_of_ne hSame _ _)
        have hFound : dir path = some [] := hKept.trans (if_neg hSame)
        exact fun hNone => Option.some_ne_none [] (hFound.symm.trans hNone)
  have hExists : (SecretsDir.ofFiles dir false).mnemonicExists = true := by
    rw [SecretsDir.ofFiles, hMnemonic]
    rfl
  have hTakes : ∀ plan, exampleTempDir.TakesAll plan := fun _ =>
    ⟨Option.some_ne_none _, fun _ _ => ⟨rfl, rfl, rfl⟩⟩
  obtain ⟨prepared, hPrepared⟩ :=
    Secrets.exists_secrets_iff.mpr ⟨hExists.symm ▸ hReads, hTakes _⟩
  have hRoot : copyOver (fun _ => none) prepared.tree uploadedMnemonic =
      some (Utf8.encode KeyGenerator.ones) := (copyOver_mnemonic hThere hPrepared).trans hMnemonic
  obtain ⟨root, hBoot⟩ := startNode_done none .refused hRoot (Utf8.decode_encode _)
    (example_parse true) example_serializes
  refine ⟨⟨dir, true, fun _ => none⟩, ⟨dir, true, Function.update (fun _ => none) "kld-00"
    (some ⟨true, copyOver (fun _ => none) prepared.tree⟩)⟩,
    ⟨true, copyOver (fun _ => none) prepared.tree⟩, root, ?_, rfl, ?_, ?_, rfl, hBoot⟩
  · rw [List.nil_append, Transition.run_cons, step, exampleGeneration, hGenerate]
    rfl
  · rw [Transition.run_cons, exampleUpload, step, hPrepared]
    rfl
  · simp only [Function.update_self]

theorem example_macaroons_admitted : ∃ d₁ d₂ : World, ∃ machine root admin readonly,
    run (step exampleTools) exampleWorld ([] ++ [.generate exampleGeneration]) = some d₁ ∧
      run (step exampleTools) d₁ [exampleUpload] = some d₂ ∧
      d₂.hosts "kld-00" = some machine ∧
      startNode exampleTools true exampleBoot machine.root = .ok (⟨true⟩, ()) root ∧
      Holds exampleTools.library d₁.dir true ∧ d₂.dir ["mnemonic"] = d₁.dir ["mnemonic"] ∧
      d₁.dir ["admin.macaroon"] = some admin ∧ d₁.dir ["readonly.macaroon"] = some readonly ∧
      AdmitsExactly exampleFormats () admin readonly := by
  obtain ⟨d₁, d₂, machine, root, hBefore, hGenerated, hAfter, hMachine, hPreset, hBoot⟩ :=
    example_run
  have hBare : exampleWorld.Bare := ⟨rfl, fun _ => rfl⟩
  have hPlain : ∀ e ∈ [] ++ [Event.generate exampleGeneration], e.Plain :=
    List.forall_mem_singleton.mpr rfl
  have hPlainAfter : ∀ e ∈ [exampleUpload], e.Plain := List.forall_mem_singleton.mpr rfl
  obtain ⟨mnemonic, hHolds, hKept, hNodes⟩ :=
    manager_macaroons_admitted example_parse example_readable hBare hPlain hBefore hGenerated
      hPlainAfter hAfter
  obtain ⟨hSame, _, admin, readonly, hAdmin, hReadonly, hExactly⟩ :=
    hNodes _ _ _ _ _ _ hMachine hPreset rfl hBoot
  obtain rfl : true = mnemonic := hSame
  exact ⟨d₁, d₂, machine, root, admin, readonly, hBefore, hAfter, hMachine, hBoot, hHolds, hKept,
    hAdmin, hReadonly, hExactly⟩

end Example

end Kld.Deployment
