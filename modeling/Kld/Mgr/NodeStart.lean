import Kld.Mgr.MacaroonFiles

/-!
# The start of a node

The service copies the mnemonic of the host, if it was installed with one, and derives the key of
its macaroons from the mnemonic that it finds in its data directory.
-/

namespace Kld.Deployment

open Api FileAction
open KeyGenerator (Library Write Attempt)

variable {μ κ : Type}

/-- What the outside does while a node starts. -/
structure Boot (μ : Type) where
  copy : Write
  mnemonic : Attempt μ
  initialized : Bool
  createDir : Bool
  macaroons : MacaroonWrites

def uploadedMnemonic : List String := ["var", "lib", "secrets", "mnemonic"]

def dataDir : List String := ["var", "lib", "kld"]

def dataMnemonic : List String := dataDir ++ ["mnemonic"]

section Source

variable (tools : Tools μ κ)

/-- The setup of the service copies the mnemonic of the host, if it has one for its own. -/
def setup (preset : Bool) (boot : Boot μ) : Action Unit := fun files =>
  if preset then
    match files uploadedMnemonic with
    | some content => write dataMnemonic boot.copy content files
    | none => .error .copy files
  else .ok () files

def keyGeneratorInit (boot : Boot μ) : Action (KeyGenerator μ) :=
  onFile dataMnemonic fun file =>
    let (result, file) := KeyGenerator.init tools.library "/var/lib/kld/mnemonic" boot.mnemonic file
    (result.mapError fun e => .mnemonic e.message, file)

def macaroonAuthInit (seed : Vector UInt8 32) (boot : Boot μ) : Action κ := do
  ensure boot.initialized .library
  let key := tools.macaroonKey seed
  writeMacaroons tools (dataDir ++ ["macaroons"]) (ensure boot.createDir .createDir) key
    boot.macaroons
  return key

/-- The service starts, up to the key with which the macaroons of requests are verified. -/
def startNode (preset : Bool) (boot : Boot μ) : Action (KeyGenerator μ × κ) := do
  setup preset boot
  let keyGenerator ← keyGeneratorInit tools boot
  let key ← macaroonAuthInit tools (KeyGenerator.macaroonSeed tools.library keyGenerator) boot
  return (keyGenerator, key)

end Source

variable {tools : Tools μ κ} {files files' : Files (List String) Bytes}

/-- The files that a node writes when it starts. -/
def NodeFile (path : List String) : Prop :=
  path = dataMnemonic ∨ MacaroonFile (dataDir ++ ["macaroons"]) path

theorem uploaded_not_nodeFile : ¬ NodeFile uploadedMnemonic := by
  rintro (hData | ⟨name, _, hPath⟩)
  · exact absurd hData (by decide)
  · exact absurd (congrArg List.length hPath) (by simp [uploadedMnemonic, dataDir])

theorem touches_setup (preset : Bool) (boot : Boot μ) : Touches NodeFile (setup preset boot) := by
  intro files path hPath
  unfold setup
  split
  · split
    · exact touches_write (Or.inl rfl : NodeFile dataMnemonic) _ _ files path hPath
    · rfl
  · rfl

theorem touches_startNode (tools : Tools μ κ) (preset : Bool) (boot : Boot μ) :
    Touches NodeFile (startNode tools preset boot) := by
  refine (touches_setup preset boot).bind fun _ => ?_
  refine Touches.bind (touches_onFile (Or.inl rfl : NodeFile dataMnemonic)) fun keyGenerator => ?_
  refine Touches.bind ?_ fun key => touches_pure _
  refine (touches_ensure _ _).bind fun _ => Touches.bind ?_ fun _ => touches_pure _
  exact (touches_writeMacaroons tools (touches_ensure _ _) _ _).mono fun path => Or.inr

theorem ok_of_setup {boot : Boot μ} (h : setup true boot files = .ok () files') :
    ∃ content, files uploadedMnemonic = some content ∧ files' dataMnemonic = some content := by
  unfold setup at h
  rw [if_pos rfl] at h
  split at h
  · rename_i content hUploaded
    obtain rfl := write_eq_ok h
    exact ⟨content, hUploaded, Function.update_self _ _ _⟩
  · cases h

theorem ok_of_macaroonAuthInit {seed : Vector UInt8 32} {boot : Boot μ} {key : κ}
    (h : macaroonAuthInit tools seed boot files = .ok key files') :
    key = tools.macaroonKey seed ∧ Minted tools (dataDir ++ ["macaroons"]) key files' := by
  obtain ⟨_, files₁, _, h⟩ := ok_of_bind h
  obtain ⟨_, files₂, hMacaroons, h⟩ := ok_of_bind h
  cases h
  exact ⟨rfl, minted_of_writeMacaroons hMacaroons⟩

/-- A node that is set up with the mnemonic of the manager, and reads it, has its key. -/
theorem ok_of_startNode {boot : Boot μ} {keyGenerator : KeyGenerator μ} {key : κ}
    {content : Bytes} {words : String} (hRead : boot.mnemonic.readFails = false)
    (hUploaded : files uploadedMnemonic = some content)
    (hDecode : Utf8.decode content = some words)
    (h : startNode tools true boot files = .ok (keyGenerator, key) files') :
    tools.library.parse words = .ok keyGenerator.mnemonic ∧
      key = keyOf tools keyGenerator.mnemonic ∧
      Minted tools (dataDir ++ ["macaroons"]) key files' := by
  obtain ⟨_, files₁, hSetup, h⟩ := ok_of_bind h
  obtain ⟨keyGenerator', files₂, hInit, h⟩ := ok_of_bind h
  obtain ⟨key', files₃, hKey, h⟩ := ok_of_bind h
  cases h
  obtain ⟨content', hContent, hData⟩ := ok_of_setup hSetup
  obtain rfl := Option.some.inj (hUploaded.symm.trans hContent)
  refine ⟨?_, ok_of_macaroonAuthInit hKey⟩
  obtain ⟨hOk, _⟩ := onFile_eq_ok_iff.mp hInit
  have hWords : KeyGenerator.readToString (files₁ dataMnemonic) boot.mnemonic.readFails =
      some words := by
    rw [KeyGenerator.readToString_eq_some_iff, hData]
    exact ⟨hRead, hDecode⟩
  have hStart : KeyGenerator.Start.result tools.library "/var/lib/kld/mnemonic"
      ⟨files₁ dataMnemonic, boot.mnemonic⟩ = .ok keyGenerator := Fallible.ok_of_mapError hOk
  exact KeyGenerator.parse_of_ok hWords hStart

/-- A start that is not disturbed. -/
theorem startNode_done {mnemonic : μ} {content : Bytes} {words : String} (generated : Option μ)
    (outcome : Write) (hUploaded : files uploadedMnemonic = some content)
    (hDecode : Utf8.decode content = some words)
    (hWords : tools.library.parse words = .ok mnemonic)
    (h : Serializes tools (keyOf tools mnemonic)) :
    ∃ root, startNode tools true
      ⟨.done, ⟨false, generated, outcome⟩, true, true, ⟨.done, .done, .done⟩⟩ files =
        .ok (⟨mnemonic⟩, keyOf tools mnemonic) root := by
  have hSetup : setup true
      ⟨.done, ⟨false, generated, outcome⟩, true, true, ⟨.done, .done, .done⟩⟩ files =
      .ok () (Function.update files dataMnemonic (some content)) := by
    unfold setup
    rw [if_pos rfl, hUploaded]
    rfl
  have hInit : ∃ files₁, keyGeneratorInit tools
      ⟨.done, ⟨false, generated, outcome⟩, true, true, ⟨.done, .done, .done⟩⟩
      (Function.update files dataMnemonic (some content)) = .ok ⟨mnemonic⟩ files₁ := by
    refine ⟨_, onFile_eq_ok_iff.mpr ⟨?_, rfl⟩⟩
    have hRead : KeyGenerator.readToString (some content) false = some words := hDecode
    rw [Function.update_self]
    unfold KeyGenerator.init
    rw [hRead]
    dsimp only
    rw [hWords]
    rfl
  obtain ⟨files₁, hInit⟩ := hInit
  have hDir : ensure true .createDir files₁ = .ok () files₁ := rfl
  obtain ⟨root, hMacaroons⟩ := writeMacaroons_done (dataDir ++ ["macaroons"]) h hDir
  refine exists_ok_bind hSetup (exists_ok_bind hInit ?_)
  have hKey : macaroonAuthInit tools (KeyGenerator.macaroonSeed tools.library ⟨mnemonic⟩)
      ⟨.done, ⟨false, generated, outcome⟩, true, true, ⟨.done, .done, .done⟩⟩ files₁ =
      .ok (keyOf tools mnemonic) root :=
    ok_bind rfl (ok_bind hMacaroons rfl)
  exact ⟨root, ok_bind hKey rfl⟩

end Kld.Deployment
