import Kld.Api.MacaroonAuth
import Kld.KeyGenerator
import Kld.Lib.Fallible
import Kld.Lib.FileAction

/-!
# The mnemonic and the macaroons in the secret directory

The manager keeps the mnemonic that it finds, or writes a new one, and then the macaroons of the
key that is derived from it. Nodes write macaroons of their key to their data directory.
-/

namespace Kld.Deployment

open Api FileAction
open KeyGenerator (Library Write writeFile)

variable {μ κ : Type}

/-- The libraries: mnemonics and hashes, the keys of macaroons and their texts. -/
structure Tools (μ κ : Type) where
  library : Library μ
  macaroonKey : Vector UInt8 32 → κ
  serialize : Macaroon κ → Option String
  decodeUrlSafe : String → Option Bytes

inductive Failure where
  | generation
  | mnemonic (error : String)
  | panic
  | library
  | serialize
  | decode
  | createDir
  | copy
  | write (path : List String)
deriving DecidableEq

abbrev Action (α : Type) := FileM Failure (List String) Bytes α

def write (path : List String) (outcome : Write) (content : Bytes) : Action Unit :=
  onFile path fun file =>
    match writeFile outcome content file with
    | (true, file) => (.ok (), file)
    | (false, file) => (.error (.write path), file)

def ensure (succeeds : Bool) (e : Failure) : Action Unit := if succeeds then pure () else throw e

/-- What becomes of the files that are written for the macaroons. -/
structure MacaroonWrites where
  access : Write
  admin : Write
  readonly : Write
deriving DecidableEq

section Source

variable (tools : Tools μ κ)

/-- The files of the macaroons, in a directory that is made before them. -/
def writeMacaroons (directory : List String) (createDir : Action Unit) (key : κ)
    (writes : MacaroonWrites) : Action Unit := do
  let base64 ← orFail .serialize (tools.serialize (adminMacaroon key))
  let buf ← orFail .decode (tools.decodeUrlSafe base64)
  createDir
  write (directory ++ ["access.macaroon"]) writes.access buf
  let admin ← orFail .serialize (tools.serialize (adminMacaroon key))
  write (directory ++ ["admin.macaroon"]) writes.admin (Utf8.encode admin)
  let readonly ← orFail .serialize (tools.serialize (readonlyMacaroon key))
  write (directory ++ ["readonly.macaroon"]) writes.readonly (Utf8.encode readonly)

/-- What the outside does while the manager writes its secrets. A path that cannot be looked up is
taken for one where there is nothing. -/
structure Generation (μ : Type) where
  lookupFails : Bool
  readFails : Bool
  generated : Option μ
  write : Write
  macaroons : MacaroonWrites

def presentMnemonic (g : Generation μ) : Action μ :=
  onFile ["mnemonic"] fun file =>
    if g.lookupFails ∨ file = none then
      match g.generated with
      | none => (.error .generation, file)
      | some mnemonic =>
        match writeFile g.write (Utf8.encode (tools.library.toString mnemonic)) file with
        | (true, file) => (.ok mnemonic, file)
        | (false, file) => (.error (.write ["mnemonic"]), file)
    else
      match KeyGenerator.readToString file g.readFails with
      | some words => ((tools.library.parse words).mapError .mnemonic, file)
      | none => (.error .panic, file)

def generateMnemonicAndMacaroons (g : Generation μ) : Action Unit := do
  let mnemonic ← presentMnemonic tools g
  let seed := tools.library.sha256
    (tools.library.toSeed mnemonic "" ++ Utf8.encode "macaroon/0")
  writeMacaroons tools [] (pure ()) (tools.macaroonKey seed) g.macaroons

end Source

/-- The file of the mnemonic has its words. -/
def Holds (library : Library μ) (files : Files (List String) Bytes) (mnemonic : μ) : Prop :=
  ∃ content words, files ["mnemonic"] = some content ∧ Utf8.decode content = some words ∧
    library.parse words = .ok mnemonic

variable {tools : Tools μ κ} {files files' : Files (List String) Bytes}

theorem write_eq_ok {path : List String} {outcome : Write} {content : Bytes}
    (h : write path outcome content files = .ok () files') :
    files' = Function.update files path (some content) := by
  obtain ⟨hOk, rfl⟩ := onFile_eq_ok_iff.mp h
  cases outcome with
  | refused => cases hOk
  | interrupted written => cases hOk
  | done => rfl

theorem touches_write {paths : List String → Prop} {path : List String} (h : paths path)
    (outcome : Write) (content : Bytes) : Touches paths (write path outcome content) :=
  touches_onFile h

theorem touches_ensure {paths : List String → Prop} (succeeds : Bool) (e : Failure) :
    Touches paths (ensure succeeds e) := by
  cases succeeds
  · exact touches_throw e
  · exact touches_pure ()

def MacaroonFile (directory path : List String) : Prop :=
  ∃ name ∈ ["access.macaroon", "admin.macaroon", "readonly.macaroon"], path = directory ++ [name]

theorem touches_writeMacaroons (tools : Tools μ κ) {directory : List String}
    {createDir : Action Unit} (hDir : Touches (MacaroonFile directory) createDir) (key : κ)
    (writes : MacaroonWrites) :
    Touches (MacaroonFile directory) (writeMacaroons tools directory createDir key writes) := by
  refine (touches_orFail _ _).bind fun base64 => (touches_orFail _ _).bind fun buf => ?_
  refine hDir.bind fun _ => (touches_write ⟨_, by simp, rfl⟩ _ _).bind fun _ => ?_
  refine (touches_orFail _ _).bind fun admin => ?_
  refine (touches_write ⟨_, by simp, rfl⟩ _ _).bind fun _ => ?_
  exact (touches_orFail _ _).bind fun readonly => touches_write ⟨_, by simp, rfl⟩ _ _

/-- The files of the macaroons of a key. -/
structure Minted (tools : Tools μ κ) (directory : List String) (key : κ)
    (files : Files (List String) Bytes) : Prop where
  admin : ∃ text, tools.serialize (adminMacaroon key) = some text ∧
    files (directory ++ ["admin.macaroon"]) = some (Utf8.encode text)
  readonly : ∃ text, tools.serialize (readonlyMacaroon key) = some text ∧
    files (directory ++ ["readonly.macaroon"]) = some (Utf8.encode text)
  access : ∃ text buf, tools.serialize (adminMacaroon key) = some text ∧
    tools.decodeUrlSafe text = some buf ∧ files (directory ++ ["access.macaroon"]) = some buf

theorem minted_of_writeMacaroons {directory : List String} {createDir : Action Unit} {key : κ}
    {writes : MacaroonWrites}
    (h : writeMacaroons tools directory createDir key writes files = .ok () files') :
    Minted tools directory key files' := by
  obtain ⟨base64, s₁, hBase64, h⟩ := ok_of_bind h
  obtain ⟨buf, s₂, hBuf, h⟩ := ok_of_bind h
  obtain ⟨_, s₃, _, h⟩ := ok_of_bind h
  obtain ⟨_, s₄, hAccess, h⟩ := ok_of_bind h
  obtain ⟨admin, s₅, hAdmin, h⟩ := ok_of_bind h
  obtain ⟨_, s₆, hWriteAdmin, h⟩ := ok_of_bind h
  obtain ⟨readonly, s₇, hReadonly, hWriteReadonly⟩ := ok_of_bind h
  have hText := (ok_of_orFail hBase64).1
  have hBinary := (ok_of_orFail hBuf).1
  obtain ⟨hAdminText, rfl⟩ := ok_of_orFail hAdmin
  obtain ⟨hReadonlyText, rfl⟩ := ok_of_orFail hReadonly
  obtain rfl := write_eq_ok hAccess
  obtain rfl := write_eq_ok hWriteAdmin
  obtain rfl := write_eq_ok hWriteReadonly
  refine ⟨⟨admin, hAdminText, ?_⟩, ⟨readonly, hReadonlyText, ?_⟩,
    ⟨base64, buf, hText, hBinary, ?_⟩⟩
  · simp
  · simp
  · simp

theorem same_files_of_minted {directory directory' : List String} {key : κ}
    (h : Minted tools directory key files) (h' : Minted tools directory' key files') :
    ∀ name ∈ ["access.macaroon", "admin.macaroon", "readonly.macaroon"],
      files (directory ++ [name]) = files' (directory' ++ [name]) := by
  obtain ⟨⟨admin, hAdmin, hAdminFile⟩, ⟨readonly, hReadonly, hReadonlyFile⟩,
    text, buf, hText, hBuf, hAccessFile⟩ := h
  obtain ⟨⟨admin', hAdmin', hAdminFile'⟩, ⟨readonly', hReadonly', hReadonlyFile'⟩,
    text', buf', hText', hBuf', hAccessFile'⟩ := h'
  obtain rfl := Option.some.inj (hAdmin.symm.trans hAdmin')
  obtain rfl := Option.some.inj (hReadonly.symm.trans hReadonly')
  obtain rfl := Option.some.inj (hText.symm.trans hText')
  obtain rfl := Option.some.inj (hBuf.symm.trans hBuf')
  simp only [List.forall_mem_cons, List.not_mem_nil, false_imp_iff, implies_true, and_true]
  exact ⟨hAccessFile.trans hAccessFile'.symm, hAdminFile.trans hAdminFile'.symm,
    hReadonlyFile.trans hReadonlyFile'.symm⟩

theorem Holds.of_eq {library : Library μ} {mnemonic : μ} (h : Holds library files mnemonic)
    (hSame : files' ["mnemonic"] = files ["mnemonic"]) : Holds library files' mnemonic := by
  obtain ⟨content, words, hFile, hWords⟩ := h
  exact ⟨content, words, hSame.trans hFile, hWords⟩

theorem ne_none_of_holds {library : Library μ} {mnemonic : μ} (h : Holds library files mnemonic) :
    files ["mnemonic"] ≠ none := by
  obtain ⟨content, _, hFile, _⟩ := h
  exact hFile ▸ Option.some_ne_none content

/-- The manager has the mnemonic that the file holds from now on. -/
theorem holds_of_presentMnemonic {g : Generation μ} {mnemonic : μ}
    (hParse : ∀ mnemonic, tools.library.parse (tools.library.toString mnemonic) = .ok mnemonic)
    (h : presentMnemonic tools g files = .ok mnemonic files') :
    Holds tools.library files' mnemonic := by
  obtain ⟨hOk, rfl⟩ := onFile_eq_ok_iff.mp h
  unfold Holds
  rw [Function.update_self]
  split at hOk
  · rename_i hAbsent
    rw [if_pos hAbsent]
    cases hGenerated : g.generated with
    | none =>
      rw [hGenerated] at hOk
      cases hOk
    | some fresh =>
      rw [hGenerated] at hOk
      cases hWrite : g.write with
      | refused =>
        rw [hWrite] at hOk
        cases hOk
      | interrupted written =>
        rw [hWrite] at hOk
        cases hOk
      | done =>
        rw [hWrite] at hOk
        cases hOk
        exact ⟨_, _, rfl, Utf8.decode_encode _, hParse _⟩
  · rename_i hPresent
    rw [if_neg hPresent]
    cases hRead : KeyGenerator.readToString (files ["mnemonic"]) g.readFails with
    | none =>
      rw [hRead] at hOk
      cases hOk
    | some words =>
      rw [hRead] at hOk
      obtain ⟨_, hDecode⟩ := KeyGenerator.readToString_eq_some_iff.mp hRead
      obtain ⟨content, hFile, hWords⟩ := Option.bind_eq_some_iff.mp hDecode
      exact ⟨content, words, hFile, hWords, Fallible.ok_of_mapError hOk⟩

/-- A mnemonic that is found is left as it is. -/
theorem presentMnemonic_kept {g : Generation μ} (hThere : files ["mnemonic"] ≠ none)
    (hPlain : g.lookupFails = false) (path : List String) :
    filesOf (presentMnemonic tools g files) path = files path := by
  have hFound : ¬ (g.lookupFails = true ∨ files ["mnemonic"] = none) := by
    simp [hPlain, hThere]
  have hFile : ∀ file, file = files ["mnemonic"] →
      Function.update files ["mnemonic"] file path = files path := fun file hFile =>
    congrFun (hFile ▸ Function.update_eq_self _ _) path
  unfold presentMnemonic
  rw [filesOf_onFile]
  refine hFile _ ?_
  rw [if_neg hFound]
  cases KeyGenerator.readToString (files ["mnemonic"]) g.readFails <;> rfl

/-- The key with which a node verifies, and the manager signs, that has this mnemonic. -/
def keyOf (tools : Tools μ κ) (mnemonic : μ) : κ :=
  tools.macaroonKey (KeyGenerator.macaroonSeed tools.library ⟨mnemonic⟩)

theorem mnemonic_not_macaroon : ¬ MacaroonFile [] ["mnemonic"] := by
  rintro ⟨name, hMem, hPath⟩
  obtain rfl : "mnemonic" = name := by simpa using hPath
  simp at hMem

theorem generate_kept {g : Generation μ} (hThere : files ["mnemonic"] ≠ none)
    (hPlain : g.lookupFails = false) :
    filesOf (generateMnemonicAndMacaroons tools g files) ["mnemonic"] = files ["mnemonic"] := by
  unfold generateMnemonicAndMacaroons
  rw [filesOf_bind (fun mnemonic => touches_writeMacaroons tools (touches_pure ()) _ _)
    mnemonic_not_macaroon]
  exact presentMnemonic_kept hThere hPlain _

theorem generate_ok {g : Generation μ}
    (hParse : ∀ mnemonic, tools.library.parse (tools.library.toString mnemonic) = .ok mnemonic)
    (h : generateMnemonicAndMacaroons tools g files = .ok () files') :
    ∃ mnemonic, Holds tools.library files' mnemonic ∧
      Minted tools [] (keyOf tools mnemonic) files' := by
  obtain ⟨mnemonic, files₁, hMnemonic, hMacaroons⟩ := ok_of_bind h
  refine ⟨mnemonic, (holds_of_presentMnemonic hParse hMnemonic).of_eq ?_,
    minted_of_writeMacaroons hMacaroons⟩
  have hKept := touches_writeMacaroons tools (touches_pure ())
    (tools.macaroonKey (tools.library.sha256
      (tools.library.toSeed mnemonic "" ++ Utf8.encode "macaroon/0"))) g.macaroons files₁ _
    mnemonic_not_macaroon
  dsimp only at hMacaroons
  rw [hMacaroons] at hKept
  exact hKept

section Admission

/-- How the text of a macaroon is read from a header. -/
structure Readable (tools : Tools μ κ) (formats : MacaroonFormats κ) : Prop where
  headerText : ∀ m text, tools.serialize m = some text →
    formats.headerText (Utf8.encode text) = some text
  deserialize : ∀ m text, tools.serialize m = some text → formats.deserialize text = some m

theorem fromRequestParts_of_serialized {formats : MacaroonFormats κ} (h : Readable tools formats)
    {m : Macaroon κ} {text : String} (hText : tools.serialize m = some text) :
    fromRequestParts formats ⟨none, some (Utf8.encode text), none⟩ = .ok m := by
  have hValue : headerValue formats ⟨none, some (Utf8.encode text), none⟩ = .ok text := by
    unfold headerValue
    dsimp only [Option.some_or]
    rw [h.headerText m text hText]
  unfold fromRequestParts
  rw [hValue]
  dsimp only
  rw [h.deserialize m text hText]

/-- The texts of the macaroons of a key are admitted where it verifies, to their roles. -/
structure AdmitsExactly [DecidableEq κ] (formats : MacaroonFormats κ) (key : κ)
    (admin readonly : Bytes) : Prop where
  adminToAdmin : adminAuth formats ⟨none, some admin, none⟩ key = some .next
  adminToReadonly : readonlyAuth formats ⟨none, some admin, none⟩ key = some .next
  readonlyToReadonly : readonlyAuth formats ⟨none, some readonly, none⟩ key = some .next
  readonlyToAdmin : adminAuth formats ⟨none, some readonly, none⟩ key =
    some (.unauthorized "Failed to verify macaroon")

theorem admitted_of_minted [DecidableEq κ] {formats : MacaroonFormats κ}
    (hReadable : Readable tools formats) {key : κ} (h : Minted tools [] key files) :
    ∃ admin readonly, files ["admin.macaroon"] = some admin ∧
      files ["readonly.macaroon"] = some readonly ∧ AdmitsExactly formats key admin readonly := by
  obtain ⟨admin, hAdmin, hAdminFile⟩ := h.admin
  obtain ⟨readonly, hReadonly, hReadonlyFile⟩ := h.readonly
  obtain ⟨hVerifyAdmin, _, hVerifyReadonly⟩ := minted_verify key
  have hAdminParts := fromRequestParts_of_serialized hReadable hAdmin
  have hReadonlyParts := fromRequestParts_of_serialized hReadable hReadonly
  have hPlain : fromRequestParts formats ⟨none, some (Utf8.encode readonly), none⟩ =
      .ok ((readonlyMacaroon key).attenuate []) := hReadonlyParts
  exact ⟨_, _, hAdminFile, hReadonlyFile, {
    adminToAdmin := roleAuth_eq_next_iff.mpr ⟨_, hAdminParts, hVerifyAdmin⟩
    adminToReadonly := readonlyAuth_of_adminMacaroon hAdminParts
    readonlyToReadonly := roleAuth_eq_next_iff.mpr ⟨_, hReadonlyParts, hVerifyReadonly⟩
    readonlyToAdmin := adminAuth_of_attenuated hPlain }⟩

end Admission

section Success

/-- Nothing goes wrong when a macaroon is written as a text. -/
structure Serializes (tools : Tools μ κ) (key : κ) : Prop where
  admin : ∃ text buf, tools.serialize (adminMacaroon key) = some text ∧
    tools.decodeUrlSafe text = some buf
  readonly : ∃ text, tools.serialize (readonlyMacaroon key) = some text

theorem write_done (path : List String) (content : Bytes) (files : Files (List String) Bytes) :
    write path .done content files = .ok () (Function.update files path (some content)) := rfl

theorem writeMacaroons_done (directory : List String) {createDir : Action Unit} {key : κ}
    (h : Serializes tools key) (hDir : createDir files = .ok () files) :
    ∃ files', writeMacaroons tools directory createDir key ⟨.done, .done, .done⟩ files =
      .ok () files' := by
  obtain ⟨⟨text, buf, hText, hBuf⟩, readonly, hReadonly⟩ := h
  unfold writeMacaroons
  rw [hText, hReadonly]
  refine exists_ok_bind (orFail_some _ text files) ?_
  rw [hBuf]
  refine exists_ok_bind (orFail_some _ buf files) (exists_ok_bind hDir ?_)
  refine exists_ok_bind (write_done _ _ _) (exists_ok_bind (orFail_some _ text _) ?_)
  refine exists_ok_bind (write_done _ _ _) (exists_ok_bind (orFail_some _ readonly _) ?_)
  exact ⟨_, write_done _ _ _⟩

/-- A generation that finds no mnemonic and is not disturbed. -/
theorem generate_done (mnemonic : μ) (lookupFails readFails : Bool)
    (hAbsent : files ["mnemonic"] = none) (h : Serializes tools (keyOf tools mnemonic)) :
    ∃ files', generateMnemonicAndMacaroons tools
        ⟨lookupFails, readFails, some mnemonic, .done, ⟨.done, .done, .done⟩⟩ files =
          .ok () files' ∧
      ∀ path, ¬ MacaroonFile [] path → files' path = Function.update files ["mnemonic"]
        (some (Utf8.encode (tools.library.toString mnemonic))) path := by
  have hPresent : presentMnemonic tools
      ⟨lookupFails, readFails, some mnemonic, .done, ⟨.done, .done, .done⟩⟩ files =
      .ok mnemonic (Function.update files ["mnemonic"]
        (some (Utf8.encode (tools.library.toString mnemonic)))) := by
    refine onFile_eq_ok_iff.mpr ?_
    rw [hAbsent, if_pos (Or.inr rfl)]
    exact ⟨rfl, rfl⟩
  generalize Function.update files ["mnemonic"]
    (some (Utf8.encode (tools.library.toString mnemonic))) = stored at hPresent ⊢
  have hDir : (pure () : Action Unit) stored = .ok () stored := rfl
  obtain ⟨files', hMacaroons⟩ := writeMacaroons_done [] h hDir
  refine ⟨files', ok_bind hPresent hMacaroons, fun path hPath => ?_⟩
  have hKept := touches_writeMacaroons tools (touches_pure ()) (keyOf tools mnemonic)
    ⟨.done, .done, .done⟩ stored path hPath
  rw [hMacaroons] at hKept
  exact hKept

end Success

end Kld.Deployment
