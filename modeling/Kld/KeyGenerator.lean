import Kld.Lib.Utf8
import Kld.Types

/-!
# The mnemonic

All keys of a node derive from the words in one file, which the first start writes. A file
that cannot be read as text is taken for a missing one.
-/

namespace Kld.KeyGenerator

variable {μ : Type}

/-- The libraries: mnemonics as texts and as seeds, and SHA-256. -/
structure Library (μ : Type) where
  parse : String → Except String μ
  toString : μ → String
  toSeed : μ → String → Bytes
  sha256 : Bytes → Vector UInt8 32

/-- What becomes of a write. The file is truncated when it is opened, so that an interrupted write
leaves what it has written so far. -/
inductive Write where
  | refused
  | interrupted (written : Nat)
  | done
deriving DecidableEq

/-- What the outside does during a start. -/
structure Attempt (μ : Type) where
  readFails : Bool
  generated : Option μ
  write : Write
deriving DecidableEq

inductive InitError where
  | mnemonic (error : String)
  | generation
  | write (mnemonicPath : String)
deriving DecidableEq

def InitError.message : InitError → String
  | .mnemonic error => error
  | .generation => "Mnemonic generation error"
  | .write mnemonicPath => "Cannot write to " ++ mnemonicPath

end KeyGenerator

structure KeyGenerator (μ : Type) where
  mnemonic : μ
deriving DecidableEq

namespace KeyGenerator

section Source

variable (lib : Library μ)

/-- A file that is not there is `none`. -/
def readToString (file : Option Bytes) (readFails : Bool) : Option String :=
  if readFails then none else file.bind Utf8.decode

def writeFile (outcome : Write) (content : Bytes) (file : Option Bytes) : Bool × Option Bytes :=
  match outcome with
  | .refused => (false, file)
  | .interrupted written => (false, some (content.take written))
  | .done => (true, some content)

def init (mnemonicPath : String) (a : Attempt μ) (file : Option Bytes) :
    Except InitError (KeyGenerator μ) × Option Bytes :=
  match readToString file a.readFails with
  | some words => (((lib.parse words).mapError .mnemonic).map KeyGenerator.mk, file)
  | none =>
    match a.generated with
    | none => (.error .generation, file)
    | some mnemonic =>
      match writeFile a.write (Utf8.encode (lib.toString mnemonic)) file with
      | (true, file) => (.ok ⟨mnemonic⟩, file)
      | (false, file) => (.error (.write mnemonicPath), file)

def generateKey (k : KeyGenerator μ) (extraInput : String) : Vector UInt8 32 :=
  lib.sha256 (lib.toSeed k.mnemonic "" ++ Utf8.encode extraInput)

def walletSeed (k : KeyGenerator μ) : Vector UInt8 32 := generateKey lib k ""

def lightningSeed (k : KeyGenerator μ) : Vector UInt8 32 := generateKey lib k "lightning/0"

def macaroonSeed (k : KeyGenerator μ) : Vector UInt8 32 := generateKey lib k "macaroon/0"

def promiseSeed (k : KeyGenerator μ) : Vector UInt8 32 := generateKey lib k "promise_seed"

end Source

/-- One call of `init` and the file that it finds. -/
structure Start (μ : Type) where
  before : Option Bytes
  attempt : Attempt μ

section Starts

variable (lib : Library μ) (mnemonicPath : String)

def Start.result (st : Start μ) : Except InitError (KeyGenerator μ) :=
  (init lib mnemonicPath st.attempt st.before).1

def Start.after (st : Start μ) : Option Bytes := (init lib mnemonicPath st.attempt st.before).2

/-- The calls of a sequence, each of which finds the file as the one before has left it. -/
def starts : Option Bytes → List (Attempt μ) → List (Start μ)
  | _, [] => []
  | file, a :: as => ⟨file, a⟩ :: starts (Start.after lib mnemonicPath ⟨file, a⟩) as

/-- The words can be read and are those of a mnemonic. -/
def Usable (st : Start μ) : Prop :=
  ∃ words mnemonic, readToString st.before st.attempt.readFails = some words ∧
    lib.parse words = .ok mnemonic

def SameSeeds (k k' : KeyGenerator μ) : Prop :=
  walletSeed lib k = walletSeed lib k' ∧ lightningSeed lib k = lightningSeed lib k' ∧
    macaroonSeed lib k = macaroonSeed lib k' ∧ promiseSeed lib k = promiseSeed lib k'

structure NeverOverwritten (sts : List (Start μ)) : Prop where
  unchanged : ∀ st ∈ sts, st.before ≠ none → st.after lib mnemonicPath = st.before
  sameSeeds : ∀ st ∈ sts, ∀ st' ∈ sts, st.before ≠ none → st'.before = st.before →
    ∀ k k', st.result lib mnemonicPath = .ok k → st'.result lib mnemonicPath = .ok k' →
      SameSeeds lib k k'
  unusable : ∀ st ∈ sts, st.before ≠ none → ¬ Usable lib st →
    ∃ e, st.result lib mnemonicPath = .error e

/-- A start that finds a file and cannot read it has no mnemonic to write, or cannot open the
file; or it writes no more than the bytes that are there already, and fails. -/
def Spared (st : Start μ) : Prop :=
  st.before ≠ none → readToString st.before st.attempt.readFails = none →
    ∀ mnemonic, st.attempt.generated = some mnemonic → st.attempt.write = .refused ∨
      ∃ written, st.attempt.write = .interrupted written ∧
        st.before = some ((Utf8.encode (lib.toString mnemonic)).take written)

end Starts

section Spec

variable {lib : Library μ} {mnemonicPath : String} {st : Start μ}

theorem readToString_eq_some_iff {file : Option Bytes} {readFails : Bool} {words : String} :
    readToString file readFails = some words ↔
      readFails = false ∧ file.bind Utf8.decode = some words := by
  cases readFails <;> simp [readToString]

theorem init_of_read {words : String}
    (h : readToString st.before st.attempt.readFails = some words) :
    st.result lib mnemonicPath =
        ((lib.parse words).mapError .mnemonic).map KeyGenerator.mk ∧
      st.after lib mnemonicPath = st.before := by
  unfold Start.result Start.after init
  rw [h]
  exact ⟨rfl, rfl⟩

theorem parse_of_ok {k : KeyGenerator μ} {words : String}
    (h : readToString st.before st.attempt.readFails = some words)
    (hOk : st.result lib mnemonicPath = .ok k) : lib.parse words = .ok k.mnemonic := by
  rw [(init_of_read h).1] at hOk
  cases hParse : lib.parse words with
  | error e =>
    rw [hParse] at hOk
    cases hOk
  | ok mnemonic =>
    rw [hParse] at hOk
    cases hOk
    rfl

theorem init_of_ungenerated (h : readToString st.before st.attempt.readFails = none)
    (hNone : st.attempt.generated = none) :
    st.result lib mnemonicPath = .error .generation ∧
      st.after lib mnemonicPath = st.before := by
  unfold Start.result Start.after init
  rw [h, hNone]
  exact ⟨rfl, rfl⟩

section Unread

variable {mnemonic : μ} (h : readToString st.before st.attempt.readFails = none)
  (hSome : st.attempt.generated = some mnemonic)

include h hSome

theorem init_of_refused (hWrite : st.attempt.write = .refused) :
    st.result lib mnemonicPath = .error (.write mnemonicPath) ∧
      st.after lib mnemonicPath = st.before := by
  unfold Start.result Start.after init
  rw [h, hSome, hWrite]
  exact ⟨rfl, rfl⟩

theorem init_of_interrupted {written : Nat} (hWrite : st.attempt.write = .interrupted written) :
    st.result lib mnemonicPath = .error (.write mnemonicPath) ∧
      st.after lib mnemonicPath = some ((Utf8.encode (lib.toString mnemonic)).take written) := by
  unfold Start.result Start.after init
  rw [h, hSome, hWrite]
  exact ⟨rfl, rfl⟩

theorem init_of_done (hWrite : st.attempt.write = .done) :
    st.result lib mnemonicPath = .ok ⟨mnemonic⟩ ∧
      st.after lib mnemonicPath = some (Utf8.encode (lib.toString mnemonic)) := by
  unfold Start.result Start.after init
  rw [h, hSome, hWrite]
  exact ⟨rfl, rfl⟩

end Unread

/-- A start that cannot read the file succeeds only by writing a new one. -/
theorem created_of_ok {k : KeyGenerator μ}
    (h : readToString st.before st.attempt.readFails = none)
    (hOk : st.result lib mnemonicPath = .ok k) :
    st.attempt.write = .done ∧
      st.after lib mnemonicPath = some (Utf8.encode (lib.toString k.mnemonic)) := by
  cases hGenerated : st.attempt.generated with
  | none =>
    rw [(init_of_ungenerated h hGenerated).1] at hOk
    cases hOk
  | some mnemonic =>
    cases hWrite : st.attempt.write with
    | refused =>
      rw [(init_of_refused h hGenerated hWrite).1] at hOk
      cases hOk
    | interrupted written =>
      rw [(init_of_interrupted h hGenerated hWrite).1] at hOk
      cases hOk
    | done =>
      obtain ⟨hResult, hAfter⟩ : st.result lib mnemonicPath = .ok ⟨mnemonic⟩ ∧ _ :=
        init_of_done h hGenerated hWrite
      obtain rfl := Except.ok.inj (hResult.symm.trans hOk)
      exact ⟨rfl, hAfter⟩

theorem not_usable_of_unread (h : readToString st.before st.attempt.readFails = none) :
    ¬ Usable lib st := by
  rintro ⟨words, _, hRead, _⟩
  rw [h] at hRead
  cases hRead

theorem error_of_not_usable {words : String}
    (h : readToString st.before st.attempt.readFails = some words) (hNot : ¬ Usable lib st) :
    ∃ e, st.result lib mnemonicPath = .error e := by
  rw [(init_of_read h).1]
  cases hParse : lib.parse words with
  | error e => exact ⟨.mnemonic e, rfl⟩
  | ok mnemonic => exact absurd ⟨words, mnemonic, h, hParse⟩ hNot

/-- What a single start owes to a file that it finds. -/
def Kept (lib : Library μ) (mnemonicPath : String) (st : Start μ) : Prop :=
  st.before ≠ none → st.after lib mnemonicPath = st.before ∧
    (¬ Usable lib st → ∃ e, st.result lib mnemonicPath = .error e)

theorem kept_iff : Kept lib mnemonicPath st ↔ Spared lib st := by
  refine forall_congr' fun hThere => ?_
  cases hRead : readToString st.before st.attempt.readFails with
  | some words =>
    refine iff_of_true ⟨(init_of_read hRead).2, error_of_not_usable hRead⟩ ?_
    exact fun hNone => absurd hNone (Option.some_ne_none words)
  | none =>
    cases hGenerated : st.attempt.generated with
    | none =>
      obtain ⟨hResult, hAfter⟩ : st.result lib mnemonicPath = .error .generation ∧
          st.after lib mnemonicPath = st.before := init_of_ungenerated hRead hGenerated
      refine iff_of_true ⟨hAfter, fun _ => ⟨_, hResult⟩⟩ ?_
      exact fun _ mnemonic hSome => absurd hSome.symm (Option.some_ne_none mnemonic)
    | some mnemonic =>
      cases hWrite : st.attempt.write with
      | refused =>
        obtain ⟨hResult, hAfter⟩ : st.result lib mnemonicPath = .error (.write mnemonicPath) ∧ _ :=
          init_of_refused hRead hGenerated hWrite
        exact iff_of_true ⟨hAfter, fun _ => ⟨_, hResult⟩⟩ fun _ _ _ => Or.inl rfl
      | interrupted written =>
        obtain ⟨hResult, hAfter⟩ : st.result lib mnemonicPath = .error (.write mnemonicPath) ∧ _ :=
          init_of_interrupted hRead hGenerated hWrite
        constructor
        · rintro ⟨hSame, _⟩ _ _ hSome
          obtain rfl := Option.some.inj hSome
          exact Or.inr ⟨written, rfl, hSame.symm.trans hAfter⟩
        · intro hSpared
          rcases hSpared rfl mnemonic rfl with hRefused | ⟨_, hSame, hBefore⟩
          · cases hRefused
          · cases hSame
            exact ⟨hAfter.trans hBefore.symm, fun _ => ⟨_, hResult⟩⟩
      | done =>
        obtain ⟨hResult, _⟩ : st.result lib mnemonicPath = .ok ⟨mnemonic⟩ ∧ _ :=
          init_of_done hRead hGenerated hWrite
        refine iff_of_false ?_ ?_
        · rintro ⟨_, hFails⟩
          obtain ⟨e, hError⟩ := hFails (not_usable_of_unread hRead)
          rw [hResult] at hError
          cases hError
        · intro hSpared
          rcases hSpared rfl mnemonic rfl with hRefused | ⟨_, hInterrupted, _⟩
          · cases hRefused
          · cases hInterrupted

theorem usable_of_ok {k : KeyGenerator μ} (hKept : Kept lib mnemonicPath st)
    (hThere : st.before ≠ none) (hOk : st.result lib mnemonicPath = .ok k) : Usable lib st := by
  by_contra hNot
  obtain ⟨e, hError⟩ := (hKept hThere).2 hNot
  rw [hOk] at hError
  cases hError

/-- Two starts that find the same usable words have the same mnemonic. -/
theorem eq_of_usable {st' : Start μ} {k k' : KeyGenerator μ} (hSame : st'.before = st.before)
    (hUsable : Usable lib st) (hUsable' : Usable lib st')
    (hOk : st.result lib mnemonicPath = .ok k) (hOk' : st'.result lib mnemonicPath = .ok k') :
    k = k' := by
  obtain ⟨words, _, hRead, _⟩ := hUsable
  obtain ⟨words', _, hRead', _⟩ := hUsable'
  have hWords : words = words' := by
    have hDecode := (readToString_eq_some_iff.mp hRead).2
    have hDecode' := (readToString_eq_some_iff.mp hRead').2
    rw [hSame] at hDecode'
    exact Option.some.inj (hDecode.symm.trans hDecode')
  have hParse := parse_of_ok hRead hOk
  rw [hWords, parse_of_ok hRead' hOk'] at hParse
  cases k
  cases k'
  cases hParse
  rfl

/-- Every later start finds the file that one has found. -/
theorem found_again {content : Bytes} {attempts : List (Attempt μ)}
    (h : ∀ st ∈ starts lib mnemonicPath (some content) attempts, Spared lib st) :
    ∀ st ∈ starts lib mnemonicPath (some content) attempts, st.before = some content := by
  induction attempts with
  | nil => exact fun st hMem => absurd hMem List.not_mem_nil
  | cons a as ih =>
    obtain ⟨hHead, hTail⟩ := List.forall_mem_cons.mp h
    have hKept : Kept lib mnemonicPath ⟨some content, a⟩ := kept_iff.mpr hHead
    have hAfter := (hKept (Option.some_ne_none content)).1
    rw [starts]
    rw [hAfter] at hTail ⊢
    exact List.forall_mem_cons.mpr ⟨rfl, ih hTail⟩

theorem parse_of_found {content : Bytes} {attempts : List (Attempt μ)}
    (h : ∀ st ∈ starts lib mnemonicPath (some content) attempts, Spared lib st) :
    ∀ st ∈ starts lib mnemonicPath (some content) attempts, ∀ k,
      st.result lib mnemonicPath = .ok k →
        ∃ words, Utf8.decode content = some words ∧ lib.parse words = .ok k.mnemonic := by
  intro st hMem k hOk
  have hFound := found_again h st hMem
  have hThere : st.before ≠ none := hFound ▸ Option.some_ne_none content
  obtain ⟨words, _, hRead, _⟩ := usable_of_ok (kept_iff.mpr (h st hMem)) hThere hOk
  have hDecode := (readToString_eq_some_iff.mp hRead).2
  rw [hFound] at hDecode
  exact ⟨words, hDecode, parse_of_ok hRead hOk⟩

theorem unread_of_absent (hNone : st.before = none) :
    readToString st.before st.attempt.readFails = none := by
  rw [hNone, readToString]
  split <;> rfl

/-- The start that writes the file has the mnemonic of all later ones. -/
theorem one_mnemonic (hParse : ∀ mnemonic, lib.parse (lib.toString mnemonic) = .ok mnemonic)
    {file : Option Bytes} {attempts : List (Attempt μ)}
    (h : ∀ st ∈ starts lib mnemonicPath file attempts, Spared lib st) :
    (starts lib mnemonicPath file attempts).Pairwise fun st st' => ∀ k k',
      st.result lib mnemonicPath = .ok k → st'.result lib mnemonicPath = .ok k' → k = k' := by
  induction attempts generalizing file with
  | nil => exact List.Pairwise.nil
  | cons a as ih =>
    obtain ⟨hHead, hTail⟩ := List.forall_mem_cons.mp h
    refine List.pairwise_cons.mpr ⟨fun st hMem k k' hOk hOk' => ?_, ih hTail⟩
    have hText : ∃ content words, Start.after lib mnemonicPath ⟨file, a⟩ = some content ∧
        Utf8.decode content = some words ∧ lib.parse words = .ok k.mnemonic := by
      cases file with
      | none =>
        exact ⟨_, _, (created_of_ok (unread_of_absent rfl) hOk).2, Utf8.decode_encode _,
          hParse k.mnemonic⟩
      | some content =>
        have hThere : some content ≠ none := Option.some_ne_none content
        obtain ⟨words, hDecode, hWords⟩ :=
          parse_of_found h ⟨some content, a⟩ List.mem_cons_self k hOk
        exact ⟨content, words, (kept_iff.mpr hHead hThere).1, hDecode, hWords⟩
    obtain ⟨content, words, hAfter, hDecode, hWords⟩ := hText
    rw [hAfter] at hTail hMem
    obtain ⟨words', hDecode', hWords'⟩ := parse_of_found hTail st hMem k' hOk'
    obtain rfl := Option.some.inj (hDecode.symm.trans hDecode')
    rw [hWords] at hWords'
    cases k
    cases k'
    cases hWords'
    rfl

theorem never_overwritten_iff (lib : Library μ) (mnemonicPath : String) (file : Option Bytes)
    (attempts : List (Attempt μ)) :
    NeverOverwritten lib mnemonicPath (starts lib mnemonicPath file attempts) ↔
      ∀ st ∈ starts lib mnemonicPath file attempts, Spared lib st := by
  constructor
  · intro h st hMem
    exact kept_iff.mp fun hThere => ⟨h.unchanged st hMem hThere, h.unusable st hMem hThere⟩
  · intro h
    have hKept : ∀ st ∈ starts lib mnemonicPath file attempts, Kept lib mnemonicPath st :=
      fun st hMem => kept_iff.mpr (h st hMem)
    refine ⟨fun st hMem hThere => (hKept st hMem hThere).1, ?_,
      fun st hMem hThere => (hKept st hMem hThere).2⟩
    intro st hMem st' hMem' hThere hSame k k' hOk hOk'
    have hUsable := usable_of_ok (hKept st hMem) hThere hOk
    have hUsable' := usable_of_ok (hKept st' hMem') (hSame ▸ hThere) hOk'
    obtain rfl := eq_of_usable hSame hUsable hUsable' hOk hOk'
    exact ⟨rfl, rfl, rfl, rfl⟩

end Spec

/-- The two phrases of 24 words whose entropy is all zeros and all ones. -/
def zeros : String :=
  "abandon abandon abandon abandon abandon abandon abandon abandon abandon abandon abandon " ++
    "abandon abandon abandon abandon abandon abandon abandon abandon abandon abandon abandon " ++
    "abandon art"

def ones : String :=
  "zoo zoo zoo zoo zoo zoo zoo zoo zoo zoo zoo zoo zoo zoo zoo zoo zoo zoo zoo zoo zoo zoo zoo vote"

/-- Only phrases matter here, so that the seeds can be any. -/
def phrases : Library String where
  parse words := if words = zeros ∨ words = ones then .ok words else .error "invalid checksum"
  toString mnemonic := mnemonic
  toSeed mnemonic _ := Utf8.encode mnemonic
  sha256 _ := .replicate 32 0

/-- The file has words, but its permissions do not let the process read it. -/
def deniedStart : Start String := ⟨some (Utf8.encode zeros), true, some ones, .done⟩

theorem unreadable_words_replaced :
    deniedStart.result phrases "mnemonic" = .ok ⟨ones⟩ ∧
      deniedStart.after phrases "mnemonic" = some (Utf8.encode ones) ∧
      ¬ NeverOverwritten phrases "mnemonic"
        (starts phrases "mnemonic" deniedStart.before [deniedStart.attempt]) := by
  refine ⟨rfl, rfl, fun h => ?_⟩
  have hSame : some (Utf8.encode ones) = some (Utf8.encode zeros) :=
    h.unchanged deniedStart List.mem_cons_self (Option.some_ne_none _)
  have hText : ones = zeros := Utf8.encode_injective (Option.some.inj hSame)
  exact absurd hText (by decide)

end KeyGenerator

end Kld
