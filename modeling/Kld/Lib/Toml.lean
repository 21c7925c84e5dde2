import Mathlib.Algebra.GroupWithZero.Nat
import Mathlib.Data.List.TakeWhile
import Mathlib.Logic.Function.Basic
import Kld.Lib.Decimal

/-!
# Key and value lines of TOML

A text between quotation marks is read back when it has no quotation mark, no backslash
and no control character but the tab. It is never read back otherwise, whatever the document
goes on with: an escape sequence takes more text than it gives, and a string that
extends over its closing mark has text of the document instead of its own.
-/

namespace Toml

inductive Value where
  | string (s : String)
  | integer (n : Int)
  | boolean (b : Bool)
  | array (values : List Value)
  | table (fields : String → Option Value)

abbrev Table := String → Option Value

section Strings

def Unescaped (c : Char) : Prop :=
  c = '\t' ∨ (0x20 ≤ c.toNat ∧ c ≠ '"' ∧ c ≠ '\\' ∧ c.toNat ≠ 0x7F)

instance (c : Char) : Decidable (Unescaped c) := inferInstanceAs (Decidable (_ ∨ _))

theorem unescaped_of_all {cs : List Char} (h : cs.all (Unescaped ·) = true) :
    ∀ c ∈ cs, Unescaped c :=
  fun c hMem => of_decide_eq_true (List.all_eq_true.mp h c hMem)

def shortEscapes : List (Char × Char) :=
  [('b', '\x08'), ('t', '\t'), ('n', '\n'), ('f', '\x0C'), ('r', '\r'), ('"', '"'), ('\\', '\\')]

def hexDigits : List Char := "0123456789abcdefABCDEF".toList

def hexValue (c : Char) : Nat :=
  if c.isDigit then c.toNat - '0'.toNat
  else if c.isUpper then c.toNat - 'A'.toNat + 10
  else c.toNat - 'a'.toNat + 10

inductive Escape : List Char → Char → Prop
  | short {e c : Char} (h : (e, c) ∈ shortEscapes) : Escape ['\\', e] c
  | unicode {u : Char} {digits : List Char} {c : Char}
      (hLength : u = 'u' ∧ digits.length = 4 ∨ u = 'U' ∧ digits.length = 8)
      (hDigits : ∀ d ∈ digits, d ∈ hexDigits)
      (hValue : digits.foldl (fun n d => n * 16 + hexValue d) 0 = c.toNat) :
      Escape ('\\' :: u :: digits) c

def blanks : List Char := [' ', '\t', '\n', '\r']

/-- What is written in a string, and the text it stands for. A line may end within a string of
several lines, and with a backslash the blanks that follow are left out. -/
inductive Content (multiline : Bool) : List Char → List Char → Prop
  | nil : Content multiline [] []
  | char {c : Char} {raw value : List Char}
      (h : Unescaped c ∨ (multiline = true ∧ c ∈ ['"', '\n', '\r'])) :
      Content multiline raw value → Content multiline (c :: raw) (c :: value)
  | escape {e raw value : List Char} {c : Char} (h : Escape e c) :
      Content multiline raw value → Content multiline (e ++ raw) (c :: value)
  | crlf {raw value : List Char} (h : multiline = true) :
      Content multiline raw value → Content multiline ('\r' :: '\n' :: raw) ('\n' :: value)
  | fold {gap raw value : List Char} (h : multiline = true) (hGap : ∀ c ∈ gap, c ∈ blanks) :
      Content multiline raw value → Content multiline ('\\' :: gap ++ raw) value

def quotes : List Char := ['"', '"', '"']

inductive StringLiteral : List Char → List Char → Prop
  | basic {raw value : List Char} (h : Content false raw value) :
      StringLiteral ('"' :: raw ++ ['"']) value
  | multiline {first raw value : List Char} (hFirst : first ∈ [[], ['\n'], ['\r', '\n']])
      (h : Content true raw value) : StringLiteral (quotes ++ first ++ raw ++ quotes) value

end Strings

section Lengths

variable {multiline : Bool} {raw value e : List Char} {c mark : Char}

def escapeChars : List Char := '\\' :: 'u' :: 'U' :: shortEscapes.map Prod.fst ++ hexDigits

theorem Escape.two_le_length (h : Escape e c) : 2 ≤ e.length := by
  cases h with
  | short => exact Nat.le_refl 2
  | unicode => simp

theorem Escape.mem_escapeChars (h : Escape e c) : ∀ d ∈ e, d ∈ escapeChars := by
  have hDigits : hexDigits ⊆ escapeChars := by decide
  have hShort : ∀ entry ∈ shortEscapes, entry.1 ∈ escapeChars := by decide
  cases h with
  | short h =>
    simp only [List.forall_mem_cons]
    exact ⟨by decide, hShort _ h, fun _ hMem => absurd hMem List.not_mem_nil⟩
  | unicode hLength hHex _ =>
    simp only [List.forall_mem_cons]
    refine ⟨by decide, ?_, fun d hMem => hDigits (hHex d hMem)⟩
    rcases hLength with ⟨rfl, _⟩ | ⟨rfl, _⟩ <;> decide

theorem Content.length_le (h : Content multiline raw value) : value.length ≤ raw.length := by
  induction h with
  | nil => exact Nat.le_refl 0
  | char _ _ ih => exact Nat.succ_le_succ ih
  | escape hEscape _ ih =>
    have := hEscape.two_le_length
    rw [List.length_append, List.length_cons]
    omega
  | crlf _ _ ih =>
    simp only [List.length_cons]
    omega
  | fold _ _ _ ih =>
    rw [List.length_append]
    omega

/-- Nothing is lost only where nothing is escaped. -/
theorem Content.unescaped_of_length (h : Content false raw value)
    (hLength : raw.length ≤ value.length) : raw = value ∧ ∀ c ∈ value, Unescaped c := by
  induction h with
  | nil => exact ⟨rfl, fun _ hMem => absurd hMem List.not_mem_nil⟩
  | char hChar _ ih =>
    obtain ⟨rfl, hRest⟩ := ih (Nat.le_of_succ_le_succ hLength)
    refine ⟨rfl, List.forall_mem_cons.mpr ⟨?_, hRest⟩⟩
    rcases hChar with hChar | ⟨hFalse, _⟩
    · exact hChar
    · cases hFalse
  | escape hEscape hContent _ =>
    have h₁ := hEscape.two_le_length
    have h₂ := hContent.length_le
    rw [List.length_append, List.length_cons] at hLength
    omega
  | crlf hFalse => cases hFalse
  | fold hFalse => cases hFalse

theorem content_unescaped (h : ∀ c ∈ value, Unescaped c) : Content false value value := by
  induction value with
  | nil => exact .nil
  | cons c value ih =>
    obtain ⟨hHead, hTail⟩ := List.forall_mem_cons.mp h
    exact .char (Or.inl hHead) (ih hTail)

theorem newline_notMem_of_content (h : Content false raw value) : '\n' ∉ raw := by
  induction h with
  | nil => exact List.not_mem_nil
  | char hChar _ ih =>
    rw [List.mem_cons, not_or]
    refine ⟨?_, ih⟩
    rintro rfl
    rcases hChar with hChar | ⟨hFalse, _⟩
    · exact absurd hChar (by decide)
    · cases hFalse
  | escape hEscape _ ih =>
    rw [List.mem_append, not_or]
    exact ⟨fun hMem => absurd (hEscape.mem_escapeChars _ hMem) (by decide), ih⟩
  | crlf hFalse => cases hFalse
  | fold hFalse => cases hFalse

theorem idxOf_cons_le {rest : List Char} {n : Nat} (hPos : 0 < n)
    (h : mark ∈ value ∧ value.idxOf mark ≤ rest.idxOf mark) :
    mark ∈ c :: value ∧ (c :: value).idxOf mark ≤ n + rest.idxOf mark := by
  refine ⟨List.mem_cons_of_mem _ h.1, ?_⟩
  by_cases hEq : c = mark
  · rw [hEq, List.idxOf_cons_self]
    exact Nat.zero_le _
  · rw [List.idxOf_cons_ne _ hEq]
    have := h.2
    omega

/-- A character that no escape sequence is written with comes through, and not later. -/
theorem Content.idxOf_le (hEscapes : mark ∉ escapeChars) (hBlanks : mark ∉ blanks)
    (h : Content multiline raw value) (hMem : mark ∈ raw) :
    mark ∈ value ∧ value.idxOf mark ≤ raw.idxOf mark := by
  induction h with
  | nil => exact absurd hMem List.not_mem_nil
  | @char c raw value _ _ ih =>
    by_cases hEq : c = mark
    · subst hEq
      rw [List.idxOf_cons_self]
      exact ⟨List.mem_cons_self, Nat.zero_le _⟩
    · have hIdx : (c :: raw).idxOf mark = 1 + raw.idxOf mark := by
        rw [List.idxOf_cons_ne _ hEq, Nat.succ_eq_one_add]
      rw [hIdx]
      exact idxOf_cons_le Nat.one_pos (ih (List.mem_of_ne_of_mem (Ne.symm hEq) hMem))
  | @escape e raw value c hEscape _ ih =>
    have hNot : mark ∉ e := fun hMem => hEscapes (hEscape.mem_escapeChars _ hMem)
    have := hEscape.two_le_length
    rw [List.idxOf_append_of_notMem hNot]
    exact idxOf_cons_le (by omega) (ih ((List.mem_append.mp hMem).resolve_left hNot))
  | @crlf raw value _ _ ih =>
    have hAll : ['\r', '\n'] ⊆ blanks := by decide
    have hNot : mark ∉ ['\r', '\n'] := fun hMem => hBlanks (hAll hMem)
    rw [show '\r' :: '\n' :: raw = ['\r', '\n'] ++ raw from rfl] at hMem ⊢
    rw [List.idxOf_append_of_notMem hNot]
    exact idxOf_cons_le Nat.two_pos (ih ((List.mem_append.mp hMem).resolve_left hNot))
  | @fold gap raw value _ hGap _ ih =>
    have hNot : mark ∉ '\\' :: gap := by
      rw [List.mem_cons, not_or]
      exact ⟨fun hEq => hEscapes (hEq ▸ List.mem_cons_self), fun hMem => hBlanks (hGap _ hMem)⟩
    rw [List.idxOf_append_of_notMem hNot]
    obtain ⟨hValue, hLe⟩ := ih ((List.mem_append.mp hMem).resolve_left hNot)
    exact ⟨hValue, by omega⟩

end Lengths

section Quoted

variable {text raw literal rest word tail first more : List Char} {mark : Char}

/-- A literal of one line ends with the mark that closes the text, or before. -/
theorem unescaped_of_basic (h : Content false raw text)
    (hText : '"' :: raw ++ ['"'] ++ rest = '"' :: text ++ ['"'] ++ '\n' :: tail) :
    ∀ c ∈ text, Unescaped c := by
  rcases List.append_eq_append_iff.mp hText with ⟨after, hEq, _⟩ | ⟨more, hEq, hRest⟩
  · have hLength := congrArg List.length hEq
    simp only [List.length_append, List.length_cons, List.length_nil] at hLength
    exact (h.unescaped_of_length (by omega)).2
  · cases more with
    | nil =>
      have hLength := congrArg List.length hEq
      simp only [List.length_append, List.length_cons, List.length_nil] at hLength
      exact (h.unescaped_of_length (by omega)).2
    | cons c more =>
      obtain ⟨rfl, _⟩ := List.cons.inj hRest
      have hMem : '\n' ∈ '"' :: raw ++ ['"'] := by
        rw [hEq]
        exact List.mem_append_right _ List.mem_cons_self
      rw [List.mem_append, List.mem_cons, List.mem_singleton] at hMem
      rcases hMem with (hQuote | hMem) | hQuote
      · exact absurd hQuote (by decide)
      · exact absurd hMem (newline_notMem_of_content h)
      · exact absurd hQuote (by decide)

/-- What goes on to a later quotation mark has all characters before it. -/
theorem mark_mem_of_extends (hWord : '"' ∉ word) (hLast : '"' ∈ more)
    (hRest : word ++ mark :: tail = more ++ rest) : mark ∈ more := by
  rcases List.append_eq_append_iff.mp hRest with ⟨as, rfl, hTail⟩ | ⟨as, rfl, _⟩
  · cases as with
    | nil =>
      rw [List.append_nil] at hLast
      exact absurd hLast hWord
    | cons c as =>
      obtain ⟨rfl, _⟩ := List.cons.inj hTail
      exact List.mem_append_right _ List.mem_cons_self
  · exact absurd (List.mem_append_left _ hLast) hWord

theorem quote_mem_of_literal {quoted f : List Char} (hMore : more ≠ [])
    (hEq : f ++ ['"'] = quoted ++ more) : '"' ∈ more := by
  obtain ⟨init, last, rfl⟩ := List.eq_nil_or_concat' more |>.resolve_left hMore
  rw [← List.append_assoc] at hEq
  obtain ⟨_, hLast⟩ := List.append_inj' hEq rfl
  obtain rfl := (List.cons.inj hLast).1
  exact List.mem_append_right _ List.mem_cons_self

/-- A literal of several lines does not end with the text, and what it has of the text
comes too early. -/
theorem not_multiline_of_quoted (hEscapes : mark ∉ escapeChars) (hBlanks : mark ∉ blanks)
    (hWord : '"' ∉ word) (hFirst : first ∈ [[], ['\n'], ['\r', '\n']])
    (h : Content true raw text)
    (hText : quotes ++ first ++ raw ++ quotes ++ rest =
      '"' :: text ++ ['"'] ++ '\n' :: (word ++ mark :: tail)) : False := by
  have hLe := h.length_le
  rcases List.append_eq_append_iff.mp hText with ⟨after, hEq, _⟩ | ⟨more, hEq, hRest⟩
  · have hLength := congrArg List.length hEq
    simp only [quotes, List.length_append, List.length_cons, List.length_nil] at hLength
    omega
  · have hMore : more ≠ [] := by
      rintro rfl
      have hLength := congrArg List.length hEq
      simp only [quotes, List.length_append, List.length_cons, List.length_nil] at hLength
      omega
    have hQuote : '"' ∈ more := by
      apply quote_mem_of_literal (f := quotes ++ first ++ raw ++ ['"', '"']) hMore
      rw [← hEq, List.append_assoc]
      rfl
    have hMark : mark ∈ more := by
      have hWord' : '"' ∉ '\n' :: word := by
        rw [List.mem_cons, not_or]
        exact ⟨by decide, hWord⟩
      exact mark_mem_of_extends hWord' hQuote hRest
    have hQuotes : mark ∉ quotes := by
      have hAll : quotes ⊆ escapeChars := by decide
      exact fun hMem => hEscapes (hAll hMem)
    have hFront : mark ∉ quotes ++ first := by
      have hAll : ∀ first ∈ [[], ['\n'], ['\r', '\n']], first ⊆ blanks := by decide
      rw [List.mem_append, not_or]
      exact ⟨hQuotes, fun hMem => hBlanks (hAll _ hFirst hMem)⟩
    have hRaw : mark ∈ raw := by
      have hMem : mark ∈ quotes ++ first ++ raw ++ quotes := hEq ▸ List.mem_append_right _ hMark
      exact ((List.mem_append.mp ((List.mem_append.mp hMem).resolve_right hQuotes)).resolve_left
        hFront)
    obtain ⟨hValue, hIdx⟩ := h.idxOf_le hEscapes hBlanks hRaw
    have hNe : '"' ≠ mark := by
      rintro rfl
      exact hQuotes List.mem_cons_self
    have hIdxEq := congrArg (List.idxOf mark) hEq
    rw [List.append_assoc _ raw, List.idxOf_append_of_notMem hFront,
      List.idxOf_append_of_mem hRaw, List.append_assoc, List.cons_append,
      List.idxOf_cons_ne _ hNe, List.idxOf_append_of_mem hValue, List.length_append] at hIdxEq
    have : quotes.length = 3 := rfl
    omega

theorem unescaped_of_quoted (mark : Char) (word : List Char) (hEscapes : mark ∉ escapeChars)
    (hBlanks : mark ∉ blanks) (hWord : '"' ∉ word) (h : StringLiteral literal text)
    (hText : literal ++ rest = '"' :: text ++ ['"'] ++ '\n' :: (word ++ mark :: tail)) :
    ∀ c ∈ text, Unescaped c := by
  cases h with
  | basic h => exact unescaped_of_basic h hText
  | multiline hFirst h =>
    exact (not_multiline_of_quoted hEscapes hBlanks hWord hFirst h hText).elim

end Quoted

section Documents

def isBare (c : Char) : Bool := c.isAlphanum || c = '_' || c = '-'

def BareKey (key : String) : Prop := key.toList ≠ [] ∧ ∀ c ∈ key.toList, isBare c

instance (key : String) : Decidable (BareKey key) :=
  decidable_of_iff (key.toList ≠ [] ∧ key.toList.all isBare) (by rw [BareKey, List.all_eq_true])

def assign : List Char := [' ', '=', ' ']

/-- A key is defined at most once. -/
def define (key : String) (value : Value) (t : Table) : Option Table :=
  if (t key).isNone then some (Function.update t key (some value)) else none

inductive Simple : List Char → Value → Prop
  | string {text : List Char} (h : ∀ c ∈ text, Unescaped c) :
      Simple ('"' :: text ++ ['"']) (.string (.ofList text))
  | integer {n : Nat} (h : n < 2 ^ 63) : Simple (toString n).toList (.integer n)
  | boolean (b : Bool) : Simple (toString b).toList (.boolean b)

/-- A line at the start of a document adds its key to the table of the rest, which has no byte
order mark, and a key with a quotation mark after it has a string that is written there. -/
structure Documented (read : List Char → Option Table) : Prop where
  line {key : String} {literal rest : List Char} {value : Value} (hKey : BareKey key)
    (hValue : Simple literal value) (hRest : rest.head? ≠ some '\uFEFF') :
    read (key.toList ++ assign ++ literal ++ '\n' :: rest) = (read rest).bind (define key value)
  quoted {key : String} {text : List Char} {t : Table} (hKey : BareKey key)
    (hRead : read (key.toList ++ assign ++ '"' :: text) = some t) :
    ∃ literal value rest, t key = some (.string (.ofList value)) ∧ StringLiteral literal value ∧
      '"' :: text = literal ++ rest

theorem define_of_none {key : String} {t : Table} (h : t key = none) (value : Value) :
    define key value t = some (Function.update t key (some value)) := by
  rw [define, h]
  rfl

theorem BareKey.head?_ne {key : String} (hKey : BareKey key) (rest : List Char) :
    (key.toList ++ rest).head? ≠ some '\uFEFF' := by
  obtain ⟨c, cs, hChars⟩ := List.exists_cons_of_ne_nil hKey.1
  have hBare := hKey.2 c (hChars ▸ List.mem_cons_self)
  rw [hChars, List.cons_append, List.head?_cons]
  rintro hEq
  obtain rfl := Option.some.inj hEq
  exact absurd hBare (by decide)

/-- A line in front of a document that has not its key. -/
theorem Documented.read_line {read : List Char → Option Table} (hRead : Documented read)
    {key : String} {literal rest : List Char} {value : Value} {t : Table} (hKey : BareKey key)
    (hValue : Simple literal value) (hMark : rest.head? ≠ some '\uFEFF')
    (hRest : read rest = some t) (hNew : t key = none) :
    read (key.toList ++ assign ++ literal ++ '\n' :: rest) =
      some (Function.update t key (some value)) := by
  rw [hRead.line hKey hValue hMark, hRest, Option.bind_some, define_of_none hNew]

end Documents

section Lines

variable {other : List Char → Option Table} {key : String} {text literal rest : List Char}
  {value : Value}

def readWord (word : String) : Option Value :=
  if word = "true" then some (.boolean true)
  else if word = "false" then some (.boolean false)
  else
    match Decimal.fromStr (2 ^ 63) word with
    | .ok n => some (.integer n)
    | .error _ => none

def readValue : List Char → Option (Value × List Char)
  | '"' :: text =>
    match text.dropWhile (Unescaped ·) with
    | '"' :: '\n' :: rest => some (.string (.ofList (text.takeWhile (Unescaped ·))), rest)
    | _ => none
  | text =>
    match text.dropWhile (· ≠ '\n') with
    | _ :: rest => (readWord (.ofList (text.takeWhile (· ≠ '\n')))).map (·, rest)
    | [] => none

def readLine (text : List Char) : Option (String × Value × List Char) :=
  match text.takeWhile isBare, text.dropWhile isBare with
  | c :: cs, ' ' :: '=' :: ' ' :: rest =>
    (readValue rest).map fun found => (.ofList (c :: cs), found)
  | _, _ => none

theorem length_le_of_dropWhile {p : Char → Bool} {n : Nat} (h : text.dropWhile p = rest)
    (hLength : n ≤ rest.length) : n ≤ text.length :=
  Nat.le_trans (h ▸ hLength) (List.dropWhile_suffix p).length_le

theorem readValue_length {found : Value × List Char} (h : readValue text = some found) :
    found.2.length < text.length := by
  unfold readValue at h
  split at h
  · rename_i text
    split at h
    · rename_i rest hDrop
      cases h
      have := length_le_of_dropWhile hDrop (Nat.le_refl _)
      simp only [List.length_cons] at this ⊢
      omega
    · cases h
  · split at h
    · rename_i c rest hDrop
      obtain ⟨value, _, rfl⟩ := Option.map_eq_some_iff.mp h
      exact length_le_of_dropWhile hDrop (Nat.le_refl _)
    · cases h

theorem readLine_length {found : String × Value × List Char} (h : readLine text = some found) :
    found.2.2.length < text.length := by
  unfold readLine at h
  split at h
  · rename_i c cs rest _ hDrop
    obtain ⟨value, hValue, rfl⟩ := Option.map_eq_some_iff.mp h
    have := readValue_length hValue
    have := length_le_of_dropWhile hDrop (Nat.le_refl _)
    simp only [List.length_cons] at this ⊢
    omega
  · cases h

/-- The lines by themselves; what starts with another line is read as a whole. -/
def readWith (other : List Char → Option Table) (text : List Char) : Option Table :=
  match _h : readLine text with
  | some found => (readWith other found.2.2).bind (define found.1 found.2.1)
  | none => other text
termination_by text.length
decreasing_by exact readLine_length _h

theorem readWith_of_line {found : String × Value × List Char} (h : readLine text = some found) :
    readWith other text = (readWith other found.2.2).bind (define found.1 found.2.1) := by
  rw [readWith]
  split
  · rename_i found' hFound
    obtain rfl := Option.some.inj (h.symm.trans hFound)
    rfl
  · rename_i hNone
    cases h.symm.trans hNone

theorem readWith_of_none (h : readLine text = none) : readWith other text = other text := by
  rw [readWith]
  split
  · rename_i found hFound
    cases h.symm.trans hFound
  · rfl

theorem readLine_key (hKey : BareKey key) (text : List Char) :
    readLine (key.toList ++ assign ++ text) = (readValue text).map fun found => (key, found) := by
  obtain ⟨c, cs, hChars⟩ := List.exists_cons_of_ne_nil hKey.1
  have hTake : List.takeWhile isBare (assign ++ text) = [] := rfl
  have hDrop : List.dropWhile isBare (assign ++ text) = ' ' :: '=' :: ' ' :: text := rfl
  rw [readLine, List.append_assoc, List.takeWhile_append_of_pos hKey.2,
    List.dropWhile_append_of_pos hKey.2, hTake, hDrop, List.append_nil, hChars]
  have hKeyEq : key = .ofList (c :: cs) := by rw [← hChars, String.ofList_toList]
  rw [hKeyEq]
  rfl

theorem readWord_toString {n : Nat} (h : n < 2 ^ 63) :
    readWord (toString n) = some (.integer n) := by
  have hRead := Decimal.fromStr_toString h
  have hTrue : toString n ≠ "true" := by
    intro hEq
    rw [hEq] at hRead
    cases hRead
  have hFalse : toString n ≠ "false" := by
    intro hEq
    rw [hEq] at hRead
    cases hRead
  rw [readWord, if_neg hTrue, if_neg hFalse, hRead]

theorem readValue_word {word : List Char} (hQuote : word.head? ≠ some '"') (hLine : '\n' ∉ word) :
    readValue (word ++ '\n' :: rest) = (readWord (.ofList word)).map (·, rest) := by
  have hAll : ∀ c ∈ word, decide (c ≠ '\n') = true := fun c hMem =>
    decide_eq_true fun hEq => hLine (hEq ▸ hMem)
  unfold readValue
  split
  · rename_i text hText
    cases word with
    | nil => cases hText
    | cons c word =>
      obtain ⟨rfl, _⟩ := List.cons.inj hText
      exact absurd rfl hQuote
  · rw [List.dropWhile_append_of_pos hAll, List.takeWhile_append_of_pos hAll]
    simp

theorem readValue_simple (h : Simple literal value) (rest : List Char) :
    readValue (literal ++ '\n' :: rest) = some (value, rest) := by
  cases h with
  | @string text hText =>
    have hAll : ∀ c ∈ text, decide (Unescaped c) = true := fun c hMem =>
      decide_eq_true (hText c hMem)
    have hQuote : decide (Unescaped '"') = false := by decide
    rw [List.append_assoc, List.cons_append, readValue, List.dropWhile_append_of_pos hAll,
      List.takeWhile_append_of_pos hAll]
    simp [hQuote]
  | @integer n hBound =>
    have hDigits : ∀ c ∈ (toString n).toList, c.isDigit := by
      have hChars : (toString n).toList = Nat.toDigits 10 n := Nat.toList_repr
      rw [hChars]
      exact fun c hc => Nat.isDigit_of_mem_toDigits (by omega) (by omega) hc
    rw [readValue_word, String.ofList_toList, readWord_toString hBound, Option.map_some]
    · intro hHead
      exact absurd (hDigits _ (List.mem_of_head? hHead)) (by decide)
    · exact fun hMem => absurd (hDigits _ hMem) (by decide)
  | boolean b => cases b <;> rfl

theorem literal_of_readValue {found : Value × List Char}
    (h : readValue ('"' :: text) = some found) :
    ∃ literal value rest, found.1 = .string (.ofList value) ∧ StringLiteral literal value ∧
      '"' :: text = literal ++ rest := by
  rw [readValue] at h
  split at h
  · rename_i rest hDrop
    cases h
    have hText : ∀ c ∈ text.takeWhile (Unescaped ·), decide (Unescaped c) = true := fun _ hMem =>
      List.mem_takeWhile_imp (p := fun c => decide (Unescaped c)) hMem
    refine ⟨_, _, '\n' :: rest, rfl,
      .basic (content_unescaped fun c hMem => of_decide_eq_true (hText c hMem)), ?_⟩
    rw [List.append_assoc, List.cons_append]
    refine congrArg (List.cons '"') ?_
    rw [List.singleton_append, ← hDrop]
    exact (List.takeWhile_append_dropWhile).symm
  · cases h

/-- The reader of lines reads as documented where the other one has no string at its start. -/
theorem documented_readWith (hOther : ∀ key text, BareKey key →
      other (key.toList ++ assign ++ '"' :: text) = none) : Documented (readWith other) where
  line hKey hValue _ := by
    rw [List.append_assoc]
    rw [readWith_of_line (by rw [readLine_key hKey, readValue_simple hValue]; rfl)]
  quoted {key text t} hKey hRead := by
    cases hFound : readValue ('"' :: text) with
    | none =>
      rw [readWith_of_none (by rw [readLine_key hKey, hFound]; rfl), hOther _ _ hKey] at hRead
      cases hRead
    | some found =>
      obtain ⟨literal, value, rest, hValue, hLiteral, hText⟩ := literal_of_readValue hFound
      rw [readWith_of_line (by rw [readLine_key hKey, hFound]; rfl)] at hRead
      obtain ⟨t', _, hDefine⟩ := Option.bind_eq_some_iff.mp hRead
      refine ⟨literal, value, rest, ?_, hLiteral, hText⟩
      unfold define at hDefine
      split at hDefine
      · obtain rfl := Option.some.inj hDefine
        rw [Function.update_self, hValue]
      · cases hDefine

end Lines

end Toml
