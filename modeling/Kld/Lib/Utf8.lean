import Mathlib.Data.List.Basic

/-!
# Texts and their UTF-8 bytes

A text is read from bytes if they are well formed, and is then the only one that
they encode. Slices are taken at byte positions, which have to be boundaries of
characters; splitting at a character keeps every piece, also the empty ones. Bytes
that are no text can be read with replacement characters, which are not ASCII.
-/

namespace Utf8

def encode (s : String) : List UInt8 := s.toByteArray.data.toList

/-- Undefined where the bytes are not well formed. -/
def decode (bytes : List UInt8) : Option String := String.fromUTF8? ⟨bytes.toArray⟩

/-- The text from a byte position on; undefined, as the slice panics, unless that is a boundary. -/
def sliceFrom (n : Nat) (s : String) : Option String :=
  if n ≤ (encode s).length then decode ((encode s).drop n) else none

/-- Replaces a pattern that is not empty, from the left; the first characters, the rest of an
occurrence, are skipped. -/
def replaceFrom (pattern replacement : List Char) : Nat → List Char → List Char
  | _, [] => []
  | skip + 1, _ :: cs => replaceFrom pattern replacement skip cs
  | 0, c :: cs =>
    if pattern.isPrefixOf (c :: cs) then
      replacement ++ replaceFrom pattern replacement (pattern.length - 1) cs
    else c :: replaceFrom pattern replacement 0 cs

def replace (pattern replacement s : String) : String :=
  .ofList (replaceFrom pattern.toList replacement.toList 0 s.toList)

/-- The pieces between the occurrences of a pattern that is not empty, found from the left. -/
def splitFrom (pattern : List Char) : Nat → List Char → List (List Char)
  | _, [] => [[]]
  | skip + 1, _ :: cs => splitFrom pattern skip cs
  | 0, c :: cs =>
    if pattern.isPrefixOf (c :: cs) then [] :: splitFrom pattern (pattern.length - 1) cs
    else (splitFrom pattern 0 cs).modifyHead (c :: ·)

def isContinuation (b : UInt8) : Bool := 0x80 ≤ b && b ≤ 0xBF

/-- Whether a first byte of three or four can be followed by the second. -/
def startsLong (first second : UInt8) : Bool :=
  if first = 0xE0 then 0xA0 ≤ second && second ≤ 0xBF
  else if first = 0xED then 0x80 ≤ second && second ≤ 0x9F
  else if first = 0xF0 then 0x90 ≤ second && second ≤ 0xBF
  else if first = 0xF4 then 0x80 ≤ second && second ≤ 0x8F
  else 0xE1 ≤ first && first ≤ 0xF3 && isContinuation second

/-- How many bytes are replaced together where no character starts. -/
def invalidLength : List UInt8 → Nat
  | first :: second :: rest =>
    if startsLong first second then
      if 0xF0 ≤ first ∧ (rest.head?.any isContinuation) then 3 else 2
    else 1
  | _ => 1

/-- The characters, and one replacement character for each run of bytes that is none. -/
def decodeLossy : List UInt8 → List Char
  | [] => []
  | b :: bytes =>
    match (b :: bytes).toByteArray.utf8DecodeChar? 0 with
    | some c => c :: decodeLossy (bytes.drop (c.utf8Size - 1))
    | none => '\uFFFD' :: decodeLossy (bytes.drop (invalidLength (b :: bytes) - 1))
termination_by bytes => bytes.length
decreasing_by all_goals simp only [List.length_drop, List.length_cons]; omega

def fromUtf8Lossy (bytes : List UInt8) : String := .ofList (decodeLossy bytes)

def split (sep : Char) (s : String) : List String := (s.toList.splitOn sep).map String.ofList

theorem splitFrom_skip (pattern skipped rest : List Char) :
    splitFrom pattern skipped.length (skipped ++ rest) = splitFrom pattern 0 rest := by
  induction skipped with
  | nil => rfl
  | cons c skipped ih => exact ih

theorem splitFrom_append {first : Char} {pattern part : List Char} (hPart : first ∉ part)
    (rest : List Char) :
    splitFrom (first :: pattern) 0 (part ++ (first :: pattern ++ rest)) =
      part :: splitFrom (first :: pattern) 0 rest := by
  induction part with
  | nil =>
    have hPrefix : (first :: pattern).isPrefixOf (first :: (pattern ++ rest)) :=
      List.isPrefixOf_iff_prefix.mpr (List.prefix_append (first :: pattern) rest)
    rw [List.nil_append, List.cons_append, splitFrom, if_pos hPrefix]
    exact congrArg _ (splitFrom_skip (first :: pattern) pattern rest)
  | cons c part ih =>
    have hNot : ¬ (first :: pattern).isPrefixOf (c :: (part ++ (first :: pattern ++ rest))) := by
      rw [List.isPrefixOf_iff_prefix, List.cons_prefix_cons]
      rintro ⟨rfl, _⟩
      exact hPart List.mem_cons_self
    rw [List.cons_append, splitFrom, if_neg hNot,
      ih fun hMem => hPart (List.mem_cons_of_mem c hMem)]
    rfl

theorem splitFrom_of_not_infix {pattern part : List Char} (h : ¬ pattern <:+: part) :
    splitFrom pattern 0 part = [part] := by
  induction part with
  | nil => rfl
  | cons c part ih =>
    have hNot : ¬ pattern.isPrefixOf (c :: part) := fun hPrefix =>
      h (List.isPrefixOf_iff_prefix.mp hPrefix).isInfix
    rw [splitFrom, if_neg hNot, ih fun hInfix => h (List.infix_cons hInfix)]
    rfl

@[simp] theorem encode_append (s t : String) : encode (s ++ t) = encode s ++ encode t := by
  simp [encode]

theorem encode_injective {s t : String} (h : encode s = encode t) : s = t := by
  rw [← String.toByteArray_inj]
  exact ByteArray.ext (Array.toList_inj.mp h)

theorem decode_eq_some_iff {bytes : List UInt8} {s : String} :
    decode bytes = some s ↔ encode s = bytes := by
  unfold decode String.fromUTF8?
  split
  · rename_i hValid
    rw [Option.some_inj]
    constructor
    · rintro rfl
      rfl
    · exact fun h => encode_injective h.symm
  · rename_i hInvalid
    refine iff_of_false nofun ?_
    rintro rfl
    exact hInvalid s.isValidUTF8

@[simp] theorem decode_encode (s : String) : decode (encode s) = some s :=
  decode_eq_some_iff.mpr rfl

theorem sliceFrom_append (s t : String) : sliceFrom (encode s).length (s ++ t) = some t := by
  rw [sliceFrom, encode_append, if_pos (by simp), List.drop_left, decode_encode]

/-- Well-formed bytes that start like a text are that text and another one. -/
theorem exists_append_of_prefix {p s : String} (h : encode p <+: encode s) :
    ∃ t, s = p ++ t := by
  obtain ⟨rest, hRest⟩ := h
  have hBytes : p.toList.utf8Encode ++ ⟨rest.toArray⟩ = s.toList.utf8Encode := by
    rw [String.utf8Encode_toList, String.utf8Encode_toList]
    apply ByteArray.ext
    rw [ByteArray.data_append]
    exact Array.toList_inj.mp (by simpa [encode] using hRest)
  obtain ⟨cs, hChars⟩ := List.isPrefix_of_utf8Encode_append_eq_utf8Encode _ hBytes
  refine ⟨.ofList cs, String.toList_injective ?_⟩
  rw [String.toList_append, String.toList_ofList, hChars]

theorem split_intercalate {sep : Char} {parts : List String} (hParts : parts ≠ [])
    (hSep : ∀ part ∈ parts, sep ∉ part.toList) :
    split sep ((String.singleton sep).intercalate parts) = parts := by
  have hNoSep : ∀ cs ∈ parts.map String.toList, sep ∉ cs := by
    intro cs hcs
    obtain ⟨part, hPart, rfl⟩ := List.mem_map.mp hcs
    exact hSep part hPart
  rw [split, String.toList_intercalate, String.toList_singleton,
    List.splitOn_intercalate sep hNoSep (by simpa using hParts), List.map_map,
    String.ofList_comp_toList, List.map_id]

/-- Parts that are joined keep their own lines. -/
theorem splitOn_intercalate_flatMap {sep : Char} {parts : List String} (hParts : parts ≠ []) :
    ((String.singleton sep).intercalate parts).toList.splitOn sep =
      parts.flatMap fun part => part.toList.splitOn sep := by
  rw [String.toList_intercalate, String.toList_singleton]
  induction parts with
  | nil => exact absurd rfl hParts
  | cons part parts ih =>
    cases parts with
    | nil => simp
    | cons next parts =>
      have hCons : [sep].intercalate ((part :: next :: parts).map String.toList) =
          part.toList ++ sep :: [sep].intercalate ((next :: parts).map String.toList) := by
        simp [List.intercalate]
      rw [hCons, List.splitOn_append_cons_self, ih (List.cons_ne_nil _ _)]
      rfl

theorem intercalate_split (sep : Char) (s : String) :
    (String.singleton sep).intercalate (split sep s) = s := by
  apply String.toList_injective
  rw [String.toList_intercalate, split, List.map_map, String.toList_comp_ofList, List.map_id,
    String.toList_singleton, List.intercalate_splitOn]

theorem notMem_splitOn {α : Type*} [DecidableEq α] (sep : α) (xs : List α) :
    ∀ ys ∈ xs.splitOn sep, sep ∉ ys := by
  induction xs with
  | nil => simp
  | cons x xs ih =>
    rw [List.splitOn_cons_eq_if_modifyHead]
    split
    · intro ys hys
      rcases List.mem_cons.mp hys with rfl | hys
      · exact List.not_mem_nil
      · exact ih ys hys
    · rename_i hNe
      obtain ⟨y, rest, hSplit⟩ := List.exists_cons_of_ne_nil (List.splitOn_ne_nil sep xs)
      rw [hSplit] at ih ⊢
      intro ys hys
      rcases List.mem_cons.mp hys with rfl | hys
      · rw [List.mem_cons, not_or]
        exact ⟨fun h => hNe (by simp [h]), ih y List.mem_cons_self⟩
      · exact ih ys (List.mem_cons_of_mem _ hys)

theorem notMem_of_mem_split {sep : Char} {s part : String} (h : part ∈ split sep s) :
    sep ∉ part.toList := by
  obtain ⟨cs, hcs, rfl⟩ := List.mem_map.mp h
  rw [String.toList_ofList]
  exact notMem_splitOn sep s.toList cs hcs

theorem replaceFrom_skip (pattern replacement front cs : List Char) :
    replaceFrom pattern replacement front.length (front ++ cs) =
      replaceFrom pattern replacement 0 cs := by
  induction front with
  | nil => rfl
  | cons c front ih => rw [List.length_cons, List.cons_append, replaceFrom, ih]

/-- An occurrence of the pattern is replaced, if its first character does not occur before. -/
theorem replaceFrom_append {c : Char} {front : List Char} (hFront : c ∉ front)
    (pattern replacement cs : List Char) :
    replaceFrom (c :: pattern) replacement 0 (front ++ (c :: pattern ++ cs)) =
      front ++ replacement ++ replaceFrom (c :: pattern) replacement 0 cs := by
  induction front with
  | nil =>
    have hPrefix : (c :: pattern).isPrefixOf (c :: (pattern ++ cs)) = true :=
      List.isPrefixOf_iff_prefix.mpr ⟨cs, rfl⟩
    rw [List.nil_append, List.cons_append, replaceFrom, if_pos hPrefix, List.length_cons,
      Nat.add_sub_cancel, replaceFrom_skip, List.nil_append]
  | cons d front ih =>
    obtain ⟨hNe, hFront⟩ := not_or.mp (mt List.mem_cons.mpr hFront)
    have hPrefix : (c :: pattern).isPrefixOf (d :: (front ++ (c :: pattern ++ cs))) = false := by
      simp [List.isPrefixOf, hNe]
    rw [List.cons_append, replaceFrom, hPrefix, if_neg Bool.false_ne_true, ih hFront,
      List.cons_append, List.cons_append]

theorem encode_ofList (cs : List Char) :
    encode (.ofList cs) = cs.flatMap String.utf8EncodeChar := by
  rw [encode, String.toByteArray_ofList, List.utf8Encode, List.toList_data_toByteArray]

/-- Characters of one byte are written as themselves. -/
theorem mem_encode_of_ascii {s : String} (hAscii : ∀ c ∈ s.toList, c.utf8Size = 1) {b : UInt8}
    (h : b ∈ encode s) : ∃ c ∈ s.toList, b = c.val.toUInt8 := by
  rw [← String.ofList_toList (s := s), encode_ofList, List.mem_flatMap] at h
  obtain ⟨c, hMem, hByte⟩ := h
  rw [String.utf8EncodeChar_eq_singleton (hAscii c hMem), List.mem_singleton] at hByte
  exact ⟨c, hMem, hByte⟩

theorem decodeChar_encode (c : Char) (bytes : List UInt8) :
    (String.utf8EncodeChar c ++ bytes).toByteArray.utf8DecodeChar? 0 = some c := by
  rw [List.toByteArray_append, ByteArray.utf8DecodeChar?_utf8EncodeChar_append]

theorem decodeChar_eq_some {b : UInt8} {bytes : List UInt8} {c : Char}
    (h : (b :: bytes).toByteArray.utf8DecodeChar? 0 = some c) :
    b :: bytes = String.utf8EncodeChar c ++ bytes.drop (c.utf8Size - 1) := by
  obtain ⟨rest, hRest⟩ := ByteArray.exists_of_utf8DecodeChar?_eq_some h
  have hBytes : b :: bytes = String.utf8EncodeChar c ++ rest.data.toList := by
    simpa [List.toList_data_toByteArray] using congrArg (·.data.toList) hRest
  have hDrop := congrArg (List.drop c.utf8Size) hBytes
  rw [← String.length_utf8EncodeChar, List.drop_left, String.length_utf8EncodeChar,
    ← Nat.succ_pred_eq_of_pos c.utf8Size_pos, List.drop_succ_cons] at hDrop
  rw [hBytes, ← hDrop]
  rfl

theorem decodeLossy_append (c : Char) (bytes : List UInt8) :
    decodeLossy (String.utf8EncodeChar c ++ bytes) = c :: decodeLossy bytes := by
  have hLength := String.length_utf8EncodeChar c
  have hPos := c.utf8Size_pos
  have hDecode := decodeChar_encode c bytes
  cases hChar : String.utf8EncodeChar c with
  | nil =>
    rw [hChar, List.length_nil] at hLength
    omega
  | cons b front =>
    rw [hChar, List.cons_append] at hDecode
    rw [hChar, List.length_cons] at hLength
    rw [List.cons_append, decodeLossy, hDecode]
    dsimp only
    rw [← hLength, Nat.add_sub_cancel, List.drop_left]

/-- Text that was written is read back. -/
theorem decodeLossy_flatMap (cs : List Char) :
    decodeLossy (cs.flatMap String.utf8EncodeChar) = cs := by
  induction cs with
  | nil => rw [List.flatMap_nil, decodeLossy]
  | cons c cs ih => rw [List.flatMap_cons, decodeLossy_append, ih]

@[simp] theorem fromUtf8Lossy_encode (s : String) : fromUtf8Lossy (encode s) = s := by
  rw [fromUtf8Lossy, ← String.ofList_toList (s := s), encode_ofList, decodeLossy_flatMap]

theorem encode_fromUtf8Lossy (bytes : List UInt8) :
    encode (fromUtf8Lossy bytes) = (decodeLossy bytes).flatMap String.utf8EncodeChar :=
  encode_ofList _

def asciiCount (bytes : List UInt8) : Nat := bytes.countP (· < 0x80)

@[simp] theorem asciiCount_append (xs ys : List UInt8) :
    asciiCount (xs ++ ys) = asciiCount xs + asciiCount ys :=
  List.countP_append

theorem asciiCount_cons (b : UInt8) (bytes : List UInt8) :
    asciiCount (b :: bytes) = asciiCount [b] + asciiCount bytes :=
  asciiCount_append [b] bytes

theorem asciiCount_drop_le (n : Nat) (bytes : List UInt8) :
    asciiCount (bytes.drop n) ≤ asciiCount bytes :=
  (List.drop_sublist n bytes).countP_le

/-- Bytes that are replaced are none of an ASCII character. -/
theorem asciiCount_decodeLossy_le (bytes : List UInt8) :
    asciiCount ((decodeLossy bytes).flatMap String.utf8EncodeChar) ≤ asciiCount bytes := by
  induction bytes using decodeLossy.induct with
  | case1 => simp [decodeLossy]
  | case2 b bytes c hDecode ih =>
    rw [decodeLossy, hDecode]
    dsimp only
    rw [List.flatMap_cons, asciiCount_append, decodeChar_eq_some hDecode, asciiCount_append]
    omega
  | case3 b bytes hDecode ih =>
    rw [decodeLossy, hDecode]
    dsimp only
    rw [List.flatMap_cons, asciiCount_append]
    have hReplaced : asciiCount (String.utf8EncodeChar '\uFFFD') = 0 := by decide
    rw [hReplaced, Nat.zero_add]
    calc
      _ ≤ asciiCount (bytes.drop (invalidLength (b :: bytes) - 1)) := ih
      _ ≤ asciiCount bytes := asciiCount_drop_le _ _
      _ ≤ asciiCount (b :: bytes) := by rw [asciiCount_cons]; omega

theorem asciiCount_fromUtf8Lossy_le (bytes : List UInt8) :
    asciiCount (encode (fromUtf8Lossy bytes)) ≤ asciiCount bytes := by
  rw [encode_fromUtf8Lossy]
  exact asciiCount_decodeLossy_le bytes

end Utf8
