import Kld.Lib.Utf8
import Mathlib.Data.List.DropRight

/-!
# Query strings

Pairs of texts are written with all but a few characters escaped, and read back by
splitting and unescaping. What is read of bytes that were not written so has no
more ASCII characters than they have, which bounds what a raw text can decode to.
-/

namespace FormUrlencoded

open Utf8

def hexDigit (n : Nat) : UInt8 := .ofNat (if n < 10 then 48 + n else 55 + n)

def hexValue (b : UInt8) : Option Nat :=
  if 48 ≤ b ∧ b ≤ 57 then some (b.toNat - 48)
  else if 65 ≤ b ∧ b ≤ 70 then some (b.toNat - 55)
  else if 97 ≤ b ∧ b ≤ 102 then some (b.toNat - 87)
  else none

def escape (b : UInt8) : List UInt8 := [37, hexDigit (b.toNat / 16), hexDigit (b.toNat % 16)]

/-- Escapes some of the bytes; the percent sign need not be one of them. -/
def percentEncode (escaped : UInt8 → Bool) (bytes : List UInt8) : List UInt8 :=
  bytes.flatMap fun b => if escaped b then escape b else [b]

def percentDecode : List UInt8 → List UInt8
  | [] => []
  | b :: rest =>
    if b = 37 then
      match rest with
      | high :: low :: rest' =>
        match hexValue high, hexValue low with
        | some x, some y => .ofNat (16 * x + y) :: percentDecode rest'
        | _, _ => b :: percentDecode (high :: low :: rest')
      | rest => b :: percentDecode rest
    else b :: percentDecode rest
termination_by structural bytes => bytes

/-- The bytes that stand for themselves in a part of a pair. -/
def isPlain (b : UInt8) : Bool :=
  b = 42 || b = 45 || b = 46 || b = 95 || (48 ≤ b && b ≤ 57) || (65 ≤ b && b ≤ 90) ||
    (97 ≤ b && b ≤ 122)

def byteSerialize (bytes : List UInt8) : List UInt8 :=
  bytes.flatMap fun b => if isPlain b then [b] else if b = 32 then [43] else escape b

def serializePair (pair : String × String) : List UInt8 :=
  byteSerialize (encode pair.1) ++ 61 :: byteSerialize (encode pair.2)

def serialize (pairs : List (String × String)) : List UInt8 :=
  [38].intercalate (pairs.map serializePair)

def plusToSpace (bytes : List UInt8) : List UInt8 :=
  bytes.map fun b => if b = 43 then 32 else b

def decodePart (bytes : List UInt8) : String :=
  fromUtf8Lossy (percentDecode (plusToSpace bytes))

/-- The name ends at the first equals sign; without one the value is empty. -/
def parsePair (piece : List UInt8) : String × String :=
  (decodePart (piece.takeWhile (· ≠ 61)), decodePart ((piece.dropWhile (· ≠ 61)).drop 1))

def parse (query : List UInt8) : List (String × String) :=
  ((query.splitOn 38).filter fun piece => !piece.isEmpty).map parsePair

/-- What a URL parser escapes in a query: controls, spaces, `"`, `#`, `'`, `<`, `>` and what is not
ASCII. -/
def isQueryEscaped (b : UInt8) : Bool :=
  b ≤ 32 || 127 ≤ b || b = 34 || b = 35 || b = 39 || b = 60 || b = 62

/-- A URL ends before the spaces and controls at the end of the input and before the fragment;
tabs and line breaks are dropped. -/
def trimUrl (input : List UInt8) : List UInt8 :=
  ((input.rdropWhile (· ≤ 32)).filter fun b => b ≠ 9 ∧ b ≠ 10 ∧ b ≠ 13).takeWhile (· ≠ 35)

def urlQuery (input : List UInt8) : Option (List UInt8) :=
  match (trimUrl input).dropWhile (· ≠ 63) with
  | [] => none
  | _ :: query => some (percentEncode isQueryEscaped query)

theorem hexValue_hexDigit {n : Nat} (h : n < 16) : hexValue (hexDigit n) = some n := by
  have hAll : ∀ n : Fin 16, hexValue (hexDigit n) = some n.val := by decide
  exact hAll ⟨n, h⟩

theorem percentDecode_cons_of_ne {b : UInt8} (h : b ≠ 37) (rest : List UInt8) :
    percentDecode (b :: rest) = b :: percentDecode rest := by
  rw [percentDecode.eq_def]
  exact if_neg h

theorem percentDecode_of_notMem {bytes : List UInt8} (h : (37 : UInt8) ∉ bytes) :
    percentDecode bytes = bytes := by
  induction bytes with
  | nil => rfl
  | cons b rest ih =>
    obtain ⟨hNe, hRest⟩ := not_or.mp (mt List.mem_cons.mpr h)
    rw [percentDecode_cons_of_ne (Ne.symm hNe), ih hRest]

theorem percentDecode_escape (b : UInt8) (rest : List UInt8) :
    percentDecode (escape b ++ rest) = b :: percentDecode rest := by
  have hHigh : b.toNat / 16 < 16 := by have := b.toNat_lt; omega
  have hLow : b.toNat % 16 < 16 := Nat.mod_lt _ (by decide)
  rw [escape, List.cons_append, List.cons_append, List.cons_append, List.nil_append,
    percentDecode, if_pos rfl, hexValue_hexDigit hHigh, hexValue_hexDigit hLow]
  dsimp only
  rw [Nat.div_add_mod, UInt8.ofNat_toNat]

@[simp] theorem byteSerialize_cons (b : UInt8) (bytes : List UInt8) :
    byteSerialize (b :: bytes) =
      (if isPlain b then [b] else if b = 32 then [43] else escape b) ++ byteSerialize bytes :=
  List.flatMap_cons

@[simp] theorem plusToSpace_append (xs ys : List UInt8) :
    plusToSpace (xs ++ ys) = plusToSpace xs ++ plusToSpace ys :=
  List.map_append

theorem isPlain_hexDigit {n : Nat} (h : n < 16) : isPlain (hexDigit n) = true := by
  have hAll : ∀ n : Fin 16, isPlain (hexDigit n) = true := by decide
  exact hAll ⟨n, h⟩

theorem ne_of_isPlain {b c : UInt8} (hb : isPlain b = true) (hc : isPlain c = false) : b ≠ c := by
  rintro rfl
  rw [hb] at hc
  cases hc

theorem plusToSpace_escape (b : UInt8) : plusToSpace (escape b) = escape b := by
  have hHigh : b.toNat / 16 < 16 := by have := b.toNat_lt; omega
  have hLow : b.toNat % 16 < 16 := Nat.mod_lt _ (by decide)
  have hHigh' := ne_of_isPlain (c := 43) (isPlain_hexDigit hHigh) (by decide)
  have hLow' := ne_of_isPlain (c := 43) (isPlain_hexDigit hLow) (by decide)
  simp [plusToSpace, escape, hHigh', hLow']

theorem percentDecode_byteSerialize (bytes : List UInt8) :
    percentDecode (plusToSpace (byteSerialize bytes)) = bytes := by
  induction bytes with
  | nil => rfl
  | cons b bytes ih =>
    rw [byteSerialize_cons, plusToSpace_append]
    split
    · rename_i hPlain
      have hPlus := ne_of_isPlain (c := 43) hPlain (by decide)
      have hPercent := ne_of_isPlain (c := 37) hPlain (by decide)
      rw [plusToSpace, List.map_singleton, if_neg hPlus, List.singleton_append,
        percentDecode_cons_of_ne hPercent, ih]
    · split
      · rename_i hSpace
        rw [hSpace, plusToSpace, List.map_singleton, if_pos rfl, List.singleton_append,
          percentDecode_cons_of_ne (by decide), ih]
      · rw [plusToSpace_escape, percentDecode_escape, ih]

@[simp] theorem decodePart_byteSerialize (s : String) :
    decodePart (byteSerialize (encode s)) = s := by
  rw [decodePart, percentDecode_byteSerialize, fromUtf8Lossy_encode]

theorem notMem_escape {c : UInt8} (hPlain : isPlain c = false) (hPercent : c ≠ 37) (b : UInt8) :
    c ∉ escape b := by
  have hHigh : b.toNat / 16 < 16 := by have := b.toNat_lt; omega
  have hLow : b.toNat % 16 < 16 := Nat.mod_lt _ (by decide)
  have hHigh' := ne_of_isPlain (isPlain_hexDigit hHigh) hPlain
  have hLow' := ne_of_isPlain (isPlain_hexDigit hLow) hPlain
  simp only [escape, List.mem_cons, List.not_mem_nil, or_false, not_or]
  exact ⟨hPercent, hHigh'.symm, hLow'.symm⟩

theorem notMem_byteSerialize {c : UInt8} (hPlain : isPlain c = false) (hPlus : c ≠ 43)
    (hPercent : c ≠ 37) (bytes : List UInt8) : c ∉ byteSerialize bytes := by
  induction bytes with
  | nil => exact List.not_mem_nil
  | cons b bytes ih =>
    rw [byteSerialize_cons, List.mem_append, not_or]
    refine ⟨?_, ih⟩
    split
    · rename_i hb
      rw [List.mem_singleton]
      exact (ne_of_isPlain hb hPlain).symm
    · split
      · rw [List.mem_singleton]
        exact hPlus
      · exact notMem_escape hPlain hPercent b

theorem notMem_percentEncode {c : UInt8} (hPlain : isPlain c = false) (hPercent : c ≠ 37)
    {bytes : List UInt8} (h : c ∉ bytes) (escaped : UInt8 → Bool) :
    c ∉ percentEncode escaped bytes := by
  intro hMem
  obtain ⟨b, hb, hMem⟩ := List.mem_flatMap.mp hMem
  split at hMem
  · exact notMem_escape hPlain hPercent b hMem
  · rw [List.mem_singleton.mp hMem] at h
    exact h hb

theorem parsePair_serializePair (pair : String × String) :
    parsePair (serializePair pair) = pair := by
  have hName : ∀ b ∈ byteSerialize (encode pair.1), (decide (b ≠ 61)) = true := by
    intro b hb
    refine decide_eq_true ?_
    rintro rfl
    exact notMem_byteSerialize (by decide) (by decide) (by decide) _ hb
  rw [parsePair, serializePair, List.takeWhile_append_of_pos hName,
    List.dropWhile_append_of_pos hName]
  simp

theorem parse_of_notMem {query : List UInt8} (hAnd : (38 : UInt8) ∉ query)
    (hEq : (61 : UInt8) ∉ query) :
    parse query = if query.isEmpty then [] else [(decodePart query, "")] := by
  have hPieces : ([38].intercalate [query]).splitOn 38 = [query] :=
    List.splitOn_intercalate 38 (by simpa using hAnd) (by simp)
  rw [List.intercalate_singleton] at hPieces
  have hName : ∀ b ∈ query, decide (b ≠ 61) = true := by
    intro b hb
    refine decide_eq_true ?_
    rintro rfl
    exact hEq hb
  have hPair : parsePair query = (decodePart query, "") := by
    rw [parsePair, List.takeWhile_eq_self_iff.mpr hName, List.dropWhile_eq_nil_iff.mpr hName]
    exact congrArg _ (decodePart_byteSerialize "")
  rw [parse, hPieces]
  cases query with
  | nil => rfl
  | cons b query => simpa using hPair

theorem parse_serialize (pairs : List (String × String)) : parse (serialize pairs) = pairs := by
  rw [parse, serialize]
  cases pairs with
  | nil => rfl
  | cons pair pairs =>
    have hNoSep : ∀ piece ∈ (pair :: pairs).map serializePair, (38 : UInt8) ∉ piece := by
      intro piece hPiece
      obtain ⟨pair, _, rfl⟩ := List.mem_map.mp hPiece
      have hPart : ∀ s, (38 : UInt8) ∉ byteSerialize (encode s) := fun s =>
        notMem_byteSerialize (by decide) (by decide) (by decide) _
      simp [serializePair, hPart]
    rw [List.splitOn_intercalate 38 hNoSep (by simp), List.filter_eq_self.mpr, List.map_map]
    · rw [show parsePair ∘ serializePair = id from funext parsePair_serializePair, List.map_id]
    · intro piece hPiece
      obtain ⟨pair, _, rfl⟩ := List.mem_map.mp hPiece
      simp [serializePair]

/-- Whether the two bytes after a percent sign are a number. -/
def StartsEscape : List UInt8 → Prop
  | high :: low :: _ => hexValue high ≠ none ∧ hexValue low ≠ none
  | _ => False

theorem percentDecode_escaped {high low : UInt8} {x y : Nat} (hHigh : hexValue high = some x)
    (hLow : hexValue low = some y) (rest : List UInt8) :
    percentDecode (37 :: high :: low :: rest) = .ofNat (16 * x + y) :: percentDecode rest := by
  rw [percentDecode, if_pos rfl, hHigh, hLow]

theorem percentDecode_percent {rest : List UInt8} (h : ¬ StartsEscape rest) :
    percentDecode (37 :: rest) = 37 :: percentDecode rest := by
  rw [percentDecode.eq_def]
  dsimp only
  rw [if_pos rfl]
  split
  · split
    · rename_i hHigh hLow
      exact absurd ⟨by simp [hHigh], by simp [hLow]⟩ h
    · rfl
  · rfl

/-- Bytes are read from the left: an escape, a percent sign that starts none, or another byte. -/
theorem percentDecode_induction {motive : List UInt8 → Prop} (nil : motive [])
    (escaped : ∀ high low rest x y, hexValue high = some x → hexValue low = some y →
      motive rest → motive (37 :: high :: low :: rest))
    (percent : ∀ rest, ¬ StartsEscape rest → motive rest → motive (37 :: rest))
    (other : ∀ b rest, b ≠ 37 → motive rest → motive (b :: rest)) (bytes : List UInt8) :
    motive bytes := by
  induction bytes using percentDecode.induct with
  | case1 => exact nil
  | case2 high low rest x y hLow hHigh ih => exact escaped high low rest x y hHigh hLow ih
  | case3 high low rest hNot ih =>
    refine percent _ (fun hStarts => ?_) ih
    obtain ⟨x, hx⟩ := Option.ne_none_iff_exists'.mp hStarts.1
    obtain ⟨y, hy⟩ := Option.ne_none_iff_exists'.mp hStarts.2
    exact hNot x y hx hy
  | case4 rest hNot ih =>
    refine percent _ ?_ ih
    match rest with
    | [] => exact id
    | [_] => exact id
    | _ :: _ :: _ => exact absurd rfl (hNot _ _ _)
  | case5 b rest hb ih => exact other b rest hb ih

theorem not_startsEscape_append {sep : UInt8} (hSep : hexValue sep = none) {xs : List UInt8}
    (h : ¬ StartsEscape xs) (ys : List UInt8) : ¬ StartsEscape (xs ++ sep :: ys) := by
  match xs, h with
  | [], _ =>
    cases ys with
    | nil => exact id
    | cons y ys => exact fun hStarts => hStarts.1 hSep
  | [_], _ => exact fun hStarts => hStarts.2 hSep
  | _ :: _ :: _, h => exact h

/-- A byte that is in no escape separates what is decoded. -/
theorem percentDecode_append_cons {sep : UInt8} (hSep : hexValue sep = none) (hNe : sep ≠ 37)
    (xs ys : List UInt8) :
    percentDecode (xs ++ sep :: ys) = percentDecode xs ++ sep :: percentDecode ys := by
  induction xs using percentDecode_induction with
  | nil => exact percentDecode_cons_of_ne hNe ys
  | escaped high low rest x y hHigh hLow ih =>
    rw [List.cons_append, List.cons_append, List.cons_append, percentDecode_escaped hHigh hLow,
      percentDecode_escaped hHigh hLow, ih, List.cons_append]
  | percent rest hStarts ih =>
    rw [List.cons_append, percentDecode_percent (not_startsEscape_append hSep hStarts ys),
      percentDecode_percent hStarts, ih, List.cons_append]
  | other b rest hb ih =>
    rw [List.cons_append, percentDecode_cons_of_ne hb, percentDecode_cons_of_ne hb, ih,
      List.cons_append]

/-- The number of ASCII characters after decoding. -/
def decodedCount (bytes : List UInt8) : Nat := asciiCount (percentDecode bytes)

theorem ne_of_hexValue {b : UInt8} {c : UInt8} {x : Nat} (hb : hexValue b = some x)
    (hc : hexValue c = none) : b ≠ c := by
  rintro rfl
  rw [hb] at hc
  cases hc

theorem hexValue_plusToSpace (b : UInt8) :
    hexValue (if b = 43 then 32 else b) = hexValue b := by
  split
  · rename_i hb
    rw [hb]
    rfl
  · rfl

theorem startsEscape_plusToSpace {bytes : List UInt8} :
    StartsEscape (plusToSpace bytes) ↔ StartsEscape bytes := by
  match bytes with
  | [] => exact Iff.rfl
  | [_] => exact Iff.rfl
  | high :: low :: rest =>
    rw [plusToSpace, List.map_cons, List.map_cons, StartsEscape, hexValue_plusToSpace,
      hexValue_plusToSpace, StartsEscape]

theorem decodedCount_plusToSpace (bytes : List UInt8) :
    decodedCount (plusToSpace bytes) = decodedCount bytes := by
  have hCons : ∀ b bytes, plusToSpace (b :: bytes) =
      (if b = 43 then 32 else b) :: plusToSpace bytes := fun _ _ => rfl
  unfold decodedCount
  induction bytes using percentDecode_induction with
  | nil => rfl
  | escaped high low rest x y hHigh hLow ih =>
    have hHigh' := ne_of_hexValue (c := 43) hHigh rfl
    have hLow' := ne_of_hexValue (c := 43) hLow rfl
    rw [hCons, hCons, hCons, if_neg (by decide), if_neg hHigh', if_neg hLow',
      percentDecode_escaped hHigh hLow, percentDecode_escaped hHigh hLow, asciiCount_cons, ih,
      ← asciiCount_cons]
  | percent rest hStarts ih =>
    rw [hCons, if_neg (by decide), percentDecode_percent (mt startsEscape_plusToSpace.mp hStarts),
      percentDecode_percent hStarts, asciiCount_cons, ih, ← asciiCount_cons]
  | other b rest hb ih =>
    have hb' : (if b = 43 then 32 else b) ≠ 37 := by split; decide; exact hb
    have hCount : asciiCount [if b = 43 then 32 else b] = asciiCount [b] := by
      split
      · rename_i hPlus
        rw [hPlus]
        rfl
      · rfl
    rw [hCons, percentDecode_cons_of_ne hb', percentDecode_cons_of_ne hb, asciiCount_cons, ih,
      hCount, ← asciiCount_cons]

theorem decodedCount_cons_le (b : UInt8) (bytes : List UInt8) :
    decodedCount (b :: bytes) ≤ asciiCount [b] + decodedCount bytes := by
  unfold decodedCount
  by_cases hb : b = 37
  · subst hb
    by_cases hStarts : StartsEscape bytes
    · match bytes, hStarts with
      | high :: low :: rest, hStarts => 
        obtain ⟨x, hx⟩ := Option.ne_none_iff_exists'.mp hStarts.1
        obtain ⟨y, hy⟩ := Option.ne_none_iff_exists'.mp hStarts.2
        rw [percentDecode_escaped hx hy, asciiCount_cons,
          percentDecode_cons_of_ne (ne_of_hexValue hx rfl),
          percentDecode_cons_of_ne (ne_of_hexValue hy rfl), asciiCount_cons high,
          asciiCount_cons low]
        have hOne : asciiCount [UInt8.ofNat (16 * x + y)] ≤ 1 := List.countP_le_length
        have hPercent : asciiCount [(37 : UInt8)] = 1 := rfl
        omega
    · rw [percentDecode_percent hStarts, asciiCount_cons]
  · rw [percentDecode_cons_of_ne hb, asciiCount_cons]

theorem decodedCount_append_cons {sep : UInt8} (hSep : hexValue sep = none) (hNe : sep ≠ 37)
    (xs ys : List UInt8) :
    decodedCount (xs ++ sep :: ys) = decodedCount xs + asciiCount [sep] + decodedCount ys := by
  rw [decodedCount, percentDecode_append_cons hSep hNe, asciiCount_append, asciiCount_cons,
    Nat.add_assoc]
  rfl

theorem decodedCount_le_intercalate {sep : UInt8} (hSep : hexValue sep = none) (hNe : sep ≠ 37)
    {pieces : List (List UInt8)} {piece : List UInt8} (h : piece ∈ pieces) :
    decodedCount piece ≤ decodedCount ([sep].intercalate pieces) := by
  induction pieces with
  | nil => cases h
  | cons first rest ih =>
    cases rest with
    | nil =>
      rw [List.mem_singleton.mp h, List.intercalate_singleton]
    | cons second rest =>
      rw [List.intercalate_cons_cons, List.append_assoc, List.singleton_append,
        decodedCount_append_cons hSep hNe]
      rcases List.mem_cons.mp h with rfl | h
      · omega
      · have hRest := ih h
        omega

/-- Writing some bytes as escapes adds no characters to what is decoded. -/
theorem decodedCount_percentEncode_le (escaped : UInt8 → Bool) (bytes : List UInt8) :
    decodedCount (percentEncode escaped bytes) ≤ asciiCount bytes := by
  induction bytes with
  | nil => exact Nat.le_refl _
  | cons b bytes ih =>
    rw [percentEncode, List.flatMap_cons, asciiCount_cons]
    split
    · rw [decodedCount, percentDecode_escape, asciiCount_cons]
      exact Nat.add_le_add_left ih _
    · exact Nat.le_trans (decodedCount_cons_le b _) (Nat.add_le_add_left ih _)

theorem asciiCount_decodePart_le (bytes : List UInt8) :
    asciiCount (encode (decodePart bytes)) ≤ decodedCount bytes :=
  calc
    asciiCount (encode (decodePart bytes))
      ≤ asciiCount (percentDecode (plusToSpace bytes)) := asciiCount_fromUtf8Lossy_le _
    _ = decodedCount bytes := decodedCount_plusToSpace bytes

/-- A pair with a value is read from as many characters as it has and an equals sign. -/
theorem asciiCount_parsePair_lt {piece : List UInt8} (h : (parsePair piece).2 ≠ "") :
    asciiCount (encode (parsePair piece).1) + asciiCount (encode (parsePair piece).2) <
      decodedCount piece := by
  have hPiece := List.takeWhile_append_dropWhile (p := (· ≠ 61)) (l := piece)
  cases hRest : piece.dropWhile (· ≠ 61) with
  | nil =>
    rw [parsePair, hRest] at h
    exact absurd (decodePart_byteSerialize "") h
  | cons b value =>
    have hb : b = 61 := by
      have hHead := List.head?_dropWhile_not (· ≠ 61) piece
      rw [hRest] at hHead
      simpa using hHead
    rw [hRest, hb] at hPiece
    have hCount := decodedCount_append_cons (show hexValue 61 = none from rfl) (by decide)
      (piece.takeWhile (· ≠ 61)) value
    rw [hPiece] at hCount
    have hName := asciiCount_decodePart_le (piece.takeWhile (· ≠ 61))
    have hValue := asciiCount_decodePart_le value
    have hSep : asciiCount [(61 : UInt8)] = 1 := rfl
    rw [parsePair, hRest, List.drop_succ_cons, List.drop_zero]
    dsimp only
    omega

theorem asciiCount_lt_of_mem_parse {name value : String} {query : List UInt8}
    (h : (name, value) ∈ parse query) (hValue : value ≠ "") :
    asciiCount (encode name) + asciiCount (encode value) < decodedCount query := by
  obtain ⟨piece, hPiece, hPair⟩ := List.mem_map.mp h
  have hSplit := List.mem_of_mem_filter hPiece
  have hNonempty : (parsePair piece).2 ≠ "" := by
    rw [hPair]
    exact hValue
  have hLt := asciiCount_parsePair_lt hNonempty
  rw [hPair] at hLt
  have hLe := decodedCount_le_intercalate (show hexValue 38 = none from rfl) (by decide) hSplit
  rw [List.intercalate_splitOn] at hLe
  exact Nat.lt_of_lt_of_le hLt hLe

theorem asciiCount_trimUrl_le (input : List UInt8) :
    asciiCount (trimUrl input) ≤ asciiCount input := by
  have hTrimmed := List.rdropWhile_prefix (· ≤ 32) input
  refine List.Sublist.countP_le ?_
  exact (List.takeWhile_sublist _).trans (List.filter_sublist.trans hTrimmed.sublist)

theorem mem_of_mem_trimUrl {b : UInt8} {input : List UInt8} (h : b ∈ trimUrl input) :
    b ∈ input := by
  have hTrimmed := List.rdropWhile_prefix (· ≤ 32) input
  exact hTrimmed.subset (List.mem_of_mem_filter ((List.takeWhile_sublist _).subset h))

theorem rdropWhile_append_cons {p : UInt8 → Bool} {b : UInt8} (hb : p b = false)
    (xs ys : List UInt8) : (xs ++ b :: ys).rdropWhile p = xs ++ b :: ys.rdropWhile p := by
  simp only [List.rdropWhile, List.reverse_append, List.reverse_cons, List.append_assoc,
    List.singleton_append, List.dropWhile_append]
  split
  · rename_i hEmpty
    simp [List.isEmpty_iff.mp hEmpty, hb]
  · simp

theorem trimUrl_append {path : List UInt8} (hPath : ∀ b ∈ path, 32 < b ∧ b ≠ 35)
    (text : List UInt8) : trimUrl (path ++ 63 :: text) = path ++ 63 :: trimUrl text := by
  have hKept : ∀ b ∈ path, decide (b ≠ 9 ∧ b ≠ 10 ∧ b ≠ 13) = true := by
    intro b hb
    refine decide_eq_true ⟨?_, ?_, ?_⟩ <;> rintro rfl <;> exact absurd (hPath _ hb).1 (by decide)
  have hNoFragment : ∀ b ∈ path, decide (b ≠ 35) = true := fun b hb =>
    decide_eq_true (hPath b hb).2
  rw [trimUrl, rdropWhile_append_cons (by decide), List.filter_append,
    List.filter_eq_self.mpr hKept, List.filter_cons_of_pos (by decide),
    List.takeWhile_append_of_pos hNoFragment, List.takeWhile_cons_of_pos (by decide)]
  rfl

theorem urlQuery_append {path : List UInt8} (hPath : ∀ b ∈ path, 32 < b ∧ b ≠ 35 ∧ b ≠ 63)
    (text : List UInt8) :
    urlQuery (path ++ 63 :: text) = some (percentEncode isQueryEscaped (trimUrl text)) := by
  have hNoQuery : ∀ b ∈ path, decide (b ≠ 63) = true := fun b hb =>
    decide_eq_true (hPath b hb).2.2
  rw [urlQuery, trimUrl_append fun b hb => ⟨(hPath b hb).1, (hPath b hb).2.1⟩,
    List.dropWhile_append_of_pos hNoQuery, List.dropWhile_cons_of_neg (by decide)]

/-- A text put into a URL as it is cannot be read back as the value of a pair. -/
theorem notMem_parse_trimUrl (name text : String) (hText : text ≠ "") :
    (name, text) ∉ parse (percentEncode isQueryEscaped (trimUrl (encode text))) := by
  intro hMem
  have hLt := asciiCount_lt_of_mem_parse hMem hText
  have hEncode := decodedCount_percentEncode_le isQueryEscaped (trimUrl (encode text))
  have hTrim := asciiCount_trimUrl_le (encode text)
  omega

end FormUrlencoded
