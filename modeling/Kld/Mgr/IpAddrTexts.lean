import Mathlib.Data.List.Induction
import Kld.Mgr.IpAddr

/-!
# Addresses are read back from their texts

A number is read as far as its digits go. The text of an IPv6 address is the groups
before the zeros that are left out, and those after them.
-/

namespace Kld.Pki.IpAddr

section Numbers

variable {radix : Nat}

def fromDigits (radix : Nat) (digits : List Nat) : Nat :=
  digits.foldl (fun value digit => radix * value + digit) 0

theorem fromDigits_concat (digits : List Nat) (digit : Nat) :
    fromDigits radix (digits ++ [digit]) = radix * fromDigits radix digits + digit :=
  List.foldl_append

theorem toDigit_digitChar {digit : Nat} (hRadix : radix ≤ 16) (hDigit : digit < radix) :
    toDigit radix (Nat.digitChar digit) = some digit := by
  have hAll : ∀ d : Fin 16, toDigit 16 (Nat.digitChar d) = some d.val := by decide
  have hSome := hAll ⟨digit, by omega⟩
  rw [toDigit, Option.filter_eq_some_iff] at hSome ⊢
  exact ⟨hSome.1, decide_eq_true hDigit⟩

theorem toDigit_eq_none {c : Char} (hRadix : radix ≤ 16) (h : toDigit 16 c = none) :
    toDigit radix c = none := by
  rw [toDigit, Option.filter_eq_none_iff] at h ⊢
  intro digit hDigit hLt
  exact h digit hDigit (decide_eq_true (Nat.lt_of_lt_of_le (of_decide_eq_true hLt) hRadix))

/-- The digits of a number, and what they are read as. -/
theorem map_toDigits (hRadix : 1 < radix) (hLe : radix ≤ 16) (n : Nat) :
    ∃ digits, (Nat.toDigits radix n).map (toDigit radix) = digits.map some ∧
      fromDigits radix digits = n := by
  induction n using Nat.strongRecOn with
  | ind n ih =>
    rcases Nat.lt_or_ge n radix with hLt | hGe
    · refine ⟨[n], ?_, by simp [fromDigits]⟩
      rw [Nat.toDigits_of_lt_base hLt, List.map_singleton, toDigit_digitChar hLe hLt,
        List.map_singleton]
    · obtain ⟨digits, hMap, hValue⟩ := ih (n / radix) (Nat.div_lt_self (by omega) hRadix)
      have hLast : n % radix < radix := Nat.mod_lt _ (by omega)
      refine ⟨digits ++ [n % radix], ?_, ?_⟩
      · rw [Nat.toDigits_of_base_le hRadix hGe, List.map_append, hMap, List.map_singleton,
          toDigit_digitChar hLe hLast, List.map_append, List.map_singleton]
      · rw [fromDigits_concat, hValue]
        exact Nat.div_add_mod n radix

theorem head_toDigits (hRadix : 1 < radix) (hLe : radix ≤ 16) {n : Nat} (hn : n ≠ 0) :
    (Nat.toDigits radix n).head? ≠ some '0' := by
  induction n using Nat.strongRecOn with
  | ind n ih =>
    rcases Nat.lt_or_ge n radix with hLt | hGe
    · rw [Nat.toDigits_of_lt_base hLt, List.head?_cons]
      intro hZero
      have hDigit := toDigit_digitChar hLe hLt
      rw [Option.some.inj hZero] at hDigit
      have hNull : toDigit radix '0' = some 0 := @toDigit_digitChar radix 0 hLe (by omega)
      exact hn (Option.some.inj (hDigit.symm.trans hNull))
    · rw [Nat.toDigits_of_base_le hRadix hGe, List.head?_append_of_ne_nil _ Nat.toDigits_ne_nil]
      refine ih (n / radix) (Nat.div_lt_self (by omega) hRadix) ?_
      exact Nat.ne_of_gt (Nat.div_pos hGe (by omega))

/-- No digit comes next. -/
def NoDigit (radix : Nat) (rest : List Char) : Prop :=
  ∀ c, rest.head? = some c → toDigit radix c = none

theorem takeWhile_isSome {α : Type} (xs : List α) {rest : List (Option α)}
    (hRest : ∀ x, rest.head? = some x → x = none) :
    (xs.map some ++ rest).takeWhile Option.isSome = xs.map some := by
  induction xs with
  | nil =>
    cases rest with
    | nil => rfl
    | cons x rest =>
      rw [hRest x rfl]
      rfl
  | cons x xs ih => rw [List.map_cons, List.cons_append, List.takeWhile_cons_of_pos rfl, ih]

/-- What is written without leading zeros is read, if no digit follows. -/
theorem readNumber_toDigits (hRadix : 1 < radix) (hLe : radix ≤ 16) {maxDigits bound n : Nat}
    (hLength : (Nat.toDigits radix n).length ≤ maxDigits) (hBound : n < bound)
    (allowZeroPrefix : Bool) {rest : List Char}
    (hRest : NoDigit radix rest) :
    readNumber radix maxDigits bound allowZeroPrefix (Nat.toDigits radix n ++ rest) =
      some (n, rest) := by
  obtain ⟨digits, hMap, hValue⟩ := map_toDigits hRadix hLe n
  have hTake : ((Nat.toDigits radix n ++ rest).map (toDigit radix)).takeWhile Option.isSome =
      digits.map some := by
    rw [List.map_append, hMap]
    refine takeWhile_isSome digits fun x hx => ?_
    rw [List.head?_map, Option.map_eq_some_iff] at hx
    obtain ⟨c, hc, rfl⟩ := hx
    exact hRest c hc
  have hSame : (digits.map some).length = (Nat.toDigits radix n).length := by
    rw [← hMap, List.length_map]
  have hPos : 0 < (Nat.toDigits radix n).length := Nat.length_toDigits_pos
  have hZero : ¬ ((Nat.toDigits radix n ++ rest).head? = some '0' ∧
      1 < (Nat.toDigits radix n).length) := by
    rintro ⟨hHead, hLong⟩
    rw [List.head?_append_of_ne_nil _ Nat.toDigits_ne_nil] at hHead
    rcases Nat.eq_zero_or_pos n with rfl | hn
    · rw [Nat.toDigits_zero] at hLong
      exact absurd hLong (by decide)
    · exact head_toDigits hRadix hLe (by omega) hHead
  have hFold : ((digits.map some).filterMap id).foldl
      (fun value digit => radix * value + digit) 0 = n := by
    rw [List.filterMap_map, Function.id_comp, List.filterMap_some]
    exact hValue
  unfold readNumber
  simp only [hTake, hFold, hSame, List.drop_left]
  refine if_neg ?_
  rintro (hEmpty | hMany | hLarge | ⟨_, hPrefix⟩)
  · omega
  · omega
  · omega
  · exact hZero hPrefix

end Numbers

theorem readSeparator_cons {α : Type} (separator : Char) {index : Nat} (hIndex : index ≠ 0)
    (inner : Reader α) (cs : List Char) :
    readSeparator separator index inner (separator :: cs) = inner cs := by
  rw [readSeparator, if_neg hIndex, List.head?_cons, if_pos rfl, List.tail_cons]

section Ipv4

theorem noDigit_dot (rest : List Char) : NoDigit 10 ('.' :: rest) := by
  rintro c ⟨⟩
  rfl

theorem readOctet_toDigits {n : Nat} (hn : n < 256) {rest : List Char} (hRest : NoDigit 10 rest) :
    readOctet (Nat.toDigits 10 n ++ rest) = some (n, rest) :=
  readNumber_toDigits (by decide) (by decide)
    ((Nat.length_toDigits_le_iff (by decide) (by decide)).mpr (by omega)) hn false hRest

theorem readOctet_dot {n : Nat} (hn : n < 256) {index : Nat} (hIndex : index ≠ 0)
    {rest : List Char} (hRest : NoDigit 10 rest) :
    readSeparator '.' index readOctet ('.' :: (Nat.toDigits 10 n ++ rest)) = some (n, rest) := by
  rw [readSeparator_cons '.' hIndex]
  exact readOctet_toDigits hn hRest

theorem readIpv4Addr_octets {a b c d : Nat} (ha : a < 256) (hb : b < 256) (hc : c < 256)
    (hd : d < 256) {rest : List Char} (hRest : NoDigit 10 rest) :
    readIpv4Addr (Nat.toDigits 10 a ++ '.' :: (Nat.toDigits 10 b ++ '.' ::
      (Nat.toDigits 10 c ++ '.' :: (Nat.toDigits 10 d ++ rest)))) =
        some ((256 * a + b, 256 * c + d), rest) := by
  unfold readIpv4Addr
  rw [readSeparator, if_pos rfl, readOctet_toDigits ha (noDigit_dot _)]
  simp only [Option.bind_eq_bind, Option.bind_some]
  rw [readOctet_dot hb (by decide) (noDigit_dot _), Option.bind_some,
    readOctet_dot hc (by decide) (noDigit_dot _), Option.bind_some,
    readOctet_dot hd (by decide) hRest]
  rfl

theorem toList_ipv4ToText (bits : Nat) :
    (ipv4ToText bits).toList = Nat.toDigits 10 (bits / 256 ^ 3 % 256) ++ '.' ::
      (Nat.toDigits 10 (bits / 256 ^ 2 % 256) ++ '.' :: (Nat.toDigits 10 (bits / 256 ^ 1 % 256) ++
        '.' :: Nat.toDigits 10 (bits / 256 ^ 0 % 256))) := by
  have hDigits : digitsOf 256 4 bits = [bits / 256 ^ 3 % 256, bits / 256 ^ 2 % 256,
      bits / 256 ^ 1 % 256, bits / 256 ^ 0 % 256] := rfl
  rw [ipv4ToText, hDigits, String.toList_intercalate]
  simp [List.intercalate]

theorem readIpv4Addr_toText (bits : Nat) {rest : List Char} (hRest : NoDigit 10 rest) :
    readIpv4Addr ((ipv4ToText bits).toList ++ rest) =
      some ((bits / 65536 % 65536, bits % 65536), rest) := by
  have hByte : ∀ i, bits / 256 ^ i % 256 < 256 := fun i => Nat.mod_lt _ (by decide)
  rw [toList_ipv4ToText]
  simp only [List.append_assoc, List.cons_append]
  rw [readIpv4Addr_octets (hByte 3) (hByte 2) (hByte 1) (hByte 0) hRest]
  have hHigh : 256 * (bits / 256 ^ 3 % 256) + bits / 256 ^ 2 % 256 = bits / 65536 % 65536 := by
    omega
  have hLow : 256 * (bits / 256 ^ 1 % 256) + bits / 256 ^ 0 % 256 = bits % 65536 := by
    omega
  rw [hHigh, hLow]

end Ipv4

section Groups

/-- Neither a group nor an IPv4 address comes next, also not after a colon. -/
structure Stops (rest : List Char) : Prop where
  noDigit : NoDigit 16 rest
  noDot : rest.head? ≠ some '.'
  noGroup : rest.head? = some ':' → rest.tail.head? = some ':'

theorem stops_colons (rest : List Char) : Stops (':' :: ':' :: rest) where
  noDigit := by
    rintro c ⟨⟩
    rfl
  noDot := by simp
  noGroup _ := rfl

def separated (groups : List Nat) : List Char :=
  groups.flatMap fun group => ':' :: Nat.toDigits 16 group

theorem toList_fmtSubslice (group : Nat) (groups : List Nat) :
    (fmtSubslice (group :: groups)).toList = Nat.toDigits 16 group ++ separated groups := by
  rw [fmtSubslice, String.toList_intercalate]
  induction groups generalizing group with
  | nil => simp [separated, List.intercalate]
  | cons next groups ih =>
    have hNext := ih next
    simp only [List.map_cons, List.intercalate, List.intersperse_cons_cons, List.flatten_cons,
      String.toList_ofList] at hNext ⊢
    rw [hNext]
    simp [separated]

theorem noDigit_ten {rest : List Char} (h : NoDigit 16 rest) : NoDigit 10 rest := fun c hc =>
  toDigit_eq_none (by decide) (h c hc)

theorem readNumber_noDigit {radix : Nat} (maxDigits bound : Nat) (allowZeroPrefix : Bool)
    {cs : List Char} (h : NoDigit radix cs) :
    readNumber radix maxDigits bound allowZeroPrefix cs = none := by
  have hNone : ((cs.map (toDigit radix)).takeWhile Option.isSome) = [] := by
    cases cs with
    | nil => rfl
    | cons c cs =>
      rw [List.map_cons, h c rfl]
      rfl
  unfold readNumber
  simp [hNone]

theorem readIpv4Addr_noDigit {cs : List Char} (h : NoDigit 10 cs) : readIpv4Addr cs = none := by
  rw [readIpv4Addr, readSeparator, if_pos rfl, readOctet, readNumber_noDigit 3 256 false h]
  rfl

theorem readNumber_rest {radix maxDigits bound : Nat} {allowZeroPrefix : Bool} {cs rest : List Char}
    {value : Nat} (h : readNumber radix maxDigits bound allowZeroPrefix cs = some (value, rest)) :
    rest = cs.dropWhile fun c => (toDigit radix c).isSome := by
  have hDrop : cs.drop ((cs.map (toDigit radix)).takeWhile Option.isSome).length =
      cs.dropWhile fun c => (toDigit radix c).isSome := by
    have hLeft := @List.drop_left _ (cs.takeWhile fun c => (toDigit radix c).isSome)
      (cs.dropWhile fun c => (toDigit radix c).isSome)
    rw [List.takeWhile_append_dropWhile] at hLeft
    rw [List.takeWhile_map, List.length_map]
    exact hLeft
  unfold readNumber at h
  simp only at h
  split at h
  · cases h
  · rw [hDrop] at h
    cases h
    rfl

theorem head_dropWhile {α : Type} {p : α → Bool} {xs rest : List α} {x : α}
    (h : ((xs ++ rest).dropWhile p).head? = some x) :
    x ∈ xs ∨ (rest.dropWhile p).head? = some x := by
  induction xs with
  | nil => exact Or.inr h
  | cons y ys ih =>
    rw [List.cons_append, List.dropWhile_cons] at h
    split at h
    · exact (ih h).imp_left (List.mem_cons_of_mem y)
    · rw [List.head?_cons] at h
      exact Or.inl (Option.some.inj h ▸ List.mem_cons_self)

theorem isSome_of_mem_toDigits {n : Nat} {c : Char} (h : c ∈ Nat.toDigits 16 n) :
    (toDigit 16 c).isSome := by
  obtain ⟨digits, hMap, _⟩ := @map_toDigits 16 (by decide) (by decide) n
  have hMem : toDigit 16 c ∈ digits.map some := hMap ▸ List.mem_map_of_mem h
  obtain ⟨digit, _, hDigit⟩ := List.mem_map.mp hMem
  rw [← hDigit]
  rfl

/-- What starts with a group that no dot follows is no IPv4 address. -/
theorem readIpv4Addr_group (group : Nat) {rest : List Char} (hRest : NoDigit 16 rest)
    (hDot : rest.head? ≠ some '.') : readIpv4Addr (Nat.toDigits 16 group ++ rest) = none := by
  have hNot : ∀ first rest', readOctet (Nat.toDigits 16 group ++ rest) = some (first, rest') →
      rest'.head? ≠ some '.' := by
    intro first rest' hOctet hHead
    rw [readNumber_rest hOctet] at hHead
    rcases head_dropWhile hHead with hMem | hHead
    · exact absurd (isSome_of_mem_toDigits hMem) (by decide)
    · cases rest with
      | nil => cases hHead
      | cons c rest =>
        rw [List.dropWhile_cons, noDigit_ten hRest c rfl] at hHead
        exact hDot hHead
  rw [readIpv4Addr, readSeparator, if_pos rfl]
  cases hOctet : readOctet (Nat.toDigits 16 group ++ rest) with
  | none => rfl
  | some read =>
    obtain ⟨first, rest'⟩ := read
    simp only [Option.bind_eq_bind, Option.bind_some]
    rw [readSeparator, if_neg (by decide), if_neg (hNot first rest' hOctet)]
    rfl

theorem readSeparator_stops {α : Type} (index : Nat) {inner : Reader α} {rest : List Char}
    (h : Stops rest) (hInner : ∀ cs, NoDigit 16 cs → inner cs = none) :
    readSeparator ':' index inner rest = none := by
  rw [readSeparator]
  split
  · exact hInner rest h.noDigit
  · split
    · rename_i hColon
      refine hInner rest.tail fun c hc => ?_
      rw [h.noGroup hColon] at hc
      cases hc
      rfl
    · rfl

theorem readGroups_stops (left index : Nat) {rest : List Char} (h : Stops rest) :
    readGroups left index rest = ([], false, rest) := by
  have hAddress := readSeparator_stops index h fun cs hcs =>
    readIpv4Addr_noDigit (noDigit_ten hcs)
  have hGroup := readSeparator_stops index h fun cs hcs =>
    readNumber_noDigit 4 65536 true hcs
  cases left with
  | zero => rfl
  | succ left => rw [readGroups, hAddress, hGroup, ite_self]

theorem readNumber_group {group : Nat} (hGroup : group < 65536) {rest : List Char}
    (hRest : NoDigit 16 rest) :
    readNumber 16 4 65536 true (Nat.toDigits 16 group ++ rest) = some (group, rest) :=
  readNumber_toDigits (by decide) (by decide)
    ((Nat.length_toDigits_le_iff (by decide) (by decide)).mpr (by omega)) hGroup true hRest

theorem separated_stops (groups : List Nat) {rest : List Char} (h : Stops rest) :
    NoDigit 16 (separated groups ++ rest) ∧ (separated groups ++ rest).head? ≠ some '.' := by
  cases groups with
  | nil => exact ⟨h.noDigit, h.noDot⟩
  | cons group groups =>
    refine ⟨?_, by simp [separated]⟩
    rintro c ⟨⟩
    rfl

theorem readGroups_separated {groups : List Nat} (hGroups : ∀ group ∈ groups, group < 65536)
    {left index : Nat} (hLeft : groups.length ≤ left) (hIndex : index ≠ 0) {rest : List Char}
    (h : Stops rest) :
    readGroups left index (separated groups ++ rest) = (groups, false, rest) := by
  induction groups generalizing left index with
  | nil => exact readGroups_stops left index h
  | cons group groups ih =>
    obtain ⟨left, rfl⟩ : ∃ n, left = n + 1 := ⟨left - 1, by rw [List.length_cons] at hLeft; omega⟩
    obtain ⟨hGroup, hGroups⟩ := List.forall_mem_cons.mp hGroups
    obtain ⟨hDigit, hDot⟩ := separated_stops groups h
    have hText : separated (group :: groups) ++ rest =
        ':' :: (Nat.toDigits 16 group ++ (separated groups ++ rest)) := by
      simp [separated]
    rw [hText, readGroups, readSeparator_cons ':' hIndex, readSeparator_cons ':' hIndex,
      readIpv4Addr_group group hDigit hDot, ite_self, readNumber_group hGroup hDigit]
    dsimp only
    rw [ih hGroups (Nat.le_of_succ_le_succ hLeft) (Nat.succ_ne_zero index)]

theorem readGroups_fmtSubslice (groups : List Nat) (left : Nat)
    (hGroups : ∀ group ∈ groups, group < 65536) (hLeft : groups.length ≤ left)
    {rest : List Char} (h : Stops rest) :
    readGroups left 0 ((fmtSubslice groups).toList ++ rest) = (groups, false, rest) := by
  cases groups with
  | nil => exact readGroups_stops left 0 h
  | cons group groups =>
    obtain ⟨left, rfl⟩ : ∃ n, left = n + 1 := ⟨left - 1, by rw [List.length_cons] at hLeft; omega⟩
    obtain ⟨hGroup, hGroups⟩ := List.forall_mem_cons.mp hGroups
    obtain ⟨hDigit, hDot⟩ := separated_stops groups h
    rw [toList_fmtSubslice, List.append_assoc, readGroups, readSeparator, if_pos rfl,
      readSeparator, if_pos rfl, readIpv4Addr_group group hDigit hDot, ite_self,
      readNumber_group hGroup hDigit]
    dsimp only
    rw [readGroups_separated hGroups (Nat.le_of_succ_le_succ hLeft) (by decide) h]

end Groups

section Zeros

variable {segments : List Nat}

/-- A run of zeros among the first `i` segments. -/
structure ZeroRun (segments : List Nat) (i : Nat) (span : Span) : Prop where
  le : span.start + span.len ≤ i
  zero : ∀ j, span.start ≤ j → j < span.start + span.len → segments[j]? = some 0

def zeroStep (spans : Span × Span) (segment : Nat × Nat) : Span × Span :=
  if segment.1 = 0 then
    let current : Span :=
      ⟨if spans.2.len = 0 then segment.2 else spans.2.start, spans.2.len + 1⟩
    (if spans.1.len < current.len then current else spans.1, current)
  else (spans.1, ⟨0, 0⟩)

theorem longestZeros_eq :
    longestZeros segments = (segments.zipIdx.foldl zeroStep (⟨0, 0⟩, ⟨0, 0⟩)).1 := rfl

/-- The longest run so far, and the run that ends here. -/
structure Spans (segments : List Nat) (i : Nat) (spans : Span × Span) : Prop where
  longest : ZeroRun segments i spans.1
  current : ZeroRun segments i spans.2
  ends : spans.2.len = 0 ∨ spans.2.start + spans.2.len = i

theorem ZeroRun.mono {i : Nat} {span : Span} (h : ZeroRun segments i span) :
    ZeroRun segments (i + 1) span := ⟨Nat.le_succ_of_le h.le, h.zero⟩

theorem zeroRun_empty (i : Nat) : ZeroRun segments i ⟨0, 0⟩ :=
  ⟨Nat.zero_le i, fun j _ hj => absurd hj (Nat.not_lt_zero j)⟩

theorem ZeroRun.extend {i : Nat} {span : Span} (h : ZeroRun segments i span)
    (hEnds : span.len = 0 ∨ span.start + span.len = i) (hZero : segments[i]? = some 0) :
    ZeroRun segments (i + 1) ⟨if span.len = 0 then i else span.start, span.len + 1⟩ := by
  obtain ⟨start, len⟩ := span
  dsimp only at hEnds ⊢
  split
  · rename_i hLen
    subst hLen
    refine ⟨Nat.le_refl _, fun j hStart hj => ?_⟩
    obtain rfl : j = i := by dsimp only at hStart hj; omega
    exact hZero
  · rename_i hLen
    have hEnd : start + len = i := hEnds.resolve_left hLen
    refine ⟨by dsimp only; omega, fun j hStart hj => ?_⟩
    dsimp only at hStart hj
    by_cases hLast : j = i
    · rwa [hLast]
    · exact h.zero j hStart (by dsimp only; omega)

theorem Spans.step {i segment : Nat} {spans : Span × Span} (h : Spans segments i spans)
    (hSegment : segments[i]? = some segment) :
    Spans segments (i + 1) (zeroStep spans (segment, i)) := by
  unfold zeroStep
  split
  · rename_i hZero
    obtain rfl : segment = 0 := hZero
    have hExtended := h.current.extend h.ends hSegment
    refine ⟨?_, hExtended, Or.inr ?_⟩
    · dsimp only
      split
      · exact hExtended
      · exact h.longest.mono
    · have hEnds := h.ends
      dsimp only
      split <;> omega
  · exact ⟨h.longest.mono, zeroRun_empty _, Or.inl rfl⟩

theorem spans_foldl {rest : List Nat} {i : Nat} {spans : Span × Span} (h : Spans segments i spans)
    (hRest : segments.drop i = rest) :
    Spans segments (i + rest.length) ((rest.zipIdx i).foldl zeroStep spans) := by
  induction rest generalizing i spans with
  | nil => exact h
  | cons segment rest ih =>
    have hSegment : segments[i]? = some segment := by
      rw [← List.head?_drop, hRest, List.head?_cons]
    have hDrop : segments.drop (i + 1) = rest := by
      rw [← List.tail_drop, hRest, List.tail_cons]
    have hFold := ih (h.step hSegment) hDrop
    rw [List.length_cons, ← Nat.add_assoc, Nat.add_right_comm]
    exact hFold

theorem longestZeros_spec (segments : List Nat) :
    ZeroRun segments segments.length (longestZeros segments) := by
  have hStart : Spans segments 0 (⟨0, 0⟩, ⟨0, 0⟩) :=
    ⟨zeroRun_empty 0, zeroRun_empty 0, Or.inl rfl⟩
  have hFold := (spans_foldl hStart List.drop_zero).longest
  rw [Nat.zero_add] at hFold
  rw [longestZeros_eq]
  exact hFold

/-- The segments are put together again around the zeros that are left out. -/
theorem take_zeros_drop {span : Span} (h : ZeroRun segments segments.length span) :
    segments.take span.start ++ List.replicate span.len 0 ++
      segments.drop (span.start + span.len) = segments := by
  have hZeros : (segments.drop span.start).take span.len = List.replicate span.len 0 := by
    have hLe := h.le
    refine List.eq_replicate_iff.mpr ⟨?_, fun segment hMem => ?_⟩
    · rw [List.length_take, List.length_drop]
      omega
    · obtain ⟨i, hi⟩ := List.mem_iff_getElem?.mp hMem
      rw [List.getElem?_take] at hi
      split at hi
      · rename_i hLt
        rw [List.getElem?_drop, h.zero _ (by omega) (by omega)] at hi
        exact (Option.some.inj hi).symm
      · cases hi
  rw [← hZeros, List.append_assoc, ← List.drop_drop, List.take_append_drop,
    List.take_append_drop]

end Zeros

section Ipv6

@[simp] theorem length_digitsOf (base width value : Nat) :
    (digitsOf base width value).length = width := by
  rw [digitsOf, List.length_map, List.length_range]

theorem lt_of_mem_digitsOf {base width value digit : Nat} (hBase : 0 < base)
    (h : digit ∈ digitsOf base width value) : digit < base := by
  obtain ⟨i, _, rfl⟩ := List.mem_map.mp h
  exact Nat.mod_lt _ hBase

theorem digitsOf_succ (base width value : Nat) :
    digitsOf base (width + 1) value = digitsOf base width (value / base) ++ [value % base] := by
  rw [digitsOf, List.range_succ, List.map_append, List.map_singleton]
  congr 1
  · refine List.map_congr_left fun i hi => ?_
    have hLt := List.mem_range.mp hi
    have hPow : base ^ (width + 1 - 1 - i) = base * base ^ (width - 1 - i) := by
      rw [show width + 1 - 1 - i = width - 1 - i + 1 by omega, Nat.pow_succ, Nat.mul_comm]
    rw [hPow, Nat.div_div_eq_div_mul]
  · rw [Nat.add_sub_cancel, Nat.sub_self, Nat.pow_zero, Nat.div_one]

theorem fromDigits_digitsOf (base width value : Nat) :
    fromDigits base (digitsOf base width value) = value % base ^ width := by
  induction width generalizing value with
  | zero => rw [Nat.pow_zero, Nat.mod_one]; rfl
  | succ width ih =>
    rw [digitsOf_succ, fromDigits_concat, ih, Nat.pow_succ, Nat.mul_comm (base ^ width),
      Nat.mod_mul, Nat.add_comm]

theorem digitsOf_fromDigits {base : Nat} {digits : List Nat} (h : ∀ digit ∈ digits, digit < base) :
    digitsOf base digits.length (fromDigits base digits) = digits := by
  induction digits using List.reverseRecOn with
  | nil => rfl
  | append_singleton digits digit ih =>
    have hDigit : digit < base := h digit (by simp)
    have hDiv : (base * fromDigits base digits + digit) / base = fromDigits base digits := by
      rw [Nat.mul_add_div (by omega), Nat.div_eq_of_lt hDigit, Nat.add_zero]
    rw [List.length_append, List.length_singleton, digitsOf_succ, fromDigits_concat, hDiv,
      ih fun d hd => h d (List.mem_append_left _ hd), Nat.mul_add_mod, Nat.mod_eq_of_lt hDigit]

theorem fromDigits_lt {base : Nat} {digits : List Nat} (h : ∀ digit ∈ digits, digit < base)
    (hBase : 0 < base) : fromDigits base digits < base ^ digits.length := by
  have hValue := fromDigits_digitsOf base digits.length (fromDigits base digits)
  rw [digitsOf_fromDigits h] at hValue
  rw [hValue]
  exact Nat.mod_lt _ (Nat.pow_pos hBase)

theorem ofGroups_digitsOf (bits : BitVec 128) : ofGroups (digitsOf 65536 8 bits.toNat) = bits := by
  have hValue := fromDigits_digitsOf 65536 8 bits.toNat
  have hLt := bits.isLt
  rw [Nat.mod_eq_of_lt (by omega)] at hValue
  have hBits : BitVec.ofNat 128 (fromDigits 65536 (digitsOf 65536 8 bits.toNat)) = bits := by
    rw [hValue]
    exact BitVec.eq_of_toNat_eq (Nat.mod_eq_of_lt hLt)
  exact hBits

theorem readIpv6Addr_full {bits : BitVec 128} {rest : List Char} (h : Stops rest) :
    readIpv6Addr ((fmtSubslice (digitsOf 65536 8 bits.toNat)).toList ++ rest) =
      some (bits, rest) := by
  have hGroups := readGroups_fmtSubslice (digitsOf 65536 8 bits.toNat) 8
    (fun _ => lt_of_mem_digitsOf (by decide)) (Nat.le_of_eq (length_digitsOf ..)) h
  unfold readIpv6Addr
  rw [hGroups]
  simp only [length_digitsOf, if_true]
  rw [ofGroups_digitsOf]

theorem readIpv6Addr_compressed {bits : BitVec 128} {span : Span}
    (hSpan : ZeroRun (digitsOf 65536 8 bits.toNat) 8 span) (hLen : 1 < span.len)
    {rest : List Char} (h : Stops rest) :
    readIpv6Addr ((fmtSubslice ((digitsOf 65536 8 bits.toNat).take span.start)).toList ++
      ':' :: ':' :: ((fmtSubslice ((digitsOf 65536 8 bits.toNat).drop
        (span.start + span.len))).toList ++ rest)) = some (bits, rest) := by
  have hLt : ∀ group ∈ digitsOf 65536 8 bits.toNat, group < 65536 := fun _ =>
    lt_of_mem_digitsOf (by decide)
  have hWhole := take_zeros_drop (show ZeroRun (digitsOf 65536 8 bits.toNat)
    (digitsOf 65536 8 bits.toNat).length span by rwa [length_digitsOf])
  generalize hSegments : digitsOf 65536 8 bits.toNat = segments at *
  have hLength : segments.length = 8 := hSegments ▸ length_digitsOf ..
  have hLe := hSpan.le
  have hTake : (segments.take span.start).length = span.start := by
    rw [List.length_take]
    omega
  have hDrop : (segments.drop (span.start + span.len)).length = 8 - (span.start + span.len) := by
    rw [List.length_drop, hLength]
  have hHead := readGroups_fmtSubslice (segments.take span.start) 8
    (fun group hMem => hLt group (List.mem_of_mem_take hMem)) (by omega)
    (stops_colons ((fmtSubslice (segments.drop (span.start + span.len))).toList ++ rest))
  have hTail := readGroups_fmtSubslice (segments.drop (span.start + span.len))
    (7 - span.start) (fun group hMem => hLt group (List.mem_of_mem_drop hMem))
    (by omega) h
  have hZeros : 8 - span.start - (8 - (span.start + span.len)) = span.len := by omega
  unfold readIpv6Addr
  rw [hHead]
  simp only [hTake, hTail, hDrop, hZeros]
  rw [if_neg (by omega), if_neg Bool.false_ne_true, hWhole, ← hSegments, ofGroups_digitsOf]

theorem toList_mappedPrefix :
    "::ffff:".toList = [':', ':'] ++ (Nat.toDigits 16 0xFFFF ++ [':']) := by
  decide

theorem readIpv6Addr_mapped {bits : BitVec 128}
    (hMapped : (digitsOf 65536 8 bits.toNat).take 6 = [0, 0, 0, 0, 0, 0xFFFF])
    {rest : List Char} (h : Stops rest) :
    readIpv6Addr ("::ffff:".toList ++ ((ipv4ToText (bits.toNat % 2 ^ 32)).toList ++ rest)) =
      some (bits, rest) := by
  have hDrop : (digitsOf 65536 8 bits.toNat).drop 6 =
      [bits.toNat / 65536 ^ 1 % 65536, bits.toNat / 65536 ^ 0 % 65536] := rfl
  have hGroups : [] ++ List.replicate (8 - [0xFFFF, bits.toNat % 2 ^ 32 / 65536 % 65536,
      bits.toNat % 2 ^ 32 % 65536].length) 0 ++ [0xFFFF, bits.toNat % 2 ^ 32 / 65536 % 65536,
        bits.toNat % 2 ^ 32 % 65536] = digitsOf 65536 8 bits.toNat := by
    have hHigh : bits.toNat % 2 ^ 32 / 65536 % 65536 = bits.toNat / 65536 ^ 1 % 65536 := by omega
    have hLow : bits.toNat % 2 ^ 32 % 65536 = bits.toNat / 65536 ^ 0 % 65536 := by omega
    rw [← List.take_append_drop 6 (digitsOf 65536 8 bits.toNat), hMapped, hDrop, hHigh, hLow]
    rfl
  have hColon : NoDigit 16 (':' :: ((ipv4ToText (bits.toNat % 2 ^ 32)).toList ++ rest)) := by
    rintro c ⟨⟩
    rfl
  have hText : "::ffff:".toList ++ ((ipv4ToText (bits.toNat % 2 ^ 32)).toList ++ rest) =
      ':' :: ':' :: (Nat.toDigits 16 0xFFFF ++
        ':' :: ((ipv4ToText (bits.toNat % 2 ^ 32)).toList ++ rest)) := by
    rw [toList_mappedPrefix]
    simp only [List.append_assoc, List.cons_append, List.nil_append]
  have hTail : readGroups 7 0 (Nat.toDigits 16 0xFFFF ++
      ':' :: ((ipv4ToText (bits.toNat % 2 ^ 32)).toList ++ rest)) =
        ([0xFFFF, bits.toNat % 2 ^ 32 / 65536 % 65536, bits.toNat % 2 ^ 32 % 65536], true,
          rest) := by
    rw [readGroups, readSeparator, if_pos rfl, readSeparator, if_pos rfl,
      readIpv4Addr_group _ hColon (by simp), ite_self, readNumber_group (by decide) hColon]
    dsimp only
    rw [readGroups, if_neg (by decide), readSeparator_cons ':' (by decide),
      readIpv4Addr_toText _ (noDigit_ten h.noDigit)]
  rw [hText]
  unfold readIpv6Addr
  rw [readGroups_stops 8 0 (stops_colons _)]
  simp only [List.length_nil, Nat.sub_zero, hTail]
  rw [if_neg (by decide), if_neg Bool.false_ne_true, hGroups, ofGroups_digitsOf]

theorem readIpv6Addr_toText (bits : BitVec 128) {rest : List Char} (h : Stops rest) :
    readIpv6Addr ((toText (.v6 bits)).toList ++ rest) = some (bits, rest) := by
  unfold toText
  dsimp only
  split
  · rename_i hMapped
    rw [String.toList_append, List.append_assoc]
    exact readIpv6Addr_mapped hMapped h
  · split
    · rename_i hLen
      have hSpan := longestZeros_spec (digitsOf 65536 8 bits.toNat)
      rw [length_digitsOf] at hSpan
      have hColons : "::".toList = [':', ':'] := by decide
      rw [String.toList_append, String.toList_append, List.append_assoc, List.append_assoc, hColons,
        List.cons_append, List.singleton_append]
      exact readIpv6Addr_compressed hSpan hLen h
    · exact readIpv6Addr_full h

end Ipv6

end Kld.Pki.IpAddr
