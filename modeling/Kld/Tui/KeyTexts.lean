import Kld.Tui.Keys

/-!
# Which key texts are read back

A sequence is split between its brackets. The text of a key is read as it was written
unless the names of modifiers or the number of a function key are printed in it.
-/

namespace Kld.Keys

section Brackets

def brackets (segments : List (List Char)) : List Char :=
  segments.flatMap fun text => '<' :: text ++ ['>']

def Plain (text : List Char) : Prop := '<' ∉ text ∧ '>' ∉ text

theorem stripPrefix_of_not_mem {c : Char} {text : List Char} (h : c ∉ text) :
    stripPrefix c text = none :=
  if_neg fun hHead => h (List.mem_of_mem_head? hHead)

theorem stripSuffix_of_not_mem {c : Char} {text : List Char} (h : c ∉ text) :
    stripSuffix c text = none :=
  if_neg fun hLast => h (List.mem_of_getLast? hLast)

theorem stripPrefix_append {c : Char} {text : List Char} (h : c ∉ text) (hText : text ≠ [])
    (rest : List Char) : stripPrefix c (text ++ rest) = none := by
  refine if_neg fun hHead => h (List.mem_of_mem_head? ?_)
  rwa [List.head?_append_of_ne_nil _ hText] at hHead

theorem stripBracket_plain {text : List Char} (h : Plain text) : stripBracket text = text := by
  rw [stripBracket, stripPrefix_of_not_mem h.1, stripSuffix_of_not_mem h.2]
  rfl

theorem stripBracket_opening (text : List Char) : stripBracket ('<' :: text) = text := by
  rw [stripBracket, stripPrefix, List.head?_cons, if_pos rfl, List.tail_cons]

theorem stripBracket_closing {text : List Char} (h : Plain text) :
    stripBracket (text ++ ['>']) = text := by
  have hOpening : stripPrefix '<' (text ++ ['>']) = none :=
    stripPrefix_of_not_mem (by simpa using h.1)
  have hClosing : stripSuffix '>' (text ++ ['>']) = some text := by
    rw [stripSuffix, List.getLast?_concat, if_pos rfl, List.dropLast_concat]
  rw [stripBracket, hOpening, hClosing]
  rfl

theorem brackets_cons (text : List Char) (rest : List (List Char)) :
    brackets (text :: rest) = '<' :: (text ++ '>' :: brackets rest) := by
  simp [brackets]

/-- What is between two brackets is a piece, also after the first of them is taken away. -/
theorem split_closing {text : List Char} {rest : List (List Char)} (hText : Plain text)
    (hRest : ∀ segment ∈ rest, Plain segment) :
    (Utf8.splitFrom ['>', '<'] 0 (text ++ '>' :: brackets rest)).map stripBracket =
      text :: rest := by
  induction rest generalizing text with
  | nil =>
    have hInfix : ¬ ['>', '<'] <:+: text ++ ['>'] := fun hInfix => by
      have hMem : '<' ∈ text ++ ['>'] := hInfix.mem (by simp)
      simp [hText.1] at hMem
    change (Utf8.splitFrom ['>', '<'] 0 (text ++ ['>'])).map stripBracket = [text]
    rw [Utf8.splitFrom_of_not_infix hInfix, List.map_singleton, stripBracket_closing hText]
  | cons next rest ih =>
    obtain ⟨hNext, hRest⟩ := List.forall_mem_cons.mp hRest
    rw [brackets_cons]
    have hSplit := @Utf8.splitFrom_append '>' ['<'] text hText.2 (next ++ '>' :: brackets rest)
    rw [List.cons_append, List.singleton_append] at hSplit
    rw [hSplit, List.map_cons, ih hNext hRest, stripBracket_plain hText]

theorem count_brackets {segments : List (List Char)} (h : ∀ segment ∈ segments, Plain segment) :
    (brackets segments).count '>' = (brackets segments).count '<' := by
  induction segments with
  | nil => rfl
  | cons text rest ih =>
    obtain ⟨hText, hRest⟩ := List.forall_mem_cons.mp h
    have hOpening := List.count_eq_zero.mpr hText.1
    have hClosing := List.count_eq_zero.mpr hText.2
    have hSame := ih hRest
    rw [brackets_cons]
    simp only [List.count_cons, List.count_append, hOpening, hClosing, hSame]
    simp

theorem split_brackets {text : List Char} {rest : List (List Char)} (hText : Plain text)
    (hNe : text ≠ []) (hRest : ∀ segment ∈ rest, Plain segment) :
    (Utf8.splitFrom ['>', '<'] 0 (stripOuter (brackets (text :: rest)))).map stripBracket =
      text :: rest := by
  rw [brackets_cons]
  cases rest with
  | nil =>
    have hInfix : ¬ ['>', '<'] <:+: '<' :: (text ++ ['>']) := by
      rintro ⟨before, after, hSame⟩
      cases before with
      | nil => exact absurd (List.cons.inj hSame).1 (by decide)
      | cons c before =>
        have hMem : '<' ∈ text ++ ['>'] := by
          rw [← (List.cons.inj hSame).2]
          simp
        simp [hText.1] at hMem
    have hFirst : stripPrefix '<' ('<' :: (text ++ ['>'])) = some (text ++ ['>']) := if_pos rfl
    have hSecond := stripPrefix_append hText.2 hNe ['>']
    have hOuter : stripOuter ('<' :: (text ++ ['>'])) = text ++ ['>'] := by
      rw [stripOuter, if_neg hInfix]
      simp only [hFirst, hSecond, Option.getD_some, Option.getD_none]
    change (Utf8.splitFrom _ 0 (stripOuter ('<' :: (text ++ ['>'])))).map stripBracket = _
    rw [hOuter]
    exact split_closing hText hRest
  | cons next rest =>
    have hSame : '<' :: (text ++ '>' :: brackets (next :: rest)) =
        '<' :: text ++ (['>', '<'] ++ (next ++ '>' :: brackets rest)) := by
      simp [brackets_cons]
    have hInfix : ['>', '<'] <:+: '<' :: (text ++ '>' :: brackets (next :: rest)) :=
      ⟨'<' :: text, next ++ '>' :: brackets rest, by simp [brackets_cons]⟩
    have hOpening : '>' ∉ '<' :: text := by simpa using hText.2
    obtain ⟨hNext, hRest⟩ := List.forall_mem_cons.mp hRest
    rw [stripOuter, if_pos hInfix, hSame, Utf8.splitFrom_append hOpening, List.map_cons,
      stripBracket_opening, split_closing hNext hRest]

theorem parseKeySequence_brackets {segments : List (List Char)} (hSegments : segments ≠ [])
    (hPlain : ∀ segment ∈ segments, Plain segment) (hText : ∀ segment ∈ segments, segment ≠ []) :
    parseKeySequence (brackets segments) = segments.mapM parseKeyEvent := by
  rw [parseKeySequence, if_neg (fun hNe => hNe (count_brackets hPlain))]
  obtain ⟨text, rest, rfl⟩ := List.exists_cons_of_ne_nil hSegments
  obtain ⟨hFirst, hRest⟩ := List.forall_mem_cons.mp hPlain
  rw [split_brackets hFirst (hText text List.mem_cons_self) hRest]

end Brackets

section Keys

theorem mem_of_lookup {α β : Type} [BEq α] [LawfulBEq α] {l : List (α × β)} {k : α} {b : β}
    (h : l.lookup k = some b) : (k, b) ∈ l := by
  obtain ⟨before, after, rfl, _⟩ := List.lookup_eq_some_iff.mp h
  simp

theorem extractModifiers_suffix (n : Nat) (current : List Char) (modifiers : KeyModifiers) :
    (extractModifiers n current modifiers).1 <:+ current := by
  induction n generalizing current modifiers with
  | zero => exact List.suffix_refl current
  | succ n ih =>
    rw [extractModifiers]
    split
    · exact (ih _ _).trans (List.drop_suffix _ _)
    · split
      · exact (ih _ _).trans (List.drop_suffix _ _)
      · split
        · exact (ih _ _).trans (List.drop_suffix _ _)
        · exact List.suffix_refl current

def modifierPrefixes : List (List Char) := ["ctrl-".toList, "alt-".toList, "shift-".toList]

theorem extractModifiers_of_unmodified {current : List Char}
    (h : ∀ word ∈ modifierPrefixes, ¬ word <+: current) (n : Nat) (modifiers : KeyModifiers) :
    extractModifiers n current modifiers = (current, modifiers) := by
  cases n with
  | zero => rfl
  | succ n =>
    rw [extractModifiers, if_neg (h _ (by simp [modifierPrefixes])),
      if_neg (h _ (by simp [modifierPrefixes])), if_neg (h _ (by simp [modifierPrefixes]))]

theorem parseKeyEvent_eq {raw remaining : List Char} {m : KeyModifiers}
    (h : extractModifiers (raw.map Char.toLower).length (raw.map Char.toLower) .empty =
      (remaining, m)) : parseKeyEvent raw = parseKeyCodeWithModifiers remaining m := by
  simp only [parseKeyEvent, h]

theorem toLower_toLower (c : Char) : c.toLower.toLower = c.toLower := by
  unfold Char.toLower
  grind

/-- The codes that are read: named ones and the characters of one byte that are no capitals. -/
inductive Typed : KeyEvent → Prop where
  | named {name : List Char} {code : KeyCode} {m : KeyModifiers} (hName : (name, code) ∈ namedKeys)
    (hTab : code = .backTab → m.shift) : Typed (.new code m)
  | char {c : Char} {m : KeyModifiers} (hByte : c.toNat < 128) (hLower : c.toLower = c) :
    Typed (.new (.char (if m.shift then c.toUpper else c)) m)

theorem typed_of_parse {raw : List Char} {key : KeyEvent} (h : parseKeyEvent raw = .ok key) :
    Typed key := by
  have hSuffix := extractModifiers_suffix (raw.map Char.toLower).length (raw.map Char.toLower)
    .empty
  generalize hRead : extractModifiers (raw.map Char.toLower).length (raw.map Char.toLower) .empty =
    read at hSuffix
  obtain ⟨remaining, m⟩ := read
  rw [parseKeyEvent_eq hRead] at h
  unfold parseKeyCodeWithModifiers at h
  split at h
  · rename_i hLookup
    cases h
    exact .named (mem_of_lookup hLookup) fun _ => rfl
  · rename_i code hTab hLookup
    cases h
    exact .named (mem_of_lookup hLookup) fun hCode => absurd hCode hTab
  · split at h
    · rename_i c _
      split at h
      · rename_i hByte
        cases h
        obtain ⟨d, _, hLower⟩ := List.mem_map.mp (hSuffix.mem List.mem_cons_self)
        refine .char hByte ?_
        rw [← hLower]
        exact toLower_toLower d
      · cases h
    · cases h

/-- What is printed where a modifier is set, and for a function key; no key is read from it. -/
def unreadable : List (List Char) := ["shift+".toList, "control+".toList, "alt+".toList,
  "super+".toList, "hyper+".toList, "meta+".toList, "f(".toList]

theorem parseKeyEvent_unreadable {word raw : List Char} (hWord : word ∈ unreadable)
    (hPrefix : word <+: raw.map Char.toLower) : ∃ message, parseKeyEvent raw = .error message := by
  have hModifiers : ∀ word ∈ unreadable, ∀ name ∈ modifierPrefixes,
      ¬ word <+: name ∧ ¬ name <+: word := by decide
  have hNames : ∀ word ∈ unreadable, ∀ entry ∈ namedKeys, ¬ word <+: entry.1 := by decide
  have hLengths : ∀ word ∈ unreadable, 2 ≤ word.length := by decide
  have hExtract := extractModifiers_of_unmodified (fun name hName hOther => by
    rcases List.prefix_or_prefix_of_prefix hPrefix hOther with hSame | hSame
    · exact (hModifiers word hWord name hName).1 hSame
    · exact (hModifiers word hWord name hName).2 hSame) (raw.map Char.toLower).length .empty
  have hLookup : namedKeys.lookup (raw.map Char.toLower) = none := by
    cases hLookup : namedKeys.lookup (raw.map Char.toLower) with
    | none => rfl
    | some code => exact absurd hPrefix (hNames word hWord _ (mem_of_lookup hLookup))
  rw [parseKeyEvent_eq hExtract]
  unfold parseKeyCodeWithModifiers
  rw [hLookup]
  dsimp only
  split
  · rename_i c hSingle
    have hLength := hPrefix.length_le
    rw [hSingle, List.length_singleton] at hLength
    have hLong := hLengths word hWord
    omega
  · exact ⟨_, rfl⟩

theorem flagNames_unreadable {m : KeyModifiers} (h : m ≠ .empty) :
    ∃ word ∈ unreadable, word <+: (flagNames m).map Char.toLower := by
  have hAll : ∀ shift control alt super hyper «meta» : Bool,
      (⟨shift, control, alt, super, hyper, «meta»⟩ : KeyModifiers) ≠ .empty →
        ∃ word ∈ unreadable, word <+: (flagNames
          ⟨shift, control, alt, super, hyper, «meta»⟩).map Char.toLower := by decide
  obtain ⟨shift, control, alt, super, hyper, «meta»⟩ := m
  exact hAll shift control alt super hyper «meta» h

theorem bracketed_empty {key : KeyEvent} (h : key.modifiers = .empty) :
    bracketed key = keyCodeToString key.code := by
  rw [bracketed, keyEventToString, h]
  rfl

theorem parseKeyEvent_bracketed_flags {key : KeyEvent} (h : key.modifiers ≠ .empty) :
    ∃ message, parseKeyEvent (bracketed key) = .error message := by
  obtain ⟨word, hWord, hPrefix⟩ := flagNames_unreadable h
  refine parseKeyEvent_unreadable hWord ?_
  rw [bracketed, List.map_append]
  exact hPrefix.trans (List.prefix_append _ _)

theorem parseKeyEvent_bracketed_f {key : KeyEvent} {number : UInt8} (h : key.modifiers = .empty)
    (hCode : key.code = .f number) : ∃ message, parseKeyEvent (bracketed key) = .error message := by
  have hLower : "f(".toList.map Char.toLower = "f(".toList := by decide
  have hWord : "f(".toList ∈ unreadable := by simp [unreadable]
  have hText : keyCodeToString (.f number) =
      "f(".toList ++ ((toString number.toNat).toList ++ [')']) := rfl
  refine parseKeyEvent_unreadable hWord ?_
  rw [bracketed_empty h, hCode, hText, List.map_append, hLower]
  exact List.prefix_append _ _

theorem parseKeyEvent_char {c : Char} (hByte : c.toNat < 128) (hLower : c.toLower = c) :
    parseKeyEvent [c] = .ok (.new (.char c) .empty) := by
  have hModifiers : ∀ name ∈ modifierPrefixes, ¬ name <+: [c].map Char.toLower := by
    intro name hName hPrefix
    have hLengths : ∀ name ∈ modifierPrefixes, 1 < name.length := by decide
    exact absurd hPrefix.length_le (Nat.not_le_of_lt (hLengths name hName))
  have hLookup : namedKeys.lookup [c] = none := by
    cases hLookup : namedKeys.lookup [c] with
    | none => rfl
    | some code =>
      have hLengths : ∀ entry ∈ namedKeys, 1 < entry.1.length := by decide
      exact absurd (hLengths _ (mem_of_lookup hLookup)) (Nat.lt_irrefl 1)
  rw [parseKeyEvent_eq (extractModifiers_of_unmodified hModifiers _ _), List.map_singleton,
    hLower]
  unfold parseKeyCodeWithModifiers
  rw [hLookup]
  exact if_pos hByte

theorem parseKeyEvent_named {name : List Char} {code : KeyCode} (hName : (name, code) ∈ namedKeys)
    (hTab : code ≠ .backTab) (hF : ∀ number, code ≠ .f number) :
    parseKeyEvent (keyCodeToString code) = .ok (.new code .empty) := by
  have hAll : ∀ entry ∈ namedKeys, entry.2 ∈ .backTab :: (List.range 13).map (.f <| .ofNat ·) ∨
      (parseKeyEvent (keyCodeToString entry.2)).toOption = some (.new entry.2 .empty) := by
    decide
  rcases hAll _ hName with hOther | hSome
  · rcases List.mem_cons.mp hOther with hCode | hNumber
    · exact absurd hCode hTab
    · obtain ⟨number, _, hCode⟩ := List.mem_map.mp hNumber
      exact absurd hCode.symm (hF _)
  · cases hParsed : parseKeyEvent (keyCodeToString code) with
    | error message =>
      rw [hParsed] at hSome
      cases hSome
    | ok key =>
      rw [hParsed] at hSome
      exact congrArg Except.ok (Option.some.inj hSome)

theorem keyCodeToString_char {c : Char} (hSpace : c ≠ ' ') : keyCodeToString (.char c) = [c] := by
  unfold keyCodeToString
  split <;> simp_all

theorem parseKeyEvent_printed_char {c : Char} (hByte : c.toNat < 128) (hLower : c.toLower = c) :
    parseKeyEvent (keyCodeToString (.char c)) = .ok (.new (.char c) .empty) := by
  by_cases hSpace : c = ' '
  · subst hSpace
    have hName : ("space".toList, KeyCode.char ' ') ∈ namedKeys := by simp [namedKeys]
    exact parseKeyEvent_named hName (by decide) fun number hCode => nomatch hCode
  · rw [keyCodeToString_char hSpace]
    exact parseKeyEvent_char hByte hLower

/-- The text of a key is read back exactly if it has no modifiers and is no function key. -/
theorem parseKeyEvent_bracketed_iff {key : KeyEvent} (h : Typed key) :
    parseKeyEvent (bracketed key) = .ok key ↔
      key.modifiers = .empty ∧ ∀ number, key.code ≠ .f number := by
  by_cases hEmpty : key.modifiers = .empty
  · by_cases hF : ∃ number, key.code = .f number
    · obtain ⟨number, hCode⟩ := hF
      obtain ⟨message, hError⟩ := parseKeyEvent_bracketed_f hEmpty hCode
      rw [hError]
      exact iff_of_false (fun hOk => nomatch hOk) fun hNone => hNone.2 number hCode
    · have hNotF : ∀ number, key.code ≠ .f number := fun number hCode => hF ⟨number, hCode⟩
      refine iff_of_true ?_ ⟨hEmpty, hNotF⟩
      rw [bracketed_empty hEmpty]
      cases h with
      | named hName hTab =>
        obtain rfl := hEmpty
        exact parseKeyEvent_named hName (fun hCode => absurd (hTab hCode) (by decide)) hNotF
      | char hByte hLower =>
        obtain rfl := hEmpty
        exact parseKeyEvent_printed_char hByte hLower
  · obtain ⟨message, hError⟩ := parseKeyEvent_bracketed_flags hEmpty
    rw [hError]
    exact iff_of_false (fun hOk => nomatch hOk) fun hNone => hEmpty hNone.1

end Keys

section Sequences

theorem plain_keyCodeToString {key : KeyEvent} (h : Typed key)
    (hChars : key.code ≠ .char '<' ∧ key.code ≠ .char '>') :
    Plain (keyCodeToString key.code) ∧ keyCodeToString key.code ≠ [] := by
  cases h with
  | named hName hTab =>
    have hAll : ∀ entry ∈ namedKeys, ('<' ∉ keyCodeToString entry.2 ∧
        '>' ∉ keyCodeToString entry.2) ∧ keyCodeToString entry.2 ≠ [] := by decide
    exact hAll _ hName
  | @char c m hByte hLower =>
    revert hChars
    generalize (if m.shift then c.toUpper else c) = d
    intro hChars
    change Plain (keyCodeToString (.char d)) ∧ keyCodeToString (.char d) ≠ []
    by_cases hSpace : d = ' '
    · subst hSpace
      exact ⟨⟨by decide, by decide⟩, by decide⟩
    · have hText : keyCodeToString (.char d) = [d] := keyCodeToString_char hSpace
      rw [hText]
      refine ⟨⟨fun hMem => hChars.1 ?_, fun hMem => hChars.2 ?_⟩, List.cons_ne_nil d []⟩
      · exact congrArg KeyCode.char (List.mem_singleton.mp hMem).symm
      · exact congrArg KeyCode.char (List.mem_singleton.mp hMem).symm

theorem plain_flagNames (m : KeyModifiers) : Plain (flagNames m) := by
  have hAll : ∀ name ∈ ["SHIFT", "CONTROL", "ALT", "SUPER", "HYPER", "META"],
      '<' ∉ name.toList ++ ['+'] ∧ '>' ∉ name.toList ++ ['+'] := by decide
  have hNames : ∀ name ∈ m.iterNames,
      name ∈ ["SHIFT", "CONTROL", "ALT", "SUPER", "HYPER", "META"] := by
    intro name hMem
    obtain ⟨⟨flag, name'⟩, hFlag, hName⟩ := List.mem_filterMap.mp hMem
    split at hName
    · cases hName
      exact List.mem_map_of_mem (f := Prod.snd) hFlag
    · cases hName
  refine ⟨fun hMem => ?_, fun hMem => ?_⟩
  · obtain ⟨name, hName, hChar⟩ := List.mem_flatMap.mp hMem
    exact (hAll name (hNames name hName)).1 hChar
  · obtain ⟨name, hName, hChar⟩ := List.mem_flatMap.mp hMem
    exact (hAll name (hNames name hName)).2 hChar

theorem plain_modifierPrefix (m : KeyModifiers) : Plain (modifierPrefix m) := by
  have hAll : ∀ shift control alt : Bool,
      '<' ∉ modifierPrefix ⟨shift, control, alt, false, false, false⟩ ∧
        '>' ∉ modifierPrefix ⟨shift, control, alt, false, false, false⟩ := by decide
  exact hAll m.shift m.control m.alt

theorem plain_bracketed {key : KeyEvent} (h : Typed key)
    (hChars : key.code ≠ .char '<' ∧ key.code ≠ .char '>') :
    Plain (bracketed key) ∧ bracketed key ≠ [] := by
  obtain ⟨⟨hOpening, hClosing⟩, hNe⟩ := plain_keyCodeToString h hChars
  have hFlags := plain_flagNames key.modifiers
  have hPrefix := plain_modifierPrefix key.modifiers
  refine ⟨⟨?_, ?_⟩, ?_⟩
  · simp [bracketed, keyEventToString, hOpening, hFlags.1, hPrefix.1]
  · simp [bracketed, keyEventToString, hClosing, hFlags.2, hPrefix.2]
  · simp [bracketed, keyEventToString, hNe]

/-- A sequence is read back exactly if no key of it has modifiers or is a function key. -/
theorem parseKeySequence_iff {keyEvents : List KeyEvent} (hNe : keyEvents ≠ [])
    (hTyped : ∀ key ∈ keyEvents, ∃ raw, parseKeyEvent raw = .ok key)
    (hChars : ∀ key ∈ keyEvents, key.code ≠ .char '<' ∧ key.code ≠ .char '>') :
    parseKeySequence (keyEventsToString keyEvents) = .ok keyEvents ↔
      ∀ key ∈ keyEvents, key.modifiers = .empty ∧ ∀ number, key.code ≠ .f number := by
  have hRead : ∀ key ∈ keyEvents, Typed key := fun key hMem =>
    (hTyped key hMem).elim fun _ hParse => typed_of_parse hParse
  have hSegments : ∀ segment ∈ keyEvents.map bracketed, Plain segment ∧ segment ≠ [] := by
    intro segment hMem
    obtain ⟨key, hKey, rfl⟩ := List.mem_map.mp hMem
    exact plain_bracketed (hRead key hKey) (hChars key hKey)
  have hText : keyEventsToString keyEvents = brackets (keyEvents.map bracketed) := by
    rw [keyEventsToString, brackets, List.flatMap_map]
  rw [hText, parseKeySequence_brackets (by simpa using hNe) (fun s hs => (hSegments s hs).1)
    (fun s hs => (hSegments s hs).2), Fallible.mapM_map_iff]
  exact forall₂_congr fun key hMem => parseKeyEvent_bracketed_iff (hRead key hMem)

theorem enter_j_read_back :
    parseKeySequence (keyEventsToString [.new .enter .empty, .new (.char 'j') .empty]) =
      .ok [.new .enter .empty, .new (.char 'j') .empty] := by
  refine (parseKeySequence_iff (by decide) ?_ (by decide)).mpr ?_
  · refine List.forall_mem_cons.mpr ⟨⟨"enter".toList, by decide⟩, ?_⟩
    exact List.forall_mem_singleton.mpr ⟨"j".toList, by decide⟩
  · refine List.forall_mem_cons.mpr ⟨⟨rfl, fun _ hCode => nomatch hCode⟩, ?_⟩
    exact List.forall_mem_singleton.mpr ⟨rfl, fun _ hCode => nomatch hCode⟩

/-- The key that is read from `ctrl-a` is shown as `<CONTROL+ctrl-a>`. -/
theorem control_a_not_read_back :
    let key : KeyEvent := .new (.char 'a') { KeyModifiers.empty with control := true }
    parseKeyEvent "ctrl-a".toList = .ok key ∧
      keyEventsToString [key] = "<CONTROL+ctrl-a>".toList ∧
      parseKeySequence (keyEventsToString [key]) ≠ .ok [key] := by
  decide

end Sequences

end Kld.Keys
