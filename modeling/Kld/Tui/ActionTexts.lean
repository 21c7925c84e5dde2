import Kld.Lib.Trim
import Kld.Mgr.Config
import Kld.Tui.KeyBindings

/-!
# Actions and their texts

A key binding file names an action by a text, and the interface prints one for the log.
The texts of the actions that a component sends to another cannot be read.
-/

namespace Kld.Tui.Action

open Keys (KeyEvent)
open History (Cmd)
open Config (isWhitespace trimMatches)
open Decimal Trim

section Texts

/-- What is printed of the time of an entry and of a key. -/
structure Printers where
  tsToString : UInt64 → String
  debug : KeyEvent → String

def fmt (print : Printers) : Action → String
  | .tick => "Tick"
  | .render => "Render"
  | .resize w h => "Resize(" ++ (toString w.toNat ++ "," ++ toString h.toNat) ++ ")"
  | .suspend => "Suspend"
  | .resume => "Resume"
  | .quit => "Quit"
  | .refresh => "Refresh"
  | .error e => "Error(" ++ e ++ ")"
  | .help => "Help"
  | .switchTab => "SwitchTab"
  | .tab t => "Tab(" ++ t ++ ")"
  | .navUp => "NavUp"
  | .navDown => "NavDown"
  | .navLeft => "NavLeft"
  | .navRight => "NavRight"
  | .command cmd => "Command(" ++ cmd.debug ++ ")"
  | .execute cmd s => "Execute(" ++ (cmd.debug ++ ", " ++ s) ++ ")"
  | .enterCmdMode => "EnterCmdMode"
  | .exitCmdMode => "ExitCmdMode"
  | .switchInputs => "SwitchInputs"
  | .triggerExecute => "TriggerExecute"
  | .history ts => "History(" ++ print.tsToString ts ++ ")"
  | .input keyEvent => "Input(" ++ print.debug keyEvent ++ ")"

def named : List (String × Action) := [
  ("Tick", .tick), ("Render", .render), ("Suspend", .suspend), ("Resume", .resume),
  ("Quit", .quit), ("Refresh", .refresh), ("Help", .help), ("SwitchTab", .switchTab),
  ("NavUp", .navUp), ("NavDown", .navDown), ("NavLeft", .navLeft), ("NavRight", .navRight),
  ("EnterCmdMode", .enterCmdMode), ("ExitCmdMode", .exitCmdMode),
  ("SwitchInputs", .switchInputs), ("TriggerExecute", .triggerExecute)]

def u16FromStr (s : String) : Except ParseIntError UInt16 := (fromStr UInt16.size s).map .ofNat

/-- What is left without the opening, however often it is there, and without the brackets
at the end. -/
def inner (opening data : String) : String :=
  .ofList (trimEndMatches [')'] (trimStartMatches opening.toList data.toList))

def side (part : String) : Except String UInt16 :=
  (u16FromStr (trimMatches isWhitespace part)).mapError ParseIntError.message

def visitStr (value : String) : Except String Action :=
  match named.lookup value with
  | some action => .ok action
  | none =>
    if "Error(".toList.isPrefixOf value.toList then .ok (.error (inner "Error(" value))
    else if "Resize(".toList.isPrefixOf value.toList then
      match Utf8.split ',' (inner "Resize(" value) with
      | [width, height] => do
        let width ← side width
        let height ← side height
        .ok (.resize width height)
      | _ => .error ("Invalid Resize format: " ++ value)
    else .error ("Unknown Action variant: " ++ value)

/-- What is not sent from a component to another, and no error that its brackets hide. -/
def Readable : Action → Prop
  | .tab _ | .command _ | .execute _ _ | .history _ | .input _ => False
  | .error e => ¬ "Error(".toList <+: e.toList ∧ ¬ [')'] <:+ e.toList
  | _ => True

end Texts

section Inner

variable {opening text : String}

theorem not_prefix_closed (hOpening : opening.toList.getLast? = some '(')
    (h : ¬ opening.toList <+: text.toList) : ¬ opening.toList <+: text.toList ++ [')'] := by
  intro hStarts
  rcases List.prefix_concat_iff.mp hStarts with hSame | hStarts
  · rw [hSame, List.getLast?_concat] at hOpening
    cases hOpening
  · exact h hStarts

/-- Neither the opening nor the closing bracket is left of the text. -/
theorem not_brackets_inner (opening data : String) (hOpening : opening.toList ≠ []) :
    ¬ opening.toList <+: (inner opening data).toList ∧ ¬ [')'] <:+ (inner opening data).toList := by
  rw [inner, String.toList_ofList]
  generalize hTrimmed : trimStartMatches opening.toList data.toList = trimmed
  generalize hInner : trimEndMatches [')'] trimmed = text
  obtain ⟨hStart, _⟩ := (trimStartMatches_eq_iff hOpening).mp hTrimmed
  obtain ⟨hEnd, n, hText⟩ := (trimEndMatches_eq_iff (List.cons_ne_nil _ _)).mp hInner
  exact ⟨fun hStarts => hStart (hText ▸ hStarts.trans (List.prefix_append _ _)), hEnd⟩

theorem inner_bracketed_iff (hOpening : opening.toList.getLast? = some '(') :
    inner opening (opening ++ text ++ ")") = text ↔
      ¬ opening.toList <+: text.toList ∧ ¬ [')'] <:+ text.toList := by
  have hNe : opening.toList ≠ [] := by
    rintro hNil
    rw [hNil] at hOpening
    cases hOpening
  constructor
  · intro hInner
    have hNot := not_brackets_inner opening (opening ++ text ++ ")") hNe
    rwa [hInner] at hNot
  · rintro ⟨hStart, hEnd⟩
    have hOnce : trimStartMatches opening.toList (opening ++ text ++ ")").toList =
        text.toList ++ [')'] := by
      refine (trimStartMatches_eq_iff hNe).mpr ⟨not_prefix_closed hOpening hStart, 1, ?_⟩
      rw [String.toList_append, String.toList_append, List.append_assoc]
      simp [repeated]
    have hClosed : trimEndMatches [')'] (text.toList ++ [')']) = text.toList :=
      (trimEndMatches_eq_iff (List.cons_ne_nil _ _)).mpr ⟨hEnd, 1, rfl⟩
    rw [inner, hOnce, hClosed, String.ofList_toList]

end Inner

section Reading

variable {value text : String} {action : Action}

theorem lookup_named (h : '(' ∈ value.toList) : named.lookup value = none := by
  have hAll : ∀ name ∈ named.map Prod.fst, '(' ∉ name.toList := by decide
  refine List.lookup_eq_none_iff.mpr fun entry hEntry => ?_
  refine bne_iff_ne.mpr fun hSame => ?_
  exact hAll entry.1 (List.mem_map_of_mem hEntry) (hSame ▸ h)

theorem mem_named (h : named.lookup value = some action) : (value, action) ∈ named := by
  obtain ⟨front, back, hNamed, _⟩ := List.lookup_eq_some_iff.mp h
  exact hNamed ▸ List.mem_append_right _ List.mem_cons_self

theorem visitStr_opened {name : String} (hName : name.toList.getLast? = some '(') :
    visitStr (name ++ text ++ ")") =
      if "Error(".toList <+: name.toList ++ (text.toList ++ [')']) then
        .ok (.error (inner "Error(" (name ++ text ++ ")")))
      else if "Resize(".toList <+: name.toList ++ (text.toList ++ [')']) then
        match Utf8.split ',' (inner "Resize(" (name ++ text ++ ")")) with
        | [width, height] => do
          let width ← side width
          let height ← side height
          .ok (.resize width height)
        | _ => .error ("Invalid Resize format: " ++ (name ++ text ++ ")"))
      else .error ("Unknown Action variant: " ++ (name ++ text ++ ")")) := by
  have hText : (name ++ text ++ ")").toList = name.toList ++ (text.toList ++ [')']) := by
    rw [String.toList_append, String.toList_append, List.append_assoc]
    rfl
  have hMem : '(' ∈ (name ++ text ++ ")").toList :=
    hText ▸ List.mem_append_left _ (List.mem_of_getLast? hName)
  rw [visitStr, lookup_named hMem, hText]
  simp only [List.isPrefixOf_iff_prefix]

theorem visitStr_error (e : String) : visitStr ("Error(" ++ e ++ ")") =
    .ok (.error (inner "Error(" ("Error(" ++ e ++ ")"))) := by
  rw [visitStr_opened rfl, if_pos (List.prefix_append _ _)]

end Reading

section Resize

variable {s : String}

theorem isDigit_of_mem {n : Nat} {c : Char} (h : c ∈ (toString n).toList) : c.isDigit := by
  have hChars : (toString n).toList = Nat.toDigits 10 n := Nat.toList_repr
  rw [hChars] at h
  exact Nat.isDigit_of_mem_toDigits (by omega) (by omega) h

theorem dropWhile_of_forall_not {p : Char → Bool} {cs : List Char} (h : ∀ c ∈ cs, p c = false) :
    cs.dropWhile p = cs := by
  cases cs with
  | nil => rfl
  | cons c cs => rw [List.dropWhile_cons_of_neg (by simp [h c List.mem_cons_self])]

theorem trimMatches_of_forall_not {p : Char → Bool} (h : ∀ c ∈ s.toList, p c = false) :
    trimMatches p s = s := by
  rw [trimMatches, dropWhile_of_forall_not h, dropWhile_of_forall_not, List.reverse_reverse,
    String.ofList_toList]
  exact fun c hMem => h c (List.mem_reverse.mp hMem)

theorem not_whitespace_of_isDigit {c : Char} (h : c.isDigit) : isWhitespace c = false := by
  obtain ⟨hLow, hHigh⟩ : 48 ≤ c.toNat ∧ c.toNat ≤ 57 := Char.isDigit_iff_toNat.mp h
  have hNot : c.toNat ∉ [0x20, 0x85, 0xA0, 0x1680, 0x2028, 0x2029, 0x202F, 0x205F, 0x3000] := by
    intro hMem
    simp only [List.mem_cons, List.not_mem_nil, or_false] at hMem
    omega
  simp only [isWhitespace, List.contains_eq_mem, hNot, decide_false, Bool.or_false,
    Bool.or_eq_false_iff, Bool.and_eq_false_iff, decide_eq_false_iff_not]
  omega

theorem side_toString (n : UInt16) : side (toString n.toNat) = .ok n := by
  have hTrim : trimMatches isWhitespace (toString n.toNat) = toString n.toNat :=
    trimMatches_of_forall_not fun c hMem => not_whitespace_of_isDigit (isDigit_of_mem hMem)
  rw [side, hTrim, u16FromStr, fromStr_toString n.toNat_lt_size]
  exact congrArg Except.ok UInt16.ofNat_toNat

theorem split_sides (w h : UInt16) :
    Utf8.split ',' (toString w.toNat ++ "," ++ toString h.toNat) =
      [toString w.toNat, toString h.toNat] := by
  have hComma : ∀ part ∈ [toString w.toNat, toString h.toNat], ',' ∉ part.toList := by
    intro part hPart hMem
    have hDigit : (',').isDigit := by
      rcases List.mem_pair.mp hPart with rfl | rfl <;> exact isDigit_of_mem hMem
    cases hDigit
  have hJoined : toString w.toNat ++ "," ++ toString h.toNat =
      (String.singleton ',').intercalate [toString w.toNat, toString h.toNat] := by
    apply String.toList_injective
    simp
  rw [hJoined, Utf8.split_intercalate (List.cons_ne_nil _ _) hComma]

theorem inner_resize (w h : UInt16) :
    inner "Resize(" ("Resize(" ++ (toString w.toNat ++ "," ++ toString h.toNat) ++ ")") =
      toString w.toNat ++ "," ++ toString h.toNat := by
  have hChars : ∀ c ∈ (toString w.toNat ++ "," ++ toString h.toNat).toList,
      c.isDigit ∨ c = ',' := by
    intro c hMem
    rw [String.toList_append, String.toList_append, List.mem_append, List.mem_append] at hMem
    rcases hMem with (hMem | hMem) | hMem
    · exact Or.inl (isDigit_of_mem hMem)
    · exact Or.inr (List.mem_singleton.mp hMem)
    · exact Or.inl (isDigit_of_mem hMem)
  refine (inner_bracketed_iff rfl).mpr ⟨fun hStarts => ?_, fun hEnds => ?_⟩
  · exact absurd (hChars 'R' (hStarts.mem (by decide))) (by decide)
  · exact absurd (hChars ')' (hEnds.mem (by decide))) (by decide)

theorem visitStr_resize (w h : UInt16) :
    visitStr ("Resize(" ++ (toString w.toNat ++ "," ++ toString h.toNat) ++ ")") =
      .ok (.resize w h) := by
  rw [visitStr_opened rfl, if_neg, if_pos (List.prefix_append _ _), inner_resize, split_sides]
  · simp only [side_toString]
    rfl
  · intro hError
    rcases List.prefix_or_prefix_of_prefix hError (List.prefix_append _ _) with hError | hError
    · exact absurd hError (by decide)
    · exact absurd hError (by decide)

end Resize

section ReadBack

variable {action : Action}

theorem readable_named : ∀ entry ∈ named, Readable entry.2 := by
  simp [named, Readable]

/-- Every action that is read is a readable one. -/
theorem readable_of_visitStr {value : String} (h : visitStr value = .ok action) :
    Readable action := by
  unfold visitStr at h
  cases hNamed : named.lookup value with
  | some found =>
    rw [hNamed] at h
    cases h
    exact readable_named _ (mem_named hNamed)
  | none =>
    rw [hNamed] at h
    dsimp only at h
    split at h
    · cases h
      exact not_brackets_inner "Error(" value (by decide)
    · split at h
      · split at h
        · obtain ⟨width, _, h⟩ := Fallible.ok_of_bind h
          obtain ⟨height, _, h⟩ := Fallible.ok_of_bind h
          cases h
          trivial
        · cases h
      · cases h

theorem visitStr_fmt (print : Printers) (h : Readable action) :
    visitStr (fmt print action) = .ok action := by
  cases action with
  | error e =>
    rw [fmt, visitStr_error, (inner_bracketed_iff rfl).mpr h]
  | resize width height => exact visitStr_resize width height
  | tab | command | execute | history | input => cases h
  | _ => rfl

/-- An action can be read from its own text exactly if it can be read from any text. -/
theorem read_back_iff (print : Printers) (action : Action) :
    (visitStr (fmt print action) = .ok action ↔ Readable action) ∧
      ((∃ value, visitStr value = .ok action) ↔ Readable action) :=
  ⟨⟨readable_of_visitStr, visitStr_fmt print⟩, fun ⟨_, hRead⟩ => readable_of_visitStr hRead,
    fun h => ⟨_, visitStr_fmt print h⟩⟩

end ReadBack

end Kld.Tui.Action
