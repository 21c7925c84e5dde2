import Kld.Lib.Fallible
import Kld.Lib.Utf8
import Mathlib.Data.List.Infix

/-!
# Keys and their texts

A key event is printed for the help view with its modifiers in front, once under the
names of the flags and once as they are written in a key binding file.
-/

namespace Kld.Keys

section Types

/-- Which media or modifier key it is never matters: all of these are printed as the empty text. -/
inductive KeyCode where
  | backspace
  | enter
  | left
  | right
  | up
  | down
  | home
  | «end»
  | pageUp
  | pageDown
  | tab
  | backTab
  | delete
  | insert
  | f (number : UInt8)
  | char (c : Char)
  | null
  | esc
  | capsLock
  | scrollLock
  | numLock
  | printScreen
  | pause
  | menu
  | keypadBegin
  | media
  | modifier
deriving DecidableEq

structure KeyModifiers where
  shift : Bool
  control : Bool
  alt : Bool
  super : Bool
  hyper : Bool
  «meta» : Bool
deriving DecidableEq

def KeyModifiers.empty : KeyModifiers := ⟨false, false, false, false, false, false⟩

inductive KeyEventKind where
  | press
  | repeat
  | release
deriving DecidableEq

structure KeyEventState where
  keypad : Bool
  capsLock : Bool
  numLock : Bool
deriving DecidableEq

structure KeyEvent where
  code : KeyCode
  modifiers : KeyModifiers
  kind : KeyEventKind
  state : KeyEventState
deriving DecidableEq

def KeyEvent.new (code : KeyCode) (modifiers : KeyModifiers) : KeyEvent :=
  ⟨code, modifiers, .press, ⟨false, false, false⟩⟩

/-- Events are equal if they are the same in this form. -/
def KeyEvent.normalizeCase (key : KeyEvent) : KeyEvent :=
  match key.code with
  | .char c =>
    if c.isUpper then { key with modifiers := { key.modifiers with shift := true } }
    else if key.modifiers.shift then { key with code := .char c.toUpper }
    else key
  | _ => key

end Types

section Parsing

def namedKeys : List (List Char × KeyCode) := [
  ("esc".toList, .esc),
  ("enter".toList, .enter),
  ("left".toList, .left),
  ("right".toList, .right),
  ("up".toList, .up),
  ("down".toList, .down),
  ("home".toList, .home),
  ("end".toList, .end),
  ("pageup".toList, .pageUp),
  ("pagedown".toList, .pageDown),
  ("backtab".toList, .backTab),
  ("backspace".toList, .backspace),
  ("delete".toList, .delete),
  ("insert".toList, .insert),
  ("f1".toList, .f 1),
  ("f2".toList, .f 2),
  ("f3".toList, .f 3),
  ("f4".toList, .f 4),
  ("f5".toList, .f 5),
  ("f6".toList, .f 6),
  ("f7".toList, .f 7),
  ("f8".toList, .f 8),
  ("f9".toList, .f 9),
  ("f10".toList, .f 10),
  ("f11".toList, .f 11),
  ("f12".toList, .f 12),
  ("space".toList, .char ' '),
  ("hyphen".toList, .char '-'),
  ("minus".toList, .char '-'),
  ("tab".toList, .tab)]

def unableToParse (raw : List Char) : String := "Unable to parse " ++ String.ofList raw

def parseKeyCodeWithModifiers (raw : List Char) (modifiers : KeyModifiers) :
    Except String KeyEvent :=
  match namedKeys.lookup raw with
  | some .backTab => .ok (.new .backTab { modifiers with shift := true })
  | some code => .ok (.new code modifiers)
  | none =>
    match raw with
    | [c] =>
      -- The length is counted in bytes.
      if c.toNat < 128 then
        .ok (.new (.char (if modifiers.shift then c.toUpper else c)) modifiers)
      else .error (unableToParse raw)
    | _ => .error (unableToParse raw)

/-- One prefix is taken away at each of at most `n` rounds. -/
def extractModifiers : Nat → List Char → KeyModifiers → List Char × KeyModifiers
  | 0, current, modifiers => (current, modifiers)
  | n + 1, current, modifiers =>
    if "ctrl-".toList <+: current then
      extractModifiers n (current.drop 5) { modifiers with control := true }
    else if "alt-".toList <+: current then
      extractModifiers n (current.drop 4) { modifiers with alt := true }
    else if "shift-".toList <+: current then
      extractModifiers n (current.drop 6) { modifiers with shift := true }
    else (current, modifiers)

def parseKeyEvent (raw : List Char) : Except String KeyEvent :=
  let rawLower := raw.map Char.toLower
  let (remaining, modifiers) := extractModifiers rawLower.length rawLower .empty
  parseKeyCodeWithModifiers remaining modifiers

def stripPrefix (c : Char) (raw : List Char) : Option (List Char) :=
  if raw.head? = some c then some raw.tail else none

def stripSuffix (c : Char) (raw : List Char) : Option (List Char) :=
  if raw.getLast? = some c then some raw.dropLast else none

/-- A single key is left with its closing bracket. -/
def stripOuter (raw : List Char) : List Char :=
  if ['>', '<'] <:+: raw then raw
  else
    let raw := (stripPrefix '<' raw).getD raw
    (stripPrefix '>' raw).getD raw

def stripBracket (seq : List Char) : List Char :=
  match stripPrefix '<' seq with
  | some s => s
  | none => (stripSuffix '>' seq).getD seq

def parseKeySequence (raw : List Char) : Except String (List KeyEvent) :=
  if raw.count '>' ≠ raw.count '<' then
    .error ("Unable to parse \x60" ++ String.ofList raw ++ "\x60")
  else
    ((Utf8.splitFrom ['>', '<'] 0 (stripOuter raw)).map stripBracket).mapM parseKeyEvent

end Parsing

section Printing

/-- The flags that are set, by name. -/
def KeyModifiers.iterNames (m : KeyModifiers) : List String :=
  [(m.shift, "SHIFT"), (m.control, "CONTROL"), (m.alt, "ALT"), (m.super, "SUPER"),
    (m.hyper, "HYPER"), (m.«meta», "META")].filterMap fun flag =>
      if flag.1 then some flag.2 else none

def keyCodeToString : KeyCode → List Char
  | .backspace => "backspace".toList
  | .enter => "enter".toList
  | .left => "left".toList
  | .right => "right".toList
  | .up => "up".toList
  | .down => "down".toList
  | .home => "home".toList
  | .end => "end".toList
  | .pageUp => "pageup".toList
  | .pageDown => "pagedown".toList
  | .tab => "tab".toList
  | .backTab => "backtab".toList
  | .delete => "delete".toList
  | .insert => "insert".toList
  | .f number => "f(".toList ++ (toString number.toNat).toList ++ [')']
  | .char ' ' => "space".toList
  | .char c => [c]
  | .esc => "esc".toList
  | .null | .capsLock | .menu | .scrollLock | .media | .numLock | .printScreen | .pause
  | .keypadBegin | .modifier => []

/-- The modifiers as a key binding file has them. -/
def modifierPrefix (m : KeyModifiers) : List Char :=
  let key := ['-'].intercalate ((if m.control then ["ctrl".toList] else []) ++
    (if m.shift then ["shift".toList] else []) ++ (if m.alt then ["alt".toList] else []))
  if key = [] then [] else key ++ ['-']

def keyEventToString (key : KeyEvent) : List Char :=
  modifierPrefix key.modifiers ++ keyCodeToString key.code

def flagNames (m : KeyModifiers) : List Char :=
  m.iterNames.flatMap fun name => name.toList ++ ['+']

/-- What is printed between the brackets. -/
def bracketed (key : KeyEvent) : List Char := flagNames key.modifiers ++ keyEventToString key

def keyEventsToString (keyEvents : List KeyEvent) : List Char :=
  keyEvents.flatMap fun key => '<' :: bracketed key ++ ['>']

end Printing

end Kld.Keys
