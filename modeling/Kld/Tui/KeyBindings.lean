import Kld.Lib.Table
import Kld.Tui.History
import Kld.Tui.Keys

/-!
# The key bindings of the terminal interface

The bindings of the user's file are added to those of the program. An entry that is
there already is kept.
-/

namespace Kld.Tui

open Keys (KeyEvent parseKeySequence)
open History (Cmd)
open Sql

inductive Mode where
  | navigate
  | command
deriving DecidableEq

inductive Action where
  | tick
  | render
  | resize (w h : UInt16)
  | suspend
  | resume
  | quit
  | refresh
  | error (message : String)
  | help
  | switchTab
  | tab (title : String)
  | navUp
  | navDown
  | navLeft
  | navRight
  | command (cmd : Cmd)
  | execute (cmd : Cmd) (input : String)
  | enterCmdMode
  | exitCmdMode
  | switchInputs
  | triggerExecute
  | history (timestamp : UInt64)
  | input (key : KeyEvent)
deriving DecidableEq

/-- Key sequences are kept in the form in which they are compared. -/
abbrev KeyMap := Table (List KeyEvent) Action

abbrev KeyBindings := Table Mode KeyMap

/-- The bindings of a file, which name the keys by their texts. -/
abbrev RawBindings := Table Mode (Table String Action)

section Loading

def KeyMap.get (keymap : KeyMap) (keys : List KeyEvent) : Option Action :=
  keymap.lookup (keys.map KeyEvent.normalizeCase)

def convertInnerMap (innerMap : Table String Action) : Option KeyMap :=
  innerMap.rows.foldlM (fun converted row =>
    (parseKeySequence row.1.toList).toOption.map fun keys =>
      converted.insert (keys.map KeyEvent.normalizeCase) row.2) ∅

/-- Undefined, as the unwrapping panics, if a text is no key sequence. -/
def deserialize (parsedMap : RawBindings) : Option KeyBindings :=
  parsedMap.rows.foldlM (fun keybindings row =>
    (convertInnerMap row.2).map fun converted => keybindings.insert row.1 converted) ∅

/-- An entry of the first map is kept where the second has it as well. -/
def addBindings (userBindings : KeyMap) (bindings : KeyMap) : KeyMap :=
  bindings.rows.foldl (fun userBindings row => userBindings.orInsert row.1 row.2) userBindings

def addMode (keybindings : KeyBindings) (loaded : Mode × KeyMap) : KeyBindings :=
  keybindings.insert loaded.1 (addBindings ((keybindings.lookup loaded.1).getD ∅) loaded.2)

def load (toml : String → Option RawBindings) (content : String) : Option KeyBindings :=
  (toml content).bind deserialize

def KeyBindings.new (toml : String → Option RawBindings) (readToString : String → Option String)
    (defaultKeyConfig : String) (userKeybinding : Option String) : Option KeyBindings := do
  let keybindings ← load toml defaultKeyConfig
  match userKeybinding.bind readToString with
  | none => pure keybindings
  | some content =>
    let loadedKeybindings ← load toml content
    pure (loadedKeybindings.rows.foldl addMode keybindings)

def KeyBindings.get (keybindings : KeyBindings) (mode : Mode) (keys : List KeyEvent) :
    Option Action :=
  (keybindings.lookup mode).bind fun keymap => KeyMap.get keymap keys

end Loading

def ofRows (rows : List (String × Action)) : Table String Action :=
  rows.foldl (fun innerMap row => innerMap.insert row.1 row.2) ∅

/-- The bindings that the program comes with. -/
def shippedBindings : RawBindings :=
  AList.insert .navigate
    (ofRows [("<esc>", .quit), ("<tab>", .switchTab), ("<up>", .navUp), ("<down>", .navDown),
      ("<left>", .navLeft), ("<right>", .navRight), ("<enter>", .enterCmdMode)])
    (AList.singleton .command
      (ofRows [("<esc>", .exitCmdMode), ("<tab>", .switchInputs), ("<enter>", .triggerExecute)]))

/-- What is bound for the user, and otherwise by default; nothing else is bound. -/
def UserFirst (defaults user merged : KeyBindings) : Prop :=
  ∀ mode keys, merged.get mode keys = (user.get mode keys).or (defaults.get mode keys)

/-- What is bound in both tables is bound to the same action. -/
def Agree (defaults user : KeyBindings) : Prop :=
  ∀ mode keys action action', defaults.get mode keys = some action →
    user.get mode keys = some action' → action = action'

section Merging

variable {defaults user : KeyBindings}

theorem get_addBindings (userBindings bindings : KeyMap) (keys : List KeyEvent) :
    KeyMap.get (addBindings userBindings bindings) keys =
      (KeyMap.get userBindings keys).or (KeyMap.get bindings keys) := by
  rw [KeyMap.get, addBindings, Table.lookup_foldl_orInsert, Table.lookup_rows]
  rfl

theorem get_addMode (keybindings : KeyBindings) (loaded : Mode × KeyMap) (mode : Mode)
    (keys : List KeyEvent) :
    (addMode keybindings loaded).get mode keys = (keybindings.get mode keys).or
      (if mode = loaded.1 then KeyMap.get loaded.2 keys else none) := by
  unfold KeyBindings.get addMode
  split
  · rename_i hMode
    rw [hMode, AList.lookup_insert, Option.bind_some, get_addBindings]
    cases keybindings.lookup loaded.1 <;> rfl
  · rename_i hMode
    rw [AList.lookup_insert_ne hMode, Option.or_none]

/-- The first of the loaded maps of a mode is asked last. -/
theorem get_foldl_addMode (keybindings : KeyBindings) (rows : List (Mode × KeyMap)) (mode : Mode)
    (keys : List KeyEvent) :
    (rows.foldl addMode keybindings).get mode keys = (keybindings.get mode keys).or
      (rows.findSome? fun loaded =>
        if mode = loaded.1 then KeyMap.get loaded.2 keys else none) := by
  induction rows generalizing keybindings with
  | nil => rw [List.foldl_nil, List.findSome?_nil, Option.or_none]
  | cons loaded rows ih =>
    rw [List.foldl_cons, ih, get_addMode, Option.or_assoc, List.findSome?_cons]
    cases (if mode = loaded.1 then KeyMap.get loaded.2 keys else none) <;> rfl

theorem get_merged (defaults user : KeyBindings) (mode : Mode) (keys : List KeyEvent) :
    (user.rows.foldl addMode defaults).get mode keys =
      (defaults.get mode keys).or (user.get mode keys) := by
  rw [get_foldl_addMode,
    Table.findSome_rows user mode fun keymap => KeyMap.get keymap keys]
  rfl

theorem userFirst_merged_iff :
    UserFirst defaults user (user.rows.foldl addMode defaults) ↔ Agree defaults user := by
  constructor
  · intro hFirst mode keys action action' hDefault hUser
    have hGet := hFirst mode keys
    rw [get_merged, hDefault, hUser] at hGet
    exact Option.some.inj hGet
  · intro hAgree mode keys
    rw [get_merged]
    cases hDefault : defaults.get mode keys with
    | none => rw [Option.none_or, Option.or_none]
    | some action =>
      cases hUser : user.get mode keys with
      | none => rfl
      | some action' =>
        exact congrArg some (hAgree mode keys action action' hDefault hUser)

/-- The user's bindings come first exactly if they change none of the default ones. -/
theorem userFirst_iff {toml : String → Option RawBindings} {readToString : String → Option String}
    {defaultKeyConfig path content : String}
    (hDefaults : load toml defaultKeyConfig = some defaults)
    (hContent : readToString path = some content) (hUser : load toml content = some user) :
    ∃ merged, KeyBindings.new toml readToString defaultKeyConfig (some path) = some merged ∧
      (UserFirst defaults user merged ↔ Agree defaults user) := by
  refine ⟨user.rows.foldl addMode defaults, ?_, userFirst_merged_iff⟩
  rw [KeyBindings.new, hDefaults, Option.bind_some, hContent]
  simp [hUser]

/-- A program with its own file and one of the user that has a single binding. -/
def withBinding (key : String) (action : Action) (content : String) : Option RawBindings :=
  if content = "default" then some shippedBindings
  else some (AList.singleton .navigate (ofRows [(key, action)]))

theorem q_userFirst : ∃ defaults user merged,
    KeyBindings.new (withBinding "q" .quit) some "default" (some "user") = some merged ∧
      (UserFirst defaults user merged ↔ Agree defaults user) := by
  obtain ⟨merged, hNew, hIff⟩ := @userFirst_iff _ _ (withBinding "q" .quit) some "default" "user"
    "user" rfl rfl rfl
  exact ⟨_, _, merged, hNew, hIff⟩

/-- The escape key still quits where the user has bound it to the help. -/
theorem esc_not_rebound : ∃ defaults user merged,
    load (withBinding "<esc>" .help) "default" = some defaults ∧
      load (withBinding "<esc>" .help) "user" = some user ∧
      KeyBindings.new (withBinding "<esc>" .help) some "default" (some "user") = some merged ∧
      user.get .navigate [.new .esc .empty] = some .help ∧
      merged.get .navigate [.new .esc .empty] = some .quit ∧
      ¬ UserFirst defaults user merged := by
  refine ⟨_, _, _, rfl, rfl, rfl, by decide, by decide, fun hFirst => ?_⟩
  exact absurd (hFirst .navigate [.new .esc .empty]) (by decide)

end Merging

end Kld.Tui
