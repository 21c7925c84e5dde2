import Kld.Lib.Fallible
import Kld.Tui.ActionTexts
import Kld.Tui.App

/-!
# The actions of an event

A binding file names its actions by their texts, so whatever a key is bound to can be read.
Of an event one such action is read at most, and the key as an input after it.
-/

namespace Kld.Tui

open Keys (KeyEvent)
open Fallible (foldlM_keeps)
open Kld.Tui.Action (Readable visitStr)
open Sql

section Bindings

/-- Every action that a file binds was read from its text. -/
def ReadByText (toml : String → Option RawBindings) : Prop :=
  ∀ content raw, toml content = some raw → ∀ mode innerMap, raw.lookup mode = some innerMap →
    ∀ key action, innerMap.lookup key = some action → ∃ value, visitStr value = .ok action

def Bound (keybindings : KeyBindings) : Prop :=
  ∀ mode keys action, keybindings.get mode keys = some action → Readable action

variable {toml : String → Option RawBindings}

theorem readable_convertInnerMap {innerMap : Table String Action} {keymap : KeyMap}
    (hRead : ∀ key action, innerMap.lookup key = some action → Readable action)
    (h : convertInnerMap innerMap = some keymap) :
    ∀ keys action, keymap.lookup keys = some action → Readable action := by
  refine foldlM_keeps (P := fun keymap : KeyMap => ∀ keys action,
    keymap.lookup keys = some action → Readable action) ?_ (fun keys action hNone => ?_) h
  · rintro ⟨key, bound⟩ hRow converted converted' hConverted hInsert keys action hLookup
    obtain ⟨parsed, _, rfl⟩ := Option.map_eq_some_iff.mp hInsert
    by_cases hKeys : keys = parsed.map KeyEvent.normalizeCase
    · rw [hKeys, AList.lookup_insert] at hLookup
      exact Option.some.inj hLookup ▸ hRead key bound (Table.mem_rows_iff.mp hRow)
    · rw [AList.lookup_insert_ne hKeys] at hLookup
      exact hConverted keys action hLookup
  · cases hNone

theorem bound_load (hToml : ReadByText toml) {content : String} {keybindings : KeyBindings}
    (h : load toml content = some keybindings) : Bound keybindings := by
  obtain ⟨raw, hRaw, hKeybindings⟩ := Option.bind_eq_some_iff.mp h
  have hAll : ∀ mode keymap, keybindings.lookup mode = some keymap →
      ∀ keys action, keymap.lookup keys = some action → Readable action := by
    refine foldlM_keeps (P := fun keybindings : KeyBindings => ∀ mode keymap,
      keybindings.lookup mode = some keymap → ∀ keys action, keymap.lookup keys = some action →
        Readable action) ?_ (fun mode keymap hNone => ?_) hKeybindings
    · rintro ⟨bound, innerMap⟩ hRow converted converted' hConverted hInsert mode keymap hLookup
      obtain ⟨inner, hInner, rfl⟩ := Option.map_eq_some_iff.mp hInsert
      by_cases hMode : mode = bound
      · rw [hMode, AList.lookup_insert] at hLookup
        obtain rfl := Option.some.inj hLookup
        refine readable_convertInnerMap (fun key action hAction => ?_) hInner
        obtain ⟨value, hValue⟩ :=
          hToml content raw hRaw bound innerMap (Table.mem_rows_iff.mp hRow) key action hAction
        exact Action.readable_of_visitStr hValue
      · rw [AList.lookup_insert_ne hMode] at hLookup
        exact hConverted mode keymap hLookup
    · cases hNone
  intro mode keys action hGet
  obtain ⟨keymap, hKeymap, hAction⟩ := Option.bind_eq_some_iff.mp hGet
  exact hAll mode keymap hKeymap _ action hAction

theorem bound_new (hToml : ReadByText toml) {readToString : String → Option String}
    {defaultKeyConfig : String} {userKeybinding : Option String} {keybindings : KeyBindings}
    (h : KeyBindings.new toml readToString defaultKeyConfig userKeybinding = some keybindings) :
    Bound keybindings := by
  obtain ⟨defaults, hDefaults, h⟩ := Option.bind_eq_some_iff.mp h
  split at h
  · exact Option.some.inj h ▸ bound_load hToml hDefaults
  · obtain ⟨loaded, hLoaded, h⟩ := Option.bind_eq_some_iff.mp h
    obtain rfl := Option.some.inj h
    intro mode keys action hGet
    rw [get_merged, Option.or_eq_some_iff] at hGet
    rcases hGet with hGet | ⟨_, hGet⟩
    · exact bound_load hToml hDefaults mode keys action hGet
    · exact bound_load hToml hLoaded mode keys action hGet

theorem readByText_shipped : ReadByText fun _ => some shippedBindings := by
  have hNamed : ∀ row ∈ Table.rows shippedBindings, ∀ entry ∈ Table.rows row.2,
      ∃ value ∈ Action.named, value.2 = entry.2 := by decide
  have hRead : ∀ entry ∈ Action.named, visitStr entry.1 = .ok entry.2 := by decide
  rintro _ _ ⟨⟩ mode innerMap hMode key action hAction
  obtain ⟨value, hValue, hSame⟩ := hNamed (mode, innerMap) (Table.mem_rows_iff.mpr hMode)
    (key, action) (Table.mem_rows_iff.mpr hAction)
  exact ⟨value.1, by rw [hRead value hValue, hSame]⟩

end Bindings

namespace App

section Events

variable {keybindings : KeyBindings}

/-- What is read of one event: one action at most, and after it the key as an input. -/
inductive Issued : List Action → Prop where
  | inputs {queue : List Action} (h : ∀ b ∈ queue, ∃ key, b = .input key) : Issued queue
  | own {a : Action} {rest : List Action} (hOwn : Readable a)
    (hRest : ∀ b ∈ rest, ∃ key, b = .input key) : Issued (a :: rest)

theorem Issued.append {own : Option Action} (hOwn : ∀ a, own = some a → Readable a)
    {rest : List Action} (hRest : ∀ b ∈ rest, ∃ key, b = .input key) :
    Issued (own.toList ++ rest) := by
  cases own with
  | none => exact .inputs hRest
  | some a => exact .own (hOwn a rfl) hRest

theorem handleKey_issued (hBound : Bound keybindings) (s : App) (key : KeyEvent) :
    ∃ lastTickKeyEvents issued, handleKey keybindings s key =
      { s with lastTickKeyEvents, queue := s.queue ++ issued } ∧ Issued issued := by
  have hRest : ∀ b ∈ (if s.mode = .command then [Action.input key] else []),
      ∃ key, b = .input key := by
    intro b hMem
    split at hMem
    · exact ⟨key, List.mem_singleton.mp hMem⟩
    · exact absurd hMem List.not_mem_nil
  have hSend : ∀ (lastTickKeyEvents : List KeyEvent) (own : Option Action),
      (∀ a, own = some a → Readable a) → handleKey keybindings s key =
        (let s := { s with lastTickKeyEvents, queue := s.queue ++ own.toList }
        if s.mode = .command then s.send [.input key] else s) →
      ∃ lastTickKeyEvents issued, handleKey keybindings s key =
        { s with lastTickKeyEvents, queue := s.queue ++ issued } ∧ Issued issued := by
    intro lastTickKeyEvents own hOwn hKey
    refine ⟨lastTickKeyEvents, _, hKey.trans ?_, .append hOwn hRest⟩
    rw [← List.append_assoc]
    by_cases hMode : s.mode = .command <;> simp [hMode, send]
  cases hLookup : keybindings.lookup s.mode with
  | none =>
    refine hSend s.lastTickKeyEvents none (fun a hNone => ?_) ?_
    · cases hNone
    · simp [handleKey, hLookup]
  | some keymap =>
    have hReadable : ∀ keys a, KeyMap.get keymap keys = some a → Readable a :=
      fun keys a hGet => hBound s.mode keys a (by rw [KeyBindings.get, hLookup]; exact hGet)
    cases hGet : KeyMap.get keymap [key] with
    | some action =>
      refine hSend s.lastTickKeyEvents (some action) (fun a hSome => ?_) ?_
      · exact hReadable _ a (hGet.trans hSome)
      · simp [handleKey, hLookup, hGet, send]
    | none =>
      refine hSend (s.lastTickKeyEvents ++ [key])
        (KeyMap.get keymap (s.lastTickKeyEvents ++ [key])) (hReadable _) ?_
      simp [handleKey, hLookup, hGet, send]

theorem handleEvent_issued (hBound : Bound keybindings) (s : App) (e : TuiEvent) :
    ∃ lastTickKeyEvents issued, handleEvent keybindings s e =
      { s with lastTickKeyEvents, queue := s.queue ++ issued } ∧ Issued issued := by
  have hNone : ∀ b ∈ ([] : List Action), ∃ key, b = .input key :=
    fun b hMem => absurd hMem List.not_mem_nil
  cases e with
  | quit => exact ⟨_, [.quit], rfl, .own trivial hNone⟩
  | tick => exact ⟨_, [.tick], rfl, .own trivial hNone⟩
  | render => exact ⟨_, [.render], rfl, .own trivial hNone⟩
  | resize w h => exact ⟨_, [.resize w h], rfl, .own trivial hNone⟩
  | key key => exact handleKey_issued hBound s key
  | other => exact ⟨s.lastTickKeyEvents, [], by simp [handleEvent], .inputs hNone⟩

end Events

end App

end Kld.Tui
