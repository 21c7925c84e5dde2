import Kld.Lib.Mirror
import Kld.Tui.ActionTexts
import Kld.Tui.App

/-!
# What the components send

Each component answers an action with one action at most: the bar with the title that it
moves to, the list with the command that it moves to, the history with its entry. The
others keep what they were sent.
-/

namespace Kld.Tui

open Keys (KeyEvent)
open History (Cmd)
open Kld.Tui.Action (Readable)
open Mirror

section Sent

variable {Channel : Type} {env : Env Channel} {action : Action}

def tabOf : Action → Option String
  | .tab title => some title
  | _ => none

def commandOf : Action → Option Cmd
  | .command cmd => some cmd
  | _ => none

/-- What a component or the interface itself adds to the queue. -/
inductive Follows : Action → Prop where
  | tab (title : String) : Follows (.tab title)
  | command (cmd : Cmd) : Follows (.command cmd)
  | history (ts : UInt64) : Follows (.history ts)
  | execute (cmd : Cmd) (input : String) : Follows (.execute cmd input)
  | exitCmdMode : Follows .exitCmdMode
  | input (key : KeyEvent) : Follows (.input key)

theorem TabBar.update_cases (bar : TabBar) (action : Action) :
    (action ≠ .switchTab ∧ bar.update env action = (bar, none)) ∨
      ∃ index title, (titles env)[index]? = some title ∧
        bar.update env action = (⟨index⟩, some (.tab title)) := by
  unfold TabBar.update
  split
  · have hLt : (bar.index + 1) % (titles env).length < (titles env).length :=
      Nat.mod_lt _ Nat.two_pos
    refine Or.inr ⟨_, _, List.getElem?_eq_getElem hLt, ?_⟩
    dsimp only
    rw [List.getElem?_eq_getElem hLt, Option.map_some]
  · rename_i hNot
    exact Or.inl ⟨hNot, rfl⟩

variable (env) in
/-- Where the bar moves, it sends the title that it moves to. -/
theorem TabBar.update_spec (bar : TabBar) (action : Action) :
    (∀ a ∈ (bar.update env action).2.toList, ∃ title, a = .tab title) ∧
      ∀ title, (titles env)[bar.index]? = some title →
        (titles env)[(bar.update env action).1.index]? =
          some (settled tabOf (bar.update env action).2.toList title) := by
  rcases bar.update_cases action with ⟨_, hSame⟩ | ⟨index, title, hTitle, hSwitch⟩
  · rw [hSame]
    exact ⟨fun a hMem => absurd hMem List.not_mem_nil, fun title hTitle => hTitle⟩
  · rw [hSwitch]
    exact ⟨List.forall_mem_singleton.mpr ⟨title, rfl⟩, fun _ _ => hTitle⟩

/-- One command is below the cursor. -/
def CmdList.At (list : CmdList) (cmd : Cmd) : Prop := items[list.selected]? = some (some cmd)

theorem CmdList.At.unique {list : CmdList} {cmd cmd' : Cmd} (h : list.At cmd) (h' : list.At cmd') :
    cmd = cmd' := Option.some.inj (Option.some.inj (h.symm.trans h'))

/-- Neither direction ends at a heading or runs out of the list. -/
theorem CmdList.seek_items : ∀ i < items.length, ∀ move ∈ [up, down],
    ∃ found, seek move items.length i = some found ∧ items[found.1]? = some (some found.2) := by
  have hAll : ∀ i < items.length, ∀ move ∈ [up, down],
      ((seek move items.length i).any fun found => items[found.1]? = some (some found.2)) := by
    decide
  intro i hi move hMove
  have hAny := hAll i hi move hMove
  cases hFound : seek move items.length i with
  | none =>
    rw [hFound] at hAny
    cases hAny
  | some found =>
    rw [hFound] at hAny
    exact ⟨found, rfl, of_decide_eq_true hAny⟩

theorem CmdList.nav_cases {list : CmdList} {cmd : Cmd} {move : Nat → Nat}
    (hMove : move ∈ [up, down]) (hAt : list.At cmd) :
    nav move list = some (list, none) ∨ ∃ list' cmd', list'.At cmd' ∧
      list'.display = list.display ∧ nav move list = some (list', some (.command cmd')) := by
  unfold nav
  split
  · have hLt : list.selected < items.length := (List.getElem?_eq_some_iff.mp hAt).1
    obtain ⟨found, hFound, hItem⟩ := seek_items list.selected hLt move hMove
    exact Or.inr ⟨{ list with selected := found.1 }, found.2, hItem, rfl, by rw [hFound]; rfl⟩
  · exact Or.inl rfl

/-- The cursor stays, or moves to a command that is sent. -/
def CmdList.Keeps (action : Action) (cmd : Cmd) (next : Option Action) (cmd' : Cmd) : Prop :=
  (cmd' = cmd ∧ next = none) ∨
    ((action = .navUp ∨ action = .navDown) ∧ next = some (.command cmd'))

variable (env) in
theorem CmdList.update_spec {list : CmdList} {cmd : Cmd} (hAt : list.At cmd) (action : Action) :
    ∃ list' next cmd', list.update env action = some (list', next) ∧ list'.At cmd' ∧
      Keeps action cmd next cmd' ∧
      (list'.display = (tabOf action).elim list.display fun title =>
        decide (title = env.wordBindings "Command List")) := by
  cases action with
  | tab title => exact ⟨_, none, cmd, rfl, hAt, Or.inl ⟨rfl, rfl⟩, rfl⟩
  | navUp =>
    rcases nav_cases List.mem_cons_self hAt with hNav | ⟨list', cmd', hAt', hDisplay, hNav⟩
    · exact ⟨list, none, cmd, hNav, hAt, Or.inl ⟨rfl, rfl⟩, rfl⟩
    · exact ⟨list', _, cmd', hNav, hAt', Or.inr ⟨Or.inl rfl, rfl⟩, hDisplay⟩
  | navDown =>
    rcases nav_cases (List.mem_cons_of_mem _ List.mem_cons_self) hAt with
      hNav | ⟨list', cmd', hAt', hDisplay, hNav⟩
    · exact ⟨list, none, cmd, hNav, hAt, Or.inl ⟨rfl, rfl⟩, rfl⟩
    · exact ⟨list', _, cmd', hNav, hAt', Or.inr ⟨Or.inr rfl, rfl⟩, hDisplay⟩
  | _ => exact ⟨list, none, cmd, rfl, hAt, Or.inl ⟨rfl, rfl⟩, rfl⟩

/-- The cursor, if there is one, is on an entry. -/
def HistoryList.InRange (list : HistoryList) : Prop :=
  ∀ idx, list.selected = some idx → idx < list.items.length

theorem HistoryList.nav_spec {list : HistoryList} {move : HistoryList → Nat → Nat}
    (hMove : ∀ idx < list.items.length, move list idx < list.items.length)
    (hRange : list.InRange) :
    ∃ list' next, nav move list = some (list', next) ∧ list'.InRange ∧
      list'.display = list.display ∧ ∀ a, next = some a → ∃ ts, a = .history ts := by
  unfold nav
  split
  · rename_i idx _ hSelected
    have hLt := hMove idx (hRange idx hSelected)
    refine ⟨{ list with selected := some (move list idx) }, _,
      by rw [List.getElem?_eq_getElem hLt]; rfl, ?_, rfl, ?_⟩
    · rintro _ ⟨⟩
      exact hLt
    · rintro a ⟨⟩
      exact ⟨_, rfl⟩
  · refine ⟨list, none, rfl, hRange, rfl, fun a hNone => ?_⟩
    cases hNone

variable (env) in
/-- The entries are read anew, or the list is kept as it was. -/
theorem HistoryList.switchTab_fst (list : HistoryList)
    (loads : List (Option (List (UInt64 × String)))) (title : String) :
    (switchTab env loads list title).1.display = decide (title = env.wordBindings "History") ∧
      ((∃ items, (switchTab env loads list title).1.items = items ∧
          (switchTab env loads list title).1.selected = if items = [] then none else some 0) ∨
        (switchTab env loads list title).1.items = list.items ∧
          (switchTab env loads list title).1.selected = list.selected) := by
  unfold switchTab
  cases decide (title = env.wordBindings "History") with
  | false => exact ⟨rfl, Or.inr ⟨rfl, rfl⟩⟩
  | true =>
    cases loadItems loads with
    | none => exact ⟨rfl, Or.inr ⟨rfl, rfl⟩⟩
    | some items => exact ⟨rfl, Or.inl ⟨items, rfl, rfl⟩⟩

variable (env) in
theorem HistoryList.inRange_switchTab {list : HistoryList} (hRange : list.InRange)
    (loads : List (Option (List (UInt64 × String)))) (title : String) :
    (switchTab env loads list title).1.InRange := by
  rcases (switchTab_fst env list loads title).2 with ⟨items, hItems, hSelected⟩ |
    ⟨hItems, hSelected⟩
  · intro idx hIdx
    rw [hSelected] at hIdx
    rw [hItems]
    split at hIdx
    · cases hIdx
    · rename_i hNe
      obtain rfl := Option.some.inj hIdx
      exact List.length_pos_iff.mpr hNe
  · intro idx hIdx
    rw [hSelected] at hIdx
    rw [hItems]
    exact hRange idx hIdx

variable (env) in
theorem HistoryList.update_spec {list : HistoryList} (hRange : list.InRange)
    (loads : List (Option (List (UInt64 × String)))) (action : Action) :
    ∃ list' next, list.update env loads action = some (list', next) ∧ list'.InRange ∧
      (list'.display = (tabOf action).elim list.display fun title =>
        decide (title = env.wordBindings "History")) ∧
      ∀ a, next = some a → ∃ ts, a = .history ts := by
  cases action with
  | tab title =>
    refine ⟨_, _, rfl, inRange_switchTab env hRange loads title,
      (switchTab_fst env list loads title).1, fun a hNext => ?_⟩
    obtain ⟨item, _, rfl⟩ := Option.map_eq_some_iff.mp hNext
    exact ⟨item.1, rfl⟩
  | navUp =>
    refine nav_spec (fun idx hIdx => ?_) hRange
    unfold up
    split <;> omega
  | navDown =>
    refine nav_spec (fun idx hIdx => ?_) hRange
    unfold down
    split <;> omega
  | _ =>
    refine ⟨list, none, rfl, hRange, rfl, fun a hNone => ?_⟩
    cases hNone

theorem CmdDetails.selectedCommand_handleInput {d d' : CmdDetails} {key : KeyEvent}
    (h : d.handleInput key = some d') :
    d'.display = d.display ∧ d'.selectedCommand = d.selectedCommand := by
  rcases CmdDetails.handleInput_cases d key with ⟨_, edit, hEdit⟩ | ⟨_, hSame⟩
  · rw [hEdit, CmdDetails.editInput] at h
    split at h
    · obtain ⟨_, _, rfl⟩ := Option.map_eq_some_iff.mp h
      exact ⟨rfl, rfl⟩
    · cases h
      exact ⟨rfl, rfl⟩
  · rw [hSame] at h
    cases h
    exact ⟨rfl, rfl⟩

/-- What the details send: the command mode is left, or their command is executed. -/
def CmdDetails.Sends (d : CmdDetails) (action next : Action) : Prop :=
  (action = .enterCmdMode ∨ action = .triggerExecute) ∧
    (next = .exitCmdMode ∨ ∃ input, next = .execute d.selectedCommand input)

theorem CmdDetails.enterCmdMode_spec (d : CmdDetails) :
    d.enterCmdMode.1.display = d.display ∧
      d.enterCmdMode.1.selectedCommand = d.selectedCommand ∧
      ∀ a, d.enterCmdMode.2 = some a → d.Sends .enterCmdMode a := by
  unfold CmdDetails.enterCmdMode
  split
  · rename_i hSelected
    refine ⟨rfl, rfl, ?_⟩
    rintro a ⟨⟩
    exact ⟨Or.inl rfl, Or.inr ⟨_, by rw [hSelected]⟩⟩
  · refine ⟨rfl, rfl, ?_⟩
    rintro a ⟨⟩
  · refine ⟨rfl, rfl, ?_⟩
    rintro a ⟨⟩
  · rename_i hSelected
    refine ⟨rfl, rfl, ?_⟩
    rintro a ⟨⟩
    exact ⟨Or.inl rfl, Or.inr ⟨_, by rw [hSelected]⟩⟩
  · refine ⟨rfl, rfl, ?_⟩
    rintro a ⟨⟩
    exact ⟨Or.inl rfl, Or.inl rfl⟩

theorem CmdDetails.triggerExecute_spec {d d' : CmdDetails} {next : Option Action}
    (h : d.triggerExecute env = some (d', next)) :
    d'.display = d.display ∧ d'.selectedCommand = d.selectedCommand ∧
      ∀ a, next = some a → d.Sends .triggerExecute a := by
  unfold CmdDetails.triggerExecute at h
  split at h
  · rename_i hSelected
    obtain ⟨id, _, h⟩ := Option.bind_eq_some_iff.mp h
    cases h
    refine ⟨rfl, rfl, ?_⟩
    rintro a ⟨⟩
    exact ⟨Or.inr rfl, Or.inr ⟨_, by rw [hSelected]⟩⟩
  · rename_i hSelected
    obtain ⟨id, _, h⟩ := Option.bind_eq_some_iff.mp h
    obtain ⟨satoshis, _, h⟩ := Option.bind_eq_some_iff.mp h
    split at h
    · cases h
      refine ⟨rfl, rfl, ?_⟩
      rintro a ⟨⟩
      exact ⟨Or.inr rfl, Or.inr ⟨_, by rw [hSelected]⟩⟩
    · cases h
      refine ⟨rfl, rfl, ?_⟩
      rintro a ⟨⟩
  · cases h
    refine ⟨rfl, rfl, ?_⟩
    rintro a ⟨⟩

theorem CmdDetails.update_spec {d d' : CmdDetails} {next : Option Action}
    (h : d.update env action = some (d', next)) :
    (d'.display = (tabOf action).elim d.display fun title =>
        decide (title = env.wordBindings "Command List")) ∧
      d'.selectedCommand = (commandOf action).getD d.selectedCommand ∧
      ∀ a, next = some a → d.Sends action a := by
  have hNone : ∀ a, none = some a → d.Sends action a := fun a hNone => nomatch hNone
  cases action with
  | tab | command | exitCmdMode =>
    cases h
    exact ⟨rfl, rfl, hNone⟩
  | navLeft =>
    cases h
    unfold CmdDetails.navLeft
    split <;> exact ⟨rfl, rfl, hNone⟩
  | navRight =>
    cases h
    unfold CmdDetails.navRight
    split <;> exact ⟨rfl, rfl, hNone⟩
  | switchInputs =>
    cases h
    unfold CmdDetails.switchInputs
    split <;> exact ⟨rfl, rfl, hNone⟩
  | enterCmdMode =>
    have hEnter := d.enterCmdMode_spec
    rw [Option.some.inj h] at hEnter
    exact hEnter
  | triggerExecute => exact CmdDetails.triggerExecute_spec h
  | input key =>
    obtain ⟨edited, hEdited, hSame⟩ := Option.map_eq_some_iff.mp h
    cases hSame
    obtain ⟨hDisplay, hSelected⟩ := CmdDetails.selectedCommand_handleInput hEdited
    exact ⟨hDisplay, hSelected, hNone⟩
  | _ =>
    cases h
    exact ⟨rfl, rfl, hNone⟩

end Sent

end Kld.Tui
