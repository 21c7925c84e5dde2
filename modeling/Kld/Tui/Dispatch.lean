import Kld.Tui.App

/-!
# Keys and dispatched actions

The shipped bindings read one action at most of a key, and in the command mode the key is
an input after it. An action is handled by the interface and by every component, and only
the details change the inputs.
-/

namespace Kld.Tui.App

open Keys (KeyEvent KeyCode)
open History (Cmd)
open Transition

section Shipped

def shipped : KeyBindings := (deserialize shippedBindings).getD ∅

def navigateKeys : List (List KeyEvent × Action) :=
  [([.new .esc .empty], .quit), ([.new .tab .empty], .switchTab), ([.new .up .empty], .navUp),
    ([.new .down .empty], .navDown), ([.new .left .empty], .navLeft),
    ([.new .right .empty], .navRight), ([.new .enter .empty], .enterCmdMode)]

def commandKeys : List (List KeyEvent × Action) :=
  [([.new .esc .empty], .exitCmdMode), ([.new .tab .empty], .switchInputs),
    ([.new .enter .empty], .triggerExecute)]

theorem shipped_navigate : ∃ keymap, shipped.lookup .navigate = some keymap ∧
    Sql.Table.rows keymap = navigateKeys := ⟨_, rfl, by decide⟩

theorem shipped_command : ∃ keymap, shipped.lookup .command = some keymap ∧
    Sql.Table.rows keymap = commandKeys := ⟨_, rfl, by decide⟩

theorem mem_of_get {keymap : KeyMap} {keys : List KeyEvent} {action : Action}
    (h : KeyMap.get keymap keys = some action) :
    (keys.map KeyEvent.normalizeCase, action) ∈ Sql.Table.rows keymap :=
  Sql.Table.mem_rows_iff.mpr h

theorem code_of_normalizeCase {key : KeyEvent} (h : key.normalizeCase.code = .enter) :
    key.code = .enter := by
  unfold KeyEvent.normalizeCase at h
  split at h
  · rename_i c hCode
    split at h
    · rw [hCode] at h
      cases h
    · split at h
      · cases h
      · exact h
  · exact h

theorem length_of_mem {keys : List KeyEvent} {action : Action}
    (h : (keys.map KeyEvent.normalizeCase, action) ∈ navigateKeys ∨
      (keys.map KeyEvent.normalizeCase, action) ∈ commandKeys) : keys.length = 1 := by
  have hNavigate : ∀ entry ∈ navigateKeys, entry.1.length = 1 := by decide
  have hCommand : ∀ entry ∈ commandKeys, entry.1.length = 1 := by decide
  rw [← List.length_map (f := KeyEvent.normalizeCase)]
  exact h.elim (hNavigate _) (hCommand _)

end Shipped

section Keys

/-- What a key leads to outside of the command mode. -/
def browseActions : List Action :=
  [.quit, .switchTab, .navUp, .navDown, .navLeft, .navRight, .enterCmdMode]

/-- What a key leads to in the command mode, before it is an input. -/
def editActions (key : KeyEvent) (actions : List Action) : Prop :=
  actions = [] ∨ actions = [.exitCmdMode] ∨ actions = [.switchInputs] ∨
    (actions = [.triggerExecute] ∧ ¬ IsTyped key)

/-- The only key of a sequence was looked up before. -/
theorem get_multi {keymap : KeyMap} {keys : List KeyEvent} {key : KeyEvent}
    (hRows : Sql.Table.rows keymap = navigateKeys ∨ Sql.Table.rows keymap = commandKeys)
    (hSingle : KeyMap.get keymap [key] = none) : KeyMap.get keymap (keys ++ [key]) = none := by
  cases hGet : KeyMap.get keymap (keys ++ [key]) with
  | none => rfl
  | some action =>
    have hMem := mem_of_get hGet
    have hLength : (keys ++ [key]).length = 1 := length_of_mem
      (hRows.imp (fun hRows => hRows ▸ hMem) (fun hRows => hRows ▸ hMem))
    obtain rfl : keys = [] := by
      rw [List.length_append, List.length_singleton] at hLength
      exact List.length_eq_zero_iff.mp (by omega)
    rw [List.nil_append, hSingle] at hGet
    cases hGet

theorem handleKey_eq {s : App} {keymap : KeyMap} (hLookup : shipped.lookup s.mode = some keymap)
    (hRows : Sql.Table.rows keymap = navigateKeys ∨ Sql.Table.rows keymap = commandKeys)
    (key : KeyEvent) :
    ∃ lastTickKeyEvents, handleKey shipped s key = { s with
      lastTickKeyEvents
      queue := s.queue ++ (KeyMap.get keymap [key]).toList ++
        if s.mode = .command then [.input key] else [] } := by
  unfold handleKey
  simp only [hLookup]
  cases hGet : KeyMap.get keymap [key] with
  | some action =>
    refine ⟨s.lastTickKeyEvents, ?_⟩
    by_cases hMode : s.mode = .command <;> simp [hMode, send]
  | none =>
    refine ⟨s.lastTickKeyEvents ++ [key], ?_⟩
    simp only [send, get_multi hRows hGet, Option.toList_none, List.append_nil]
    by_cases hMode : s.mode = .command <;> simp [hMode]

theorem handleKey_navigate {s : App} (hMode : s.mode = .navigate) (key : KeyEvent) :
    ∃ lastTickKeyEvents actions, handleKey shipped s key =
        { s with lastTickKeyEvents, queue := s.queue ++ actions } ∧
      (actions = [] ∨ ∃ action ∈ browseActions, actions = [action]) := by
  obtain ⟨keymap, hLookup, hRows⟩ := shipped_navigate
  obtain ⟨last, hKey⟩ := handleKey_eq (hMode ▸ hLookup) (Or.inl hRows) key
  rw [if_neg (by rw [hMode]; decide), List.append_nil] at hKey
  refine ⟨last, _, hKey, ?_⟩
  cases hGet : KeyMap.get keymap [key] with
  | none => exact Or.inl rfl
  | some action =>
    have hAll : ∀ entry ∈ navigateKeys, entry.2 ∈ browseActions := by decide
    exact Or.inr ⟨action, hAll _ (hRows ▸ mem_of_get hGet), rfl⟩

theorem handleKey_command {s : App} (hMode : s.mode = .command) (key : KeyEvent) :
    ∃ lastTickKeyEvents actions, handleKey shipped s key =
        { s with lastTickKeyEvents, queue := s.queue ++ (actions ++ [.input key]) } ∧
      editActions key actions := by
  obtain ⟨keymap, hLookup, hRows⟩ := shipped_command
  obtain ⟨last, hKey⟩ := handleKey_eq (hMode ▸ hLookup) (Or.inr hRows) key
  rw [if_pos hMode, List.append_assoc] at hKey
  refine ⟨last, _, hKey, ?_⟩
  cases hGet : KeyMap.get keymap [key] with
  | none => exact Or.inl rfl
  | some action =>
    have hMem : ([key.normalizeCase], action) ∈ commandKeys := hRows ▸ mem_of_get hGet
    have hAll : ∀ entry ∈ commandKeys, entry.2 = .exitCmdMode ∨ entry.2 = .switchInputs ∨
        (entry.2 = .triggerExecute ∧ entry.1.map KeyEvent.code = [.enter]) := by decide
    rcases hAll _ hMem with rfl | rfl | ⟨rfl, hCode⟩
    · exact Or.inr (Or.inl rfl)
    · exact Or.inr (Or.inr (Or.inl rfl))
    · have hEnter : key.code = .enter := code_of_normalizeCase (List.cons.inj hCode).1
      refine Or.inr (Or.inr (Or.inr ⟨rfl, ?_⟩))
      rintro (⟨c, hChar⟩ | hBackspace)
      · cases hEnter.symm.trans hChar
      · cases hEnter.symm.trans hBackspace

end Keys

section Dispatch

variable {Channel : Type} {env : Env Channel} {world : World} {s s' : App} {action : Action}

/-- What the components beside the details add: a tab, a command or an entry of the history. -/
def IsNotice (action : Action) : Prop :=
  (∃ title, action = .tab title) ∨ (∃ cmd, action = .command cmd) ∨ ∃ ts, action = .history ts

/-- The actions on which another component than the details may add one. -/
def Browses (action : Action) : Prop :=
  action = .switchTab ∨ (∃ title, action = .tab title) ∨ action = .navUp ∨ action = .navDown

/-- The focus and the inputs are left alone. -/
def SameInputs (d d' : CmdDetails) : Prop :=
  d'.onFocus = d.onFocus ∧ d'.selectedCommand = d.selectedCommand ∧ d'.inputs = d.inputs

def modeAfter (mode : Mode) : Action → Mode
  | .enterCmdMode => .command
  | .exitCmdMode => .navigate
  | _ => mode

def sent : Action → List Action
  | .execute cmd _ => execute cmd
  | _ => []

/-- What an action does to the mode, the details and the queue. -/
structure Dispatched (env : Env Channel) (s : App) (action : Action) (s' : App) : Prop where
  mode : s'.mode = modeAfter s.mode action
  suspend : action ≠ .suspend → action ≠ .resume → s'.shouldSuspend = s.shouldSuspend
  inputsOf : s'.inputsOf = inputsAfter s action
  details : ∃ drawn next before after, SameInputs s.cmdDetails drawn ∧
    drawn.update env action = some (s'.cmdDetails, next) ∧
    s'.queue = s.queue ++ (sent action ++ before ++ next.toList ++ after) ∧
    (∀ a ∈ before ++ after, IsNotice a) ∧ (¬ Browses action → before ++ after = [])

variable (env action) in
theorem notice_tabBar (bar : TabBar) :
    (∀ a ∈ (bar.update env action).2.toList, IsNotice a) ∧
      (¬ Browses action → (bar.update env action).2.toList = []) := by
  unfold TabBar.update
  split
  · refine ⟨fun a hMem => ?_, fun hNot => absurd (Or.inl rfl) hNot⟩
    obtain ⟨title, _, rfl⟩ := Option.map_eq_some_iff.mp (Option.mem_toList.mp hMem)
    exact Or.inl ⟨title, rfl⟩
  · exact ⟨fun a hMem => absurd hMem List.not_mem_nil, fun _ => rfl⟩

theorem notice_cmdList {list list' : CmdList} {next : Option Action}
    (h : list.update env action = some (list', next)) :
    (∀ a ∈ next.toList, IsNotice a) ∧ (¬ Browses action → next.toList = []) := by
  have hNav : ∀ {move}, CmdList.nav move list = some (list', next) →
      ∀ a ∈ next.toList, IsNotice a := by
    intro move hNav a hMem
    unfold CmdList.nav at hNav
    split at hNav
    · obtain ⟨found, _, hSame⟩ := Option.map_eq_some_iff.mp hNav
      cases hSame
      rw [Option.toList_some, List.mem_singleton] at hMem
      exact Or.inr (Or.inl ⟨found.2, hMem⟩)
    · cases hNav
      exact absurd hMem List.not_mem_nil
  unfold CmdList.update at h
  split at h
  · cases h
    exact ⟨fun a hMem => absurd hMem List.not_mem_nil, fun _ => rfl⟩
  · exact ⟨hNav h, fun hNot => absurd (Or.inr (Or.inr (Or.inl rfl))) hNot⟩
  · exact ⟨hNav h, fun hNot => absurd (Or.inr (Or.inr (Or.inr rfl))) hNot⟩
  · cases h
    exact ⟨fun a hMem => absurd hMem List.not_mem_nil, fun _ => rfl⟩

theorem notice_historyList {list list' : HistoryList} {next : Option Action}
    (h : list.update env world.loads action = some (list', next)) :
    (∀ a ∈ next.toList, IsNotice a) ∧ (¬ Browses action → next.toList = []) := by
  have hNav : ∀ {move}, HistoryList.nav move list = some (list', next) →
      ∀ a ∈ next.toList, IsNotice a := by
    intro move hNav a hMem
    unfold HistoryList.nav at hNav
    split at hNav
    · obtain ⟨item, _, hSame⟩ := Option.map_eq_some_iff.mp hNav
      cases hSame
      rw [Option.toList_some, List.mem_singleton] at hMem
      exact Or.inr (Or.inr ⟨item.1, hMem⟩)
    · cases hNav
      exact absurd hMem List.not_mem_nil
  unfold HistoryList.update at h
  split at h
  · have hNext := (Prod.mk.inj (Option.some.inj h)).2
    refine ⟨fun a hMem => ?_, fun hNot => absurd (Or.inr (Or.inl ⟨_, rfl⟩)) hNot⟩
    rw [← hNext] at hMem
    obtain ⟨item, _, rfl⟩ := Option.map_eq_some_iff.mp (Option.mem_toList.mp hMem)
    exact Or.inr (Or.inr ⟨item.1, rfl⟩)
  · exact ⟨hNav h, fun hNot => absurd (Or.inr (Or.inr (Or.inl rfl))) hNot⟩
  · exact ⟨hNav h, fun hNot => absurd (Or.inr (Or.inr (Or.inr rfl))) hNot⟩
  · cases h
    exact ⟨fun a hMem => absurd hMem List.not_mem_nil, fun _ => rfl⟩

/-- What is drawn changes nothing but the number of pages. -/
theorem draw_eq {t : App} (h : draw env world s = some t) :
    ∃ length, t = { s with cmdDetails := { s.cmdDetails with length } } := by
  obtain ⟨⟨d, channel⟩, hDraw, rfl⟩ := Option.map_eq_some_iff.mp h
  unfold CmdDetails.draw at hDraw
  split at hDraw
  · obtain ⟨_, _, hSame⟩ := Option.map_eq_some_iff.mp hDraw
    cases hSame
    exact ⟨_, rfl⟩
  · cases hDraw
    exact ⟨_, rfl⟩

theorem sameInputs_draw {t : App} (h : draw env world s = some t) :
    ∃ d, SameInputs s.cmdDetails d ∧ t = { s with cmdDetails := d } := by
  obtain ⟨length, rfl⟩ := draw_eq h
  exact ⟨{ s.cmdDetails with length }, ⟨rfl, rfl, rfl⟩, rfl⟩

/-- What the interface itself does with an action, before the components see it. -/
structure Handled (s : App) (action : Action) (t : App) : Prop where
  mode : t.mode = modeAfter s.mode action
  suspend : action ≠ .suspend → action ≠ .resume → t.shouldSuspend = s.shouldSuspend
  inputsOf : t.inputsOf = s.inputsOf
  details : SameInputs s.cmdDetails t.cmdDetails
  queue : t.queue = s.queue ++ sent action

theorem handled {t : App} (h : handleAction env world s action = some t) :
    Handled s action t := by
  have hDraw : draw env world s = some t → ∀ b, modeAfter s.mode b = s.mode → sent b = [] →
      Handled s b t := by
    intro hDraw b hMode hSent
    obtain ⟨d, hSame, rfl⟩ := sameInputs_draw hDraw
    exact ⟨hMode.symm, fun _ _ => rfl, rfl, hSame, by rw [hSent, List.append_nil]⟩
  cases action with
  | suspend =>
    obtain rfl := Option.some.inj h
    exact ⟨rfl, fun hNot => absurd rfl hNot, rfl, ⟨rfl, rfl, rfl⟩, (List.append_nil _).symm⟩
  | resume =>
    obtain rfl := Option.some.inj h
    exact ⟨rfl, fun _ hNot => absurd rfl hNot, rfl, ⟨rfl, rfl, rfl⟩, (List.append_nil _).symm⟩
  | resize | render => exact hDraw h _ rfl rfl
  | execute cmd input =>
    obtain rfl := Option.some.inj h
    exact ⟨rfl, fun _ _ => rfl, rfl, ⟨rfl, rfl, rfl⟩, rfl⟩
  | _ =>
    obtain rfl := Option.some.inj h
    exact ⟨rfl, fun _ _ => rfl, rfl, ⟨rfl, rfl, rfl⟩, (List.append_nil _).symm⟩

theorem inputsAfter_handled {t : App} (h : Handled s action t) :
    inputsAfter t action = inputsAfter s action := by
  unfold inputsAfter
  rw [h.inputsOf, h.details.2.1]

theorem dispatched (h : dispatch env world s action = some s') : Dispatched env s action s' := by
  obtain ⟨t, hHandle, hUpdate⟩ := Option.bind_eq_some_iff.mp h
  have hHandled := handled hHandle
  obtain ⟨hBar, hBarNone⟩ := notice_tabBar env action t.tabBar
  unfold updateComponents at hUpdate
  generalize t.tabBar.update env action = bar at hUpdate hBar hBarNone
  obtain ⟨tabBar, fromTabBar⟩ := bar
  obtain ⟨⟨cmdList, fromCmdList⟩, hList, hUpdate⟩ := Option.bind_eq_some_iff.mp hUpdate
  obtain ⟨⟨cmdDetails, fromCmdDetails⟩, hDetails, hUpdate⟩ := Option.bind_eq_some_iff.mp hUpdate
  obtain ⟨⟨historyList, fromHistoryList⟩, hHistory, hUpdate⟩ :=
    Option.bind_eq_some_iff.mp hUpdate
  cases hUpdate
  obtain ⟨hCmd, hCmdNone⟩ := notice_cmdList hList
  obtain ⟨hHist, hHistNone⟩ := notice_historyList hHistory
  refine ⟨hHandled.mode, hHandled.suspend, inputsAfter_handled hHandled, t.cmdDetails,
    fromCmdDetails, fromTabBar.toList ++ fromCmdList.toList,
    fromHistoryList.toList, hHandled.details, hDetails, ?_, ?_, ?_⟩
  · rw [hHandled.queue]
    simp only [List.append_assoc]
  · intro a hMem
    simp only [List.mem_append] at hMem
    rcases hMem with (hMem | hMem) | hMem
    · exact hBar a hMem
    · exact hCmd a hMem
    · exact hHist a hMem
  · intro hNot
    rw [hBarNone hNot, hCmdNone hNot, hHistNone hNot]
    rfl

end Dispatch

end Kld.Tui.App
