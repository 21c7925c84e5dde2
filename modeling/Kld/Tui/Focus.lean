import Kld.Tui.Dispatch

/-!
# The input on focus

Between two events either nothing is on focus, or the inputs are those of the selected
command. A command that is executed or left keeps its focus until the next event, and
until then no character is typed.
-/

namespace Kld.Tui.App

open Keys (KeyEvent KeyCode)
open History (Cmd)
open Transition

section Phases

def inputCount : Cmd → Nat
  | .peerCont => 1
  | .chanOpen => 2
  | _ => 0

/-- One of the inputs of the selected command is on focus. -/
structure Editing (d : CmdDetails) (inputsOf : Option Cmd) : Prop where
  inputs : d.inputs.length = inputCount d.selectedCommand
  focus : ∃ i, d.onFocus = some i ∧ i < inputCount d.selectedCommand
  owner : inputsOf = some d.selectedCommand

/-- What can be processed while nothing is on focus. -/
def Calm (action : Action) : Prop :=
  action ≠ .enterCmdMode ∧ action ≠ .triggerExecute ∧ action ≠ .suspend ∧ action ≠ .resume

/-- What can be processed while an input is edited. -/
inductive Quiet : Action → Prop where
  | tick : Quiet .tick
  | render : Quiet .render
  | resize (w h : UInt16) : Quiet (.resize w h)
  | quit : Quiet .quit
  | input (key : KeyEvent) : Quiet (.input key)

/-- The actions after which an input is still edited, or the command is executed. -/
inductive Pending : List Action → Prop where
  | quiet {queue : List Action} (h : ∀ a ∈ queue, Quiet a) : Pending queue
  | switch (key : KeyEvent) : Pending [.switchInputs, .input key]
  | trigger {key : KeyEvent} (h : ¬ IsTyped key) : Pending [.triggerExecute, .input key]

/-- The actions that lead out of the command mode. -/
inductive Closing : List Action → Prop where
  | exit {rest : List Action} (h : ∀ a ∈ rest, Calm a) : Closing (.exitCmdMode :: rest)
  | execute {cmd : Cmd} (input : String) (h : execute cmd = [.exitCmdMode]) :
    Closing [.execute cmd input]
  | untyped {key : KeyEvent} {rest : List Action} (h : ¬ IsTyped key) (hRest : Closing rest) :
    Closing (.input key :: rest)

inductive Phase (s : App) : Prop where
  | idle (hMode : s.mode = .navigate) (hFocus : s.cmdDetails.onFocus = none)
    (hQueue : ∀ a ∈ s.queue, Calm a)
  | entering (hMode : s.mode = .navigate) (hFocus : s.cmdDetails.onFocus = none)
    (hQueue : s.queue = [.enterCmdMode])
  | editing (hMode : s.mode = .command) (hEditing : Editing s.cmdDetails s.inputsOf)
    (hQueue : Pending s.queue)
  | closing (hQueue : Closing s.queue)

structure Inv (s : App) : Prop where
  awake : s.shouldSuspend = false
  phase : Phase s

theorem IsNotice.calm {a : Action} (h : IsNotice a) : Calm a := by
  rcases h with ⟨_, rfl⟩ | ⟨_, rfl⟩ | ⟨_, rfl⟩ <;> simp [Calm]

theorem calm_sent (action : Action) : ∀ a ∈ sent action, Calm a := by
  intro a hMem
  unfold sent at hMem
  split at hMem
  · unfold execute at hMem
    split at hMem
    all_goals simp at hMem
    all_goals simp [hMem, Calm]
  · exact absurd hMem List.not_mem_nil

theorem not_mem_closing_nil : ¬ Closing [] := by
  intro h
  cases h

end Phases

section Events

variable {s : App}

/-- A key outside of the command mode may enter it, and asks for nothing else of the details. -/
theorem phase_idle_key (hMode : s.mode = .navigate) (hFocus : s.cmdDetails.onFocus = none)
    (hQueue : s.queue = []) (key : KeyEvent) : Phase (handleKey shipped s key) := by
  have hAll : ∀ a ∈ browseActions, a = .enterCmdMode ∨ Calm a := by
    unfold Calm
    decide
  obtain ⟨last, actions, hKey, hActions⟩ := handleKey_navigate hMode key
  rw [hKey, hQueue, List.nil_append]
  rcases hActions with rfl | ⟨action, hAction, rfl⟩
  · exact .idle hMode hFocus fun a hMem => absurd hMem List.not_mem_nil
  · rcases hAll action hAction with rfl | hCalm
    · exact .entering hMode hFocus rfl
    · exact .idle hMode hFocus (List.forall_mem_singleton.mpr hCalm)

theorem phase_idle_event (hMode : s.mode = .navigate) (hFocus : s.cmdDetails.onFocus = none)
    (hQueue : s.queue = []) (e : TuiEvent) : Phase (handleEvent shipped s e) := by
  have hSend : ∀ a, Calm a → Phase (s.send [a]) := by
    intro a ha
    refine .idle hMode hFocus ?_
    rw [send, hQueue, List.nil_append]
    exact List.forall_mem_singleton.mpr ha
  cases e with
  | quit | tick | render | resize => exact hSend _ (by simp [Calm])
  | other => exact .idle hMode hFocus fun a hMem => by simp [handleEvent, hQueue] at hMem
  | key key => exact phase_idle_key hMode hFocus hQueue key

/-- What a key adds before its input is nothing, or leaves the mode, or moves on. -/
theorem phase_editing_key (hMode : s.mode = .command) (hEditing : Editing s.cmdDetails s.inputsOf)
    (hQueue : s.queue = []) (key : KeyEvent) : Phase (handleKey shipped s key) := by
  obtain ⟨last, actions, hKey, hActions⟩ := handleKey_command hMode key
  rw [hKey, hQueue, List.nil_append]
  rcases hActions with rfl | rfl | rfl | ⟨rfl, hUntyped⟩
  · exact .editing hMode hEditing (.quiet (List.forall_mem_singleton.mpr (.input key)))
  · exact .closing (.exit (List.forall_mem_singleton.mpr (by simp [Calm])))
  · exact .editing hMode hEditing (.switch key)
  · exact .editing hMode hEditing (.trigger hUntyped)

theorem phase_editing_event (hMode : s.mode = .command)
    (hEditing : Editing s.cmdDetails s.inputsOf) (hQueue : s.queue = []) (e : TuiEvent) :
    Phase (handleEvent shipped s e) := by
  have hSend : ∀ a, Quiet a → Phase (s.send [a]) := by
    intro a ha
    refine .editing hMode hEditing (.quiet ?_)
    rw [send, hQueue, List.nil_append]
    exact List.forall_mem_singleton.mpr ha
  cases e with
  | quit => exact hSend _ .quit
  | tick => exact hSend _ .tick
  | render => exact hSend _ .render
  | resize w h => exact hSend _ (.resize w h)
  | other => exact .editing hMode hEditing (.quiet fun a hMem => by
      simp [handleEvent, hQueue] at hMem)
  | key key => exact phase_editing_key hMode hEditing hQueue key

/-- An event is only taken when no action is left. -/
theorem phase_handleEvent (hPhase : Phase s) (hQueue : s.queue = []) (e : TuiEvent) :
    Phase (handleEvent shipped s e) := by
  cases hPhase with
  | idle hMode hFocus _ => exact phase_idle_event hMode hFocus hQueue e
  | entering _ _ hEnter =>
    rw [hQueue] at hEnter
    cases hEnter
  | editing hMode hEditing _ => exact phase_editing_event hMode hEditing hQueue e
  | closing hClosing =>
    rw [hQueue] at hClosing
    exact absurd hClosing not_mem_closing_nil

end Events

section Updates

variable {Channel : Type} {env : Env Channel} {d d' : CmdDetails} {next : Option Action}
  {action : Action} {inputsOf : Option Cmd}

theorem update_calm (hFocus : d.onFocus = none) (hCalm : Calm action) :
    ∃ d', d.update env action = some (d', none) ∧ d'.onFocus = none := by
  have hEdit : ∀ edit, CmdDetails.editInput d edit = some d := fun edit => by
    rw [CmdDetails.editInput, hFocus]
  unfold CmdDetails.update
  split
  · exact ⟨_, rfl, hFocus⟩
  · exact ⟨_, rfl, hFocus⟩
  · refine ⟨_, rfl, ?_⟩
    unfold CmdDetails.navLeft
    split <;> exact hFocus
  · refine ⟨_, rfl, ?_⟩
    unfold CmdDetails.navRight
    split <;> exact hFocus
  · exact absurd rfl hCalm.1
  · exact ⟨_, rfl, rfl⟩
  · exact absurd rfl hCalm.2.1
  · refine ⟨d, ?_, hFocus⟩
    rw [CmdDetails.switchInputs, hFocus]
  · rename_i key
    have hInput : CmdDetails.handleInput d key = some d := by
      rcases CmdDetails.handleInput_cases d key with ⟨_, edit, hSame⟩ | ⟨_, hSame⟩
      · rw [hSame, hEdit]
      · exact hSame
    exact ⟨d, by rw [hInput]; rfl, hFocus⟩
  · exact ⟨d, rfl, hFocus⟩

theorem editInput_editing (hEditing : Editing d inputsOf) (edit : String → String) :
    ∃ d', CmdDetails.editInput d edit = some d' ∧ Editing d' inputsOf := by
  obtain ⟨i, hFocus, hLt⟩ := hEditing.focus
  have hSome : ∃ input, d.inputs[i]? = some input :=
    ⟨_, List.getElem?_eq_getElem (hEditing.inputs ▸ hLt)⟩
  obtain ⟨input, hInput⟩ := hSome
  refine ⟨{ d with inputs := d.inputs.set i (edit input) }, ?_, ?_, ⟨i, hFocus, hLt⟩,
    hEditing.owner⟩
  · rw [CmdDetails.editInput, hFocus]
    dsimp only
    rw [hInput]
    rfl
  · rw [List.length_set]
    exact hEditing.inputs

theorem update_quiet (hEditing : Editing d inputsOf) (hQuiet : Quiet action) :
    ∃ d', d.update env action = some (d', none) ∧ Editing d' inputsOf := by
  cases hQuiet with
  | tick | render | resize | quit => exact ⟨d, rfl, hEditing⟩
  | input key =>
    have hInput : ∃ d', CmdDetails.handleInput d key = some d' ∧ Editing d' inputsOf := by
      rcases CmdDetails.handleInput_cases d key with ⟨_, edit, hSame⟩ | ⟨_, hSame⟩
      · rw [hSame]
        exact editInput_editing hEditing edit
      · exact ⟨d, hSame, hEditing⟩
    obtain ⟨d', hSome, hEditing'⟩ := hInput
    exact ⟨d', by rw [CmdDetails.update, hSome]; rfl, hEditing'⟩

/-- Only commands with inputs are edited. -/
theorem Editing.selected (h : Editing d inputsOf) :
    d.selectedCommand = .peerCont ∨ d.selectedCommand = .chanOpen := by
  obtain ⟨i, _, hLt⟩ := h.focus
  unfold inputCount at hLt
  split at hLt
  · exact Or.inl ‹_›
  · exact Or.inr ‹_›
  · omega

theorem update_switchInputs (hEditing : Editing d inputsOf) :
    ∃ d', d.update env .switchInputs = some (d', none) ∧ Editing d' inputsOf := by
  obtain ⟨i, hFocus, hLt⟩ := hEditing.focus
  refine ⟨_, rfl, ?_⟩
  rw [CmdDetails.switchInputs, hFocus]
  rcases hEditing.selected with hSelected | hSelected
  · refine ⟨hEditing.inputs, ⟨0, ?_, ?_⟩, hEditing.owner⟩
    · simp only [hSelected]
    · rw [hSelected]
      decide
  · rw [hSelected] at hLt
    refine ⟨hEditing.inputs, ⟨if 1 < i + 1 then 0 else i + 1, ?_, ?_⟩, hEditing.owner⟩
    · simp only [hSelected]
    · change _ < inputCount d.selectedCommand
      rw [hSelected]
      change i < 2 at hLt
      change _ < 2
      split <;> omega

theorem update_triggerExecute (hJson : ∀ id satoshis, ∃ payload,
    env.fundChannelJson id satoshis = .ok payload) (hEditing : Editing d inputsOf) :
    ∃ d' cmd payload, d.update env .triggerExecute = some (d', some (.execute cmd payload)) ∧
      execute cmd = [.exitCmdMode] := by
  have hInputs := hEditing.inputs
  change ∃ d' cmd payload,
    CmdDetails.triggerExecute env d = some (d', some (.execute cmd payload)) ∧
      execute cmd = [.exitCmdMode]
  unfold CmdDetails.triggerExecute
  rcases hEditing.selected with hSelected | hSelected
  · rw [hSelected] at hInputs ⊢
    obtain ⟨id, hId⟩ := List.length_eq_one_iff.mp hInputs
    exact ⟨_, .peerCont, _, by rw [hId]; rfl, rfl⟩
  · rw [hSelected] at hInputs ⊢
    obtain ⟨id, satoshis, hBoth⟩ := List.length_eq_two.mp hInputs
    obtain ⟨payload, hPayload⟩ := hJson id satoshis
    exact ⟨_, .chanOpen, payload, by simp [hBoth, hPayload]; rfl, rfl⟩

theorem update_untyped {key : KeyEvent} (h : ¬ IsTyped key) :
    d.update env (.input key) = some (d, none) := by
  have hInput : CmdDetails.handleInput d key = some d := by
    rcases CmdDetails.handleInput_cases d key with ⟨hTyped, _⟩ | ⟨_, hSame⟩
    · exact absurd hTyped h
    · exact hSame
  rw [CmdDetails.update, hInput]
  rfl

end Updates

section Steps

variable {Channel : Type} {env : Env Channel} {s s' : App} {action : Action}

theorem Editing.of_sameInputs {d d' : CmdDetails} {inputsOf : Option Cmd} (hSame : SameInputs d d')
    (h : Editing d inputsOf) : Editing d' inputsOf := by
  obtain ⟨hFocus, hSelected, hInputs⟩ := hSame
  refine ⟨?_, ?_, ?_⟩
  · rw [hInputs, hSelected]
    exact h.inputs
  · rw [hFocus, hSelected]
    exact h.focus
  · rw [hSelected]
    exact h.owner

/-- No other component adds an action. -/
theorem Dispatched.silent (h : Dispatched env s action s') (hNot : ¬ Browses action) :
    ∃ drawn next, SameInputs s.cmdDetails drawn ∧
      drawn.update env action = some (s'.cmdDetails, next) ∧
      s'.queue = s.queue ++ (sent action ++ next.toList) := by
  obtain ⟨drawn, next, before, after, hSame, hUpdate, hQueue, _, hNone⟩ := h.details
  obtain ⟨rfl, rfl⟩ := List.append_eq_nil_iff.mp (hNone hNot)
  rw [List.append_nil, List.append_nil] at hQueue
  exact ⟨drawn, next, hSame, hUpdate, hQueue⟩

theorem phase_calm (h : Dispatched env s action s') (hMode : s.mode = .navigate)
    (hFocus : s.cmdDetails.onFocus = none) (hCalm : Calm action) (hQueue : ∀ a ∈ s.queue, Calm a) :
    Phase s' := by
  obtain ⟨drawn, next, before, after, hSame, hUpdate, hQueue', hNotices, _⟩ := h.details
  obtain ⟨d', hCalmUpdate, hFocus'⟩ : ∃ d', drawn.update env action = some (d', none) ∧
      d'.onFocus = none := update_calm (hSame.1.trans hFocus) hCalm
  obtain ⟨hDetails, rfl⟩ := Prod.mk.inj (Option.some.inj (hUpdate.symm.trans hCalmUpdate))
  refine .idle ?_ (hDetails ▸ hFocus') ?_
  · rw [h.mode, hMode]
    unfold modeAfter
    split
    · exact absurd rfl hCalm.1
    · rfl
    · rfl
  · rw [hQueue']
    simp only [List.mem_append, Option.toList_none, List.not_mem_nil, or_false]
    rintro a (hMem | (hMem | hMem) | hMem)
    · exact hQueue a hMem
    · exact calm_sent action a hMem
    · exact (hNotices a (List.mem_append_left _ hMem)).calm
    · exact (hNotices a (List.mem_append_right _ hMem)).calm

theorem phase_enter (h : Dispatched env s .enterCmdMode s') (hQueue : s.queue = []) : Phase s' := by
  obtain ⟨drawn, next, hSame, hUpdate, hQueue'⟩ := h.silent (by simp [Browses])
  have hOwner : s'.inputsOf = if hasInputs drawn.selectedCommand then
      some drawn.selectedCommand else s.inputsOf := by
    rw [h.inputsOf, inputsAfter, hSame.2.1]
  rw [hQueue, List.nil_append] at hQueue'
  -- The command has inputs, and the first of them is on focus.
  have hEdit : ∀ inputs : List String, inputs.length = inputCount drawn.selectedCommand →
      0 < inputCount drawn.selectedCommand → hasInputs drawn.selectedCommand →
      { drawn with onFocus := some 0, inputs } = s'.cmdDetails → s'.queue = [] → Phase s' := by
    intro inputs hLength hPos hInputs hDetails hNil
    rw [if_pos hInputs] at hOwner
    refine .editing h.mode ?_ (.quiet fun a hMem => absurd (hNil ▸ hMem) List.not_mem_nil)
    rw [← hDetails]
    exact ⟨hLength, ⟨0, rfl, hPos⟩, hOwner⟩
  change some (CmdDetails.enterCmdMode drawn) = _ at hUpdate
  unfold CmdDetails.enterCmdMode at hUpdate
  split at hUpdate
  · obtain ⟨_, rfl⟩ := Prod.mk.inj (Option.some.inj hUpdate)
    exact .closing (hQueue' ▸ .execute "" rfl)
  · rename_i hSelected
    obtain ⟨hDetails, rfl⟩ := Prod.mk.inj (Option.some.inj hUpdate)
    exact hEdit _ (hSelected ▸ rfl) (hSelected ▸ Nat.one_pos) (hSelected ▸ rfl) hDetails hQueue'
  · rename_i hSelected
    obtain ⟨hDetails, rfl⟩ := Prod.mk.inj (Option.some.inj hUpdate)
    exact hEdit _ (hSelected ▸ rfl) (hSelected ▸ Nat.two_pos) (hSelected ▸ rfl) hDetails hQueue'
  · obtain ⟨_, rfl⟩ := Prod.mk.inj (Option.some.inj hUpdate)
    exact .closing (hQueue' ▸ .execute "" rfl)
  · obtain ⟨_, rfl⟩ := Prod.mk.inj (Option.some.inj hUpdate)
    exact .closing (hQueue' ▸ .exit fun a hMem => absurd hMem List.not_mem_nil)

theorem Quiet.silent (h : Quiet action) :
    ¬ Browses action ∧ sent action = [] ∧ ∀ mode, modeAfter mode action = mode := by
  cases h <;> exact ⟨by simp [Browses], rfl, fun _ => rfl⟩

theorem inputsAfter_eq (hNot : action ≠ .enterCmdMode) : inputsAfter s action = s.inputsOf := by
  unfold inputsAfter
  split
  · exact absurd rfl hNot
  · rfl

theorem phase_editing (hJson : ∀ id satoshis, ∃ payload,
      env.fundChannelJson id satoshis = .ok payload) (h : Dispatched env s action s')
    (hMode : s.mode = .command) (hEditing : Editing s.cmdDetails s.inputsOf)
    (hQueue : Pending (action :: s.queue)) : Phase s' := by
  generalize hAll : action :: s.queue = queue at hQueue
  cases hQueue with
  | quiet hQuiet =>
    subst hAll
    obtain ⟨hHead, hTail⟩ := List.forall_mem_cons.mp hQuiet
    obtain ⟨hNot, hSent, hSameMode⟩ := hHead.silent
    obtain ⟨drawn, next, hSame, hUpdate, hQueue'⟩ := h.silent hNot
    obtain ⟨d', hQuietUpdate, hEditing'⟩ : ∃ d', drawn.update env action = some (d', none) ∧
        Editing d' s.inputsOf := update_quiet (hEditing.of_sameInputs hSame) hHead
    obtain ⟨hDetails, rfl⟩ := Prod.mk.inj (Option.some.inj (hUpdate.symm.trans hQuietUpdate))
    have hOwner : s'.inputsOf = s.inputsOf :=
      h.inputsOf.trans (inputsAfter_eq fun hEnter => by subst hEnter; cases hHead)
    rw [hSent, Option.toList_none, List.append_nil, List.append_nil] at hQueue'
    refine .editing (by rw [h.mode, hSameMode, hMode]) ?_ (.quiet (hQueue' ▸ hTail))
    rw [hOwner, hDetails]
    exact hEditing'
  | switch key =>
    obtain ⟨rfl, hRest⟩ := List.cons.inj hAll
    obtain ⟨drawn, next, hSame, hUpdate, hQueue'⟩ := h.silent (by simp [Browses])
    obtain ⟨d', hSwitch, hEditing'⟩ : ∃ d', drawn.update env .switchInputs = some (d', none) ∧
        Editing d' s.inputsOf := update_switchInputs (hEditing.of_sameInputs hSame)
    obtain ⟨hDetails, rfl⟩ := Prod.mk.inj (Option.some.inj (hUpdate.symm.trans hSwitch))
    rw [hRest] at hQueue'
    refine .editing (h.mode.trans hMode) ?_ (.quiet ?_)
    · rw [h.inputsOf, hDetails]
      exact hEditing'
    · rw [hQueue']
      exact fun a hMem => List.mem_singleton.mp hMem ▸ .input key
  | trigger hUntyped =>
    obtain ⟨rfl, hRest⟩ := List.cons.inj hAll
    obtain ⟨drawn, next, hSame, hUpdate, hQueue'⟩ := h.silent (by simp [Browses])
    obtain ⟨d', cmd, payload, hTrigger, hExecute⟩ :=
      update_triggerExecute hJson (hEditing.of_sameInputs hSame)
    obtain ⟨hDetails, rfl⟩ := Prod.mk.inj (Option.some.inj (hUpdate.symm.trans hTrigger))
    rw [hRest] at hQueue'
    exact .closing (hQueue' ▸ .untyped hUntyped (.execute payload hExecute))

theorem phase_closing (h : Dispatched env s action s') (hQueue : Closing (action :: s.queue)) :
    Phase s' := by
  generalize hAll : action :: s.queue = queue at hQueue
  cases hQueue with
  | exit hCalm =>
    obtain ⟨rfl, rfl⟩ := List.cons.inj hAll
    obtain ⟨drawn, next, hSame, hUpdate, hQueue'⟩ := h.silent (by simp [Browses])
    obtain ⟨hDetails, rfl⟩ := Prod.mk.inj (Option.some.inj hUpdate)
    have hRest : s'.queue = s.queue := hQueue'.trans (List.append_nil _)
    exact .idle h.mode (hDetails ▸ rfl) (hRest ▸ hCalm)
  | execute input hExecute =>
    obtain ⟨rfl, hRest⟩ := List.cons.inj hAll
    obtain ⟨drawn, next, hSame, hUpdate, hQueue'⟩ := h.silent (by simp [Browses])
    obtain ⟨_, rfl⟩ := Prod.mk.inj (Option.some.inj hUpdate)
    rw [hRest, sent, hExecute] at hQueue'
    exact .closing (hQueue' ▸ .exit fun a hMem => absurd hMem List.not_mem_nil)
  | untyped hUntyped hClosing =>
    obtain ⟨rfl, rfl⟩ := List.cons.inj hAll
    obtain ⟨drawn, next, hSame, hUpdate, hQueue'⟩ := h.silent (by simp [Browses])
    obtain ⟨_, rfl⟩ :=
      Prod.mk.inj (Option.some.inj (hUpdate.symm.trans (update_untyped hUntyped)))
    have hRest : s'.queue = s.queue := hQueue'.trans (List.append_nil _)
    exact .closing (hRest ▸ hClosing)

end Steps

section Runs

variable {Channel : Type} {env : Env Channel} {s s' : App}

theorem shouldSuspend_handleEvent (s : App) (e : TuiEvent) :
    (handleEvent shipped s e).shouldSuspend = s.shouldSuspend := by
  cases e with
  | quit | tick | render | resize | other => rfl
  | key key =>
    change (handleKey shipped s key).shouldSuspend = s.shouldSuspend
    cases hMode : s.mode with
    | navigate =>
      obtain ⟨last, actions, hKey, _⟩ := handleKey_navigate hMode key
      rw [hKey]
    | command =>
      obtain ⟨last, actions, hKey, _⟩ := handleKey_command hMode key
      rw [hKey]

/-- The program is never suspended by its own bindings. -/
theorem head_awake {action : Action} {rest : List Action} (hPhase : Phase s)
    (hQueue : s.queue = action :: rest) : action ≠ .suspend ∧ action ≠ .resume := by
  cases hPhase with
  | idle _ _ hCalm =>
    have hHead := hCalm action (hQueue ▸ List.mem_cons_self)
    exact ⟨hHead.2.2.1, hHead.2.2.2⟩
  | entering _ _ hEnter =>
    obtain ⟨rfl, _⟩ := List.cons.inj (hQueue.symm.trans hEnter)
    exact ⟨by decide, by decide⟩
  | editing _ _ hPending =>
    rw [hQueue] at hPending
    cases hPending with
    | quiet hQuiet =>
      have hHead := hQuiet action List.mem_cons_self
      cases hHead <;> simp
    | switch | trigger => simp
  | closing hClosing =>
    rw [hQueue] at hClosing
    cases hClosing <;> simp

theorem inv_dispatch (hJson : ∀ id satoshis, ∃ payload,
      env.fundChannelJson id satoshis = .ok payload) {action : Action} {rest : List Action}
    {world : World} (hInv : Inv s) (hQueue : s.queue = action :: rest)
    (hStep : dispatch env world { s with queue := rest } action = some s') : Inv s' := by
  have hDispatched := dispatched hStep
  obtain ⟨hSuspend, hResume⟩ := head_awake hInv.phase hQueue
  refine ⟨(hDispatched.suspend hSuspend hResume).trans hInv.awake, ?_⟩
  cases hInv.phase with
  | idle hMode hFocus hCalm =>
    rw [hQueue] at hCalm
    obtain ⟨hHead, hTail⟩ := List.forall_mem_cons.mp hCalm
    exact phase_calm hDispatched hMode hFocus hHead hTail
  | entering hMode hFocus hEnter =>
    obtain ⟨rfl, rfl⟩ := List.cons.inj (hQueue.symm.trans hEnter)
    exact phase_enter hDispatched rfl
  | editing hMode hEditing hPending =>
    exact phase_editing hJson hDispatched hMode hEditing (hQueue ▸ hPending)
  | closing hClosing => exact phase_closing hDispatched (hQueue ▸ hClosing)

theorem inv_step (hJson : ∀ id satoshis, ∃ payload,
      env.fundChannelJson id satoshis = .ok payload) {label : Step} (hInv : Inv s)
    (hStep : step shipped env s label = some s') : Inv s' := by
  cases label with
  | event e =>
    rw [step, hInv.awake, if_neg Bool.false_ne_true] at hStep
    split at hStep
    · rename_i hTaken
      cases hStep
      exact ⟨(shouldSuspend_handleEvent s e).trans hInv.awake,
        phase_handleEvent hInv.phase hTaken.1 e⟩
    · cases hStep
  | dispatch world =>
    cases hQueue : s.queue with
    | nil =>
      rw [step, hQueue] at hStep
      cases hStep
    | cons action rest =>
      rw [step, hQueue] at hStep
      exact inv_dispatch hJson hInv hQueue hStep

theorem inv_new : Inv new :=
  ⟨rfl, .idle rfl rfl fun _ hMem => absurd hMem List.not_mem_nil⟩

/-- An action is processed without a missing input, and what is typed goes to an input of the
selected command, if there is one on focus. -/
def Focused (env : Env Channel) (s : App) : Step → Prop
  | .event _ => True
  | .dispatch _ => ∀ action rest, s.queue = action :: rest →
    (s.cmdDetails.update env action).isSome ∧
      ∀ key, action = .input key → IsTyped key → s.cmdDetails.onFocus = none ∨
        Editing s.cmdDetails s.inputsOf

theorem focused_of_inv (hJson : ∀ id satoshis, ∃ payload,
      env.fundChannelJson id satoshis = .ok payload) (hInv : Inv s) (label : Step) :
    Focused env s label := by
  cases label with
  | event e => trivial
  | dispatch world =>
    intro action rest hQueue
    cases hInv.phase with
    | idle hMode hFocus hCalm =>
      obtain ⟨d', hUpdate, _⟩ : ∃ d', s.cmdDetails.update env action = some (d', none) ∧
          d'.onFocus = none := update_calm hFocus (hCalm action (hQueue ▸ List.mem_cons_self))
      exact ⟨Option.isSome_iff_exists.mpr ⟨_, hUpdate⟩, fun _ _ _ => Or.inl hFocus⟩
    | entering hMode hFocus hEnter =>
      obtain ⟨rfl, _⟩ := List.cons.inj (hQueue.symm.trans hEnter)
      exact ⟨rfl, fun _ _ _ => Or.inl hFocus⟩
    | editing hMode hEditing hPending =>
      refine ⟨?_, fun _ _ _ => Or.inr hEditing⟩
      rw [hQueue] at hPending
      cases hPending with
      | quiet hQuiet =>
        obtain ⟨d', hUpdate, _⟩ : ∃ d', s.cmdDetails.update env action = some (d', none) ∧
            Editing d' s.inputsOf := update_quiet hEditing (hQuiet action List.mem_cons_self)
        exact Option.isSome_iff_exists.mpr ⟨_, hUpdate⟩
      | switch key => rfl
      | trigger hUntyped =>
        obtain ⟨d', cmd, payload, hTrigger, _⟩ := update_triggerExecute hJson hEditing
        exact Option.isSome_iff_exists.mpr ⟨_, hTrigger⟩
    | closing hClosing =>
      rw [hQueue] at hClosing
      cases hClosing with
      | exit => exact ⟨rfl, fun _ hInput => nomatch hInput⟩
      | execute => exact ⟨rfl, fun _ hInput => nomatch hInput⟩
      | untyped hUntyped _ =>
        refine ⟨Option.isSome_iff_exists.mpr ⟨_, update_untyped hUntyped⟩, ?_⟩
        rintro key' hInput hTyped
        cases hInput
        exact absurd hTyped hUntyped

/-- No character is typed into an input that is missing or belongs to another command. -/
theorem focused_along (hJson : ∀ id satoshis, ∃ payload,
      env.fundChannelJson id satoshis = .ok payload) (steps : List Step) :
    Along (step shipped env) (Focused env) new steps :=
  along_of_invariant (fun _ _ _ => inv_step hJson)
    (fun _ label hInv => focused_of_inv hJson hInv label) inv_new steps

/-- Six commands up from the first is the one that opens a channel. -/
def openTyped : List Step :=
  (List.replicate 6 [.event (.key (.new .up .empty)), .dispatch ⟨none, []⟩,
    .dispatch ⟨none, []⟩]).flatten ++
  [.event (.key (.new .enter .empty)), .dispatch ⟨none, []⟩,
    .event (.key (.new (.char 'a') .empty)), .dispatch ⟨none, []⟩]

theorem open_typed_focused :
    Along (step shipped CmdDetails.numbers) (Focused CmdDetails.numbers) new openTyped ∧
      (run (step shipped CmdDetails.numbers) new openTyped).map
          (fun s => (s.cmdDetails.selectedCommand, s.cmdDetails.onFocus, s.cmdDetails.inputs)) =
        some (.chanOpen, some 0, ["a", ""]) :=
  ⟨focused_along (fun _ _ => ⟨_, rfl⟩) _, by decide +kernel⟩

end Runs

end Kld.Tui.App
