import Kld.Tui.Components
import Kld.Tui.Dispatch
import Kld.Tui.KeyEvents

/-!
# The tab and the command on the screen

The components do not read each other. The bar sends the title of the tab, the list sends
the command below its cursor, and the others keep a copy of what they were sent. A key is
read when no action is left from the one before, and by then the copies agree.
-/

namespace Kld.Tui.App

open Keys (KeyEvent)
open History (Cmd)
open Kld.Tui.Action (Readable)
open Transition Mirror

section Moves

variable {Channel : Type} {env : Env Channel} {world : World} {s t : App} {action : Action}

/-- What the interface leaves to the components. -/
structure Kept (s : App) (action : Action) (t : App) : Prop where
  tabBar : t.tabBar = s.tabBar
  cmdList : t.cmdList = s.cmdList
  cmdDetails : ∃ length, t.cmdDetails = { s.cmdDetails with length }
  historyList : t.historyList = s.historyList
  queue : t.queue = s.queue ++ sent action

theorem kept (h : handleAction env world s action = some t) : Kept s action t := by
  cases action with
  | resize | render =>
    obtain ⟨length, rfl⟩ := draw_eq h
    exact ⟨rfl, rfl, ⟨length, rfl⟩, rfl, (List.append_nil _).symm⟩
  | execute cmd input =>
    obtain rfl := Option.some.inj h
    exact ⟨rfl, rfl, ⟨_, rfl⟩, rfl, rfl⟩
  | _ =>
    obtain rfl := Option.some.inj h
    exact ⟨rfl, rfl, ⟨_, rfl⟩, rfl, (List.append_nil _).symm⟩

/-- What the four components do with an action, and what each of them sends. -/
structure Moves (env : Env Channel) (world : World) (s : App) (action : Action) (s' : App)
    (fromList fromDetails fromHistory : Option Action) : Prop where
  bar : s'.tabBar = (s.tabBar.update env action).1
  list : s.cmdList.update env action = some (s'.cmdList, fromList)
  details : ∃ length, { s.cmdDetails with length }.update env action =
    some (s'.cmdDetails, fromDetails)
  history : s.historyList.update env world.loads action = some (s'.historyList, fromHistory)
  queue : s'.queue = s.queue ++ (sent action ++ ((s.tabBar.update env action).2.toList ++
    fromList.toList ++ fromDetails.toList ++ fromHistory.toList))

theorem moves {s' : App} (h : dispatch env world s action = some s') :
    ∃ fromList fromDetails fromHistory,
      Moves env world s action s' fromList fromDetails fromHistory := by
  obtain ⟨t, hHandle, hUpdate⟩ := Option.bind_eq_some_iff.mp h
  obtain ⟨hTabBar, hCmdList, ⟨length, hCmdDetails⟩, hHistoryList, hQueue⟩ := kept hHandle
  unfold updateComponents at hUpdate
  rw [hTabBar, hCmdList, hCmdDetails, hHistoryList, hQueue] at hUpdate
  generalize hBar : TabBar.update env s.tabBar action = bar at hUpdate
  obtain ⟨tabBar, fromBar⟩ := bar
  obtain ⟨⟨cmdList, fromList⟩, hList, hUpdate⟩ := Option.bind_eq_some_iff.mp hUpdate
  obtain ⟨⟨cmdDetails, fromDetails⟩, hDetails, hUpdate⟩ := Option.bind_eq_some_iff.mp hUpdate
  obtain ⟨⟨historyList, fromHistory⟩, hHistory, hUpdate⟩ := Option.bind_eq_some_iff.mp hUpdate
  cases hUpdate
  refine ⟨fromList, fromDetails, fromHistory, ?_, hList, ⟨length, hDetails⟩, hHistory, ?_⟩
  · rw [hBar]
  · rw [hBar]
    simp only [List.append_assoc]

end Moves

section Order

variable {a : Action} {rest : List Action}

/-- At most one action of a key is waiting, in front of what was typed; an interface that was
suspended is resumed first. -/
inductive Ordered : List Action → Prop where
  | follows {queue : List Action} (h : ∀ a ∈ queue, Follows a) : Ordered queue
  | own {a : Action} {rest : List Action} (hOwn : Readable a)
    (hRest : ∀ b ∈ rest, ∃ key, b = .input key) : Ordered (a :: rest)
  | resume {a : Action} {rest : List Action} (hOwn : Readable a)
    (hRest : ∀ b ∈ rest, ∃ key, b = .input key) : Ordered (.resume :: a :: rest)

/-- Nothing is told to another component, and no command is executed. -/
structure NoNews (a : Action) : Prop where
  tab : tabOf a = none
  command : commandOf a = none
  execute : ∀ cmd input, a ≠ .execute cmd input

theorem NoNews.of_readable (h : Readable a) : NoNews a := by
  cases a with
  | tab | command | execute | history | input => cases h
  | _ => exact ⟨rfl, rfl, nofun⟩

theorem NoNews.of_input (h : ∃ key, a = .input key) : NoNews a := by
  obtain ⟨key, rfl⟩ := h
  exact ⟨rfl, rfl, nofun⟩

theorem follows_of_input (h : ∃ key, a = .input key) : Follows a := by
  obtain ⟨key, rfl⟩ := h
  exact .input key

/-- An action that a component sent moves nothing; before any other there are no news. -/
theorem Ordered.head (h : Ordered (a :: rest)) :
    (Follows a ∧ ∀ b ∈ rest, Follows b) ∨ ((∀ b ∈ a :: rest, NoNews b) ∧
      ((∀ b ∈ rest, Follows b) ∨ (a = .resume ∧ Ordered rest))) := by
  cases h with
  | follows hAll => exact Or.inl (List.forall_mem_cons.mp hAll)
  | own hOwn hRest =>
    refine Or.inr ⟨List.forall_mem_cons.mpr ⟨.of_readable hOwn, ?_⟩, Or.inl ?_⟩
    · exact fun b hMem => .of_input (hRest b hMem)
    · exact fun b hMem => follows_of_input (hRest b hMem)
  | resume hOwn hRest =>
    refine Or.inr ⟨?_, Or.inr ⟨rfl, .own hOwn hRest⟩⟩
    refine List.forall_mem_cons.mpr ⟨.of_readable trivial, ?_⟩
    refine List.forall_mem_cons.mpr ⟨.of_readable hOwn, ?_⟩
    exact fun b hMem => .of_input (hRest b hMem)

theorem Issued.ordered {issued : List Action} (h : Issued issued) :
    Ordered issued ∧ Ordered (.resume :: issued) ∧ ∀ a ∈ issued, NoNews a := by
  cases h with
  | inputs hRest =>
    exact ⟨.follows fun b hMem => follows_of_input (hRest b hMem), .own trivial hRest,
      fun b hMem => .of_input (hRest b hMem)⟩
  | own hOwn hRest =>
    exact ⟨.own hOwn hRest, .resume hOwn hRest,
      List.forall_mem_cons.mpr ⟨.of_readable hOwn, fun b hMem => .of_input (hRest b hMem)⟩⟩

end Order

section Tracking

variable {Channel : Type} {env : Env Channel} {world : World} {s s' : App}

/-- Once the queue is delivered, every component shows the tab of the bar and the details
are those of the command below the cursor, which alone is executed. -/
structure Tracks (env : Env Channel) (s : App) : Prop where
  order : Ordered s.queue
  tab : ∃ shown, s.cmdList.display = decide (shown = env.wordBindings "Command List") ∧
    s.cmdDetails.display = decide (shown = env.wordBindings "Command List") ∧
    s.historyList.display = decide (shown = env.wordBindings "History") ∧
    (TabBar.titles env)[s.tabBar.index]? = some (settled tabOf s.queue shown)
  command : s.cmdList.At (settled commandOf s.queue s.cmdDetails.selectedCommand)
  execute : ∀ cmd input, .execute cmd input ∈ s.queue → s.cmdList.At cmd
  history : s.historyList.InRange

theorem Tracks.new (hWords : env.wordBindings "Command List" ≠ env.wordBindings "History") :
    Tracks env App.new where
  order := .follows fun _ hMem => absurd hMem List.not_mem_nil
  tab := ⟨env.wordBindings "Command List", (decide_eq_true rfl).symm, (decide_eq_true rfl).symm,
    (decide_eq_false hWords).symm, rfl⟩
  command := rfl
  execute := fun _ _ hMem => absurd hMem List.not_mem_nil
  history := fun _ hSelected => nomatch hSelected

/-- An event is read when no action is left, and moves no component. -/
theorem Tracks.receive (h : Tracks env s) (hQueue : s.queue = []) {queue : List Action}
    (hOrder : Ordered queue) (hNews : ∀ a ∈ queue, NoNews a) (lastTickKeyEvents : List KeyEvent) :
    Tracks env { s with lastTickKeyEvents, queue } where
  order := hOrder
  tab := by
    obtain ⟨shown, hList, hDetails, hHistory, hTitle⟩ := h.tab
    refine ⟨shown, hList, hDetails, hHistory, ?_⟩
    rw [settled_of_no_news fun a hMem => (hNews a hMem).tab, hTitle, hQueue, settled_nil]
  command := by
    have hCommand := h.command
    rw [hQueue, settled_nil] at hCommand
    rwa [settled_of_no_news fun a hMem => (hNews a hMem).command]
  execute := fun cmd input hMem => absurd rfl ((hNews _ hMem).execute cmd input)
  history := h.history

/-- What a step adds to the queue, told apart by its senders. -/
structure Added (action : Action) (d : CmdDetails) (cmd cmd' : Cmd) (fromBar fromList fromDetails
    fromHistory : Option Action) : Prop where
  bar : ∀ a ∈ fromBar.toList, ∃ title, a = .tab title
  list : CmdList.Keeps action cmd fromList cmd'
  details : ∀ a ∈ fromDetails.toList, d.Sends action a
  history : ∀ a ∈ fromHistory.toList, ∃ ts, a = .history ts

def added (action : Action) (fromBar fromList fromDetails fromHistory : Option Action) :
    List Action :=
  sent action ++ (fromBar.toList ++ fromList.toList ++ fromDetails.toList ++ fromHistory.toList)

theorem mem_sent {action a : Action} (h : a ∈ sent action) : a = .exitCmdMode := by
  unfold sent at h
  split at h
  · unfold execute at h
    split at h
    all_goals simp at h
    all_goals exact h
  · exact absurd h List.not_mem_nil

section Added

variable {action : Action} {d : CmdDetails} {cmd cmd' : Cmd}
  {fromBar fromList fromDetails fromHistory : Option Action}

theorem mem_added {a : Action}
    (h : Added action d cmd cmd' fromBar fromList fromDetails fromHistory)
    (hMem : a ∈ added action fromBar fromList fromDetails fromHistory) :
    a = .exitCmdMode ∨ (∃ title, a = .tab title) ∨ (∃ cmd, a = .command cmd) ∨
      (∃ ts, a = .history ts) ∨ ((action = .enterCmdMode ∨ action = .triggerExecute) ∧
        ∃ input, a = .execute d.selectedCommand input) := by
  simp only [added, List.mem_append] at hMem
  rcases hMem with hMem | ((hMem | hMem) | hMem) | hMem
  · exact Or.inl (mem_sent hMem)
  · exact Or.inr (Or.inl (h.bar a hMem))
  · rcases h.list with ⟨_, rfl⟩ | ⟨_, rfl⟩
    · exact absurd hMem List.not_mem_nil
    · exact Or.inr (Or.inr (Or.inl ⟨cmd', List.mem_singleton.mp hMem⟩))
  · obtain ⟨hAction, hExit | hExecute⟩ := h.details a hMem
    · exact Or.inl hExit
    · exact Or.inr (Or.inr (Or.inr (Or.inr ⟨hAction, hExecute⟩)))
  · exact Or.inr (Or.inr (Or.inr (Or.inl (h.history a hMem))))

theorem follows_added (h : Added action d cmd cmd' fromBar fromList fromDetails fromHistory) :
    ∀ a ∈ added action fromBar fromList fromDetails fromHistory, Follows a := by
  intro a hMem
  rcases mem_added h hMem with rfl | ⟨_, rfl⟩ | ⟨_, rfl⟩ | ⟨_, rfl⟩ | ⟨_, _, rfl⟩
  · exact .exitCmdMode
  · exact .tab _
  · exact .command _
  · exact .history _
  · exact .execute _ _

/-- Only the bar tells the title and only the list tells the command. -/
theorem settled_added (h : Added action d cmd cmd' fromBar fromList fromDetails fromHistory)
    (title : String) :
    settled tabOf (added action fromBar fromList fromDetails fromHistory) title =
        settled tabOf fromBar.toList title ∧
      settled commandOf (added action fromBar fromList fromDetails fromHistory) cmd = cmd' := by
  have hSent : ∀ a ∈ sent action, tabOf a = none ∧ commandOf a = none := by
    intro a hMem
    rw [mem_sent hMem]
    exact ⟨rfl, rfl⟩
  have hBar : ∀ a ∈ fromBar.toList, commandOf a = none := by
    intro a hMem
    obtain ⟨_, rfl⟩ := h.bar a hMem
    rfl
  have hDetails : ∀ a ∈ fromDetails.toList, tabOf a = none ∧ commandOf a = none := by
    intro a hMem
    obtain ⟨_, rfl | ⟨_, rfl⟩⟩ := h.details a hMem <;> exact ⟨rfl, rfl⟩
  have hHistory : ∀ a ∈ fromHistory.toList, tabOf a = none ∧ commandOf a = none := by
    intro a hMem
    obtain ⟨_, rfl⟩ := h.history a hMem
    exact ⟨rfl, rfl⟩
  have hList : (∀ a ∈ fromList.toList, tabOf a = none) ∧
      settled commandOf fromList.toList cmd = cmd' := by
    rcases h.list with ⟨rfl, rfl⟩ | ⟨_, rfl⟩
    · exact ⟨fun a hMem => absurd hMem List.not_mem_nil, rfl⟩
    · exact ⟨List.forall_mem_singleton.mpr rfl, rfl⟩
  constructor
  · rw [added, settled_append, settled_append, settled_append, settled_append,
      settled_of_no_news fun a hMem => (hSent a hMem).1, settled_of_no_news hList.1,
      settled_of_no_news fun a hMem => (hDetails a hMem).1,
      settled_of_no_news fun a hMem => (hHistory a hMem).1]
  · rw [added, settled_append, settled_append, settled_append, settled_append,
      settled_of_no_news fun a hMem => (hSent a hMem).2, settled_of_no_news hBar, hList.2,
      settled_of_no_news fun a hMem => (hDetails a hMem).2,
      settled_of_no_news fun a hMem => (hHistory a hMem).2]

end Added

/-- What one action does, for a list with its cursor on a command. -/
structure Delivered (env : Env Channel) (s : App) (action : Action) (cmd : Cmd) (s' : App)
    (sent : List Action) : Prop where
  queue : s'.queue = s.queue ++ sent
  follows : ∀ a ∈ sent, Follows a
  execute : ∀ c input, .execute c input ∈ sent →
    (action = .enterCmdMode ∨ action = .triggerExecute) ∧ c = s.cmdDetails.selectedCommand
  title : ∀ title, (TabBar.titles env)[s.tabBar.index]? = some title →
    (TabBar.titles env)[s'.tabBar.index]? = some (settled tabOf sent title)
  list : s'.cmdList.At (settled commandOf sent cmd) ∧
    (settled commandOf sent cmd = cmd ∨ action = .navUp ∨ action = .navDown)
  selected : s'.cmdDetails.selectedCommand = (commandOf action).getD s.cmdDetails.selectedCommand
  display : (s'.cmdList.display = (tabOf action).elim s.cmdList.display fun title =>
      decide (title = env.wordBindings "Command List")) ∧
    (s'.cmdDetails.display = (tabOf action).elim s.cmdDetails.display fun title =>
      decide (title = env.wordBindings "Command List")) ∧
    (s'.historyList.display = (tabOf action).elim s.historyList.display fun title =>
      decide (title = env.wordBindings "History"))
  history : s'.historyList.InRange
  resume : action = .resume → sent = []

theorem delivered {action : Action} {cmd : Cmd} (hAt : s.cmdList.At cmd)
    (hRange : s.historyList.InRange) (hStep : dispatch env world s action = some s') :
    ∃ sent, Delivered env s action cmd s' sent := by
  obtain ⟨fromList, fromDetails, fromHistory, hMoves⟩ := moves hStep
  obtain ⟨list', next, cmd', hList, hAt', hKeeps, hListDisplay⟩ :=
    CmdList.update_spec env hAt action
  obtain ⟨hListEq, rfl⟩ := Prod.mk.inj (Option.some.inj (hMoves.list.symm.trans hList))
  obtain ⟨length, hDetails⟩ := hMoves.details
  obtain ⟨hDetailsDisplay, hSelected, hSends⟩ := CmdDetails.update_spec hDetails
  obtain ⟨history', next', hHistory, hRange', hHistoryDisplay, hSendsHistory⟩ :=
    HistoryList.update_spec env hRange world.loads action
  obtain ⟨hHistoryEq, rfl⟩ :=
    Prod.mk.inj (Option.some.inj (hMoves.history.symm.trans hHistory))
  have hBar := TabBar.update_spec env s.tabBar action
  have hAdded : Added action _ cmd cmd' (s.tabBar.update env action).2 fromList fromDetails
      fromHistory :=
    ⟨hBar.1, hKeeps, fun a hMem => hSends a (Option.mem_toList.mp hMem),
      fun a hMem => hSendsHistory a (Option.mem_toList.mp hMem)⟩
  have hSettled := settled_added hAdded
  refine ⟨_, hMoves.queue, follows_added hAdded, ?_, ?_, ?_, hSelected, ?_, ?_, ?_⟩
  · intro c input hMem
    rcases mem_added hAdded hMem with hExit | ⟨_, hTab⟩ | ⟨_, hCommand⟩ | ⟨_, hTs⟩ |
      ⟨hAction, _, hExecute⟩
    · cases hExit
    · cases hTab
    · cases hCommand
    · cases hTs
    · cases hExecute
      exact ⟨hAction, rfl⟩
  · intro title hTitle
    have hBarTitle := hBar.2 title hTitle
    rw [← (hSettled title).1] at hBarTitle
    rw [hMoves.bar]
    exact hBarTitle
  · have hCmd : settled commandOf _ cmd = cmd' := (hSettled "").2
    refine ⟨?_, ?_⟩
    · rw [hListEq]
      exact hCmd ▸ hAt'
    · rcases hKeeps with ⟨hSame, _⟩ | ⟨hNav, _⟩
      · exact Or.inl (hCmd.trans hSame)
      · exact Or.inr hNav
  · rw [hListEq, hHistoryEq]
    exact ⟨hListDisplay, hDetailsDisplay, hHistoryDisplay⟩
  · rw [hHistoryEq]
    exact hRange'
  · rintro rfl
    obtain ⟨_, rfl⟩ := Prod.mk.inj (Option.some.inj hMoves.list)
    obtain ⟨_, rfl⟩ := Prod.mk.inj (Option.some.inj hDetails)
    obtain ⟨_, rfl⟩ := Prod.mk.inj (Option.some.inj hMoves.history)
    rfl

theorem Tracks.deliver {action : Action} {rest : List Action} (h : Tracks env s)
    (hQueue : s.queue = action :: rest)
    (hStep : dispatch env world { s with queue := rest } action = some s') : Tracks env s' := by
  have hOrder := hQueue ▸ h.order
  obtain ⟨sent, hDelivered⟩ : ∃ sent, Delivered env { s with queue := rest } action _ s' sent :=
    delivered h.command h.history hStep
  refine ⟨?_, ?_, ?_, ?_, hDelivered.history⟩
  · rw [hDelivered.queue]
    have hFollows : (∀ b ∈ rest, Follows b) → Ordered (rest ++ sent) := fun hRest =>
      .follows fun b hMem => (List.mem_append.mp hMem).elim (hRest b) (hDelivered.follows b)
    rcases hOrder.head with ⟨_, hRest⟩ | ⟨_, hRest | ⟨hResume, hRest⟩⟩
    · exact hFollows hRest
    · exact hFollows hRest
    · rw [hDelivered.resume hResume, List.append_nil]
      exact hRest
  · obtain ⟨shown, hList, hDetails, hHistory, hTitle⟩ := h.tab
    refine ⟨(tabOf action).getD shown, ?_, ?_, ?_, ?_⟩
    · rw [hDelivered.display.1]
      cases tabOf action <;> first | exact hList | rfl
    · rw [hDelivered.display.2.1]
      cases tabOf action <;> first | exact hDetails | rfl
    · rw [hDelivered.display.2.2]
      cases tabOf action <;> first | exact hHistory | rfl
    · rw [hDelivered.title _ hTitle, hDelivered.queue, hQueue, settled_append, settled_cons]
  · have hList := hDelivered.list.1
    rw [hQueue, settled_cons, ← hDelivered.selected] at hList
    rwa [hDelivered.queue, settled_append]
  · -- An action that a component sent neither moves the cursor nor has a command executed.
    have hNews : ¬ Follows action → ∀ b ∈ s.queue, NoNews b := by
      intro hNot
      rcases hOrder.head with ⟨hFollows, _⟩ | ⟨hNews, _⟩
      · exact absurd hFollows hNot
      · exact hQueue ▸ hNews
    have hStays : ∀ c, s.cmdList.At c → ¬ (action = .navUp ∨ action = .navDown) →
        s'.cmdList.At c := by
      intro c hAt hNot
      have hSame := hDelivered.list.2.resolve_right hNot
      have hList := hDelivered.list.1
      rw [hSame] at hList
      rwa [hAt.unique h.command]
    intro c input hMem
    rw [hDelivered.queue] at hMem
    rcases List.mem_append.mp hMem with hMem | hMem
    · have hInQueue : .execute c input ∈ s.queue := hQueue ▸ List.mem_cons_of_mem _ hMem
      refine hStays c (h.execute c input hInQueue) fun hNav => ?_
      have hNot : ¬ Follows action := by
        rcases hNav with rfl | rfl <;> nofun
      exact (hNews hNot _ hInQueue).execute c input rfl
    · obtain ⟨hAction, rfl⟩ := hDelivered.execute c input hMem
      have hNot : ¬ Follows action := by
        rcases hAction with rfl | rfl <;> nofun
      have hCommand := h.command
      rw [settled_of_no_news fun b hMem => (hNews hNot b hMem).command] at hCommand
      refine hStays _ hCommand fun hNav => ?_
      rcases hAction with rfl | rfl <;> rcases hNav with hNav | hNav <;> cases hNav

theorem Tracks.step {keybindings : KeyBindings} (hBound : Bound keybindings) {label : Step}
    (h : Tracks env s) (hStep : App.step keybindings env s label = some s') : Tracks env s' := by
  cases label with
  | event e =>
    rw [App.step] at hStep
    split at hStep
    · rename_i hTaken
      obtain rfl := Option.some.inj hStep
      split
      · obtain ⟨last, issued, hEvent, hIssued⟩ := handleEvent_issued hBound (s.send [.resume]) e
        obtain ⟨_, hOrder, hNews⟩ := hIssued.ordered
        rw [hEvent, send, hTaken.1]
        have hNews' := List.forall_mem_cons.mpr ⟨NoNews.of_readable (a := .resume) trivial, hNews⟩
        exact h.receive hTaken.1 hOrder hNews' last
      · obtain ⟨last, issued, hEvent, hIssued⟩ := handleEvent_issued hBound s e
        obtain ⟨hOrder, _, hNews⟩ := hIssued.ordered
        rw [hEvent, hTaken.1]
        exact h.receive hTaken.1 hOrder hNews last
    · cases hStep
  | dispatch world =>
    cases hQueue : s.queue with
    | nil =>
      rw [App.step, hQueue] at hStep
      cases hStep
    | cons action rest =>
      rw [App.step, hQueue] at hStep
      exact h.deliver hQueue hStep

/-- The bar, the list, the details and the history show the same one of the two tabs. -/
def OneTab (env : Env Channel) (s : App) : Prop :=
  ∃ title, (TabBar.titles env)[s.tabBar.index]? = some title ∧
    s.cmdList.display = decide (title = env.wordBindings "Command List") ∧
    s.cmdDetails.display = decide (title = env.wordBindings "Command List") ∧
    s.historyList.display = decide (title = env.wordBindings "History")

/-- When an event is read, one tab is shown and the details are those of the command below the
cursor; no list runs out, and what is executed is the command below the cursor. -/
def Agreed (env : Env Channel) (s : App) : Step → Prop
  | .event _ => s.queue = [] → OneTab env s ∧ s.cmdList.At s.cmdDetails.selectedCommand
  | .dispatch world => ∀ action rest, s.queue = action :: rest →
    (s.cmdList.update env action).isSome ∧ (s.historyList.update env world.loads action).isSome ∧
      ∀ cmd input, action = .execute cmd input → s.cmdList.At cmd

theorem Tracks.agreed (h : Tracks env s) (label : Step) : Agreed env s label := by
  cases label with
  | event e =>
    intro hQueue
    obtain ⟨shown, hList, hDetails, hHistory, hTitle⟩ := h.tab
    have hCommand := h.command
    rw [hQueue, settled_nil] at hTitle hCommand
    exact ⟨⟨shown, hTitle, hList, hDetails, hHistory⟩, hCommand⟩
  | dispatch world =>
    intro action rest hQueue
    obtain ⟨list', next, cmd', hList, _⟩ := CmdList.update_spec env h.command action
    obtain ⟨history', next', hHistory, _⟩ :=
      HistoryList.update_spec env h.history world.loads action
    refine ⟨hList ▸ rfl, hHistory ▸ rfl, ?_⟩
    rintro cmd input rfl
    exact h.execute cmd input (hQueue ▸ List.mem_cons_self)

/-- Whatever the files bind, whichever keys are pressed and whatever is read from the history. -/
theorem agreed_along {toml : String → Option RawBindings} (hToml : ReadByText toml)
    {readToString : String → Option String} {defaultKeyConfig : String}
    {userKeybinding : Option String} {keybindings : KeyBindings}
    (hNew : KeyBindings.new toml readToString defaultKeyConfig userKeybinding = some keybindings)
    (hWords : env.wordBindings "Command List" ≠ env.wordBindings "History") (steps : List Step) :
    Along (App.step keybindings env) (Agreed env) App.new steps :=
  along_of_invariant (fun _ _ _ hTracks hStep => Tracks.step (bound_new hToml hNew) hTracks hStep)
    (fun _ label hTracks => Tracks.agreed hTracks label) (Tracks.new hWords) steps

/-- Two commands down, then the other tab, whose list has one entry. -/
def browsed : List Step :=
  [.event (.key (.new .down .empty)), .dispatch ⟨none, []⟩, .dispatch ⟨none, []⟩,
    .event (.key (.new .down .empty)), .dispatch ⟨none, []⟩, .dispatch ⟨none, []⟩,
    .event (.key (.new .tab .empty)), .dispatch ⟨none, []⟩,
    .dispatch ⟨none, [none, some [(7, "NodeInfo")]]⟩, .dispatch ⟨none, []⟩]

theorem browsed_agreed : Along (App.step shipped CmdDetails.numbers)
      (Agreed CmdDetails.numbers) App.new browsed ∧
    (run (App.step shipped CmdDetails.numbers) App.new browsed).map (fun s =>
        (s.tabBar.index, s.cmdList.selected, s.cmdDetails.selectedCommand, s.cmdDetails.display,
          s.historyList.selected)) = some (1, 4, .nodeFees, false, some 0) := by
  have hNew : KeyBindings.new (fun _ => some shippedBindings) some "" none = some shipped := rfl
  exact ⟨agreed_along readByText_shipped hNew (by decide) browsed, by decide +kernel⟩

end Tracking

end Kld.Tui.App
