import Kld.Tui.CmdDetails

/-!
# The terminal interface

An event is turned into actions when no action is left from the one before. The actions
are processed in order, and each of them goes to the interface and then to every component,
which may add one.
-/

namespace Kld.Tui

open Keys (KeyEvent KeyCode)
open History (Cmd)
open Transition

section Components

variable {Channel : Type} (env : Env Channel)

structure TabBar where
  index : Nat

def TabBar.titles : List String :=
  [env.wordBindings "Command List", env.wordBindings "History"]

def TabBar.update (s : TabBar) : Action → TabBar × Option Action
  | .switchTab =>
    let index := (s.index + 1) % (titles env).length
    (⟨index⟩, (titles env)[index]?.map .tab)
  | _ => (s, none)

structure CmdList where
  display : Bool
  selected : Nat

/-- The commands, below headings. -/
def CmdList.items : List (Option Cmd) :=
  [none, some .appInfo,
    none, some .nodeInfo, some .nodeFees, some .nodeEslq, some .nodeSign, some .nodeLsfd,
    none, some .netwLsnd, some .netwFeer,
    none, some .peerList, some .peerCont, some .peerDisc,
    none, some .paymList, some .paymSdky, some .paymPayi,
    none, some .invoList, some .invoGene, some .invoDeco,
    none, some .chanList, some .chanOpen, some .chanSetf, some .chanClos, some .chanHist,
    some .chanBala, some .chanLsfd]

def CmdList.up (selected : Nat) : Nat := if selected = 0 then items.length - 1 else selected - 1

def CmdList.down (selected : Nat) : Nat := if selected = items.length - 1 then 0 else selected + 1

/-- Headings are passed over; undefined out of range and after `n` headings. -/
def CmdList.seek (move : Nat → Nat) : Nat → Nat → Option (Nat × Cmd)
  | 0, _ => none
  | n + 1, selected =>
    (items[move selected]?).bind fun item =>
      match item with
      | some cmd => some (move selected, cmd)
      | none => seek move n (move selected)

def CmdList.nav (move : Nat → Nat) (s : CmdList) : Option (CmdList × Option Action) :=
  if s.display then
    (seek move items.length s.selected).map fun found =>
      ({ s with selected := found.1 }, some (.command found.2))
  else some (s, none)

def CmdList.update (s : CmdList) : Action → Option (CmdList × Option Action)
  | .tab t => some ({ s with display := t = env.wordBindings "Command List" }, none)
  | .navUp => nav up s
  | .navDown => nav down s
  | _ => some (s, none)

structure HistoryList where
  display : Bool
  selected : Option Nat
  items : List (UInt64 × String)

def HistoryList.up (s : HistoryList) (idx : Nat) : Nat :=
  if idx = 0 then s.items.length - 1 else idx - 1

def HistoryList.down (s : HistoryList) (idx : Nat) : Nat :=
  if idx = s.items.length - 1 then 0 else idx + 1

/-- Undefined out of range. -/
def HistoryList.nav (move : HistoryList → Nat → Nat) (s : HistoryList) :
    Option (HistoryList × Option Action) :=
  match s.display, s.selected with
  | true, some idx => (s.items[move s idx]?).map fun item =>
    ({ s with selected := some (move s idx) }, some (.history item.1))
  | _, _ => some (s, none)

/-- The items of the first of three attempts that succeeds. -/
def HistoryList.loadItems (loads : List (Option (List (UInt64 × String)))) :
    Option (List (UInt64 × String)) := (loads.take 3).findSome? id

def HistoryList.switchTab (loads : List (Option (List (UInt64 × String)))) (s : HistoryList)
    (t : String) : HistoryList × Option Action :=
  let s :=
    match decide (t = env.wordBindings "History"), loadItems loads with
    | true, some items =>
      { s with display := true, items, selected := if items = [] then none else some 0 }
    | display, _ => { s with display }
  (s, s.items.head?.map fun item => .history item.1)

def HistoryList.update (loads : List (Option (List (UInt64 × String)))) (s : HistoryList) :
    Action → Option (HistoryList × Option Action)
  | .tab t => some (switchTab env loads s t)
  | .navUp => nav up s
  | .navDown => nav down s
  | _ => some (s, none)

end Components

/-- What the terminal reports. -/
inductive TuiEvent where
  | quit
  | tick
  | render
  | resize (w h : UInt16)
  | key (key : KeyEvent)
  | other

/-- The queue of actions, and the command for which the inputs were made. -/
structure App where
  shouldQuit : Bool
  shouldSuspend : Bool
  mode : Mode
  lastTickKeyEvents : List KeyEvent
  queue : List Action
  tabBar : TabBar
  cmdList : CmdList
  cmdDetails : CmdDetails
  historyList : HistoryList
  inputsOf : Option Cmd

/-- What is read from the history while an action is processed. -/
structure World where
  found : CmdDetails.Found
  loads : List (Option (List (UInt64 × String)))

namespace App

def new : App where
  shouldQuit := false
  shouldSuspend := false
  mode := .navigate
  lastTickKeyEvents := []
  queue := []
  tabBar := ⟨0⟩
  cmdList := ⟨true, 1⟩
  cmdDetails := .new
  historyList := ⟨false, none, []⟩
  inputsOf := none

def send (s : App) (actions : List Action) : App := { s with queue := s.queue ++ actions }

section Events

variable (keybindings : KeyBindings)

def handleKey (s : App) (key : KeyEvent) : App :=
  let s :=
    match keybindings.lookup s.mode with
    | some keymap =>
      match KeyMap.get keymap [key] with
      | some action => s.send [action]
      | none =>
        let s := { s with lastTickKeyEvents := s.lastTickKeyEvents ++ [key] }
        s.send (KeyMap.get keymap s.lastTickKeyEvents).toList
    | none => s
  if s.mode = .command then s.send [.input key] else s

def handleEvent (s : App) : TuiEvent → App
  | .quit => s.send [.quit]
  | .tick => s.send [.tick]
  | .render => s.send [.render]
  | .resize w h => s.send [.resize w h]
  | .key key => handleKey keybindings s key
  | .other => s

end Events

section Actions

variable {Channel : Type} (env : Env Channel) (world : World)

/-- A query runs in a thread of its own. -/
def execute (cmd : Cmd) : List Action :=
  match cmd with
  | .nodeInfo | .chanList | .peerCont | .chanOpen => [.exitCmdMode]
  | _ => []

def draw (s : App) : Option App :=
  (CmdDetails.draw env s.cmdDetails world.found).map fun drawn => { s with cmdDetails := drawn.1 }

def handleAction (s : App) : Action → Option App
  | .tick => some { s with lastTickKeyEvents := [] }
  | .quit => some { s with shouldQuit := true }
  | .suspend => some { s with shouldSuspend := true }
  | .resume => some { s with shouldSuspend := false }
  | .resize _ _ => draw env world s
  | .render => draw env world s
  | .enterCmdMode => some { s with mode := .command }
  | .exitCmdMode => some { s with mode := .navigate }
  | .execute cmd _ => some (s.send (execute cmd))
  | _ => some s

def hasInputs (cmd : Cmd) : Bool := cmd = .peerCont || cmd = .chanOpen

def inputsAfter (s : App) : Action → Option Cmd
  | .enterCmdMode =>
    if hasInputs s.cmdDetails.selectedCommand then some s.cmdDetails.selectedCommand
    else s.inputsOf
  | _ => s.inputsOf

def updateComponents (s : App) (action : Action) : Option App := do
  let (tabBar, fromTabBar) := s.tabBar.update env action
  let (cmdList, fromCmdList) ← s.cmdList.update env action
  let (cmdDetails, fromCmdDetails) ← s.cmdDetails.update env action
  let (historyList, fromHistoryList) ← s.historyList.update env world.loads action
  pure { s with
    tabBar, cmdList, cmdDetails, historyList
    inputsOf := inputsAfter s action
    queue := s.queue ++ fromTabBar.toList ++ fromCmdList.toList ++ fromCmdDetails.toList ++
      fromHistoryList.toList }

def dispatch (s : App) (action : Action) : Option App :=
  (handleAction env world s action).bind fun s => updateComponents env world s action

end Actions

inductive Step where
  | event (e : TuiEvent)
  | dispatch (world : World)

/-- The loop ends when it is to quit and not to be suspended. -/
def step {Channel : Type} (keybindings : KeyBindings) (env : Env Channel) (s : App) :
    Step → Option App
  | .event e =>
    if s.queue = [] ∧ (s.shouldSuspend ∨ ¬ s.shouldQuit) then
      some (handleEvent keybindings (if s.shouldSuspend then s.send [.resume] else s) e)
    else none
  | .dispatch world =>
    match s.queue with
    | action :: queue => dispatch env world { s with queue } action
    | [] => none

end App

end Kld.Tui
