import Kld.Lib.Run
import Kld.Tui.KeyBindings

/-!
# The details of a command

The component keeps the inputs of the command that is edited and the page of the
channel list. The list itself is read from the history at every drawing.
-/

namespace Kld.Tui

open Keys (KeyEvent)
open History (Cmd)
open Transition

/-- A key that changes an input. -/
def IsTyped (key : KeyEvent) : Prop := (∃ c, key.code = .char c) ∨ key.code = .backspace

structure CmdDetails where
  display : Bool
  onFocus : Option Nat
  selectedCommand : Cmd
  inputs : List String
  index : Nat
  length : Nat
  errorMsg : Option String

def CmdDetails.new : CmdDetails := ⟨true, none, .appInfo, [], 0, 0, none⟩

/-- The last row of a command in the history. -/
structure SqlResult where
  timestamp : UInt64
  input : String
  output : String

/-- The texts of the interface, the requests as JSON, and the list of channels read from it. -/
structure Env (Channel : Type) where
  wordBindings : String → String
  peerContJson : String → String
  fundChannelJson : String → String → Except String String
  parseChannelDetails : String → Except String (List Channel)

namespace CmdDetails

variable {Channel : Type} (env : Env Channel)

section Updates

def navLeft (s : CmdDetails) : CmdDetails :=
  if 0 < s.length then
    { s with index := if s.index = 0 then s.length - 1 else s.index - 1 }
  else s

def navRight (s : CmdDetails) : CmdDetails :=
  if 0 < s.length then
    { s with index := if s.index = s.length - 1 then 0 else s.index + 1 }
  else s

def enterCmdMode (s : CmdDetails) : CmdDetails × Option Action :=
  match s.selectedCommand with
  | .nodeInfo => ({ s with onFocus := some 0 }, some (.execute .nodeInfo ""))
  | .peerCont => ({ s with onFocus := some 0, inputs := [""] }, none)
  | .chanOpen => ({ s with onFocus := some 0, inputs := ["", ""] }, none)
  | .chanList =>
    ({ s with onFocus := some 0, index := 0, length := 0 }, some (.execute .chanList ""))
  | _ => ({ s with onFocus := some 0 }, some .exitCmdMode)

/-- Undefined where an input is missing. -/
def triggerExecute (s : CmdDetails) : Option (CmdDetails × Option Action) :=
  match s.selectedCommand with
  | .peerCont => do
    let id ← s.inputs[0]?
    pure ({ s with errorMsg := none, inputs := [] },
      some (.execute .peerCont (env.peerContJson id)))
  | .chanOpen => do
    let id ← s.inputs[0]?
    let satoshis ← s.inputs[1]?
    match env.fundChannelJson id satoshis with
    | .ok payload =>
      pure ({ s with errorMsg := none, inputs := [] }, some (.execute .chanOpen payload))
    | .error e => pure ({ s with errorMsg := some e, inputs := [] }, none)
  | _ => some ({ s with errorMsg := none, inputs := [] }, none)

def switchInputs (s : CmdDetails) : CmdDetails :=
  match s.onFocus with
  | some onFocus =>
    let newFocus :=
      match s.selectedCommand with
      | .peerCont => 0
      | .chanOpen => if 1 < onFocus + 1 then 0 else onFocus + 1
      | _ => onFocus + 1
    { s with onFocus := some newFocus }
  | none => s

/-- Undefined where the input on focus does not exist. -/
def editInput (s : CmdDetails) (edit : String → String) : Option CmdDetails :=
  match s.onFocus with
  | some onFocus => (s.inputs[onFocus]?).map fun input =>
    { s with inputs := s.inputs.set onFocus (edit input) }
  | none => some s

def handleInput (s : CmdDetails) (key : KeyEvent) : Option CmdDetails :=
  match key.code with
  | .char c => editInput s (·.push c)
  | .backspace => editInput s fun input => String.ofList input.toList.dropLast
  | _ => some s

def update (s : CmdDetails) : Action → Option (CmdDetails × Option Action)
  | .tab t => some ({ s with display := t = env.wordBindings "Command List" }, none)
  | .command c => some ({ s with selectedCommand := c }, none)
  | .navLeft => some (navLeft s, none)
  | .navRight => some (navRight s, none)
  | .enterCmdMode => some (enterCmdMode s)
  | .exitCmdMode => some ({ s with onFocus := none }, none)
  | .triggerExecute => triggerExecute env s
  | .switchInputs => some (switchInputs s, none)
  | .input key => (handleInput s key).map fun s => (s, none)
  | _ => some (s, none)

theorem handleInput_cases (s : CmdDetails) (key : KeyEvent) :
    (IsTyped key ∧ ∃ edit, handleInput s key = editInput s edit) ∨
      (¬ IsTyped key ∧ handleInput s key = some s) := by
  unfold IsTyped handleInput
  cases key.code with
  | char c => exact Or.inl ⟨Or.inl ⟨c, rfl⟩, _, rfl⟩
  | backspace => exact Or.inl ⟨Or.inr rfl, _, rfl⟩
  | _ =>
    refine Or.inr ⟨?_, rfl⟩
    rintro (⟨_, hCode⟩ | hCode) <;> cases hCode

end Updates

section Drawing

/-- What the query for the last row of a command finds, if there is a connection. -/
abbrev Found := Option (Option SqlResult)

/-- The time of the last query and what is shown of it. -/
def lastResult : Found → Option UInt64 × String
  | some (some result) =>
    (some result.timestamp,
      if result.output = "" then env.wordBindings "On query, please wait..." ++ "\n"
      else result.input ++ "\n" ++ result.output ++ "\n")
  | some none => (none, env.wordBindings "Can not find out previous query." ++ "\n")
  | none => (none, "")

/-- The channels that are listed, if there is a result that can be read. -/
def listedChannels (s : CmdDetails) (found : Found) : Option (List Channel) :=
  if s.display ∧ s.selectedCommand = .chanList then
    (lastResult env found).1.bind fun _ =>
      (env.parseChannelDetails (lastResult env found).2).toOption
  else none

/-- The channel on the page; undefined where the index is out of range. -/
def draw (s : CmdDetails) (found : Found) : Option (CmdDetails × Option Channel) :=
  match listedChannels env s found with
  | some details =>
    (details[s.index]?).map fun channel => ({ s with length := details.length }, some channel)
  | none => some (s, none)

end Drawing

/-! ## The page of the channel list -/

section Page

inductive Event where
  | update (action : Action)
  | draw (found : Found)

def step (s : CmdDetails) : Event → Option CmdDetails
  | .update action => (update env s action).map Prod.fst
  | .draw found => (draw env s found).map Prod.fst

/-- The index is used for a list that has it. -/
def InRange (s : CmdDetails) : Event → Prop
  | .update _ => True
  | .draw found => ∀ details, listedChannels env s found = some details → s.index < details.length

/-- A list loses the page of an index if it is empty, or if it is shorter than the list that was
drawn last and ends before the index. -/
def losesPage (index drawn listed : Nat) : Bool :=
  listed = 0 || listed < drawn && listed ≤ index

/-- No list that is drawn loses the page. -/
def Fits (s : CmdDetails) : Event → Prop
  | .update _ => True
  | .draw found => ∀ details, listedChannels env s found = some details →
    losesPage s.index s.length details.length = false

/-- The page is one of the last list, or the first of none. -/
def PageInv (s : CmdDetails) : Prop := s.index < max s.length 1

variable {env} {s s' : CmdDetails}

theorem draw_eq_none_iff {found : Found} :
    draw env s found = none ↔ ¬ InRange env s (.draw found) := by
  unfold draw InRange
  cases hListed : listedChannels env s found with
  | none => simp [hListed]
  | some details =>
    rw [Option.map_eq_none_iff, List.getElem?_eq_none_iff, ← Nat.not_lt]
    simp only [hListed, Option.some.injEq, forall_eq']

theorem inRange_iff_fits (hInv : PageInv s) (event : Event) :
    InRange env s event ↔ Fits env s event := by
  cases event with
  | update action => exact Iff.rfl
  | draw row =>
    refine forall₂_congr fun details _ => ?_
    unfold losesPage
    unfold PageInv at hInv
    rw [Bool.or_eq_false_iff, Bool.and_eq_false_iff, decide_eq_false_iff_not,
      decide_eq_false_iff_not, decide_eq_false_iff_not]
    omega

/-- Nothing else turns the page. -/
def SamePage (s s' : CmdDetails) : Prop := s'.index = s.index ∧ s'.length = s.length

theorem samePage_triggerExecute {next : Option Action}
    (h : triggerExecute env s = some (s', next)) : SamePage s s' := by
  unfold triggerExecute at h
  split at h
  · obtain ⟨id, _, h⟩ := Option.bind_eq_some_iff.mp h
    cases h
    exact ⟨rfl, rfl⟩
  · obtain ⟨id, _, h⟩ := Option.bind_eq_some_iff.mp h
    obtain ⟨satoshis, _, h⟩ := Option.bind_eq_some_iff.mp h
    split at h <;> cases h <;> exact ⟨rfl, rfl⟩
  · cases h
    exact ⟨rfl, rfl⟩

theorem samePage_editInput {edit : String → String} (h : editInput s edit = some s') :
    SamePage s s' := by
  unfold editInput at h
  split at h
  · obtain ⟨input, _, rfl⟩ := Option.map_eq_some_iff.mp h
    exact ⟨rfl, rfl⟩
  · cases h
    exact ⟨rfl, rfl⟩

theorem samePage_handleInput {key : KeyEvent} (h : handleInput s key = some s') :
    SamePage s s' := by
  rcases handleInput_cases s key with ⟨_, edit, hEdit⟩ | ⟨_, hSame⟩
  · rw [hEdit] at h
    exact samePage_editInput h
  · rw [hSame] at h
    cases h
    exact ⟨rfl, rfl⟩

theorem samePage_switchInputs (s : CmdDetails) : SamePage s (switchInputs s) := by
  unfold switchInputs
  split <;> exact ⟨rfl, rfl⟩

theorem SamePage.pageInv (h : SamePage s s') (hInv : PageInv s) : PageInv s' := by
  unfold PageInv
  rw [h.1, h.2]
  exact hInv

theorem pageInv_navLeft (hInv : PageInv s) : PageInv (navLeft s) := by
  unfold PageInv navLeft at *
  grind

theorem pageInv_navRight (hInv : PageInv s) : PageInv (navRight s) := by
  unfold PageInv navRight at *
  grind

theorem pageInv_enterCmdMode (hInv : PageInv s) : PageInv (enterCmdMode s).1 := by
  unfold enterCmdMode
  split
  · exact hInv
  · exact hInv
  · exact hInv
  · unfold PageInv
    dsimp only
    omega
  · exact hInv

theorem pageInv_update {action : Action} {next : Option Action} (hInv : PageInv s)
    (hUpdate : update env s action = some (s', next)) : PageInv s' := by
  unfold update at hUpdate
  split at hUpdate
  · cases hUpdate
    exact hInv
  · cases hUpdate
    exact hInv
  · cases hUpdate
    exact pageInv_navLeft hInv
  · cases hUpdate
    exact pageInv_navRight hInv
  · have hPage := pageInv_enterCmdMode hInv
    rwa [Option.some.inj hUpdate] at hPage
  · cases hUpdate
    exact hInv
  · exact (samePage_triggerExecute hUpdate).pageInv hInv
  · cases hUpdate
    exact (samePage_switchInputs s).pageInv hInv
  · obtain ⟨s'', hInput, hSame⟩ := Option.map_eq_some_iff.mp hUpdate
    cases hSame
    exact (samePage_handleInput hInput).pageInv hInv
  · cases hUpdate
    exact hInv

theorem pageInv_step {event : Event} (hInv : PageInv s) (hStep : step env s event = some s') :
    PageInv s' := by
  cases event with
  | update action =>
    obtain ⟨⟨s'', next⟩, hUpdate, rfl⟩ := Option.map_eq_some_iff.mp hStep
    exact pageInv_update hInv hUpdate
  | draw row =>
    obtain ⟨⟨s'', channel⟩, hDraw, rfl⟩ := Option.map_eq_some_iff.mp hStep
    unfold draw at hDraw
    split at hDraw
    · rename_i details _
      obtain ⟨_, hChannel, hSame⟩ := Option.map_eq_some_iff.mp hDraw
      cases hSame
      obtain ⟨hLt, _⟩ := List.getElem?_eq_some_iff.mp hChannel
      unfold PageInv
      dsimp only
      omega
    · cases hDraw
      exact hInv

/-- The page is always there exactly if every list that is drawn has it. -/
theorem inRange_along_iff (events : List Event) :
    Along (step env) (InRange env) new events ↔ Along (step env) (Fits env) new events :=
  along_congr (fun _ _ _ hInv _ => pageInv_step hInv) (fun _ e hInv => inRange_iff_fits hInv e)
    (by unfold PageInv; decide) events

/-- A result is a list of channel numbers here. -/
def numbers : Env Nat where
  wordBindings := id
  peerContJson id := "\x7b\"id\":\"" ++ id ++ "\"\x7d"
  fundChannelJson id satoshis :=
    .ok ("\x7b\"id\":\"" ++ id ++ "\",\"satoshis\":\"" ++ satoshis ++ "\"\x7d")
  parseChannelDetails info :=
    if info = "\n[]\n" then .ok []
    else if info = "\n[1]\n" then .ok [1]
    else if info = "\n[1,2]\n" then .ok [1, 2]
    else .error "expected value"

/-- The list of a node without channels, and a list that lost the channel on the page. -/
theorem empty_list_panics :
    ¬ Along (step numbers) (InRange numbers) new
        [.update (.command .chanList), .draw (some (some ⟨0, "", "[]"⟩))] ∧
      run (step numbers) new
        [.update (.command .chanList), .draw (some (some ⟨0, "", "[]"⟩))] = none ∧
      run (step numbers) new
        [.update (.command .chanList), .draw (some (some ⟨0, "", "[1,2]"⟩)), .update .navLeft,
          .draw (some (some ⟨1, "", "[1]"⟩))] = none := by
  have hListed : listedChannels numbers { new with selectedCommand := .chanList }
      (some (some ⟨0, "", "[]"⟩)) = some [] := by decide
  refine ⟨fun hAlong => ?_, rfl, rfl⟩
  exact absurd ((hAlong.2 _ rfl).1 [] hListed) (Nat.not_lt_zero _)

end Page

end CmdDetails

end Kld.Tui
