import Kld.Lib.Interaction
import Kld.Mgr.Flake
import Kld.Mgr.Secrets

/-!
# Programs for a host

All that the manager learns comes from programs that it starts and from files, whatever these
answer. What it asks goes to one host or to no machine but its own.
-/

namespace Kld.Fleet

open Config (Host Result context)
open Interaction
open Secrets (SecretsDir TempDir)

inductive ExitStatus where
  | code (code : Int)
  | signal
deriving DecidableEq

def ExitStatus.success (status : ExitStatus) : Bool := status = .code 0

structure Output where
  status : ExitStatus
  stdout : Bytes

/-- What the manager asks: a line of the user, the secret directory, a temporary directory, how the
disk takes files, certificates and secrets that are made where they are missing, a program to its
end without or with its output, a file, a program that is talked to, and that something is
printed. -/
inductive Request where
  | readLine
  | secretsDir
  | tempDir
  | disk
  | createDirAll (path : String)
  | pathExists (path : String)
  | lightningCerts (dir : String)
  | cockroachdbCerts (dir : String)
  | diskEncryptionKey (path : String)
  | mnemonicAndMacaroons (dir : String)
  | status (program : String) (args : List String)
  | output (program : String) (args : List String)
  | readFile (path : String)
  | spawn (program : String) (args : List String)
  | write (content : Bytes)
  | readToString
  | print (content : Bytes)

def Reply : Request → Type
  | .readLine => Option String
  | .secretsDir => SecretsDir
  | .tempDir => TempDir
  | .disk => Cluster.Disk
  | .createDirAll _ => Except String Unit
  | .pathExists _ => Bool
  | .lightningCerts _ => Result Unit
  | .cockroachdbCerts _ => Result Unit
  | .diskEncryptionKey _ => Result Unit
  | .mnemonicAndMacaroons _ => Result Unit
  | .status _ _ => Except String ExitStatus
  | .output _ _ => Except String Output
  | .readFile _ => Except String Bytes
  | .spawn _ _ => Except String Unit
  | .write _ => Except String Unit
  | .readToString => Except String String
  | .print _ => Except String Unit

abbrev Exchange := (request : Request) × Reply request

/-- A command fails, or the user interrupts it in a loop that might have no end. -/
inductive Stop where
  | failed (error : List String)
  | interrupted

abbrev Task (α : Type) := Program Reply (List String) α

abbrev LongTask (α : Type) := Program Reply Stop α

def request (q : Request) : Task (Reply q) := .ask q .done

def lift {α : Type} (result : Result α) : Task α := Program.ofExcept result

def io {α : Type} (result : Except String α) : Result α := result.mapError ([·])

def long {α : Type} (x : Task α) : LongTask α := x.mapError Stop.failed

def deploySshTarget (host : Host) : String := "root@" ++ host.hostname

def statusToPrettyErr (res : Except String ExitStatus) (command : String) (args : List String) :
    Result Unit :=
  match res with
  | .error e => .error ["failed to start this command: " ++ command, e]
  | .ok (.code code) =>
    if code = 0 then .ok ()
    else .error ["command " ++ command ++ " failed (" ++ command ++ " " ++ " ".intercalate args ++
      ") with exit code: " ++ toString code]
  | .ok .signal => .error ["command " ++ command ++ " (" ++ command ++ " " ++
      " ".intercalate args ++ ") was terminated by a signal"]

def runStatus (program : String) (args : List String) : Task Unit := do
  let status ← request (.status program args)
  lift (statusToPrettyErr status program args)

section Ssh

def sshArgs (host : Host) (command : List String) (learnKnownHostKey : Bool) : List String :=
  ["-o", "ConnectTimeout=10", "-o", "StrictHostKeyChecking=no"] ++
    (if learnKnownHostKey then [] else ["-o", "UserKnownHostsFile=/dev/null"]) ++
    [deploySshTarget host, "--"] ++ command

def timeoutSsh (host : Host) (command : List String) (learnKnownHostKey : Bool) :
    Task Output := do
  let output ← request (.output "ssh" (sshArgs host command learnKnownHostKey))
  lift (context "Failed to run ssh..." (io output))

def askpassArgs (host : Host) : List String :=
  ["-p", "2222", "-o", "ConnectTimeout=10", "-o", "StrictHostKeyChecking=no",
    deploySshTarget host, "cryptsetup-askpass"]

/-- Whether `cryptsetup-askpass` asked for the key. -/
def asked (response : String) : Bool := "Passphrase for".toList.isPrefixOf response.toList

def newline : Bytes := Utf8.encode "\n"

def enterPassword (key : Bytes) : Task Unit := do
  match ← request (.write key) with
  | .ok _ =>
    let written ← request (.write newline)
    lift (io written)
  | .error _ => Program.fail ["failed to enter password"]

def checkAsked : Task Unit := do
  match ← request .readToString with
  | .ok response =>
    if asked response then pure () else Program.fail ["sshd response unexpected"]
  | .error _ => Program.fail ["sshd response unexpected"]

def unlockOverSsh (host : Host) (keyFile : String) : Task Unit := do
  let key ← request (.readFile keyFile)
  let key ← lift (io key)
  let ssh ← request (.spawn "ssh" (askpassArgs host))
  lift (io ssh)
  enterPassword key
  checkAsked

/-- A host that lets the user in is unlocked already. -/
def tryUnlockOverSsh (host : Host) (keyFile : String) : Task Unit := do
  match ← (timeoutSsh host ["exit"] true).attempt with
  | .ok result =>
    if result.status.success then pure () else unlockOverSsh host keyFile
  | .error _ => unlockOverSsh host keyFile

def ssh (hosts : List Host) (command : List String) : Task Unit :=
  hosts.forM fun host => runStatus "ssh" ([deploySshTarget host, "--"] ++ command)

def reboot (hosts : List Host) : Task Unit := ssh hosts ["nohup reboot &>/dev/null & exit"]

end Ssh

section Machines

/-- The options of ssh that are used have one value each. -/
def sshDestination : List String → Option String
  | "-o" :: _ :: args => sshDestination args
  | "-p" :: _ :: args => sshDestination args
  | destination :: _ => some destination
  | [] => none

/-- The machine to which a program goes that is started. -/
def machine : Request → Option String
  | .status program args =>
    if program = "ssh" then sshDestination args
    else if program = "nixos-anywhere" then args.getLast?
    else none
  | .output program args => if program = "ssh" then sshDestination args else none
  | .spawn program args => if program = "ssh" then sshDestination args else none
  | _ => none

def machines (t : List Exchange) : List String := t.filterMap fun e => machine e.1

def connectionString (host : Host) : String :=
  if host.installSshUser = "" then host.hostname
  else host.installSshUser ++ "@" ++ host.hostname

/-- How a host is gone to, before and after its installation. -/
def machinesOf (host : Host) : List String := [connectionString host, deploySshTarget host]

def Own (host : Host) (q : Request) : Prop := ∀ m, machine q = some m → m ∈ machinesOf host

variable {host : Host}

theorem own_of_none {q : Request} (h : machine q = none) : Own host q := by
  intro m hSome
  rw [h] at hSome
  cases hSome

theorem own_target {q : Request} (h : machine q = some (deploySshTarget host)) : Own host q := by
  intro m hSome
  obtain rfl := Option.some.inj (h.symm.trans hSome)
  exact List.mem_cons_of_mem _ List.mem_cons_self

theorem target_ne (host : Host) {option : String} (h : option.toList.head? ≠ some 'r') :
    deploySshTarget host ≠ option := by
  rintro rfl
  exact h (congrArg List.head? (String.toList_append (s := "root@") (t := host.hostname)))

theorem sshDestination_target (host : Host) (args : List String) :
    sshDestination (deploySshTarget host :: args) = some (deploySshTarget host) := by
  have hO : deploySshTarget host ≠ "-o" := target_ne host (by decide)
  have hP : deploySshTarget host ≠ "-p" := target_ne host (by decide)
  generalize deploySshTarget host = target at hO hP
  unfold sshDestination
  split
  · exact absurd (List.cons.inj ‹_›).1 hO
  · exact absurd (List.cons.inj ‹_›).1 hP
  · exact congrArg some (List.cons.inj ‹_›).1.symm
  · rename_i hNil
    cases hNil

theorem machine_timeoutSsh (command : List String) (learn : Bool) :
    machine (.output "ssh" (sshArgs host command learn)) = some (deploySshTarget host) := by
  rw [machine, if_pos rfl, sshArgs]
  cases learn
  · exact sshDestination_target host ("--" :: command)
  · exact sshDestination_target host ("--" :: command)

theorem machine_askpass : machine (.spawn "ssh" (askpassArgs host)) =
    some (deploySshTarget host) := by
  rw [machine, if_pos rfl, askpassArgs]
  exact sshDestination_target host ["cryptsetup-askpass"]

/-- What is asked about a host before and after its installation. -/
def Aside (host : Host) (q : Request) : Prop :=
  Own host q ∧ ∀ args, q ≠ .status "nixos-anywhere" args

theorem asks_request {P : Request → Prop} {q : Request} (h : P q) : Asks P (request q) :=
  ⟨h, fun _ => trivial⟩

theorem aside_write (content : Bytes) : Aside host (.write content) := ⟨own_of_none rfl, nofun⟩

theorem asks_timeoutSsh (command : List String) (learn : Bool) :
    Asks (Aside host) (timeoutSsh host command learn) :=
  asks_bind (asks_request ⟨own_target (machine_timeoutSsh command learn), nofun⟩) fun _ =>
    asks_ofExcept _

theorem asks_enterPassword (key : Bytes) : Asks (Aside host) (enterPassword key) := by
  refine asks_bind (asks_request (aside_write key)) fun written => ?_
  cases written with
  | ok u => exact asks_bind (asks_request (aside_write newline)) fun _ => asks_ofExcept _
  | error e => trivial

theorem asks_checkAsked : Asks (Aside host) checkAsked := by
  refine asks_bind (asks_request ⟨own_of_none rfl, nofun⟩) fun response => ?_
  cases response with
  | ok response =>
    dsimp only
    split <;> trivial
  | error e => trivial

theorem asks_unlockOverSsh (keyFile : String) : Asks (Aside host) (unlockOverSsh host keyFile) :=
  asks_bind (asks_request ⟨own_of_none rfl, nofun⟩) fun _ =>
    asks_bind (asks_ofExcept _) fun key =>
    asks_bind (asks_request ⟨own_target machine_askpass, nofun⟩) fun _ =>
    asks_bind (asks_ofExcept _) fun _ =>
    asks_bind (asks_enterPassword key) fun _ => asks_checkAsked

theorem asks_tryUnlockOverSsh (keyFile : String) :
    Asks (Aside host) (tryUnlockOverSsh host keyFile) := by
  refine asks_bind (asks_attempt (asks_timeoutSsh ["exit"] true)) fun result => ?_
  cases result with
  | ok result =>
    dsimp only
    split
    · trivial
    · exact asks_unlockOverSsh keyFile
  | error e => exact asks_unlockOverSsh keyFile

theorem own_of_aside {ε α : Type} {x : Program Reply ε α} (h : Asks (Aside host) x) :
    Asks (Own host) x := h.mono fun _ hAside => hAside.1

theorem machine_ssh (command : List String) :
    machine (.status "ssh" ([deploySshTarget host, "--"] ++ command)) =
      some (deploySshTarget host) := by
  rw [machine, if_pos rfl]
  exact sshDestination_target host ("--" :: command)

theorem seen_of_ask {ε α : Type} {q : Request} {m : String} (h : machine q = some m)
    {next : Reply q → Program Reply ε α} {t : List Exchange} {result : Except ε α}
    (hRun : Runs (.ask q next) t result) : machines t ≠ [] := by
  obtain ⟨r, rest, rfl, _⟩ := runs_ask_iff.mp hRun
  have hCons : machines (⟨q, r⟩ :: rest) = m :: machines rest :=
    List.filterMap_cons_some (f := fun e : Exchange => machine e.1) h
  exact hCons ▸ List.cons_ne_nil _ _

theorem seen_tryUnlockOverSsh {keyFile : String} {t : List Exchange}
    {result : Except (List String) Unit} (h : Runs (tryUnlockOverSsh host keyFile) t result) :
    machines t ≠ [] := seen_of_ask (machine_timeoutSsh ["exit"] true) h

end Machines

section Unlocking

variable {host : Host} {t : List Exchange}

/-- The host lets the user in, or was sent the key and had asked for it. Whether the key is the
right one is not looked at. -/
inductive Unlocking (keyFile : String) (host : Host) : List Exchange → Prop where
  | already {output : Output} (h : output.status.success = true) :
    Unlocking keyFile host [⟨.output "ssh" (sshArgs host ["exit"] true), .ok output⟩]
  | entered {key : Bytes} {response : String} (h : asked response = true) :
    Unlocking keyFile host [⟨.readFile keyFile, .ok key⟩, ⟨.spawn "ssh" (askpassArgs host), .ok ()⟩,
      ⟨.write key, .ok ()⟩, ⟨.write newline, .ok ()⟩, ⟨.readToString, .ok response⟩]

theorem runs_request_bind_iff {α : Type} {q : Request} {f : Reply q → Task α} {result : Result α} :
    Runs (request q >>= f) t result ↔ ∃ r rest, t = ⟨q, r⟩ :: rest ∧ Runs (f r) rest result :=
  runs_ask_iff

theorem runs_lift_bind_ok_iff {α β : Type} {x : Result α} {f : α → Task β} {b : β} :
    Runs (lift x >>= f) t (.ok b) ↔ ∃ a, x = .ok a ∧ Runs (f a) t (.ok b) :=
  runs_ofExcept_bind_ok_iff

theorem ok_of_io {α : Type} {x : Except String α} {a : α} (h : io x = .ok a) : x = .ok a := by
  cases x with
  | ok a' => exact congrArg Except.ok (Except.ok.inj h)
  | error e => cases h

theorem runs_enterPassword {key : Bytes} (h : Runs (enterPassword key) t (.ok ())) :
    t = [⟨.write key, .ok ()⟩, ⟨.write newline, .ok ()⟩] := by
  obtain ⟨written, rest, rfl, hRest⟩ := runs_request_bind_iff.mp h
  cases written with
  | ok u =>
    obtain ⟨ended, rest, rfl, hEnd⟩ := runs_request_bind_iff.mp hRest
    obtain ⟨rfl, hEnded⟩ := runs_ofExcept_iff.mp hEnd
    obtain rfl := ok_of_io hEnded.symm
    rfl
  | error e => cases hRest

theorem runs_checkAsked (h : Runs checkAsked t (.ok ())) :
    ∃ response, asked response = true ∧ t = [⟨.readToString, .ok response⟩] := by
  obtain ⟨response, rest, rfl, hRest⟩ := runs_request_bind_iff.mp h
  cases response with
  | ok response =>
    dsimp only at hRest
    split at hRest
    · rename_i hAsked
      obtain ⟨rfl, _⟩ := runs_pure_iff.mp hRest
      exact ⟨response, hAsked, rfl⟩
    · cases hRest
  | error e => cases hRest

theorem unlocking_of_unlockOverSsh {keyFile : String}
    (h : Runs (unlockOverSsh host keyFile) t (.ok ())) : Unlocking keyFile host t := by
  obtain ⟨key, _, rfl, h₁⟩ := runs_request_bind_iff.mp h
  obtain ⟨_, hKey, h₂⟩ := runs_lift_bind_ok_iff.mp h₁
  obtain rfl := ok_of_io hKey
  obtain ⟨ssh, _, rfl, h₃⟩ := runs_request_bind_iff.mp h₂
  obtain ⟨_, hSsh, h₄⟩ := runs_lift_bind_ok_iff.mp h₃
  obtain rfl := ok_of_io hSsh
  obtain ⟨_, _, _, rfl, hEnter, hAsked⟩ := runs_bind_ok_iff.mp h₄
  obtain rfl := runs_enterPassword hEnter
  obtain ⟨response, hResponse, rfl⟩ := runs_checkAsked hAsked
  exact .entered hResponse

theorem unlocking_of_tryUnlockOverSsh {keyFile : String}
    (h : Runs (tryUnlockOverSsh host keyFile) t (.ok ())) :
    ∃ before evidence, t = before ++ evidence ∧ Unlocking keyFile host evidence := by
  obtain ⟨found, before, rest, rfl, hFound, hRest⟩ := runs_bind_ok_iff.mp h
  obtain ⟨found, hSsh, hFoundEq⟩ := runs_attempt_iff.mp hFound
  cases hFoundEq
  cases found with
  | error e => exact ⟨before, rest, rfl, unlocking_of_unlockOverSsh hRest⟩
  | ok output =>
    dsimp only at hRest
    split at hRest
    · rename_i hSuccess
      obtain ⟨reply, _, rfl, hReply⟩ := runs_request_bind_iff.mp hSsh
      obtain ⟨rfl, hOk⟩ := runs_ofExcept_iff.mp hReply
      obtain ⟨rfl, _⟩ := runs_pure_iff.mp hRest
      refine ⟨[], _, rfl, ?_⟩
      cases reply with
      | ok output' =>
        cases hOk
        exact .already hSuccess
      | error e => cases hOk
    · exact ⟨before, rest, rfl, unlocking_of_unlockOverSsh hRest⟩

end Unlocking

section Programs

variable {t : List Exchange}

theorem statusToPrettyErr_eq_ok_iff {reply : Except String ExitStatus} {program : String}
    {args : List String} :
    statusToPrettyErr reply program args = .ok () ↔ reply = .ok (.code 0) := by
  cases reply with
  | error e => exact ⟨nofun, nofun⟩
  | ok status =>
    cases status with
    | signal => exact ⟨nofun, nofun⟩
    | code code =>
      unfold statusToPrettyErr
      dsimp only
      split
      · rename_i hZero
        exact ⟨fun _ => congrArg Except.ok (congrArg ExitStatus.code hZero), fun _ => rfl⟩
      · rename_i hNonzero
        exact ⟨nofun, fun h => absurd (ExitStatus.code.inj (Except.ok.inj h)) hNonzero⟩

theorem runs_long_iff {α : Type} {x : Task α} {result : Except Stop α} :
    Runs (long x) t result ↔ ∃ first, Runs x t first ∧ result = first.mapError Stop.failed :=
  runs_mapError_iff

theorem runs_long_ok_iff {α : Type} {x : Task α} {a : α} :
    Runs (long x) t (.ok a) ↔ Runs x t (.ok a) :=
  runs_mapError_ok_iff

theorem runs_long_error_iff {α : Type} {x : Task α} {stop : Stop} :
    Runs (long x) t (.error stop) ↔ ∃ e, Runs x t (.error e) ∧ stop = .failed e :=
  runs_mapError_error_iff

theorem runs_runStatus_iff {program : String} {args : List String} {result : Result Unit} :
    Runs (runStatus program args) t result ↔
      ∃ reply, t = [⟨.status program args, reply⟩] ∧
        result = statusToPrettyErr reply program args := by
  constructor
  · intro h
    obtain ⟨reply, _, rfl, hReply⟩ := runs_request_bind_iff.mp h
    obtain ⟨rfl, hResult⟩ := runs_ofExcept_iff.mp hReply
    exact ⟨reply, rfl, hResult⟩
  · rintro ⟨reply, rfl, rfl⟩
    exact .ask (runs_ofExcept_iff.mpr ⟨rfl, rfl⟩)

end Programs

end Kld.Fleet
