import Kld.Lib.Trim
import Kld.Mgr.Install

/-!
# The commands for many hosts

A command makes what it needs on the machine of the manager, looks for the hosts that it names
and goes to one after the other.
-/

namespace Kld.Fleet

open Config (Host Result context)
open Cluster (Environment NixosFlake join)
open Interaction

section Main

variable (env : Environment) (macos : Bool) (toToml : Host → Except String String)

def printHostInfo (host : Host) : Task Unit := do
  match ← request (.output "ssh" [deploySshTarget host, "--", "kld-ctl", "system-info"]) with
  | .ok output =>
    if output.status.success then
      let printed ← request (.print output.stdout)
      lift (io printed)
    else pure ()
  | .error _ => pure ()

def filterHosts (hostSpec : String) (hosts : List (String × Host)) : Result (List Host) :=
  if hostSpec = "" then .ok (hosts.map Prod.snd)
  else (Utf8.split ',' hostSpec).mapM fun name =>
    match hosts.lookup name with
    | some host => .ok host
    | none => .error ["no host named '" ++ name ++ "' found in configuration"]

structure InstallArgs where
  hosts : String
  kexecUrl : String
  generateSecretOnRemote : Bool
  debug : Bool
  noReboot : Bool

/-- The commands for hosts. -/
inductive Command where
  | install (args : InstallArgs)
  | ssh (hosts : String) (command : Option (List String))
  | reboot (hosts : String)
  | systemInfo (hosts : String)
  | unlock (hosts : String) (keyFile : Option String)

def Command.hosts : Command → String
  | .install args => args.hosts
  | .ssh hosts _ => hosts
  | .reboot hosts => hosts
  | .systemInfo hosts => hosts
  | .unlock hosts _ => hosts

def normalized (line : String) : List Char :=
  (Trim.trimEndMatches ['\n'] line.toList).map Char.toLower

def yes (line : Option String) : Bool :=
  line.any fun line => normalized line = ['y'] ∨ normalized line = ['y', 'e', 's']

def askYesNo : Task Bool := do
  let line ← request .readLine
  pure (yes line)

variable (config : Cluster.Config)

def createDeployKey (secretDirectory : String) : Task Unit := do
  let sshDir := join secretDirectory "ssh"
  let created ← request (.createDirAll sshDir)
  lift (io created)
  let output ← request (.output "ssh-keygen"
    ["-q", "-t", "ed25519", "-C", "deploy_key", "-N", "", "-f", sshDir ++ "/id_ed25519"])
  lift ((io output).map fun _ => ())

def generateKeyPair (keyPath : String) : Task Unit :=
  runStatus "ssh-keygen" ["-N", "", "-f", keyPath, "-C", "kld-mgr"]

/-- What is there is left as it is. -/
def unlessExists (path : String) (make : Task Unit) : Task Unit := do
  let found : Bool ← request (.pathExists path)
  if found then pure () else make

/-- The keys of the servers to which a disk is unlocked. -/
def createSshdKeys : Task Unit := do
  let sshdDir := join config.global.secretDirectory "sshd"
  let created ← request (.createDirAll sshdDir)
  lift (io created)
  config.hosts.forM fun entry =>
    unlessExists (join sshdDir entry.1) (generateKeyPair (join sshdDir entry.1))

/-- What `main` makes for an installation, one after the other. -/
def createSecrets (generateSecretOnRemote : Bool) : Task Unit := do
  let dir := config.global.secretDirectory
  createDeployKey dir
  let lightning ← request (.lightningCerts (join dir "lightning"))
  lift (context "failed to create or update lightning certificates" lightning)
  let cockroachdb ← request (.cockroachdbCerts (join dir "cockroachdb"))
  lift (context "failed to create or update cockroachdb certificates" cockroachdb)
  createSshdKeys config
  unlessExists (join dir "disk_encryption_key") do
    let key ← request (.diskEncryptionKey (join dir "disk_encryption_key"))
    lift key
  if generateSecretOnRemote then pure () else do
    let generated ← request (.mnemonicAndMacaroons dir)
    lift generated

def generateFlake : Task NixosFlake := do
  let disk ← request .disk
  lift (context "failed to generate flake" (Cluster.generateNixosFlake env disk toToml config))

def InstallArgs.settings (args : InstallArgs) (flake : NixosFlake) : InstallSettings where
  kexecUrl := args.kexecUrl
  flake := flake
  secretsDir := config.global.secretDirectory
  accessTokens := config.global.accessTokens
  debug := args.debug
  noReboot := args.noReboot

/-- What a command does with its hosts. -/
inductive Errand where
  | install (settings : InstallSettings)
  | ssh (command : List String)
  | reboot
  | systemInfo
  | unlock (keyFile : String)

/-- What a command makes before it looks for its hosts. Only to unlock a host nothing is made. -/
def prepare : Command → Task Errand
  | .install args => do
    createSecrets config args.generateSecretOnRemote
    let flake ← generateFlake env toToml config
    pure (.install (args.settings config flake))
  | .unlock _ keyFile =>
    pure (.unlock (keyFile.getD (join config.global.secretDirectory "disk_encryption_key")))
  | .ssh _ command => do
    let _ ← generateFlake env toToml config
    pure (.ssh (command.getD []))
  | .reboot _ => do
    let _ ← generateFlake env toToml config
    pure .reboot
  | .systemInfo _ => do
    let _ ← generateFlake env toToml config
    pure .systemInfo

variable (assumeYes : Bool) (patience : Nat)

def Errand.run (hosts : List Host) : Errand → LongTask Unit
  | .install settings => do
    let confirmed ← if assumeYes then pure true else long askYesNo
    if confirmed then Fleet.install env macos settings patience hosts else pure ()
  | .ssh command => long (Fleet.ssh hosts command)
  | .reboot => long (Fleet.reboot hosts)
  | .systemInfo => long (hosts.forM printHostInfo)
  | .unlock keyFile => long (hosts.forM fun host => tryUnlockOverSsh host keyFile)

def perform (command : Command) : LongTask Unit := do
  let errand ← long (prepare env toToml config command)
  let hosts ← long (lift (filterHosts command.hosts config.hosts))
  errand.run env macos assumeYes patience hosts

/-- What is done with one host. -/
def Errand.visit (host : Host) : Errand → LongTask Unit
  | .install settings => installHost env macos settings patience host
  | .ssh command => long (runStatus "ssh" ([deploySshTarget host, "--"] ++ command))
  | .reboot => long (runStatus "ssh" ([deploySshTarget host, "--"] ++
      ["nohup reboot &>/dev/null & exit"]))
  | .systemInfo => long (printHostInfo host)
  | .unlock keyFile => long (tryUnlockOverSsh host keyFile)

end Main

section Made

variable {env : Environment} {toToml : Host → Except String String} {config : Cluster.Config}

/-- Another machine has no part in it. -/
def Local (q : Request) : Prop := machine q = none

theorem machines_of_local {ε α : Type} {x : Program Reply ε α} {t : List Exchange}
    {result : Except ε α} (hLocal : Asks Local x) (h : Runs x t result) : machines t = [] :=
  List.filterMap_eq_nil_iff.mpr (hLocal.of_runs h)

theorem local_request {q : Request} (h : machine q = none) : Asks Local (request q) :=
  asks_request h

theorem local_createDeployKey (dir : String) : Asks Local (createDeployKey dir) :=
  asks_bind (local_request rfl) fun _ => asks_bind (asks_ofExcept _) fun _ =>
    asks_bind (local_request rfl) fun _ => asks_ofExcept _

theorem local_unlessExists {path : String} {make : Task Unit} (h : Asks Local make) :
    Asks Local (unlessExists path make) := by
  refine asks_bind (local_request rfl) fun found => ?_
  cases found with
  | true => trivial
  | false => exact h

theorem local_createSshdKeys : Asks Local (createSshdKeys config) :=
  asks_bind (local_request rfl) fun _ => asks_bind (asks_ofExcept _) fun _ =>
    asks_forM fun _ => local_unlessExists (asks_bind (local_request rfl) fun _ => asks_ofExcept _)

theorem local_createSecrets (onRemote : Bool) : Asks Local (createSecrets config onRemote) := by
  refine asks_bind (local_createDeployKey _) fun _ => ?_
  refine asks_bind (local_request rfl) fun _ => asks_bind (asks_ofExcept _) fun _ => ?_
  refine asks_bind (local_request rfl) fun _ => asks_bind (asks_ofExcept _) fun _ => ?_
  refine asks_bind local_createSshdKeys fun _ => ?_
  refine asks_bind (local_unlessExists (asks_bind (local_request rfl) fun _ => asks_ofExcept _))
    fun _ => ?_
  split
  · trivial
  · exact asks_bind (local_request rfl) fun _ => asks_ofExcept _

theorem local_generateFlake : Asks Local (generateFlake env toToml config) :=
  asks_bind (local_request rfl) fun _ => asks_ofExcept _

theorem local_prepare (command : Command) : Asks Local (prepare env toToml config command) := by
  cases command with
  | install args =>
    exact asks_bind (local_createSecrets _) fun _ => asks_bind local_generateFlake fun _ => trivial
  | unlock hosts keyFile => trivial
  | ssh hosts command => exact asks_bind local_generateFlake fun _ => trivial
  | reboot hosts => exact asks_bind local_generateFlake fun _ => trivial
  | systemInfo hosts => exact asks_bind local_generateFlake fun _ => trivial

end Made

section Visits

variable {env : Environment} {macos : Bool} {patience : Nat} {host : Host} {t : List Exchange}

theorem machine_systemInfo :
    machine (.output "ssh" [deploySshTarget host, "--", "kld-ctl", "system-info"]) =
      some (deploySshTarget host) := by
  rw [machine, if_pos rfl]
  exact sshDestination_target host _

theorem own_printHostInfo (host : Host) : Asks (Own host) (printHostInfo host) := by
  refine asks_bind (asks_request (own_target machine_systemInfo)) fun output => ?_
  cases output with
  | ok output =>
    dsimp only
    split
    · exact asks_bind (asks_request (own_of_none rfl)) fun _ => asks_ofExcept _
    · trivial
  | error e => trivial

theorem own_runStatus_ssh (host : Host) (command : List String) :
    Asks (Own host) (runStatus "ssh" ([deploySshTarget host, "--"] ++ command)) :=
  asks_bind (asks_request (own_target (machine_ssh command))) fun _ => asks_ofExcept _

theorem own_visit (host : Host) (errand : Errand) :
    Asks (Own host) (errand.visit env macos patience host) := by
  cases errand with
  | install settings => exact own_installHost env macos settings patience host
  | ssh command => exact asks_mapError (own_runStatus_ssh host command)
  | reboot => exact asks_mapError (own_runStatus_ssh host _)
  | systemInfo => exact asks_mapError (own_printHostInfo host)
  | unlock keyFile => exact asks_mapError (own_of_aside (asks_tryUnlockOverSsh keyFile))

theorem machines_installed {settings : InstallSettings} (h : Installed macos settings host t) :
    machines t ≠ [] := by
  obtain ⟨dir, tmp, prepared, rest, _, rfl, _⟩ := h
  have hMachine : machine (callNixosAnywhere macos settings host prepared.path
      (.ok (.code 0))).1 = some (connectionString host) := by
    rw [callNixosAnywhere, machine, if_neg (by decide), if_pos rfl]
    exact List.getLast?_concat ..
  exact List.ne_nil_of_mem (List.mem_filterMap.mpr
    ⟨_, List.mem_append_right _ List.mem_cons_self, hMachine⟩)

theorem seen_visit {errand : Errand} (h : Runs (errand.visit env macos patience host) t (.ok ())) :
    machines t ≠ [] := by
  cases errand with
  | install settings =>
    rcases runs_installHost h with ⟨_, hInstalled⟩ | ⟨stop, hError, _⟩
    · exact machines_installed hInstalled
    · cases hError
  | ssh command => exact seen_of_ask (machine_ssh command) (runs_long_ok_iff.mp h)
  | reboot => exact seen_of_ask (machine_ssh _) (runs_long_ok_iff.mp h)
  | systemInfo => exact seen_of_ask machine_systemInfo (runs_long_ok_iff.mp h)
  | unlock keyFile => exact seen_tryUnlockOverSsh (runs_long_ok_iff.mp h)

def OwnMachine (host : Host) (t : List Exchange) : Prop := ∀ m ∈ machines t, m ∈ machinesOf host

theorem ownMachine_of_runs {ε α : Type} {x : Program Reply ε α} {result : Except ε α}
    (hOwn : Asks (Own host) x) (h : Runs x t result) : OwnMachine host t := by
  intro m hMem
  obtain ⟨e, he, hMachine⟩ := List.mem_filterMap.mp hMem
  exact hOwn.of_runs h e he m hMachine

/-- One host is gone to after the other, each at its own machine, and the first with which this
fails is the last. -/
def Visited (visit : Host → LongTask Unit) (hosts : List Host) (t : List Exchange)
    (result : Except Stop Unit) : Prop :=
  ∃ front back parts last, hosts = front ++ back ∧ t = parts.flatten ++ last ∧
    List.Forall₂ (fun host part => Runs (visit host) part (.ok ()) ∧ machines part ≠ [] ∧
      OwnMachine host part) front parts ∧
    (back = [] ∧ last = [] ∧ result = .ok () ∨
      ∃ host rest stop, back = host :: rest ∧ result = .error stop ∧
        Runs (visit host) last (.error stop) ∧ OwnMachine host last)

theorem visited_of_forM {errand : Errand} {hosts : List Host} {result : Except Stop Unit}
    (h : Runs (hosts.forM fun host => errand.visit env macos patience host) t result) :
    Visited (fun host => errand.visit env macos patience host) hosts t result := by
  have hEach : ∀ host part, Runs (errand.visit env macos patience host) part (.ok ()) →
      Runs (errand.visit env macos patience host) part (.ok ()) ∧ machines part ≠ [] ∧
        OwnMachine host part :=
    fun host part hRun => ⟨hRun, seen_visit hRun, ownMachine_of_runs (own_visit host errand) hRun⟩
  rcases runs_forM_iff.mp h with ⟨parts, rfl, rfl, hRuns⟩ |
    ⟨front, host, rest, parts, last, stop, rfl, rfl, rfl, hRuns, hLast⟩
  · exact ⟨hosts, [], parts, [], (List.append_nil _).symm, (List.append_nil _).symm,
      hRuns.imp hEach, Or.inl ⟨rfl, rfl, rfl⟩⟩
  · exact ⟨front, host :: rest, parts, last, rfl, rfl, hRuns.imp hEach,
      Or.inr ⟨host, rest, stop, rfl, rfl, hLast, ownMachine_of_runs (own_visit host errand) hLast⟩⟩

end Visits

section Commands

variable {env : Environment} {macos assumeYes : Bool} {toToml : Host → Except String String}
  {config : Cluster.Config} {patience : Nat} {t : List Exchange}

/-- All hosts, or those that are named, in the order of their names in the text. -/
def Chosen (hostSpec : String) (hosts : List (String × Host)) (chosen : List Host) : Prop :=
  if hostSpec = "" then chosen = hosts.map Prod.snd
  else List.Forall₂ (fun name host => hosts.lookup name = some host) (Utf8.split ',' hostSpec)
    chosen

theorem chosen_of_filterHosts {hostSpec : String} {hosts : List (String × Host)}
    {chosen : List Host} (h : filterHosts hostSpec hosts = .ok chosen) :
    Chosen hostSpec hosts chosen := by
  unfold filterHosts at h
  unfold Chosen
  split at h
  · rename_i hAll
    rw [if_pos hAll]
    exact (Except.ok.inj h).symm
  · rename_i hSome
    rw [if_neg hSome]
    refine Fallible.forall₂_of_mapM h fun name _ host hFound => ?_
    split at hFound
    · rename_i found hLookup
      cases hFound
      exact hLookup
    · cases hFound

theorem error_of_filterHosts {hostSpec : String} {hosts : List (String × Host)}
    {e : List String} (h : filterHosts hostSpec hosts = .error e) :
    ∃ front name rest, Utf8.split ',' hostSpec = front ++ name :: rest ∧
      (∀ known ∈ front, hosts.lookup known ≠ none) ∧ hosts.lookup name = none ∧
      e = ["no host named '" ++ name ++ "' found in configuration"] := by
  unfold filterHosts at h
  split at h
  · cases h
  · obtain ⟨front, name, rest, hSplit, hFront, hName⟩ := Fallible.error_of_mapM h
    refine ⟨front, name, rest, hSplit, fun known hMem hNone => ?_, ?_⟩
    · obtain ⟨host, hFound⟩ := hFront known hMem
      rw [hNone] at hFound
      cases hFound
    · split at hName
      · cases hName
      · rename_i hNone
        cases hName
        exact ⟨hNone, rfl⟩

/-- The installation is agreed to. -/
inductive Confirmed : Bool → List Exchange → Prop where
  | assumed : Confirmed true []
  | agreed {line : Option String} (h : yes line = true) : Confirmed false [⟨.readLine, line⟩]

/-- What goes before the first host. -/
inductive Begun (assumeYes : Bool) : Errand → List Exchange → Prop where
  | install {settings : InstallSettings} {asked : List Exchange} (h : Confirmed assumeYes asked) :
    Begun assumeYes (.install settings)
      (asked ++ [⟨.status "nix" (showArgs settings.flake), .ok (.code 0)⟩])
  | other {errand : Errand} (h : ∀ settings, errand ≠ .install settings) :
    Begun assumeYes errand []

/-- An installation that the user declines, or whose flake cannot be shown, goes to no host. -/
inductive NotBegun : Bool → Errand → List Exchange → Except Stop Unit → Prop where
  | declined {settings : InstallSettings} {line : Option String} (h : yes line = false) :
    NotBegun false (.install settings) [⟨.readLine, line⟩] (.ok ())
  | unshown {assumeYes : Bool} {settings : InstallSettings} {asked : List Exchange}
    {reply : Except String ExitStatus} {e : List String} (h : Confirmed assumeYes asked)
    (hReply : statusToPrettyErr reply "nix" (showArgs settings.flake) = .error e) :
    NotBegun assumeYes (.install settings)
      (asked ++ [⟨.status "nix" (showArgs settings.flake), reply⟩])
      (.error (.failed ("cannot show flake" :: e)))

theorem machines_confirmed (h : Confirmed assumeYes t) : machines t = [] := by
  cases h <;> rfl

theorem machines_begun {errand : Errand} (h : Begun assumeYes errand t) : machines t = [] := by
  cases h with
  | install h => exact List.filterMap_append.trans (congrArg (· ++ []) (machines_confirmed h))
  | other h => rfl

theorem machines_notBegun {errand : Errand} {result : Except Stop Unit}
    (h : NotBegun assumeYes errand t result) : machines t = [] := by
  cases h with
  | declined h => rfl
  | unshown h hReply =>
    exact List.filterMap_append.trans (congrArg (· ++ []) (machines_confirmed h))

/-- The hosts of an errand are gone to, after what goes before them and to no machine. -/
def Done (env : Environment) (macos assumeYes : Bool) (patience : Nat) (errand : Errand)
    (hosts : List Host) (t : List Exchange) (result : Except Stop Unit) : Prop :=
  NotBegun assumeYes errand t result ∧ machines t = [] ∨
    ∃ before after, t = before ++ after ∧ Begun assumeYes errand before ∧ machines before = [] ∧
      Visited (fun host => errand.visit env macos patience host) hosts after result

theorem done_install {settings : InstallSettings} {hosts : List Host} {asked : List Exchange}
    (hAsked : Confirmed assumeYes asked) {result : Except Stop Unit}
    (h : Runs (install env macos settings patience hosts) t result) :
    Done env macos assumeYes patience (.install settings) hosts (asked ++ t) result := by
  rcases runs_bind_iff.mp h with ⟨_, t₁, t₂, rfl, hShow, hHosts⟩ | ⟨stop, hShow, rfl⟩
  · rcases runs_showFlake hShow with ⟨rfl, _⟩ | ⟨reply, e, _, _, hError⟩
    · have hBegun : Begun assumeYes (.install settings) _ := .install hAsked
      exact Or.inr ⟨_, t₂, (List.append_assoc ..).symm, hBegun, machines_begun hBegun,
        visited_of_forM hHosts⟩
    · cases hError
  · rcases runs_showFlake hShow with ⟨_, hOk⟩ | ⟨reply, e, rfl, hReply, hError⟩
    · cases hOk
    · rw [hError]
      have hNot : NotBegun assumeYes (.install settings) _ _ := .unshown hAsked hReply
      exact Or.inl ⟨hNot, machines_notBegun hNot⟩

theorem done_long {errand : Errand} (hOther : ∀ settings, errand ≠ .install settings)
    {f : Host → Task Unit} (hVisit : ∀ host, errand.visit env macos patience host = long (f host))
    {hosts : List Host} {result : Except Stop Unit} (h : Runs (long (hosts.forM f)) t result) :
    Done env macos assumeYes patience errand hosts t result := by
  refine Or.inr ⟨[], t, rfl, .other hOther, rfl, visited_of_forM ?_⟩
  rw [funext hVisit]
  rwa [long, mapError_forM] at h

theorem done_run {errand : Errand} {hosts : List Host} {result : Except Stop Unit}
    (h : Runs (errand.run env macos assumeYes patience hosts) t result) :
    Done env macos assumeYes patience errand hosts t result := by
  cases errand with
  | install settings =>
    cases assumeYes with
    | true => exact done_install .assumed h
    | false =>
      obtain ⟨line, rest, rfl, hRest⟩ := runs_ask_iff.mp h
      change Runs (if yes line then install env macos settings patience hosts else pure ()) rest
        result at hRest
      cases hYes : yes line with
      | true =>
        rw [if_pos hYes] at hRest
        exact done_install (.agreed hYes) hRest
      | false =>
        rw [if_neg (by simp [hYes])] at hRest
        obtain ⟨rfl, rfl⟩ := runs_pure_iff.mp hRest
        exact Or.inl ⟨.declined hYes, rfl⟩
  | ssh command => exact done_long (fun _ hEq => by cases hEq) (fun _ => rfl) h
  | reboot => exact done_long (fun _ hEq => by cases hEq) (fun _ => rfl) h
  | systemInfo => exact done_long (fun _ hEq => by cases hEq) (fun _ => rfl) h
  | unlock keyFile => exact done_long (fun _ hEq => by cases hEq) (fun _ => rfl) h

/-- The first name that is not known ends the command. -/
def UnknownHost (config : Cluster.Config) (hostSpec : String) (result : Except Stop Unit) : Prop :=
  ∃ front name rest, Utf8.split ',' hostSpec = front ++ name :: rest ∧
    (∀ known ∈ front, config.hosts.lookup known ≠ none) ∧ config.hosts.lookup name = none ∧
    result = .error (.failed ["no host named '" ++ name ++ "' found in configuration"])

end Commands

section Example

def exampleConfig : Cluster.Config where
  hosts := [("kld-00", Secrets.exampleHost), ("kld-01", exampleNext)]
  global := ⟨"github:example/deployment", "", "github:kuutamolabs/lightning-knd", "/secrets"⟩

def exampleDisk : Cluster.Disk := ⟨.ok "/tmp/kuutamo-flake", fun _ => .ok (), fun _ _ => .ok ()⟩

theorem example_filterHosts : filterHosts "kld-00,kld-01,kld-00" exampleConfig.hosts =
    .ok [Secrets.exampleHost, exampleNext, Secrets.exampleHost] := by
  have hSplit : Utf8.split ',' "kld-00,kld-01,kld-00" = ["kld-00", "kld-01", "kld-00"] := by
    decide +kernel
  rw [filterHosts, if_neg (by decide), hSplit]
  rfl

def exampleCommand : Command := .ssh "kld-00,kld-01,kld-00" (some ["uptime"])

def exampleSsh (host : Host) (code : Int) : Exchange :=
  ⟨.status "ssh" ([deploySshTarget host, "--"] ++ ["uptime"]), .ok (.code code)⟩

/-- The second host does not let the manager in. -/
def exampleVisits : List Exchange := [exampleSsh Secrets.exampleHost 0, exampleSsh exampleNext 255]

def exampleTraffic : List Exchange := ⟨.disk, exampleDisk⟩ :: exampleVisits

theorem example_traffic : machines exampleTraffic ≠ [] :=
  List.ne_nil_of_mem (List.mem_filterMap.mpr
    ⟨exampleSsh Secrets.exampleHost 0, List.mem_cons_of_mem _ List.mem_cons_self, machine_ssh _⟩)

theorem example_visits : ∃ e, Runs (ssh [Secrets.exampleHost, exampleNext, Secrets.exampleHost]
    ["uptime"]) exampleVisits (.error e) := by
  have hFirst : Runs (runStatus "ssh" ([deploySshTarget Secrets.exampleHost, "--"] ++ ["uptime"]))
      [exampleSsh Secrets.exampleHost 0] (.ok ()) :=
    runs_runStatus_iff.mpr ⟨.ok (.code 0), rfl, rfl⟩
  have hSecond : Runs (runStatus "ssh" ([deploySshTarget exampleNext, "--"] ++ ["uptime"]))
      [exampleSsh exampleNext 255] (.error _) :=
    runs_runStatus_iff.mpr ⟨.ok (.code 255), rfl, rfl⟩
  exact ⟨_, runs_forM_iff.mpr (Or.inr ⟨[Secrets.exampleHost], exampleNext, [Secrets.exampleHost],
    [[exampleSsh Secrets.exampleHost 0]], [exampleSsh exampleNext 255], _, rfl, rfl, rfl,
    .cons hFirst .nil, hSecond⟩)⟩

end Example

end Kld.Fleet
