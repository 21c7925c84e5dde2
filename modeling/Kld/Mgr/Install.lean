import Kld.Mgr.Ssh

/-!
# The installation of the hosts

A host gets its own tree of secrets, is installed, unlocked and waited for before the next host
is begun.
-/

namespace Kld.Fleet

open Config (Host Result context)
open Cluster (Environment NixosFlake join)
open Interaction
open Secrets (SecretsDir TempDir Prepared)

section Install

variable (env : Environment) (macos : Bool)

def flakeUri (host : Host) (flake : NixosFlake) : String := flake.path ++ "#" ++ host.name

def showArgs (flake : NixosFlake) : List String :=
  ["flake", "show", "--extra-experimental-features", "flakes nix-command", flake.path]

def showFlake (flake : NixosFlake) : Task Unit := do
  let status ← request (.status "nix" (showArgs flake))
  lift (context "cannot show flake" (statusToPrettyErr status "nix" (showArgs flake)))

structure InstallSettings where
  kexecUrl : String
  flake : NixosFlake
  secretsDir : String
  accessTokens : String
  debug : Bool
  noReboot : Bool

variable (settings : InstallSettings)

def diskEncryptionKey : String := join settings.secretsDir "disk_encryption_key"

def nixosAnywhereArgs (host : Host) (extraFiles : String) : List String :=
  ["--extra-files", extraFiles, "--disk-encryption-keys", "/var/lib/disk_encryption_key",
    diskEncryptionKey settings, "--kexec", settings.kexecUrl, "--flake",
    flakeUri host settings.flake, "--option", "accept-flake-config", "true"] ++
    (if macos then ["--build-on-remote"] else []) ++
    (if settings.debug then ["--debug"] else []) ++
    (if settings.noReboot then ["--no-reboot"] else []) ++ [connectionString host]

/-- The user waits for so many rounds. -/
def unlockLoop (host : Host) : Nat → LongTask Unit
  | 0 => .fail .interrupted
  | patience + 1 => do
    match ← (tryUnlockOverSsh host (diskEncryptionKey settings)).attempt with
    | .ok _ => pure ()
    | .error _ => unlockLoop host patience

def waitForSshd (host : Host) : Nat → LongTask Unit
  | 0 => .fail .interrupted
  | patience + 1 => do
    let output ← long (timeoutSsh host ["exit", "0"] true)
    if output.status.success then pure () else waitForSshd host patience

def prepareSecrets (host : Host) : Task String := do
  let dir ← request .secretsDir
  let tmp ← request .tempDir
  let prepared ← lift (context "Failed to get secrets"
    (Secrets.secrets host dir tmp settings.accessTokens))
  pure prepared.path

def removeOldKeys (host : Host) : Task Unit := do
  let status ← request (.status "ssh-keygen" ["-R", host.hostname])
  lift ((context "Failed to run ssh-keygen to remove old keys..." (io status)).map fun _ => ())

def finishHost (patience : Nat) (host : Host) : LongTask Unit := do
  unlockLoop settings host patience
  long (removeOldKeys host)
  if env.flakeCheck || env.debug then waitForSshd host patience else pure ()

def installHost (patience : Nat) (host : Host) : LongTask Unit := do
  let path ← long (prepareSecrets settings host)
  long (runStatus "nixos-anywhere" (nixosAnywhereArgs macos settings host path))
  if settings.noReboot then pure () else finishHost env settings patience host

def install (patience : Nat) (hosts : List Host) : LongTask Unit := do
  long (showFlake settings.flake)
  hosts.forM (installHost env macos settings patience)

end Install

section Asked

variable {host : Host}

theorem asks_unlockLoop (settings : InstallSettings) (patience : Nat) :
    Asks (Aside host) (unlockLoop settings host patience) := by
  induction patience with
  | zero => trivial
  | succ patience ih =>
    refine asks_bind (asks_attempt (asks_tryUnlockOverSsh _)) fun result => ?_
    cases result with
    | ok u => trivial
    | error e => exact ih

theorem asks_waitForSshd (patience : Nat) : Asks (Aside host) (waitForSshd host patience) := by
  induction patience with
  | zero => trivial
  | succ patience ih =>
    refine asks_bind (asks_mapError (asks_timeoutSsh ["exit", "0"] true)) fun output => ?_
    split
    · trivial
    · exact ih

theorem asks_removeOldKeys : Asks (Aside host) (removeOldKeys host) := by
  refine asks_bind (asks_request ⟨own_of_none rfl, fun args hEq => ?_⟩) fun _ => asks_ofExcept _
  exact absurd (Request.status.inj hEq).1 (by decide)

theorem asks_finishHost (env : Environment) (settings : InstallSettings) (patience : Nat) :
    Asks (Aside host) (finishHost env settings patience host) := by
  refine asks_bind (asks_unlockLoop settings patience) fun _ => ?_
  refine asks_bind (asks_mapError asks_removeOldKeys) fun _ => ?_
  split
  · exact asks_waitForSshd patience
  · trivial

theorem own_nixosAnywhere (macos : Bool) (settings : InstallSettings) (extraFiles : String) :
    Own host (.status "nixos-anywhere" (nixosAnywhereArgs macos settings host extraFiles)) := by
  intro m hMachine
  have hLast : (nixosAnywhereArgs macos settings host extraFiles).getLast? =
      some (connectionString host) := List.getLast?_concat ..
  rw [machine, if_neg (by decide), if_pos rfl, hLast] at hMachine
  obtain rfl := Option.some.inj hMachine
  exact List.mem_cons_self

theorem own_prepareSecrets (settings : InstallSettings) :
    Asks (Own host) (prepareSecrets settings host) :=
  asks_bind (asks_request (own_of_none rfl)) fun _ =>
    asks_bind (asks_request (own_of_none rfl)) fun _ =>
    asks_bind (asks_ofExcept _) fun _ => trivial

theorem own_installHost (env : Environment) (macos : Bool) (settings : InstallSettings)
    (patience : Nat) (host : Host) :
    Asks (Own host) (installHost env macos settings patience host) := by
  refine asks_bind (asks_mapError (own_prepareSecrets settings)) fun path => ?_
  refine asks_bind (asks_mapError (asks_bind (asks_request ?_) fun _ => asks_ofExcept _))
    fun _ => ?_
  · exact own_nixosAnywhere macos settings path
  split
  · trivial
  · exact own_of_aside (asks_finishHost env settings patience)

end Asked

section HostByHost

variable {env : Environment} {macos : Bool} {settings : InstallSettings} {patience : Nat}
  {host : Host} {t : List Exchange}

theorem unlocking_of_unlockLoop (h : Runs (unlockLoop settings host patience) t (.ok ())) :
    ∃ before evidence, t = before ++ evidence ∧
      Unlocking (diskEncryptionKey settings) host evidence := by
  induction patience generalizing t with
  | zero => cases h
  | succ patience ih =>
    obtain ⟨found, first, rest, rfl, hFound, hRest⟩ := runs_bind_ok_iff.mp h
    obtain ⟨found, hTry, hFoundEq⟩ := runs_attempt_iff.mp hFound
    cases hFoundEq
    cases found with
    | ok u =>
      obtain ⟨rfl, _⟩ := runs_pure_iff.mp hRest
      rw [List.append_nil]
      exact unlocking_of_tryUnlockOverSsh hTry
    | error e =>
      obtain ⟨before, evidence, rfl, hEvidence⟩ := ih hRest
      exact ⟨first ++ before, evidence, (List.append_assoc ..).symm, hEvidence⟩

/-- What is asked for the secrets of a host. -/
def askedSecrets (dir : SecretsDir) (tmp : TempDir) : List Exchange :=
  [⟨.secretsDir, dir⟩, ⟨.tempDir, tmp⟩]

def callNixosAnywhere (macos : Bool) (settings : InstallSettings) (host : Host) (path : String)
    (reply : Except String ExitStatus) : Exchange :=
  ⟨.status "nixos-anywhere" (nixosAnywhereArgs macos settings host path), reply⟩

/-- A host is installed from its own secrets. Unless it is not rebooted, it has let the user in
then or was sent the key after it had asked for it. -/
def Installed (macos : Bool) (settings : InstallSettings) (host : Host) (t : List Exchange) :
    Prop :=
  ∃ dir tmp prepared rest, Secrets.secrets host dir tmp settings.accessTokens = .ok prepared ∧
    t = askedSecrets dir tmp ++
      callNixosAnywhere macos settings host prepared.path (.ok (.code 0)) :: rest ∧
    (∀ e ∈ rest, Aside host e.1) ∧
    if settings.noReboot then rest = []
    else ∃ before evidence after, rest = before ++ evidence ++ after ∧
      Unlocking (diskEncryptionKey settings) host evidence

/-- Where the installation of a host ends early. -/
inductive GivenUp (macos : Bool) (settings : InstallSettings) (host : Host) :
    List Exchange → Stop → Prop where
  | unprepared {dir : SecretsDir} {tmp : TempDir} {e : List String}
    (h : Secrets.secrets host dir tmp settings.accessTokens = .error e) :
    GivenUp macos settings host (askedSecrets dir tmp) (.failed ("Failed to get secrets" :: e))
  | uninstalled {dir : SecretsDir} {tmp : TempDir} {prepared : Prepared}
    {reply : Except String ExitStatus} {e : List String}
    (h : Secrets.secrets host dir tmp settings.accessTokens = .ok prepared)
    (hReply : statusToPrettyErr reply "nixos-anywhere"
      (nixosAnywhereArgs macos settings host prepared.path) = .error e) :
    GivenUp macos settings host
      (askedSecrets dir tmp ++ [callNixosAnywhere macos settings host prepared.path reply])
      (.failed e)
  | unfinished {dir : SecretsDir} {tmp : TempDir} {prepared : Prepared} {rest : List Exchange}
    {stop : Stop} (h : Secrets.secrets host dir tmp settings.accessTokens = .ok prepared)
    (hReboot : settings.noReboot = false) (hRest : ∀ e ∈ rest, Aside host e.1) :
    GivenUp macos settings host (askedSecrets dir tmp ++
      callNixosAnywhere macos settings host prepared.path (.ok (.code 0)) :: rest) stop

/-- The path at which the secrets of the host lie, or why they do not. -/
theorem runs_prepareSecrets {result : Result String}
    (h : Runs (prepareSecrets settings host) t result) :
    ∃ dir tmp, t = askedSecrets dir tmp ∧
      ((∃ prepared, Secrets.secrets host dir tmp settings.accessTokens = .ok prepared ∧
        result = .ok prepared.path) ∨
      ∃ e, Secrets.secrets host dir tmp settings.accessTokens = .error e ∧
        result = .error ("Failed to get secrets" :: e)) := by
  obtain ⟨dir, _, rfl, hDir⟩ := runs_request_bind_iff.mp h
  obtain ⟨tmp, _, rfl, hTmp⟩ := runs_request_bind_iff.mp hDir
  cases hSecrets : Secrets.secrets host dir tmp settings.accessTokens with
  | error e =>
    rw [hSecrets] at hTmp
    obtain ⟨rfl, rfl⟩ := runs_fail_iff.mp hTmp
    exact ⟨dir, tmp, rfl, Or.inr ⟨e, hSecrets, rfl⟩⟩
  | ok prepared =>
    rw [hSecrets] at hTmp
    obtain ⟨rfl, rfl⟩ := runs_pure_iff.mp hTmp
    exact ⟨dir, tmp, rfl, Or.inl ⟨prepared, hSecrets, rfl⟩⟩

theorem runs_finishHost {result : Except Stop Unit}
    (h : Runs (finishHost env settings patience host) t result) :
    (∀ e ∈ t, Aside host e.1) ∧ (result = .ok () → ∃ before evidence after,
      t = before ++ evidence ++ after ∧ Unlocking (diskEncryptionKey settings) host evidence) := by
  refine ⟨(asks_finishHost env settings patience).of_runs h, ?_⟩
  rintro rfl
  obtain ⟨_, t₁, after, rfl, hUnlock, _⟩ := runs_bind_ok_iff.mp h
  obtain ⟨before, evidence, rfl, hEvidence⟩ := unlocking_of_unlockLoop hUnlock
  exact ⟨before, evidence, after, rfl, hEvidence⟩

/-- From where the secrets of the host are prepared. -/
theorem runs_nixosAnywhere {dir : SecretsDir} {tmp : TempDir} {prepared : Prepared}
    (hSecrets : Secrets.secrets host dir tmp settings.accessTokens = .ok prepared)
    {result : Except Stop Unit}
    (h : Runs (do
      long (runStatus "nixos-anywhere" (nixosAnywhereArgs macos settings host prepared.path))
      if settings.noReboot then pure () else finishHost env settings patience host) t result) :
    result = .ok () ∧ Installed macos settings host (askedSecrets dir tmp ++ t) ∨
      ∃ stop, result = .error stop ∧
        GivenUp macos settings host (askedSecrets dir tmp ++ t) stop := by
  rcases runs_bind_iff.mp h with ⟨_, t₁, rest, rfl, hStatus, hFinish⟩ | ⟨stop, hStatus, rfl⟩
  · obtain ⟨reply, rfl, hReply⟩ := runs_runStatus_iff.mp (runs_long_ok_iff.mp hStatus)
    obtain rfl := statusToPrettyErr_eq_ok_iff.mp hReply.symm
    cases hReboot : settings.noReboot with
    | true =>
      rw [if_pos hReboot] at hFinish
      obtain ⟨rfl, rfl⟩ := runs_pure_iff.mp hFinish
      refine Or.inl ⟨rfl, dir, tmp, prepared, [], hSecrets, rfl, fun _ hMem => ?_, ?_⟩
      · cases hMem
      · rw [if_pos hReboot]
    | false =>
      have hNot : ¬ settings.noReboot = true := by simp [hReboot]
      rw [if_neg hNot] at hFinish
      obtain ⟨hAside, hUnlocked⟩ := runs_finishHost hFinish
      cases result with
      | ok u =>
        refine Or.inl ⟨rfl, dir, tmp, prepared, rest, hSecrets, rfl, hAside, ?_⟩
        rw [if_neg hNot]
        exact hUnlocked rfl
      | error stop => exact Or.inr ⟨stop, rfl, .unfinished hSecrets hReboot hAside⟩
  · obtain ⟨e, hError, rfl⟩ := runs_long_error_iff.mp hStatus
    obtain ⟨reply, rfl, hReply⟩ := runs_runStatus_iff.mp hError
    exact Or.inr ⟨_, rfl, .uninstalled hSecrets hReply.symm⟩

theorem runs_installHost {result : Except Stop Unit}
    (h : Runs (installHost env macos settings patience host) t result) :
    result = .ok () ∧ Installed macos settings host t ∨
      ∃ stop, result = .error stop ∧ GivenUp macos settings host t stop := by
  rcases runs_bind_iff.mp h with ⟨path, t₁, t₂, rfl, hPrepare, hInstall⟩ | ⟨stop, hPrepare, rfl⟩
  · obtain ⟨dir, tmp, rfl, ⟨prepared, hSecrets, hPath⟩ | ⟨_, _, hError⟩⟩ :=
      runs_prepareSecrets (runs_long_ok_iff.mp hPrepare)
    · cases hPath
      exact runs_nixosAnywhere hSecrets hInstall
    · cases hError
  · obtain ⟨e, hFirst, rfl⟩ := runs_long_error_iff.mp hPrepare
    obtain ⟨dir, tmp, rfl, ⟨_, _, hOk⟩ | ⟨e', hSecrets, hError⟩⟩ := runs_prepareSecrets hFirst
    · cases hOk
    · cases hError
      exact Or.inr ⟨_, rfl, .unprepared hSecrets⟩

theorem runs_showFlake {flake : NixosFlake} {result : Except Stop Unit}
    (h : Runs (long (showFlake flake)) t result) :
    t = [⟨.status "nix" (showArgs flake), .ok (.code 0)⟩] ∧ result = .ok () ∨
      ∃ reply e, t = [⟨.status "nix" (showArgs flake), reply⟩] ∧
        statusToPrettyErr reply "nix" (showArgs flake) = .error e ∧
        result = .error (.failed ("cannot show flake" :: e)) := by
  obtain ⟨first, hFirst, rfl⟩ := runs_long_iff.mp h
  obtain ⟨reply, _, rfl, hReply⟩ := runs_request_bind_iff.mp hFirst
  obtain ⟨rfl, rfl⟩ := runs_ofExcept_iff.mp hReply
  cases hPretty : statusToPrettyErr reply "nix" (showArgs flake) with
  | ok u =>
    obtain rfl := statusToPrettyErr_eq_ok_iff.mp hPretty
    exact Or.inl ⟨rfl, rfl⟩
  | error e => exact Or.inr ⟨reply, e, rfl, hPretty, rfl⟩

theorem forall_installed {front : List Host} {blocks : List (List Exchange)}
    (h : List.Forall₂ (fun host part =>
      Runs (installHost env macos settings patience host) part (.ok ())) front blocks) :
    List.Forall₂ (Installed macos settings) front blocks := by
  refine h.imp fun host part hRun => ?_
  rcases runs_installHost hRun with ⟨_, hInstalled⟩ | ⟨stop, hError, _⟩
  · exact hInstalled
  · cases hError

end HostByHost

section Example

def exampleSettings : InstallSettings where
  kexecUrl := "kexec.tar.gz"
  flake := ⟨"/tmp/kuutamo-flake", []⟩
  secretsDir := "/secrets"
  accessTokens := ""
  debug := false
  noReboot := false

def exampleEnvironment : Environment := ⟨false, false, fun _ _ => none⟩

def exampleDir : SecretsDir := ⟨fun _ => some [], false⟩

def exampleTmp : TempDir :=
  ⟨some "/tmp/kuutamo-secrets", fun _ => true, fun _ => true, fun _ => true⟩

def exampleNext : Host := { Secrets.exampleHost with name := "kld-01", hostname := "kld-01" }

theorem example_secrets (host : Host) : ∃ tree,
    Secrets.secrets host exampleDir exampleTmp "" = .ok ⟨"/tmp/kuutamo-secrets", tree⟩ := by
  have hReads : ∀ p ∈ Secrets.planned host exampleDir.mnemonicExists "",
      p.content exampleDir ≠ none := by
    intro p _
    unfold Secrets.Planned.content
    split <;> exact Option.some_ne_none _
  have hTakes : ∀ plan, exampleTmp.TakesAll plan := fun _ =>
    ⟨Option.some_ne_none _, fun _ _ => ⟨rfl, rfl, rfl⟩⟩
  obtain ⟨⟨path, tree⟩, hSecrets⟩ := Secrets.exists_secrets_iff.mpr ⟨hReads, hTakes _⟩
  obtain ⟨_, _, hNew⟩ := Secrets.secrets_eq_ok_iff.mp hSecrets
  obtain ⟨hPath, _⟩ := Secrets.new_eq_ok_iff.mp hNew
  cases hPath
  exact ⟨tree, hSecrets⟩

theorem example_prepareSecrets (host : Host) : Runs (prepareSecrets exampleSettings host)
    (askedSecrets exampleDir exampleTmp) (.ok "/tmp/kuutamo-secrets") := by
  obtain ⟨tree, hSecrets⟩ := example_secrets host
  refine runs_request_bind_iff.mpr ⟨exampleDir, _, rfl, ?_⟩
  refine runs_request_bind_iff.mpr ⟨exampleTmp, _, rfl, ?_⟩
  rw [show Secrets.secrets host exampleDir exampleTmp exampleSettings.accessTokens =
    .ok ⟨"/tmp/kuutamo-secrets", tree⟩ from hSecrets]
  exact .done _

def exampleCall (host : Host) (reply : Except String ExitStatus) : Exchange :=
  callNixosAnywhere false exampleSettings host "/tmp/kuutamo-secrets" reply

/-- The host is unlocked when it is asked. -/
def exampleInstalled : List Exchange :=
  askedSecrets exampleDir exampleTmp ++ [exampleCall Secrets.exampleHost (.ok (.code 0)),
    ⟨.output "ssh" (sshArgs Secrets.exampleHost ["exit"] true), .ok ⟨.code 0, []⟩⟩,
    ⟨.status "ssh-keygen" ["-R", "kld-00"], .ok (.code 0)⟩]

theorem example_installHost : Runs (installHost exampleEnvironment false exampleSettings 1
    Secrets.exampleHost) exampleInstalled (.ok ()) := by
  have hInstall : Runs (runStatus "nixos-anywhere" (nixosAnywhereArgs false exampleSettings
      Secrets.exampleHost "/tmp/kuutamo-secrets"))
      [exampleCall Secrets.exampleHost (.ok (.code 0))] (.ok ()) :=
    runs_runStatus_iff.mpr ⟨.ok (.code 0), rfl, rfl⟩
  have hFinish : Runs (finishHost exampleEnvironment exampleSettings 1 Secrets.exampleHost)
      [⟨.output "ssh" (sshArgs Secrets.exampleHost ["exit"] true), .ok ⟨.code 0, []⟩⟩,
        ⟨.status "ssh-keygen" ["-R", "kld-00"], .ok (.code 0)⟩] (.ok ()) :=
    .ask (.ask (.done ()))
  exact runs_bind_ok_iff.mpr ⟨_, _, _, rfl,
    runs_long_ok_iff.mpr (example_prepareSecrets Secrets.exampleHost),
    runs_bind_ok_iff.mpr ⟨_, _, _, rfl, runs_long_ok_iff.mpr hInstall, hFinish⟩⟩

/-- The installation of this host is terminated by a signal. -/
def exampleGivenUp : List Exchange :=
  askedSecrets exampleDir exampleTmp ++ [exampleCall exampleNext (.ok .signal)]

def exampleError : List String :=
  ["command " ++ "nixos-anywhere" ++ " (" ++ "nixos-anywhere" ++ " " ++ " ".intercalate
    (nixosAnywhereArgs false exampleSettings exampleNext "/tmp/kuutamo-secrets") ++
    ") was terminated by a signal"]

theorem example_giveUp : Runs (installHost exampleEnvironment false exampleSettings 1
    exampleNext) exampleGivenUp (.error (.failed exampleError)) := by
  have hInstall : Runs (runStatus "nixos-anywhere" (nixosAnywhereArgs false exampleSettings
      exampleNext "/tmp/kuutamo-secrets")) [exampleCall exampleNext (.ok .signal)]
      (.error exampleError) :=
    runs_runStatus_iff.mpr ⟨.ok .signal, rfl, rfl⟩
  have hEnd : Runs (long (runStatus "nixos-anywhere" (nixosAnywhereArgs false exampleSettings
      exampleNext "/tmp/kuutamo-secrets")) >>= fun _ =>
        if exampleSettings.noReboot then pure ()
        else finishHost exampleEnvironment exampleSettings 1 exampleNext)
      [exampleCall exampleNext (.ok .signal)] (.error (.failed exampleError)) :=
    runs_bind_iff.mpr (Or.inr ⟨_, runs_long_error_iff.mpr ⟨_, hInstall, rfl⟩, rfl⟩)
  exact runs_bind_iff.mpr (Or.inl ⟨_, _, _, rfl,
    runs_long_ok_iff.mpr (example_prepareSecrets exampleNext), hEnd⟩)

/-- The first host is installed, the second given up, and the third not asked for any more. -/
def exampleHosts : List Host := [Secrets.exampleHost, exampleNext, Secrets.exampleHost]

def exampleTrace : List Exchange :=
  ⟨.status "nix" (showArgs exampleSettings.flake), .ok (.code 0)⟩ ::
    ([exampleInstalled].flatten ++ exampleGivenUp)

end Example

end Kld.Fleet
