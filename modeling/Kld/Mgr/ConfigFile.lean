import Mathlib.Data.List.Sort
import Kld.Lib.Table
import Kld.Mgr.HostNetwork

/-!
# The settings of a cluster

Every host is validated under its name, and the hosts are kept in the order of their names.
-/

namespace Kld.Cluster

open Kld.Config
open Fallible

structure Global where
  deploymentFlake : String
  accessTokens : String
  kndFlake : String
  secretDirectory : String

/-- The hosts in the order in which a hash map gives them; its memory is at most
`isize::MAX` bytes. -/
structure ConfigFile where
  global : Global
  hostDefaults : HostDefaultConfig
  hosts : Sql.Table String HostConfig
  fits : hosts.rows.length < 2 ^ 63

structure Config where
  hosts : List (String × Host)
  global : Global

/-- Whether two variables are set, and whether `nix flake show` ends well, if it can be run. -/
structure Environment where
  flakeCheck : Bool
  debug : Bool
  flakeShow : String → String → Option Bool

def join (directory path : String) : String :=
  if path.toList.head? = some '/' then path
  else if directory = "" ∨ directory.toList.getLast? = some '/' then directory ++ path
  else directory ++ "/" ++ path

def validateGlobal (env : Environment) (global : Global) (workingDirectory : String)
    (checkDeploymentRepo : Bool) : Result Global := do
  ensure (env.flakeShow global.accessTokens global.deploymentFlake ≠ some false ||
      env.flakeCheck || !checkDeploymentRepo)
    ("deployment flake " ++ global.deploymentFlake ++ " is not accessible, please check your " ++
      "access token, network connection,\nand the deployment repository has a flake.lock")
  pure { global with secretDirectory := join workingDirectory global.secretDirectory }

def byName (a b : String × Host) : Prop := a.1 ≤ b.1

instance : DecidableRel byName := fun a b => inferInstanceAs (Decidable (a.1 ≤ b.1))

def validateEntry (ext : Externals) (file : ConfigFile) (presetMnemonic : Bool)
    (entry : String × HostConfig) : Result (String × Host) := do
  pure (entry.1, ← validateHost ext entry.1 entry.2 file.hostDefaults presetMnemonic)

def validateHosts (ext : Externals) (file : ConfigFile) (presetMnemonic : Bool) :
    Result (List (String × Host)) := do
  let hosts ← file.hosts.rows.mapM (validateEntry ext file presetMnemonic)
  pure (hosts.insertionSort byName)

def cockroachPeers (hosts : List (String × Host)) : List CockroachPeer :=
  hosts.map fun (name, host) => ⟨name, host.ipv4Address, host.ipv6Address⟩

def countModule (nixosModule : String) (hosts : List (String × Host)) : Nat :=
  hosts.countP fun (_, host) => host.nixosModule = nixosModule

def parseConfig (ext : Externals) (env : Environment) (file : ConfigFile)
    (workingDirectory : String) (presetMnemonic checkDeploymentRepo : Bool) : Result Config := do
  let hosts ← validateHosts ext file presetMnemonic
  let peers := cockroachPeers hosts
  let hosts := hosts.map fun (name, host) => (name, { host with cockroachPeers := peers })
  let kldNodes := countModule "kld-node" hosts
  ensure (kldNodes = 1) ("Exactly one kld-node is required, found " ++ toString kldNodes)
  let cockroachNodes := countModule "cockroachdb-node" hosts
  ensure (cockroachNodes = 0 || 2 ≤ cockroachNodes)
    ("Either zero or two cockroach-nodes are required, found " ++ toString cockroachNodes)
  let global ← validateGlobal env file.global workingDirectory checkDeploymentRepo
  pure ⟨hosts, global⟩

section Accepted

variable {ext : Externals} {env : Environment} {file : ConfigFile} {workingDirectory : String}
  {presetMnemonic checkDeploymentRepo : Bool} {config : Config} {hosts : List (String × Host)}

/-- What is known of the hosts of an accepted file. -/
structure Accepted (config : Config) : Prop where
  names : ∀ entry ∈ config.hosts, hostnameRegex entry.1 = true ∧ entry.2.name = entry.1
  nodup : (config.hosts.map Prod.fst).Nodup
  length : config.hosts.length < 2 ^ 63
  kldNode : ∃ entry ∈ config.hosts, entry.2.nixosModule = "kld-node"

theorem validateEntry_spec {row : String × HostConfig} {entry : String × Host}
    (hOk : validateEntry ext file presetMnemonic row = .ok entry) :
    row.1 = entry.1 ∧ hostnameRegex entry.1 = true ∧ entry.2.name = entry.1 := by
  obtain ⟨h, hHost, hEntry⟩ := ok_of_bind hOk
  cases hEntry
  obtain ⟨hName, hNetwork⟩ := validateHost_spec hHost
  exact ⟨rfl, hName ▸ hNetwork.name, hName⟩

theorem validateHosts_spec (hOk : validateHosts ext file presetMnemonic = .ok hosts) :
    (∀ entry ∈ hosts, hostnameRegex entry.1 = true ∧ entry.2.name = entry.1) ∧
      (hosts.map Prod.fst).Nodup ∧ hosts.length < 2 ^ 63 := by
  obtain ⟨validated, hValidated, hSorted⟩ := ok_of_bind hOk
  cases hSorted
  have hPerm := List.perm_insertionSort byName validated
  have hPairs := forall₂_of_mapM hValidated fun _ _ _ hEntry => (validateEntry_spec hEntry).1
  have hKeys : file.hosts.rows.map Prod.fst = validated.map Prod.fst := by
    rwa [← List.forall₂_eq_eq_eq, List.forall₂_map_left_iff, List.forall₂_map_right_iff]
  refine ⟨fun entry hMem => ?_, (hPerm.map Prod.fst).nodup_iff.mpr ?_, ?_⟩
  · obtain ⟨_, _, hEntry⟩ := (mem_of_mapM hValidated).mp (hPerm.mem_iff.mp hMem)
    exact (validateEntry_spec hEntry).2
  · rw [← hKeys, Sql.Table.rows_map_fst]
    exact file.hosts.keys_nodup
  · rw [hPerm.length_eq, ← hPairs.length_eq]
    exact file.fits

theorem parseConfig_spec (hOk : parseConfig ext env file workingDirectory presetMnemonic
      checkDeploymentRepo = .ok config) :
    Accepted config ∧ config.global.deploymentFlake = file.global.deploymentFlake := by
  unfold parseConfig at hOk
  obtain ⟨hosts, hHosts, hOk⟩ := ok_of_bind hOk
  obtain ⟨_, hKld, hOk⟩ := ok_of_bind hOk
  obtain ⟨_, -, hOk⟩ := ok_of_bind hOk
  obtain ⟨global, hGlobal, hOk⟩ := ok_of_bind hOk
  cases hOk
  obtain ⟨_, -, hGlobal⟩ := ok_of_bind hGlobal
  cases hGlobal
  obtain ⟨hNames, hNodup, hLength⟩ := validateHosts_spec hHosts
  have hOne := of_decide_eq_true (ok_of_ensure hKld)
  refine ⟨⟨List.forall_mem_map.mpr hNames, ?_, ?_, ?_⟩, rfl⟩
  · rwa [List.map_map]
  · rwa [List.length_map]
  · obtain ⟨entry, hMem, hModule⟩ := List.countP_pos_iff.mp (hOne ▸ Nat.one_pos)
    exact ⟨entry, hMem, of_decide_eq_true hModule⟩

end Accepted

end Kld.Cluster
