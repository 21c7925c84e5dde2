import Kld.Mgr.FlakeLines

/-!
# The files of the generated flake

The settings of a host are read back if the deployment flake is a plain text, and a host is
named once if no module has a line in its name that names it.
-/

namespace Kld.Cluster

open Kld.Config
open Fallible
open Pki (IpAddr)

section Settings

variable {env : Environment} {deploymentFlake text : String} {order : Nat} {host : Host}
  {read : List Char → Option Toml.Table}

/-- What stands in the file of a host. -/
def nodeTable (env : Environment) (deploymentFlake : String) (order : Nat) (host : Host) :
    Toml.Table := fun key =>
  if key = "deployment_flake" then some (.string deploymentFlake)
  else if key = "upgrade_order" then some (.integer order)
  else if key = "keep_root" ∧ keepRoot env = true then some (.boolean true)
  else hostTable host key

/-- What a serialiser writes is read back, and does not start with a byte order mark. -/
def Serializes (read : List Char → Option Toml.Table) (toToml : Host → Except String String) :
    Prop :=
  ∀ host text, toToml host = .ok text →
    text.toList.head? ≠ some '\uFEFF' ∧ read text.toList = some (hostTable host)

theorem line_chars {front s back : String} {k q : List Char} (hFront : front.toList = k ++ q)
    (hBack : back.toList = q ++ ['\n']) (rest : List Char) :
    (front ++ s ++ back).toList ++ rest = k ++ (q ++ s.toList ++ q) ++ '\n' :: rest := by
  rw [String.toList_append, String.toList_append, hFront, hBack]
  simp only [List.append_assoc, List.singleton_append]

theorem deploymentFlakeLine_chars (deploymentFlake : String) (rest : List Char) :
    (deploymentFlakeLine deploymentFlake).toList ++ rest =
      "deployment_flake".toList ++ Toml.assign ++ ('"' :: deploymentFlake.toList ++ ['"']) ++
        '\n' :: rest :=
  line_chars (q := ['"']) rfl rfl rest

theorem upgradeOrderLine_chars (order : Nat) (rest : List Char) :
    (upgradeOrderLine order).toList ++ rest =
      "upgrade_order".toList ++ Toml.assign ++ (toString order).toList ++ '\n' :: rest := by
  have hFront : "upgrade_order = ".toList = "upgrade_order".toList ++ Toml.assign ++ [] := rfl
  have hBack : "\n".toList = [] ++ ['\n'] := rfl
  have hLine := line_chars (s := toString order) hFront hBack rest
  rwa [List.nil_append, List.append_nil] at hLine

theorem keepRootLine_chars (hRoot : keepRoot env = true) (rest : List Char) :
    (keepRootLine env).toList ++ rest =
      "keep_root".toList ++ Toml.assign ++ (toString true).toList ++ '\n' :: rest := by
  rw [keepRootLine, if_pos hRoot]
  rfl

theorem globalFields_chars (env : Environment) (deploymentFlake text : String) (order : Nat) :
    (globalFields env deploymentFlake order ++ text).toList =
      (deploymentFlakeLine deploymentFlake).toList ++ ((upgradeOrderLine order).toList ++
        ((keepRootLine env).toList ++ text.toList)) := by
  rw [globalFields, String.toList_append, String.toList_append, String.toList_append,
    List.append_assoc, List.append_assoc]

def hostKeys : List String :=
  ["name", "nixos_module", "extra_nixos_modules", "mac_address", "ipv4_address", "ipv4_cidr",
    "ipv4_gateway", "ipv6_address", "ipv6_cidr", "ipv6_gateway", "install_ssh_user", "hostname",
    "public_ssh_keys", "disks", "bitcoind_disks", "cockroach_peers", "kld_node_alias",
    "kld_node_alias_color", "kld_log_level", "rest_api_port", "api_ip_access_list",
    "telegraf_has_monitoring", "promtail_has_client", "monitor_config_hash", "network_interface",
    "kld_preset_mnemonic", "upgrade_schedule", "probe_interval", "probe_amt_msat", "probe_targets",
    "shutdown_graceful_sec"]

theorem hostTable_of_notMem {key : String} (hKey : key ∉ hostKeys) (host : Host) :
    hostTable host key = none := by
  have hKeys : (hostFields host).map Prod.fst = hostKeys := rfl
  have hLookup : (hostFields host).lookup key = none := by
    rw [List.lookup_eq_none_iff]
    rintro ⟨key', value⟩ hMem
    rw [bne_iff_ne]
    rintro rfl
    exact hKey (hKeys ▸ List.mem_map_of_mem hMem)
  rw [hostTable, tableOf, hLookup]
  rfl

theorem bareKeys : Toml.BareKey "deployment_flake" ∧ Toml.BareKey "upgrade_order" ∧
    Toml.BareKey "keep_root" := by decide +kernel

theorem newKeys (host : Host) : hostTable host "deployment_flake" = none ∧
    hostTable host "upgrade_order" = none ∧ hostTable host "keep_root" = none :=
  ⟨hostTable_of_notMem (by decide +kernel) host, hostTable_of_notMem (by decide +kernel) host,
    hostTable_of_notMem (by decide +kernel) host⟩

theorem read_keepRootLine (env : Environment) (hRead : Toml.Documented read)
    (hText : text.toList.head? ≠ some '\uFEFF' ∧ read text.toList = some (hostTable host)) :
    ((keepRootLine env).toList ++ text.toList).head? ≠ some '\uFEFF' ∧
      ∃ t, read ((keepRootLine env).toList ++ text.toList) = some t ∧
        ∀ key, t key =
          if key = "keep_root" ∧ keepRoot env = true then some (.boolean true)
          else hostTable host key := by
  by_cases hRoot : keepRoot env = true
  · rw [keepRootLine_chars hRoot]
    refine ⟨?_, _, hRead.read_line bareKeys.2.2 (.boolean true) hText.1 hText.2
      (newKeys host).2.2, fun key => ?_⟩
    · rw [List.append_assoc, List.append_assoc]
      exact bareKeys.2.2.head?_ne _
    · simp only [Function.update_apply, hRoot, and_true]
  · rw [keepRootLine, if_neg hRoot]
    refine ⟨hText.1, _, hText.2, fun key => ?_⟩
    rw [if_neg fun h => hRoot h.2]

/-- A plain text is read back, and so are the fields below it. -/
theorem read_nodeToml (hRead : Toml.Documented read)
    (hText : text.toList.head? ≠ some '\uFEFF' ∧ read text.toList = some (hostTable host))
    (hOrder : order < 2 ^ 63) (hPlain : ∀ c ∈ deploymentFlake.toList, Toml.Unescaped c) :
    read (globalFields env deploymentFlake order ++ text).toList =
      some (nodeTable env deploymentFlake order host) := by
  obtain ⟨hFlakeKey, hOrderKey, _⟩ := bareKeys
  obtain ⟨hFlakeNew, hOrderNew, _⟩ := newKeys host
  obtain ⟨hMark, t, hRest, hTable⟩ := read_keepRootLine env hRead hText
  have hOrdered := hRead.read_line hOrderKey (.integer hOrder) hMark hRest (by
    rw [hTable, if_neg fun h => absurd h.1 (by decide), hOrderNew])
  rw [globalFields_chars, deploymentFlakeLine_chars, upgradeOrderLine_chars]
  have hFlake := hRead.read_line hFlakeKey (.string hPlain)
    (by rw [List.append_assoc, List.append_assoc]; exact hOrderKey.head?_ne _) hOrdered (by
      rw [Function.update_of_ne (by decide), hTable, if_neg fun h => absurd h.1 (by decide),
        hFlakeNew])
  rw [hFlake]
  refine congrArg some (funext fun key => ?_)
  simp only [Function.update_apply, hTable, nodeTable, String.ofList_toList]

/-- A text that is not plain is read otherwise, if at all. -/
theorem unescaped_of_read (hRead : Toml.Documented read) {t : Toml.Table}
    (hText : read (globalFields env deploymentFlake order ++ text).toList = some t)
    (hFlake : t "deployment_flake" = some (.string deploymentFlake)) :
    ∀ c ∈ deploymentFlake.toList, Toml.Unescaped c := by
  rw [globalFields_chars, deploymentFlakeLine_chars, List.append_assoc, List.cons_append,
    List.cons_append] at hText
  obtain ⟨literal, value, rest, hValue, hLiteral, hEq⟩ := hRead.quoted bareKeys.1 hText
  have hSame : value = deploymentFlake.toList := by
    have hString := Toml.Value.string.inj (Option.some.inj (hFlake.symm.trans hValue))
    rw [hString, String.toList_ofList]
  subst hSame
  rw [upgradeOrderLine_chars] at hEq
  exact Toml.unescaped_of_quoted 'p' ['u'] (by decide) (by decide) (by decide) hLiteral
    (hEq.symm.trans rfl)

end Settings

section Files

variable {env : Environment} {disk : Disk} {toToml : Host → Except String String}
  {config : Config} {flake : NixosFlake} {dir deploymentFlake : String}
  {read : List Char → Option Toml.Table}

theorem hostFile_injective : Function.Injective hostFile := by
  intro a b h
  have hChars := congrArg String.toList h
  rw [hostFile, hostFile, String.toList_append, String.toList_append,
    List.append_left_inj] at hChars
  exact String.toList_injective hChars

theorem hostFile_ne {name other : String} (front : List Char)
    (hOther : other.toList = front ++ ['x']) : hostFile name ≠ other := by
  rintro rfl
  have hEnd : ".toml".toList = ".tom".toList ++ ['l'] := rfl
  rw [hostFile, String.toList_append, hEnd, ← List.append_assoc] at hOther
  cases (List.append_inj' hOther rfl).2

theorem writeHost_spec {entry : (String × Host) × Nat} {file : String × String}
    (hOk : writeHost env disk toToml dir deploymentFlake entry = .ok file) :
    hostFile entry.1.1 = file.1 ∧ ∃ text, toToml (deployed env entry.1.2) = .ok text ∧
      file.2 = globalFields env deploymentFlake entry.2 ++ text := by
  obtain ⟨_, -, hOk⟩ := ok_of_bind hOk
  obtain ⟨text, hText, hOk⟩ := ok_of_bind hOk
  obtain ⟨_, -, hOk⟩ := ok_of_bind hOk
  cases hOk
  exact ⟨rfl, text, ok_of_mapError (ok_of_context hText), rfl⟩

/-- What a generated flake has in its files. -/
structure Written (env : Environment) (toToml : Host → Except String String) (config : Config)
    (flake : NixosFlake) : Prop where
  host : ∀ entry ∈ config.hosts.zipIdx, ∃ text, toToml (deployed env entry.1.2) = .ok text ∧
    flake.file (hostFile entry.1.1) =
      some (globalFields env config.global.deploymentFlake entry.2 ++ text)
  configurations : flake.file "configurations.nix" =
    some (configurationContent (deployedHosts env config))

theorem writeFile_spec {name content : String} {file : String × String}
    (hOk : writeFile disk name content = .ok file) : file = (name, content) := by
  obtain ⟨_, -, hOk⟩ := ok_of_bind hOk
  obtain ⟨_, -, hOk⟩ := ok_of_bind hOk
  cases hOk
  rfl

theorem hostFiles_keys {hostFiles : List (String × String)}
    (hFiles : config.hosts.zipIdx.mapM (writeHost env disk toToml dir deploymentFlake) =
      .ok hostFiles) : hostFiles.map Prod.fst = (config.hosts.map Prod.fst).map hostFile := by
  have hPairs := forall₂_of_mapM hFiles fun _ _ _ hFile => (writeHost_spec hFile).1
  have hKeys : config.hosts.zipIdx.map (fun entry => hostFile entry.1.1) =
      hostFiles.map Prod.fst := by
    rwa [← List.forall₂_eq_eq_eq, List.forall₂_map_left_iff, List.forall₂_map_right_iff]
  rw [← hKeys, List.map_map]
  conv_rhs => rw [← List.zipIdx_map_fst 0 config.hosts, List.map_map]
  rfl

theorem nodup_fileKeys {names : List String} {hostFiles : List (String × String)}
    (hNames : names.Nodup) (hKeys : hostFiles.map Prod.fst = names.map hostFile)
    (configurations flake : String) :
    ((hostFiles ++ [("configurations.nix", configurations), ("flake.nix", flake)]).map
      Prod.fst).Nodup := by
  rw [List.map_append, hKeys, List.map_cons, List.map_cons, List.map_nil]
  dsimp only
  refine (hNames.map hostFile_injective).append (by decide) ?_
  intro key hHost hOther
  obtain ⟨name, _, rfl⟩ := List.mem_map.mp hHost
  rcases List.mem_pair.mp hOther with hEq | hEq
  · exact hostFile_ne "configurations.ni".toList rfl hEq
  · exact hostFile_ne "flake.ni".toList rfl hEq

theorem generateNixosFlake_spec (hNodup : (config.hosts.map Prod.fst).Nodup)
    (hOk : generateNixosFlake env disk toToml config = .ok flake) :
    Written env toToml config flake := by
  obtain ⟨dir, -, hOk⟩ := ok_of_bind hOk
  obtain ⟨hostFiles, hFiles, hOk⟩ := ok_of_bind hOk
  obtain ⟨configurations, hConfigurations, hOk⟩ := ok_of_bind hOk
  obtain ⟨nix, hNix, hOk⟩ := ok_of_bind hOk
  cases hOk
  obtain rfl := writeFile_spec hConfigurations
  obtain rfl := writeFile_spec hNix
  have hKeys := nodup_fileKeys hNodup (hostFiles_keys hFiles)
    (configurationContent (deployedHosts env config)) (flakeContent config.global.kndFlake)
  refine ⟨fun entry hEntry => ?_, ?_⟩
  · obtain ⟨file, hFile⟩ := ok_of_mapM hFiles entry hEntry
    obtain ⟨hName, text, hText, hContent⟩ := writeHost_spec hFile
    refine ⟨text, hText, Sql.Table.lookup_eq_some_of_mem hKeys ?_⟩
    rw [hName, ← hContent]
    exact List.mem_append_left _ ((mem_of_mapM hFiles).mpr ⟨entry, hEntry, hFile⟩)
  · exact Sql.Table.lookup_eq_some_of_mem hKeys (List.mem_append_right _ List.mem_cons_self)

/-- The upgrade order that is read from the file of a host. -/
def upgradeOrder (read : List Char → Option Toml.Table) (flake : NixosFlake) (name : String) :
    Option Toml.Value :=
  (flake.file (hostFile name)).bind fun text => (read text.toList).bind fun t => t "upgrade_order"

/-- The hosts are those that are deployed, in order. -/
structure RoundTrips (read : List Char → Option Toml.Table) (env : Environment) (config : Config)
    (flake : NixosFlake) : Prop where
  files : ∀ entry ∈ config.hosts.zipIdx, ∃ text, flake.file (hostFile entry.1.1) = some text ∧
    read text.toList = some
      (nodeTable env config.global.deploymentFlake entry.2 (deployed env entry.1.2))
  orders : ∀ entry ∈ config.hosts, ∀ other ∈ config.hosts, entry.1 ≠ other.1 →
    upgradeOrder read flake entry.1 ≠ upgradeOrder read flake other.1
  once : ∃ content, flake.file "configurations.nix" = some content ∧
    ∀ entry ∈ config.hosts, (lines content).countP (namesHost entry.1) = 1

/-- The text of the deployment flake may stand between quotation marks. -/
def PlainFlake (config : Config) : Prop :=
  ∀ c ∈ config.global.deploymentFlake.toList, Toml.Unescaped c

/-- No line break in the name of a module is followed by what names a host. -/
def QuietModules (config : Config) : Prop :=
  ∀ entry ∈ config.hosts, ∀ m ∈ nixosModules entry.2, ∀ line ∈ (lines m).tail,
    ∀ other ∈ config.hosts, namesHost other.1 line = false

theorem nixosModules_deployed {P : String → Prop} (hNode : P "kld-node") (hTest : P "kld-test")
    (host : Host) :
    (∀ m ∈ nixosModules (deployed env host), P m) ↔ ∀ m ∈ nixosModules host, P m := by
  unfold deployed
  split
  · rename_i hCond
    rw [Bool.and_eq_true, Bool.and_eq_true, decide_eq_true_iff] at hCond
    simp only [nixosModules, List.forall_mem_cons, hCond.2, hNode, hTest]
  · rfl

theorem deployedHosts_keys (env : Environment) (config : Config) :
    (deployedHosts env config).map Prod.fst = config.hosts.map Prod.fst := by
  rw [deployedHosts, List.map_map]
  rfl

/-- A host is named once if no module names it. -/
theorem named_once_iff {name : String} (hAccepted : Accepted config)
    (hMem : name ∈ config.hosts.map Prod.fst) :
    (lines (configurationContent (deployedHosts env config))).countP (namesHost name) = 1 ↔
      ∀ entry ∈ config.hosts, ∀ m ∈ nixosModules entry.2, ∀ line ∈ (lines m).tail,
        namesHost name line = false := by
  have hNodup : ((deployedHosts env config).map Prod.fst).Nodup := by
    rw [deployedHosts_keys]
    exact hAccepted.nodup
  have hNames : ∀ entry ∈ deployedHosts env config, hostnameRegex entry.1 = true :=
    List.forall_mem_map.mpr fun entry hEntry => (hAccepted.names entry hEntry).1
  have hKey : name ∈ (deployedHosts env config).map Prod.fst := by
    rw [deployedHosts_keys]
    exact hMem
  rw [countP_configurationContent hNodup hNames hKey, Nat.add_eq_left,
    List.sum_eq_zero_iff_forall_eq_nat, List.forall_mem_map, deployedHosts, List.forall_mem_map]
  refine forall₂_congr fun entry _ => ?_
  rw [List.sum_eq_zero_iff_forall_eq_nat, List.forall_mem_map,
    nixosModules_deployed (P := fun m => (lines m).tail.countP (namesHost name) = 0) rfl rfl]
  refine forall₂_congr fun m _ => ?_
  rw [List.countP_eq_zero]
  exact forall₂_congr fun line _ => Bool.not_eq_true _ ▸ Iff.rfl

theorem upgradeOrder_eq {entry : (String × Host) × Nat} {text : String}
    (hFile : flake.file (hostFile entry.1.1) = some text)
    (hText : read text.toList = some
      (nodeTable env deploymentFlake entry.2 (deployed env entry.1.2))) :
    upgradeOrder read flake entry.1.1 = some (.integer entry.2) := by
  rw [upgradeOrder, hFile, Option.bind_some, hText, Option.bind_some, nodeTable,
    if_neg (by decide), if_pos rfl]

theorem exists_order {entry : String × Host} (hEntry : entry ∈ config.hosts) :
    ∃ order, (entry, order) ∈ config.hosts.zipIdx := by
  obtain ⟨order, hGet⟩ := List.mem_iff_getElem?.mp hEntry
  exact ⟨order, List.mk_mem_zipIdx_iff_getElem?.mpr hGet⟩

/-- The files of different hosts have different orders, as the hosts have different places. -/
theorem orders_of_files (hFiles : ∀ entry ∈ config.hosts.zipIdx, ∃ text,
      flake.file (hostFile entry.1.1) = some text ∧ read text.toList = some
        (nodeTable env config.global.deploymentFlake entry.2 (deployed env entry.1.2))) :
    ∀ entry ∈ config.hosts, ∀ other ∈ config.hosts, entry.1 ≠ other.1 →
      upgradeOrder read flake entry.1 ≠ upgradeOrder read flake other.1 := by
  have hOrder : ∀ entry ∈ config.hosts.zipIdx,
      upgradeOrder read flake entry.1.1 = some (.integer entry.2) := by
    intro entry hEntry
    obtain ⟨text, hFile, hText⟩ := hFiles entry hEntry
    exact upgradeOrder_eq hFile hText
  intro entry hEntry other hOther hNe hSame
  obtain ⟨i, hI⟩ := exists_order hEntry
  obtain ⟨j, hJ⟩ := exists_order hOther
  rw [hOrder _ hI, hOrder _ hJ] at hSame
  have hEq : i = j := Int.ofNat.inj (Toml.Value.integer.inj (Option.some.inj hSame))
  rw [List.mk_mem_zipIdx_iff_getElem?] at hI hJ
  rw [hEq] at hI
  exact hNe (congrArg Prod.fst (Option.some.inj (hI.symm.trans hJ)))

theorem files_of_plain (hHosts : Accepted config) (hWritten : Written env toToml config flake)
    (hRead : Toml.Documented read) (hWrite : Serializes read toToml) (hPlain : PlainFlake config) :
    ∀ entry ∈ config.hosts.zipIdx, ∃ text, flake.file (hostFile entry.1.1) = some text ∧
      read text.toList = some
        (nodeTable env config.global.deploymentFlake entry.2 (deployed env entry.1.2)) := by
  intro entry hEntry
  obtain ⟨text, hText, hFile⟩ := hWritten.host entry hEntry
  have hOrder : entry.2 < 2 ^ 63 := by
    obtain ⟨hLt, _⟩ := List.getElem?_eq_some_iff.mp (List.mem_zipIdx_iff_getElem?.mp hEntry)
    exact hLt.trans hHosts.length
  exact ⟨_, hFile, read_nodeToml hRead (hWrite _ _ hText) hOrder hPlain⟩

/-- The file of the node whose module is required is read back only if the flake is plain. -/
theorem plain_of_files (hHosts : Accepted config) (hWritten : Written env toToml config flake)
    (hRead : Toml.Documented read) (hTrips : RoundTrips read env config flake) :
    PlainFlake config := by
  obtain ⟨entry, hEntry, _⟩ := hHosts.kldNode
  obtain ⟨order, hOrder⟩ := exists_order hEntry
  obtain ⟨text, hFile, hText⟩ := hTrips.files _ hOrder
  obtain ⟨hostToml, _, hFile'⟩ := hWritten.host _ hOrder
  obtain rfl := Option.some.inj (hFile'.symm.trans hFile)
  exact unescaped_of_read hRead hText (if_pos rfl)

end Files

section Samples

deriving instance DecidableEq for Host, Global, Config, NixosFlake

def nodeConfig (nixosModule : String) (address : BitVec 32) : HostConfig :=
  { nixosModule := nixosModule
    ipv4Address := some (.v4 address)
    ipv4Gateway := some (.v4 0xC77F4001)
    ipv4Cidr := some 24
    publicSshKeys := ["ssh-ed25519"] }

/-- A cluster of three nodes. -/
def threeNodes (deploymentFlake : String) : ConfigFile where
  global := ⟨deploymentFlake, "", "github:kuutamolabs/lightning-knd", "/secrets"⟩
  hostDefaults := {}
  hosts := AList.insert "kld-00" (nodeConfig "kld-node" 0xC77F4002)
    (AList.insert "db-00" (nodeConfig "cockroachdb-node" 0xC77F4003)
      (AList.singleton "db-01" (nodeConfig "cockroachdb-node" 0xC77F4004)))
  fits := by decide

def noVariables : Environment := ⟨false, false, fun _ _ => none⟩

def nodeHost (name nixosModule hostname : String) (address : BitVec 32) : Host where
  name := name
  nixosModule := nixosModule
  extraNixosModules := []
  macAddress := none
  ipv4Address := some (.v4 address)
  ipv4Cidr := some 24
  ipv4Gateway := some (.v4 0xC77F4001)
  ipv6Address := none
  ipv6Cidr := none
  ipv6Gateway := none
  installSshUser := "root"
  hostname := hostname
  publicSshKeys := ["ssh-ed25519"]
  disks := ["/dev/nvme0n1", "/dev/nvme1n1"]
  bitcoindDisks := []
  cockroachPeers := [⟨"db-00", some (.v4 0xC77F4003), none⟩, ⟨"db-01", some (.v4 0xC77F4004), none⟩,
    ⟨"kld-00", some (.v4 0xC77F4002), none⟩]
  kldNodeAlias := none
  kldNodeAliasColor := none
  kldLogLevel := none
  kmonitorConfig := none
  restApiPort := none
  apiIpAccessList := []
  telegrafHasMonitoring := false
  promtailHasClient := false
  monitorConfigHash := "0"
  networkInterface := none
  kldPresetMnemonic := some false
  upgradeSchedule := none
  probeInterval := none
  probeAmtMsat := none
  probeTargets := []
  shutdownGracefulSec := none

/-- In the order of their names. -/
def threeHosts : List Host :=
  [nodeHost "db-00" "cockroachdb-node" "199.127.64.3" 0xC77F4003,
    nodeHost "db-01" "cockroachdb-node" "199.127.64.4" 0xC77F4004,
    nodeHost "kld-00" "kld-node" "199.127.64.2" 0xC77F4002]

def threeConfig (deploymentFlake : String) : Config :=
  ⟨threeHosts.map fun host => (host.name, host), (threeNodes deploymentFlake).global⟩

def emptyDisk : Disk := ⟨.ok "/tmp/kuutamo-flake.1", fun _ => .ok (), fun _ _ => .ok ()⟩

def nameField (host : Host) : String := "name = \"" ++ host.name ++ "\"\n"

def moduleField (host : Host) : String := "nixos_module = \"" ++ host.nixosModule ++ "\"\n"

def firstLines (host : Host) : String :=
  nameField host ++ (moduleField host ++ "extra_nixos_modules = []\n")

def peerLines (name address : String) : String :=
  "\n[[cockroach_peers]]\nname = \"" ++ name ++ "\"\nipv4_address = \"" ++ address ++ "\"\n"

def restTail (host : Host) : String :=
  "\"
ipv4_cidr = 24
ipv4_gateway = \"199.127.64.1\"
install_ssh_user = \"root\"
hostname = \"" ++ host.hostname ++ "\"
public_ssh_keys = [\"ssh-ed25519\"]
disks = [\"/dev/nvme0n1\", \"/dev/nvme1n1\"]
bitcoind_disks = []
api_ip_access_list = []
telegraf_has_monitoring = false
promtail_has_client = false
monitor_config_hash = \"0\"
kld_preset_mnemonic = false
probe_targets = []
" ++ peerLines "db-00" "199.127.64.3" ++ peerLines "db-01" "199.127.64.4" ++
    peerLines "kld-00" "199.127.64.2"

def restLines (host : Host) : String := "ipv4_address = \"" ++ host.hostname ++ restTail host

def exampleToml (host : Host) : Except String String :=
  if host ∈ threeHosts then .ok (firstLines host ++ restLines host) else .error "unsupported"

def modulesLine : List Char := "extra_nixos_modules = []\n".toList

def restTable (host : Host) : Toml.Table := fun key =>
  if key = "name" ∨ key = "nixos_module" then none else hostTable host key

/-- The host of which these are the lines after the first two. -/
def hostOfRest (text : List Char) : Option Host :=
  threeHosts.find? fun host => text = modulesLine ++ (restLines host).toList

theorem restLines_chars (host : Host) : (restLines host).toList =
    ("ipv4_address = \"".toList ++ host.hostname.toList) ++ (restTail host).toList := by
  rw [restLines, String.toList_append, String.toList_append]

theorem eq_of_restLines {host other : Host} (hHost : host ∈ threeHosts)
    (hOther : other ∈ threeHosts) (h : (restLines host).toList = (restLines other).toList) :
    host = other := by
  have hLength : ∀ host ∈ threeHosts, host.hostname.toList.length = 12 := by decide +kernel
  have hNames : ∀ host ∈ threeHosts, ∀ other ∈ threeHosts,
      host.hostname.toList = other.hostname.toList → host = other := by decide +kernel
  rw [restLines_chars, restLines_chars] at h
  have hFront := (List.append_inj h (by
    rw [List.length_append, List.length_append, hLength host hHost, hLength other hOther])).1
  exact hNames host hHost other hOther (List.append_cancel_left hFront)

theorem hostOfRest_restLines {host : Host} (hMem : host ∈ threeHosts) :
    hostOfRest (modulesLine ++ (restLines host).toList) = some host := by
  cases hFind : hostOfRest (modulesLine ++ (restLines host).toList) with
  | none => exact absurd (decide_eq_true rfl) (List.find?_eq_none.mp hFind host hMem)
  | some other =>
    have hText := List.find?_some hFind
    exact congrArg some (eq_of_restLines hMem (List.mem_of_find?_eq_some hFind)
      (List.append_cancel_left (of_decide_eq_true hText))).symm

def readRest (text : List Char) : Option Toml.Table := (hostOfRest text).map restTable

theorem documented_readRest : Toml.Documented (Toml.readWith readRest) := by
  refine Toml.documented_readWith fun key text hKey => ?_
  rw [readRest, Option.map_eq_none_iff, hostOfRest, List.find?_eq_none]
  intro host _ hEq
  have hHead := congrArg (fun cs => ((cs.dropWhile Toml.isBare).drop 3).head?)
    (of_decide_eq_true hEq)
  have hRest (tail : List Char) :
      (((modulesLine ++ tail).dropWhile Toml.isBare).drop 3).head? = some '[' := rfl
  rw [hRest, List.append_assoc, List.dropWhile_append_of_pos hKey.2] at hHead
  cases hHead

theorem read_modulesLine {host : Host} (hMem : host ∈ threeHosts) :
    Toml.readWith readRest (modulesLine ++ (restLines host).toList) = some (restTable host) := by
  have hKey : Toml.BareKey "extra_nixos_modules" := by decide +kernel
  have hWord : Toml.readWord "[]" = none := Option.isNone_iff_eq_none.mp (by decide +kernel)
  have hValue : Toml.readValue ("[]".toList ++ '\n' :: (restLines host).toList) = none := by
    rw [Toml.readValue_word (by decide +kernel) (by decide +kernel), String.ofList_toList, hWord]
    rfl
  have hLine : Toml.readLine (modulesLine ++ (restLines host).toList) = none := by
    refine Eq.trans (Toml.readLine_key hKey ("[]".toList ++ '\n' :: (restLines host).toList)) ?_
    rw [hValue]
    rfl
  rw [Toml.readWith_of_none hLine, readRest, hostOfRest_restLines hMem, Option.map_some]

theorem plain_threeHosts : ∀ host ∈ threeHosts, host.name.toList.all (Toml.Unescaped ·) ∧
    host.nixosModule.toList.all (Toml.Unescaped ·) := by
  decide +kernel

theorem firstLines_chars (host : Host) (rest : List Char) :
    (firstLines host).toList ++ rest = "name".toList ++ Toml.assign ++
      ('"' :: host.name.toList ++ ['"']) ++ '\n' :: ("nixos_module".toList ++ Toml.assign ++
        ('"' :: host.nixosModule.toList ++ ['"']) ++ '\n' :: (modulesLine ++ rest)) := by
  have hName (tail : List Char) : (nameField host).toList ++ tail = _ :=
    line_chars (show "name = \"".toList = ("name".toList ++ Toml.assign) ++ ['"'] from rfl)
      (show "\"\n".toList = ['"'] ++ ['\n'] from rfl) tail
  have hModule (tail : List Char) : (moduleField host).toList ++ tail = _ :=
    line_chars
      (show "nixos_module = \"".toList = ("nixos_module".toList ++ Toml.assign) ++ ['"'] from rfl)
      (show "\"\n".toList = ['"'] ++ ['\n'] from rfl) tail
  rw [firstLines, String.toList_append, String.toList_append, List.append_assoc, List.append_assoc,
    hModule, hName]
  rfl

/-- The keys that the reader meets first are those that the table of the rest leaves out. -/
theorem read_firstLines {host : Host} (hMem : host ∈ threeHosts) :
    Toml.readWith readRest ((firstLines host).toList ++ (restLines host).toList) =
      some (hostTable host) := by
  have hDocumented := documented_readRest
  have hName : Toml.BareKey "name" := by decide +kernel
  have hModule : Toml.BareKey "nixos_module" := by decide +kernel
  have hMark : (modulesLine ++ (restLines host).toList).head? ≠ some '\uFEFF' := fun hHead =>
    absurd (Option.some.inj hHead) (by decide)
  obtain ⟨hNameText, hModuleText⟩ := plain_threeHosts host hMem
  have hModuleLine := hDocumented.read_line hModule
    (.string (Toml.unescaped_of_all hModuleText)) hMark (read_modulesLine hMem)
    (if_pos (Or.inr rfl))
  have hNew : Function.update (restTable host) "nixos_module"
      (some (Toml.Value.string (.ofList host.nixosModule.toList))) "name" = none := by
    rw [Function.update_of_ne (by decide)]
    exact if_pos (Or.inl rfl)
  have hNameLine := hDocumented.read_line hName (.string (Toml.unescaped_of_all hNameText))
    (hModule.head?_ne _) hModuleLine hNew
  have hText : (firstLines host).toList ++ (restLines host).toList = _ := firstLines_chars host _
  rw [hText]
  refine Eq.trans hNameLine (congrArg some (funext fun key => ?_))
  simp only [Function.update_apply, restTable, String.ofList_toList]
  split_ifs with hKey hKey' hEither
  · exact hKey ▸ rfl
  · exact hKey' ▸ rfl
  · tauto
  · rfl

theorem exampleToml_serializes : Serializes (Toml.readWith readRest) exampleToml := by
  intro host text hText
  unfold exampleToml at hText
  split at hText
  · rename_i hMem
    cases hText
    rw [String.toList_append]
    refine ⟨?_, read_firstLines hMem⟩
    rw [firstLines_chars]
    exact fun hHead => absurd (Option.some.inj hHead) (by decide)
  · cases hText

theorem threeNodes_generated (deploymentFlake : String) : ∃ flake, generateNixosFlake noVariables
    emptyDisk exampleToml (threeConfig deploymentFlake) = .ok flake :=
  ⟨_, rfl⟩

theorem threeNodes_accepted : parseConfig noExternals noVariables
      (threeNodes "github:kuutamolabs/deployment-example") "/" false false =
    .ok (threeConfig "github:kuutamolabs/deployment-example") := by
  decide +kernel

theorem quoted_accepted : parseConfig noExternals noVariables (threeNodes "path:/tmp/a\"b") "/"
      false false = .ok (threeConfig "path:/tmp/a\"b") := by
  decide +kernel

end Samples

end Kld.Cluster
