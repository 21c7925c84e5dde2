import Kld.Lib.Toml
import Kld.Mgr.ConfigFile

/-!
# The generated flake

Every host has a file of settings: the serialised host below a few lines that are
written by hand, with the deployment flake between quotation marks as it is.
-/

namespace Kld.Cluster

open Kld.Config
open Fallible
open Pki (IpAddr)
open Toml (Value)

section Serialised

def textValue (s : String) : Value := .string s

def addressValue (address : IpAddr) : Value := .string address.toText

def u8Value (n : UInt8) : Value := .integer n.toNat

def u16Value (n : UInt16) : Value := .integer n.toNat

def u64Value (n : UInt64) : Value := .integer n.toNat

def textsValue (texts : List String) : Value := .array (texts.map textValue)

def levelValue : LogLevel → Value
  | .error => .string "error"
  | .warn => .string "warn"
  | .info => .string "info"
  | .debug => .string "debug"
  | .trace => .string "trace"

/-- A field without a value is left out. -/
def tableOf (fields : List (String × Option Value)) : Toml.Table := fun key =>
  (fields.lookup key).join

def peerValue (peer : CockroachPeer) : Value :=
  .table (tableOf [("name", some (textValue peer.name)),
    ("ipv4_address", peer.ipv4Address.map addressValue),
    ("ipv6_address", peer.ipv6Address.map addressValue)])

/-- All fields but the monitoring settings. -/
def hostFields (host : Host) : List (String × Option Value) :=
  [("name", some (textValue host.name)),
    ("nixos_module", some (textValue host.nixosModule)),
    ("extra_nixos_modules", some (textsValue host.extraNixosModules)),
    ("mac_address", host.macAddress.map textValue),
    ("ipv4_address", host.ipv4Address.map addressValue),
    ("ipv4_cidr", host.ipv4Cidr.map u8Value),
    ("ipv4_gateway", host.ipv4Gateway.map addressValue),
    ("ipv6_address", host.ipv6Address.map addressValue),
    ("ipv6_cidr", host.ipv6Cidr.map u8Value),
    ("ipv6_gateway", host.ipv6Gateway.map addressValue),
    ("install_ssh_user", some (textValue host.installSshUser)),
    ("hostname", some (textValue host.hostname)),
    ("public_ssh_keys", some (textsValue host.publicSshKeys)),
    ("disks", some (textsValue host.disks)),
    ("bitcoind_disks", some (textsValue host.bitcoindDisks)),
    ("cockroach_peers", some (.array (host.cockroachPeers.map peerValue))),
    ("kld_node_alias", host.kldNodeAlias.map textValue),
    ("kld_node_alias_color", host.kldNodeAliasColor.map textValue),
    ("kld_log_level", host.kldLogLevel.map levelValue),
    ("rest_api_port", host.restApiPort.map u16Value),
    ("api_ip_access_list", some (.array (host.apiIpAccessList.map addressValue))),
    ("telegraf_has_monitoring", some (.boolean host.telegrafHasMonitoring)),
    ("promtail_has_client", some (.boolean host.promtailHasClient)),
    ("monitor_config_hash", some (textValue host.monitorConfigHash)),
    ("network_interface", host.networkInterface.map textValue),
    ("kld_preset_mnemonic", host.kldPresetMnemonic.map Value.boolean),
    ("upgrade_schedule", host.upgradeSchedule.map textValue),
    ("probe_interval", host.probeInterval.map u64Value),
    ("probe_amt_msat", host.probeAmtMsat.map u64Value),
    ("probe_targets", some (textsValue host.probeTargets)),
    ("shutdown_graceful_sec", host.shutdownGracefulSec.map u64Value)]

def hostTable (host : Host) : Toml.Table := tableOf (hostFields host)

end Serialised

/-- The directory, and the files that can be created and written there. -/
structure Disk where
  tempdir : Result String
  create : String → Result Unit
  writeAll : String → String → Result Unit

/-- The files in the order in which they are written. -/
structure NixosFlake where
  path : String
  files : List (String × String)

def NixosFlake.file (flake : NixosFlake) (name : String) : Option String := flake.files.lookup name

section Generate

variable (env : Environment) (disk : Disk) (toToml : Host → Except String String)

def keepRoot : Bool := env.flakeCheck || env.debug

def deploymentFlakeLine (deploymentFlake : String) : String :=
  "deployment_flake = \"" ++ deploymentFlake ++ "\"\n"

def upgradeOrderLine (order : Nat) : String := "upgrade_order = " ++ toString order ++ "\n"

def keepRootLine : String := if keepRoot env then "keep_root = true\n" else ""

def globalFields (deploymentFlake : String) (order : Nat) : String :=
  deploymentFlakeLine deploymentFlake ++ upgradeOrderLine order ++ keepRootLine env

def deployed (host : Host) : Host :=
  if !env.flakeCheck && env.debug && host.nixosModule = "kld-node" then
    { host with nixosModule := "kld-test" }
  else host

def deployedHosts (config : Config) : List (String × Host) :=
  config.hosts.map fun entry => (entry.1, deployed env entry.2)

def hostFile (name : String) : String := name ++ ".toml"

def writeHost (dir deploymentFlake : String) (entry : (String × Host) × Nat) :
    Result (String × String) := do
  let path := dir ++ "/" ++ hostFile entry.1.1
  context ("could not create " ++ path) (disk.create (hostFile entry.1.1))
  let hostToml ← context ("cannot serialize " ++ entry.1.1 ++ " to toml")
    ((toToml (deployed env entry.1.2)).mapError ([·]))
  let hostToml := globalFields env deploymentFlake entry.2 ++ hostToml
  context ("Cannot write " ++ path) (disk.writeAll (hostFile entry.1.1) hostToml)
  pure (hostFile entry.1.1, hostToml)

def moduleStart : String := "      lightning-knd.nixosModules.\""

def moduleLine (m : String) : String := moduleStart ++ m ++ "\""

def headingStart : String := "  nixosConfigurations.\""

def headingEnd : String := "\" = lightning-knd.inputs.nixpkgs.lib.nixosSystem \x7b"

def heading (name : String) : String := headingStart ++ name ++ headingEnd

def deployConfigStart : String :=
  "      \x7b kuutamo.deployConfig = builtins.fromTOML (builtins.readFile (builtins.path \x7b"

def nodePathStart : String := " name = \"node.toml\"; path = ./"

def deployConfigEnd : String := ".toml; \x7d)); \x7d"

def deployConfig (name : String) : String :=
  deployConfigStart ++ (nodePathStart ++ name) ++ deployConfigEnd

def nixosModules (host : Host) : List String := host.nixosModule :: host.extraNixosModules

def configuration (entry : String × Host) : String :=
  "\n".intercalate [heading entry.1,
    "    system = \"x86_64-linux\";",
    "    modules = [",
    "\n".intercalate ((nixosModules entry.2).map moduleLine),
    deployConfig entry.1,
    "    ];",
    "  \x7d;"]

def configurationContent (hosts : List (String × Host)) : String :=
  "\n".intercalate ["\x7b lightning-knd, ... \x7d: \x7b",
    "\n".intercalate (hosts.map configuration),
    "\x7d",
    ""]

def flakeContent (kndFlake : String) : String :=
  "\n".intercalate ["\x7b",
    "  inputs.lightning-knd.url = \"" ++ kndFlake ++ "\";",
    "",
    "  nixConfig.extra-substituters = [",
    "    \"https://cache.garnix.io\"",
    "  ];",
    "",
    "  nixConfig.extra-trusted-public-keys = [",
    "    \"cache.garnix.io:CTFPyKSLcx5RMJKfLo5EEPUObbA78b0YQ2DTCJXqr9g=\"",
    "  ];",
    "",
    "  outputs = inputs: import ./configurations.nix inputs;",
    "\x7d",
    ""]

def writeFile (name content : String) : Result (String × String) := do
  context ("could not create " ++ name) (disk.create name)
  context ("could not write " ++ name) (disk.writeAll name content)
  pure (name, content)

def generateNixosFlake (config : Config) : Result NixosFlake := do
  let dir ← context "cannot create temporary directory" disk.tempdir
  let hostFiles ← config.hosts.zipIdx.mapM
    (writeHost env disk toToml dir config.global.deploymentFlake)
  let configurations ← writeFile disk "configurations.nix"
    (configurationContent (deployedHosts env config))
  let flake ← writeFile disk "flake.nix" (flakeContent config.global.kndFlake)
  pure ⟨dir, hostFiles ++ [configurations, flake]⟩

end Generate

end Kld.Cluster
