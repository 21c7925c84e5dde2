import Kld.Mgr.IpAddr
import Kld.Lib.Decimal
import Kld.Lib.Fallible
import Kld.Lib.Utf8

/-!
# The settings of a host

A value that the host has not is taken from the defaults of all hosts. The size of the
IPv6 subnet may also follow the address in its text, and that one is the last word.
-/

namespace Kld.Config

open Pki (IpAddr)

inductive LogLevel where
  | error
  | warn
  | info
  | debug
  | trace
deriving DecidableEq

structure TelegrafConfig where
  url : Option String
  username : String
  password : String
deriving DecidableEq

structure KmonitorConfig where
  telegraf : Option TelegrafConfig
  promtail : Option String
deriving DecidableEq

structure CockroachPeer where
  name : String
  ipv4Address : Option IpAddr
  ipv6Address : Option IpAddr
deriving DecidableEq

structure HostDefaultConfig where
  ipv4Gateway : Option IpAddr := none
  ipv4Cidr : Option UInt8 := none
  ipv6Gateway : Option IpAddr := none
  ipv6Cidr : Option UInt8 := none
  publicSshKeys : List String := []
  installSshUser : Option String := none
  extraNixosModules : List String := []
  disks : Option (List String) := none
  kuutamoMonitoringTokenFile : Option String := none
  selfMonitoringUrl : Option String := none
  selfMonitoringUsername : Option String := none
  selfMonitoringPassword : Option String := none
  promtailClient : Option String := none
  kldNodeAliasColor : Option String := none
  probeInterval : Option UInt64 := none
  probeAmtMsat : Option UInt64 := none
  probeTargets : Option (List String) := none
  shutdownGracefulSec : Option UInt64 := none

/-- `others` has the names of the fields that are not known. -/
structure HostConfig where
  ipv4Address : Option IpAddr := none
  ipv4Gateway : Option IpAddr := none
  ipv4Cidr : Option UInt8 := none
  nixosModule : String := ""
  macAddress : Option String := none
  ipv6Address : Option String := none
  ipv6Gateway : Option IpAddr := none
  ipv6Cidr : Option UInt8 := none
  publicSshKeys : List String := []
  installSshUser : Option String := none
  hostname : Option String := none
  disks : Option (List String) := none
  bitcoindDisks : Option (List String) := none
  kldNodeAlias : Option String := none
  kldNodeAliasColor : Option String := none
  kldLogLevel : Option LogLevel := none
  kuutamoMonitoringTokenFile : Option String := none
  selfMonitoringUrl : Option String := none
  selfMonitoringUsername : Option String := none
  selfMonitoringPassword : Option String := none
  promtailClient : Option String := none
  kldRestApiPort : Option UInt16 := none
  kldApiIpAccessList : List IpAddr := []
  networkInterface : Option String := none
  upgradeSchedule : Option String := none
  probeInterval : Option UInt64 := none
  probeAmtMsat : Option UInt64 := none
  probeTargets : List String := []
  shutdownGracefulSec : Option UInt64 := none
  others : List String := []

structure Host where
  name : String
  nixosModule : String
  extraNixosModules : List String
  macAddress : Option String
  ipv4Address : Option IpAddr
  ipv4Cidr : Option UInt8
  ipv4Gateway : Option IpAddr
  ipv6Address : Option IpAddr
  ipv6Cidr : Option UInt8
  ipv6Gateway : Option IpAddr
  installSshUser : String
  hostname : String
  publicSshKeys : List String
  disks : List String
  bitcoindDisks : List String
  cockroachPeers : List CockroachPeer
  kldNodeAlias : Option String
  kldNodeAliasColor : Option String
  kldLogLevel : Option LogLevel
  kmonitorConfig : Option KmonitorConfig
  restApiPort : Option UInt16
  apiIpAccessList : List IpAddr
  telegrafHasMonitoring : Bool
  promtailHasClient : Bool
  monitorConfigHash : String
  networkInterface : Option String
  kldPresetMnemonic : Option Bool
  upgradeSchedule : Option String
  probeInterval : Option UInt64
  probeAmtMsat : Option UInt64
  probeTargets : List String
  shutdownGracefulSec : Option UInt64

/-- What is outside of the program: files, encodings, and the status with which the monitoring
server answers a user and a password, if it does. -/
structure Externals where
  readToString : String → Option String
  decodeBase64 : String → Option (List UInt8)
  monitoringStatus : String → String → Option Nat
  hash : Option KmonitorConfig → UInt64
  isPublicKey : String → Bool

/-- An error is the list of its contexts, the outermost first. -/
abbrev Result := Except (List String)

def context (message : String) {α : Type} (result : Result α) : Result α :=
  result.mapError (message :: ·)

def ensure (condition : Bool) (message : String) : Result Unit :=
  if condition then .ok () else .error [message]

/-- A value that is set is checked. -/
def ensureSome {α : Type} (value : Option α) (check : α → Bool) (message : α → String) :
    Result Unit :=
  match value with
  | some a => ensure (check a) (message a)
  | none => .ok ()

def normalize (s : String) : Result (IpAddr × Option UInt8) :=
  match s.toList.dropWhile (· ≠ '/') with
  | [] =>
    match IpAddr.fromStr s with
    | some address => .ok (address, none)
    | none => .error ["invalid IP address syntax"]
  | _ :: suffix =>
    match Decimal.fromStr UInt8.size (String.ofList suffix) with
    | .ok mask =>
      match IpAddr.fromStr (String.ofList (s.toList.takeWhile (· ≠ '/'))) with
      | some address => .ok (address, some (.ofNat mask))
      | none => .error ["ipv6_address is not invalid"]
    | .error _ => .error ["ipv6_address is not invalid"]

def isLowerAlphanum (c : Char) : Bool := c.isLower || c.isDigit

/-- The expression `^[a-z0-9][a-z0-9\-]{0,62}$`. -/
def hostnameRegex (name : String) : Bool :=
  match name.toList with
  | [] => false
  | c :: cs =>
    isLowerAlphanum c && decide (cs.length ≤ 62) && cs.all fun d => isLowerAlphanum d || d == '-'

def isHexDigit (c : Char) : Bool := (IpAddr.toDigit 16 c).isSome

/-- The expression `^([0-9A-Fa-f]{2}[:-]){5}([0-9A-Fa-f]{2})$`. -/
def macAddressRegex (s : String) : Bool :=
  decide (s.toList.length = 17) && s.toList.zipIdx.all fun (c, i) =>
    if i % 3 = 2 then c == ':' || c == '-' else isHexDigit c

/-- Three bytes in hexadecimal. -/
def isColor (s : String) : Bool := decide (s.toList.length = 6) && s.toList.all isHexDigit

def isWhitespace (c : Char) : Bool :=
  (0x09 ≤ c.toNat && c.toNat ≤ 0x0D) || (0x2000 ≤ c.toNat && c.toNat ≤ 0x200A) ||
    [0x20, 0x85, 0xA0, 0x1680, 0x2028, 0x2029, 0x202F, 0x205F, 0x3000].contains c.toNat

def trimMatches (p : Char → Bool) (s : String) : String :=
  .ofList ((s.toList.dropWhile p).reverse.dropWhile p).reverse

def decodeToken (ext : Externals) (s : String) : Option (String × String) := do
  let binding ← ext.decodeBase64 (trimMatches (fun c => c == '=' || c == '\n') s)
  let text ← Utf8.decode binding
  match text.toList.dropWhile (· ≠ ':') with
  | [] => none
  | _ :: password =>
    some (trimMatches isWhitespace (.ofList (text.toList.takeWhile (· ≠ ':'))),
      trimMatches isWhitespace (.ofList password))

def tryVerifyKuutamoMonitoringConfig (ext : Externals) (userId password : String) :
    Option TelegrafConfig :=
  let username := "kld-" ++ userId
  if ext.monitoringStatus username password = some 401 then none
  else some ⟨none, username, password⟩

def telegrafConfig (ext : Externals) (name : String) (host : HostConfig)
    (default : HostDefaultConfig) : Result (Option TelegrafConfig) :=
  let tokenFile := (host.kuutamoMonitoringTokenFile.or default.kuutamoMonitoringTokenFile).getD
    "kuutamo-monitoring.token"
  let token := ((ext.readToString tokenFile).map (trimMatches isWhitespace)).bind (decodeToken ext)
  match host.selfMonitoringUrl.or default.selfMonitoringUrl,
    host.selfMonitoringUsername.or default.selfMonitoringUsername,
    host.selfMonitoringPassword.or default.selfMonitoringPassword, token with
  | some url, some username, some password, _ => .ok (some ⟨some url, username, password⟩)
  | some url, _, _, some (userId, password) => .ok (some ⟨some url, userId, password⟩)
  | none, _, _, some (userId, password) =>
    .ok (tryVerifyKuutamoMonitoringConfig ext userId password)
  | none, some _, _, none | none, _, some _, none =>
    .error ["The monitoring config for " ++ name ++ " is incomplete, please check"]
  | _, _, _, _ => .ok none

/-- The IPv6 address and the subnet that its text names. -/
def validateIpv6 (name : String) (ipv6Address : Option String) (ipv6Cidr : Option UInt8)
    (ipv6Gateway : Option IpAddr) : Result (Option IpAddr × Option UInt8) :=
  match ipv6Address with
  | none => .ok (none, none)
  | some text => do
    let (address, mask) ← context
      ("ipv6_address provided for host." ++ name ++ " is not valid") (normalize text)
    ensure address.isIpv6 ("value provided in ipv6_address for hosts." ++ name ++
      " is not an ipv6 address: " ++ address.toText)
    (match ipv6Cidr with
      | some cidr => ensure (decide (cidr < 129))
          ("ipv6_cidr for hosts." ++ name ++ " is not between 0 and 128: " ++ toString cidr.toNat)
      | none => ensure mask.isSome ("no ipv6_cidr provided for hosts." ++ name))
    ensure ipv6Gateway.isSome ("no ipv6_gateway provided for hosts." ++ name)
    pure (some address, mask)

def validateHost (ext : Externals) (name : String) (host : HostConfig)
    (default : HostDefaultConfig) (presetMnemonic : Bool) : Result Host := do
  ensure host.others.isEmpty (", ".intercalate host.others ++ " are not allowed fields")
  ensure (name ≠ "" && decide (name.utf8ByteSize ≤ 63))
    ("a host's name must be between 1 and 63 characters long, got: '" ++ name ++ "'")
  ensure (hostnameRegex name)
    ("a host's name must only contain letters from a to z, the digits from 0 to 9, and the " ++
      "hyphen (-). But not starting with a hyphen. got: '" ++ name ++ "'")
  ensureSome host.macAddress macAddressRegex fun a =>
    "mac address does match a valid format: " ++ a ++ " (valid example value: 02:42:34:d1:18:7a)"
  ensureSome host.ipv4Address IpAddr.isIpv4 fun address =>
    "ipv4_address provided for hosts." ++ name ++ " is not an ipv4 address: " ++ address.toText
  let ipv4Cidr := host.ipv4Cidr.or default.ipv4Cidr
  ensureSome ipv4Cidr (fun cidr => decide (cidr < 33)) fun cidr =>
    "ipv4_cidr for hosts." ++ name ++ " is not between 0 and 32: " ++ toString cidr.toNat
  let ipv4Gateway := host.ipv4Gateway.or default.ipv4Gateway
  let ipv6Cidr := host.ipv6Cidr.or default.ipv6Cidr
  let ipv6Gateway := host.ipv6Gateway.or default.ipv6Gateway
  let (ipv6Address, mask) ← validateIpv6 name host.ipv6Address ipv6Cidr ipv6Gateway
  let address ← ((host.ipv4Address.or ipv6Address).elim
    (.error ["no ipv4_address or ipv6_address provided for hosts." ++ name]) .ok : Result IpAddr)
  ensure (ipv4Gateway.isSome || ipv6Gateway.isSome)
    ("no ipv4_gateway or ipv6_gateway provided for hosts." ++ name)
  let publicSshKeys := host.publicSshKeys ++ default.publicSshKeys
  ensure (!publicSshKeys.isEmpty) ("no public_ssh_keys provided for hosts." ++ name)
  let disks := (host.disks.or default.disks).getD ["/dev/nvme0n1", "/dev/nvme1n1"]
  ensure (!disks.isEmpty) ("no disks specified for hosts." ++ name)
  let telegraf ← telegrafConfig ext name host default
  let promtail := host.promtailClient.or default.promtailClient
  let kmonitorConfig : Option KmonitorConfig :=
    if telegraf.isSome || promtail.isSome then some ⟨telegraf, promtail⟩ else none
  ensureSome host.kldNodeAlias (fun nodeAlias => decide (nodeAlias.utf8ByteSize ≤ 32)) fun _ =>
    "alias should be less then 32 bytes"
  let kldNodeAliasColor := host.kldNodeAliasColor.or default.kldNodeAliasColor
  ensureSome kldNodeAliasColor isColor fun _ => "alias color should be in hex format"
  let isKld := "kld".toList.isPrefixOf host.nixosModule.toList
  let probeTargets := if isKld then default.probeTargets.getD [] ++ host.probeTargets else []
  probeTargets.forM fun target => ensure (ext.isPublicKey target)
    (target ++ " is not a valid public key to be the target of probe")
  pure {
    name
    nixosModule := host.nixosModule
    extraNixosModules := default.extraNixosModules
    macAddress := host.macAddress
    ipv4Address := host.ipv4Address
    ipv4Cidr
    ipv4Gateway
    ipv6Address
    ipv6Cidr := mask.or ipv6Cidr
    ipv6Gateway
    installSshUser := (host.installSshUser.or default.installSshUser).getD "root"
    hostname := host.hostname.getD address.toText
    publicSshKeys
    disks
    bitcoindDisks := host.bitcoindDisks.getD []
    cockroachPeers := []
    kldNodeAlias := host.kldNodeAlias
    kldNodeAliasColor
    kldLogLevel := host.kldLogLevel
    kmonitorConfig
    restApiPort := host.kldRestApiPort
    apiIpAccessList := host.kldApiIpAccessList
    telegrafHasMonitoring := kmonitorConfig.any (·.telegraf.isSome)
    promtailHasClient := kmonitorConfig.any (·.promtail.isSome)
    monitorConfigHash := toString (ext.hash kmonitorConfig).toNat
    networkInterface := host.networkInterface
    kldPresetMnemonic := some presetMnemonic
    upgradeSchedule := host.upgradeSchedule
    probeInterval := if isKld then host.probeInterval.or default.probeInterval else none
    probeAmtMsat := if isKld then host.probeAmtMsat.or default.probeAmtMsat else none
    probeTargets
    shutdownGracefulSec := host.shutdownGracefulSec.or default.shutdownGracefulSec }

end Kld.Config
