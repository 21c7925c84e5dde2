import Kld.Ldk.ListPeers
import Kld.Lib.Decimal
import Kld.Lib.Utf8
import Kld.Mgr.IpAddrTexts

/-!
# The text form of socket addresses

The texts of IPv4 and IPv6 addresses are those of the standard library. Onion names
and host names are printed as values of their types are for debugging.
-/

namespace Kld.SktAddr

open Pki (IpAddr)
open Pki.IpAddr
open PeerManager (SocketAddress)

section Std

structure SocketAddrV4 where
  ip : BitVec 32
  port : UInt16
deriving DecidableEq

structure SocketAddrV6 where
  ip : BitVec 128
  port : UInt16
  flowinfo : UInt32
  scopeId : UInt32
deriving DecidableEq

inductive SocketAddr where
  | v4 (addr : SocketAddrV4)
  | v6 (addr : SocketAddrV6)
deriving DecidableEq

def readGivenChar (c : Char) : Reader Unit := fun cs =>
  if cs.head? = some c then some ((), cs.tail) else none

/-- A number of any length that is below `bound`. -/
def readUnbounded (bound : Nat) : Reader Nat := fun cs => readNumber 10 cs.length bound true cs

def readPort : Reader UInt16 := fun cs => do
  let (_, cs) ← readGivenChar ':' cs
  let (port, cs) ← readUnbounded UInt16.size cs
  pure (.ofNat port, cs)

def readScopeId : Reader UInt32 := fun cs => do
  let (_, cs) ← readGivenChar '%' cs
  let (scopeId, cs) ← readUnbounded UInt32.size cs
  pure (.ofNat scopeId, cs)

def readSocketAddrV4 : Reader SocketAddrV4 := fun cs => do
  let ((high, low), cs) ← readIpv4Addr cs
  let (port, cs) ← readPort cs
  pure (⟨.ofNat 32 (65536 * high + low), port⟩, cs)

def readSocketAddrV6 : Reader SocketAddrV6 := fun cs => do
  let (_, cs) ← readGivenChar '[' cs
  let (ip, cs) ← readIpv6Addr cs
  let (scopeId, cs) := (readScopeId cs).getD (0, cs)
  let (_, cs) ← readGivenChar ']' cs
  let (port, cs) ← readPort cs
  pure (⟨ip, port, 0, scopeId⟩, cs)

def readSocketAddr : Reader SocketAddr := fun cs =>
  match readSocketAddrV4 cs with
  | some (addr, cs) => some (.v4 addr, cs)
  | none => (readSocketAddrV6 cs).map fun (addr, cs) => (.v6 addr, cs)

def SocketAddr.fromStr (s : String) : Option SocketAddr := do
  let (addr, rest) ← readSocketAddr s.toList
  if rest = [] then some addr else none

/-- The bits of an address from its octets. -/
def ofOctets (width : Nat) {n : Nat} (octets : Vector UInt8 n) : BitVec width :=
  .ofNat width (fromDigits 256 (octets.toList.map UInt8.toNat))

def toOctets (n : Nat) {width : Nat} (ip : BitVec width) : Vector UInt8 n :=
  ⟨((digitsOf 256 n ip.toNat).map UInt8.ofNat).toArray, by simp⟩

end Std

/-- The parts of LDK and of the standard library that the conversions of the wrapper use. -/
structure Ldk where
  fromStr : String → Option Peers.SocketAddress
  ofSocketAddr : SocketAddr → Peers.SocketAddress
  debugHostname : Bytes → String

def debugBytes (bytes : List UInt8) : String :=
  "[" ++ ", ".intercalate (bytes.map fun b => toString b.toNat) ++ "]"

section Conversions

variable (ldk : Ldk)

def SocketAddress.isIpv4 (address : SocketAddress) : Bool :=
  match address.inner with
  | .tcpIpV4 _ _ => true
  | _ => false

def SocketAddress.isIpv6 (address : SocketAddress) : Bool :=
  match address.inner with
  | .tcpIpV6 _ _ => true
  | _ => false

def SocketAddress.fmt (address : SocketAddress) : String :=
  match address.inner with
  | .tcpIpV4 addr port => toText (.v4 (ofOctets 32 addr)) ++ ":" ++ toString port.toNat
  | .tcpIpV6 addr port => "[" ++ toText (.v6 (ofOctets 128 addr)) ++ "]:" ++ toString port.toNat
  | .onionV2 bytes => debugBytes bytes.toList ++ ".onion"
  | .onionV3 ed25519Pubkey _ _ port =>
    debugBytes ed25519Pubkey.toList ++ ".onion:" ++ toString port.toNat
  | .hostname hostname port => ldk.debugHostname hostname ++ ":" ++ toString port.toNat

def SocketAddress.fromStr (s : String) : Except String SocketAddress :=
  match ldk.fromStr s with
  | some addr => .ok ⟨addr⟩
  | none => .error (s ++ " is not a valid socket address")

def SocketAddress.ofSocketAddr (addr : SocketAddr) : SocketAddress := ⟨ldk.ofSocketAddr addr⟩

def SocketAddr.tryFrom (address : SocketAddress) : Except String SocketAddr :=
  match address.inner with
  | .tcpIpV4 addr port => .ok (.v4 ⟨ofOctets 32 addr, port⟩)
  | .tcpIpV6 addr port => .ok (.v6 ⟨ofOctets 128 addr, port, 0, 0⟩)
  | _ => .error "unsupported address type"

end Conversions

/-! ## Reading back -/

section Reading

theorem octets_lt {n : Nat} (octets : Vector UInt8 n) :
    ∀ digit ∈ octets.toList.map UInt8.toNat, digit < 256 := by
  intro digit hMem
  obtain ⟨octet, _, rfl⟩ := List.mem_map.mp hMem
  exact octet.toNat_lt

theorem toOctets_ofOctets {width n : Nat} (hWidth : 256 ^ n ≤ 2 ^ width) (octets : Vector UInt8 n) :
    toOctets n (ofOctets width octets) = octets := by
  have hLength : (octets.toList.map UInt8.toNat).length = n := by
    rw [List.length_map, Vector.length_toList]
  have hLt := fromDigits_lt (octets_lt octets) (by decide)
  rw [hLength] at hLt
  have hValue : (ofOctets width octets).toNat = fromDigits 256 (octets.toList.map UInt8.toNat) :=
    Nat.mod_eq_of_lt (Nat.lt_of_lt_of_le hLt hWidth)
  have hDigits := digitsOf_fromDigits (octets_lt octets)
  rw [hLength] at hDigits
  apply Vector.toArray_inj.mp
  apply Array.toList_inj.mp
  change (digitsOf 256 n (ofOctets width octets).toNat).map UInt8.ofNat = octets.toList
  rw [hValue, hDigits, List.map_map]
  have hSame : UInt8.ofNat ∘ UInt8.toNat = id := funext fun octet => UInt8.ofNat_toNat
  rw [hSame, List.map_id]

theorem readGivenChar_cons (c : Char) (cs : List Char) :
    readGivenChar c (c :: cs) = some ((), cs) :=
  if_pos rfl

theorem readPort_toString (port : UInt16) :
    readPort (':' :: (toString port.toNat).toList) = some (port, []) := by
  have hChars : (toString port.toNat).toList = Nat.toDigits 10 port.toNat := Nat.toList_repr
  have hEnd : NoDigit 10 [] := by rintro c ⟨⟩
  have hNumber := readNumber_toDigits (by decide) (by decide)
    (Nat.le_refl (Nat.toDigits 10 port.toNat).length) port.toNat_lt_size true hEnd
  rw [List.append_nil] at hNumber
  rw [readPort, readGivenChar_cons, hChars]
  simp only [Option.bind_eq_bind, Option.bind_some]
  rw [readUnbounded, hNumber]
  simp

theorem readSocketAddrV4_text (ip : BitVec 32) (port : UInt16) :
    readSocketAddrV4 ((toText (.v4 ip)).toList ++ ':' :: (toString port.toNat).toList) =
      some (⟨ip, port⟩, []) := by
  have hStop : NoDigit 10 (':' :: (toString port.toNat).toList) := by
    rintro c ⟨⟩
    rfl
  have hIp : BitVec.ofNat 32 (65536 * (ip.toNat / 65536 % 65536) + ip.toNat % 65536) = ip := by
    apply BitVec.eq_of_toNat_eq
    rw [BitVec.toNat_ofNat]
    omega
  rw [readSocketAddrV4, toText, readIpv4Addr_toText _ hStop]
  simp only [Option.bind_eq_bind, Option.bind_some]
  rw [readPort_toString, hIp]
  rfl

theorem readSocketAddrV6_text (ip : BitVec 128) (port : UInt16) :
    readSocketAddrV6 ('[' :: ((toText (.v6 ip)).toList ++ ']' :: ':' ::
      (toString port.toNat).toList)) = some (⟨ip, port, 0, 0⟩, []) := by
  have hNoDigit : NoDigit 16 (']' :: ':' :: (toString port.toNat).toList) := by
    rintro c ⟨⟩
    rfl
  have hStops : Stops (']' :: ':' :: (toString port.toNat).toList) :=
    ⟨hNoDigit, by simp, by simp⟩
  have hScope : readScopeId (']' :: ':' :: (toString port.toNat).toList) = none := rfl
  rw [readSocketAddrV6, readGivenChar_cons]
  simp only [Option.bind_eq_bind, Option.bind_some]
  rw [readIpv6Addr_toText ip hStops]
  simp only [Option.bind_some, hScope, Option.getD_none]
  rw [readGivenChar_cons, Option.bind_some, readPort_toString]
  rfl

theorem readSocketAddrV4_bracket (cs : List Char) : readSocketAddrV4 ('[' :: cs) = none := by
  have hNoDigit : NoDigit 10 ('[' :: cs) := by
    rintro c ⟨⟩
    rfl
  rw [readSocketAddrV4, readIpv4Addr_noDigit hNoDigit]
  rfl

end Reading

/-! ## Round trips -/

section RoundTrips

def isBase32 (c : Char) : Bool := c.isAlpha || ('2' ≤ c && c ≤ '7')

def base32Char (digit : Nat) : Char :=
  if digit < 26 then .ofNat ('a'.toNat + digit) else .ofNat ('2'.toNat + digit - 26)

def base32 (bytes : List UInt8) : String :=
  String.ofList ((digitsOf 32 (8 * bytes.length / 5) (fromDigits 256 (bytes.map UInt8.toNat))).map
    base32Char)

/-- The name of ten bytes in any case, alone or with the port in the last two. -/
def IsOnionV2Name (bytes : Vector UInt8 12) (text : String) : Prop :=
  let name := base32 (bytes.toList.take 10) ++ ".onion"
  let port := fromDigits 256 ((bytes.toList.drop 10).map UInt8.toNat)
  text.toList.map Char.toLower = name.toList ∨
    text.toList.map Char.toLower = (name ++ ":" ++ toString port).toList

/-- What is known about LDK and the standard library. -/
structure Ldk.Documented (ldk : Ldk) : Prop where
  ofV4 : ∀ addr, ldk.ofSocketAddr (.v4 addr) = .tcpIpV4 (toOctets 4 addr.ip) addr.port
  ofV6 : ∀ addr, ldk.ofSocketAddr (.v6 addr) = .tcpIpV6 (toOctets 16 addr.ip) addr.port
  readsSocketAddr : ∀ s addr, SocketAddr.fromStr s = some addr →
    ldk.fromStr s = some (ldk.ofSocketAddr addr)
  readsOnionV3 : ∀ s key checksum version port,
    ldk.fromStr s = some (.onionV3 key checksum version port) →
      ∃ name digits, s.toList = name ++ ".onion:".toList ++ digits ∧ ∀ c ∈ name, isBase32 c
  readsHostname : ∀ s hostname port, ldk.fromStr s = some (.hostname hostname port) →
    ∃ host digits, s.toList = host ++ ':' :: digits ∧
      ∀ c ∈ host, c.isAlphanum ∨ c ∈ ['-', '.', '_']
  debugHostname : ∀ hostname, ∃ quoted, ldk.debugHostname hostname = "Hostname(" ++ quoted ++ ")"

variable (ldk : Ldk)

def TextRoundTrips (address : SocketAddress) : Prop :=
  match address.inner with
  | .onionV2 bytes => IsOnionV2Name bytes (SocketAddress.fmt ldk address)
  | _ => SocketAddress.fromStr ldk (SocketAddress.fmt ldk address) = .ok address

def SocketAddrRoundTrips (address : SocketAddress) : Prop :=
  SocketAddress.isIpv4 address ∨ SocketAddress.isIpv6 address →
    (SocketAddr.tryFrom address).map (SocketAddress.ofSocketAddr ldk) = .ok address

variable {ldk}

theorem head_debugBytes (bytes : List UInt8) : (debugBytes bytes).toList.head? = some '[' := by
  simp [debugBytes]

theorem base32_ne_bracket {bytes : List UInt8} {c : Char}
    (hMem : c ∈ (base32 bytes).toList) : c ≠ '[' := by
  have hAll : ∀ digit : Fin 32, base32Char digit ≠ '[' := by decide
  rw [base32, String.toList_ofList] at hMem
  obtain ⟨digit, hDigit, rfl⟩ := List.mem_map.mp hMem
  exact hAll ⟨digit, lt_of_mem_digitsOf (by decide) hDigit⟩

theorem inner_of_fromStr {s : String} {address : SocketAddress}
    (hOk : SocketAddress.fromStr ldk s = .ok address) : ldk.fromStr s = some address.inner := by
  unfold SocketAddress.fromStr at hOk
  split at hOk
  · rename_i hSome
    cases hOk
    exact hSome
  · cases hOk

theorem not_textRoundTrips_onionV2 (bytes : Vector UInt8 12) :
    ¬ TextRoundTrips ldk ⟨.onionV2 bytes⟩ := by
  have hText : ((SocketAddress.fmt ldk ⟨.onionV2 bytes⟩).toList.map Char.toLower).head? =
      some '[' := by
    rw [List.head?_map, SocketAddress.fmt, String.toList_append,
      List.head?_append_of_ne_nil _ (by simp [debugBytes]), head_debugBytes]
    rfl
  have hName : ∀ suffix : List Char,
      ((base32 (bytes.toList.take 10)).toList ++ suffix).head? ≠ some '[' := by
    intro suffix hHead
    rw [List.head?_append_of_ne_nil _ (by simp [base32, ← List.length_pos_iff])] at hHead
    exact base32_ne_bracket (List.mem_of_mem_head? hHead) rfl
  rintro (hSame | hSame)
  · rw [hSame, String.toList_append] at hText
    exact hName _ hText
  · rw [hSame, String.toList_append, String.toList_append, String.toList_append,
      List.append_assoc, List.append_assoc] at hText
    exact hName _ hText

theorem mem_of_before_colon {xs ys before zs : List Char} {c : Char} (hc : c ≠ ':')
    (hBefore : ':' ∉ before) (hSame : before ++ c :: zs = xs ++ ':' :: ys) : c ∈ xs := by
  rcases List.append_eq_append_iff.mp hSame with ⟨between, rfl, hRest⟩ | ⟨between, rfl, hRest⟩
  · cases between with
    | nil => exact absurd (List.cons.inj hRest).1 hc
    | cons d between =>
      rw [(List.cons.inj hRest).1]
      simp
  · cases between with
    | nil => exact absurd (List.cons.inj hRest).1.symm hc
    | cons d between =>
      rw [(List.cons.inj hRest).1] at hBefore
      simp at hBefore

theorem fromStr_fmt_tcpIpV4 (h : ldk.Documented) (addr : Vector UInt8 4) (port : UInt16) :
    SocketAddress.fromStr ldk (SocketAddress.fmt ldk ⟨.tcpIpV4 addr port⟩) =
      .ok ⟨.tcpIpV4 addr port⟩ := by
  have hText : (SocketAddress.fmt ldk ⟨.tcpIpV4 addr port⟩).toList =
      (toText (.v4 (ofOctets 32 addr))).toList ++ ':' :: (toString port.toNat).toList := by
    simp [SocketAddress.fmt]
  have hRead : SocketAddr.fromStr (SocketAddress.fmt ldk ⟨.tcpIpV4 addr port⟩) =
      some (.v4 ⟨ofOctets 32 addr, port⟩) := by
    rw [SocketAddr.fromStr, hText, readSocketAddr, readSocketAddrV4_text]
    rfl
  rw [SocketAddress.fromStr, h.readsSocketAddr _ _ hRead, h.ofV4]
  dsimp only
  rw [toOctets_ofOctets (by decide)]

theorem fromStr_fmt_tcpIpV6 (h : ldk.Documented) (addr : Vector UInt8 16) (port : UInt16) :
    SocketAddress.fromStr ldk (SocketAddress.fmt ldk ⟨.tcpIpV6 addr port⟩) =
      .ok ⟨.tcpIpV6 addr port⟩ := by
  have hText : (SocketAddress.fmt ldk ⟨.tcpIpV6 addr port⟩).toList =
      '[' :: ((toText (.v6 (ofOctets 128 addr))).toList ++ ']' :: ':' ::
        (toString port.toNat).toList) := by
    simp [SocketAddress.fmt]
  have hRead : SocketAddr.fromStr (SocketAddress.fmt ldk ⟨.tcpIpV6 addr port⟩) =
      some (.v6 ⟨ofOctets 128 addr, port, 0, 0⟩) := by
    rw [SocketAddr.fromStr, hText, readSocketAddr, readSocketAddrV4_bracket,
      readSocketAddrV6_text]
    rfl
  rw [SocketAddress.fromStr, h.readsSocketAddr _ _ hRead, h.ofV6]
  dsimp only
  rw [toOctets_ofOctets (by decide)]

theorem socketAddrRoundTrips (h : ldk.Documented) (address : SocketAddress) :
    SocketAddrRoundTrips ldk address := by
  obtain ⟨inner⟩ := address
  intro hIp
  cases inner with
  | tcpIpV4 addr port =>
    have hOctets : toOctets 4 (ofOctets 32 addr) = addr := toOctets_ofOctets (by decide) addr
    simp [SocketAddr.tryFrom, SocketAddress.ofSocketAddr, Except.map, h.ofV4, hOctets]
  | tcpIpV6 addr port =>
    have hOctets : toOctets 16 (ofOctets 128 addr) = addr := toOctets_ofOctets (by decide) addr
    simp [SocketAddr.tryFrom, SocketAddress.ofSocketAddr, Except.map, h.ofV6, hOctets]
  | onionV2 | onionV3 | hostname => simp [SocketAddress.isIpv4, SocketAddress.isIpv6] at hIp

theorem fromStr_fmt_onionV3 (h : ldk.Documented) (key : Vector UInt8 32) (checksum : UInt16)
    (version : UInt8) (port : UInt16) : SocketAddress.fromStr ldk
      (SocketAddress.fmt ldk ⟨.onionV3 key checksum version port⟩) ≠
        .ok ⟨.onionV3 key checksum version port⟩ := by
  intro hOk
  obtain ⟨name, digits, hText, hName⟩ := h.readsOnionV3 _ _ _ _ _ (inner_of_fromStr hOk)
  have hHead : (SocketAddress.fmt ldk ⟨.onionV3 key checksum version port⟩).toList.head? =
      some '[' := by
    rw [SocketAddress.fmt, String.toList_append, String.toList_append, List.append_assoc,
      List.head?_append_of_ne_nil _ (by simp [debugBytes]), head_debugBytes]
  rw [hText] at hHead
  cases name with
  | nil => exact absurd hHead (by simp)
  | cons c name =>
    obtain rfl : c = '[' := Option.some.inj hHead
    exact absurd (hName '[' List.mem_cons_self) (by decide)

theorem fromStr_fmt_hostname (h : ldk.Documented) (hostname : Bytes) (port : UInt16) :
    SocketAddress.fromStr ldk (SocketAddress.fmt ldk ⟨.hostname hostname port⟩) ≠
      .ok ⟨.hostname hostname port⟩ := by
  intro hOk
  obtain ⟨host, digits, hText, hHost⟩ := h.readsHostname _ _ _ (inner_of_fromStr hOk)
  obtain ⟨quoted, hQuoted⟩ := h.debugHostname hostname
  have hSame : "Hostname".toList ++ '(' :: (quoted.toList ++ ')' :: ':' ::
      (toString port.toNat).toList) = host ++ ':' :: digits := by
    rw [← hText, SocketAddress.fmt]
    simp [hQuoted]
  have hMem := mem_of_before_colon (by decide) (by decide) hSame
  exact absurd (hHost '(' hMem) (by decide)

/-- Only the addresses of the standard library are read back from their texts. -/
theorem socketAddress_roundTrips_iff (h : ldk.Documented) (address : SocketAddress) :
    TextRoundTrips ldk address ∧ SocketAddrRoundTrips ldk address ↔
      SocketAddress.isIpv4 address ∨ SocketAddress.isIpv6 address := by
  obtain ⟨inner⟩ := address
  have hConverted := socketAddrRoundTrips h ⟨inner⟩
  cases inner with
  | tcpIpV4 addr port =>
    exact iff_of_true ⟨fromStr_fmt_tcpIpV4 h addr port, hConverted⟩ (Or.inl rfl)
  | tcpIpV6 addr port =>
    exact iff_of_true ⟨fromStr_fmt_tcpIpV6 h addr port, hConverted⟩ (Or.inr rfl)
  | onionV2 bytes =>
    exact iff_of_false (fun hBoth => not_textRoundTrips_onionV2 bytes hBoth.1)
      (by simp [SocketAddress.isIpv4, SocketAddress.isIpv6])
  | onionV3 key checksum version port =>
    exact iff_of_false (fun hBoth => fromStr_fmt_onionV3 h key checksum version port hBoth.1)
      (by simp [SocketAddress.isIpv4, SocketAddress.isIpv6])
  | hostname hostname port =>
    exact iff_of_false (fun hBoth => fromStr_fmt_hostname h hostname port hBoth.1)
      (by simp [SocketAddress.isIpv4, SocketAddress.isIpv6])

end RoundTrips


/-! ## An implementation without onion names -/

section Sample

/-- What is before the last colon, and what is after it. -/
def rsplitColon : List Char → Option (List Char × List Char)
  | [] => none
  | c :: cs =>
    match rsplitColon cs with
    | some (host, port) => some (c :: host, port)
    | none => if c = ':' then some ([], cs) else none

theorem append_of_rsplitColon {cs host port : List Char} (h : rsplitColon cs = some (host, port)) :
    cs = host ++ ':' :: port := by
  induction cs generalizing host with
  | nil => cases h
  | cons c cs ih =>
    rw [rsplitColon] at h
    split at h
    · rename_i hRest
      cases h
      rw [ih hRest, List.cons_append]
    · split at h
      · rename_i hColon
        cases h
        rw [hColon, List.nil_append]
      · cases h

def hostnameFromStr (s : String) : Option Peers.SocketAddress := do
  let (host, digits) ← rsplitColon s.toList
  let port ← (Decimal.readChars UInt16.size digits).toOption
  if (host.all fun c => c.isAlphanum || c ∈ ['-', '.', '_']) ∧ host.length ≤ 255 ∧
      ¬ ".onion".toList <:+ host then
    some (.hostname (Utf8.encode (String.ofList host)) (.ofNat port))
  else none

def sample : Ldk where
  fromStr s :=
    match SocketAddr.fromStr s with
    | some (.v4 addr) => some (.tcpIpV4 (toOctets 4 addr.ip) addr.port)
    | some (.v6 addr) => some (.tcpIpV6 (toOctets 16 addr.ip) addr.port)
    | none => hostnameFromStr s
  ofSocketAddr
    | .v4 addr => .tcpIpV4 (toOctets 4 addr.ip) addr.port
    | .v6 addr => .tcpIpV6 (toOctets 16 addr.ip) addr.port
  debugHostname hostname :=
    "Hostname(" ++ ("\"" ++ (Utf8.decode hostname).getD "" ++ "\"") ++ ")"

theorem documented_sample : sample.Documented where
  ofV4 _ := rfl
  ofV6 _ := rfl
  readsSocketAddr s addr hAddr := by
    simp only [sample, hAddr]
    cases addr <;> rfl
  readsOnionV3 s key checksum version port hSome := by
    simp only [sample] at hSome
    split at hSome
    · cases hSome
    · cases hSome
    · obtain ⟨_, _, hPort⟩ := Option.bind_eq_some_iff.mp hSome
      obtain ⟨_, _, hHost⟩ := Option.bind_eq_some_iff.mp hPort
      split at hHost <;> cases hHost
  readsHostname s hostname port hSome := by
    simp only [sample] at hSome
    split at hSome
    · cases hSome
    · cases hSome
    · obtain ⟨⟨host, digits⟩, hSplit, hPort⟩ := Option.bind_eq_some_iff.mp hSome
      obtain ⟨_, _, hHost⟩ := Option.bind_eq_some_iff.mp hPort
      split at hHost
      · rename_i hLegal
        exact ⟨host, digits, append_of_rsplitColon hSplit, by simpa using hLegal.1⟩
      · cases hHost
  debugHostname _ := ⟨_, rfl⟩

theorem localhost_roundTrips :
    sample.Documented ∧ (TextRoundTrips sample ⟨.tcpIpV4 #v[127, 0, 0, 1] 80⟩ ∧
      SocketAddrRoundTrips sample ⟨.tcpIpV4 #v[127, 0, 0, 1] 80⟩) :=
  ⟨documented_sample, (socketAddress_roundTrips_iff documented_sample _).mpr (Or.inl rfl)⟩

/-- The text of a host name is that of its value. -/
theorem example_com_not_read :
    let address : SocketAddress :=
      ⟨.hostname [101, 120, 97, 109, 112, 108, 101, 46, 99, 111, 109] 9735⟩
    SocketAddress.fmt sample address = "Hostname(\"example.com\"):9735" ∧
      (SocketAddress.fromStr sample "example.com:9735").toOption = some address ∧
      ¬ (TextRoundTrips sample address ∧ SocketAddrRoundTrips sample address) := by
  refine ⟨by decide, by decide, fun hBoth => ?_⟩
  exact fromStr_fmt_hostname documented_sample _ _ hBoth.1

end Sample

end Kld.SktAddr
