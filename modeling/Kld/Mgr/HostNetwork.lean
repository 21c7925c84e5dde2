import Kld.Mgr.Config

/-!
# The network settings of a validated host

The size of an IPv6 subnet is checked if it is a field of the settings and there is an
address. A size that follows the address in its text is not checked, and neither is a
field without an address.
-/

namespace Kld.Config

open Fallible
open Pki (IpAddr)

variable {ext : Externals} {name message : String} {host : HostConfig}
  {default : HostDefaultConfig} {presetMnemonic : Bool} {h : Host}

/-- A name that may be the label of a domain: no capitals, no hyphen in front. -/
structure HostName (name : String) : Prop where
  length : 1 ≤ name.toList.length ∧ name.toList.length ≤ 63
  chars : ∀ c ∈ name.toList, ('a' ≤ c ∧ c ≤ 'z') ∨ ('0' ≤ c ∧ c ≤ '9') ∨ c = '-'
  start : name.toList.head? ≠ some '-'

/-- What precedes the first slash of a text. -/
def addressPart (s : String) : String := .ofList (s.toList.takeWhile (· ≠ '/'))

/-- The number that follows the first slash of a text. -/
def suffixMask (s : String) : Option UInt8 :=
  match s.toList.dropWhile (· ≠ '/') with
  | [] => none
  | _ :: suffix => (Decimal.fromStr UInt8.size (.ofList suffix)).toOption.map .ofNat

structure UsableNetwork (host : HostConfig) (h : Host) : Prop where
  name : HostName h.name
  ipv4Cidr : ∀ cidr, h.ipv4Cidr = some cidr → cidr ≤ 32
  ipv6Cidr : ∀ cidr, h.ipv6Cidr = some cidr → cidr ≤ 128
  ipv4Address : ∀ address, h.ipv4Address = some address → address.isIpv4
  ipv6Address : ∀ address, h.ipv6Address = some address → address.isIpv6
  anyAddress : h.ipv4Address ≠ none ∨ h.ipv6Address ≠ none
  ipv6Complete : h.ipv6Address ≠ none → h.ipv6Cidr ≠ none ∧ h.ipv6Gateway ≠ none
  configured : ∀ s, host.ipv6Address = some s →
    ∃ address, h.ipv6Address = some address ∧ IpAddr.fromStr (addressPart s) = some address

/-- The size of the IPv6 subnet that nothing checks is in range. -/
def UncheckedCidrInRange (host : HostConfig) (default : HostDefaultConfig) : Prop :=
  match host.ipv6Address with
  | some s => ∀ mask, suffixMask s = some mask → mask ≤ 128
  | none => ∀ cidr, host.ipv6Cidr.or default.ipv6Cidr = some cidr → cidr ≤ 128

theorem ok_of_ensure {condition : Bool} (h : ensure condition message = .ok ()) :
    condition = true := by
  unfold ensure at h
  split at h
  · assumption
  · cases h

theorem ok_of_ensureSome {α : Type} {value : Option α} {check : α → Bool} {text : α → String}
    (h : ensureSome value check text = .ok ()) : ∀ a, value = some a → check a := by
  rintro a rfl
  exact ok_of_ensure h

theorem ok_of_context {α : Type} {result : Result α} {a : α}
    (h : context message result = .ok a) : result = .ok a :=
  ok_of_mapError h

theorem normalize_spec {s : String} {address : IpAddr} {mask : Option UInt8}
    (h : normalize s = .ok (address, mask)) :
    IpAddr.fromStr (addressPart s) = some address ∧ mask = suffixMask s := by
  unfold normalize at h
  unfold suffixMask
  cases hSplit : s.toList.dropWhile (· ≠ '/') with
  | nil =>
    have hWhole : addressPart s = s := by
      have hAppend := List.takeWhile_append_dropWhile (p := (· ≠ '/')) (l := s.toList)
      rw [hSplit, List.append_nil] at hAppend
      rw [addressPart, hAppend, String.ofList_toList]
    rw [hSplit] at h
    dsimp only at h
    split at h
    · rename_i hParsed
      cases h
      exact ⟨hWhole.symm ▸ hParsed, rfl⟩
    · cases h
  | cons slash suffix =>
    rw [hSplit] at h
    dsimp only at h ⊢
    split at h
    · rename_i number hNumber
      rw [hNumber]
      split at h
      · rename_i hParsed
        cases h
        exact ⟨hParsed, rfl⟩
      · cases h
    · cases h

theorem hostName_of_regex (h : hostnameRegex name = true) : HostName name := by
  have hAlphanum : ∀ c, isLowerAlphanum c = true →
      ('a' ≤ c ∧ c ≤ 'z') ∨ ('0' ≤ c ∧ c ≤ '9') := by
    intro c hc
    have hClass : (decide ('a' ≤ c) && decide (c ≤ 'z') || decide ('0' ≤ c) && decide (c ≤ '9')) =
        true := hc
    simpa only [Bool.or_eq_true, Bool.and_eq_true, decide_eq_true_eq] using hClass
  unfold hostnameRegex at h
  split at h
  · cases h
  · rename_i c cs hChars
    simp only [Bool.and_eq_true, decide_eq_true_eq, List.all_eq_true, Bool.or_eq_true,
      beq_iff_eq] at h
    obtain ⟨⟨hFirst, hLength⟩, hRest⟩ := h
    refine ⟨?_, ?_, ?_⟩
    · rw [hChars, List.length_cons]
      omega
    · rw [hChars]
      intro d hMem
      rcases List.mem_cons.mp hMem with rfl | hMem
      · exact (hAlphanum d hFirst).imp_right Or.inl
      · rcases hRest d hMem with hd | hd
        · exact (hAlphanum d hd).imp_right Or.inl
        · exact Or.inr (Or.inr hd)
    · rw [hChars, List.head?_cons]
      rintro hHyphen
      obtain rfl := Option.some.inj hHyphen
      exact absurd hFirst (by decide)

/-- What `validateIpv6` makes of a text that is set. -/
structure ValidIpv6 (s : String) (ipv6Cidr : Option UInt8) (ipv6Gateway : Option IpAddr)
    (address : IpAddr) (mask : Option UInt8) : Prop where
  parsed : IpAddr.fromStr (addressPart s) = some address
  mask_eq : mask = suffixMask s
  isIpv6 : address.isIpv6
  cidr : (∃ cidr, ipv6Cidr = some cidr ∧ cidr < 129) ∨ ipv6Cidr = none ∧ mask ≠ none
  gateway : ipv6Gateway ≠ none

theorem validateIpv6_spec {text : Option String} {ipv6Cidr mask : Option UInt8}
    {ipv6Gateway ipv6Address : Option IpAddr}
    (h : validateIpv6 name text ipv6Cidr ipv6Gateway = .ok (ipv6Address, mask)) :
    (text = none ∧ ipv6Address = none ∧ mask = none) ∨
      ∃ s address, text = some s ∧ ipv6Address = some address ∧
        ValidIpv6 s ipv6Cidr ipv6Gateway address mask := by
  cases text with
  | none =>
    cases h
    exact Or.inl ⟨rfl, rfl, rfl⟩
  | some s =>
    obtain ⟨⟨address, subnet⟩, hNormal, h⟩ := ok_of_bind h
    obtain ⟨_, hIpv6, h⟩ := ok_of_bind h
    obtain ⟨_, hCidr, h⟩ := ok_of_bind h
    obtain ⟨_, hGateway, h⟩ := ok_of_bind h
    cases h
    obtain ⟨hParsed, hMask⟩ := normalize_spec (ok_of_context hNormal)
    refine Or.inr ⟨s, address, rfl, rfl, hParsed, hMask, ok_of_ensure hIpv6, ?_,
      Option.isSome_iff_ne_none.mp (ok_of_ensure hGateway)⟩
    cases ipv6Cidr with
    | none => exact Or.inr ⟨rfl, Option.isSome_iff_ne_none.mp (ok_of_ensure hCidr)⟩
    | some cidr => exact Or.inl ⟨cidr, rfl, of_decide_eq_true (ok_of_ensure hCidr)⟩

/-- What is known of the network settings of a validated host. -/
structure ValidNetwork (host : HostConfig) (default : HostDefaultConfig) (h : Host) : Prop where
  name : hostnameRegex h.name = true
  ipv4Address : ∀ address, h.ipv4Address = some address → address.isIpv4
  ipv4Cidr : ∀ cidr, h.ipv4Cidr = some cidr → cidr < 33
  anyAddress : h.ipv4Address.or h.ipv6Address ≠ none
  ipv6 : (host.ipv6Address = none ∧ h.ipv6Address = none ∧
      h.ipv6Cidr = host.ipv6Cidr.or default.ipv6Cidr) ∨
    ∃ s address, host.ipv6Address = some s ∧ h.ipv6Address = some address ∧
      h.ipv6Cidr = (suffixMask s).or (host.ipv6Cidr.or default.ipv6Cidr) ∧
      ValidIpv6 s (host.ipv6Cidr.or default.ipv6Cidr) h.ipv6Gateway address (suffixMask s)

theorem validateHost_spec (hOk : validateHost ext name host default presetMnemonic = .ok h) :
    h.name = name ∧ ValidNetwork host default h := by
  unfold validateHost at hOk
  obtain ⟨_, -, hOk⟩ := ok_of_bind hOk
  obtain ⟨_, -, hOk⟩ := ok_of_bind hOk
  obtain ⟨_, hName, hOk⟩ := ok_of_bind hOk
  obtain ⟨_, -, hOk⟩ := ok_of_bind hOk
  obtain ⟨_, hIpv4, hOk⟩ := ok_of_bind hOk
  obtain ⟨_, hIpv4Cidr, hOk⟩ := ok_of_bind hOk
  obtain ⟨⟨ipv6Address, mask⟩, hIpv6, hOk⟩ := ok_of_bind hOk
  obtain ⟨address, hAddress, hOk⟩ := ok_of_bind hOk
  obtain ⟨_, -, hOk⟩ := ok_of_bind hOk
  obtain ⟨_, -, hOk⟩ := ok_of_bind hOk
  obtain ⟨_, -, hOk⟩ := ok_of_bind hOk
  obtain ⟨telegraf, -, hOk⟩ := ok_of_bind hOk
  obtain ⟨_, -, hOk⟩ := ok_of_bind hOk
  obtain ⟨_, -, hOk⟩ := ok_of_bind hOk
  obtain ⟨_, -, hOk⟩ := ok_of_bind hOk
  cases hOk
  refine ⟨rfl, ok_of_ensure hName, ok_of_ensureSome hIpv4,
    fun cidr hCidr => of_decide_eq_true (ok_of_ensureSome hIpv4Cidr cidr hCidr), ?_, ?_⟩
  · intro hNone
    dsimp only at hNone
    rw [hNone] at hAddress
    cases hAddress
  · rcases validateIpv6_spec hIpv6 with ⟨hText, rfl, rfl⟩ | ⟨s, a, hText, rfl, hValid⟩
    · exact Or.inl ⟨hText, rfl, rfl⟩
    · obtain rfl := hValid.mask_eq
      exact Or.inr ⟨s, a, hText, rfl, rfl, hValid⟩

theorem le_of_lt_succ_toNat {a b c : UInt8} (hc : c.toNat = b.toNat + 1) (h : a < c) : a ≤ b := by
  rw [UInt8.lt_iff_toNat_lt, hc] at h
  exact UInt8.le_iff_toNat_le.mpr (Nat.le_of_lt_succ h)

/-- All but the size of the IPv6 subnet is right in any case. -/
theorem ValidNetwork.usable_iff (hValid : ValidNetwork host default h) :
    UsableNetwork host h ↔ ∀ cidr, h.ipv6Cidr = some cidr → cidr ≤ 128 := by
  refine ⟨UsableNetwork.ipv6Cidr, fun hCidr => ?_⟩
  refine ⟨hostName_of_regex hValid.name,
    fun cidr h4 => le_of_lt_succ_toNat rfl (hValid.ipv4Cidr cidr h4), hCidr, hValid.ipv4Address,
    ?_, ?_, ?_, ?_⟩
  · rcases hValid.ipv6 with ⟨_, hNone, _⟩ | ⟨s, a, _, hSome, _, hIpv6⟩
    · intro address hAddress
      cases hNone.symm.trans hAddress
    · intro address hAddress
      obtain rfl := Option.some.inj (hSome.symm.trans hAddress)
      exact hIpv6.isIpv6
  · by_contra hNeither
    rw [not_or, not_not, not_not] at hNeither
    refine hValid.anyAddress ?_
    rw [hNeither.1, hNeither.2]
    rfl
  · rcases hValid.ipv6 with ⟨_, hNone, _⟩ | ⟨s, a, _, _, hEq, hIpv6⟩
    · exact fun hSome => absurd hNone hSome
    · refine fun _ => ⟨?_, hIpv6.gateway⟩
      rw [hEq]
      rcases hIpv6.cidr with ⟨cidr, hField, _⟩ | ⟨_, hMask⟩
      · cases suffixMask s <;> simp [hField]
      · cases hSuffix : suffixMask s with
        | none => exact absurd hSuffix hMask
        | some mask => exact Option.some_ne_none _
  · rcases hValid.ipv6 with ⟨hUnset, _, _⟩ | ⟨s, a, hSet, hSome, _, hIpv6⟩
    · intro s hSet
      cases hUnset.symm.trans hSet
    · intro s' hSet'
      obtain rfl := Option.some.inj (hSet.symm.trans hSet')
      exact ⟨a, hSome, hIpv6.parsed⟩

theorem ValidNetwork.cidr_le_iff (hValid : ValidNetwork host default h) :
    (∀ cidr, h.ipv6Cidr = some cidr → cidr ≤ 128) ↔ UncheckedCidrInRange host default := by
  unfold UncheckedCidrInRange
  rcases hValid.ipv6 with ⟨hUnset, _, hEq⟩ | ⟨s, a, hSet, _, hEq, hIpv6⟩
  · rw [hUnset, hEq]
  · rw [hSet, hEq]
    dsimp only
    cases hSuffix : suffixMask s with
    | some mask => rfl
    | none =>
      -- without a suffix it is the field that counts, and it was checked
      refine iff_of_true (fun cidr hCidr => ?_) (fun mask hMask => by cases hMask)
      rcases hIpv6.cidr with ⟨cidr', hField, hLt⟩ | ⟨_, hMask⟩
      · obtain rfl := Option.some.inj (hField.symm.trans hCidr)
        exact le_of_lt_succ_toNat rfl hLt
      · exact absurd hSuffix hMask

theorem usableNetwork_iff (hOk : validateHost ext name host default presetMnemonic = .ok h) :
    UsableNetwork host h ↔ UncheckedCidrInRange host default :=
  (validateHost_spec hOk).2.usable_iff.trans (validateHost_spec hOk).2.cidr_le_iff

/-- No files, no answers, and any text is a public key. -/
def noExternals : Externals :=
  ⟨fun _ => none, fun _ => none, fun _ _ => none, fun _ => 0, fun _ => true⟩

def hostAt (ipv6Address : String) : HostConfig :=
  { ipv6Address := some ipv6Address, ipv6Gateway := some (.v6 1), publicSshKeys := ["ssh-ed25519"] }

theorem subnet_of_64_usable :
    ∃ h, validateHost noExternals "kld-00" (hostAt "2607:5300:203:5cdf::/64") {} false = .ok h ∧
      UsableNetwork (hostAt "2607:5300:203:5cdf::/64") h := by
  obtain ⟨h, hOk⟩ : ∃ h, validateHost noExternals "kld-00" (hostAt "2607:5300:203:5cdf::/64") {}
      false = .ok h := ⟨_, rfl⟩
  refine ⟨h, hOk, (usableNetwork_iff hOk).mpr ?_⟩
  intro mask hMask
  obtain rfl : 64 = mask := Option.some.inj hMask
  decide

theorem subnet_of_200_accepted :
    ∃ h, validateHost noExternals "kld-00" (hostAt "2607:5300:203:5cdf::/200") {} false = .ok h ∧
      ¬ UsableNetwork (hostAt "2607:5300:203:5cdf::/200") h := by
  refine ⟨_, rfl, fun hUsable => ?_⟩
  exact absurd (hUsable.ipv6Cidr 200 rfl) (by decide)

end Kld.Config
