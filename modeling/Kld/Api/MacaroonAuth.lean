import Kld.Api.Channels
import Kld.Lib.Utf8

/-!
# Macaroons

A signature is the term that was hashed, so it is intact exactly if it is the one
that the key gives. Whoever holds a macaroon can append caveats to it. A role is
granted if every caveat lists it.
-/

namespace Kld.Api

open Utf8

inductive Caveat where
  | firstParty (predicate : Bytes)
  | thirdParty (identifier : Bytes) (verificationId : Bytes) (location : String)
deriving DecidableEq

/-- The keyed hashes of the library as terms, and any other bytes. -/
inductive MacaroonSignature (κ : Type) where
  | root (key : κ) (identifier : Bytes)
  | chain (previous : MacaroonSignature κ) (caveat : Caveat)
  | other (bytes : Bytes)
deriving DecidableEq

structure Macaroon (κ : Type) where
  identifier : Bytes
  caveats : List Caveat
  signature : MacaroonSignature κ
deriving DecidableEq

inductive MacaroonError where
  | caveatNotSatisfied
  | invalidSignature
deriving DecidableEq

variable {κ : Type}

def Macaroon.create (key : κ) (identifier : String) : Macaroon κ :=
  ⟨encode identifier, [], .root key (encode identifier)⟩

def Macaroon.addFirstPartyCaveat (predicate : Bytes) (m : Macaroon κ) : Macaroon κ :=
  { m with
    caveats := m.caveats ++ [.firstParty predicate]
    signature := .chain m.signature (.firstParty predicate) }

def Macaroon.attenuate (m : Macaroon κ) (predicates : List Bytes) : Macaroon κ :=
  predicates.foldl (fun m predicate => m.addFirstPartyCaveat predicate) m

def Macaroon.expectedSignature (key : κ) (m : Macaroon κ) : MacaroonSignature κ :=
  m.caveats.foldl .chain (.root key m.identifier)

section Verifier

variable [DecidableEq κ]

/-- The caveats in their order, then the signature. There are no discharges for the caveats of
third parties. Undefined where the general predicate panics. -/
def verifyWithSignature (general : Bytes → Option Bool) (m : Macaroon κ) :
    MacaroonSignature κ → List Caveat → Option (Except MacaroonError Unit)
  | signature, [] =>
    some (if signature = m.signature then .ok () else .error .invalidSignature)
  | signature, .firstParty predicate :: caveats =>
    match general predicate with
    | none => none
    | some false => some (.error .caveatNotSatisfied)
    | some true =>
      verifyWithSignature general m (.chain signature (.firstParty predicate)) caveats
  | _, .thirdParty _ _ _ :: _ => some (.error .caveatNotSatisfied)

def verifyRole (caveat : Bytes) (expectedRole : String) : Option Bool :=
  if ¬ encode "roles = " <+: caveat then some false
  else match decode caveat with
  | none => some false
  | some text => (sliceFrom 8 text).map fun roles =>
    (split '|' roles).any fun role => role == expectedRole

def verifyMacaroon (role : String) (key : κ) (m : Macaroon κ) :
    Option (Except MacaroonError Unit) :=
  verifyWithSignature (fun caveat => verifyRole caveat role) m (.root key m.identifier) m.caveats

def verifyAdminMacaroon (key : κ) (m : Macaroon κ) : Option (Except MacaroonError Unit) :=
  verifyMacaroon "admin" key m

def verifyReadonlyMacaroon (key : κ) (m : Macaroon κ) : Option (Except MacaroonError Unit) :=
  verifyMacaroon "readonly" key m

end Verifier

def adminMacaroon (key : κ) : Macaroon κ :=
  (Macaroon.create key "admin").addFirstPartyCaveat (encode "roles = admin|readonly")

def readonlyMacaroon (key : κ) : Macaroon κ :=
  (Macaroon.create key "readonly").addFirstPartyCaveat (encode "roles = readonly")

/-- The headers from which a macaroon is taken; values need not be texts. -/
structure MacaroonHeaders where
  secWebsocketProtocol : Option Bytes
  macaroon : Option Bytes
  grpcMetadataMacaroon : Option Bytes

structure MacaroonFormats (κ : Type) where
  headerText : Bytes → Option String
  deserialize : String → Option (Macaroon κ)
  fromHex : String → Option Bytes
  deserializeBinary : Bytes → Option (Macaroon κ)

inductive Admission (κ : Type) where
  | unauthorized (message : String)
  | next
deriving DecidableEq

section Middleware

variable (formats : MacaroonFormats κ) (headers : MacaroonHeaders)

/-- The part before the first comma, if there is one. -/
def beforeComma (text : String) : String :=
  if ',' ∈ text.toList then .ofList (text.toList.takeWhile (· ≠ ',')) else ""

def headerValue : Except String String :=
  match headers.secWebsocketProtocol with
  | some value =>
    match formats.headerText value with
    | some text => .ok (beforeComma text)
    | none => .error "Unable to deserialize macaroon"
  | none =>
    match headers.macaroon.or headers.grpcMetadataMacaroon with
    | none => .error "Missing macaroon header"
    | some value =>
      match formats.headerText value with
      | some text => .ok text
      | none => .error "Unable to deserialize macaroon"

def fromRequestParts : Except String (Macaroon κ) :=
  match headerValue formats headers with
  | .error message => .error message
  | .ok value =>
    match formats.deserialize value with
    | some m => .ok m
    | none =>
      match (formats.fromHex value).bind formats.deserializeBinary with
      | some m => .ok m
      | none => .error "Unable to deserialize macaroon"

def roleAuth [DecidableEq κ] (role : String) (key : κ) : Option (Admission κ) :=
  match fromRequestParts formats headers with
  | .error message => some (.unauthorized message)
  | .ok m => (verifyMacaroon role key m).map fun verified =>
    match verified with
    | .ok () => .next
    | .error _ => .unauthorized "Failed to verify macaroon"

def adminAuth [DecidableEq κ] (key : κ) : Option (Admission κ) :=
  roleAuth formats headers "admin" key

def readonlyAuth [DecidableEq κ] (key : κ) : Option (Admission κ) :=
  roleAuth formats headers "readonly" key

end Middleware

/-- A caveat that lists exactly these roles. -/
def roleCaveat (roles : List String) : Caveat :=
  .firstParty (encode ("roles = " ++ (String.singleton '|').intercalate roles))

/-- The caveat is a list of roles without separators in them, and the role is one of them. -/
def Grants (role : String) (caveat : Caveat) : Prop :=
  ∃ roles, caveat = roleCaveat roles ∧ role ∈ roles ∧ ∀ member ∈ roles, '|' ∉ member.toList

theorem verifyRole_append (roles expectedRole : String) :
    verifyRole (encode ("roles = " ++ roles)) expectedRole =
      some ((split '|' roles).any fun role => role == expectedRole) := by
  have hPrefix : encode "roles = " <+: encode ("roles = " ++ roles) :=
    ⟨encode roles, (encode_append _ _).symm⟩
  have hSlice : sliceFrom 8 ("roles = " ++ roles) = some roles := sliceFrom_append "roles = " roles
  rw [verifyRole, if_neg (not_not.mpr hPrefix), decode_encode]
  dsimp only
  rw [hSlice]
  rfl

/-- A caveat that is not a text with this beginning is refused, and the slice never panics. -/
theorem verifyRole_cases (caveat : Bytes) (expectedRole : String) :
    (∃ roles, caveat = encode ("roles = " ++ roles)) ∨
      verifyRole caveat expectedRole = some false := by
  by_cases hPrefix : encode "roles = " <+: caveat
  · cases hDecode : decode caveat with
    | none =>
      refine Or.inr ?_
      rw [verifyRole, if_neg (not_not.mpr hPrefix), hDecode]
    | some text =>
      have hBytes := decode_eq_some_iff.mp hDecode
      rw [← hBytes] at hPrefix
      obtain ⟨roles, rfl⟩ := exists_append_of_prefix hPrefix
      exact Or.inl ⟨roles, hBytes.symm⟩
  · exact Or.inr (if_pos hPrefix)

theorem verifyRole_ne_none (caveat : Bytes) (expectedRole : String) :
    verifyRole caveat expectedRole ≠ none := by
  obtain ⟨roles, rfl⟩ | hFalse := verifyRole_cases caveat expectedRole
  · rw [verifyRole_append]
    exact nofun
  · rw [hFalse]
    exact nofun

theorem verifyRole_eq_true_iff (caveat : Bytes) (expectedRole : String) :
    verifyRole caveat expectedRole = some true ↔ Grants expectedRole (.firstParty caveat) := by
  constructor
  · intro h
    obtain ⟨roles, rfl⟩ | hFalse := verifyRole_cases caveat expectedRole
    · rw [verifyRole_append, Option.some_inj, List.any_eq_true] at h
      obtain ⟨role, hMem, hEq⟩ := h
      refine ⟨split '|' roles, ?_, ?_, fun member hMember => notMem_of_mem_split hMember⟩
      · rw [roleCaveat, intercalate_split]
      · rwa [← eq_of_beq hEq]
    · exact nomatch hFalse.symm.trans h
  · rintro ⟨roles, hCaveat, hRole, hSep⟩
    obtain rfl := Caveat.firstParty.inj hCaveat
    rw [verifyRole_append, split_intercalate (List.ne_nil_of_mem hRole) hSep, Option.some_inj,
      List.any_eq_true]
    exact ⟨expectedRole, hRole, beq_self_eq_true expectedRole⟩

section Holder

variable {m : Macaroon κ} {key : κ}

/-- What the holder of the readonly macaroon has as a signature: the one that it was given, those
of keys of its own, whatever follows from these by further caveats, and any bytes. -/
inductive Obtainable (key : κ) : MacaroonSignature κ → Prop where
  | given : Obtainable key (readonlyMacaroon key).signature
  | ownKey (key' : κ) (identifier : Bytes) (hOther : key' ≠ key) :
    Obtainable key (.root key' identifier)
  | chain (signature : MacaroonSignature κ) (caveat : Caveat) :
    Obtainable key signature → Obtainable key (.chain signature caveat)
  | other (bytes : Bytes) : Obtainable key (.other bytes)

/-- A signature that is intact has the caveat of the readonly macaroon in it. -/
theorem caveat_of_obtainable {signature : MacaroonSignature κ} (h : Obtainable key signature)
    {identifier : Bytes} {caveats : List Caveat}
    (hIntact : signature = caveats.foldl .chain (.root key identifier)) :
    Caveat.firstParty (encode "roles = readonly") ∈ caveats := by
  induction h generalizing caveats with
  | given =>
    obtain rfl | ⟨front, caveat, rfl⟩ := caveats.eq_nil_or_concat
    · cases hIntact
    · rw [List.concat_eq_append, List.foldl_append] at hIntact
      obtain ⟨_, rfl⟩ := MacaroonSignature.chain.inj hIntact
      simp
  | ownKey key' identifier' hOther =>
    obtain rfl | ⟨front, caveat, rfl⟩ := caveats.eq_nil_or_concat
    · exact absurd (MacaroonSignature.root.inj hIntact).1 hOther
    · rw [List.concat_eq_append, List.foldl_append] at hIntact
      cases hIntact
  | chain signature caveat' _ ih =>
    obtain rfl | ⟨front, caveat, rfl⟩ := caveats.eq_nil_or_concat
    · cases hIntact
    · rw [List.concat_eq_append, List.foldl_append] at hIntact
      rw [List.concat_eq_append]
      exact List.mem_append_left _ (ih (MacaroonSignature.chain.inj hIntact).1)
  | other bytes =>
    obtain rfl | ⟨front, caveat, rfl⟩ := caveats.eq_nil_or_concat
    · cases hIntact
    · rw [List.concat_eq_append, List.foldl_append] at hIntact
      cases hIntact

theorem not_admin_of_obtainable (h : Obtainable key m.signature)
    (hIntact : m.signature = m.expectedSignature key) :
    ¬ ∀ caveat ∈ m.caveats, Grants "admin" caveat := fun hGrants =>
  absurd ((verifyRole_eq_true_iff _ _).mpr (hGrants _ (caveat_of_obtainable h hIntact)))
    (by decide)

end Holder

section Verification

variable [DecidableEq κ] {m : Macaroon κ} {key : κ} {role : String}

theorem verifyWithSignature_eq_ok_iff {general : Bytes → Option Bool}
    {signature : MacaroonSignature κ} {caveats : List Caveat} :
    verifyWithSignature general m signature caveats = some (.ok ()) ↔
      caveats.foldl .chain signature = m.signature ∧
        ∀ caveat ∈ caveats, ∃ predicate, caveat = .firstParty predicate ∧
          general predicate = some true := by
  induction caveats generalizing signature with
  | nil =>
    rw [verifyWithSignature, Option.some_inj]
    split
    · rename_i hEq
      exact iff_of_true rfl ⟨hEq, nofun⟩
    · rename_i hNe
      exact iff_of_false nofun fun h => hNe h.1
  | cons caveat caveats ih =>
    rw [List.foldl_cons, List.forall_mem_cons]
    cases caveat with
    | thirdParty identifier verificationId location =>
      exact iff_of_false nofun fun ⟨_, ⟨_, h, _⟩, _⟩ => nomatch h
    | firstParty predicate =>
      unfold verifyWithSignature
      split
      · rename_i hNone
        refine iff_of_false nofun ?_
        rintro ⟨_, ⟨_, hCaveat, hTrue⟩, _⟩
        cases hCaveat
        exact nomatch hNone.symm.trans hTrue
      · rename_i hFalse
        refine iff_of_false nofun ?_
        rintro ⟨_, ⟨_, hCaveat, hTrue⟩, _⟩
        cases hCaveat
        exact nomatch hFalse.symm.trans hTrue
      · rename_i hTrue
        rw [ih]
        exact and_congr_right fun _ => (and_iff_right ⟨predicate, rfl, hTrue⟩).symm

theorem verifyWithSignature_ne_none {general : Bytes → Option Bool}
    (hGeneral : ∀ predicate, general predicate ≠ none) {signature : MacaroonSignature κ}
    {caveats : List Caveat} : verifyWithSignature general m signature caveats ≠ none := by
  induction caveats generalizing signature with
  | nil => exact nofun
  | cons caveat caveats ih =>
    cases caveat with
    | thirdParty identifier verificationId location => exact nofun
    | firstParty predicate =>
      unfold verifyWithSignature
      split
      · rename_i hNone
        exact absurd hNone (hGeneral predicate)
      · exact nofun
      · exact ih

theorem verifyMacaroon_eq_ok_iff :
    verifyMacaroon role key m = some (.ok ()) ↔
      m.signature = m.expectedSignature key ∧ ∀ caveat ∈ m.caveats, Grants role caveat := by
  rw [verifyMacaroon, verifyWithSignature_eq_ok_iff, eq_comm]
  refine and_congr Iff.rfl (forall₂_congr fun caveat _ => ?_)
  constructor
  · rintro ⟨predicate, rfl, hTrue⟩
    exact (verifyRole_eq_true_iff predicate role).mp hTrue
  · intro hGrants
    obtain ⟨roles, rfl, _⟩ := id hGrants
    exact ⟨_, rfl, (verifyRole_eq_true_iff _ role).mpr hGrants⟩

theorem verifyMacaroon_fails_iff :
    (∃ e, verifyMacaroon role key m = some (.error e)) ↔
      verifyMacaroon role key m ≠ some (.ok ()) := by
  have hSome : verifyMacaroon role key m ≠ none :=
    verifyWithSignature_ne_none fun caveat => verifyRole_ne_none caveat role
  constructor
  · rintro ⟨e, hError⟩ hOk
    exact nomatch hError.symm.trans hOk
  · intro hNot
    match hVerified : verifyMacaroon role key m with
    | none => exact absurd hVerified hSome
    | some (.error e) => exact ⟨e, rfl⟩
    | some (.ok ()) => exact absurd hVerified hNot

theorem verifies_of_addFirstPartyCaveat {predicate : Bytes}
    (h : verifyMacaroon role key (m.addFirstPartyCaveat predicate) = some (.ok ())) :
    verifyMacaroon role key m = some (.ok ()) := by
  obtain ⟨hSignature, hCaveats⟩ := verifyMacaroon_eq_ok_iff.mp h
  refine verifyMacaroon_eq_ok_iff.mpr ⟨?_, fun caveat hCaveat => ?_⟩
  · unfold Macaroon.addFirstPartyCaveat Macaroon.expectedSignature at hSignature
    rw [List.foldl_append] at hSignature
    exact (MacaroonSignature.chain.inj hSignature).1
  · exact hCaveats caveat (List.mem_append_left _ hCaveat)

theorem verifies_of_attenuate {predicates : List Bytes}
    (h : verifyMacaroon role key (m.attenuate predicates) = some (.ok ())) :
    verifyMacaroon role key m = some (.ok ()) := by
  induction predicates generalizing m with
  | nil => exact h
  | cons predicate predicates ih => exact verifies_of_addFirstPartyCaveat (ih h)

theorem readonly_not_admin (key : κ) :
    verifyAdminMacaroon key (readonlyMacaroon key) ≠ some (.ok ()) := by
  intro h
  have hCaveat := (verifyWithSignature_eq_ok_iff.mp h).2 _ List.mem_cons_self
  obtain ⟨predicate, hPredicate, hTrue⟩ := hCaveat
  obtain rfl := Caveat.firstParty.inj hPredicate
  exact absurd hTrue (by decide)

theorem attenuated_readonly_fails (key : κ) (predicates : List Bytes) :
    ∃ e, verifyAdminMacaroon key ((readonlyMacaroon key).attenuate predicates) =
      some (.error e) :=
  verifyMacaroon_fails_iff.mpr fun h => readonly_not_admin key (verifies_of_attenuate h)

theorem verifies_of_roles {roles : String} {members : List String} {identifier : String}
    (hRoles : roles = (String.singleton '|').intercalate members)
    (hSep : ∀ member ∈ members, '|' ∉ member.toList) (hRole : role ∈ members) :
    verifyMacaroon role key ((Macaroon.create key identifier).addFirstPartyCaveat
      (encode ("roles = " ++ roles))) = some (.ok ()) := by
  refine verifyMacaroon_eq_ok_iff.mpr ⟨rfl, fun caveat hCaveat => ?_⟩
  refine ⟨members, ?_, hRole, hSep⟩
  rw [List.mem_singleton.mp hCaveat, roleCaveat, hRoles]

/-- The admin macaroon has both roles, and the other one is for reading only. -/
theorem minted_verify (key : κ) :
    verifyAdminMacaroon key (adminMacaroon key) = some (.ok ()) ∧
      verifyReadonlyMacaroon key (adminMacaroon key) = some (.ok ()) ∧
      verifyReadonlyMacaroon key (readonlyMacaroon key) = some (.ok ()) := by
  have hBoth : "admin|readonly" = (String.singleton '|').intercalate ["admin", "readonly"] := by
    decide
  have hOne : "readonly" = (String.singleton '|').intercalate ["readonly"] := by decide
  have hSep : ∀ member ∈ ["admin", "readonly"], '|' ∉ member.toList := by decide
  refine ⟨?_, ?_, ?_⟩
  · exact verifies_of_roles hBoth hSep List.mem_cons_self
  · exact verifies_of_roles hBoth hSep (List.mem_cons_of_mem _ List.mem_cons_self)
  · exact verifies_of_roles hOne (fun member hMem => hSep member (List.mem_cons_of_mem _ hMem))
      List.mem_cons_self

/-- Whom a middleware admits. -/
theorem roleAuth_eq_next_iff {formats : MacaroonFormats κ} {headers : MacaroonHeaders} :
    roleAuth formats headers role key = some .next ↔
      ∃ m, fromRequestParts formats headers = .ok m ∧
        verifyMacaroon role key m = some (.ok ()) := by
  unfold roleAuth
  split
  · rename_i message hError
    exact iff_of_false nofun fun ⟨_, hOk, _⟩ => nomatch hError.symm.trans hOk
  · rename_i m hOk
    rw [Option.map_eq_some_iff]
    constructor
    · rintro ⟨verified, hVerified, hNext⟩
      cases verified with
      | ok => exact ⟨m, hOk, hVerified⟩
      | error e => exact nomatch hNext
    · rintro ⟨m', hOk', hVerified⟩
      obtain rfl : m = m' := Except.ok.inj (hOk.symm.trans hOk')
      exact ⟨.ok (), hVerified, rfl⟩

theorem readonlyAuth_of_adminMacaroon {formats : MacaroonFormats κ} {headers : MacaroonHeaders}
    (h : fromRequestParts formats headers = .ok (adminMacaroon key)) :
    readonlyAuth formats headers key = some .next :=
  roleAuth_eq_next_iff.mpr ⟨_, h, (minted_verify key).2.1⟩

/-- No request gets to the admin routes with a macaroon made from the readonly one. -/
theorem adminAuth_of_attenuated {formats : MacaroonFormats κ} {headers : MacaroonHeaders}
    {predicates : List Bytes}
    (h : fromRequestParts formats headers = .ok ((readonlyMacaroon key).attenuate predicates)) :
    adminAuth formats headers key = some (.unauthorized "Failed to verify macaroon") := by
  obtain ⟨e, hFails⟩ := attenuated_readonly_fails key predicates
  unfold verifyAdminMacaroon at hFails
  rw [adminAuth, roleAuth, h]
  dsimp only
  rw [hFails]
  rfl

theorem attenuation_cannot_widen (key : κ) :
    (∀ predicates, ∃ e, verifyAdminMacaroon key ((readonlyMacaroon key).attenuate predicates) =
      some (.error e)) ∧
    (∀ (m : Macaroon κ) role predicate, (∃ e, verifyMacaroon role key m = some (.error e)) →
      ∃ e, verifyMacaroon role key (m.addFirstPartyCaveat predicate) = some (.error e)) ∧
    ∀ (m : Macaroon κ) role, verifyMacaroon role key m = some (.ok ()) ↔
      m.signature = m.expectedSignature key ∧ ∀ caveat ∈ m.caveats, Grants role caveat := by
  refine ⟨fun predicates => ?_, fun m role predicate hFails => ?_, fun m role => ?_⟩
  · exact attenuated_readonly_fails key predicates
  · refine verifyMacaroon_fails_iff.mpr fun h => ?_
    exact verifyMacaroon_fails_iff.mp hFails (verifies_of_addFirstPartyCaveat h)
  · exact verifyMacaroon_eq_ok_iff

end Verification

end Kld.Api
