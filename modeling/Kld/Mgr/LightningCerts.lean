import Kld.Mgr.Pki

/-!
# Certificates of lightning nodes

A missing key or certificate of the CA is created, each by itself. Of every host a
missing key is created, and the certificate is renewed if it is missing or has not
the address of the host.
-/

namespace Kld.Pki

structure Host where
  name : String
  ipv4Address : Option IpAddr
  ipv6Address : Option IpAddr
  hostname : String
  apiIpAccessList : List IpAddr
deriving DecidableEq

/-- The hosts of a configuration are stored under their names. -/
structure Hosts where
  values : List Host
  names_nodup : (values.map Host.name).Nodup

def Host.keyPath (host : Host) : Path := keyOf host.name

def Host.certPath (host : Host) : Path := ⟨host.name, "pem"⟩

/-- What of the environment the model does not compute: which operations succeed, and the
addresses that texts denote. -/
structure Environment where
  succeeds : Nat → Bool
  parseIp : String → Option IpAddr

namespace Lightning

variable (env : Environment)

def selfSigned (caKeyPath caCertPath : Path) (d : Directory) : Option Directory :=
  match d.files caKeyPath with
  | some (.key key) => some (d.write caCertPath (.certificate ⟨key, key, []⟩))
  | _ => none

def requested (keyPath certConf certPath : Path) (d : Directory) : Option Directory :=
  match d.files keyPath, d.files certConf with
  | some (.key key), some (.config _) => some (d.write certPath (.request key))
  | _, _ => none

/-- The request is read before the certificate is written to the same file. -/
def signed (certPath caCertPath caKeyPath certConf : Path) (d : Directory) : Option Directory :=
  match d.files certPath, d.files caCertPath, d.files caKeyPath, d.files certConf with
  | some (.request subject), some (.certificate _), some (.key signer), some (.config altNames) =>
    some (d.write certPath (.certificate ⟨subject, signer, altNames⟩))
  | _, _, _, _ => none

def createTlsKey (caKeyPath : Path) : Action Unit :=
  context "Failed to create TLS key"
    (attempt env.succeeds fun d => some (d.generateKey caKeyPath))

def createCaCert (caCertPath caKeyPath : Path) : Action Unit :=
  unlessExists caCertPath (context "Failed to create CA certificate"
    (attempt env.succeeds (selfSigned caKeyPath caCertPath)))

def altIps (names : List GeneralName) : List IpAddr :=
  names.filterMap fun name =>
    match name with
    | .ip address => some address
    | .dns _ => none

/-- The addresses in a certificate file. A PEM block that is no certificate is an error. -/
def certSan : Option Content → Option (List IpAddr)
  | some (.certificate certificate) => some (altIps certificate.altNames)
  | some (.key _) => none
  | some (.request _) => none
  | some (.config _) => some []
  | some .text => some []
  | none => some []

def sanFromCert (certPath : Path) : Action (List IpAddr) := fun w =>
  match certSan (w.dir.files certPath) with
  | some san => .ok san w
  | none => .error [] w

/-- The source makes this test twice, both times for the IPv4 address. -/
def isNewIp (host : Host) (currentSan : List IpAddr) (address : Option IpAddr) : Bool :=
  address.any fun ip => !currentSan.contains ip && !host.apiIpAccessList.isEmpty

def hasNewIp (host : Host) (currentSan : List IpAddr) : Bool :=
  isNewIp host currentSan host.ipv4Address || isNewIp host currentSan host.ipv4Address

def certAltNames (host : Host) : List GeneralName :=
  [.dns "localhost", .ip (.v4 0x7F000001), .ip (.v6 1)] ++
    (host.ipv4Address.map .ip).toList ++ (host.ipv6Address.map .ip).toList ++
    [(env.parseIp host.hostname).elim (.dns host.hostname) .ip]

def certConf : Path := ⟨"cert", "conf"⟩

def caCert : Path := ⟨"ca", "pem"⟩

def renewCert (caKeyPath caCertPath : Path) (host : Host) : Action Unit := do
  attempt env.succeeds fun d => some (d.write certConf (.config (certAltNames env host)))
  context "Failed to create certificate request"
    (attempt env.succeeds (requested host.keyPath certConf host.certPath))
  context "Failed to create certificate"
    (attempt env.succeeds (signed host.certPath caCertPath caKeyPath certConf))

def createCert (caKeyPath caCertPath : Path) (host : Host) : Action Unit := do
  let currentSan ← sanFromCert host.certPath
  unlessExists host.keyPath
    (context ("Failed to create key for lightning certificate: " ++ host.name)
      (createTlsKey env host.keyPath))
  if !hasNewIp host currentSan && (← fileExists host.certPath) then pure ()
  else renewCert env caKeyPath caCertPath host

def createCa (certDir : String) : Action Unit := do
  unlessExists (keyOf "ca")
    (context ("Failed to create key for lightning CA certificate: " ++ certDir ++ "/" ++
        (keyOf "ca").toText)
      (createTlsKey env (keyOf "ca")))
  context ("Failed to create lightning CA certificate: " ++ certDir ++ "/" ++ caCert.toText)
    (createCaCert env caCert (keyOf "ca"))

def createLightningCerts (certDir : String) (hosts : Hosts) : Action Unit := do
  context ("Failed to create directory for lightning certificates: " ++ certDir)
    (attempt env.succeeds some)
  createCa env certDir
  hosts.values.forM fun h => context ("Failed to create lightning certificate: " ++ h.name)
    (createCert env (keyOf "ca") caCert h)

/-- Whether the certificate of a host is left as it is, as far as the host's own files decide. -/
def Kept (host : Host) (pair : Pair) : Prop :=
  pair.2 ≠ none ∧ ∃ san, certSan pair.2 = some san ∧ hasNewIp host san = false

variable {env} {host : Host} {w w' : World}

theorem sanFromCert_spec {certPath : Path} {san : List IpAddr}
    (h : sanFromCert certPath w = .ok san w') :
    certSan (w.dir.files certPath) = some san ∧ w' = w := by
  unfold sanFromCert at h
  split at h
  · rename_i hSan
    cases h
    exact ⟨hSan, rfl⟩
  · cases h

theorem requested_spec {keyPath conf certPath : Path} {d d' : Directory}
    (h : requested keyPath conf certPath d = some d') :
    ∃ k, d.files keyPath = some (.key k) ∧ d' = d.write certPath (.request k) := by
  unfold requested at h
  split at h
  · rename_i k _ hKey _
    exact ⟨k, hKey, (Option.some.inj h).symm⟩
  · cases h

theorem signed_spec {certPath caCertPath caKeyPath conf : Path} {d d' : Directory}
    (h : signed certPath caCertPath caKeyPath conf d = some d') :
    ∃ subject c signer altNames, d.files certPath = some (.request subject) ∧
      d.files caCertPath = some (.certificate c) ∧ d.files caKeyPath = some (.key signer) ∧
      d.files conf = some (.config altNames) ∧
      d' = d.write certPath (.certificate ⟨subject, signer, altNames⟩) := by
  unfold signed at h
  split at h
  · rename_i subject c signer altNames hRequest hCa hCaKey hConf
    exact ⟨subject, c, signer, altNames, hRequest, hCa, hCaKey, hConf, (Option.some.inj h).symm⟩
  · cases h

/-- A host that is called like the CA cannot be renewed: its request replaces the CA's
certificate. -/
theorem renewCert_spec (h : renewCert env (keyOf "ca") caCert host w = .ok () w') :
    ∃ k signer content request, host.name ≠ "ca" ∧
      w.dir.files host.keyPath = some (.key k) ∧
      w.dir.files (keyOf "ca") = some (.key signer) ∧
      w'.dir = ((w.dir.write certConf content).write host.certPath request).write host.certPath
        (.certificate ⟨k, signer, certAltNames env host⟩) ∧ content.keys = [] ∧
      request.keys = [k] := by
  obtain ⟨_, w₁, hConf, h⟩ := ok_of_bind h
  obtain ⟨_, w₂, hRequest, hSign⟩ := ok_of_bind h
  have hConf : w.dir.write certConf (.config (certAltNames env host)) = w₁.dir :=
    Option.some.inj (effect_of_attempt hConf)
  obtain ⟨k, hKey, hRequest⟩ := requested_spec (effect_of_attempt (ok_of_context hRequest))
  obtain ⟨subject, c, signer, altNames, hSubject, hCa, hCaKey, hAltNames, hSign⟩ :=
    signed_spec (effect_of_attempt (ok_of_context hSign))
  rw [hRequest, write_files_of_ne (by simp [Host.certPath, certConf]), ← hConf,
    write_files_self] at hAltNames
  obtain rfl := Content.config.inj (Option.some.inj hAltNames)
  rw [hRequest, write_files_self] at hSubject
  obtain rfl := Content.request.inj (Option.some.inj hSubject)
  have hName : host.name ≠ "ca" := by
    intro hName
    have hPath : caCert = host.certPath := by rw [Host.certPath, hName, caCert]
    rw [hRequest, hPath, write_files_self] at hCa
    cases hCa
  rw [← hConf] at hRequest hKey
  rw [write_files_of_ne (by simp [Host.keyPath, keyOf, certConf])] at hKey
  rw [hRequest, write_files_of_ne (by simp [Host.certPath, keyOf]),
    write_files_of_ne (by simp [keyOf, certConf])] at hCaKey
  rw [hRequest] at hSign
  exact ⟨k, signer, _, _, hName, hKey, hCaKey, hSign, rfl, rfl⟩

/-- A missing key was generated. -/
structure KeyEnsured (name : String) (d d' : Directory) : Prop where
  fresh : d'.Fresh
  frame : ∀ path, path ≠ keyOf name → d'.files path = d.files path
  of_present : d.files (keyOf name) ≠ none → d' = d
  of_missing : d.files (keyOf name) = none → d'.files (keyOf name) = some (.key d.nextKey)

theorem keyEnsured_of_unlessExists {name message : String} (hFresh : w.dir.Fresh)
    (h : unlessExists (keyOf name) (context message (createTlsKey env (keyOf name))) w =
      .ok () w') : KeyEnsured name w.dir w'.dir := by
  rcases ok_of_unlessExists h with ⟨hPresent, rfl⟩ | ⟨hMissing, h⟩
  · exact ⟨hFresh, fun _ _ => rfl, fun _ => rfl, fun hMissing => absurd hMissing hPresent⟩
  · have hEffect := effect_of_attempt (ok_of_context (ok_of_context h))
    rw [← Option.some.inj hEffect]
    exact ⟨hFresh.generateKey _, fun path hPath => generateKey_files_of_ne hPath w.dir,
      fun hPresent => absurd hMissing hPresent, fun _ => generateKey_files_self _ w.dir⟩

theorem KeyEnsured.cert_eq {name : String} {d d' : Directory} (h : KeyEnsured name d d')
    (other : String) : d'.files ⟨other, "pem"⟩ = d.files ⟨other, "pem"⟩ :=
  h.frame _ (by simp [keyOf])

theorem KeyEnsured.pair_of_ne {name other : String} {d d' : Directory}
    (h : KeyEnsured name d d') (hOther : other ≠ name) :
    d'.pair "pem" other = d.pair "pem" other :=
  Prod.ext (h.frame _ (keyOf_ne hOther)) (h.cert_eq other)

/-- No certificate that is there belongs to a new key. -/
theorem KeyEnsured.issued_iff {name : String} {d d' : Directory} (h : KeyEnsured name d d')
    (hFresh : d.Fresh) (ca : Key) :
    Issued ca (d'.pair "pem" name) ↔ Issued ca (d.pair "pem" name) := by
  by_cases hMissing : d.files (keyOf name) = none
  · constructor
    · rintro ⟨c, hPair, _⟩
      obtain ⟨hKey, hFile⟩ := Prod.mk.inj hPair
      rw [h.of_missing hMissing] at hKey
      rw [h.cert_eq] at hFile
      have hLt := hFresh _ _ hFile c.subject List.mem_cons_self
      rw [← Content.key.inj (Option.some.inj hKey)] at hLt
      exact absurd hLt (Nat.lt_irrefl _)
    · rintro ⟨c, hPair, _⟩
      cases hMissing.symm.trans (congrArg Prod.fst hPair)
  · rw [h.of_present hMissing]

theorem renewCert_renews (hFresh : w.dir.Fresh)
    (h : renewCert env (keyOf "ca") caCert host w = .ok () w')
    (hNotKept : ¬ Kept host (w.dir.pair "pem" host.name)) :
    Renews "pem" Host.name Kept [] [host] w.dir w'.dir := by
  obtain ⟨k, signer, content, request, hName, hSubject, hSigner, hDir, hContent, hRequest⟩ :=
    renewCert_spec h
  have hOthers : ∀ path, path ≠ certConf → path ≠ host.certPath →
      w'.dir.files path = w.dir.files path := by
    intro path hConf hCert
    rw [hDir, write_files_of_ne hCert, write_files_of_ne hCert, write_files_of_ne hConf]
  have hKeys : ∀ name, w'.dir.files (keyOf name) = w.dir.files (keyOf name) := fun name =>
    hOthers _ (by simp [keyOf, certConf]) (by simp [keyOf, Host.certPath])
  have hPairs : ∀ name, name ≠ host.name → w'.dir.pair "pem" name = w.dir.pair "pem" name :=
    fun name hOther => Prod.ext (hKeys name)
      (hOthers _ (by simp [certConf]) (by simpa [Host.certPath] using hOther))
  refine ⟨?_, hPairs "ca" hName.symm, fun name hOther _ => hPairs name (by simpa using hOther), ?_⟩
  · rw [hDir]
    have hK := hFresh _ _ hSubject k (List.mem_singleton_self k)
    have hS := hFresh _ _ hSigner signer (List.mem_singleton_self signer)
    refine ((hFresh.write certConf ?_).write host.certPath ?_).write host.certPath ?_
    · rw [hContent]
      exact fun key hKey => absurd hKey List.not_mem_nil
    · rw [hRequest]
      exact fun key hKey => List.mem_singleton.mp hKey ▸ hK
    · intro key hKey
      rcases List.mem_cons.mp hKey with rfl | hKey
      · exact hK
      · exact List.mem_singleton.mp hKey ▸ hS
  · intro leaf hLeaf ca hCa
    obtain rfl := List.mem_singleton.mp hLeaf
    obtain rfl := Content.key.inj (Option.some.inj (hCa.symm.trans hSigner))
    refine iff_of_true ⟨⟨k, ca, certAltNames env leaf⟩, Prod.ext ?_ ?_, rfl⟩
      fun hKept => absurd hKept hNotKept
    · exact (hKeys leaf.name).trans hSubject
    · dsimp only [Directory.pair]
      rw [hDir]
      exact write_files_self _ _ _

/-- A generated key changes neither what is kept nor what is issued. -/
theorem KeyEnsured.renews {d d₁ d' : Directory} (h : KeyEnsured host.name d d₁) (hFresh : d.Fresh)
    (hCa : d.HasCa "pem") (hAfter : Renews "pem" Host.name Kept [] [host] d₁ d') :
    Renews "pem" Host.name Kept [] [host] d d' := by
  have hCaPair : d₁.pair "pem" "ca" = d.pair "pem" "ca" := by
    by_cases hName : "ca" = host.name
    · rw [h.of_present (hName ▸ hCa.1)]
    · exact h.pair_of_ne hName
  refine ⟨hAfter.fresh, hAfter.ca_eq.trans hCaPair, ?_, ?_⟩
  · intro name hName hScratch
    exact (hAfter.frame name hName hScratch).trans (h.pair_of_ne (by simpa using hName))
  · intro leaf hLeaf ca hCaKey
    have hIff := hAfter.issued_iff leaf hLeaf ca ((congrArg Prod.fst hCaPair).trans hCaKey)
    obtain rfl := List.mem_singleton.mp hLeaf
    have hKept : Kept leaf (d₁.pair "pem" leaf.name) ↔ Kept leaf (d.pair "pem" leaf.name) := by
      dsimp only [Kept, Directory.pair]
      rw [h.cert_eq]
    rw [hIff, hKept, h.issued_iff hFresh]

theorem files_of_unlessExists {name message : String}
    (h : unlessExists (keyOf name) (context message (createTlsKey env (keyOf name))) w =
      .ok () w') :
    w'.dir.files (keyOf name) ≠ none ∧
      ∀ path, path ≠ keyOf name → w'.dir.files path = w.dir.files path := by
  rcases ok_of_unlessExists h with ⟨hPresent, rfl⟩ | ⟨_, h⟩
  · exact ⟨hPresent, fun _ _ => rfl⟩
  · have hEffect := effect_of_attempt (ok_of_context (ok_of_context h))
    rw [← Option.some.inj hEffect]
    refine ⟨?_, fun path hPath => generateKey_files_of_ne hPath w.dir⟩
    rw [generateKey_files_self]
    exact Option.some_ne_none _

/-- A host's key is created if it is missing, and its certificate is kept or renewed. -/
theorem createCert_cases (h : createCert env (keyOf "ca") caCert host w = .ok () w') :
    ∃ message w₁, unlessExists host.keyPath (context message (createTlsKey env host.keyPath)) w =
        .ok () w₁ ∧
      (Kept host (w.dir.pair "pem" host.name) ∧ w' = w₁ ∨
        ¬ Kept host (w.dir.pair "pem" host.name) ∧
          renewCert env (keyOf "ca") caCert host w₁ = .ok () w') := by
  unfold createCert at h
  obtain ⟨san, w₀, hRead, hCreate⟩ := ok_of_bind h
  obtain ⟨hSan, rfl⟩ := sanFromCert_spec hRead
  obtain ⟨_, w₁, hKey, hCreate⟩ := ok_of_bind hCreate
  obtain ⟨found, w₂, hFound, hCreate⟩ := ok_of_bind hCreate
  cases hFound
  refine ⟨_, w₁, hKey, ?_⟩
  have hCert : w₁.dir.files host.certPath = w₀.dir.files host.certPath :=
    (files_of_unlessExists hKey).2 _ (by simp [Host.certPath, keyOf])
  have hKept : Kept host (w₀.dir.pair "pem" host.name) ↔
      (!hasNewIp host san && (w₁.dir.files host.certPath).isSome) = true := by
    rw [Bool.and_eq_true, Bool.not_eq_true', Option.isSome_iff_ne_none, hCert]
    constructor
    · rintro ⟨hFound, san', hSan', hNoIp⟩
      obtain rfl := Option.some.inj (hSan.symm.trans hSan')
      exact ⟨hNoIp, hFound⟩
    · exact fun hBoth => ⟨hBoth.2, san, hSan, hBoth.1⟩
  split at hCreate
  · rename_i hTest
    cases hCreate
    exact Or.inl ⟨hKept.mpr hTest, rfl⟩
  · rename_i hTest
    exact Or.inr ⟨mt hKept.mp hTest, hCreate⟩

theorem createCert_renews (hFresh : w.dir.Fresh) (hCa : w.dir.HasCa "pem")
    (h : createCert env (keyOf "ca") caCert host w = .ok () w') :
    Renews "pem" Host.name Kept [] [host] w.dir w'.dir := by
  obtain ⟨_, w₁, hKey, hCases⟩ := createCert_cases h
  have hKey := keyEnsured_of_unlessExists hFresh hKey
  have hKept : Kept host (w₁.dir.pair "pem" host.name) ↔
      Kept host (w.dir.pair "pem" host.name) := by
    dsimp only [Kept, Directory.pair]
    rw [hKey.cert_eq]
  refine hKey.renews hFresh hCa ?_
  rcases hCases with ⟨hIsKept, rfl⟩ | ⟨hNotKept, hRenew⟩
  · exact Renews.of_kept hKey.fresh (hKept.mpr hIsKept)
  · exact renewCert_renews hKey.fresh hRenew (mt hKept.mp hNotKept)

/-- What is there before: a certificate of the CA belongs to its key, and each certificate that
is kept to the key beside it, signed by the key of the CA. -/
structure KeptConsistent (hosts : Hosts) (d : Directory) : Prop where
  ca : d.files caCert ≠ none → ∃ ca, CaOf ca (d.pair "pem" "ca")
  hosts : ∀ host ∈ hosts.values, Kept host (d.pair "pem" host.name) →
    ∃ ca, d.files (keyOf "ca") = some (.key ca) ∧ Issued ca (d.pair "pem" host.name)

/-- What the first steps leave: the CA's certificate as it was, or a new one of the key. -/
inductive CaEnsured (d d' : Directory) : Prop where
  | kept (hKey : KeyEnsured "ca" d d') (hCert : d.files caCert ≠ none)
  | created (d₁ : Directory) (k : Key) (hKey : KeyEnsured "ca" d d₁) (hCert : d.files caCert = none)
      (hFile : d₁.files (keyOf "ca") = some (.key k))
      (hDir : d' = d₁.write caCert (.certificate ⟨k, k, []⟩))

theorem selfSigned_spec {keyPath certPath : Path} {d d' : Directory}
    (h : selfSigned keyPath certPath d = some d') :
    ∃ k, d.files keyPath = some (.key k) ∧ d' = d.write certPath (.certificate ⟨k, k, []⟩) := by
  unfold selfSigned at h
  split at h
  · rename_i k hKey
    exact ⟨k, hKey, (Option.some.inj h).symm⟩
  · cases h

theorem createCa_spec {certDir : String} (hFresh : w.dir.Fresh)
    (h : createCa env certDir w = .ok () w') : CaEnsured w.dir w'.dir := by
  unfold createCa at h
  obtain ⟨_, w₁, hKey, hCert⟩ := ok_of_bind h
  have hKey := keyEnsured_of_unlessExists hFresh hKey
  rcases ok_of_unlessExists (ok_of_context hCert) with ⟨hPresent, rfl⟩ | ⟨hMissing, hCreate⟩
  · rw [caCert, hKey.cert_eq] at hPresent
    exact .kept hKey hPresent
  · obtain ⟨k, hFile, hDir⟩ := selfSigned_spec (effect_of_attempt (ok_of_context hCreate))
    rw [caCert, hKey.cert_eq] at hMissing
    exact .created w₁.dir k hKey hMissing hFile hDir

theorem KeyEnsured.key_ne_none {name : String} {d d' : Directory} (h : KeyEnsured name d d') :
    d'.files (keyOf name) ≠ none := by
  by_cases hMissing : d.files (keyOf name) = none
  · rw [h.of_missing hMissing]
    exact Option.some_ne_none _
  · rw [h.of_present hMissing]
    exact hMissing

theorem CaEnsured.fresh {d d' : Directory} (h : CaEnsured d d') : d'.Fresh := by
  cases h with
  | kept hKey _ => exact hKey.fresh
  | created d₁ k hKey _ hFile hDir =>
    rw [hDir]
    refine hKey.fresh.write caCert fun key hMem => ?_
    have hLt := hKey.fresh _ _ hFile k (List.mem_singleton_self k)
    simp only [Content.keys, List.mem_cons, List.not_mem_nil, or_false, or_self] at hMem
    rw [hMem]
    exact hLt

theorem CaEnsured.hasCa {d d' : Directory} (h : CaEnsured d d') : d'.HasCa "pem" := by
  cases h with
  | kept hKey hCert =>
    refine ⟨hKey.key_ne_none, ?_⟩
    rw [hKey.cert_eq]
    exact hCert
  | created d₁ k hKey hCert hFile hDir =>
    rw [hDir]
    refine ⟨?_, ?_⟩
    · rw [write_files_of_ne (by simp [keyOf, caCert]), hFile]
      exact Option.some_ne_none _
    · exact ne_of_eq_of_ne (write_files_self _ _ _) (Option.some_ne_none _)

/-- The key in place after the first steps is the one that was there, or a new one. -/
theorem KeyEnsured.issued_ca_iff {name : String} {k : Key} {d d₁ : Directory}
    (h : KeyEnsured "ca" d d₁) (hFresh : d.Fresh) (hKey : d₁.files (keyOf "ca") = some (.key k)) :
    Issued k (d.pair "pem" name) ↔
      ∃ ca, d.files (keyOf "ca") = some (.key ca) ∧ Issued ca (d.pair "pem" name) := by
  by_cases hMissing : d.files (keyOf "ca") = none
  · rw [h.of_missing hMissing] at hKey
    obtain rfl := Content.key.inj (Option.some.inj hKey)
    refine iff_of_false (fun hIssued => Nat.lt_irrefl _ (hIssued.signer_lt hFresh)) ?_
    rintro ⟨ca, hCa, _⟩
    cases hMissing.symm.trans hCa
  · rw [h.of_present hMissing] at hKey
    constructor
    · exact fun hIssued => ⟨k, hKey, hIssued⟩
    · rintro ⟨ca, hCa, hIssued⟩
      obtain rfl := Content.key.inj (Option.some.inj (hKey.symm.trans hCa))
      exact hIssued

theorem CaEnsured.consistent_iff {d d' : Directory} (h : CaEnsured d d') (hFresh : d.Fresh)
    (hosts : Hosts) :
    (∃ ca, CaOf ca (d'.pair "pem" "ca") ∧ ∀ host ∈ hosts.values,
        Kept host (d'.pair "pem" host.name) → Issued ca (d'.pair "pem" host.name)) ↔
      KeptConsistent hosts d := by
  cases h with
  | kept hKey hCert =>
    by_cases hMissing : d.files (keyOf "ca") = none
    · refine iff_of_false ?_ ?_
      · rintro ⟨ca, hCa, _⟩
        have hPair : d'.pair "pem" "ca" = (some (.key d.nextKey), d.files caCert) :=
          Prod.ext (hKey.of_missing hMissing) (hKey.cert_eq "ca")
        rw [hPair] at hCa
        have hLt := hCa.subject_lt hFresh
        rw [← Content.key.inj (Option.some.inj hCa.key_eq)] at hLt
        exact Nat.lt_irrefl _ hLt
      · rintro ⟨hCa, _⟩
        obtain ⟨ca, hCa⟩ := hCa hCert
        cases hMissing.symm.trans hCa.key_eq
    · obtain rfl := hKey.of_present hMissing
      refine exists_caOf_iff.trans ?_
      exact ⟨fun h => ⟨fun _ => h.1, h.2⟩, fun h => ⟨h.ca hCert, h.hosts⟩⟩
  | created d₁ k hKey hCert hFile hDir =>
    have hOther : ∀ name, name ≠ "ca" → d'.pair "pem" name = d.pair "pem" name := by
      intro name hName
      rw [hDir, ← hKey.pair_of_ne hName]
      exact Prod.ext (write_files_of_ne (by simp [keyOf, caCert]) _ _)
        (write_files_of_ne (by simpa [caCert] using hName) _ _)
    have hCa : d'.pair "pem" "ca" = (some (.key k), some (.certificate ⟨k, k, []⟩)) := by
      rw [hDir, Directory.pair, write_files_of_ne (by simp [keyOf, caCert]), hFile]
      exact congrArg _ (write_files_self caCert _ d₁)
    have hHost : ∀ host, (Kept host (d'.pair "pem" host.name) →
          Issued k (d'.pair "pem" host.name)) ↔
        (Kept host (d.pair "pem" host.name) →
          ∃ ca, d.files (keyOf "ca") = some (.key ca) ∧ Issued ca (d.pair "pem" host.name)) := by
      intro host
      by_cases hName : host.name = "ca"
      · rw [hName, hCa]
        refine iff_of_true (fun _ => ⟨⟨k, k, []⟩, rfl, rfl⟩) ?_
        exact fun hKept => absurd hCert hKept.1
      · rw [hOther host.name hName, hKey.issued_ca_iff hFresh hFile]
    have hCaOf : ∀ ca, CaOf ca (d'.pair "pem" "ca") ↔ ca = k := by
      intro ca
      rw [hCa]
      constructor
      · exact fun h => (Content.key.inj (Option.some.inj h.key_eq)).symm
      · rintro rfl
        exact ⟨⟨ca, ca, []⟩, rfl, rfl⟩
    simp only [hCaOf, exists_eq_left]
    constructor
    · intro h
      exact ⟨fun hPresent => absurd hCert hPresent,
        fun host hMem => (hHost host).mp (h host hMem)⟩
    · intro h host hMem
      exact (hHost host).mpr (h.hosts host hMem)

theorem createLightningCerts_cases {certDir : String} {hosts : Hosts}
    (h : createLightningCerts env certDir hosts w = .ok () w') :
    ∃ w₁ w₂, w₁.dir = w.dir ∧ createCa env certDir w₁ = .ok () w₂ ∧
      hosts.values.forM (fun host =>
        context ("Failed to create lightning certificate: " ++ host.name)
          (createCert env (keyOf "ca") caCert host)) w₂ = .ok () w' := by
  unfold createLightningCerts at h
  obtain ⟨_, w₁, hCreate, h⟩ := ok_of_bind h
  obtain ⟨_, w₂, hCa, hHosts⟩ := ok_of_bind h
  exact ⟨w₁, w₂, (Option.some.inj (effect_of_attempt (ok_of_context hCreate))).symm, hCa, hHosts⟩

theorem createLightningCerts_spec {certDir : String} {hosts : Hosts} (hFresh : w.dir.Fresh)
    (h : createLightningCerts env certDir hosts w = .ok () w') :
    ∃ d, CaEnsured w.dir d ∧ Renews "pem" Host.name Kept [] hosts.values d w'.dir := by
  obtain ⟨w₁, w₂, hDir, hCa, hHosts⟩ := createLightningCerts_cases h
  have hEnsured := createCa_spec (hDir ▸ hFresh) hCa
  rw [hDir] at hEnsured
  exact ⟨w₂.dir, hEnsured, renews_forM
    (fun host w w' hFresh hCa h => createCert_renews hFresh hCa (ok_of_context h))
    hosts.names_nodup (fun _ _ => List.not_mem_nil) hEnsured.fresh hEnsured.hasCa hHosts⟩

theorem createLightningCerts_consistent_iff {certDir : String} {hosts : Hosts}
    (hFresh : w.dir.Fresh) (h : createLightningCerts env certDir hosts w = .ok () w') :
    Consistent (w'.dir.pair "pem" "ca")
        (hosts.values.map fun host => w'.dir.pair "pem" host.name) ↔
      KeptConsistent hosts w.dir := by
  obtain ⟨d, hEnsured, hRenews⟩ := createLightningCerts_spec hFresh h
  exact (consistent_iff_of_renews hRenews).trans (hEnsured.consistent_iff hFresh hosts)

end Lightning

end Kld.Pki
