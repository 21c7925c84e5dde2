import Kld.Mgr.Certs

/-!
# The addresses in the certificates of lightning nodes

A certificate is kept if it has the IPv4 address of its host. A new one has both
addresses, and is kept by every later run with the same hosts.
-/

namespace Kld.Pki.Lightning

variable {env : Environment} {host : Host} {hosts : List Host} {w w' : World}
  {d d₁ d' : Directory}

/-- What becomes of the certificates of the hosts: each is kept, or is a new one with the current
addresses. -/
structure HostsDone (env : Environment) (hosts : List Host) (d d' : Directory) : Prop where
  keys : ∀ name, d.files (keyOf name) ≠ none → d'.files (keyOf name) ≠ none
  others : ∀ name, name ∉ hosts.map Host.name → d'.files ⟨name, "pem"⟩ = d.files ⟨name, "pem"⟩
  key : ∀ host ∈ hosts, d'.files host.keyPath ≠ none
  kept : ∀ host ∈ hosts, Kept host (d.pair "pem" host.name) →
    d'.files host.certPath = d.files host.certPath
  renewed : ∀ host ∈ hosts, ¬ Kept host (d.pair "pem" host.name) → host.name ≠ "ca" ∧
    ∃ k signer, d'.files host.certPath = some (.certificate ⟨k, signer, certAltNames env host⟩)

theorem renewCert_files (h : renewCert env (keyOf "ca") caCert host w = .ok () w') :
    host.name ≠ "ca" ∧
      (∃ k signer, w'.dir.files host.certPath =
        some (.certificate ⟨k, signer, certAltNames env host⟩)) ∧
      ∀ path, path ≠ certConf → path ≠ host.certPath → w'.dir.files path = w.dir.files path := by
  obtain ⟨k, signer, content, request, hName, _, _, hDir, _, _⟩ := renewCert_spec h
  rw [hDir]
  refine ⟨hName, ⟨k, signer, write_files_self _ _ _⟩, fun path hConf hCert => ?_⟩
  rw [write_files_of_ne hCert, write_files_of_ne hCert, write_files_of_ne hConf]

theorem createCert_done (h : createCert env (keyOf "ca") caCert host w = .ok () w') :
    HostsDone env [host] w.dir w'.dir := by
  obtain ⟨_, w₁, hCreated, hCases⟩ := createCert_cases h
  obtain ⟨hPresent, hFrame⟩ := files_of_unlessExists hCreated
  have hKeys : ∀ name, w.dir.files (keyOf name) ≠ none → w₁.dir.files (keyOf name) ≠ none := by
    intro name hThere
    by_cases hName : keyOf name = host.keyPath
    · exact hName ▸ hPresent
    · rwa [hFrame _ hName]
  have hCert : ∀ name, w₁.dir.files ⟨name, "pem"⟩ = w.dir.files ⟨name, "pem"⟩ := fun name =>
    hFrame _ (by simp [keyOf])
  rcases hCases with ⟨hKept, rfl⟩ | ⟨hNotKept, hRenew⟩
  · refine ⟨hKeys, fun name _ => hCert name, ?_, ?_, ?_⟩
    · exact fun other hMem => List.mem_singleton.mp hMem ▸ hPresent
    · exact fun other _ _ => hCert other.name
    · exact fun other hMem hNot => absurd (List.mem_singleton.mp hMem ▸ hKept) hNot
  · obtain ⟨hName, hNew, hOther⟩ := renewCert_files hRenew
    have hKey : ∀ name, w'.dir.files (keyOf name) = w₁.dir.files (keyOf name) := fun name =>
      hOther _ (by simp [keyOf, certConf]) (by simp [keyOf, Host.certPath])
    refine ⟨fun name hThere => ?_, fun name hMem => ?_, ?_, ?_, ?_⟩
    · rw [hKey]
      exact hKeys name hThere
    · rw [hOther _ (by simp [certConf]) (by simpa [Host.certPath] using hMem), hCert]
    · intro other hMem
      obtain rfl := List.mem_singleton.mp hMem
      exact (hKey other.name).symm ▸ hPresent
    · exact fun other hMem hKept => absurd (List.mem_singleton.mp hMem ▸ hKept) hNotKept
    · intro other hMem _
      obtain rfl := List.mem_singleton.mp hMem
      exact ⟨hName, hNew⟩

theorem HostsDone.nil (d : Directory) : HostsDone env [] d d :=
  ⟨fun _ hThere => hThere, fun _ _ => rfl, fun _ hMem => absurd hMem List.not_mem_nil,
    fun _ hMem _ => absurd hMem List.not_mem_nil, fun _ hMem _ => absurd hMem List.not_mem_nil⟩

theorem HostsDone.cons {rest : List Host} (hHost : HostsDone env [host] d d₁)
    (hRest : HostsDone env rest d₁ d') (hNodup : ((host :: rest).map Host.name).Nodup) :
    HostsDone env (host :: rest) d d' := by
  obtain ⟨hNotMem, _⟩ := List.nodup_cons.mp hNodup
  have hFirst : d'.files host.certPath = d₁.files host.certPath := hRest.others host.name hNotMem
  have hLater : ∀ other ∈ rest, d₁.files other.certPath = d.files other.certPath := by
    intro other hMem
    refine hHost.others other.name fun hName => hNotMem ?_
    rw [← show other.name = host.name from List.mem_singleton.mp hName]
    exact List.mem_map_of_mem hMem
  have hPair : ∀ other ∈ rest, Kept other (d₁.pair "pem" other.name) ↔
      Kept other (d.pair "pem" other.name) := by
    intro other hMem
    dsimp only [Kept, Directory.pair]
    rw [show d₁.files ⟨other.name, "pem"⟩ = d.files ⟨other.name, "pem"⟩ from hLater other hMem]
  refine ⟨fun name hThere => hRest.keys name (hHost.keys name hThere), fun name hMem => ?_,
    fun other hMem => ?_, fun other hMem hKept => ?_, fun other hMem hNotKept => ?_⟩
  · rw [List.map_cons, List.mem_cons, not_or] at hMem
    rw [hRest.others name hMem.2]
    exact hHost.others name (by simpa using hMem.1)
  · rcases List.mem_cons.mp hMem with rfl | hMem
    · exact hRest.keys other.name (hHost.key other List.mem_cons_self)
    · exact hRest.key other hMem
  · rcases List.mem_cons.mp hMem with rfl | hMem
    · exact hFirst.trans (hHost.kept other List.mem_cons_self hKept)
    · exact (hRest.kept other hMem ((hPair other hMem).mpr hKept)).trans (hLater other hMem)
  · rcases List.mem_cons.mp hMem with rfl | hMem
    · rw [hFirst]
      exact hHost.renewed other List.mem_cons_self hNotKept
    · exact hRest.renewed other hMem (mt (hPair other hMem).mp hNotKept)

theorem hostsDone_forM {message : Host → String} (hNodup : (hosts.map Host.name).Nodup)
    (h : hosts.forM (fun host => context (message host)
      (createCert env (keyOf "ca") caCert host)) w = .ok () w') :
    HostsDone env hosts w.dir w'.dir := by
  induction hosts generalizing w with
  | nil =>
    cases h
    exact HostsDone.nil _
  | cons host rest ih =>
    obtain ⟨_, w₁, hHost, hRest⟩ := ok_of_bind h
    exact (createCert_done (ok_of_context hHost)).cons (ih (List.nodup_cons.mp hNodup).2 hRest)
      hNodup

/-- What the first steps leave, as far as the hosts are concerned. -/
structure CaDone (d d' : Directory) : Prop where
  key : d'.files (keyOf "ca") ≠ none
  cert : d'.files caCert ≠ none
  san : ∀ name, certSan (d'.files ⟨name, "pem"⟩) = certSan (d.files ⟨name, "pem"⟩)
  others : ∀ name, name ≠ "ca" → d'.files ⟨name, "pem"⟩ = d.files ⟨name, "pem"⟩

theorem createCa_done {certDir : String} (h : createCa env certDir w = .ok () w') :
    CaDone w.dir w'.dir := by
  unfold createCa at h
  obtain ⟨_, w₁, hKey, hCert⟩ := ok_of_bind h
  obtain ⟨hPresent, hFrame⟩ := files_of_unlessExists hKey
  have hSame : ∀ name, w₁.dir.files ⟨name, "pem"⟩ = w.dir.files ⟨name, "pem"⟩ := fun name =>
    hFrame _ (by simp [keyOf])
  rcases ok_of_unlessExists (ok_of_context hCert) with ⟨hThere, rfl⟩ | ⟨hMissing, hCreate⟩
  · exact ⟨hPresent, hThere, fun name => congrArg certSan (hSame name), fun name _ => hSame name⟩
  · obtain ⟨k, _, hDir⟩ := selfSigned_spec (effect_of_attempt (ok_of_context hCreate))
    have hOther : ∀ name, name ≠ "ca" → w'.dir.files ⟨name, "pem"⟩ = w.dir.files ⟨name, "pem"⟩ := by
      intro name hName
      rw [hDir, write_files_of_ne (by simpa [caCert] using hName), hSame]
    have hNew : w'.dir.files caCert = some (.certificate ⟨k, k, []⟩) := by
      rw [hDir, write_files_self]
    refine ⟨?_, hNew ▸ Option.some_ne_none _, fun name => ?_, hOther⟩
    · rw [hDir, write_files_of_ne (by simp [keyOf, caCert])]
      exact hPresent
    · by_cases hName : name = "ca"
      · subst hName
        -- a certificate without names has as many addresses as none at all
        rw [show w'.dir.files ⟨"ca", "pem"⟩ = _ from hNew,
          show w.dir.files ⟨"ca", "pem"⟩ = none from (hSame "ca").symm.trans hMissing]
        rfl
      · rw [hOther name hName]

/-- A new certificate has the addresses of its host. -/
theorem mem_certAltNames {ip : IpAddr}
    (h : host.ipv4Address = some ip ∨ host.ipv6Address = some ip) :
    ip ∈ altIps (certAltNames env host) := by
  have hMem : GeneralName.ip ip ∈ certAltNames env host := by
    rcases h with h | h <;> simp [certAltNames, h]
  exact List.mem_filterMap.mpr ⟨.ip ip, hMem, rfl⟩

theorem hasNewIp_eq_false_iff {san : List IpAddr} : hasNewIp host san = false ↔
    ∀ ip, host.ipv4Address = some ip → host.apiIpAccessList ≠ [] → ip ∈ san := by
  cases hIp : host.ipv4Address with
  | none => simp [hasNewIp, isNewIp, hIp]
  | some ip => by_cases hMem : ip ∈ san <;> simp [hasNewIp, isNewIp, hIp, hMem]

/-- Every host that is open to some address has its addresses in its certificate. -/
def SanCovered (hosts : Hosts) (d : Directory) : Prop :=
  ∀ host ∈ hosts.values, host.apiIpAccessList ≠ [] →
    ∀ ip, host.ipv4Address = some ip ∨ host.ipv6Address = some ip →
      ∃ san, certSan (d.files host.certPath) = some san ∧ ip ∈ san

/-- A run for the same hosts, whenever it succeeds, leaves everything as it is. -/
def NothingReissued (hosts : Hosts) (d : Directory) : Prop :=
  ∀ env certDir w w', w.dir = d → createLightningCerts env certDir hosts w = .ok () w' → w'.dir = d

/-- Before the run: what is kept for a host has its IPv6 address. -/
def Ipv6Kept (hosts : Hosts) (d : Directory) : Prop :=
  ∀ host ∈ hosts.values, host.apiIpAccessList ≠ [] → ∀ ip, host.ipv6Address = some ip →
    (host.name ≠ "ca" ∧ ¬ Kept host (d.pair "pem" host.name)) ∨
      ∃ san, certSan (d.files host.certPath) = some san ∧ ip ∈ san

theorem CaDone.kept_iff (h : CaDone d d') (hName : host.name ≠ "ca") :
    Kept host (d'.pair "pem" host.name) ↔ Kept host (d.pair "pem" host.name) := by
  dsimp only [Kept, Directory.pair]
  rw [h.others host.name hName]

theorem san_covered_iff_of_done {hosts : Hosts} (hCa : CaDone d d₁)
    (hDone : HostsDone env hosts.values d₁ d') : SanCovered hosts d' ↔ Ipv6Kept hosts d := by
  refine forall_congr' fun host => forall_congr' fun hMem => forall_congr' fun hOpen => ?_
  by_cases hKept : Kept host (d₁.pair "pem" host.name)
  · obtain ⟨_, san, hSan, hNoIp⟩ := id hKept
    have hBefore : certSan (d.files host.certPath) = some san := (hCa.san host.name).symm.trans hSan
    have hAfter : certSan (d'.files host.certPath) = some san := by
      rw [hDone.kept host hMem hKept]
      exact hSan
    have hIpv4 : ∀ ip, host.ipv4Address = some ip → ip ∈ san := fun ip hIp =>
      hasNewIp_eq_false_iff.mp hNoIp ip hIp hOpen
    have hStays : ¬ (host.name ≠ "ca" ∧ ¬ Kept host (d.pair "pem" host.name)) := fun hNot =>
      hNot.2 ((hCa.kept_iff hNot.1).mp hKept)
    simp only [hBefore, hAfter, hStays, false_or, Option.some.injEq, exists_eq_left']
    exact ⟨fun h ip hIp => h ip (Or.inr hIp), fun h ip hIp => hIp.elim (hIpv4 ip) (h ip)⟩
  · obtain ⟨hName, k, signer, hFile⟩ := hDone.renewed host hMem hKept
    refine iff_of_true (fun ip hIp => ⟨_, by rw [hFile]; rfl, mem_certAltNames hIp⟩) ?_
    exact fun _ _ => Or.inl ⟨hName, mt (hCa.kept_iff hName).mpr hKept⟩

/-- What makes a run for the hosts do nothing. -/
structure Complete (hosts : List Host) (d : Directory) : Prop where
  caKey : d.files (keyOf "ca") ≠ none
  caCert : d.files caCert ≠ none
  key : ∀ host ∈ hosts, d.files host.keyPath ≠ none
  kept : ∀ host ∈ hosts, Kept host (d.pair "pem" host.name)

theorem complete_of_done (hCa : CaDone d d₁) (hDone : HostsDone env hosts d₁ d') :
    Complete hosts d' := by
  have hKept : ∀ host ∈ hosts, Kept host (d'.pair "pem" host.name) := by
    intro host hMem
    by_cases hKept : Kept host (d₁.pair "pem" host.name)
    · dsimp only [Kept, Directory.pair] at hKept ⊢
      rw [show d'.files ⟨host.name, "pem"⟩ = _ from hDone.kept host hMem hKept]
      exact hKept
    · obtain ⟨_, k, signer, hFile⟩ := hDone.renewed host hMem hKept
      dsimp only [Kept, Directory.pair]
      rw [show d'.files ⟨host.name, "pem"⟩ = _ from hFile]
      exact ⟨Option.some_ne_none _, _, rfl,
        hasNewIp_eq_false_iff.mpr fun ip hIp _ => mem_certAltNames (Or.inl hIp)⟩
  refine ⟨hDone.keys "ca" hCa.key, ?_, hDone.key, hKept⟩
  by_cases hName : "ca" ∈ hosts.map Host.name
  · obtain ⟨host, hMem, hName⟩ := List.mem_map.mp hName
    have hFound := (hKept host hMem).1
    rw [hName] at hFound
    exact hFound
  · exact ne_of_eq_of_ne (hDone.others "ca" hName) hCa.cert

theorem forM_same (hComplete : Complete hosts w.dir) {message : Host → String}
    (h : hosts.forM (fun host => context (message host)
      (createCert env (keyOf "ca") caCert host)) w = .ok () w') : w' = w := by
  obtain ⟨-, -, hKeys, hKept⟩ := hComplete
  induction hosts generalizing w with
  | nil =>
    cases h
    rfl
  | cons host rest ih =>
    obtain ⟨_, w₁, hHost, hRest⟩ := ok_of_bind h
    obtain ⟨_, w₂, hKey, hCases⟩ := createCert_cases (ok_of_context hHost)
    obtain rfl := eq_of_unlessExists hKey (hKeys host List.mem_cons_self)
    rcases hCases with ⟨_, rfl⟩ | ⟨hNotKept, _⟩
    · exact ih hRest (fun other hMem => hKeys other (List.mem_cons_of_mem _ hMem))
        fun other hMem => hKept other (List.mem_cons_of_mem _ hMem)
    · exact absurd (hKept host List.mem_cons_self) hNotKept

theorem Complete.nothingReissued {hosts : Hosts} (hComplete : Complete hosts.values d) :
    NothingReissued hosts d := by
  rintro env certDir w w' rfl h
  obtain ⟨w₁, w₂, hDir, hCa, hHosts⟩ := createLightningCerts_cases h
  obtain ⟨_, w₃, hKey, hCert⟩ := ok_of_bind hCa
  rw [← hDir] at hComplete ⊢
  obtain rfl := eq_of_unlessExists hKey hComplete.caKey
  obtain rfl := eq_of_unlessExists (ok_of_context hCert) hComplete.caCert
  rw [forM_same hComplete hHosts]

/-- A host got an IPv6 address beside the IPv4 address that it had. -/
def dualHosts : Hosts :=
  ⟨[⟨"kld-00", some (.v4 0x01020304), some (.v6 0x20010DB8), "kld-00.example",
    [.v4 0x05060708]⟩], by decide⟩

def withIpv4Cert : World := world
  [(keyOf "ca", .key 0), (caCert, .certificate ⟨0, 0, []⟩), (keyOf "kld-00", .key 1),
    (⟨"kld-00", "pem"⟩, .certificate ⟨1, 0, [.ip (.v4 0x01020304)]⟩)]

/-- The certificates of the first host are there and have its IPv6 address, those of the second
are not. -/
def nextDualHosts : Hosts :=
  ⟨[⟨"kld-00", some (.v4 0x01020304), some (.v6 0x20010DB8), "kld-00.example",
      [.v4 0x05060708]⟩,
    ⟨"kld-01", some (.v4 0x01020305), some (.v6 0x20010DB9), "kld-01.example",
      [.v4 0x05060708]⟩], by decide⟩

def withDualCert : World := world
  [(keyOf "ca", .key 0), (caCert, .certificate ⟨0, 0, []⟩), (keyOf "kld-00", .key 1),
    (⟨"kld-00", "pem"⟩, .certificate ⟨1, 0, [.ip (.v4 0x01020304), .ip (.v6 0x20010DB8)]⟩)]

end Kld.Pki.Lightning
