import Kld.Mgr.LightningCerts

/-!
# Certificates of the database

The pair of the CA, those of two clients and that of every node are kept where both
files are there. A node's pair is created under a common name and then renamed.
-/

namespace Kld.Pki.Cockroachdb

variable (env : Environment)

def caCrt : Path := ⟨"ca", "crt"⟩

def oldKey : Path := ⟨"ca.key", "old"⟩

def crtOf (stem : String) : Path := ⟨stem, "crt"⟩

/-- The key must not be there, and a certificate that is there is overwritten. -/
def caCreated (caKey caCrt : Path) (d : Directory) : Option Directory :=
  match d.files caKey with
  | none => some ((d.generateKey caKey).write caCrt (.certificate ⟨d.nextKey, d.nextKey, []⟩))
  | some _ => none

/-- A new key and its certificate, signed by the key of the CA. -/
def pairCreated (stem : String) (caKey caCrt : Path) (d : Directory) : Option Directory :=
  match d.files caKey, d.files caCrt with
  | some (.key signer), some (.certificate _) =>
    some ((d.generateKey (keyOf stem)).write (crtOf stem) (.certificate ⟨d.nextKey, signer, []⟩))
  | _, _ => none

def createCa (certsDir : String) : Action Unit :=
  unlessBoth (keyOf "ca") caCrt do
    whenExists (keyOf "ca")
      (context ("failed to rename old ca key from " ++ certsDir ++ "/" ++ (keyOf "ca").toText ++
          " to " ++ certsDir ++ "/" ++ oldKey.toText)
        (attempt env.succeeds (rename (keyOf "ca") oldKey)))
    context "failed to create ca key" (attempt env.succeeds (caCreated (keyOf "ca") caCrt))

def clientStem (username : String) : String := "client." ++ username

def createClientCert (username : String) : Action Unit :=
  unlessBoth (keyOf (clientStem username)) (crtOf (clientStem username))
    (context ("failed to create client cert for " ++ username)
      (attempt env.succeeds (pairCreated (clientStem username) (keyOf "ca") caCrt)))

def nodeStem (name : String) : String := name ++ ".node"

def createNodeCert (host : Host) : Action Unit :=
  unlessBoth (keyOf (nodeStem host.name)) (crtOf (nodeStem host.name)) do
    context ("failed to create node cert for " ++ host.name)
      (attempt env.succeeds (pairCreated "node" (keyOf "ca") caCrt))
    context ("failed to rename node cert for " ++ host.name)
      (attempt env.succeeds (rename (crtOf "node") (crtOf (nodeStem host.name))))
    context ("failed to rename node key for " ++ host.name)
      (attempt env.succeeds (rename (keyOf "node") (keyOf (nodeStem host.name))))

def createCockroachdbCerts (certsDir : String) (hosts : Hosts) : Action Unit := do
  createCa env certsDir
  createClientCert env "root"
  createClientCert env "kld"
  hosts.values.forM (createNodeCert env)

/-- Whether a pair is left as it is. -/
def Kept (pair : Pair) : Prop := pair.1 ≠ none ∧ pair.2 ≠ none

def leaves (hosts : Hosts) : List String :=
  [clientStem "root"] ++ ([clientStem "kld"] ++ hosts.values.map fun host => nodeStem host.name)

variable {env} {w w' : World}

theorem caCreated_spec {caKey caCrt : Path} {d d' : Directory}
    (h : caCreated caKey caCrt d = some d') :
    d' = (d.generateKey caKey).write caCrt (.certificate ⟨d.nextKey, d.nextKey, []⟩) := by
  unfold caCreated at h
  split at h
  · exact (Option.some.inj h).symm
  · cases h

theorem pairCreated_spec {stem : String} {caKey caCrt : Path} {d d' : Directory}
    (h : pairCreated stem caKey caCrt d = some d') :
    ∃ signer, d.files caKey = some (.key signer) ∧
      d' = (d.generateKey (keyOf stem)).write (crtOf stem)
        (.certificate ⟨d.nextKey, signer, []⟩) := by
  unfold pairCreated at h
  split at h
  · rename_i signer c hKey _
    exact ⟨signer, hKey, (Option.some.inj h).symm⟩
  · cases h

/-- A pair of the next key for the stem, signed by the given key. -/
structure PairWritten (stem : String) (signer : Key) (d d' : Directory) : Prop where
  fresh : d'.Fresh
  pair_eq : d'.pair "crt" stem =
    (some (.key d.nextKey), some (.certificate ⟨d.nextKey, signer, []⟩))
  frame : ∀ name, name ≠ stem → d'.pair "crt" name = d.pair "crt" name

theorem pairWritten (stem : String) {signer : Key} {d : Directory} (hFresh : d.Fresh)
    (hSigner : signer ≤ d.nextKey) :
    PairWritten stem signer d ((d.generateKey (keyOf stem)).write (crtOf stem)
      (.certificate ⟨d.nextKey, signer, []⟩)) := by
  refine ⟨?_, ?_, fun name hName => Prod.ext ?_ ?_⟩
  · refine (hFresh.generateKey (keyOf stem)).write (crtOf stem) fun key hKey => ?_
    rcases List.mem_cons.mp hKey with rfl | hKey
    · exact Nat.lt_succ_self d.nextKey
    · rw [List.mem_singleton.mp hKey]
      exact Nat.lt_succ_of_le hSigner
  · rw [Directory.pair, write_files_of_ne (by simp [keyOf, crtOf]), generateKey_files_self]
    exact congrArg _ (write_files_self (crtOf stem) _ _)
  · exact (write_files_of_ne (by simp [keyOf, crtOf]) _ _).trans
      (generateKey_files_of_ne (keyOf_ne hName) d)
  · exact (write_files_of_ne (by simpa [crtOf] using hName) _ _).trans
      (generateKey_files_of_ne (by simp [keyOf]) d)

theorem pairCreated_written {stem : String} {d d' : Directory} (hFresh : d.Fresh)
    (h : pairCreated stem (keyOf "ca") caCrt d = some d') :
    ∃ signer, d.files (keyOf "ca") = some (.key signer) ∧ PairWritten stem signer d d' := by
  obtain ⟨signer, hSigner, rfl⟩ := pairCreated_spec h
  have hLt := hFresh _ _ hSigner signer (List.mem_singleton_self signer)
  exact ⟨signer, hSigner, pairWritten stem hFresh (Nat.le_of_lt hLt)⟩

theorem PairWritten.issued {stem : String} {signer : Key} {d d' : Directory}
    (h : PairWritten stem signer d d') : Issued signer (d'.pair "crt" stem) := by
  rw [h.pair_eq]
  exact ⟨⟨d.nextKey, signer, []⟩, rfl, rfl⟩

theorem createClientCert_renews {username : String} {scratch : List String}
    (hName : "ca" ≠ clientStem username) (hFresh : w.dir.Fresh)
    (h : createClientCert env username w = .ok () w') :
    Renews "crt" id (fun _ => Kept) scratch [clientStem username] w.dir w'.dir := by
  rcases ok_of_unlessBoth h with ⟨hKept, rfl⟩ | ⟨hNew, hCreate⟩
  · exact Renews.of_kept hFresh hKept
  · obtain ⟨signer, hSigner, hWritten⟩ :=
      pairCreated_written hFresh (effect_of_attempt (ok_of_context hCreate))
    exact Renews.of_issued hWritten.fresh (hWritten.frame "ca" hName)
      (fun name hOther _ => hWritten.frame name hOther) hSigner hWritten.issued hNew

theorem renamed_pair {source target : String} {d d₁ d₂ : Directory}
    (hCrt : rename (crtOf source) (crtOf target) d = some d₁)
    (hKey : rename (keyOf source) (keyOf target) d₁ = some d₂) :
    d₂.pair "crt" target = d.pair "crt" source ∧
      ∀ name, name ≠ source → name ≠ target → d₂.pair "crt" name = d.pair "crt" name := by
  obtain ⟨hCrtTarget, hCrtOther⟩ := rename_files hCrt
  obtain ⟨hKeyTarget, hKeyOther⟩ := rename_files hKey
  have hCrts : ∀ name, d₂.files (crtOf name) = d₁.files (crtOf name) := fun name =>
    hKeyOther _ (by simp [crtOf, keyOf]) (by simp [crtOf, keyOf])
  refine ⟨Prod.ext ?_ ?_, fun name hSource hTarget => Prod.ext ?_ ?_⟩
  · exact hKeyTarget.trans (hCrtOther _ (by simp [crtOf, keyOf]) (by simp [crtOf, keyOf]))
  · exact (hCrts target).trans hCrtTarget
  · exact (hKeyOther _ (keyOf_ne hSource) (keyOf_ne hTarget)).trans
      (hCrtOther _ (by simp [crtOf, keyOf]) (by simp [crtOf, keyOf]))
  · exact (hCrts name).trans
      (hCrtOther _ (by simpa [crtOf] using hSource) (by simpa [crtOf] using hTarget))

theorem nodeStem_ne {name other : String} (h : ¬ ".node".toList <:+ other.toList) :
    nodeStem name ≠ other := by
  rintro rfl
  exact h ⟨name.toList, String.toList_append.symm⟩

theorem createNodeCert_renews {host : Host} (hFresh : w.dir.Fresh)
    (h : createNodeCert env host w = .ok () w') :
    Renews "crt" (fun host => nodeStem host.name) (fun _ => Kept) ["node"] [host] w.dir w'.dir := by
  rcases ok_of_unlessBoth h with ⟨hKept, rfl⟩ | ⟨hNew, h⟩
  · exact Renews.of_kept hFresh hKept
  · obtain ⟨_, w₁, hCreate, h⟩ := ok_of_bind h
    obtain ⟨_, w₂, hCrt, hKey⟩ := ok_of_bind h
    obtain ⟨signer, hSigner, hWritten⟩ :=
      pairCreated_written hFresh (effect_of_attempt (ok_of_context hCreate))
    have hCrt := effect_of_attempt (ok_of_context hCrt)
    have hKey := effect_of_attempt (ok_of_context hKey)
    obtain ⟨hPair, hOthers⟩ := renamed_pair hCrt hKey
    have hFrame : ∀ name, name ≠ "node" → name ≠ nodeStem host.name →
        w'.dir.pair "crt" name = w.dir.pair "crt" name := fun name hName hOther =>
      (hOthers name hName hOther).trans (hWritten.frame name hName)
    exact Renews.of_issued ((hWritten.fresh.rename hCrt).rename hKey)
      (hFrame "ca" (by decide) (nodeStem_ne (by decide)).symm)
      (fun name hOther hScratch => hFrame name (by simpa using hScratch) hOther) hSigner
      (hPair ▸ hWritten.issued) hNew

/-- What the first step leaves: the pair of the CA as it was, or a new one. -/
inductive CaEnsured (d d' : Directory) : Prop where
  | kept (hKept : Kept (d.pair "crt" "ca")) (hDir : d' = d)
  | created (hNew : ¬ Kept (d.pair "crt" "ca")) (hFresh : d'.Fresh)
      (hPair : d'.pair "crt" "ca" =
        (some (.key d.nextKey), some (.certificate ⟨d.nextKey, d.nextKey, []⟩)))
      (hFrame : ∀ name, name ≠ "ca" → d'.pair "crt" name = d.pair "crt" name)

theorem crtOf_ca : crtOf "ca" = caCrt := rfl

theorem createCa_spec {certsDir : String} (hFresh : w.dir.Fresh)
    (h : createCa env certsDir w = .ok () w') : CaEnsured w.dir w'.dir := by
  rcases ok_of_unlessBoth h with ⟨hKept, rfl⟩ | ⟨hNew, h⟩
  · exact .kept hKept rfl
  · obtain ⟨_, w₁, hRename, hCreate⟩ := ok_of_bind h
    have hCreate := caCreated_spec (effect_of_attempt (ok_of_context hCreate))
    have hRenamed : w₁.dir.Fresh ∧ w₁.dir.nextKey = w.dir.nextKey ∧
        ∀ name, name ≠ "ca" → w₁.dir.pair "crt" name = w.dir.pair "crt" name := by
      rcases ok_of_whenExists hRename with ⟨_, hRename⟩ | ⟨_, rfl⟩
      · have hRename := effect_of_attempt (ok_of_context hRename)
        obtain ⟨_, hOther⟩ := rename_files hRename
        refine ⟨hFresh.rename hRename, ?_, fun name hName => Prod.ext ?_ ?_⟩
        · obtain ⟨content, _, hDir⟩ := Option.map_eq_some_iff.mp hRename
          rw [← hDir]
          rfl
        · exact hOther _ (keyOf_ne hName) (by simp [keyOf, oldKey])
        · exact hOther _ (by simp [keyOf]) (by simp [oldKey])
      · exact ⟨hFresh, rfl, fun _ _ => rfl⟩
    obtain ⟨hFresh₁, hNext, hFrame⟩ := hRenamed
    have hWritten := pairWritten "ca" hFresh₁ (Nat.le_refl w₁.dir.nextKey)
    rw [crtOf_ca, ← hCreate, hNext] at hWritten
    refine .created hNew hWritten.fresh ?_ ?_
    · rw [hWritten.pair_eq, hNext]
    · exact fun name hName => (hWritten.frame name hName).trans (hFrame name hName)

/-- What is there before: a complete pair of the CA matches, and each other complete pair matches
and is signed by the key of a complete pair of the CA. -/
structure KeptConsistent (hosts : Hosts) (d : Directory) : Prop where
  ca : Kept (d.pair "crt" "ca") → ∃ ca, CaOf ca (d.pair "crt" "ca")
  leaves : ∀ leaf ∈ leaves hosts, Kept (d.pair "crt" leaf) →
    Kept (d.pair "crt" "ca") ∧
      ∃ ca, d.files (keyOf "ca") = some (.key ca) ∧ Issued ca (d.pair "crt" leaf)

theorem leaves_ne {hosts : Hosts} {leaf other : String}
    (hClients : other ∉ [clientStem "root", clientStem "kld"])
    (hNode : ¬ ".node".toList <:+ other.toList) (h : leaf ∈ leaves hosts) : leaf ≠ other := by
  rcases List.mem_append.mp (show leaf ∈ [clientStem "root", clientStem "kld"] ++
    hosts.values.map fun host => nodeStem host.name from h) with h | h
  · exact ne_of_mem_of_not_mem h hClients
  · obtain ⟨host, _, rfl⟩ := List.mem_map.mp h
    exact nodeStem_ne hNode

theorem CaEnsured.fresh {d d' : Directory} (h : CaEnsured d d') (hFresh : d.Fresh) : d'.Fresh := by
  cases h with
  | kept _ hDir => rwa [hDir]
  | created _ hFresh _ _ => exact hFresh

theorem CaEnsured.hasCa {d d' : Directory} (h : CaEnsured d d') : d'.HasCa "crt" := by
  cases h with
  | kept hKept hDir =>
    rw [hDir]
    exact hKept
  | created _ _ hPair _ =>
    exact ⟨ne_of_eq_of_ne (congrArg Prod.fst hPair) (Option.some_ne_none _),
      ne_of_eq_of_ne (congrArg Prod.snd hPair) (Option.some_ne_none _)⟩

theorem CaEnsured.consistent_iff {d d' : Directory} (h : CaEnsured d d') (hFresh : d.Fresh)
    (hosts : Hosts) :
    (∃ ca, CaOf ca (d'.pair "crt" "ca") ∧ ∀ leaf ∈ leaves hosts,
        Kept (d'.pair "crt" leaf) → Issued ca (d'.pair "crt" leaf)) ↔
      KeptConsistent hosts d := by
  cases h with
  | kept hCaKept hDir =>
    subst hDir
    refine exists_caOf_iff.trans ?_
    constructor
    · rintro ⟨hCa, hLeaves⟩
      exact ⟨fun _ => hCa, fun leaf hLeaf hKept => ⟨hCaKept, hLeaves leaf hLeaf hKept⟩⟩
    · rintro ⟨hCa, hLeaves⟩
      exact ⟨hCa hCaKept, fun leaf hLeaf hKept => (hLeaves leaf hLeaf hKept).2⟩
  | created hNew _ hPair hFrame =>
    have hCa : CaOf d.nextKey (d'.pair "crt" "ca") := by
      rw [hPair]
      exact ⟨⟨d.nextKey, d.nextKey, []⟩, rfl, rfl⟩
    -- A certificate that was there is not signed by the new key.
    constructor
    · rintro ⟨ca, hCaOf, hLeaves⟩
      have hKey := hCa.key_eq.symm.trans hCaOf.key_eq
      obtain rfl := Content.key.inj (Option.some.inj hKey)
      refine ⟨fun hKept => absurd hKept hNew, fun leaf hLeaf hKept => ?_⟩
      have hIssued := hLeaves leaf hLeaf
      rw [hFrame leaf (leaves_ne (by decide) (by decide) hLeaf)] at hIssued
      exact absurd ((hIssued hKept).signer_lt hFresh) (Nat.lt_irrefl _)
    · rintro ⟨_, hLeaves⟩
      refine ⟨d.nextKey, hCa, fun leaf hLeaf hKept => ?_⟩
      rw [hFrame leaf (leaves_ne (by decide) (by decide) hLeaf)] at hKept
      exact absurd (hLeaves leaf hLeaf hKept).1 hNew

theorem nodeStem_injective : Function.Injective nodeStem := by
  intro name name' h
  apply String.toList_injective
  have hChars := congrArg String.toList h
  rw [nodeStem, nodeStem, String.toList_append, String.toList_append] at hChars
  exact List.append_cancel_right hChars

theorem clientStem_notMem {hosts : Hosts} {username : String}
    (h : ¬ ".node".toList <:+ (clientStem username).toList) :
    clientStem username ∉ hosts.values.map fun host => nodeStem host.name := by
  intro hMem
  obtain ⟨host, _, hStem⟩ := List.mem_map.mp hMem
  exact nodeStem_ne h hStem

theorem createCockroachdbCerts_spec {certsDir : String} {hosts : Hosts} (hFresh : w.dir.Fresh)
    (h : createCockroachdbCerts env certsDir hosts w = .ok () w') :
    ∃ d, CaEnsured w.dir d ∧
      Renews "crt" id (fun _ => Kept) ["node"] (leaves hosts) d w'.dir := by
  unfold createCockroachdbCerts at h
  obtain ⟨_, w₁, hCa, h⟩ := ok_of_bind h
  obtain ⟨_, w₂, hRoot, h⟩ := ok_of_bind h
  obtain ⟨_, w₃, hKld, hHosts⟩ := ok_of_bind h
  have hEnsured := createCa_spec hFresh hCa
  have hRoot : Renews "crt" id (fun _ => Kept) ["node"] [clientStem "root"] w₁.dir w₂.dir :=
    createClientCert_renews (by decide) (hEnsured.fresh hFresh) hRoot
  have hKld : Renews "crt" id (fun _ => Kept) ["node"] [clientStem "kld"] w₂.dir w₃.dir :=
    createClientCert_renews (by decide) hRoot.fresh hKld
  have hNodup : (hosts.values.map fun host => nodeStem host.name).Nodup := by
    have hNames := hosts.names_nodup.map nodeStem_injective
    rwa [List.map_map] at hNames
  have hNodes : Renews "crt" (fun host : Host => nodeStem host.name) (fun _ => Kept) ["node"]
      hosts.values w₃.dir w'.dir := renews_forM
    (fun host w w' hFresh _ h => createNodeCert_renews hFresh h) hNodup
    (fun host _ => by simpa using nodeStem_ne (by decide)) hKld.fresh
    (hKld.hasCa (hRoot.hasCa hEnsured.hasCa)) hHosts
  have hNodes : Renews "crt" id (fun _ => Kept) ["node"]
      (hosts.values.map fun host => nodeStem host.name) w₃.dir w'.dir := Renews.map hNodes
  have hScratch : ∀ leaf ∈ leaves hosts, leaf ∉ ["node"] := by
    intro leaf hLeaf
    rw [List.mem_singleton]
    exact leaves_ne (by decide) (by decide) hLeaf
  have hRenews : Renews "crt" id (fun _ => Kept) ["node"] (leaves hosts) w₁.dir w'.dir := by
    refine hRoot.append (hKld.append hNodes ?_ ?_) ?_ hScratch
    · intro name hName hNode
      rw [List.map_id, List.mem_singleton] at hName
      rw [List.map_id, hName] at hNode
      exact clientStem_notMem (by decide) hNode
    · exact fun leaf hLeaf => hScratch leaf (List.mem_cons_of_mem _ hLeaf)
    · intro name hName hOther
      rw [List.map_id, List.mem_singleton] at hName
      rw [List.map_id, hName] at hOther
      rcases List.mem_cons.mp hOther with hSame | hNode
      · exact absurd hSame (by decide)
      · exact clientStem_notMem (by decide) hNode
  exact ⟨w₁.dir, hEnsured, hRenews⟩

theorem createCockroachdbCerts_consistent_iff {certsDir : String} {hosts : Hosts}
    (hFresh : w.dir.Fresh) (h : createCockroachdbCerts env certsDir hosts w = .ok () w') :
    Consistent (w'.dir.pair "crt" "ca")
        ((leaves hosts).map fun leaf => w'.dir.pair "crt" leaf) ↔
      KeptConsistent hosts w.dir := by
  obtain ⟨d, hEnsured, hRenews⟩ := createCockroachdbCerts_spec hFresh h
  exact (consistent_iff_of_renews hRenews).trans (hEnsured.consistent_iff hFresh hosts)

end Kld.Pki.Cockroachdb
