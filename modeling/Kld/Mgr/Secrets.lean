import Kld.Lib.FileTree
import Kld.Mgr.Config
import Kld.Types

/-!
# What is copied to a host

The secrets of a host are laid out as the tree of files that is copied over its root. They
are read from one directory, which holds those of all the hosts.
-/

namespace Kld.Secrets

open Config Fallible

abbrev Tree := FileTree.Tree String UInt8 Nat

structure Secret where
  dest : String
  content : Bytes
  mode : Nat
deriving DecidableEq

/-- The names of a path, without the empty ones and those of the same directory. -/
def components (path : String) : List String :=
  (Utf8.split '/' path).filter fun name => name ≠ "" ∧ name ≠ "."

def Secret.entry (secret : Secret) : FileTree.Entry String UInt8 Nat :=
  ⟨components secret.dest, secret.content, secret.mode⟩

/-- What the system lets be done: the temporary directory, where one is made, and for the place of
each secret whether its directories are made and its file is opened and written. -/
structure TempDir where
  path : Option String
  creates : String → Bool
  opens : String → Bool
  writes : String → Bool

/-- The tree that is prepared, and where. -/
structure Prepared where
  path : String
  tree : Tree

section New

variable (tmp : TempDir) (root : String)

def shown (path : List String) : String := "/".intercalate (root :: path)

def within (allowed : Bool) (tree : Option Tree) (message : String) : Result Tree :=
  match tree with
  | some tree => if allowed then .ok tree else .error [message]
  | none => .error [message]

def writeSecret (t : Tree) (secret : Secret) : Result Tree := do
  let dir := secret.entry.path.dropLast
  let path := shown root secret.entry.path
  let t ← within (tmp.creates secret.dest) (FileTree.createDirAll dir t)
    ("cannot create " ++ shown root dir)
  let t ← within (tmp.opens secret.dest) (FileTree.openWrite secret.entry t)
    ("Cannot open secret " ++ path ++ " for writing.")
  within (tmp.writes secret.dest) (some t) ("cannot write secret to temporary location at " ++ path)

def new (secrets : List Secret) : Result Prepared :=
  match tmp.path with
  | none => .error ["cannot create temporary directory"]
  | some root => do
    let tree ← secrets.foldlM (writeSecret tmp root) FileTree.root
    return ⟨root, tree⟩

/-- The secret of a place is written, as far as the system is concerned. -/
def TempDir.Takes (dest : String) : Prop :=
  tmp.creates dest = true ∧ tmp.opens dest = true ∧ tmp.writes dest = true

instance takesDecidable (dest : String) : Decidable (tmp.Takes dest) :=
  inferInstanceAs (Decidable (_ ∧ _ ∧ _))

end New

/-- The secret directory: its files by the names that are joined, and whether the path of the
mnemonic is found. -/
structure SecretsDir where
  read : List String → Option Bytes
  mnemonicExists : Bool

/-- A file that is read, with what is said if that fails, or a text. -/
inductive Source where
  | file (path : List String) (message : String)
  | text (content : String)
deriving DecidableEq

structure Planned where
  dest : String
  source : Source
  mode : Nat
deriving DecidableEq

def Planned.read (dir : SecretsDir) (planned : Planned) : Result Secret :=
  match planned.source with
  | .file path message =>
    match dir.read path with
    | some content => .ok ⟨planned.dest, content, planned.mode⟩
    | none => .error [message]
  | .text content => .ok ⟨planned.dest, Utf8.encode content, planned.mode⟩

def kldSecrets (name : String) : List Planned :=
  [⟨"/var/lib/secrets/kld/ca.pem", .file ["lightning", "ca.pem"] "failed to read ca.pem", 0o600⟩,
    ⟨"/var/lib/secrets/kld/kld.pem", .file ["lightning", name ++ ".pem"] "failed to read kld.pem",
      0o600⟩,
    ⟨"/var/lib/secrets/kld/kld.key", .file ["lightning", name ++ ".key"] "failed to read kld.key",
      0o600⟩,
    ⟨"/var/lib/secrets/kld/client.kld.crt",
      .file ["cockroachdb", "client.kld.crt"] "failed to read client.kld.crt", 0o600⟩,
    ⟨"/var/lib/secrets/kld/client.kld.key",
      .file ["cockroachdb", "client.kld.key"] "failed to read client.kld.key", 0o600⟩]

def cockroachdbSecrets (name : String) : List Planned :=
  [⟨"/var/lib/secrets/cockroachdb/ca.crt", .file ["cockroachdb", "ca.crt"] "failed to read ca.crt",
      0o600⟩,
    ⟨"/var/lib/secrets/cockroachdb/client.root.crt",
      .file ["cockroachdb", "client.root.crt"] "failed to read client.root.crt", 0o600⟩,
    ⟨"/var/lib/secrets/cockroachdb/client.root.key",
      .file ["cockroachdb", "client.root.key"] "failed to read client.root.key", 0o600⟩,
    ⟨"/var/lib/secrets/cockroachdb/node.crt",
      .file ["cockroachdb", name ++ ".node.crt"] "failed to read node.crt", 0o600⟩,
    ⟨"/var/lib/secrets/cockroachdb/node.key",
      .file ["cockroachdb", name ++ ".node.key"] "failed to read node.key", 0o600⟩]

def accessSecrets (name accessTokens : String) : List Planned :=
  [⟨"/root/.ssh/id_ed25519", .file ["ssh", "id_ed25519"] "failed to read deploy key", 0o600⟩,
    ⟨"/root/.ssh/id_ed25519.pub", .file ["ssh", "id_ed25519.pub"] "failed to read deploy pub key",
      0o644⟩,
    ⟨"/var/lib/secrets/sshd_key", .file ["sshd", name] "failed to read sshd server key", 0o600⟩,
    ⟨"/var/lib/secrets/access-tokens", .text ("ACCESS_TOKENS=" ++ accessTokens), 0o600⟩,
    ⟨"/var/lib/secrets/disk_encryption_key",
      .file ["disk_encryption_key"] "failed to read disk_encrypted_key", 0o600⟩]

def mnemonicSecret : Planned :=
  ⟨"/var/lib/secrets/mnemonic", .file ["mnemonic"] "failed to read mnemonic", 0o600⟩

def telegrafSecret (telegraf : TelegrafConfig) : Planned :=
  ⟨"/var/lib/secrets/telegraf",
    .text ("MONITORING_URL=" ++ telegraf.url.getD
      "https://mimir.monitoring-00-cluster.kuutamo.computer/api/v1/push" ++
      "\nMONITORING_USERNAME=" ++ telegraf.username ++
      "\nMONITORING_PASSWORD=" ++ telegraf.password), 0o600⟩

def promtailSecret (client : String) : Planned :=
  ⟨"/var/lib/secrets/promtail", .text ("CLIENT_URL=" ++ client), 0o600⟩

def monitoringSecrets : Option KmonitorConfig → List Planned
  | none => []
  | some config => (config.telegraf.map telegrafSecret).toList ++
      (config.promtail.map promtailSecret).toList

def planned (host : Host) (mnemonicExists : Bool) (accessTokens : String) : List Planned :=
  kldSecrets host.name ++ cockroachdbSecrets host.name ++ accessSecrets host.name accessTokens ++
    (if mnemonicExists then [mnemonicSecret] else []) ++ monitoringSecrets host.kmonitorConfig

def secrets (host : Host) (dir : SecretsDir) (tmp : TempDir) (accessTokens : String) :
    Result Prepared := do
  let secretFiles ← (planned host dir.mnemonicExists accessTokens).mapM (Planned.read dir)
  context "failed to prepare uploading secrets" (new tmp secretFiles)

/-- Every place of the host that a secret may have. -/
def places : List String :=
  ((kldSecrets "" ++ cockroachdbSecrets "" ++ accessSecrets "" "" ++ [mnemonicSecret]).map
    Planned.dest) ++ ["/var/lib/secrets/telegraf", "/var/lib/secrets/promtail"]

theorem components_places : places.map components =
    [["var", "lib", "secrets", "kld", "ca.pem"], ["var", "lib", "secrets", "kld", "kld.pem"],
      ["var", "lib", "secrets", "kld", "kld.key"],
      ["var", "lib", "secrets", "kld", "client.kld.crt"],
      ["var", "lib", "secrets", "kld", "client.kld.key"],
      ["var", "lib", "secrets", "cockroachdb", "ca.crt"],
      ["var", "lib", "secrets", "cockroachdb", "client.root.crt"],
      ["var", "lib", "secrets", "cockroachdb", "client.root.key"],
      ["var", "lib", "secrets", "cockroachdb", "node.crt"],
      ["var", "lib", "secrets", "cockroachdb", "node.key"], ["root", ".ssh", "id_ed25519"],
      ["root", ".ssh", "id_ed25519.pub"], ["var", "lib", "secrets", "sshd_key"],
      ["var", "lib", "secrets", "access-tokens"], ["var", "lib", "secrets", "disk_encryption_key"],
      ["var", "lib", "secrets", "mnemonic"], ["var", "lib", "secrets", "telegraf"],
      ["var", "lib", "secrets", "promtail"]] := by
  decide +kernel

theorem places_distinct : (places.map components).Nodup := by
  rw [components_places]
  decide +kernel

theorem places_compatible :
    ∀ p ∈ places.map components, p ≠ [] ∧ ∀ q ∈ places.map components, p <+: q → p = q := by
  rw [components_places]
  decide +kernel

def Planned.content (dir : SecretsDir) (planned : Planned) : Option Bytes :=
  match planned.source with
  | .file path _ => dir.read path
  | .text content => some (Utf8.encode content)

/-- The private files that belong to others: to the authorities, to the users of the macaroons and
to the hosts of other names. The key of the authority that is in the directory of lightning has the
name that the key of a host named `ca` would have. -/
def Foreign (name : String) (path : List String) : Prop :=
  path = ["cockroachdb", "ca.key"] ∨
    path ∈ [["access.macaroon"], ["admin.macaroon"], ["readonly.macaroon"]] ∨
    ∃ other, other ≠ name ∧
      path ∈ [["lightning", other ++ ".key"], ["cockroachdb", other ++ ".node.key"],
        ["sshd", other]]

variable {host : Host} {dir : SecretsDir} {tmp : TempDir} {accessTokens : String}

theorem Planned.read_eq_ok_iff {planned : Planned} {secret : Secret} :
    planned.read dir = .ok secret ↔
      ∃ content, planned.content dir = some content ∧
        secret = ⟨planned.dest, content, planned.mode⟩ := by
  unfold Planned.read Planned.content
  split
  · split
    · rename_i content hRead
      rw [hRead]
      simp [eq_comm]
    · rename_i hRead
      rw [hRead]
      simp
  · simp [eq_comm]

theorem Planned.error_of_read {planned : Planned} {e : List String}
    (h : planned.read dir = .error e) :
    ∃ path message, planned.source = .file path message ∧ dir.read path = none ∧ e = [message] := by
  unfold Planned.read at h
  split at h
  · rename_i path message hSource
    split at h
    · cases h
    · rename_i hNone
      cases h
      exact ⟨path, message, hSource, hNone, rfl⟩
  · cases h

theorem dest_sublist (host : Host) (mnemonicExists : Bool) (accessTokens : String) :
    ((planned host mnemonicExists accessTokens).map Planned.dest).Sublist places := by
  have hMnemonic : ((if mnemonicExists then [mnemonicSecret] else []).map Planned.dest).Sublist
      ["/var/lib/secrets/mnemonic"] := by
    cases mnemonicExists
    · exact List.nil_sublist _
    · exact List.Sublist.refl _
  have hMonitoring : ((monitoringSecrets host.kmonitorConfig).map Planned.dest).Sublist
      ["/var/lib/secrets/telegraf", "/var/lib/secrets/promtail"] := by
    cases host.kmonitorConfig with
    | none => exact List.nil_sublist _
    | some config =>
      obtain ⟨telegraf, promtail⟩ := config
      cases telegraf <;> cases promtail
      · exact List.nil_sublist _
      · exact List.Sublist.cons _ (List.Sublist.refl _)
      · exact List.Sublist.cons_cons _ (List.nil_sublist _)
      · exact List.Sublist.refl _
  unfold planned
  rw [List.map_append, List.map_append]
  exact ((List.Sublist.refl _).append hMnemonic).append hMonitoring

theorem dest_of_mapM {plan : List Planned} {secretFiles : List Secret}
    (h : plan.mapM (Planned.read dir) = .ok secretFiles) :
    secretFiles.map Secret.dest = plan.map Planned.dest := by
  have hEach := forall₂_of_mapM (R := fun planned secret => secret.dest = planned.dest) h
    fun planned _ secret hRead => by
      obtain ⟨content, _, rfl⟩ := Planned.read_eq_ok_iff.mp hRead
      rfl
  have hSame := List.forall₂_map_left_iff.mpr (List.forall₂_map_right_iff.mpr hEach.flip)
  rwa [List.forall₂_eq_eq_eq] at hSame

theorem path_entries (secretFiles : List Secret) :
    (secretFiles.map Secret.entry).map FileTree.Entry.path =
      (secretFiles.map Secret.dest).map components := by
  rw [List.map_map, List.map_map]
  rfl

theorem distinct_of_sublist {secretFiles : List Secret}
    (h : (secretFiles.map Secret.dest).Sublist places) :
    ((secretFiles.map Secret.entry).map FileTree.Entry.path).Nodup := by
  rw [path_entries]
  exact places_distinct.sublist (h.map components)

theorem compatible_of_sublist {secretFiles : List Secret}
    (h : (secretFiles.map Secret.dest).Sublist places) :
    FileTree.Compatible (secretFiles.map Secret.entry) := by
  have hPlace : ∀ e ∈ secretFiles.map Secret.entry, e.path ∈ places.map components := by
    intro e hMem
    have hPath := List.mem_map_of_mem (f := FileTree.Entry.path) hMem
    rw [path_entries] at hPath
    exact (h.map components).subset hPath
  intro e hMem
  obtain ⟨hRoot, hAlone⟩ := places_compatible e.path (hPlace e hMem)
  exact ⟨hRoot, fun e' hMem' => hAlone e'.path (hPlace e' hMem')⟩

section Writing

variable {root : String} {t t' : Tree}

theorem within_eq_ok_iff {allowed : Bool} {tree : Option Tree} {message : String} :
    within allowed tree message = .ok t ↔ tree = some t ∧ allowed = true := by
  unfold within
  cases tree with
  | none => simp
  | some tree => cases allowed <;> simp

theorem writeSecret_eq_ok_iff {secret : Secret} :
    writeSecret tmp root t secret = .ok t' ↔
      FileTree.write t secret.entry = some t' ∧ tmp.Takes secret.dest := by
  unfold writeSecret FileTree.write TempDir.Takes
  constructor
  · intro h
    obtain ⟨t₁, hCreate, h⟩ := ok_of_bind h
    obtain ⟨t₂, hOpen, hWrite⟩ := ok_of_bind h
    obtain ⟨hDirs, hCreates⟩ := within_eq_ok_iff.mp hCreate
    obtain ⟨hFile, hOpens⟩ := within_eq_ok_iff.mp hOpen
    obtain ⟨hSame, hWrites⟩ := within_eq_ok_iff.mp hWrite
    obtain rfl := Option.some.inj hSame
    rw [hDirs, Option.bind_some]
    exact ⟨hFile, hCreates, hOpens, hWrites⟩
  · rintro ⟨hWrite, hCreates, hOpens, hWrites⟩
    obtain ⟨t₁, hDirs, hFile⟩ := Option.bind_eq_some_iff.mp hWrite
    dsimp only
    rw [within_eq_ok_iff.mpr ⟨hDirs, hCreates⟩]
    change (within _ (FileTree.openWrite secret.entry t₁) _ >>= _) = _
    rw [within_eq_ok_iff.mpr ⟨hFile, hOpens⟩]
    exact within_eq_ok_iff.mpr ⟨rfl, hWrites⟩

/-- All secrets are written exactly if the tree takes them and the system lets them be written. -/
theorem foldlM_writeSecret {secretFiles : List Secret} :
    secretFiles.foldlM (writeSecret tmp root) t = .ok t' ↔
      (secretFiles.map Secret.entry).foldlM FileTree.write t = some t' ∧
        ∀ secret ∈ secretFiles, tmp.Takes secret.dest := by
  induction secretFiles generalizing t with
  | nil =>
    rw [List.map_nil, List.foldlM_nil, List.foldlM_nil]
    simp only [List.not_mem_nil, false_implies, implies_true, and_true]
    exact ⟨fun h => congrArg some (Except.ok.inj h), fun h => congrArg _ (Option.some.inj h)⟩
  | cons secret secretFiles ih =>
    rw [List.map_cons, List.foldlM_cons, List.foldlM_cons, List.forall_mem_cons]
    constructor
    · intro h
      obtain ⟨t₁, hHead, hTail⟩ := ok_of_bind h
      obtain ⟨hWrite, hTakes⟩ := writeSecret_eq_ok_iff.mp hHead
      obtain ⟨hRest, hAll⟩ := ih.mp hTail
      exact ⟨Option.bind_eq_some_iff.mpr ⟨t₁, hWrite, hRest⟩, hTakes, hAll⟩
    · rintro ⟨hWrite, hTakes, hAll⟩
      obtain ⟨t₁, hHead, hRest⟩ := Option.bind_eq_some_iff.mp hWrite
      rw [writeSecret_eq_ok_iff.mpr ⟨hHead, hTakes⟩]
      exact ih.mpr ⟨hRest, hAll⟩

theorem new_eq_ok_iff {secretFiles : List Secret} {prepared : Prepared} :
    new tmp secretFiles = .ok prepared ↔ tmp.path = some prepared.path ∧
      FileTree.writeAll (secretFiles.map Secret.entry) = some prepared.tree ∧
        ∀ secret ∈ secretFiles, tmp.Takes secret.dest := by
  unfold new FileTree.writeAll
  constructor
  · intro h
    split at h
    · cases h
    · rename_i root hPath
      obtain ⟨tree, hFold, h⟩ := ok_of_bind h
      cases h
      exact ⟨hPath, foldlM_writeSecret.mp hFold⟩
  · rintro ⟨hPath, hWritten⟩
    rw [hPath]
    dsimp only
    rw [foldlM_writeSecret.mpr hWritten]
    rfl

end Writing

theorem context_eq_ok_iff {α : Type} {message : String} {result : Result α} {a : α} :
    context message result = .ok a ↔ result = .ok a := by
  cases result with
  | error e => exact iff_of_false nofun nofun
  | ok a' => exact Iff.rfl

theorem secrets_eq_ok_iff {prepared : Prepared} :
    secrets host dir tmp accessTokens = .ok prepared ↔
      ∃ secretFiles, (planned host dir.mnemonicExists accessTokens).mapM (Planned.read dir) =
        .ok secretFiles ∧ new tmp secretFiles = .ok prepared := by
  unfold secrets
  constructor
  · intro h
    obtain ⟨secretFiles, hRead, hNew⟩ := ok_of_bind h
    exact ⟨secretFiles, hRead, context_eq_ok_iff.mp hNew⟩
  · rintro ⟨secretFiles, hRead, hNew⟩
    rw [hRead]
    exact context_eq_ok_iff.mpr hNew

theorem sublist_of_mapM {secretFiles : List Secret}
    (h : (planned host dir.mnemonicExists accessTokens).mapM (Planned.read dir) =
      .ok secretFiles) : (secretFiles.map Secret.dest).Sublist places :=
  (dest_of_mapM h).symm ▸ dest_sublist host dir.mnemonicExists accessTokens

/-- The files that a host gets are those that are planned, each in its place. -/
theorem lookup_secrets_iff {prepared : Prepared}
    (h : secrets host dir tmp accessTokens = .ok prepared) {path : List String} {content : Bytes}
    {mode : Nat} :
    prepared.tree.lookup path = some (.file content mode) ↔
      ∃ p ∈ planned host dir.mnemonicExists accessTokens,
        components p.dest = path ∧ p.content dir = some content ∧ p.mode = mode := by
  obtain ⟨secretFiles, hRead, hNew⟩ := secrets_eq_ok_iff.mp h
  obtain ⟨_, hTree, _⟩ := new_eq_ok_iff.mp hNew
  rw [FileTree.lookup_writeAll_eq_file_iff (distinct_of_sublist (sublist_of_mapM hRead)) hTree,
    List.mem_map]
  constructor
  · rintro ⟨secret, hMem, hEntry⟩
    obtain ⟨p, hPlanned, hOk⟩ := (mem_of_mapM hRead).mp hMem
    obtain ⟨content', hContent, rfl⟩ := Planned.read_eq_ok_iff.mp hOk
    cases hEntry
    exact ⟨p, hPlanned, rfl, hContent, rfl⟩
  · rintro ⟨p, hPlanned, rfl, hContent, rfl⟩
    exact ⟨⟨p.dest, content, p.mode⟩,
      (mem_of_mapM hRead).mpr ⟨p, hPlanned, Planned.read_eq_ok_iff.mpr ⟨content, hContent, rfl⟩⟩,
      rfl⟩

/-- The system lets all that is planned be written. -/
def TempDir.TakesAll (tmp : TempDir) (plan : List Planned) : Prop :=
  tmp.path ≠ none ∧ ∀ p ∈ plan, tmp.Takes p.dest

theorem forall_dest_iff {plan : List Planned} {secretFiles : List Secret}
    (h : plan.mapM (Planned.read dir) = .ok secretFiles) {Q : String → Prop} :
    (∀ secret ∈ secretFiles, Q secret.dest) ↔ ∀ p ∈ plan, Q p.dest := by
  have hSame := dest_of_mapM h
  constructor
  · intro hAll p hMem
    have hDest : p.dest ∈ secretFiles.map Secret.dest := hSame ▸ List.mem_map_of_mem hMem
    obtain ⟨secret, hSecret, hEq⟩ := List.mem_map.mp hDest
    exact hEq ▸ hAll secret hSecret
  · intro hAll secret hMem
    have hDest : secret.dest ∈ plan.map Planned.dest := hSame ▸ List.mem_map_of_mem hMem
    obtain ⟨p, hPlanned, hEq⟩ := List.mem_map.mp hDest
    exact hEq ▸ hAll p hPlanned

theorem exists_new_iff {secretFiles : List Secret}
    (h : (planned host dir.mnemonicExists accessTokens).mapM (Planned.read dir) =
      .ok secretFiles) : (∃ prepared, new tmp secretFiles = .ok prepared) ↔
        tmp.TakesAll (planned host dir.mnemonicExists accessTokens) := by
  obtain ⟨tree, hTree⟩ := FileTree.exists_writeAll (compatible_of_sublist (sublist_of_mapM h))
  have hDests := forall_dest_iff (Q := tmp.Takes) h
  constructor
  · rintro ⟨prepared, hNew⟩
    obtain ⟨hPath, _, hTakes⟩ := new_eq_ok_iff.mp hNew
    exact ⟨hPath ▸ Option.some_ne_none _, hDests.mp hTakes⟩
  · rintro ⟨hPath, hTakes⟩
    obtain ⟨path, hPath⟩ := Option.ne_none_iff_exists'.mp hPath
    exact ⟨⟨path, tree⟩, new_eq_ok_iff.mpr ⟨hPath, hTree, hDests.mpr hTakes⟩⟩

/-- The first file that cannot be read is named. -/
def Missing (dir : SecretsDir) (plan : List Planned) (e : List String) : Prop :=
  ∃ front p rest path message, plan = front ++ p :: rest ∧ (∀ q ∈ front, q.content dir ≠ none) ∧
    p.source = .file path message ∧ dir.read path = none ∧ e = [message]

theorem content_of_mapM {plan : List Planned} {secretFiles : List Secret}
    (h : plan.mapM (Planned.read dir) = .ok secretFiles) : ∀ p ∈ plan, p.content dir ≠ none := by
  intro p hMem hNone
  obtain ⟨secret, hSecret⟩ := ok_of_mapM h p hMem
  obtain ⟨content, hContent, _⟩ := Planned.read_eq_ok_iff.mp hSecret
  exact Option.some_ne_none content (hContent.symm.trans hNone)

theorem missing_of_mapM {plan : List Planned} {e : List String}
    (h : plan.mapM (Planned.read dir) = .error e) : Missing dir plan e := by
  obtain ⟨front, p, rest, hPlan, hFront, hError⟩ := error_of_mapM h
  obtain ⟨path, message, hSource, hNone, rfl⟩ := Planned.error_of_read hError
  refine ⟨front, p, rest, path, message, hPlan, fun q hMem => ?_, hSource, hNone, rfl⟩
  obtain ⟨secret, hOk⟩ := hFront q hMem
  obtain ⟨content, hContent, _⟩ := Planned.read_eq_ok_iff.mp hOk
  rw [hContent]
  exact Option.some_ne_none content

/-- Either a file cannot be read, or the system does not let all of them be written. -/
theorem secrets_error {e : List String} (h : secrets host dir tmp accessTokens = .error e) :
    Missing dir (planned host dir.mnemonicExists accessTokens) e ∨
      (∀ p ∈ planned host dir.mnemonicExists accessTokens, p.content dir ≠ none) ∧
        ¬ tmp.TakesAll (planned host dir.mnemonicExists accessTokens) ∧
        ∃ cause, e = "failed to prepare uploading secrets" :: cause := by
  unfold secrets at h
  cases hRead : (planned host dir.mnemonicExists accessTokens).mapM (Planned.read dir) with
  | error fault =>
    rw [hRead] at h
    cases h
    exact Or.inl (missing_of_mapM hRead)
  | ok secretFiles =>
    rw [hRead] at h
    refine Or.inr ⟨content_of_mapM hRead, fun hTakes => ?_, ?_⟩
    · obtain ⟨prepared, hNew⟩ := (exists_new_iff hRead).mpr hTakes
      exact nomatch (context_eq_ok_iff.mpr hNew).symm.trans h
    · change context _ (new tmp secretFiles) = _ at h
      cases hNew : new tmp secretFiles with
      | ok prepared =>
        rw [hNew] at h
        cases h
      | error cause =>
        rw [hNew] at h
        cases h
        exact ⟨cause, rfl⟩

theorem exists_secrets_iff : (∃ prepared, secrets host dir tmp accessTokens = .ok prepared) ↔
    (∀ p ∈ planned host dir.mnemonicExists accessTokens, p.content dir ≠ none) ∧
      tmp.TakesAll (planned host dir.mnemonicExists accessTokens) := by
  constructor
  · rintro ⟨prepared, hOk⟩
    obtain ⟨secretFiles, hRead, hNew⟩ := secrets_eq_ok_iff.mp hOk
    exact ⟨content_of_mapM hRead, (exists_new_iff hRead).mp ⟨prepared, hNew⟩⟩
  · rintro ⟨hAll, hTakes⟩
    cases hResult : secrets host dir tmp accessTokens with
    | ok prepared => exact ⟨prepared, rfl⟩
    | error e =>
      obtain ⟨front, p, rest, path, message, hPlan, _, hSource, hNone, _⟩ | ⟨_, hRefused, _⟩ :=
        secrets_error hResult
      · refine absurd ?_ (hAll p (hPlan ▸ List.mem_append_right _ List.mem_cons_self))
        rw [Planned.content, hSource]
        exact hNone
      · exact absurd hTakes hRefused

theorem append_ne_of_not_suffix {front ending text : String}
    (h : ¬ ending.toList <:+ text.toList) : front ++ ending ≠ text := by
  rintro rfl
  exact h ⟨front.toList, String.toList_append.symm⟩

theorem append_ne_of_ne {front front' ending ending' : String}
    (hLength : ending.toList.length = ending'.toList.length) (hNe : ending ≠ ending') :
    front ++ ending ≠ front' ++ ending' := by
  intro h
  have hLists := congrArg String.toList h
  rw [String.toList_append, String.toList_append] at hLists
  exact hNe (String.toList_inj.mp (List.append_inj' hLists hLength).2)

/-- The files from which the secrets of a host of this name are made. -/
def sourcePaths (name : String) : List (List String) :=
  [["lightning", "ca.pem"], ["lightning", name ++ ".pem"], ["lightning", name ++ ".key"],
    ["cockroachdb", "client.kld.crt"], ["cockroachdb", "client.kld.key"],
    ["cockroachdb", "ca.crt"], ["cockroachdb", "client.root.crt"],
    ["cockroachdb", "client.root.key"], ["cockroachdb", name ++ ".node.crt"],
    ["cockroachdb", name ++ ".node.key"], ["ssh", "id_ed25519"], ["ssh", "id_ed25519.pub"],
    ["sshd", name], ["disk_encryption_key"], ["mnemonic"]]

def Planned.path (planned : Planned) : Option (List String) :=
  match planned.source with
  | .file path _ => some path
  | .text _ => none

theorem filterMap_path (name accessTokens : String) :
    (kldSecrets name ++ cockroachdbSecrets name ++ accessSecrets name accessTokens ++
      [mnemonicSecret]).filterMap Planned.path = sourcePaths name := rfl

theorem path_monitoring {config : Option KmonitorConfig} {p : Planned}
    (hMem : p ∈ monitoringSecrets config) : p.path = none := by
  cases config with
  | none => cases hMem
  | some config =>
    rcases List.mem_append.mp hMem with hTelegraf | hPromtail
    · obtain ⟨telegraf, _, rfl⟩ := Option.map_eq_some_iff.mp (Option.mem_toList.mp hTelegraf)
      rfl
    · obtain ⟨client, _, rfl⟩ := Option.map_eq_some_iff.mp (Option.mem_toList.mp hPromtail)
      rfl

theorem mem_sourcePaths {mnemonicExists : Bool} {p : Planned}
    (hMem : p ∈ planned host mnemonicExists accessTokens) {path : List String}
    (hPath : p.path = some path) : path ∈ sourcePaths host.name := by
  rw [← filterMap_path host.name accessTokens, List.mem_filterMap]
  refine ⟨p, ?_, hPath⟩
  rcases List.mem_append.mp hMem with hMem | hMonitoring
  · rcases List.mem_append.mp hMem with hBase | hMnemonic
    · exact List.mem_append_left _ hBase
    · refine List.mem_append_right _ ?_
      cases mnemonicExists with
      | false => cases hMnemonic
      | true => exact hMnemonic
  · rw [path_monitoring hMonitoring] at hPath
    cases hPath

theorem not_foreign {name : String} {path : List String} (hMem : path ∈ sourcePaths name) :
    ¬ Foreign name path := by
  unfold sourcePaths at hMem
  rintro (rfl | hMacaroon | ⟨other, hOther, hOwned⟩)
  · have hName : "ca.key" = name ++ ".node.crt" ∨ "ca.key" = name ++ ".node.key" := by
      simpa using hMem
    rcases hName with h | h
    · exact append_ne_of_not_suffix (by decide) h.symm
    · exact append_ne_of_not_suffix (by decide) h.symm
  · have hOne : path = ["access.macaroon"] ∨ path = ["admin.macaroon"] ∨
        path = ["readonly.macaroon"] := by simpa using hMacaroon
    rcases hOne with rfl | rfl | rfl <;> simp at hMem
  · have hOne : path = ["lightning", other ++ ".key"] ∨
        path = ["cockroachdb", other ++ ".node.key"] ∨ path = ["sshd", other] := by
      simpa using hOwned
    rcases hOne with rfl | rfl | rfl
    · have hName : other ++ ".key" = "ca.pem" ∨ other ++ ".key" = name ++ ".pem" ∨
          other = name := by simpa using hMem
      rcases hName with h | h | h
      · exact append_ne_of_not_suffix (by decide) h
      · exact append_ne_of_ne (by decide) (by decide) h
      · exact hOther h
    · have hName : other ++ ".node.key" ∈ ["client.kld.crt", "client.kld.key", "ca.crt",
          "client.root.crt", "client.root.key"] ∨ other ++ ".node.key" = name ++ ".node.crt" ∨
          other = name := by simpa [or_assoc] using hMem
      rcases hName with h | h | h
      · have hSuffix : ∀ text ∈ ["client.kld.crt", "client.kld.key", "ca.crt", "client.root.crt",
            "client.root.key"], ¬ ".node.key".toList <:+ text.toList := by decide
        exact append_ne_of_not_suffix (hSuffix _ h) rfl
      · exact append_ne_of_ne (by decide) (by decide) h
      · exact hOther h
    · have hName : other = name := by simpa using hMem
      exact hOther hName

theorem content_congr {dir' : SecretsDir} {mnemonicExists : Bool}
    (h : ∀ path, ¬ Foreign host.name path → dir'.read path = dir.read path) {p : Planned}
    (hMem : p ∈ planned host mnemonicExists accessTokens) : p.read dir' = p.read dir := by
  have hPath : ∀ path, p.path = some path → dir'.read path = dir.read path := fun path hPath =>
    h path (not_foreign (mem_sourcePaths hMem hPath))
  obtain ⟨dest, source, mode⟩ := p
  cases source with
  | text content => rfl
  | file path message =>
    unfold Planned.read
    dsimp only
    rw [hPath path rfl]

theorem secrets_congr {dir' : SecretsDir} (hExists : dir'.mnemonicExists = dir.mnemonicExists)
    (h : ∀ path, ¬ Foreign host.name path → dir'.read path = dir.read path) :
    secrets host dir' tmp accessTokens = secrets host dir tmp accessTokens := by
  have hReads : (planned host dir.mnemonicExists accessTokens).mapM (Planned.read dir') =
      (planned host dir.mnemonicExists accessTokens).mapM (Planned.read dir) :=
    mapM_congr fun p hMem => content_congr h hMem
  rw [secrets, hExists, hReads, secrets]

/-- The host gets the key of the lightning authority as its own. -/
def GetsAuthorityKey (dir : SecretsDir) (tree : Tree) : Prop :=
  ∃ content, dir.read ["lightning", "ca.key"] = some content ∧
    tree.lookup ["var", "lib", "secrets", "kld", "kld.key"] = some (.file content 0o600)

theorem authority_key_of_ca (hName : host.name = "ca") {prepared : Prepared}
    (h : secrets host dir tmp accessTokens = .ok prepared) :
    GetsAuthorityKey dir prepared.tree := by
  let key : Planned := ⟨"/var/lib/secrets/kld/kld.key",
    .file ["lightning", host.name ++ ".key"] "failed to read kld.key", 0o600⟩
  have hMem : key ∈ planned host dir.mnemonicExists accessTokens := by
    simp [planned, kldSecrets, key]
  have hAll := (exists_secrets_iff.mp ⟨prepared, h⟩).1
  obtain ⟨content, hContent⟩ := Option.ne_none_iff_exists'.mp (hAll key hMem)
  have hPlace : components "/var/lib/secrets/kld/kld.key" =
      ["var", "lib", "secrets", "kld", "kld.key"] := by decide +kernel
  refine ⟨content, ?_, (lookup_secrets_iff h).mpr ⟨key, hMem, hPlace, hContent, rfl⟩⟩
  have hFile : dir.read ["lightning", host.name ++ ".key"] = some content := hContent
  rwa [hName] at hFile

def exampleHost : Host where
  name := "kld-00"
  nixosModule := "kld-node"
  extraNixosModules := []
  macAddress := none
  ipv4Address := none
  ipv4Cidr := none
  ipv4Gateway := none
  ipv6Address := none
  ipv6Cidr := none
  ipv6Gateway := none
  installSshUser := "root"
  hostname := "kld-00"
  publicSshKeys := []
  disks := []
  bitcoindDisks := []
  cockroachPeers := []
  kldNodeAlias := none
  kldNodeAliasColor := none
  kldLogLevel := none
  kmonitorConfig := none
  restApiPort := none
  apiIpAccessList := []
  telegrafHasMonitoring := false
  promtailHasClient := false
  monitorConfigHash := "0"
  networkInterface := none
  kldPresetMnemonic := some true
  upgradeSchedule := none
  probeInterval := none
  probeAmtMsat := none
  probeTargets := []
  shutdownGracefulSec := none

end Kld.Secrets
