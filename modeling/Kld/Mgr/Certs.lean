import Kld.Mgr.CockroachdbCerts

/-!
# When the generated certificates are consistent

Certificates are kept where files are there, whatever keys they are of. After a run
that succeeds all are consistent exactly if those that the run kept were.
-/

namespace Kld.Pki

/-- The operations all succeed, and no text is an address. -/
def calm : Environment := ⟨fun _ => true, fun _ => none⟩

def oneHost : Hosts :=
  ⟨[⟨"kld-00", some (.v4 0x01020304), none, "kld-00.example", [.v4 0x05060708]⟩], by decide⟩

def world (files : List (Path × Content)) : World :=
  ⟨⟨fun path => (files.find? fun file => file.1 = path).map Prod.snd, 10⟩, 0⟩

theorem world_fresh {files : List (Path × Content)}
    (hFiles : ∀ file ∈ files, ∀ key ∈ file.2.keys, key < 10) : (world files).dir.Fresh := by
  intro path content hFile
  obtain ⟨file, hFind, rfl⟩ := Option.map_eq_some_iff.mp hFile
  exact hFiles file (List.mem_of_find?_eq_some hFind)

def twoHosts : Hosts :=
  ⟨[⟨"kld-00", some (.v4 0x01020304), none, "kld-00.example", [.v4 0x05060708]⟩,
    ⟨"kld-01", some (.v4 0x01020305), none, "kld-01.example", [.v4 0x05060708]⟩], by decide⟩

/-- What an earlier run left when only the first host was there. -/
def earlierRun : World := world
  [(keyOf "ca", .key 0), (Lightning.caCert, .certificate ⟨0, 0, []⟩),
    (⟨"ca", "crt"⟩, .certificate ⟨0, 0, []⟩), (keyOf "kld-00", .key 1),
    (⟨"kld-00", "pem"⟩, .certificate ⟨1, 0, [.ip (.v4 0x01020304)]⟩),
    (keyOf "client.root", .key 2), (⟨"client.root", "crt"⟩, .certificate ⟨2, 0, []⟩)]

theorem earlierRun_lightning : Lightning.KeptConsistent twoHosts earlierRun.dir := by
  refine ⟨fun _ => ⟨0, _, rfl, rfl⟩, fun host hMem hKept => ?_⟩
  rcases List.mem_cons.mp hMem with rfl | hLast
  · exact ⟨0, rfl, ⟨1, 0, [.ip (.v4 0x01020304)]⟩, rfl, rfl⟩
  · obtain rfl := List.mem_singleton.mp hLast
    exact absurd rfl hKept.1

theorem earlierRun_cockroachdb : Cockroachdb.KeptConsistent twoHosts earlierRun.dir := by
  refine ⟨fun _ => ⟨0, _, rfl, rfl⟩, fun leaf hMem hKept => ?_⟩
  rcases List.mem_cons.mp hMem with rfl | hNew
  · exact ⟨⟨by decide, by decide⟩, 0, rfl, ⟨2, 0, []⟩, rfl, rfl⟩
  · have hMissing : ∀ name ∈ ["client.kld", "kld-00.node", "kld-01.node"],
        earlierRun.dir.files (keyOf name) = none := by decide
    exact absurd (hMissing leaf hNew) hKept.1

/-- The key of the host was deleted after a first run. -/
def withoutHostKey : World := world
  [(keyOf "ca", .key 0), (Lightning.caCert, .certificate ⟨0, 0, []⟩),
    (⟨"kld-00", "pem"⟩, .certificate ⟨1, 0, [.ip (.v4 0x01020304)]⟩)]

/-- The key of the CA and the pair of a client are left of a first run. -/
def withoutCaCert : World := world
  [(keyOf "ca", .key 0), (keyOf "client.root", .key 1),
    (⟨"client.root", "crt"⟩, .certificate ⟨1, 0, []⟩)]

end Kld.Pki
