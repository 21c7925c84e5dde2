import Kld.Database.WalletDatabase
import Kld.Lib.Fallible
import Kld.Lib.Listing

/-!
# Operations of the wallet database

An operation runs its statements one by one over the tables that its session
sees. It answers with a result or a fault, and the statements that were executed
before a fault stay. Keychains are stored as the JSON text of their names.
-/

namespace Kld.Wallet

inductive KeychainKind where
  | external
  | internal
deriving DecidableEq

def KeychainKind.toJson : KeychainKind → String
  | .external => "\"External\""
  | .internal => "\"Internal\""

def KeychainKind.ofJson (text : String) : Option KeychainKind :=
  if text = "\"External\"" then some .external
  else if text = "\"Internal\"" then some .internal
  else none

@[simp] theorem KeychainKind.ofJson_toJson (keychain : KeychainKind) :
    ofJson keychain.toJson = some keychain := by
  cases keychain <;> decide

@[simp] theorem KeychainKind.toJson_inj {keychain keychain' : KeychainKind} :
    keychain.toJson = keychain'.toJson ↔ keychain = keychain' := by
  cases keychain <;> cases keychain' <;> decide

structure BlockTime where
  height : UInt32
  timestamp : UInt64
deriving DecidableEq

/-- A failed statement, stored text or bytes that cannot be read, or a failed conversion. -/
inductive Fault where
  | database
  | json
  | consensus
  | panic
deriving DecidableEq

def execute (statement : WalletStatement) (tables : WalletTables) :
    Except Fault Unit × WalletTables :=
  match statement.run tables with
  | some tables' => (.ok (), tables')
  | none => (.error .database, tables)

/-- A deletion executes its statement if the lookup before it found something. -/
def deleteFound {α : Type} (found : Except Fault (Option α)) (statement : WalletStatement)
    (tables : WalletTables) : Except Fault (Option α) × WalletTables :=
  match found with
  | .ok (some value) => ((execute statement tables).1.map fun _ => some value,
      (execute statement tables).2)
  | .ok none => (.ok none, tables)
  | .error fault => (.error fault, tables)

def readTxid (bytes : Bytes) : Option Txid :=
  if h : bytes.length = 32 then some ⟨⟨bytes.toArray, by simpa using h⟩⟩ else none

/-- `try_into` from a signed column to an unsigned value. -/
def toU64 (x : Int64) : Except Fault UInt64 := if 0 ≤ x then .ok x.toUInt64 else .error .panic

def toU32 (x : Int64) : Except Fault UInt32 :=
  if 0 ≤ x ∧ x.toUInt64 < 4294967296 then .ok x.toUInt64.toUInt32 else .error .panic

@[simp] theorem readTxid_toList (txid : Txid) : readTxid txid.bytes.toList = some txid := by
  obtain ⟨⟨bytes, h⟩⟩ := txid
  simp [readTxid, h]

theorem toList_inj {txid txid' : Txid} : txid.bytes.toList = txid'.bytes.toList ↔ txid = txid' := by
  refine ⟨fun h => ?_, fun h => h ▸ rfl⟩
  have hSome := congrArg readTxid h
  rw [readTxid_toList, readTxid_toList] at hSome
  exact Option.some.inj hSome

theorem toInt32_inj {a b : UInt32} : a.toInt32 = b.toInt32 ↔ a = b :=
  ⟨fun h => by simpa using congrArg Int32.toUInt32 h, congrArg _⟩

theorem zero_le_toInt64 {x : UInt64} : 0 ≤ x.toInt64 ↔ x.toNat < 2 ^ 63 := by
  have hLt := x.toNat_lt
  rw [Int64.le_iff_toInt_le, Int64.toInt_zero]
  change 0 ≤ x.toBitVec.toInt ↔ x.toBitVec.toNat < 2 ^ 63
  rw [BitVec.toInt_eq_toNat_cond]
  split <;> omega

theorem toU64_toInt64 (x : UInt64) :
    toU64 x.toInt64 = if x.toNat < 2 ^ 63 then .ok x else .error .panic := by
  simp only [toU64, zero_le_toInt64, UInt64.toUInt64_toInt64]

theorem toU64_of_lt {x : UInt64} (h : x.toNat < 2 ^ 63) : toU64 x.toInt64 = .ok x := by
  rw [toU64_toInt64, if_pos h]

theorem lt_of_toU64 {x y : UInt64} (h : toU64 x.toInt64 = .ok y) : x.toNat < 2 ^ 63 := by
  by_contra hNot
  rw [toU64_toInt64, if_neg hNot] at h
  cases h

@[simp] theorem toU32_toInt64 (x : UInt32) : toU32 x.toUInt64.toInt64 = .ok x := by
  have hLt := x.toNat_lt
  have hLe : 0 ≤ x.toUInt64.toInt64 := zero_le_toInt64.mpr (by
    rw [UInt32.toNat_toUInt64]
    omega)
  have hSmall : x.toUInt64 < 4294967296 := by
    rw [UInt64.lt_iff_toNat_lt, UInt32.toNat_toUInt64]
    exact hLt
  simp [toU32, hLe, hSmall]

end Kld.Wallet
