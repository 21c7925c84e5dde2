import Kld.Lib.Codec
import Mathlib.Tactic.DeriveEncodable

/-! # Identifiers and amounts, as fixed-size byte arrays and machine integers -/

namespace Kld

abbrev Bytes := List UInt8

/-- Microseconds since the epoch. -/
abbrev Timestamp := Int

abbrev MillisatAmount := UInt64

structure PublicKey where
  bytes : Vector UInt8 33
deriving DecidableEq, Encodable

structure Txid where
  bytes : Vector UInt8 32
deriving DecidableEq, Encodable

structure BlockHash where
  bytes : Vector UInt8 32
deriving DecidableEq, Encodable

structure ChannelId where
  bytes : Vector UInt8 32
deriving DecidableEq, Encodable

structure PaymentId where
  bytes : Vector UInt8 32
deriving DecidableEq

structure PaymentHash where
  bytes : Vector UInt8 32
deriving DecidableEq

structure PaymentPreimage where
  bytes : Vector UInt8 32
deriving DecidableEq

structure PaymentSecret where
  bytes : Vector UInt8 32
deriving DecidableEq

structure OutPoint where
  txid : Txid
  index : UInt16
deriving DecidableEq, Encodable

structure Transaction where
  txid : Txid
  body : Bytes
deriving DecidableEq

end Kld
