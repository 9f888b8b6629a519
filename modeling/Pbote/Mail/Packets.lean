import Pbote.Wire.Packets

/-!
# The content packets of the email worker

An encrypted email packet carries its DHT key, the hash of its deletion authorisation, the
key type, a stored time, the ciphertext's length and the ciphertext. An index packet lists,
under its owner's identity hash, the keys of the encrypted packets that wait for the owner.
Their records and codecs live in `Packet.h`, which is not among the sources: the layouts
below follow the specification, and the parsers the check round calls are a parameter,
`ContentCodec`.
-/

namespace Pbote.Mail

open Pbote.Wire

/-- A `pbote::EmailEncryptedPacket`. -/
structure EmailEncryptedPacket where
  key : List UInt8
  storedTime : UInt32
  deleteHash : List UInt8
  alg : UInt8
  length : UInt16
  edata : List UInt8
  deriving DecidableEq, Repr

/-- Modelled from the spec: `'E' ‖ key ‖ delete hash ‖ key type ‖ stored time (u32 BE) ‖
length (u16 BE) ‖ ciphertext`. -/
def EmailEncryptedPacket.toByte (p : EmailEncryptedPacket) : List UInt8 :=
  DataE :: p.key ++ p.deleteHash ++ p.alg :: be32 p.storedTime ++ be16 p.length ++ p.edata

/-- A `pbote::IndexPacket::Entry`. -/
structure IndexEntry where
  key : List UInt8
  dv : List UInt8
  time : UInt32
  deriving DecidableEq, Repr

/-- A `pbote::IndexPacket`: the owner's identity hash, the declared entry count, the entries. -/
structure IndexPacket where
  hash : List UInt8
  nump : UInt32
  data : List IndexEntry
  deriving DecidableEq, Repr

/-- Modelled from the spec: `'I' ‖ owner hash ‖ entry count (u32 BE) ‖ entries`, an entry
being `key ‖ delete hash ‖ time (u32 BE)`. -/
def IndexPacket.toByte (p : IndexPacket) : List UInt8 :=
  DataI :: p.hash ++ be32 p.nump ++ p.data.flatMap fun e => e.key ++ e.dv ++ be32 e.time

/-- `IndexPacket::fromBuffer(data, true)` and `EmailEncryptedPacket::fromBuffer(data, size,
true)`, whose code is not among the sources; `none` where they return `false`. -/
structure ContentCodec where
  parseIndex : List UInt8 → Option IndexPacket
  parseEmail : List UInt8 → Option EmailEncryptedPacket

end Pbote.Mail
