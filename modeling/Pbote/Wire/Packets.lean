import Pbote.Wire.Bytes

/-!
# Packets of the Bote wire protocol

`CommunicationPacket` is what the packet handler works on once `parseCommPacket` has taken
the envelope apart: the type tag, the protocol version, the request id (CID), the sender's
destination as the transport reports it, and the payload after the envelope. The packet
records, their `toByte` layouts and `parseCommPacket` live in `Packet.h`, which is not among
the sources; they follow the wire codec of the specification, and only as far as the modelled
functions read them.
-/

namespace Pbote.Wire

/-- A request id, as the `std::vector<uint8_t>` the batches and `active_requests` key by. -/
abbrev Cid := List UInt8

/-- An `i2p::data::Tag<32>`: 32 bytes compared with `memcmp`, i.e. a big-endian number. -/
abbrev Tag := BitVec 256

/-! The type tags `type::Comm*` of communication packets. -/

namespace type

def CommR : UInt8 := 'R'.toUInt8
def CommK : UInt8 := 'K'.toUInt8
def CommN : UInt8 := 'N'.toUInt8
def CommA : UInt8 := 'A'.toUInt8
def CommQ : UInt8 := 'Q'.toUInt8
def CommY : UInt8 := 'Y'.toUInt8
def CommS : UInt8 := 'S'.toUInt8
def CommD : UInt8 := 'D'.toUInt8
def CommX : UInt8 := 'X'.toUInt8
def CommF : UInt8 := 'F'.toUInt8

end type

/-- The content-class tags of index, encrypted-email and directory-entry packets. -/
def DataI : UInt8 := 'I'.toUInt8
def DataE : UInt8 := 'E'.toUInt8
def DataC : UInt8 := 'C'.toUInt8

/-! `pbote::StatusCode`, numbered in the order the specification lists them. -/

namespace StatusCode

def OK : UInt8 := 0
def GENERAL_ERROR : UInt8 := 1
def NO_DATA_FOUND : UInt8 := 2
def INVALID_PACKET : UInt8 := 3
def INVALID_HASHCASH : UInt8 := 4
def INSUFFICIENT_HASHCASH : UInt8 := 5
def NO_DISK_SPACE : UInt8 := 6
def DUPLICATED_DATA : UInt8 := 7

end StatusCode

structure CommunicationPacket where
  type : UInt8
  ver : UInt8
  cid : Cid
  «from» : String
  payload : List UInt8
  deriving DecidableEq, Repr

/-- The fixed prefix of every communication packet. -/
def commPrefix : List UInt8 := [0x6D, 0x30, 0x52, 0xE9]

/-- The type tags of the specification's packet table. -/
def knownTypes : List UInt8 := "RKNALPQYSDXFIEC".toList.map Char.toUInt8

/-- Modelled from the spec: the envelope `prefix ‖ type ‖ version ‖ cid ‖ payload` of a
packet sent with `PacketForQueue`; the sender is not on the wire. -/
def CommunicationPacket.toByte (p : CommunicationPacket) : List UInt8 :=
  commPrefix ++ p.type :: p.ver :: p.cid ++ p.payload

/-- Modelled from the spec: `parseCommPacket` rejects a buffer missing the prefix, with an
unknown type tag, or truncated before the 32-byte CID; the transport supplies the sender. -/
def parseCommPacket («from» : String) : List UInt8 → Option CommunicationPacket
  | p0 :: p1 :: p2 :: p3 :: t :: v :: rest =>
    if [p0, p1, p2, p3] = commPrefix ∧ t ∈ knownTypes ∧ 32 ≤ rest.length then
      some ⟨t, v, rest.take 32, «from», rest.drop 32⟩
    else none
  | _ => none

theorem parseCommPacket_toByte («from» : String) (p : CommunicationPacket) (ht : p.type ∈ knownTypes)
    (hc : p.cid.length = 32) : parseCommPacket «from» p.toByte = some { p with «from» := «from» } := by
  simp [CommunicationPacket.toByte, commPrefix, parseCommPacket, ht, hc,
    List.take_append_of_le_length, List.drop_append_of_le_length]

theorem parseCommPacket_eq_some {«from» : String} {buf : List UInt8} {p : CommunicationPacket}
    (h : parseCommPacket «from» buf = some p) : p.from = «from» ∧ p.cid.length = 32 := by
  unfold parseCommPacket at h
  split at h
  · split_ifs at h with hc
    cases h
    exact ⟨rfl, by simp [hc.2.2]⟩
  · cases h

/-- A `pbote::ResponsePacket`; the handlers fill every field they send. -/
structure ResponsePacket where
  cid : Cid
  status : UInt8
  length : UInt16
  data : List UInt8
  deriving DecidableEq, Repr

/-- Modelled from the spec: the response payload `status ‖ length (u16 BE) ‖ data`. -/
def ResponsePacket.payload (r : ResponsePacket) : List UInt8 :=
  r.status :: be16 r.length ++ r.data

/-- The `status` byte and the `ntohs`'d `dataLen` that every response parser copies out of a
response payload before looking at either. -/
def readResponseHeader (payload : List UInt8) : Except Fault (UInt8 × Nat) := do
  let status ← readU8 payload 0
  let dataLen ← readU16BE payload 1
  pure (status, dataLen)

/-- The copy of the `dataLen` data bytes that follow the header. -/
def responseData (payload : List UInt8) (dataLen : Nat) : Except Fault (List UInt8) :=
  copyBytes payload 3 dataLen

/-- The data of a response a batch brought, as `closestNodesLookupTask`, `retrieveIndex` and
`retrieveEmailPacket` read it: nothing for a packet that is not a response, for a status other
than `OK`, or for a `dataLen` below `minLen`; else the `dataLen` bytes after the header, copied
whatever the payload's size. -/
def responseBody (minLen : Nat) (resp : CommunicationPacket) : Except Fault (Option (List UInt8)) :=
  if resp.type ≠ type.CommN then .ok none
  else do
    let (status, dataLen) ← readResponseHeader resp.payload
    if status ≠ StatusCode.OK then .ok none
    else if dataLen < minLen then .ok none
    else (responseData resp.payload dataLen).map some

theorem responseBody_of_type {minLen : Nat} {resp : CommunicationPacket} (h : resp.type ≠ type.CommN) :
    responseBody minLen resp = .ok none := if_pos h

theorem readResponseHeader_of_lt {payload : List UInt8} (h : payload.length < 3) :
    ∃ e, readResponseHeader payload = .error e := by
  unfold readResponseHeader readU16BE readU8
  by_cases h0 : payload.length < 0 + 1
  · simp [copyBytes_of_lt h0, Except.map, bind, Except.bind]
  · simp [copyBytes_of_le (show 0 + 1 ≤ payload.length by omega), copyBytes_of_lt (show payload.length < 1 + 2 by omega),
      Except.map, bind, Except.bind]

theorem length_of_readResponseHeader {payload : List UInt8} {x : UInt8 × Nat}
    (h : readResponseHeader payload = .ok x) : 3 ≤ payload.length := by
  by_contra hlt
  obtain ⟨e, he⟩ := readResponseHeader_of_lt (Nat.lt_of_not_le hlt)
  rw [he] at h
  cases h

theorem responseBody_readsPastEnd {minLen dataLen : Nat} {resp : CommunicationPacket} (hN : resp.type = type.CommN)
    (hh : readResponseHeader resp.payload = .ok (StatusCode.OK, dataLen)) (hmin : minLen ≤ dataLen)
    (hlen : resp.payload.length < 3 + dataLen) : ReadsPastEnd (responseBody minLen resp) resp.payload.length := by
  unfold responseBody
  rw [if_neg (not_not.mpr hN)]
  refine .bind_of_ok hh ?_
  simp only [ne_eq, not_true_eq_false, if_false, if_neg (Nat.not_lt.mpr hmin)]
  exact (copyBytes_readsPastEnd hlen).map _

theorem readResponseHeader_payload (r : ResponsePacket) :
    readResponseHeader r.payload = .ok (r.status, r.length.toNat) := by
  have h := readU16BE_be16 [r.status] r.data r.length
  rw [List.singleton_append, List.length_singleton] at h
  simp only [readResponseHeader, ResponsePacket.payload, readU8, h]
  rw [copyBytes_of_le (by simp)]
  rfl

theorem responseBody_payload {minLen : Nat} {ver : UInt8} {cid : Cid} {«from» : String} {r : ResponsePacket}
    (hlen : r.length.toNat ≤ r.data.length) :
    responseBody minLen ⟨type.CommN, ver, cid, «from», r.payload⟩ =
      .ok (if r.status = StatusCode.OK ∧ minLen ≤ r.length.toNat then some (r.data.take r.length.toNat) else none) := by
  simp only [responseBody, ne_eq, not_true_eq_false, if_false, readResponseHeader_payload, bind, Except.bind]
  by_cases hok : r.status = StatusCode.OK
  · by_cases hmin : minLen ≤ r.length.toNat
    · simp only [hok, hmin, not_true_eq_false, if_false, Nat.not_lt.mpr hmin, responseData, ResponsePacket.payload]
      rw [copyBytes_of_le (by simp [be16]; omega)]
      simp [be16, Except.map]
    · simp [hok, hmin, Nat.lt_of_not_le hmin]
  · simp [hok]

/-- `pbote::PeerListPacketV4` and `PeerListPacketV5`, which differ only in `ver`. -/
structure PeerListPacket where
  ver : UInt8
  count : UInt16
  data : List UInt8
  deriving DecidableEq, Repr

/-- Modelled from the spec: the peer-list layout `'L' ‖ version ‖ count (u16 BE) ‖ entries`. -/
def PeerListPacket.toByte (p : PeerListPacket) : List UInt8 :=
  'L'.toUInt8 :: p.ver :: be16 p.count ++ p.data

/-- A `pbote::RetrieveRequestPacket`. -/
structure RetrieveRequestPacket where
  cid : Cid
  dataType : UInt8
  key : List UInt8
  deriving DecidableEq, Repr

/-- Modelled from the spec: a retrieve request travels as a `Q` envelope whose payload is
`data_type ‖ key`. `find` does not set the envelope's version, so it is a parameter. -/
def RetrieveRequestPacket.toByte (ver : UInt8) (p : RetrieveRequestPacket) : List UInt8 :=
  CommunicationPacket.toByte ⟨type.CommQ, ver, p.cid, "", p.dataType :: p.key⟩

/-- Modelled from the spec: a response travels as an `N` envelope on the request's CID. -/
def ResponsePacket.toByte (ver : UInt8) (r : ResponsePacket) : List UInt8 :=
  CommunicationPacket.toByte ⟨type.CommN, ver, r.cid, "", r.payload⟩

/-- A `pbote::StoreRequestPacket`: the `uint16_t` lengths are set by the sender. -/
structure StoreRequestPacket where
  cid : Cid
  hcLength : UInt16
  hashcash : List UInt8
  length : UInt16
  data : List UInt8
  deriving DecidableEq, Repr

/-- Modelled from the spec: the store-request payload `hc_length (u16 BE) ‖ hashcash ‖
length (u16 BE) ‖ data`. -/
def StoreRequestPacket.payload (q : StoreRequestPacket) : List UInt8 :=
  be16 q.hcLength ++ q.hashcash ++ be16 q.length ++ q.data

/-- A `pbote::FindClosePeersRequestPacket`. -/
structure FindClosePeersRequestPacket where
  ver : UInt8
  cid : Cid
  key : List UInt8
  deriving DecidableEq, Repr

/-- Modelled from the spec: the request travels as an `F` envelope whose payload is the key. -/
def FindClosePeersRequestPacket.toByte (p : FindClosePeersRequestPacket) : List UInt8 :=
  CommunicationPacket.toByte ⟨type.CommF, p.ver, p.cid, "", p.key⟩

end Pbote.Wire
