import Pbote.Kademlia.PeerList

/-!
# The request handlers of `DHTworker`

`receiveRetrieveRequest`, `receiveDeletionQuery`, `receiveStoreRequest`,
`receiveEmailPacketDeleteRequest`, `receiveIndexPacketDeleteRequest` and
`receiveFindClosePeers` each offer the sender to `addNode`, copy their fields out of the
payload with `memcpy` at the offsets of the layout, and send one `ResponsePacket` back to the
sender. None compares an offset with the payload's size: a payload shorter than a handler's
fixed fields is read past its end (`dhtRequest_readsPastEnd`), and so is a store request whose
declared `hc_length` runs past it (`receiveStoreRequest_hashCash_readsPastEnd`).

`receiveStoreRequest` copies its two length fields with no `ntohs`, so what it reads depends
on the host's byte order. The entry loop of `receiveIndexPacketDeleteRequest` counts an
unsigned index down from zero and so copies one entry whatever the count
(`indexDeleteLoop_succ`).
-/

namespace Pbote.Kademlia

open Pbote.Wire

/-- `dht_storage_`, whose code is not among the sources, as the retrieve handler reads it:
the stored packet of each class under a key, empty when there is none. -/
structure DHTStorage where
  getIndex : List UInt8 → List UInt8
  getEmail : List UInt8 → List UInt8
  getContact : List UInt8 → List UInt8

/-- The `switch` of `receiveRetrieveRequest`: the stored packet of class `dataType` under `key`. -/
def DHTStorage.get (st : DHTStorage) (dataType : UInt8) (key : List UInt8) : List UInt8 :=
  if dataType = DataI then st.getIndex key else if dataType = DataE then st.getEmail key else st.getContact key

def statusResponse (cid : Cid) (status : UInt8) : ResponsePacket := ⟨cid, status, 0, []⟩

variable {ι : Type} (E : Env ι)

/-- `DHTworker::receiveRetrieveRequest`. -/
def receiveRetrieveRequest (st : DHTStorage) (w : DHTworker ι) (p : CommunicationPacket) :
    Except Fault (DHTworker ι × ResponsePacket) := do
  let w := (addNodeFromBase64 E w p.from).2
  let dataType ← readU8 p.payload 0
  let key ← copyBytes p.payload 1 32
  if dataType = DataI ∨ dataType = DataE ∨ dataType = DataC then
    let data := st.get dataType key
    if data.isEmpty then pure (w, statusResponse p.cid StatusCode.NO_DATA_FOUND)
    else pure (w, ⟨p.cid, StatusCode.OK, toU16 data.length, data⟩)
  else pure (w, statusResponse p.cid StatusCode.INVALID_PACKET)

/-- The handlers that copy fixed fields, look the key up only for the log and answer
`NO_DATA_FOUND` whatever they find; `fields` are their copies as `(offset, size)`. -/
def noDataFoundRequest (fields : List (Nat × Nat)) (w : DHTworker ι) (p : CommunicationPacket) :
    Except Fault (DHTworker ι × ResponsePacket) := do
  let w := (addNodeFromBase64 E w p.from).2
  copyFields p.payload fields
  pure (w, statusResponse p.cid StatusCode.NO_DATA_FOUND)

/-- `DHTworker::receiveDeletionQuery`: the key. -/
def receiveDeletionQuery : DHTworker ι → CommunicationPacket → Except Fault (DHTworker ι × ResponsePacket) :=
  noDataFoundRequest E [(0, 32)]

/-- `DHTworker::receiveEmailPacketDeleteRequest`: the key, then the deletion authorisation. -/
def receiveEmailPacketDeleteRequest :
    DHTworker ι → CommunicationPacket → Except Fault (DHTworker ι × ResponsePacket) :=
  noDataFoundRequest E [(0, 32), (32, 32)]

/-- `DHTworker::receiveStoreRequest`. The `uint16_t` offset wraps, `hc_length` and `length`
are copied with no `ntohs`, and `data[0]` is read for the log; the answer is `NO_DISK_SPACE`
whatever the request holds. -/
def receiveStoreRequest (host : ByteOrder) (w : DHTworker ι) (p : CommunicationPacket) :
    Except Fault (DHTworker ι × ResponsePacket) := do
  let w := (addNodeFromBase64 E w p.from).2
  let hcLength ← readU16Host host p.payload 0
  let _hashCash ← copyBytes p.payload 2 hcLength
  let offset := (2 + hcLength) % 65536
  let length ← readU16Host host p.payload offset
  let data ← copyBytes p.payload ((offset + 2) % 65536) length
  let _type ← readU8 data 0
  pure (w, statusResponse p.cid StatusCode.NO_DISK_SPACE)

/-- The fields `receiveStoreRequest` copies out of a store request: `hc_length`, the hashcash,
`length` and the data, with the handler's reads. -/
def readStoreRequest (host : ByteOrder) (payload : List UInt8) :
    Except Fault (Nat × List UInt8 × Nat × List UInt8) := do
  let hcLength ← readU16Host host payload 0
  let hashCash ← copyBytes payload 2 hcLength
  let offset := (2 + hcLength) % 65536
  let length ← readU16Host host payload offset
  let data ← copyBytes payload ((offset + 2) % 65536) length
  pure (hcLength, hashCash, length, data)

/-- The entry loop of `receiveIndexPacketDeleteRequest`, `for (uint32_t i = 0; i < num; i--)`,
with `fuel` passes allowed; a pass copies one entry's `dht` and `delAuth`. -/
def indexDeleteLoop (payload : List UInt8) (num : Nat) :
    Nat → UInt32 → Nat → Except Fault (List (List UInt8 × List UInt8))
  | 0, _, _ => .ok []
  | fuel + 1, i, offset =>
    if i.toNat < num then do
      let dht ← copyBytes payload offset 32
      let delAuth ← copyBytes payload (offset + 32) 32
      let rest ← indexDeleteLoop payload num fuel (i - 1) (offset + 64)
      pure ((dht, delAuth) :: rest)
    else .ok []

/-- `DHTworker::receiveIndexPacketDeleteRequest`; the loop gets `num` passes, as many as a
loop counting up would make. -/
def receiveIndexPacketDeleteRequest (w : DHTworker ι) (p : CommunicationPacket) :
    Except Fault (DHTworker ι × ResponsePacket) := do
  let w := (addNodeFromBase64 E w p.from).2
  let _dh ← copyBytes p.payload 0 32
  let num ← readU8 p.payload 32
  let _entries ← indexDeleteLoop p.payload num.toNat num.toNat 0 33
  pure (w, statusResponse p.cid StatusCode.NO_DATA_FOUND)

/-- `DHTworker::receiveFindClosePeers`: every record, the sender just added included, in a
peer list of the request's version. -/
def receiveFindClosePeers (w : DHTworker ι) (p : CommunicationPacket) :
    Except Fault (DHTworker ι × ResponsePacket) := do
  let w := (addNodeFromBase64 E w p.from).2
  let _key ← copyBytes p.payload 0 32
  pure (w, findClosePeersResponse E p.cid p.ver (getAllNodes w))

def fixedFieldsLength (t : UInt8) : Nat :=
  if t = type.CommQ then 33 else if t = type.CommY then 32 else if t = type.CommS then 4
  else if t = type.CommD then 64 else if t = type.CommX then 33 else if t = type.CommF then 32
  else 0

/-! ## The index-delete loop -/

theorem indexDeleteLoop_succ (payload : List UInt8) {num : Nat} (hnum : num < 256) (fuel offset : Nat) :
    indexDeleteLoop payload num (fuel + 1) 0 offset =
      if 0 < num then do
        let dht ← copyBytes payload offset 32
        let delAuth ← copyBytes payload (offset + 32) 32
        pure [(dht, delAuth)]
      else .ok [] := by
  have hstop : ∀ n o, indexDeleteLoop payload num n (0 - 1) o = .ok [] := by
    intro n o
    cases n with
    | zero => rfl
    | succ n => exact if_neg (by rw [show ((0 : UInt32) - 1).toNat = 4294967295 from rfl]; omega)
  simp only [indexDeleteLoop, UInt32.toNat_zero, hstop]
  rfl

/-- Whatever its count, the loop of a delete request records one entry, the pair at bytes 33 to
97: the counter wraps after the first pass. -/
theorem indexDeleteLoop_one_entry (payload : List UInt8) {num : Nat} (hpos : 0 < num) (hnum : num < 256)
    (hlen : 33 + 64 * num ≤ payload.length) :
    indexDeleteLoop payload num num 0 33 = .ok [((payload.drop 33).take 32, (payload.drop 65).take 32)] := by
  obtain ⟨k, rfl⟩ : ∃ k, num = k + 1 := ⟨num - 1, by omega⟩
  rw [indexDeleteLoop_succ payload hnum, if_pos hpos, copyBytes_of_le (by omega), copyBytes_of_le (by omega)]
  rfl

/-- A request listing two entries: the loop records the first alone. -/
theorem indexDeleteLoop_two_entries :
    let payload := List.replicate 33 0 ++ List.replicate 64 1 ++ List.replicate 64 2
    indexDeleteLoop payload 2 2 0 33 = .ok [((payload.drop 33).take 32, (payload.drop 65).take 32)] :=
  indexDeleteLoop_one_entry _ (by decide) (by decide) (by simp)

theorem receiveStoreRequest_answer (host : ByteOrder) {w : DHTworker ι} {p : CommunicationPacket}
    {r : DHTworker ι × ResponsePacket} (h : receiveStoreRequest E host w p = .ok r) :
    r.2 = statusResponse p.cid StatusCode.NO_DISK_SPACE := by
  simp only [receiveStoreRequest, bind_eq_ok] at h
  obtain ⟨_, -, _, -, _, -, _, -, _, -, h⟩ := h
  cases h; rfl

/-! ## Store requests -/

theorem receiveStoreRequest_eq (host : ByteOrder) (w : DHTworker ι) (p : CommunicationPacket) :
    receiveStoreRequest E host w p = (do
      let f ← readStoreRequest host p.payload
      let _type ← readU8 f.2.2.2 0
      pure ((addNodeFromBase64 E w p.from).2, statusResponse p.cid StatusCode.NO_DISK_SPACE)) := by
  simp only [receiveStoreRequest, readStoreRequest, bind_assoc, pure_bind]

/-- A store request laid out as the wire format says, its lengths in big-endian order: a
big-endian host reads back every field while the `uint16_t` offset stays below `2^16`, and a
little-endian host misreads every `hc_length` whose two bytes differ. -/
theorem readStoreRequest_payload (q : StoreRequestPacket) (hhc : q.hashcash.length = q.hcLength.toNat)
    (hd : q.data.length = q.length.toNat) :
    (q.hcLength.toNat + 4 < 65536 →
      readStoreRequest .bigEndian q.payload = .ok (q.hcLength.toNat, q.hashcash, q.length.toNat, q.data)) ∧
    (q.hcLength.toNat / 256 ≠ q.hcLength.toNat % 256 →
      readStoreRequest .littleEndian q.payload ≠ .ok (q.hcLength.toNat, q.hashcash, q.length.toNat, q.data)) := by
  have hread : ∀ host : ByteOrder, readU16Host host q.payload 0 = .ok (match host with
      | .bigEndian => q.hcLength.toNat
      | .littleEndian => q.hcLength.toNat % 256 * 256 + q.hcLength.toNat / 256) := fun host => by
    rw [show q.payload = [] ++ be16 q.hcLength ++ (q.hashcash ++ be16 q.length ++ q.data) by
      simp [StoreRequestPacket.payload]]
    exact readU16Host_be16 host [] _ q.hcLength
  refine ⟨fun hlt => ?_, fun hne h => ?_⟩
  · have hp : q.payload = be16 q.hcLength ++ q.hashcash ++ be16 q.length ++ q.data := rfl
    have hpre : (be16 q.hcLength ++ q.hashcash).length = 2 + q.hcLength.toNat := by
      simp only [List.length_append, be16, List.length_cons, List.length_nil, hhc]
    have h1 : copyBytes q.payload 2 q.hcLength.toNat = .ok q.hashcash := by
      rw [hp, List.append_assoc _ (be16 q.length), ← hhc]
      exact copyBytes_middle (be16 q.hcLength) q.hashcash _
    have h2 : readU16Host .bigEndian q.payload (2 + q.hcLength.toNat) = .ok q.length.toNat := by
      rw [hp, ← hpre]
      exact readU16Host_be16 .bigEndian _ q.data q.length
    have h3 : copyBytes q.payload (2 + q.hcLength.toNat + 2) q.length.toNat = .ok q.data := by
      rw [← List.append_nil q.payload, hp, ← hd, ← hpre]
      simpa only [List.length_append] using copyBytes_middle (be16 q.hcLength ++ q.hashcash ++ be16 q.length) q.data []
    simp only [readStoreRequest, hread .bigEndian, h1, bind, Except.bind,
      Nat.mod_eq_of_lt (show 2 + q.hcLength.toNat < 65536 by omega), h2,
      Nat.mod_eq_of_lt (show 2 + q.hcLength.toNat + 2 < 65536 by omega), h3]
    rfl
  · have hl0 : readU16Host .littleEndian q.payload 0 = .ok (q.hcLength.toNat % 256 * 256 + q.hcLength.toNat / 256) :=
      hread .littleEndian
    obtain ⟨a, ha, h⟩ := bind_eq_ok.mp h
    rw [hl0, Except.ok.injEq] at ha
    simp only [bind_eq_ok, pure, Except.pure, Except.ok.injEq, Prod.mk.injEq] at h
    obtain ⟨_, -, _, -, _, -, rfl, -⟩ := h
    omega

/-- A request with a one-byte hashcash and one data byte: a big-endian host reads it back, and
a little-endian host does not. -/
theorem readStoreRequest_one_byte :
    let q : StoreRequestPacket := ⟨[], 1, [7], 1, [9]⟩
    readStoreRequest .bigEndian q.payload = .ok (1, [7], 1, [9]) ∧
      readStoreRequest .littleEndian q.payload ≠ .ok (1, [7], 1, [9]) :=
  ⟨(readStoreRequest_payload ⟨[], 1, [7], 1, [9]⟩ rfl rfl).1 (by decide),
    (readStoreRequest_payload ⟨[], 1, [7], 1, [9]⟩ rfl rfl).2 (by decide)⟩

/-! ## Reads past the payload -/

theorem receiveRetrieveRequest_readsPastEnd (st : DHTStorage) (w : DHTworker ι) {p : CommunicationPacket}
    (h : p.payload.length < 33) : ReadsPastEnd (receiveRetrieveRequest E st w p) p.payload.length := by
  by_cases h0 : p.payload.length = 0
  · exact (readU8_readsPastEnd (by omega)).bind _
  · exact .bind_of_ok (readU8_of_lt (by omega)) ((copyBytes_readsPastEnd (by omega)).bind _)

theorem noDataFoundRequest_readsPastEnd {fields : List (Nat × Nat)} (w : DHTworker ι) {p : CommunicationPacket}
    (h : ∃ f ∈ fields, p.payload.length < f.1 + f.2) :
    ReadsPastEnd (noDataFoundRequest E fields w p) p.payload.length :=
  (copyFields_readsPastEnd h).bind _

theorem receiveStoreRequest_hashCash_readsPastEnd (host : ByteOrder) (w : DHTworker ι) {p : CommunicationPacket}
    {hcLength : Nat} (hhc : readU16Host host p.payload 0 = .ok hcLength) (h : p.payload.length < 2 + hcLength) :
    ReadsPastEnd (receiveStoreRequest E host w p) p.payload.length :=
  .bind_of_ok hhc ((copyBytes_readsPastEnd h).bind _)

theorem receiveStoreRequest_readsPastEnd (host : ByteOrder) (w : DHTworker ι) {p : CommunicationPacket}
    (h : p.payload.length < 4) : ReadsPastEnd (receiveStoreRequest E host w p) p.payload.length := by
  by_cases h2 : p.payload.length < 2
  · exact (readU16Host_readsPastEnd host (by omega)).bind _
  obtain ⟨hc, hhc⟩ := readU16Host_of_le host (show 0 + 2 ≤ p.payload.length by omega)
  by_cases hhl : p.payload.length < 2 + hc
  · exact receiveStoreRequest_hashCash_readsPastEnd E host w hhc hhl
  · exact .bind_of_ok hhc (.bind_of_ok (copyBytes_of_le (by omega))
      ((readU16Host_readsPastEnd host (by omega)).bind _))

theorem receiveIndexPacketDeleteRequest_readsPastEnd (w : DHTworker ι) {p : CommunicationPacket}
    (h : p.payload.length < 33) : ReadsPastEnd (receiveIndexPacketDeleteRequest E w p) p.payload.length := by
  by_cases h32 : p.payload.length < 32
  · exact (copyBytes_readsPastEnd (by omega)).bind _
  · exact .bind_of_ok (copyBytes_of_le (by omega)) ((readU8_readsPastEnd (by omega)).bind _)

theorem receiveFindClosePeers_readsPastEnd (w : DHTworker ι) {p : CommunicationPacket}
    (h : p.payload.length < 32) : ReadsPastEnd (receiveFindClosePeers E w p) p.payload.length :=
  (copyBytes_readsPastEnd h).bind _

theorem receiveIndexPacketDeleteRequest_eq_ok {w : DHTworker ι} {p : CommunicationPacket} :
    (∃ r, receiveIndexPacketDeleteRequest E w p = .ok r) ↔
      33 ≤ p.payload.length ∧ (p.payload[32]? = some 0 ∨ 97 ≤ p.payload.length) := by
  by_cases h33 : p.payload.length < 33
  · obtain ⟨o, n, he, -⟩ := receiveIndexPacketDeleteRequest_readsPastEnd E w h33
    simp [he]; omega
  have h32 : p.payload[32]? = some p.payload[32] := List.getElem?_eq_getElem (by omega)
  simp only [receiveIndexPacketDeleteRequest, copyBytes_of_le (show 0 + 32 ≤ p.payload.length by omega),
    readU8_of_lt (show 32 < p.payload.length by omega), h32, bind, Except.bind]
  generalize p.payload[32] = num
  have hlt : num.toNat < 256 := num.val.isLt
  cases hn : num.toNat with
  | zero =>
    have : num = 0 := UInt8.eq_of_val_eq (Fin.ext hn)
    simp [indexDeleteLoop, this, pure, Except.pure]; omega
  | succ k =>
    have : num ≠ 0 := fun h => by simp [h] at hn
    rw [indexDeleteLoop_succ _ (by omega)]
    by_cases h65 : p.payload.length < 33 + 32
    · simp [copyBytes_of_lt h65, this, bind, Except.bind]; omega
    by_cases h97 : p.payload.length < 33 + 32 + 32
    · simp [copyBytes_of_le (Nat.le_of_not_lt h65), copyBytes_of_lt h97, this, bind, Except.bind]; omega
    · simp [copyBytes_of_le (Nat.le_of_not_lt h65), copyBytes_of_le (Nat.le_of_not_lt h97), bind,
        Except.bind, pure, Except.pure]; omega

/-! ## The answer goes out on the request's CID -/

theorem receiveRetrieveRequest_cid {st : DHTStorage} {w : DHTworker ι} {p : CommunicationPacket}
    {r : DHTworker ι × ResponsePacket} (h : receiveRetrieveRequest E st w p = .ok r) : r.2.cid = p.cid := by
  obtain ⟨_, -, h⟩ := bind_eq_ok.mp h
  obtain ⟨_, -, h⟩ := bind_eq_ok.mp h
  split at h
  · dsimp only at h
    split at h <;> cases h <;> rfl
  · cases h; rfl

theorem noDataFoundRequest_answer {fields : List (Nat × Nat)} {w : DHTworker ι} {p : CommunicationPacket}
    {r : DHTworker ι × ResponsePacket} (h : noDataFoundRequest E fields w p = .ok r) :
    r.2 = statusResponse p.cid StatusCode.NO_DATA_FOUND := by
  obtain ⟨_, -, h⟩ := bind_eq_ok.mp h
  cases h
  rfl

theorem noDataFoundRequest_cid {fields : List (Nat × Nat)} {w : DHTworker ι} {p : CommunicationPacket}
    {r : DHTworker ι × ResponsePacket} (h : noDataFoundRequest E fields w p = .ok r) : r.2.cid = p.cid := by
  rw [noDataFoundRequest_answer E h]
  rfl

theorem receiveStoreRequest_cid {host : ByteOrder} {w : DHTworker ι} {p : CommunicationPacket}
    {r : DHTworker ι × ResponsePacket} (h : receiveStoreRequest E host w p = .ok r) : r.2.cid = p.cid := by
  rw [receiveStoreRequest_answer E host h]
  rfl

theorem receiveIndexPacketDeleteRequest_answer {w : DHTworker ι} {p : CommunicationPacket}
    {r : DHTworker ι × ResponsePacket} (h : receiveIndexPacketDeleteRequest E w p = .ok r) :
    r.2 = statusResponse p.cid StatusCode.NO_DATA_FOUND := by
  repeat obtain ⟨_, -, h⟩ := bind_eq_ok.mp h
  cases h
  rfl

theorem receiveIndexPacketDeleteRequest_cid {w : DHTworker ι} {p : CommunicationPacket}
    {r : DHTworker ι × ResponsePacket} (h : receiveIndexPacketDeleteRequest E w p = .ok r) : r.2.cid = p.cid := by
  rw [receiveIndexPacketDeleteRequest_answer E h]
  rfl

theorem findClosePeersResponse_cid (cid : Cid) (ver : UInt8) (nodes : List (Node ι)) :
    (findClosePeersResponse E cid ver nodes).cid = cid := by
  unfold findClosePeersResponse
  split <;> rfl

theorem receiveFindClosePeers_cid {w : DHTworker ι} {p : CommunicationPacket}
    {r : DHTworker ι × ResponsePacket} (h : receiveFindClosePeers E w p = .ok r) : r.2.cid = p.cid := by
  obtain ⟨_, -, h⟩ := bind_eq_ok.mp h
  cases h
  exact findClosePeersResponse_cid E _ _ _

end Pbote.Kademlia
