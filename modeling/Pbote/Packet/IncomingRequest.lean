import Pbote.Kademlia.Handlers

/-!
# The packet handler `IncomingRequest`

`handleNewPacket` parses a datagram, hands it to a live batch when a batch waits on its CID,
and otherwise calls the handler `incomingPacketHandlers_` holds for its type. It logs the map
entry it found before comparing it with `end()`, so a packet whose type has no handler
dereferences the end iterator; and the DHT handlers read a short payload past its end
(`handleNewPacket_reads_past_payload`).

The DHT request handlers pass on a version-4 packet of their own type and refuse anything
else. `receiveResponsePkt` reads a response no batch waits for: it copies `dataLen` bytes
whatever the payload's size, and reads `data[0]` even when `dataLen` is zero.
-/

namespace Pbote.Packet

open Pbote.Wire Pbote.Kademlia

/-- The relay peers worker, whose code is not among the sources: what it makes of a peer list,
and the response `peerListRequestV4(from, cid)` and `peerListRequestV5(from, cid)` send back to
the sender `from` of a peer list request, if they send one. -/
structure RelayPeersWorker where
  receivePeerListV4 : List UInt8 → Bool
  receivePeerListV5 : List UInt8 → Bool
  peerListRequestV4 : String → Cid → Option ResponsePacket
  peerListRequestV5 : String → Cid → Option ResponsePacket

/-- The relay answers a peer list request on the request's CID. -/
def RelayPeersWorker.OnCid (rl : RelayPeersWorker) : Prop :=
  ∀ «from» cid r, rl.peerListRequestV4 «from» cid = some r ∨ rl.peerListRequestV5 «from» cid = some r → r.cid = cid

/-- What a node's packet handler works with besides the DHT state: the identity library and
local destination, the content store, the host's byte order and the relay peers worker. -/
structure Runtime (ι : Type) where
  env : Env ι
  storage : DHTStorage
  host : ByteOrder
  relay : RelayPeersWorker

/-- What handling one datagram did: the handler's result, the DHT state after it, the
responses sent as `(destination, response)`, and the packets handed to live batches. -/
structure Handled (ι : Type) where
  result : Bool
  worker : DHTworker ι
  sent : List (String × ResponsePacket)
  batched : List CommunicationPacket

variable {ι : Type} (R : Runtime ι)

/-- A handler that returns `false` having done nothing. -/
def refused (w : DHTworker ι) : Handled ι := ⟨false, w, [], []⟩

/-- Modelled from the spec: `context.receive` takes a packet whose CID a live batch waits on. -/
def contextReceive (pending : List Cid) (p : CommunicationPacket) : Bool := p.cid ∈ pending

namespace IncomingRequest

/-- `receiveRelayRequest` and `receiveRelayReturnRequest`, which are not implemented:
`true`, with nothing read. -/
def notImplemented (w : DHTworker ι) (_ : CommunicationPacket) : Except Fault (Handled ι) :=
  .ok ⟨true, w, [], []⟩

def receiveRelayRequest : DHTworker ι → CommunicationPacket → Except Fault (Handled ι) := notImplemented
def receiveRelayReturnRequest : DHTworker ι → CommunicationPacket → Except Fault (Handled ι) := notImplemented

/-- `IncomingRequest::receiveResponsePkt`, for a response no batch waits for. The size
mismatch is only logged; `data[0]` picks the branch and `data[1]` is read for the logs. -/
def receiveResponsePkt (w : DHTworker ι) (p : CommunicationPacket) : Except Fault (Handled ι) := do
  let (_status, dataLen) ← readResponseHeader p.payload
  let data ← responseData p.payload dataLen
  let t ← readU8 data 0
  if isPeerListTag t then
    if p.ver = 4 then do
      let _ver ← readU8 data 1
      pure ⟨R.relay.receivePeerListV4 data, w, [], []⟩
    else if p.ver = 5 then do
      let _ver ← readU8 data 1
      pure ⟨R.relay.receivePeerListV5 data, w, [], []⟩
    else do
      let _ver ← readU8 data 1
      let _ver ← readU8 data 1
      pure (refused w)
  else if t = DataI ∨ t = DataE ∨ t = DataC then pure ⟨true, w, [], []⟩
  else do
    let _ver ← readU8 data 1
    pure (refused w)

/-- `IncomingRequest::receivePeerListRequest`: the relay peers worker answers a request of
version 4 or 5, and anything else is refused. -/
def receivePeerListRequest (w : DHTworker ι) (p : CommunicationPacket) : Except Fault (Handled ι) :=
  .ok (if p.ver = 4 then ⟨true, w, (R.relay.peerListRequestV4 p.from p.cid).toList.map (p.from, ·), []⟩
    else if p.ver = 5 then ⟨true, w, (R.relay.peerListRequestV5 p.from p.cid).toList.map (p.from, ·), []⟩
    else refused w)

/-- The DHT request handlers of `IncomingRequest`: a version-4 packet of type `t` goes to the
`DHT_worker` handler, whose response is sent to the packet's sender; anything else is refused. -/
def dhtRequest (t : UInt8)
    (handler : DHTworker ι → CommunicationPacket → Except Fault (DHTworker ι × ResponsePacket))
    (w : DHTworker ι) (p : CommunicationPacket) : Except Fault (Handled ι) :=
  if p.ver = 4 ∧ p.type = t then (handler w p).map fun r => ⟨true, r.1, [(p.from, r.2)], []⟩
  else .ok (refused w)

def receiveRetrieveRequest : DHTworker ι → CommunicationPacket → Except Fault (Handled ι) :=
  dhtRequest type.CommQ (Kademlia.receiveRetrieveRequest R.env R.storage)

def receiveStoreRequest : DHTworker ι → CommunicationPacket → Except Fault (Handled ι) :=
  dhtRequest type.CommS (Kademlia.receiveStoreRequest R.env R.host)

def receiveEmailPacketDeleteRequest : DHTworker ι → CommunicationPacket → Except Fault (Handled ι) :=
  dhtRequest type.CommD (Kademlia.receiveEmailPacketDeleteRequest R.env)

def receiveIndexPacketDeleteRequest : DHTworker ι → CommunicationPacket → Except Fault (Handled ι) :=
  dhtRequest type.CommX (Kademlia.receiveIndexPacketDeleteRequest R.env)

def receiveFindClosePeersRequest : DHTworker ι → CommunicationPacket → Except Fault (Handled ι) :=
  dhtRequest type.CommF (Kademlia.receiveFindClosePeers R.env)

/-- `IncomingRequest::receiveDeletionQueryRequest`, which also takes an `L` packet. -/
def receiveDeletionQueryRequest (w : DHTworker ι) (p : CommunicationPacket) : Except Fault (Handled ι) :=
  if p.ver = 4 ∧ p.type = type.CommY then
    (receiveDeletionQuery R.env w p).map fun r => ⟨true, r.1, [(p.from, r.2)], []⟩
  else if p.ver = 4 ∧ p.type = 'L'.toUInt8 then
    (receiveDeletionQuery R.env w p).map fun r => ⟨true, r.1, [(p.from, r.2)], []⟩
  else .ok (refused w)

/-- `incomingPacketHandlers_` as the constructor fills it. -/
def incomingPacketHandlers :
    List (UInt8 × (DHTworker ι → CommunicationPacket → Except Fault (Handled ι))) :=
  [(type.CommR, receiveRelayRequest), (type.CommK, receiveRelayReturnRequest),
    (type.CommN, receiveResponsePkt R), (type.CommA, receivePeerListRequest R),
    (type.CommQ, receiveRetrieveRequest R), (type.CommY, receiveDeletionQueryRequest R),
    (type.CommS, receiveStoreRequest R), (type.CommD, receiveEmailPacketDeleteRequest R),
    (type.CommX, receiveIndexPacketDeleteRequest R), (type.CommF, receiveFindClosePeersRequest R)]

/-- `IncomingRequest::handleNewPacket` on a datagram from `from`, while live batches wait on
the CIDs `pending`. -/
def handleNewPacket (pending : List Cid) (w : DHTworker ι) («from» : String) (buf : List UInt8) :
    Except Fault (Handled ι) :=
  match parseCommPacket «from» buf with
  | none => .ok (refused w)
  | some p =>
    if contextReceive pending p then .ok ⟨true, w, [], [p]⟩
    else match (incomingPacketHandlers R).lookup p.type with
      | some handler => handler w p
      | none => .error .endIterator

def handlerTypes : List UInt8 :=
  [type.CommR, type.CommK, type.CommN, type.CommA, type.CommQ, type.CommY, type.CommS, type.CommD,
    type.CommX, type.CommF]

def dhtRequestTypes : List UInt8 := [type.CommQ, type.CommY, type.CommS, type.CommD, type.CommX, type.CommF]

/-! ## Dispatch -/

theorem lookup_eq_none {t : UInt8} : (incomingPacketHandlers R).lookup t = none ↔ t ∉ handlerTypes := by
  simp [List.lookup_eq_none_iff, incomingPacketHandlers, handlerTypes]

theorem receiveDeletionQueryRequest_of_type {w : DHTworker ι} {p : CommunicationPacket} (h : p.type = type.CommY) :
    receiveDeletionQueryRequest R w p = dhtRequest type.CommY (receiveDeletionQuery R.env) w p := by
  have hL : type.CommY ≠ 'L'.toUInt8 := by decide
  unfold receiveDeletionQueryRequest dhtRequest
  by_cases hv : p.ver = 4 <;> simp [h, hv, hL]

theorem dhtRequest_of_ver {t : UInt8}
    {handler : DHTworker ι → CommunicationPacket → Except Fault (DHTworker ι × ResponsePacket)}
    {w : DHTworker ι} {p : CommunicationPacket} (hv : p.ver = 4) (ht : p.type = t) :
    dhtRequest t handler w p = (handler w p).map fun r => ⟨true, r.1, [(p.from, r.2)], []⟩ :=
  if_pos ⟨hv, ht⟩

theorem dhtRequest_readsPastEnd_of {t : UInt8}
    {handler : DHTworker ι → CommunicationPacket → Except Fault (DHTworker ι × ResponsePacket)}
    {w : DHTworker ι} {p : CommunicationPacket} (hv : p.ver = 4) (ht : p.type = t)
    (h : ReadsPastEnd (handler w p) p.payload.length) : ReadsPastEnd (dhtRequest t handler w p) p.payload.length := by
  rw [dhtRequest_of_ver hv ht]
  exact h.map _

theorem dhtRequest_readsPastEnd {t : UInt8} (ht : t ∈ dhtRequestTypes) :
    ∃ handler, (incomingPacketHandlers R).lookup t = some handler ∧
      ∀ w p, p.ver = 4 → p.type = t → p.payload.length < fixedFieldsLength t →
        ReadsPastEnd (handler w p) p.payload.length := by
  simp only [dhtRequestTypes, List.mem_cons, List.not_mem_nil, or_false] at ht
  rcases ht with rfl | rfl | rfl | rfl | rfl | rfl
  · exact ⟨_, rfl, fun w p hv ht hlen =>
      dhtRequest_readsPastEnd_of hv ht (receiveRetrieveRequest_readsPastEnd _ _ _ hlen)⟩
  · refine ⟨_, rfl, fun w p hv ht hlen => ?_⟩
    rw [receiveDeletionQueryRequest_of_type R ht]
    exact dhtRequest_readsPastEnd_of hv ht (noDataFoundRequest_readsPastEnd _ _ ⟨(0, 32), List.mem_singleton_self _, hlen⟩)
  · exact ⟨_, rfl, fun w p hv ht hlen =>
      dhtRequest_readsPastEnd_of hv ht (receiveStoreRequest_readsPastEnd _ _ _ hlen)⟩
  · exact ⟨_, rfl, fun w p hv ht hlen =>
      dhtRequest_readsPastEnd_of hv ht (noDataFoundRequest_readsPastEnd _ _ ⟨(32, 32), by simp, hlen⟩)⟩
  · exact ⟨_, rfl, fun w p hv ht hlen =>
      dhtRequest_readsPastEnd_of hv ht (receiveIndexPacketDeleteRequest_readsPastEnd _ _ hlen)⟩
  · exact ⟨_, rfl, fun w p hv ht hlen =>
      dhtRequest_readsPastEnd_of hv ht (receiveFindClosePeers_readsPastEnd _ _ hlen)⟩

theorem handleNewPacket_reads_past_payload (pending : List Cid) (w : DHTworker ι) («from» : String)
    (buf : List UInt8) (p : CommunicationPacket) (hp : parseCommPacket «from» buf = some p)
    (hb : p.cid ∉ pending) :
    (p.type ∉ handlerTypes → handleNewPacket R pending w «from» buf = .error .endIterator) ∧
    (p.ver = 4 → p.type ∈ dhtRequestTypes → p.payload.length < fixedFieldsLength p.type →
      ReadsPastEnd (handleNewPacket R pending w «from» buf) p.payload.length) := by
  simp only [handleNewPacket, hp, contextReceive, hb, decide_False, Bool.false_eq_true, if_false]
  refine ⟨fun ht => by rw [(lookup_eq_none R).mpr ht], fun hv ht hlen => ?_⟩
  obtain ⟨handler, hl, hr⟩ := dhtRequest_readsPastEnd R ht
  rw [hl]
  exact hr w p hv rfl hlen

def sampleRelay : RelayPeersWorker :=
  ⟨fun _ => false, fun _ => false, fun _ cid => some ⟨cid, StatusCode.OK, 4, ['L'.toUInt8, 4, 0, 0]⟩,
    fun _ cid => some ⟨cid, StatusCode.OK, 4, ['L'.toUInt8, 5, 0, 0]⟩⟩

theorem sampleRelay_onCid : sampleRelay.OnCid := by
  rintro _ _ _ (h | h) <;> cases h <;> rfl

def sampleRuntime : Runtime (Fin 4) :=
  ⟨⟨sampleLib, 0⟩, ⟨fun _ => [], fun _ => [], fun _ => []⟩, .littleEndian, sampleRelay⟩

/-- A version-4 retrieve request with an empty payload is read past its end, and an `L`
packet, which `parseCommPacket` accepts and no handler takes, meets the end iterator. -/
theorem handleNewPacket_empty_retrieve :
    let q : CommunicationPacket := ⟨type.CommQ, 4, List.replicate 32 0, "N1", []⟩
    let l : CommunicationPacket := ⟨'L'.toUInt8, 4, List.replicate 32 0, "N1", []⟩
    ReadsPastEnd (handleNewPacket sampleRuntime [] .empty "N1" q.toByte) 0 ∧
      handleNewPacket sampleRuntime [] .empty "N1" l.toByte = .error .endIterator := by
  intro q l
  exact ⟨(handleNewPacket_reads_past_payload _ [] .empty "N1" q.toByte q
      (parseCommPacket_toByte _ q (by decide) rfl) (by simp)).2 rfl (by decide) (by decide),
    (handleNewPacket_reads_past_payload _ [] .empty "N1" l.toByte l
      (parseCommPacket_toByte _ l (by decide) rfl) (by simp)).1 (by decide)⟩

end IncomingRequest

end Pbote.Packet
