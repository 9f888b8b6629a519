import Pbote.Packet.IncomingRequest

/-!
# A retrieve between two nodes running this code

Node A's `find` sends each node a `RetrieveRequestPacket` for a class and a key. At node B a
version-4 request parses as a `Q` packet, `handleNewPacket` passes it to
`receiveRetrieveRequest`, and B answers on the request's CID: `OK` with the packet its store
holds under the key, `NO_DATA_FOUND` when it holds none, `INVALID_PACKET` for an unknown class.
Back at A the answer parses as an `N` packet on a CID that A's batch waits on, so
`handleNewPacket` hands it to the batch, and `responseBody`, the parser of the check round and
the lookup, reads from it what `retrieved` says (`retrieve_round_trip`).

The answer's `length` field is the data's size stored into a `uint16_t`, and the parser copies
that many bytes: a stored packet of 65536 bytes or more comes back cut to its size modulo
2^16. A shorter one comes back whole (`retrieved_of_lt`).
-/

namespace Pbote.Protocol

open Pbote.Wire Pbote.Kademlia Pbote.Packet Pbote.Packet.IncomingRequest

variable {ι : Type}

/-- What a parser with minimum `minLen` reads from B's answer to a retrieve request: the stored
packet of a known class, cut to the `uint16_t` its size is stored into, when that is at least
`minLen`. -/
def retrieved (st : DHTStorage) (dataType : UInt8) (key : List UInt8) (minLen : Nat) : Option (List UInt8) :=
  let data := st.get dataType key
  if (dataType = DataI ∨ dataType = DataE ∨ dataType = DataC) ∧ data ≠ [] ∧ minLen ≤ data.length % 65536 then
    some (data.take (data.length % 65536))
  else none

theorem retrieved_of_lt {st : DHTStorage} {dataType : UInt8} {key : List UInt8} {minLen : Nat}
    (hc : dataType = DataI ∨ dataType = DataE ∨ dataType = DataC) (hne : st.get dataType key ≠ [])
    (hlt : (st.get dataType key).length < 65536) (hmin : minLen ≤ (st.get dataType key).length) :
    retrieved st dataType key minLen = some (st.get dataType key) := by
  rw [retrieved, Nat.mod_eq_of_lt hlt, if_pos ⟨hc, hne, hmin⟩, List.take_length]

theorem receiveRetrieveRequest_answer (E : Env ι) (st : DHTStorage) (w : DHTworker ι) {p : CommunicationPacket}
    {dataType : UInt8} {key : List UInt8} (hp : p.payload = dataType :: key) (hk : key.length = 32) :
    ∃ r, Kademlia.receiveRetrieveRequest E st w p = .ok ((addNodeFromBase64 E w p.from).2, r) ∧ r.cid = p.cid ∧
      ∀ minLen ver «from», responseBody minLen ⟨type.CommN, ver, r.cid, «from», r.payload⟩ =
        .ok (retrieved st dataType key minLen) := by
  have h0 : readU8 p.payload 0 = .ok dataType := readU8_eq_ok.mpr (by simp [hp])
  have h1 : copyBytes p.payload 1 32 = .ok key := by
    rw [copyBytes_of_le (by simp [hp, hk])]
    simp [hp, ← hk]
  simp only [Kademlia.receiveRetrieveRequest, h0, h1, bind, Except.bind, pure, Except.pure]
  split_ifs with hc hd
  · refine ⟨_, rfl, rfl, fun minLen ver «from» => ?_⟩
    rw [responseBody_payload (by simp [statusResponse]),
      if_neg (by simp [statusResponse, StatusCode.NO_DATA_FOUND, StatusCode.OK]), retrieved,
      if_neg (by simp [List.isEmpty_iff.mp hd])]
  · refine ⟨_, rfl, rfl, fun minLen ver «from» => ?_⟩
    rw [responseBody_payload (by simp; omega), retrieved]
    simp_all
  · refine ⟨_, rfl, rfl, fun minLen ver «from» => ?_⟩
    rw [responseBody_payload (by simp [statusResponse]),
      if_neg (by simp [statusResponse, StatusCode.INVALID_PACKET, StatusCode.OK]), retrieved,
      if_neg (by simp [hc])]

variable (RA RB : Runtime ι)

/-- A retrieve between two nodes: B serves A's version-4 request and answers on its CID; A's
packet handler hands the answer to the batch waiting on that CID; and the parser reads from it
what `retrieved` says. -/
theorem retrieve_round_trip (pendingA pendingB : List Cid) (wA wB : DHTworker ι) (a b : String) (ver : UInt8)
    (minLen : Nat) (q : RetrieveRequestPacket) (hc : q.cid.length = 32) (hk : q.key.length = 32)
    (hA : q.cid ∈ pendingA) (hB : q.cid ∉ pendingB) :
    ∃ r, handleNewPacket RB pendingB wB a (q.toByte 4) =
        .ok ⟨true, (addNodeFromBase64 RB.env wB a).2, [(a, r)], []⟩ ∧
      handleNewPacket RA pendingA wA b (r.toByte ver) = .ok ⟨true, wA, [], [⟨type.CommN, ver, q.cid, b, r.payload⟩]⟩ ∧
      responseBody minLen ⟨type.CommN, ver, q.cid, b, r.payload⟩ = .ok (retrieved RB.storage q.dataType q.key minLen) := by
  let p : CommunicationPacket := ⟨type.CommQ, 4, q.cid, a, q.dataType :: q.key⟩
  obtain ⟨r, hr, hcid, hbody⟩ := receiveRetrieveRequest_answer RB.env RB.storage wB (show p.payload = _ from rfl) hk
  have hcid : r.cid = q.cid := hcid
  have hqB := parseCommPacket_toByte a ⟨type.CommQ, 4, q.cid, "", q.dataType :: q.key⟩
    (show type.CommQ ∈ knownTypes by decide) hc
  have hrA := parseCommPacket_toByte b ⟨type.CommN, ver, q.cid, "", r.payload⟩
    (show type.CommN ∈ knownTypes by decide) hc
  refine ⟨r, ?_, ?_, hcid ▸ hbody minLen ver b⟩
  · simp only [RetrieveRequestPacket.toByte, handleNewPacket, hqB, contextReceive, hB, decide_False,
      Bool.false_eq_true, if_false]
    show dhtRequest type.CommQ (Kademlia.receiveRetrieveRequest RB.env RB.storage) wB p = _
    rw [dhtRequest, if_pos ⟨rfl, rfl⟩, hr]
    rfl
  · simp only [ResponsePacket.toByte, hcid, handleNewPacket, hrA, contextReceive, hA, decide_True, if_true]

/-- B holds `[5, 9]` as the index packet under every key: A's batch gets B's answer, and the
parser reads `[5, 9]` from it. -/
theorem retrieve_round_trip_sample :
    let RB : Runtime (Fin 4) := { sampleRuntime with storage := ⟨fun _ => [5, 9], fun _ => [], fun _ => []⟩ }
    let q : RetrieveRequestPacket := ⟨List.replicate 32 7, DataI, List.replicate 32 1⟩
    ∃ r, handleNewPacket RB [] .empty "A" (q.toByte 4) =
        .ok ⟨true, (addNodeFromBase64 RB.env .empty "A").2, [("A", r)], []⟩ ∧
      handleNewPacket sampleRuntime [q.cid] .empty "B" (r.toByte 4) =
        .ok ⟨true, .empty, [], [⟨type.CommN, 4, q.cid, "B", r.payload⟩]⟩ ∧
      responseBody 1 ⟨type.CommN, 4, q.cid, "B", r.payload⟩ = .ok (some [5, 9]) := by
  intro RB q
  obtain ⟨r, h1, h2, h3⟩ := retrieve_round_trip sampleRuntime RB [q.cid] [] .empty .empty "A" "B" 4 1 q
    (List.length_replicate _ _) (List.length_replicate _ _) (List.mem_singleton_self _) (List.not_mem_nil _)
  exact ⟨r, h1, h2, h3.trans (congrArg _ (by decide))⟩

end Pbote.Protocol
