import Pbote.Kademlia.Lookup
import Pbote.Packet.IncomingRequest

/-!
# A lookup between two nodes running this code

Node A's `closestNodesLookupTask` sends every node it knows the request `findClosePeersPacket`
builds, which is always version 5. At node B the request parses as an `F` packet and
`handleNewPacket` passes it to `IncomingRequest::receiveFindClosePeersRequest`, which takes
version 4 only: B sends nothing back and its state does not change
(`handleNewPacket_findClosePeersPacket`). With every known node running this code no pass of
A's lookup brings a response, so A's lookup learns no node, whatever B's node table holds
(`closestNodesLookupTask_between_two_nodes`). The version-5 branch of
`DHTworker::receiveFindClosePeers` is never reached through the packet handler; a version-4
request would be served (`handleNewPacket_findClosePeers_v4`).
-/

namespace Pbote.Protocol

open Pbote.Wire Pbote.Kademlia Pbote.Packet Pbote.Packet.IncomingRequest

variable {ι : Type}

/-- The passes of a lookup all of whose requests reach nodes running this code: each pass
brings back, as `N` packets of version `ver` from `fromB`, the responses those nodes send. -/
def servedNet (cid : Nat → Cid) (ver : UInt8) (fromB : String) (answers : List (String × ResponsePacket)) :
    LookupNet :=
  ⟨cid, 0, fun _ => ⟨answers.map fun a => ⟨type.CommN, ver, a.2.cid, fromB, a.2.payload⟩, 0⟩, 0⟩

theorem mem_lookupRequests (E : Env ι) {key : List UInt8} {cid : Nat → Cid} {i : Nat} {ns : List (Node ι)}
    {req : Cid × String × FindClosePeersRequestPacket} (h : req ∈ lookupRequests E key cid i ns) :
    ∃ j, req.2.2 = findClosePeersPacket key (cid j) := by
  induction ns generalizing i with
  | nil => simp [lookupRequests] at h
  | cons n ns ih =>
    rcases List.mem_cons.mp h with rfl | h
    · exact ⟨i, rfl⟩
    · exact ih h

variable (R : Runtime ι)

theorem handleNewPacket_findClosePeersPacket (pending : List Cid) (w : DHTworker ι) («from» : String)
    (key : List UInt8) {cid : Cid} (hc : cid.length = 32) (hp : cid ∉ pending) :
    handleNewPacket R pending w «from» (findClosePeersPacket key cid).toByte = .ok (refused w) := by
  have hparse := parseCommPacket_toByte «from» ⟨type.CommF, 5, cid, "", key⟩
    (show type.CommF ∈ knownTypes by decide) hc
  simp only [FindClosePeersRequestPacket.toByte, findClosePeersPacket, handleNewPacket, hparse,
    contextReceive, hp, decide_False, Bool.false_eq_true, if_false]
  rfl

theorem handleNewPacket_findClosePeers_v4 (pending : List Cid) (w : DHTworker ι) («from» : String)
    {key : List UInt8} (hk : key.length = 32) {cid : Cid} (hc : cid.length = 32) (hp : cid ∉ pending) :
    let w' := (addNodeFromBase64 R.env w «from»).2
    handleNewPacket R pending w «from» (FindClosePeersRequestPacket.toByte ⟨4, cid, key⟩) =
      .ok ⟨true, w', [(«from», findClosePeersResponse R.env cid 4 (getAllNodes w'))], []⟩ := by
  have hparse := parseCommPacket_toByte «from» ⟨type.CommF, 4, cid, "", key⟩
    (show type.CommF ∈ knownTypes by decide) hc
  simp only [FindClosePeersRequestPacket.toByte, handleNewPacket, hparse, contextReceive, hp,
    decide_False, Bool.false_eq_true, if_false]
  show dhtRequest type.CommF (receiveFindClosePeers R.env) w _ = _
  simp [dhtRequest, receiveFindClosePeers, copyBytes_of_le (show 0 + 32 ≤ key.length by omega), bind, Except.bind,
    pure, Except.pure, Except.map]

/-- Two nodes running this code: B refuses each request of A's lookup whatever its state,
so the passes bring nothing, and A's lookup returns no node and leaves A's node table as it
was, whatever B's node table holds. -/
theorem closestNodesLookupTask_between_two_nodes (EA : Env ι) (T : Timeouts) (wA : DHTworker ι)
    (key : List UInt8) (cid : Nat → Cid) (hcid : ∀ i, (cid i).length = 32) (pendingB : List Cid)
    (hpend : ∀ i, cid i ∉ pendingB) (wB : DHTworker ι) (fromA fromB : String) (ver : UInt8) :
    (∀ req ∈ lookupRequests EA key cid 0 (getAllNodes wA),
      handleNewPacket R pendingB wB fromA req.2.2.toByte = .ok (refused wB)) ∧
    ∃ r, closestNodesLookupTask EA T wA key (servedNet cid ver fromB (refused wB).sent) = .ok r ∧
      r.closestNodes = [] ∧ r.worker.nodes = wA.nodes := by
  refine ⟨fun req hreq => ?_, closestNodesLookupTask_silent EA T wA key _ fun _ => rfl⟩
  obtain ⟨j, hj⟩ := mem_lookupRequests EA hreq
  rw [hj]
  exact handleNewPacket_findClosePeersPacket R pendingB wB fromA key (hcid j) (hpend j)

/-- A knows only B, and B knows a third node: A's lookup leaves the third node unknown to A. -/
theorem closestNodesLookupTask_between_two_nodes_sample :
    let EA : Env (Fin 4) := ⟨sampleLib, 0⟩
    let RB : Runtime (Fin 4) := { sampleRuntime with env := ⟨sampleLib, 1⟩ }
    let wA := (addNode EA .empty (some 1)).2
    let wB := (addNode RB.env .empty (some 2)).2
    let cid : Nat → Cid := fun i => List.replicate 32 i.toUInt8
    sampleLib.identHash 2 ∈ wB.nodes.keys ∧
      ∃ r, closestNodesLookupTask EA ⟨10, 30, by decide⟩ wA [] (servedNet cid 4 "N1" (refused wB).sent) = .ok r ∧
        sampleLib.identHash 2 ∉ r.worker.nodes.keys := by
  intro EA RB wA wB cid
  obtain ⟨-, r, hr, -, hn⟩ := closestNodesLookupTask_between_two_nodes RB EA ⟨10, 30, by decide⟩ wA [] cid
    (fun _ => List.length_replicate _ _) [] (fun _ => List.not_mem_nil _) wB "N0" "N1" 4
  refine ⟨by decide, r, hr, ?_⟩
  rw [hn]
  decide

end Pbote.Protocol
