import Pbote.Kademlia.Lookup

/-!
# The client verbs `find` and `store`

Both run a closest-nodes lookup on the key, fall back to every record of the table when the
lookup found fewer than `MIN_CLOSEST_NODES` nodes, send one request per node in a batch with a
fresh CID each, and send the batch again, up to five times, while it holds no response. `find`
returns the responses and `store` the sender of each: `store` never looks at a response's
status, so a node that refused the data counts as one that stored it (`store_eq`).

What the batch meets is an input, `BatchNet`: the CIDs drawn and the responses it holds after
each send. `resendLoop_spec` says which send a verb returns the responses of.

The lookup returns only nodes it has just put into the table, so when it finds one or two,
the records appended after them include them again: each node found is sent two requests
(`find_store_query_twice`).
-/

namespace Pbote.Kademlia

open Pbote.Wire

/-- What a verb's batch meets: the CID `random_cid` draws for the request to the `i`-th node,
and the responses the batch holds after send `k` (`0` the first, then up to five resends). -/
structure BatchNet where
  cid : Nat → Cid
  responses : Nat → List CommunicationPacket

/-- What one call of `find` or `store` meets: its lookup, then its batch. -/
structure VerbNet where
  lookup : LookupNet
  batch : BatchNet

structure VerbResult (ι α : Type) where
  responses : List CommunicationPacket
  worker : DHTworker ι
  requests : List (String × α)

variable {ι : Type} (E : Env ι) (T : Timeouts)

/-- The nodes a verb sends to: the lookup's, followed by every record of the table when the
lookup found fewer than `MIN_CLOSEST_NODES`; none when even that is too few. -/
def verbNodes (closest : List (Node ι)) (w : DHTworker ι) : Option (List (Node ι)) :=
  if closest.length < MIN_CLOSEST_NODES then
    let all := closest ++ getAllNodes w
    if all.length < MIN_CLOSEST_NODES then none else some all
  else some closest

/-- `while (batch->responseCount() < 1 && counter < 5)`: the send whose responses are kept. -/
def resendLoop (responses : Nat → List CommunicationPacket) (counter : Nat) : Nat → Nat
  | 0 => counter
  | fuel + 1 => if (responses counter).isEmpty then resendLoop responses (counter + 1) fuel else counter

def batchRequests {α : Type} (request : Cid → α) (cid : Nat → Cid) (i : Nat) :
    List (Node ι) → List (String × α)
  | [] => []
  | n :: ns => (E.lib.base64Of n.identity, request (cid i)) :: batchRequests request cid (i + 1) ns

/-- What `find` and `store` share, for requests built by `request` from their CID. -/
def batchVerb {α : Type} (w : DHTworker ι) (key : List UInt8) (request : Cid → α) (net : VerbNet) :
    Except Fault (VerbResult ι α) := do
  let r ← closestNodesLookupTask E T w key net.lookup
  match verbNodes r.closestNodes r.worker with
  | none => pure ⟨[], r.worker, []⟩
  | some nodes =>
    pure ⟨net.batch.responses (resendLoop net.batch.responses 0 5), r.worker,
      batchRequests E request net.batch.cid 0 nodes⟩

/-- `DHTworker::find`; `findOne` and `findAll` differ only in how long a send waits, which is
part of what the batch meets. -/
def find (w : DHTworker ι) (key : List UInt8) (dataType : UInt8) (net : VerbNet) :
    Except Fault (VerbResult ι RetrieveRequestPacket) :=
  batchVerb E T w key (fun cid => ⟨cid, dataType, key⟩) net

/-- `DHTworker::store`: the sender of every response the batch holds, the node table after the
lookup, and the requests sent. -/
def store (w : DHTworker ι) (hash : List UInt8) (packet : StoreRequestPacket) (net : VerbNet) :
    Except Fault (List String × DHTworker ι × List (String × StoreRequestPacket)) :=
  (batchVerb E T w hash (fun cid => { packet with cid := cid }) net).map fun r =>
    (r.responses.map (·.from), r.worker, r.requests)

/-! ## The resends -/

theorem resendLoop_spec (responses : Nat → List CommunicationPacket) (counter fuel : Nat) :
    counter ≤ resendLoop responses counter fuel ∧ resendLoop responses counter fuel ≤ counter + fuel ∧
      (∀ j, counter ≤ j → j < resendLoop responses counter fuel → responses j = []) ∧
      (responses (resendLoop responses counter fuel) ≠ [] ∨ resendLoop responses counter fuel = counter + fuel) := by
  induction fuel generalizing counter with
  | zero => exact ⟨le_rfl, le_rfl, fun j h1 h2 => absurd h2 (by simp only [resendLoop]; omega), .inr rfl⟩
  | succ fuel ih =>
    by_cases h : (responses counter).isEmpty
    · obtain ⟨h1, h2, h3, h4⟩ := ih (counter + 1)
      rw [resendLoop, if_pos h]
      refine ⟨by omega, by omega, fun j hj1 hj2 => ?_, h4.imp_right fun h => by omega⟩
      rcases Nat.eq_or_lt_of_le hj1 with rfl | hj1
      · exact List.isEmpty_iff.mp h
      · exact h3 j hj1 hj2
    · rw [resendLoop, if_neg h]
      exact ⟨le_rfl, by omega, fun j h1 h2 => absurd h2 (by omega),
        .inl fun he => h (List.isEmpty_iff.mpr he)⟩

theorem resendLoop_of_first {responses : Nat → List CommunicationPacket} (h : responses 0 ≠ []) (fuel : Nat) :
    resendLoop responses 0 (fuel + 1) = 0 :=
  if_neg fun he => h (List.isEmpty_iff.mp he)

/-! ## The requests -/

theorem mem_batchRequests {α : Type} {request : Cid → α} {cid : Nat → Cid} {i : Nat} {ns : List (Node ι)}
    {q : String × α} (h : q ∈ batchRequests E request cid i ns) : ∃ c, q.2 = request c := by
  induction ns generalizing i with
  | nil => nomatch h
  | cons n ns ih =>
    rcases List.mem_cons.mp h with rfl | h
    · exact ⟨_, rfl⟩
    · exact ih h

theorem batchVerb_requests {α : Type} {w : DHTworker ι} {key : List UInt8} {request : Cid → α} {net : VerbNet}
    {res : VerbResult ι α} (h : batchVerb E T w key request net = .ok res) :
    ∀ q ∈ res.requests, ∃ c, q.2 = request c := by
  obtain ⟨r, -, h⟩ := bind_eq_ok.mp h
  split at h <;> cases h
  · nofun
  · exact fun q hq => mem_batchRequests E hq

/-! ## `store` -/

theorem store_eq (w : DHTworker ι) (hash : List UInt8) (packet : StoreRequestPacket) (net : VerbNet) :
    store E T w hash packet net =
      (batchVerb E T w hash (fun cid => { packet with cid := cid }) net).map fun r =>
        (r.responses.map (·.from), r.worker, r.requests) := rfl

theorem store_requests {w : DHTworker ι} {hash : List UInt8} {packet : StoreRequestPacket} {net : VerbNet}
    {out : List String × DHTworker ι × List (String × StoreRequestPacket)}
    (h : store E T w hash packet net = .ok out) : ∀ q ∈ out.2.2, ∃ c, q.2 = { packet with cid := c } := by
  obtain ⟨res, hb, rfl⟩ := map_eq_ok.mp h
  exact batchVerb_requests E T hb

theorem verbNodes_of_le {w : DHTworker ι} (h : MIN_CLOSEST_NODES ≤ (getAllNodes w).length) :
    verbNodes [] w = some (getAllNodes w) := by
  simp only [verbNodes, List.length_nil, List.nil_append]
  rw [if_pos (by decide), if_neg (by omega)]

theorem batchVerb_of_silent {α : Type} (w : DHTworker ι) (key : List UInt8) (request : Cid → α) (net : VerbNet)
    (hl : ∀ i, (net.lookup.round i).responses = []) (hn : MIN_CLOSEST_NODES ≤ (getAllNodes w).length) :
    ∃ w', batchVerb E T w key request net =
      .ok ⟨net.batch.responses (resendLoop net.batch.responses 0 5), w',
        batchRequests E request net.batch.cid 0 (getAllNodes w)⟩ ∧ w'.nodes = w.nodes := by
  obtain ⟨r, hr, hc, hw⟩ := closestNodesLookupTask_silent E T w key net.lookup hl
  have hnodes : getAllNodes r.worker = getAllNodes w := by simp only [getAllNodes, hw]
  refine ⟨r.worker, ?_, hw⟩
  simp only [batchVerb, hr, bind, Except.bind, hc, verbNodes_of_le (hnodes ▸ hn), hnodes]
  rfl

theorem store_of_silent (w : DHTworker ι) (hash : List UInt8) (packet : StoreRequestPacket) (net : VerbNet)
    (hl : ∀ i, (net.lookup.round i).responses = []) (hn : MIN_CLOSEST_NODES ≤ (getAllNodes w).length) :
    ∃ w', store E T w hash packet net =
      .ok ((net.batch.responses (resendLoop net.batch.responses 0 5)).map (·.from), w',
        batchRequests E (fun cid => { packet with cid := cid }) net.batch.cid 0 (getAllNodes w)) ∧
      w'.nodes = w.nodes := by
  obtain ⟨w', h, hw⟩ := batchVerb_of_silent E T w hash (fun cid => { packet with cid := cid }) net hl hn
  exact ⟨w', by rw [store_eq, h]; rfl, hw⟩

/-! ## A node found by the lookup is asked twice -/

theorem verbNodes_of_lt {closest : List (Node ι)} {w : DHTworker ι} (hfew : closest.length < MIN_CLOSEST_NODES)
    (henough : MIN_CLOSEST_NODES ≤ closest.length + (getAllNodes w).length) :
    verbNodes closest w = some (closest ++ getAllNodes w) := by
  rw [verbNodes, if_pos hfew, if_neg (by simp only [List.length_append]; omega)]

theorem batchRequests_map_fst {α : Type} (request : Cid → α) (cid : Nat → Cid) (i : Nat) (ns : List (Node ι)) :
    (batchRequests E request cid i ns).map Prod.fst = ns.map fun n => E.lib.base64Of n.identity := by
  induction ns generalizing i with
  | nil => rfl
  | cons n ns ih => simp only [batchRequests, List.map_cons, ih]

theorem batchVerb_of_lookup {α : Type} (w : DHTworker ι) (key : List UInt8) (request : Cid → α) (net : VerbNet)
    {r : LookupResult ι} (hr : closestNodesLookupTask E T w key net.lookup = .ok r) {nodes : List (Node ι)}
    (hn : verbNodes r.closestNodes r.worker = some nodes) :
    batchVerb E T w key request net =
      .ok ⟨net.batch.responses (resendLoop net.batch.responses 0 5), r.worker,
        batchRequests E request net.batch.cid 0 nodes⟩ := by
  simp only [batchVerb, hr, bind, Except.bind, hn]
  rfl

theorem batchVerb_requests_twice (hl : E.lib.Lawful) {α : Type} (w : DHTworker ι) (key : List UInt8)
    (request : Cid → α) (net : VerbNet) {r : LookupResult ι}
    (hr : closestNodesLookupTask E T w key net.lookup = .ok r) (hfew : r.closestNodes.length < MIN_CLOSEST_NODES)
    (henough : MIN_CLOSEST_NODES ≤ r.closestNodes.length + (getAllNodes r.worker).length) :
    ∃ res, batchVerb E T w key request net = .ok res ∧
      ∀ n ∈ r.closestNodes, 2 ≤ (res.requests.map Prod.fst).count (E.lib.base64Of n.identity) := by
  refine ⟨_, batchVerb_of_lookup E T w key request net hr (verbNodes_of_lt hfew henough), fun n hn => ?_⟩
  have hall : n ∈ getAllNodes r.worker :=
    List.mem_map.mpr ⟨_, closestNodesLookupTask_closest_mem E T hl hr n hn, rfl⟩
  have h1 : 0 < ((r.closestNodes.map fun n => E.lib.base64Of n.identity).count (E.lib.base64Of n.identity)) :=
    List.count_pos_iff.mpr (List.mem_map_of_mem _ hn)
  have h2 : 0 < ((getAllNodes r.worker).map fun n => E.lib.base64Of n.identity).count (E.lib.base64Of n.identity) :=
    List.count_pos_iff.mpr (List.mem_map_of_mem _ hall)
  simp only [batchRequests_map_fst, List.map_append, List.count_append]
  omega

/-- `find` and `store` after a lookup that found one or two nodes, on a table that makes up
`MIN_CLOSEST_NODES`: each node found is sent two requests. -/
theorem find_store_query_twice (hl : E.lib.Lawful) (w : DHTworker ι) (key : List UInt8) (dataType : UInt8)
    (packet : StoreRequestPacket) (net : VerbNet) {r : LookupResult ι}
    (hr : closestNodesLookupTask E T w key net.lookup = .ok r) (hfew : r.closestNodes.length < MIN_CLOSEST_NODES)
    (henough : MIN_CLOSEST_NODES ≤ r.closestNodes.length + (getAllNodes r.worker).length) :
    (∃ res, find E T w key dataType net = .ok res ∧
      ∀ n ∈ r.closestNodes, 2 ≤ (res.requests.map Prod.fst).count (E.lib.base64Of n.identity)) ∧
    (∃ out, store E T w key packet net = .ok out ∧
      ∀ n ∈ r.closestNodes, 2 ≤ (out.2.2.map Prod.fst).count (E.lib.base64Of n.identity)) := by
  obtain ⟨res, h, hc⟩ := batchVerb_requests_twice E T hl w key (fun cid => { packet with cid := cid }) net hr hfew henough
  exact ⟨batchVerb_requests_twice E T hl w key _ net hr hfew henough, _, by rw [store_eq, h]; rfl, hc⟩

set_option maxRecDepth 20000 in
/-- The sample lookup finds `N3`, so `store` sends to `N3`, `N1`, `N2` and `N3` again; with
both requests to `N3` answered it lists `N3` twice among the nodes that stored the packet. -/
theorem find_store_query_twice_sample :
    let E : Env (Fin 4) := ⟨sampleLib, 0⟩
    let T : Timeouts := ⟨10, 10, by decide⟩
    let packet : StoreRequestPacket := ⟨[], 0, [], 0, []⟩
    let net : VerbNet := ⟨sampleLookupNet, ⟨sampleCid, fun _ =>
      [⟨type.CommN, 4, sampleCid 0, "N3", []⟩, ⟨type.CommN, 4, sampleCid 3, "N3", []⟩]⟩⟩
    ∃ r, sampleLib.Lawful ∧ closestNodesLookupTask E T sampleTable [] net.lookup = .ok r ∧
      r.closestNodes.length < MIN_CLOSEST_NODES ∧
      MIN_CLOSEST_NODES ≤ r.closestNodes.length + (getAllNodes r.worker).length ∧
      ((∃ res, find E T sampleTable [] DataE net = .ok res ∧
        ∀ n ∈ r.closestNodes, 2 ≤ (res.requests.map Prod.fst).count (E.lib.base64Of n.identity)) ∧
      (∃ out, store E T sampleTable [] packet net = .ok out ∧
        ∀ n ∈ r.closestNodes, 2 ≤ (out.2.2.map Prod.fst).count (E.lib.base64Of n.identity))) ∧
      (store E T sampleTable [] packet net).toOption.map (fun out => (out.1, out.2.2.map Prod.fst)) =
        some (["N3", "N3"], ["N3", "N1", "N2", "N3"]) := by
  intro E T packet net
  obtain ⟨r, hr, hc, hall, -⟩ := sampleLookup_run
  have hfew : r.closestNodes.length < MIN_CLOSEST_NODES := by rw [hc]; decide
  have henough : MIN_CLOSEST_NODES ≤ r.closestNodes.length + (getAllNodes r.worker).length := by
    rw [hc, hall]; decide
  exact ⟨r, sampleLib_lawful, hr, hfew, henough,
    find_store_query_twice E T sampleLib_lawful sampleTable [] DataE packet net hr hfew henough, by decide⟩

end Pbote.Kademlia
