import Pbote.Kademlia.PeerList

/-!
# The iterative lookup `closestNodesLookupTask`

A call sends a `FindClosePeers` request to every known node, records each CID in the member
map `active_requests`, and loops: send the batch, `waitLast(RESPONSE_TIMEOUT)`, erase the
CIDs answered, until no request is pending, `CLOSEST_NODES_LOOKUP_TIMEOUT` seconds have
passed, or one pass brought `MIN_CLOSEST_NODES` responses. The responses of the last pass are
then read as peer lists and every node found is offered to `addNode`.

The remote nodes and the clock are an input, `LookupNet`. Every pass lasts at least a second,
so `CLOSEST_NODES_LOOKUP_TIMEOUT` passes of fuel are always enough (`lookupLoop_fuel`).
`active_requests` outlives the call and only an answer removes an entry: an unanswered
request stays pending into the next call, which then cannot stop on an empty map
(`closestNodesLookupTask_stale_request`).
-/

namespace Pbote.Kademlia

open Pbote.Wire

/-- `RESPONSE_TIMEOUT` and `CLOSEST_NODES_LOOKUP_TIMEOUT` of `DHTworker.h`, which is not
among the sources; a wait lasts at least one second. -/
structure Timeouts where
  responseTimeout : Nat
  lookupTimeout : Nat
  responseTimeout_pos : 0 < responseTimeout

/-- Modelled from the spec: `MIN_CLOSEST_NODES = 3`. -/
def MIN_CLOSEST_NODES : Nat := 3

/-- What one pass of the loop meets: `batch->getResponses()` after the wait, and the whole
seconds the pass took beyond `RESPONSE_TIMEOUT`. -/
structure LookupRound where
  responses : List CommunicationPacket
  extra : Nat

/-- The remote nodes and the clock for one call: the CID `random_cid` draws for the `i`-th
request, the seconds spent before the loop, what pass `i` meets, and the seconds the
parsing after the loop takes. -/
structure LookupNet where
  cid : Nat → Cid
  setup : Nat
  round : Nat → LookupRound
  finish : Nat

/-- The loop's variables: `active_requests`, `responses`, the passes made, `exec_duration`. -/
structure LookupLoop (ι : Type) where
  active : StdMap Cid (Node ι)
  responses : List CommunicationPacket
  passes : Nat
  elapsed : Nat

structure LookupResult (ι : Type) where
  closestNodes : List (Node ι)
  worker : DHTworker ι
  requests : List (Cid × String × FindClosePeersRequestPacket)
  passes : Nat
  elapsed : Nat

variable {ι : Type} (E : Env ι) (T : Timeouts)

/-- `DHTworker::findClosePeersPacket`: always version 5. -/
def findClosePeersPacket (key : List UInt8) (cid : Cid) : FindClosePeersRequestPacket := ⟨5, cid, key⟩

/-- The batch: the known node at index `i` gets a request with CID `cid i`. -/
def lookupRequests (key : List UInt8) (cid : Nat → Cid) (i : Nat) :
    List (Node ι) → List (Cid × String × FindClosePeersRequestPacket)
  | [] => []
  | n :: ns => (cid i, E.lib.base64Of n.identity, findClosePeersPacket key (cid i)) ::
      lookupRequests key cid (i + 1) ns

/-- `active_requests.insert({cid, make_shared<Node>(node)})` for each request in turn. -/
def addActive (cid : Nat → Cid) (i : Nat) (active : StdMap Cid (Node ι)) :
    List (Node ι) → StdMap Cid (Node ι)
  | [] => active
  | n :: ns => addActive cid (i + 1) (active.insert (cid i) n).1 ns

/-- Erasing the CID of every response; `gotResponse` touches only the copy being erased. -/
def eraseAnswered (active : StdMap Cid (Node ι)) (responses : List CommunicationPacket) :
    StdMap Cid (Node ι) :=
  responses.foldl (fun a resp => a.erase resp.cid) active

/-- The `while` loop with `fuel` passes allowed. -/
def lookupLoop (net : LookupNet) : Nat → LookupLoop ι → LookupLoop ι
  | 0, s => s
  | fuel + 1, s =>
    if s.active.entries.isEmpty ∨ T.lookupTimeout ≤ s.elapsed then s
    else
      let r := net.round s.passes
      let elapsed := s.elapsed + T.responseTimeout + r.extra
      if r.responses.isEmpty then lookupLoop net fuel ⟨s.active, r.responses, s.passes + 1, elapsed⟩
      else
        let active := eraseAnswered s.active r.responses
        if MIN_CLOSEST_NODES ≤ r.responses.length then ⟨active, r.responses, s.passes + 1, elapsed⟩
        else lookupLoop net fuel ⟨active, r.responses, s.passes + 1, elapsed⟩

/-- How one response of the last pass is read. -/
def lookupResponse (w : DHTworker ι) (resp : CommunicationPacket) :
    Except Fault (List (Node ι) × DHTworker ι) := do
  match ← responseBody 4 resp with
  | none => pure ([], w)
  | some data =>
    let t ← readU8 data 0
    let v ← readU8 data 1
    if v = 4 ∧ isPeerListTag t then receivePeerListV4 E w data
    else if v = 5 ∧ isPeerListTag t then receivePeerListV5 E w data
    else .ok ([], w)

/-- The peers of every response of the last pass, in order. -/
def lookupResponses (w : DHTworker ι) : List CommunicationPacket → Except Fault (List (Node ι) × DHTworker ι)
  | [] => .ok ([], w)
  | resp :: rs => do
    let (peers, w) ← lookupResponse E w resp
    let (rest, w) ← lookupResponses w rs
    pure (peers ++ rest, w)

/-- `for (const auto& node: closestNodes) addNode(node);` -/
def addNodeRecords (w : DHTworker ι) : List (Node ι) → DHTworker ι
  | [] => w
  | n :: ns => addNodeRecords (addNode E w n.identity).2 ns

/-- `DHTworker::closestNodesLookupTask`; `elapsed` includes the closing one-second sleep taken
when the timeout has passed. -/
def closestNodesLookupTask (w : DHTworker ι) (key : List UInt8) (net : LookupNet) :
    Except Fault (LookupResult ι) :=
  let reqNodes := getAllNodes w
  let active := addActive net.cid 0 w.activeRequests reqNodes
  let loop := lookupLoop T net T.lookupTimeout ⟨active, [], 0, net.setup⟩
  match lookupResponses E { w with activeRequests := loop.active } loop.responses with
  | .error e => .error e
  | .ok (closest, w') =>
    let elapsed := loop.elapsed + net.finish
    .ok ⟨closest, addNodeRecords E w' closest, lookupRequests E key net.cid 0 reqNodes, loop.passes,
      if elapsed < T.lookupTimeout then elapsed else elapsed + 1⟩

/-! ## The loop -/

def Unanswered (net : LookupNet) (c : Cid) : Prop := ∀ i, ∀ resp ∈ (net.round i).responses, resp.cid ≠ c

theorem lookupLoop_fuel (net : LookupNet) (n k : Nat) (s : LookupLoop ι)
    (h : T.lookupTimeout ≤ s.elapsed + n) : lookupLoop T net (n + k) s = lookupLoop T net n s := by
  induction n generalizing s with
  | zero =>
    cases k with
    | zero => rfl
    | succ k =>
      simp only [Nat.zero_add, lookupLoop]
      rw [if_pos (.inr (by omega))]
  | succ n ih =>
    have hp := T.responseTimeout_pos
    rw [Nat.add_right_comm]
    simp only [lookupLoop]
    split_ifs <;> first | rfl | exact ih _ (by simp only; omega)

omit E in
theorem mem_keys_addActive {cid : Nat → Cid} {i : Nat} {active : StdMap Cid (Node ι)} {ns : List (Node ι)}
    {c : Cid} (h : c ∈ active.keys) : c ∈ (addActive cid i active ns).keys := by
  induction ns generalizing i active with
  | nil => exact h
  | cons n ns ih => exact ih (StdMap.mem_keys_insert.mpr (.inr h))

omit E in
theorem cid_mem_addActive (cid : Nat → Cid) (i : Nat) (active : StdMap Cid (Node ι)) {ns : List (Node ι)}
    {j : Nat} (hj : j < ns.length) : cid (i + j) ∈ (addActive cid i active ns).keys := by
  induction ns generalizing i j active with
  | nil => simp at hj
  | cons n ns ih =>
    cases j with
    | zero =>
      show cid i ∈ (addActive cid (i + 1) (active.insert (cid i) n).1 ns).keys
      exact mem_keys_addActive (StdMap.mem_keys_insert.mpr (.inl rfl))
    | succ j =>
      rw [show i + (j + 1) = i + 1 + j by omega]
      exact ih (i + 1) _ (by simpa using hj)

omit E in
theorem mem_keys_eraseAnswered {active : StdMap Cid (Node ι)} {rs : List CommunicationPacket} {c : Cid} :
    c ∈ (eraseAnswered active rs).keys ↔ c ∈ active.keys ∧ ∀ r ∈ rs, r.cid ≠ c := by
  induction rs generalizing active with
  | nil => simp [eraseAnswered]
  | cons r rs ih =>
    show c ∈ (eraseAnswered (active.erase r.cid) rs).keys ↔ _
    rw [ih, StdMap.mem_keys_erase]
    simp only [List.mem_cons, forall_eq_or_imp, ne_comm]
    tauto

omit E in
theorem lookupLoop_keeps {net : LookupNet} {c : Cid} (hc : Unanswered net c) (n : Nat) {s : LookupLoop ι}
    (hs : c ∈ s.active.keys) : c ∈ (lookupLoop T net n s).active.keys := by
  induction n generalizing s with
  | zero => exact hs
  | succ n ih =>
    simp only [lookupLoop]
    split_ifs
    · exact hs
    · exact ih hs
    · exact mem_keys_eraseAnswered.mpr ⟨hs, hc _⟩
    · exact ih (mem_keys_eraseAnswered.mpr ⟨hs, hc _⟩)

omit E in
theorem lookupLoop_waits {net : LookupNet} {c : Cid} (hc : Unanswered net c)
    (hfew : ∀ i, (net.round i).responses.length < MIN_CLOSEST_NODES) (n : Nat) {s : LookupLoop ι}
    (hs : c ∈ s.active.keys) (hn : T.lookupTimeout ≤ s.elapsed + n) :
    T.lookupTimeout ≤ (lookupLoop T net n s).elapsed := by
  induction n generalizing s with
  | zero => exact hn
  | succ n ih =>
    have hp := T.responseTimeout_pos
    simp only [lookupLoop]
    split_ifs with h1 h2 h3
    · refine h1.resolve_left fun he => ?_
      obtain ⟨v, hv⟩ := StdMap.mem_keys.mp hs
      simp [List.isEmpty_iff.mp he] at hv
    · exact ih hs (by simp only; omega)
    · exact absurd h3 (Nat.not_le.mpr (hfew _))
    · exact ih (mem_keys_eraseAnswered.mpr ⟨hs, hc _⟩) (by simp only; omega)

/-! ## Only `m_nodes_` changes after the loop -/

theorem lookupResponse_activeRequests {w w' : DHTworker ι} {resp : CommunicationPacket} {p : List (Node ι)}
    (h : lookupResponse E w resp = .ok (p, w')) : w'.activeRequests = w.activeRequests := by
  obtain ⟨body, -, h⟩ := bind_eq_ok.mp h
  cases body with
  | none => cases h; rfl
  | some data =>
    obtain ⟨t, -, h⟩ := bind_eq_ok.mp h
    obtain ⟨v, -, h⟩ := bind_eq_ok.mp h
    split_ifs at h
    · exact receivePeerListV4_activeRequests E h
    · exact receivePeerListV5_activeRequests E h
    · cases h; rfl

theorem lookupResponses_activeRequests {w w' : DHTworker ι} {rs : List CommunicationPacket}
    {p : List (Node ι)} (h : lookupResponses E w rs = .ok (p, w')) : w'.activeRequests = w.activeRequests := by
  induction rs generalizing w p with
  | nil => cases h; rfl
  | cons r rs ih =>
    obtain ⟨⟨peers, w1⟩, h1, h⟩ := bind_eq_ok.mp h
    obtain ⟨⟨rest, w2⟩, h2, h⟩ := bind_eq_ok.mp h
    cases h
    exact (ih h2).trans (lookupResponse_activeRequests E h1)

@[simp] theorem addNodeRecords_activeRequests (w : DHTworker ι) (ns : List (Node ι)) :
    (addNodeRecords E w ns).activeRequests = w.activeRequests := by
  induction ns generalizing w with
  | nil => rfl
  | cons n ns ih => simp [addNodeRecords, ih]

theorem closestNodesLookupTask_ok {w : DHTworker ι} {key : List UInt8} {net : LookupNet}
    {r : LookupResult ι} (h : closestNodesLookupTask E T w key net = .ok r) :
    let loop := lookupLoop T net T.lookupTimeout
      ⟨addActive net.cid 0 w.activeRequests (getAllNodes w), [], 0, net.setup⟩
    r.worker.activeRequests = loop.active ∧ loop.elapsed ≤ r.elapsed := by
  unfold closestNodesLookupTask at h
  dsimp only at h
  split at h
  · cases h
  · rename_i closest w' hp
    cases h
    refine ⟨(addNodeRecords_activeRequests E _ _).trans (lookupResponses_activeRequests E hp), ?_⟩
    dsimp only
    split_ifs <;> omega

/-! ## The node table along a call

After the loop a call decodes the peer lists of the last pass and offers the identities to
`addNode` in order, then offers the nodes found once more (`closestNodesLookupTask_offers`).
So the table only gains entries, and the nodes returned sit in it. -/

theorem addNodes_append (w : DHTworker ι) (xs ys : List ι) :
    addNodes E w (xs ++ ys) =
      ((addNodes E w xs).1 ++ (addNodes E (addNodes E w xs).2 ys).1, (addNodes E (addNodes E w xs).2 ys).2) := by
  induction xs generalizing w with
  | nil => rfl
  | cons x xs ih =>
    simp only [List.cons_append, addNodes, List.append_eq, ih]
    split <;> rfl

theorem lookupResponse_offers {w w' : DHTworker ι} {resp : CommunicationPacket} {p : List (Node ι)}
    (h : lookupResponse E w resp = .ok (p, w')) : ∃ xs, addNodes E w xs = (p, w') := by
  obtain ⟨body, -, h⟩ := bind_eq_ok.mp h
  cases body with
  | none => cases h; exact ⟨[], rfl⟩
  | some data =>
    obtain ⟨t, -, h⟩ := bind_eq_ok.mp h
    obtain ⟨v, -, h⟩ := bind_eq_ok.mp h
    split_ifs at h
    · obtain ⟨xs, -, hx⟩ := map_eq_ok.mp ((receivePeerListV4_eq E w data).symm.trans h)
      exact ⟨xs, hx⟩
    · obtain ⟨xs, -, hx⟩ := map_eq_ok.mp ((receivePeerListV5_eq E w data).symm.trans h)
      exact ⟨xs, hx⟩
    · cases h; exact ⟨[], rfl⟩

theorem lookupResponses_offers {w w' : DHTworker ι} {rs : List CommunicationPacket} {p : List (Node ι)}
    (h : lookupResponses E w rs = .ok (p, w')) : ∃ xs, addNodes E w xs = (p, w') := by
  induction rs generalizing w p with
  | nil => cases h; exact ⟨[], rfl⟩
  | cons r rs ih =>
    obtain ⟨⟨peers, w1⟩, h1, h⟩ := bind_eq_ok.mp h
    obtain ⟨⟨rest, w2⟩, h2, h⟩ := bind_eq_ok.mp h
    cases h
    obtain ⟨xs, hx⟩ := lookupResponse_offers E h1
    obtain ⟨ys, hy⟩ := ih h2
    exact ⟨xs ++ ys, by rw [addNodes_append, hx]; simp only [hy]⟩

theorem closestNodesLookupTask_offers {w : DHTworker ι} {key : List UInt8} {net : LookupNet}
    {r : LookupResult ι} (hr : closestNodesLookupTask E T w key net = .ok r) :
    ∃ (active : StdMap Cid (Node ι)) (xs : List ι),
      r.closestNodes = (addNodes E { w with activeRequests := active } xs).1 ∧
      r.worker = addNodeRecords E (addNodes E { w with activeRequests := active } xs).2 r.closestNodes := by
  unfold closestNodesLookupTask at hr
  dsimp only at hr
  split at hr
  · cases hr
  · rename_i closest w' hp
    cases hr
    obtain ⟨xs, hx⟩ := lookupResponses_offers E hp
    exact ⟨_, xs, by rw [hx], by rw [hx]⟩

theorem entries_subset_addNodeRecords {w : DHTworker ι} {q : Tag × Node ι} (ns : List (Node ι))
    (h : q ∈ w.nodes.entries) : q ∈ (addNodeRecords E w ns).nodes.entries := by
  induction ns generalizing w with
  | nil => exact h
  | cons n ns ih => exact ih (entries_subset_addNode E _ h)

theorem closestNodesLookupTask_closest_mem (hl : E.lib.Lawful) {w : DHTworker ι} {key : List UInt8}
    {net : LookupNet} {r : LookupResult ι} (hr : closestNodesLookupTask E T w key net = .ok r) :
    ∀ n ∈ r.closestNodes, (n.identHash E, n) ∈ r.worker.nodes.entries := by
  obtain ⟨active, xs, hc, hw⟩ := closestNodesLookupTask_offers E T hr
  intro n hn
  rw [hw]
  exact entries_subset_addNodeRecords E _ (addNodes_mem E hl _ xs n (hc ▸ hn))

def sampleTable : DHTworker (Fin 4) := (addNode ⟨sampleLib, 0⟩ (addNode ⟨sampleLib, 0⟩ .empty (some 1)).2 (some 2)).2

def sampleCid (i : Nat) : Cid := List.replicate 32 i.toUInt8

/-- A lookup from `sampleTable` (first request to `N1`, second to `N2`) whose first pass brings
`N1`'s answer, a version-5 peer list holding `N3`, and lasts the whole lookup timeout. -/
def sampleLookupNet : LookupNet :=
  ⟨sampleCid, 0, fun i => if i = 0 then
    ⟨[⟨type.CommN, 5, sampleCid 0, "N1",
      (findClosePeersResponse ⟨sampleLib, 0⟩ (sampleCid 0) 5 [{ identity := some 3 }]).payload⟩], 0⟩
    else ⟨[], 0⟩, 0⟩

set_option maxRecDepth 20000 in
theorem sampleLookup_run :
    ∃ r, closestNodesLookupTask ⟨sampleLib, 0⟩ ⟨10, 10, by decide⟩ sampleTable [] sampleLookupNet = .ok r ∧
      r.closestNodes = [{ identity := some 3 }] ∧
      getAllNodes r.worker = [{ identity := some 1 }, { identity := some 2 }, { identity := some 3 }] ∧
      r.requests.map (fun q => (q.1, q.2.1)) = [(sampleCid 0, "N1"), (sampleCid 1, "N2")] := by
  have h : (closestNodesLookupTask ⟨sampleLib, 0⟩ ⟨10, 10, by decide⟩ sampleTable [] sampleLookupNet).toOption.map
      (fun r => (r.closestNodes, getAllNodes r.worker, r.requests.map (fun q => (q.1, q.2.1)))) =
      some ([{ identity := some 3 }], [{ identity := some 1 }, { identity := some 2 }, { identity := some 3 }],
        [(sampleCid 0, "N1"), (sampleCid 1, "N2")]) := by decide
  cases hr : closestNodesLookupTask ⟨sampleLib, 0⟩ ⟨10, 10, by decide⟩ sampleTable [] sampleLookupNet with
  | error e => rw [hr] at h; cases h
  | ok r =>
    rw [hr] at h
    exact ⟨r, rfl, Prod.mk.inj_iff.mp (Option.some.inj h) |>.imp_right Prod.mk.inj_iff.mp⟩

/-- No record of the table changes in a lookup, whether its request is answered or not:
`gotResponse` reaches the copy in `active_requests`, and the table only gains what `addNode`
inserts. -/
theorem closestNodesLookupTask_keeps_records (w : DHTworker ι) (key : List UInt8) (net : LookupNet)
    {r : LookupResult ι} (hr : closestNodesLookupTask E T w key net = .ok r) :
    ∀ q ∈ w.nodes.entries, q ∈ r.worker.nodes.entries := by
  obtain ⟨active, xs, -, hw⟩ := closestNodesLookupTask_offers E T hr
  exact fun q hq => hw ▸ entries_subset_addNodeRecords E _ (entries_subset_addNodes E xs hq)

/-- `N1` answers the request sent to it, and the table still holds the record it had. -/
theorem closestNodesLookupTask_keeps_answered_record :
    ∃ r, closestNodesLookupTask ⟨sampleLib, 0⟩ ⟨10, 10, by decide⟩ sampleTable [] sampleLookupNet = .ok r ∧
      (sampleCid 0, "N1") ∈ r.requests.map (fun q => (q.1, q.2.1)) ∧
      (sampleLookupNet.round 0).responses.map (·.cid) = [sampleCid 0] ∧
      (sampleLib.identHash 1, { identity := some 1 }) ∈ r.worker.nodes.entries := by
  obtain ⟨r, hr, -, -, hq⟩ := sampleLookup_run
  exact ⟨r, hr, by rw [hq]; exact List.mem_cons_self _ _, rfl,
    closestNodesLookupTask_keeps_records ⟨sampleLib, 0⟩ ⟨10, 10, by decide⟩ sampleTable [] sampleLookupNet hr _
      (by decide)⟩

omit E in
theorem lookupLoop_responses {net : LookupNet} (n : Nat) {s : LookupLoop ι} {resp : CommunicationPacket}
    (h : resp ∈ (lookupLoop T net n s).responses) : resp ∈ s.responses ∨ ∃ i, resp ∈ (net.round i).responses := by
  induction n generalizing s with
  | zero => exact .inl h
  | succ n ih =>
    simp only [lookupLoop] at h
    split_ifs at h
    · exact .inl h
    · exact (ih h).elim (fun h => .inr ⟨_, h⟩) .inr
    · exact .inr ⟨_, h⟩
    · exact (ih h).elim (fun h => .inr ⟨_, h⟩) .inr

theorem lookupResponses_of_type {w : DHTworker ι} {rs : List CommunicationPacket}
    (h : ∀ resp ∈ rs, resp.type ≠ type.CommN) : lookupResponses E w rs = .ok ([], w) := by
  induction rs with
  | nil => rfl
  | cons r rs ih =>
    simp only [List.mem_cons, forall_eq_or_imp] at h
    simp [lookupResponses, lookupResponse, responseBody_of_type h.1, ih h.2, bind, Except.bind, pure,
      Except.pure]

theorem closestNodesLookupTask_returns (w : DHTworker ι) (key : List UInt8) (net : LookupNet)
    (h : ∀ i, ∀ resp ∈ (net.round i).responses, resp.type ≠ type.CommN) :
    ∃ r, closestNodesLookupTask E T w key net = .ok r := by
  unfold closestNodesLookupTask
  dsimp only
  rw [lookupResponses_of_type E fun resp hr => (lookupLoop_responses T _ hr).elim
    (fun h => by simp at h) fun ⟨i, hi⟩ => h i resp hi]
  exact ⟨_, rfl⟩

theorem closestNodesLookupTask_silent (w : DHTworker ι) (key : List UInt8) (net : LookupNet)
    (h : ∀ i, (net.round i).responses = []) :
    ∃ r, closestNodesLookupTask E T w key net = .ok r ∧ r.closestNodes = [] ∧ r.worker.nodes = w.nodes := by
  have hl : (lookupLoop T net T.lookupTimeout
      ⟨addActive net.cid 0 w.activeRequests (getAllNodes w), [], 0, net.setup⟩).responses = [] :=
    List.eq_nil_iff_forall_not_mem.mpr fun resp hr =>
      (lookupLoop_responses T _ hr).elim (fun h => by simp at h) fun ⟨i, hi⟩ => by simp [h i] at hi
  unfold closestNodesLookupTask
  dsimp only
  rw [hl]
  exact ⟨_, rfl, rfl, rfl⟩

/-- A request no pass answers is still pending when the call returns, so the next call starts
with it; and that next call, if no pass of it answers the stale CID or brings
`MIN_CLOSEST_NODES` responses, runs until the lookup timeout whatever happens to its own
requests. -/
theorem closestNodesLookupTask_stale_request (w : DHTworker ι) (key key' : List UInt8)
    (net net' : LookupNet) (r r' : LookupResult ι) (hr : closestNodesLookupTask E T w key net = .ok r)
    (hr' : closestNodesLookupTask E T r.worker key' net' = .ok r') (j : Nat) (hj : j < (getAllNodes w).length)
    (hnet : Unanswered net (net.cid j)) (hnet' : Unanswered net' (net.cid j))
    (hfew : ∀ i, (net'.round i).responses.length < MIN_CLOSEST_NODES) :
    net.cid j ∈ r.worker.activeRequests.keys ∧ T.lookupTimeout ≤ r'.elapsed := by
  obtain ⟨ha, -⟩ := closestNodesLookupTask_ok E T hr
  obtain ⟨-, he'⟩ := closestNodesLookupTask_ok E T hr'
  have hc : net.cid j ∈ r.worker.activeRequests.keys := by
    rw [ha]
    exact lookupLoop_keeps T hnet _ (by simpa using cid_mem_addActive net.cid 0 w.activeRequests hj)
  exact ⟨hc, (lookupLoop_waits T hnet' hfew _ (mem_keys_addActive hc) (by simp)).trans he'⟩

/-- One known node that never answers, then a second call whose own request is answered: the
first CID is still pending and the second call runs the full 30 seconds. -/
theorem closestNodesLookupTask_stale_request_one_node :
    let E : Env (Fin 4) := ⟨sampleLib, 0⟩
    let T : Timeouts := ⟨10, 30, by decide⟩
    let net : LookupNet := ⟨fun i => [i.toUInt8], 0, fun _ => ⟨[], 0⟩, 0⟩
    let net' : LookupNet := ⟨fun _ => [5], 0, fun _ => ⟨[⟨type.CommQ, 4, [5], "N1", []⟩], 0⟩, 0⟩
    ∃ r r' : LookupResult (Fin 4),
      closestNodesLookupTask E T (addNode E .empty (some 1)).2 [] net = .ok r ∧
      closestNodesLookupTask E T r.worker [] net' = .ok r' ∧
      [0] ∈ r.worker.activeRequests.keys ∧ 30 ≤ r'.elapsed := by
  intro E T net net'
  obtain ⟨r, hr⟩ := closestNodesLookupTask_returns E T (addNode E .empty (some 1)).2 [] net (by simp [net])
  obtain ⟨r', hr'⟩ := closestNodesLookupTask_returns E T r.worker [] net' (by simp [net', type.CommQ, type.CommN]; decide)
  exact ⟨r, r', hr, hr', closestNodesLookupTask_stale_request E T _ [] [] net net' r r' hr hr' 0 (by decide)
    (by simp [Unanswered, net]) (by simp [Unanswered, net, net']; decide) (by simp [MIN_CLOSEST_NODES, net'])⟩

end Pbote.Kademlia
