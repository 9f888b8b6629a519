import Mathlib.Logic.Relation
import Pbote.Kademlia.Verbs
import Pbote.Packet.IncomingRequest

/-!
# The node table over a whole run

No code path erases from `m_nodes_`, and `std::map::insert` leaves a key that is already
there alone. So every operation of a node keeps every record of its table: the three
`addNode`s, `loadNodes`, the peer-list parsers, a lookup, `find` and `store`, and the
handling of an incoming datagram (`TableOp.entries_subset`). Over any run of them a record
`findNode` returns stays what it returns (`findNode_of_run`).
-/

namespace Pbote.Kademlia

open Pbote.Wire Pbote.Packet Pbote.Packet.IncomingRequest

variable {ι : Type} (R : Runtime ι) (T : Timeouts)

/-- The operations of a node over runtime `R` that change its state: the three `addNode`s,
`loadNodes`, the peer-list parsers, a lookup, the verbs `find` and `store`, and the handling of
an incoming datagram while live batches wait on `pending`. -/
inductive TableOp : DHTworker ι → DHTworker ι → Prop
  | addNode (w : DHTworker ι) (x : IdentityEx ι) : TableOp w (addNode R.env w x).2
  | addNodeFromBase64 (w : DHTworker ι) (s : String) : TableOp w (addNodeFromBase64 R.env w s).2
  | addNodeFromBuffer (w : DHTworker ι) (buf : List UInt8) : TableOp w (addNodeFromBuffer R.env w buf).2
  | loadNodes (w : DHTworker ι) (file : Option String) (bootstrap : List String) :
      TableOp w (loadNodes R.env w file bootstrap).2
  | receivePeerListV4 {w : DHTworker ι} {r : List (Node ι) × DHTworker ι} (buf : List UInt8)
      (h : receivePeerListV4 R.env w buf = .ok r) : TableOp w r.2
  | receivePeerListV5 {w : DHTworker ι} {r : List (Node ι) × DHTworker ι} (buf : List UInt8)
      (h : receivePeerListV5 R.env w buf = .ok r) : TableOp w r.2
  | lookup {w : DHTworker ι} {r : LookupResult ι} (key : List UInt8) (net : LookupNet)
      (h : closestNodesLookupTask R.env T w key net = .ok r) : TableOp w r.worker
  | verb {α : Type} {w : DHTworker ι} {res : VerbResult ι α} (key : List UInt8) (request : Cid → α)
      (net : VerbNet) (h : batchVerb R.env T w key request net = .ok res) : TableOp w res.worker
  | handle {w : DHTworker ι} {h : Handled ι} (pending : List Cid) («from» : String) (buf : List UInt8)
      (hh : handleNewPacket R pending w «from» buf = .ok h) : TableOp w h.worker

/-! ## `addNode` and `loadNodes` -/

section Env

variable (E : Env ι)

theorem entries_subset_addNodeFromBase64 (w : DHTworker ι) (s : String) :
    w.nodes.entries ⊆ (addNodeFromBase64 E w s).2.nodes.entries := by
  unfold addNodeFromBase64
  split
  · exact fun _ => entries_subset_addNode E _
  · exact fun _ h => h

theorem entries_subset_addNodeFromBuffer (w : DHTworker ι) (buf : List UInt8) :
    w.nodes.entries ⊆ (addNodeFromBuffer E w buf).2.nodes.entries := by
  unfold addNodeFromBuffer
  split
  · exact fun _ => entries_subset_addNode E _
  · exact fun _ h => h

theorem entries_subset_loadLoop (m : StdMap Tag (Node ι)) (ns : List (Node ι)) :
    m.entries ⊆ (loadLoop E m ns).1.entries := by
  induction ns generalizing m with
  | nil => exact fun _ h => h
  | cons n ns ih => exact fun _ h => ih _ (StdMap.mem_insert.mpr (.inl h))

theorem entries_subset_addBootstrap (w : DHTworker ι) (as : List String) :
    w.nodes.entries ⊆ (addBootstrap E w as).nodes.entries := by
  induction as generalizing w with
  | nil => exact fun _ h => h
  | cons a as ih => exact fun _ h => ih _ (entries_subset_addNodeFromBase64 E w a h)

theorem entries_subset_loadNodes (w : DHTworker ι) (file : Option String) (bootstrap : List String) :
    w.nodes.entries ⊆ (loadNodes E w file bootstrap).2.nodes.entries := by
  have hl := entries_subset_loadLoop E w.nodes ((readNodes file).map (Node.ofBase64 E))
  dsimp only [loadNodes]
  split_ifs
  · exact hl
  · exact hl
  · exact fun _ h => entries_subset_addBootstrap E _ bootstrap (hl h)

/-! ## Peer lists, lookups and verbs -/

theorem entries_subset_of_decode {d : Except Fault (List ι)} {w : DHTworker ι} {r : List (Node ι) × DHTworker ι}
    (h : d.map (addNodes E w) = .ok r) : w.nodes.entries ⊆ r.2.nodes.entries := by
  obtain ⟨xs, -, rfl⟩ := map_eq_ok.mp h
  exact fun _ => entries_subset_addNodes E xs

theorem entries_subset_lookup {w : DHTworker ι} {key : List UInt8} {net : LookupNet} {r : LookupResult ι}
    (h : closestNodesLookupTask E T w key net = .ok r) : w.nodes.entries ⊆ r.worker.nodes.entries := by
  obtain ⟨active, xs, -, hw⟩ := closestNodesLookupTask_offers E T h
  exact fun _ hq => hw ▸ entries_subset_addNodeRecords E _ (entries_subset_addNodes E xs hq)

theorem batchVerb_worker {α : Type} {w : DHTworker ι} {key : List UInt8} {request : Cid → α} {net : VerbNet}
    {res : VerbResult ι α} (h : batchVerb E T w key request net = .ok res) :
    ∃ r, closestNodesLookupTask E T w key net.lookup = .ok r ∧ res.worker = r.worker := by
  obtain ⟨r, hr, h⟩ := bind_eq_ok.mp h
  refine ⟨r, hr, ?_⟩
  split at h <;> cases h <;> rfl

/-! ## The request handlers -/

theorem receiveRetrieveRequest_worker {st : DHTStorage} {w : DHTworker ι} {p : CommunicationPacket}
    {r : DHTworker ι × ResponsePacket} (h : receiveRetrieveRequest E st w p = .ok r) :
    r.1 = (addNodeFromBase64 E w p.from).2 := by
  obtain ⟨t, -, h⟩ := bind_eq_ok.mp h
  obtain ⟨k, -, h⟩ := bind_eq_ok.mp h
  split at h
  · dsimp only at h
    split at h <;> cases h <;> rfl
  · cases h; rfl

theorem noDataFoundRequest_worker {fields : List (Nat × Nat)} {w : DHTworker ι} {p : CommunicationPacket}
    {r : DHTworker ι × ResponsePacket} (h : noDataFoundRequest E fields w p = .ok r) :
    r.1 = (addNodeFromBase64 E w p.from).2 := by
  obtain ⟨_, -, h⟩ := bind_eq_ok.mp h
  cases h
  rfl

theorem receiveStoreRequest_worker {host : ByteOrder} {w : DHTworker ι} {p : CommunicationPacket}
    {r : DHTworker ι × ResponsePacket} (h : receiveStoreRequest E host w p = .ok r) :
    r.1 = (addNodeFromBase64 E w p.from).2 := by
  rw [receiveStoreRequest_eq] at h
  obtain ⟨_, -, h⟩ := bind_eq_ok.mp h
  obtain ⟨_, -, h⟩ := bind_eq_ok.mp h
  cases h
  rfl

theorem receiveIndexPacketDeleteRequest_worker {w : DHTworker ι} {p : CommunicationPacket}
    {r : DHTworker ι × ResponsePacket} (h : receiveIndexPacketDeleteRequest E w p = .ok r) :
    r.1 = (addNodeFromBase64 E w p.from).2 := by
  obtain ⟨_, -, h⟩ := bind_eq_ok.mp h
  obtain ⟨_, -, h⟩ := bind_eq_ok.mp h
  obtain ⟨_, -, h⟩ := bind_eq_ok.mp h
  cases h
  rfl

theorem receiveFindClosePeers_worker {w : DHTworker ι} {p : CommunicationPacket}
    {r : DHTworker ι × ResponsePacket} (h : receiveFindClosePeers E w p = .ok r) :
    r.1 = (addNodeFromBase64 E w p.from).2 := by
  obtain ⟨_, -, h⟩ := bind_eq_ok.mp h
  cases h
  rfl

end Env

theorem dhtRequest_worker {t : UInt8}
    {handler : DHTworker ι → CommunicationPacket → Except Fault (DHTworker ι × ResponsePacket)}
    (hh : ∀ {w p r}, handler w p = .ok r → r.1 = (addNodeFromBase64 R.env w p.from).2)
    {w : DHTworker ι} {p : CommunicationPacket} {h : Handled ι} (hd : dhtRequest t handler w p = .ok h) :
    h.worker = w ∨ h.worker = (addNodeFromBase64 R.env w p.from).2 := by
  unfold dhtRequest at hd
  split_ifs at hd
  · obtain ⟨r, hr, rfl⟩ := map_eq_ok.mp hd
    exact .inr (hh hr)
  · cases hd
    exact .inl rfl

theorem receiveResponsePkt_worker {w : DHTworker ι} {p : CommunicationPacket} {h : Handled ι}
    (hq : receiveResponsePkt R w p = .ok h) : h.worker = w := by
  repeat obtain ⟨_, -, hq⟩ := bind_eq_ok.mp hq
  split_ifs at hq <;> (repeat obtain ⟨_, -, hq⟩ := bind_eq_ok.mp hq) <;> cases hq <;> rfl

theorem incomingPacketHandlers_worker :
    ∀ q ∈ incomingPacketHandlers R, ∀ (w : DHTworker ι) p (h : Handled ι), q.2 w p = .ok h →
      h.worker = w ∨ h.worker = (addNodeFromBase64 R.env w p.from).2 := by
  simp only [incomingPacketHandlers, List.mem_cons, List.not_mem_nil, or_false]
  rintro q (rfl | rfl | rfl | rfl | rfl | rfl | rfl | rfl | rfl | rfl) w p h hq
  · cases hq; exact .inl rfl
  · cases hq; exact .inl rfl
  · exact .inl (receiveResponsePkt_worker R hq)
  · simp only [receivePeerListRequest] at hq
    split_ifs at hq <;> cases hq <;> exact .inl rfl
  · exact dhtRequest_worker R (receiveRetrieveRequest_worker R.env) hq
  · dsimp only [receiveDeletionQueryRequest] at hq
    split_ifs at hq
    · obtain ⟨r, hr, rfl⟩ := map_eq_ok.mp hq
      exact .inr (noDataFoundRequest_worker R.env hr)
    · obtain ⟨r, hr, rfl⟩ := map_eq_ok.mp hq
      exact .inr (noDataFoundRequest_worker R.env hr)
    · cases hq; exact .inl rfl
  · exact dhtRequest_worker R (receiveStoreRequest_worker R.env) hq
  · exact dhtRequest_worker R (noDataFoundRequest_worker R.env) hq
  · exact dhtRequest_worker R (receiveIndexPacketDeleteRequest_worker R.env) hq
  · exact dhtRequest_worker R (receiveFindClosePeers_worker R.env) hq

theorem handleNewPacket_worker {pending : List Cid} {w : DHTworker ι} {«from» : String}
    {buf : List UInt8} {h : Handled ι} (hh : handleNewPacket R pending w «from» buf = .ok h) :
    h.worker = w ∨ ∃ s, h.worker = (addNodeFromBase64 R.env w s).2 := by
  unfold handleNewPacket at hh
  split at hh
  · cases hh; exact .inl rfl
  · split at hh
    · cases hh; exact .inl rfl
    · split at hh
      · rename_i handler hl
        obtain ⟨l₁, l₂, he, -⟩ := List.lookup_eq_some_iff.mp hl
        exact (incomingPacketHandlers_worker R _ (he ▸ List.mem_append_right _ (List.mem_cons_self _ _))
          w _ h hh).imp_right fun hw => ⟨_, hw⟩
      · cases hh

theorem handleNewPacket_entries_subset {pending : List Cid} {w : DHTworker ι} {«from» : String}
    {buf : List UInt8} {h : Handled ι} (hh : handleNewPacket R pending w «from» buf = .ok h) :
    w.nodes.entries ⊆ h.worker.nodes.entries := by
  rcases handleNewPacket_worker R hh with hw | ⟨s, hw⟩ <;> rw [hw]
  · exact fun _ h => h
  · exact entries_subset_addNodeFromBase64 R.env w s

/-! ## Runs -/

theorem TableOp.entries_subset {w w' : DHTworker ι} (h : TableOp R T w w') :
    w.nodes.entries ⊆ w'.nodes.entries := by
  cases h with
  | addNode w x => exact fun _ => entries_subset_addNode R.env x
  | addNodeFromBase64 w s => exact entries_subset_addNodeFromBase64 R.env w s
  | addNodeFromBuffer w buf => exact entries_subset_addNodeFromBuffer R.env w buf
  | loadNodes w file bootstrap => exact entries_subset_loadNodes R.env w file bootstrap
  | receivePeerListV4 buf h => exact entries_subset_of_decode R.env ((receivePeerListV4_eq R.env _ buf).symm.trans h)
  | receivePeerListV5 buf h => exact entries_subset_of_decode R.env ((receivePeerListV5_eq R.env _ buf).symm.trans h)
  | lookup key net h => exact entries_subset_lookup T R.env h
  | verb key request net h =>
    obtain ⟨r, hr, hw⟩ := batchVerb_worker T R.env h
    exact hw ▸ entries_subset_lookup T R.env hr
  | handle pending «from» buf hh => exact handleNewPacket_entries_subset R hh

theorem entries_subset_of_run {w w' : DHTworker ι} (h : Relation.ReflTransGen (TableOp R T) w w') :
    w.nodes.entries ⊆ w'.nodes.entries := by
  induction h with
  | refl => exact fun _ h => h
  | tail _ hs ih => exact fun _ h => hs.entries_subset R T (ih h)

theorem findNode_of_run {w w' : DHTworker ι} (h : Relation.ReflTransGen (TableOp R T) w w') {k : Tag}
    {n : Node ι} (hk : findNode w k = some n) : findNode w' k = some n :=
  StdMap.find?_eq_some.mpr (entries_subset_of_run R T h (StdMap.find?_eq_some.mp hk))

/-! ## The table invariant

`loadNodes` can break `TableInv` (`loadNodes_breaks_tableInv`); every other operation keeps
it, since each insert goes through `addNode` of a decoded identity. -/

section Inv

variable (E : Env ι)

theorem addNodes_tableInv (hl : E.lib.Lawful) {w : DHTworker ι} (hw : TableInv E w.nodes) (xs : List ι) :
    TableInv E (addNodes E w xs).2.nodes := by
  induction xs generalizing w with
  | nil => exact hw
  | cons x xs ih => exact ih (addNode_tableInv E hl hw x)

theorem tableInv_of_decode (hl : E.lib.Lawful) {d : Except Fault (List ι)} {w : DHTworker ι}
    {r : List (Node ι) × DHTworker ι} (hw : TableInv E w.nodes) (h : d.map (addNodes E w) = .ok r) :
    TableInv E r.2.nodes := by
  obtain ⟨xs, -, rfl⟩ := map_eq_ok.mp h
  exact addNodes_tableInv E hl hw xs

theorem addNodeRecords_tableInv (hl : E.lib.Lawful) {w : DHTworker ι} (hw : TableInv E w.nodes)
    {ns : List (Node ι)} (hns : ∀ n ∈ ns, ∃ x, n = { identity := some x }) :
    TableInv E (addNodeRecords E w ns).nodes := by
  induction ns generalizing w with
  | nil => exact hw
  | cons n ns ih =>
    obtain ⟨x, rfl⟩ := hns n (List.mem_cons_self _ _)
    exact ih (addNode_tableInv E hl hw x) fun n h => hns n (List.mem_cons_of_mem _ h)

theorem tableInv_lookup (hl : E.lib.Lawful) {w : DHTworker ι} {key : List UInt8} {net : LookupNet}
    {r : LookupResult ι} (hw : TableInv E w.nodes) (h : closestNodesLookupTask E T w key net = .ok r) :
    TableInv E r.worker.nodes := by
  obtain ⟨active, xs, hc, hr⟩ := closestNodesLookupTask_offers E T h
  have hw' : TableInv E ({ w with activeRequests := active } : DHTworker ι).nodes := hw
  rw [hr]
  refine addNodeRecords_tableInv E hl (addNodes_tableInv E hl hw' xs) fun n hn => ?_
  rw [hc, addNodes_fst E hl xs _ _ fun _ => Iff.rfl] at hn
  obtain ⟨x, -, rfl⟩ := List.mem_map.mp hn
  exact ⟨x, rfl⟩

end Inv

/-- From a table that keeps `TableInv`, every operation but `loadNodes` keeps it: `addNode` of
a decoded identity, the decoding `addNode`s, both peer-list parsers, a lookup, `find` and
`store`, and the handling of any datagram. -/
theorem tableOps_keep_tableInv (hl : R.env.lib.Lawful) {w : DHTworker ι} (hw : TableInv R.env w.nodes) :
    (∀ x, TableInv R.env (addNode R.env w (some x)).2.nodes) ∧
    (∀ s, TableInv R.env (addNodeFromBase64 R.env w s).2.nodes) ∧
    (∀ buf, TableInv R.env (addNodeFromBuffer R.env w buf).2.nodes) ∧
    (∀ buf r, receivePeerListV4 R.env w buf = .ok r → TableInv R.env r.2.nodes) ∧
    (∀ buf r, receivePeerListV5 R.env w buf = .ok r → TableInv R.env r.2.nodes) ∧
    (∀ key net r, closestNodesLookupTask R.env T w key net = .ok r → TableInv R.env r.worker.nodes) ∧
    (∀ (α : Type) key (request : Cid → α) net res,
      batchVerb R.env T w key request net = .ok res → TableInv R.env res.worker.nodes) ∧
    (∀ pending «from» buf h, handleNewPacket R pending w «from» buf = .ok h → TableInv R.env h.worker.nodes) := by
  refine ⟨addNode_tableInv R.env hl hw, addNodeFromBase64_tableInv R.env hl hw,
    addNodeFromBuffer_tableInv R.env hl hw,
    fun buf r h => tableInv_of_decode R.env hl hw ((receivePeerListV4_eq R.env w buf).symm.trans h),
    fun buf r h => tableInv_of_decode R.env hl hw ((receivePeerListV5_eq R.env w buf).symm.trans h),
    fun key net r h => tableInv_lookup T R.env hl hw h, fun α key request net res h => ?_,
    fun pending «from» buf h hh => ?_⟩
  · obtain ⟨r, hr, hw'⟩ := batchVerb_worker T R.env h
    exact hw' ▸ tableInv_lookup T R.env hl hw hr
  · rcases handleNewPacket_worker R hh with hw' | ⟨s, hw'⟩ <;> rw [hw']
    · exact hw
    · exact addNodeFromBase64_tableInv R.env hl hw s

/-- Over a table holding `N1`, adding `N2`, and reading a peer list of `N1` and `N2`, keep the
invariant. -/
theorem tableOps_keep_tableInv_known :
    sampleRuntime.env.lib.Lawful ∧ TableInv sampleRuntime.env (addNode sampleRuntime.env .empty (some 1)).2.nodes ∧
      TableInv sampleRuntime.env (addNode sampleRuntime.env (addNode sampleRuntime.env .empty (some 1)).2 (some 2)).2.nodes ∧
      ∀ r, receivePeerListV5 sampleRuntime.env (addNode sampleRuntime.env .empty (some 1)).2 sampleV5List = .ok r →
        TableInv sampleRuntime.env r.2.nodes :=
  have hw := addNode_tableInv sampleRuntime.env sampleLib_lawful (tableInv_empty _) 1
  have h := tableOps_keep_tableInv sampleRuntime ⟨10, 10, by decide⟩ sampleLib_lawful hw
  ⟨sampleLib_lawful, hw, h.1 2, h.2.2.2.2.1 sampleV5List⟩

end Pbote.Kademlia
