import Pbote.Kademlia.TableRuns
import Pbote.Protocol.Retrieve

/-!
# A network of nodes running the packet handler

Every node of the overlay runs `RequestHandler::run`, which hands each datagram its receive
queue yields to a fresh `IncomingRequest::handleNewPacket`. Here any number of such nodes share
a network that delivers datagrams in any order or loses them, while clients (the verbs of any
node, or anyone else) send whatever bytes they like and every node goes on with its own
operations on its table (`Step`). An iteration of `RequestHandler::run` is a `deliver` step. A
delivery whose handling leaves the program's defined behaviour is no step: what the node does
then is not defined.

A handler answers a datagram with at most one response, to the sender, and answers no response;
the response goes out on the request's CID, except that the relay peers worker, whose code is
not among the sources, sends its own answer to a peer list request (`handleNewPacket_sent`). So
in every run of nodes whose relay answers on the request's CID, the nodes deliver at most twice
as many datagrams as the clients sent, and every response answers a request delivered before it
(`network_traffic`). A node's table moves only by its own operations and its handler, a run of
`TableOp`, whatever the other nodes do, so a record it holds stays there unchanged for the rest
of the run (`network_node_runs`). An answer to a
version-4 retrieve request is, as its requester parses it, what the responder stores under the
request's class and key, in every run (`network_retrieve_answers`): the answer does not depend
on the responder's table or on what else the network carries. Every answer to a store request is
`NO_DISK_SPACE` and every answer to a delete request or a deletion query `NO_DATA_FOUND`
(`network_refuses_stores_and_deletes`). A node's content store is part of
its runtime and stays as it is over a run: no handler writes it (`receiveStoreRequest` answers
`NO_DISK_SPACE` and stores nothing), and the mail rounds that save packets locally are not steps
here.
-/

namespace Pbote.Protocol

open Pbote.Wire Pbote.Kademlia Pbote.Packet Pbote.Packet.IncomingRequest

/-- A datagram of the overlay: where it goes, the sender the transport reports, and its bytes. -/
structure Datagram where
  dest : String
  src : String
  bytes : List UInt8
  deriving DecidableEq, Repr

/-- The network: the state of the node at each destination, the datagrams in flight, and the
datagrams the clients sent, the nodes received and the handlers sent, each since the start. -/
structure Network (ι : Type) where
  node : String → DHTworker ι
  inFlight : List Datagram
  injected : List Datagram
  delivered : List Datagram
  answered : List Datagram

def Network.init {ι : Type} (nodes : String → DHTworker ι) : Network ι := ⟨nodes, [], [], [], []⟩

/-- What the node at `src` puts on the network for the responses its handler sent:
`PacketForQueue(packet->from, response.toByte())`, an envelope of version `ver`. -/
def responses (ver : UInt8) (src : String) (sent : List (String × ResponsePacket)) : List Datagram :=
  sent.map fun q => ⟨q.1, src, q.2.toByte ver⟩

def isResponse (d : Datagram) : Bool :=
  match parseCommPacket d.src d.bytes with
  | some p => p.type == type.CommN
  | none => false

/-- What a datagram in flight may still cost: its own delivery, and for one that is not a
response, the delivery of the response it may bring. -/
def weight (d : Datagram) : Nat := if isResponse d then 1 else 2

def load : List Datagram → Nat
  | [] => 0
  | d :: ds => weight d + load ds

variable {ι : Type}

/-! ## What one node sends -/

section Node

variable (R : Runtime ι)

theorem dhtRequest_sent {t : UInt8}
    {handler : DHTworker ι → CommunicationPacket → Except Fault (DHTworker ι × ResponsePacket)}
    (hc : ∀ {w p r}, handler w p = .ok r → r.2.cid = p.cid)
    {w : DHTworker ι} {p : CommunicationPacket} {h : Handled ι} (hd : dhtRequest t handler w p = .ok h) :
    h.sent = [] ∨ ∃ r, h.sent = [(p.from, r)] ∧ r.cid = p.cid := by
  unfold dhtRequest at hd
  split_ifs at hd
  · obtain ⟨r, hr, rfl⟩ := map_eq_ok.mp hd
    exact .inr ⟨r.2, rfl, hc hr⟩
  · cases hd
    exact .inl rfl

theorem receiveResponsePkt_sent {w : DHTworker ι} {p : CommunicationPacket} {h : Handled ι}
    (hq : receiveResponsePkt R w p = .ok h) : h.sent = [] := by
  repeat obtain ⟨_, -, hq⟩ := bind_eq_ok.mp hq
  split_ifs at hq <;> (repeat obtain ⟨_, -, hq⟩ := bind_eq_ok.mp hq) <;> cases hq <;> rfl

/-- `r` goes out on the CID of `p`, or is the relay's answer to the peer list request `p`. -/
def AnswersOn (R : Runtime ι) (p : CommunicationPacket) (r : ResponsePacket) : Prop :=
  r.cid = p.cid ∨ R.relay.peerListRequestV4 p.from p.cid = some r ∨ R.relay.peerListRequestV5 p.from p.cid = some r

theorem AnswersOn.cid {R : Runtime ι} {p : CommunicationPacket} {r : ResponsePacket} (hrl : R.relay.OnCid)
    (h : AnswersOn R p r) : r.cid = p.cid :=
  h.elim id (hrl _ _ _)

theorem receivePeerListRequest_sent {w : DHTworker ι} {p : CommunicationPacket} {h : Handled ι}
    (hq : receivePeerListRequest R w p = .ok h) : h.sent = [] ∨ ∃ r, h.sent = [(p.from, r)] ∧ AnswersOn R p r := by
  simp only [receivePeerListRequest] at hq
  split_ifs at hq <;> cases hq
  · cases hr : R.relay.peerListRequestV4 p.from p.cid <;> simp [hr, AnswersOn]
  · cases hr : R.relay.peerListRequestV5 p.from p.cid <;> simp [hr, AnswersOn]
  · exact .inl rfl

theorem incomingPacketHandlers_sent :
    ∀ q ∈ incomingPacketHandlers R, ∀ (w : DHTworker ι) p (h : Handled ι), q.2 w p = .ok h →
      h.sent = [] ∨ (q.1 ≠ type.CommN ∧ ∃ r, h.sent = [(p.from, r)] ∧ AnswersOn R p r) := by
  have hd : ∀ {t : UInt8} {handler : DHTworker ι → CommunicationPacket → Except Fault (DHTworker ι × ResponsePacket)},
      t ≠ type.CommN → (∀ {w p r}, handler w p = .ok r → r.2.cid = p.cid) → ∀ {w p} {h : Handled ι},
      dhtRequest t handler w p = .ok h → h.sent = [] ∨ (t ≠ type.CommN ∧ ∃ r, h.sent = [(p.from, r)] ∧ AnswersOn R p r) :=
    fun ht hc _ _ _ hq => (dhtRequest_sent hc hq).imp_right fun ⟨r, hs, hr⟩ => ⟨ht, r, hs, .inl hr⟩
  simp only [incomingPacketHandlers, List.mem_cons, List.not_mem_nil, or_false]
  rintro q (rfl | rfl | rfl | rfl | rfl | rfl | rfl | rfl | rfl | rfl) w p h hq
  · cases hq; exact .inl rfl
  · cases hq; exact .inl rfl
  · exact .inl (receiveResponsePkt_sent R hq)
  · exact (receivePeerListRequest_sent R hq).imp_right fun h => ⟨(by decide : type.CommA ≠ type.CommN), h⟩
  · exact hd (by decide : type.CommQ ≠ type.CommN) (receiveRetrieveRequest_cid R.env) hq
  · dsimp only [receiveDeletionQueryRequest] at hq
    split_ifs at hq <;> first
      | obtain ⟨r, hr, rfl⟩ := map_eq_ok.mp hq
        exact .inr ⟨(by decide : type.CommY ≠ type.CommN), r.2, rfl, .inl (noDataFoundRequest_cid R.env hr)⟩
      | cases hq; exact .inl rfl
  · exact hd (by decide : type.CommS ≠ type.CommN) (receiveStoreRequest_cid R.env) hq
  · exact hd (by decide : type.CommD ≠ type.CommN) (noDataFoundRequest_cid R.env) hq
  · exact hd (by decide : type.CommX ≠ type.CommN) (receiveIndexPacketDeleteRequest_cid R.env) hq
  · exact hd (by decide : type.CommF ≠ type.CommN) (receiveFindClosePeers_cid R.env) hq

theorem handleNewPacket_sent {pending : List Cid} {w : DHTworker ι} {«from» : String} {buf : List UInt8}
    {h : Handled ι} (hh : handleNewPacket R pending w «from» buf = .ok h) :
    h.sent = [] ∨ ∃ p r, parseCommPacket «from» buf = some p ∧ p.type ≠ type.CommN ∧
      h.sent = [(«from», r)] ∧ AnswersOn R p r := by
  unfold handleNewPacket at hh
  split at hh
  · cases hh; exact .inl rfl
  · rename_i p hp
    split at hh
    · cases hh; exact .inl rfl
    · split at hh
      · rename_i handler hl
        obtain ⟨l₁, l₂, he, -⟩ := List.lookup_eq_some_iff.mp hl
        rcases incomingPacketHandlers_sent R _ (he ▸ List.mem_append_right _ (List.mem_cons_self _ _)) w p h hh
          with hs | ⟨ht, r, hs, hc⟩
        · exact .inl hs
        · exact .inr ⟨p, r, hp, ht, by rw [hs, (parseCommPacket_eq_some hp).1], hc⟩
      · cases hh

end Node

/-! ## The weight of what is in flight -/

@[simp] theorem load_nil : load [] = 0 := rfl

@[simp] theorem load_cons (d : Datagram) (ds : List Datagram) : load (d :: ds) = weight d + load ds := rfl

@[simp] theorem load_append (ds es : List Datagram) : load (ds ++ es) = load ds + load es := by
  induction ds with
  | nil => simp
  | cons d ds ih => simp [ih, Nat.add_assoc]

theorem weight_pos (d : Datagram) : 0 < weight d := by
  unfold weight; split <;> omega

theorem weight_le_two (d : Datagram) : weight d ≤ 2 := by
  unfold weight; split <;> omega

section Delivery

variable (R : Runtime ι) (ver : UInt8)

theorem isResponse_toByte (dest src : String) {r : ResponsePacket} (hc : r.cid.length = 32) :
    isResponse ⟨dest, src, r.toByte ver⟩ = true := by
  simp [isResponse, ResponsePacket.toByte,
    parseCommPacket_toByte src ⟨type.CommN, ver, r.cid, "", r.payload⟩ (show type.CommN ∈ knownTypes by decide) hc]

variable (hrl : R.relay.OnCid)
include hrl

theorem responses_of_handle {pending : List Cid} {w : DHTworker ι} {d : Datagram} {h : Handled ι}
    (hh : handleNewPacket R pending w d.src d.bytes = .ok h) (dest : String) :
    responses ver dest h.sent = [] ∨ ∃ (p : CommunicationPacket) (r : ResponsePacket),
      parseCommPacket d.src d.bytes = some p ∧ p.type ≠ type.CommN ∧ r.cid = p.cid ∧
        responses ver dest h.sent = [⟨d.src, dest, r.toByte ver⟩] := by
  rcases handleNewPacket_sent R hh with hs | ⟨p, r, hp, ht, hs, hc⟩
  · exact .inl (by rw [hs]; rfl)
  · exact .inr ⟨p, r, hp, ht, hc.cid hrl, by rw [hs]; rfl⟩

theorem load_responses_lt {pending : List Cid} {w : DHTworker ι} {d : Datagram} {h : Handled ι}
    (hh : handleNewPacket R pending w d.src d.bytes = .ok h) (dest : String) :
    load (responses ver dest h.sent) < weight d := by
  rcases responses_of_handle R ver hrl hh dest with hs | ⟨p, r, hp, ht, hc, hs⟩
  · rw [hs, load_nil]
    exact weight_pos d
  · have hd : isResponse d = false := by simp [isResponse, hp, ht]
    have hr := isResponse_toByte ver d.src dest (hc ▸ (parseCommPacket_eq_some hp).2)
    simp [hs, weight, hd, hr]

theorem length_responses_le {pending : List Cid} {w : DHTworker ι} {d : Datagram} {h : Handled ι}
    (hh : handleNewPacket R pending w d.src d.bytes = .ok h) (dest : String) :
    (responses ver dest h.sent).length ≤ 1 := by
  rcases responses_of_handle R ver hrl hh dest with hs | ⟨_, _, -, -, -, hs⟩ <;> simp [hs]

end Delivery

/-! ## Runs of the network -/

variable (rt : String → Runtime ι) (T : Timeouts) (ver : UInt8)

/-- One step of the network whose node at `a` runs over `rt a`. -/
inductive Step : Network ι → Network ι → Prop
  /-- A client sends a datagram. -/
  | send (s : Network ι) (d : Datagram) :
      Step s { s with inFlight := s.inFlight ++ [d], injected := s.injected ++ [d] }
  /-- The overlay loses a datagram. -/
  | lose (s : Network ι) (pre post : List Datagram) (d : Datagram) (hs : s.inFlight = pre ++ d :: post) :
      Step s { s with inFlight := pre ++ post }
  /-- A datagram reaches its destination, whose handler runs while live batches wait on `pending`. -/
  | deliver (s : Network ι) (pre post : List Datagram) (d : Datagram) (pending : List Cid) (h : Handled ι)
      (hs : s.inFlight = pre ++ d :: post)
      (hh : handleNewPacket (rt d.dest) pending (s.node d.dest) d.src d.bytes = .ok h) :
      Step s ⟨Function.update s.node d.dest h.worker, pre ++ post ++ responses ver d.dest h.sent, s.injected,
        s.delivered ++ [d], s.answered ++ responses ver d.dest h.sent⟩
  /-- A node runs one of its own operations on its table. -/
  | operate (s : Network ι) (a : String) {w : DHTworker ι} (h : TableOp (rt a) T (s.node a) w) :
      Step s { s with node := Function.update s.node a w }

omit rt T in
/-- The response datagram `a` answers the request datagram `q`: it goes back to the sender of
`q` from the destination of `q`, as the envelope of a response on the CID of the packet `q`
carried, which is not a response. -/
def Answers (a q : Datagram) : Prop :=
  a.dest = q.src ∧ a.src = q.dest ∧ ∃ p r, parseCommPacket q.src q.bytes = some p ∧ p.type ≠ type.CommN ∧
    r.cid = p.cid ∧ a.bytes = ResponsePacket.toByte ver r

omit rt T in
/-- What holds in every state a run reaches from `Network.init`. -/
structure Traffic (s : Network ι) : Prop where
  budget : s.delivered.length + load s.inFlight ≤ 2 * s.injected.length
  answered : s.answered.length ≤ s.delivered.length
  origin : ∀ d ∈ s.inFlight, d ∈ s.injected ∨ d ∈ s.answered
  correlated : ∀ a ∈ s.answered, ∃ q ∈ s.delivered, Answers ver a q

omit rt T in
theorem traffic_init (nodes : String → DHTworker ι) : Traffic ver (Network.init nodes) :=
  ⟨le_refl _, le_refl _, nofun, nofun⟩

theorem Traffic.step (hrl : ∀ a, (rt a).relay.OnCid) {s s' : Network ι} (hs : Step rt T ver s s') (ht : Traffic ver s) :
    Traffic ver s' := by
  cases hs with
  | send d =>
    have := ht.budget
    have := weight_le_two d
    refine ⟨by simp only [List.length_append, List.length_singleton, load_append, load_cons, load_nil]; omega,
      ht.answered, fun x hx => ?_, ht.correlated⟩
    rcases List.mem_append.mp hx with hx | hx
    · exact (ht.origin x hx).imp_left (List.mem_append_left _)
    · exact .inl (List.mem_append_right _ hx)
  | lose pre post d hsplit =>
    have hb := ht.budget
    rw [hsplit, load_append, load_cons] at hb
    refine ⟨by dsimp only; rw [load_append]; omega, ht.answered, fun x hx => ht.origin x ?_, ht.correlated⟩
    rw [hsplit]
    rcases List.mem_append.mp hx with hx | hx
    · exact List.mem_append_left _ hx
    · exact List.mem_append_right _ (List.mem_cons_of_mem _ hx)
  | deliver pre post d pending h hsplit hh =>
    have hb := ht.budget
    rw [hsplit, load_append, load_cons] at hb
    have hlt := load_responses_lt (rt d.dest) ver (hrl d.dest) hh d.dest
    have hle := length_responses_le (rt d.dest) ver (hrl d.dest) hh d.dest
    have ha := ht.answered
    refine ⟨?_, ?_, fun x hx => ?_, fun a ha => ?_⟩
    · simp only [List.length_append, List.length_singleton, load_append]
      omega
    · simp only [List.length_append, List.length_singleton]
      omega
    · rcases List.mem_append.mp hx with hx | hx
      · refine (ht.origin x ?_).imp_right (List.mem_append_left _)
        rw [hsplit]
        rcases List.mem_append.mp hx with hx | hx
        · exact List.mem_append_left _ hx
        · exact List.mem_append_right _ (List.mem_cons_of_mem _ hx)
      · exact .inr (List.mem_append_right _ hx)
    · rcases List.mem_append.mp ha with ha | ha
      · obtain ⟨q, hq, hans⟩ := ht.correlated a ha
        exact ⟨q, List.mem_append_left _ hq, hans⟩
      · rcases responses_of_handle (rt d.dest) ver (hrl d.dest) hh d.dest with hs | ⟨p, r, hp, hty, hc, hs⟩
        · rw [hs] at ha
          nomatch ha
        · rw [hs, List.mem_singleton] at ha
          subst ha
          exact ⟨d, List.mem_append_right _ (List.mem_singleton_self _), rfl, rfl, p, r, hp, hty, hc, rfl⟩
  | operate a h => exact ⟨ht.budget, ht.answered, ht.origin, ht.correlated⟩

theorem Step.node_run {s s' : Network ι} (hs : Step rt T ver s s') (a : String) :
    Relation.ReflTransGen (TableOp (rt a) T) (s.node a) (s'.node a) := by
  cases hs with
  | send => exact .refl
  | lose => exact .refl
  | deliver pre post d pending h hsplit hh =>
    by_cases ha : a = d.dest
    · subst ha
      simp only [Function.update_same]
      exact .single (.handle pending d.src d.bytes hh)
    · simp only [Function.update_noteq ha]
      exact .refl
  | operate b hop =>
    by_cases ha : a = b
    · subst ha
      simp only [Function.update_same]
      exact .single hop
    · simp only [Function.update_noteq ha]
      exact .refl

/-- In every run of a network of nodes running this code, from nodes in any state and nothing
sent, under any interleaving of client sends, losses, deliveries and the nodes' own operations:
the nodes deliver at most twice as many datagrams as the clients sent, and send no more
responses than they received datagrams; every datagram in flight was sent by a client or is such
a response; and every response goes back to the sender of a request delivered before it, from
that request's destination and on its CID, so no response is ever answered. -/
theorem network_traffic (hrl : ∀ a, (rt a).relay.OnCid) (nodes : String → DHTworker ι) {s : Network ι}
    (h : Relation.ReflTransGen (Step rt T ver) (Network.init nodes) s) :
    s.delivered.length ≤ 2 * s.injected.length ∧ s.answered.length ≤ s.delivered.length ∧
      (∀ d ∈ s.inFlight, d ∈ s.injected ∨ d ∈ s.answered) ∧
      ∀ a ∈ s.answered, ∃ q ∈ s.delivered, Answers ver a q := by
  have ht : Traffic ver s := by
    induction h with
    | refl => exact traffic_init ver nodes
    | tail _ hs ih => exact ih.step rt T ver hrl hs
  exact ⟨le_trans (Nat.le_add_right _ _) ht.budget, ht.answered, ht.origin, ht.correlated⟩

/-- Between any two states of a run of the network, under any interleaving of sends, losses,
deliveries and the nodes' own operations, a record a node's table holds stays there unchanged:
nothing a node does, nor any datagram it handles, removes or replaces a record. -/
theorem network_node_runs {s s' : Network ι} (h : Relation.ReflTransGen (Step rt T ver) s s') (a : String)
    {k : Tag} {n : Node ι} (hk : findNode (s.node a) k = some n) : findNode (s'.node a) k = some n := by
  have hrun : Relation.ReflTransGen (TableOp (rt a) T) (s.node a) (s'.node a) := by
    induction h with
    | refl => exact .refl
    | tail _ hs ih => exact ih.trans (hs.node_run rt T ver a)
  exact findNode_of_run (rt a) T hrun hk

/-! ## What the answers carry -/

omit T in
/-- Every answer on record was sent by the handler of a delivered datagram, to its sender. -/
def Served (s : Network ι) : Prop :=
  ∀ a ∈ s.answered, ∃ q ∈ s.delivered, ∃ pending w h r,
    handleNewPacket (rt q.dest) pending w q.src q.bytes = .ok h ∧ (q.src, r) ∈ h.sent ∧
      a = ⟨q.src, q.dest, r.toByte ver⟩

theorem Served.step {s s' : Network ι} (hs : Step rt T ver s s') (hv : Served rt ver s) : Served rt ver s' := by
  cases hs with
  | send => exact hv
  | lose => exact hv
  | operate => exact hv
  | deliver pre post d pending h hsplit hh =>
    intro a ha
    rcases List.mem_append.mp ha with ha | ha
    · obtain ⟨q, hq, rest⟩ := hv a ha
      exact ⟨q, List.mem_append_left _ hq, rest⟩
    · obtain ⟨x, hx, rfl⟩ := List.mem_map.mp ha
      have hsrc : x.1 = d.src := by
        rcases handleNewPacket_sent (rt d.dest) hh with hsent | ⟨p, r, -, -, hsent, -⟩
        · rw [hsent] at hx
          nomatch hx
        · rw [hsent, List.mem_singleton] at hx
          rw [hx]
      exact ⟨d, List.mem_append_right _ (List.mem_singleton_self _), pending, _, h, x.2, hh,
        by rw [← hsrc]; exact hx, by rw [hsrc]⟩

theorem served_of_run (nodes : String → DHTworker ι) {s : Network ι}
    (h : Relation.ReflTransGen (Step rt T ver) (Network.init nodes) s) : Served rt ver s := by
  induction h with
  | refl => exact nofun
  | tail _ hs ih => exact ih.step rt T ver hs

theorem handleNewPacket_handler (R : Runtime ι) {pending : List Cid} {w : DHTworker ι} {«from» : String}
    {buf : List UInt8} {h : Handled ι} {p : CommunicationPacket} (hh : handleNewPacket R pending w «from» buf = .ok h)
    (hp : parseCommPacket «from» buf = some p) {x : String × ResponsePacket} (hx : x ∈ h.sent) :
    ∃ handler, (incomingPacketHandlers R).lookup p.type = some handler ∧ handler w p = .ok h := by
  unfold handleNewPacket at hh
  rw [hp] at hh
  dsimp only at hh
  split at hh
  · cases hh
    nomatch hx
  · split at hh
    · exact ⟨_, ‹_›, hh⟩
    · cases hh

theorem dhtRequest_answer {t : UInt8}
    {handler : DHTworker ι → CommunicationPacket → Except Fault (DHTworker ι × ResponsePacket)}
    {w : DHTworker ι} {p : CommunicationPacket} {h : Handled ι} (hd : dhtRequest t handler w p = .ok h)
    {x : String × ResponsePacket} (hx : x ∈ h.sent) : ∃ r, handler w p = .ok r ∧ x.2 = r.2 := by
  unfold dhtRequest at hd
  split_ifs at hd
  · obtain ⟨r, hr, rfl⟩ := map_eq_ok.mp hd
    exact ⟨r, hr, by rw [List.mem_singleton.mp hx]⟩
  · cases hd
    nomatch hx

theorem handleNewPacket_retrieve (R : Runtime ι) {pending : List Cid} {w : DHTworker ι} {«from» : String}
    {buf : List UInt8} {h : Handled ι} {p : CommunicationPacket} {dataType : UInt8} {key : List UInt8}
    (hh : handleNewPacket R pending w «from» buf = .ok h) (hp : parseCommPacket «from» buf = some p)
    (ht : p.type = type.CommQ) (hpay : p.payload = dataType :: key) (hk : key.length = 32)
    {x : String × ResponsePacket} (hx : x ∈ h.sent) :
    x.2.cid = p.cid ∧ ∀ minLen ver' from', responseBody minLen ⟨type.CommN, ver', x.2.cid, from', x.2.payload⟩ =
      .ok (retrieved R.storage dataType key minLen) := by
  obtain ⟨handler, hl, hhd⟩ := handleNewPacket_handler R hh hp hx
  rw [ht] at hl
  cases hl
  obtain ⟨r', hr', hx2⟩ := dhtRequest_answer hhd hx
  obtain ⟨r, hr, hcid, hbody⟩ := receiveRetrieveRequest_answer R.env R.storage w hpay hk
  rw [hr] at hr'
  cases hr'
  rw [hx2]
  exact ⟨hcid, hbody⟩

/-- In every run of the network, under any interleaving of sends, losses, deliveries and the
nodes' own operations, an answer a node sent to a delivered version-4 retrieve request of a class
byte and a 32-byte key parses, at the requester, as a response on the request's CID from which
every response parser reads what the responder stores under that class and key. -/
theorem network_retrieve_answers (nodes : String → DHTworker ι) {s : Network ι}
    (h : Relation.ReflTransGen (Step rt T ver) (Network.init nodes) s) {a : Datagram} (ha : a ∈ s.answered) :
    ∃ q ∈ s.delivered, a.dest = q.src ∧ a.src = q.dest ∧
      ∀ p dataType key, parseCommPacket q.src q.bytes = some p → p.type = type.CommQ → p.ver = 4 →
        p.payload = dataType :: key → key.length = 32 →
        ∃ resp, parseCommPacket a.dest a.bytes = some resp ∧ resp.type = type.CommN ∧ resp.cid = p.cid ∧
          ∀ minLen, responseBody minLen resp = .ok (retrieved (rt a.src).storage dataType key minLen) := by
  obtain ⟨q, hq, pending, w, handled, r, hh, hx, rfl⟩ := served_of_run rt T ver nodes h a ha
  refine ⟨q, hq, rfl, rfl, fun p dataType key hp ht _ hpay hk => ?_⟩
  obtain ⟨hcid, hbody⟩ := handleNewPacket_retrieve (rt q.dest) hh hp ht hpay hk hx
  have hlen : r.cid.length = 32 := hcid ▸ (parseCommPacket_eq_some hp).2
  exact ⟨_, parseCommPacket_toByte q.src ⟨type.CommN, ver, r.cid, "", r.payload⟩
    (show type.CommN ∈ knownTypes by decide) hlen, rfl, hcid,
    fun minLen => hbody minLen ver q.src⟩

theorem handleNewPacket_refuses (R : Runtime ι) {pending : List Cid} {w : DHTworker ι} {«from» : String}
    {buf : List UInt8} {h : Handled ι} {p : CommunicationPacket} (hh : handleNewPacket R pending w «from» buf = .ok h)
    (hp : parseCommPacket «from» buf = some p) {x : String × ResponsePacket} (hx : x ∈ h.sent) :
    (p.type = type.CommS → x.2 = statusResponse p.cid StatusCode.NO_DISK_SPACE) ∧
      (p.type = type.CommD ∨ p.type = type.CommX ∨ p.type = type.CommY →
        x.2 = statusResponse p.cid StatusCode.NO_DATA_FOUND) := by
  obtain ⟨handler, hl, hhd⟩ := handleNewPacket_handler R hh hp hx
  refine ⟨fun ht => ?_, fun ht => ?_⟩
  · rw [ht] at hl
    cases hl
    obtain ⟨r, hr, hx2⟩ := dhtRequest_answer hhd hx
    rw [hx2, receiveStoreRequest_answer R.env R.host hr]
  · rcases ht with ht | ht | ht <;> rw [ht] at hl <;> cases hl
    · obtain ⟨r, hr, hx2⟩ := dhtRequest_answer hhd hx
      rw [hx2, noDataFoundRequest_answer R.env hr]
    · obtain ⟨r, hr, hx2⟩ := dhtRequest_answer hhd hx
      rw [hx2, receiveIndexPacketDeleteRequest_answer R.env hr]
    · dsimp only [receiveDeletionQueryRequest] at hhd
      split_ifs at hhd
      all_goals first
        | (cases hhd; nomatch hx)
        | (obtain ⟨r, hr, rfl⟩ := map_eq_ok.mp hhd
           rw [List.mem_singleton.mp hx, noDataFoundRequest_answer R.env hr])

/-- In every run of the network, under any interleaving, every answer a node sent to a store
request is `NO_DISK_SPACE`, and every answer to an email delete request, an index delete request
or a deletion query is `NO_DATA_FOUND`, each with no data and on the request's CID: no node
running this code ever acknowledges a store or a deletion. -/
theorem network_refuses_stores_and_deletes (nodes : String → DHTworker ι) {s : Network ι}
    (h : Relation.ReflTransGen (Step rt T ver) (Network.init nodes) s) {a : Datagram} (ha : a ∈ s.answered) :
    ∃ q ∈ s.delivered, a.dest = q.src ∧ a.src = q.dest ∧ ∃ p r, parseCommPacket q.src q.bytes = some p ∧
      a.bytes = r.toByte ver ∧
      (p.type = type.CommS → r = statusResponse p.cid StatusCode.NO_DISK_SPACE) ∧
      (p.type = type.CommD ∨ p.type = type.CommX ∨ p.type = type.CommY →
        r = statusResponse p.cid StatusCode.NO_DATA_FOUND) := by
  obtain ⟨q, hq, pending, w, handled, r, hh, hx, rfl⟩ := served_of_run rt T ver nodes h a ha
  rcases handleNewPacket_sent (rt q.dest) hh with hs | ⟨p, -, hp, -, -, -⟩
  · rw [hs] at hx
    nomatch hx
  · exact ⟨q, hq, rfl, rfl, p, r, hp, rfl, handleNewPacket_refuses (rt q.dest) hh hp hx⟩

def sampleRequest : Datagram :=
  ⟨"N2", "N1", RetrieveRequestPacket.toByte 4 ⟨List.replicate 32 7, DataI, List.replicate 32 1⟩⟩

def samplePeerListRequest : Datagram :=
  ⟨"N2", "N1", CommunicationPacket.toByte ⟨type.CommA, 4, List.replicate 32 5, "", []⟩⟩

/-- Both requests reach `N2`, which answers each, and both answers reach the batches of `N1`
that wait on their CIDs: the nodes deliver exactly twice the datagrams the client sent. -/
theorem network_traffic_sample :
    ∃ s, Relation.ReflTransGen (Step (fun _ => sampleRuntime) ⟨10, 10, by decide⟩ 4)
      (Network.init fun _ => .empty) s ∧ s.injected.length = 2 ∧ s.delivered.length = 4 ∧
      (s.delivered.length ≤ 2 * s.injected.length ∧ s.answered.length ≤ s.delivered.length ∧
        (∀ d ∈ s.inFlight, d ∈ s.injected ∨ d ∈ s.answered) ∧ ∀ a ∈ s.answered, ∃ q ∈ s.delivered, Answers 4 a q) := by
  have hrun : Relation.ReflTransGen (Step (fun _ => sampleRuntime) ⟨10, 10, by decide⟩ 4)
      (Network.init fun _ => .empty) _ :=
    .tail (.tail (.tail (.tail (.tail (.single (.send _ sampleRequest)) (.send _ samplePeerListRequest))
      (.deliver _ [] _ sampleRequest [] _ rfl rfl)) (.deliver _ [] _ samplePeerListRequest [] _ rfl rfl))
      (.deliver _ [] _ _ [List.replicate 32 7] _ rfl rfl)) (.deliver _ [] [] _ [List.replicate 32 5] _ rfl rfl)
  exact ⟨_, hrun, rfl, rfl, network_traffic _ _ 4 (fun _ => sampleRelay_onCid) _ hrun⟩

def sampleNodes (a : String) : DHTworker (Fin 4) :=
  if a = "N2" then ⟨⟨[(sampleLib.identHash 1, ⟨some 1, true, 3⟩)], List.nodup_singleton _⟩, .empty⟩ else .empty

/-- `N1`'s request reaches `N2`, whose handler adds `N1` again: the record `N2` held is kept as
it was. -/
theorem network_node_runs_sample :
    ∃ s, Relation.ReflTransGen (Step (fun _ => sampleRuntime) ⟨10, 10, by decide⟩ 4) (Network.init sampleNodes) s ∧
      s.delivered = [sampleRequest] ∧ findNode (s.node "N2") (sampleLib.identHash 1) = some ⟨some 1, true, 3⟩ := by
  have hrun : Relation.ReflTransGen (Step (fun _ => sampleRuntime) ⟨10, 10, by decide⟩ 4) (Network.init sampleNodes) _ :=
    .tail (.single (.send _ sampleRequest)) (.deliver _ [] [] sampleRequest [] _ rfl rfl)
  exact ⟨_, hrun, rfl, network_node_runs _ _ 4 hrun "N2" (by decide)⟩

def storingRuntime : Runtime (Fin 4) :=
  { sampleRuntime with
    storage := ⟨fun k => if k = List.replicate 32 1 then [DataI, 7, 1, 0] else [], fun _ => [], fun _ => []⟩ }

/-- `N2`'s answer to the sample request reads, as `N1` parses it, as the body `N2` stores. -/
theorem network_retrieve_answers_sample :
    ∃ s a, Relation.ReflTransGen (Step (fun _ => storingRuntime) ⟨10, 10, by decide⟩ 4)
      (Network.init fun _ => .empty) s ∧ a ∈ s.answered ∧
      ∃ resp, parseCommPacket a.dest a.bytes = some resp ∧ resp.type = type.CommN ∧
        responseBody 4 resp = .ok (some [DataI, 7, 1, 0]) := by
  obtain ⟨s, hrun, hans, hdel⟩ : ∃ s, Relation.ReflTransGen (Step (fun _ => storingRuntime) ⟨10, 10, by decide⟩ 4)
      (Network.init fun _ => .empty) s ∧ s.answered ≠ [] ∧ s.delivered = [sampleRequest] :=
    ⟨_, .tail (.single (.send _ sampleRequest)) (.deliver _ [] [] sampleRequest [] _ rfl rfl), by simp [responses], rfl⟩
  obtain ⟨a, ha⟩ := List.exists_mem_of_ne_nil _ hans
  obtain ⟨q, hq, -, -, hall⟩ := network_retrieve_answers _ _ 4 _ hrun ha
  obtain rfl : q = sampleRequest := by simpa [hdel] using hq
  obtain ⟨resp, hp, ht, -, hb⟩ := hall ⟨type.CommQ, 4, List.replicate 32 7, "N1", DataI :: List.replicate 32 1⟩
    DataI (List.replicate 32 1) rfl rfl rfl rfl (by simp)
  exact ⟨_, _, hrun, ha, resp, hp, ht, hb 4⟩

def sampleStore : Datagram :=
  ⟨"N2", "N1", CommunicationPacket.toByte ⟨type.CommS, 4, List.replicate 32 3, "", [0, 0, 1, 0, DataE]⟩⟩

/-- `N2` answers the store request, with `NO_DISK_SPACE`. -/
theorem network_refuses_stores_and_deletes_sample :
    ∃ s a, Relation.ReflTransGen (Step (fun _ => sampleRuntime) ⟨10, 10, by decide⟩ 4)
      (Network.init fun _ => .empty) s ∧ a ∈ s.answered ∧
      ∃ q ∈ s.delivered, a.dest = q.src ∧ a.src = q.dest ∧ ∃ p r, parseCommPacket q.src q.bytes = some p ∧
        a.bytes = r.toByte 4 ∧
        (p.type = type.CommS → r = statusResponse p.cid StatusCode.NO_DISK_SPACE) ∧
        (p.type = type.CommD ∨ p.type = type.CommX ∨ p.type = type.CommY →
          r = statusResponse p.cid StatusCode.NO_DATA_FOUND) := by
  have hrun : Relation.ReflTransGen (Step (fun _ => sampleRuntime) ⟨10, 10, by decide⟩ 4)
      (Network.init fun _ => .empty) _ :=
    .tail (.single (.send _ sampleStore)) (.deliver _ [] [] sampleStore [] _ rfl rfl)
  exact ⟨_, _, hrun, List.mem_append_right _ (List.mem_map_of_mem _ (List.mem_singleton_self _)),
    network_refuses_stores_and_deletes _ _ 4 _ hrun (List.mem_append_right _ (List.mem_map_of_mem _ (List.mem_singleton_self _)))⟩

end Pbote.Protocol
