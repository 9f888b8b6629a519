import Pbote.Kademlia.NodeTable

/-!
# Peer lists

`receiveFindClosePeers` answers with every known record, each written with `ToBuffer`, in a
peer list of the request's version. `receivePeerListV4` and `receivePeerListV5` read such a
list back: version 4 in fixed 384-byte entries padded with three zero bytes, version 5 with
the library's self-delimiting decode. Each parser interleaves decoding with `addNode`; since
decoding does not look at the table, it equals decoding first and then offering the
identities to `addNode` in order (`receivePeerListV5_eq`, `receivePeerListV4_eq`).

Counts and lengths are `uint16_t` fields, so they wrap past `65535`; within that range a
version-5 list reads back exactly the identities written (`findClosePeersResponse_fields`).
-/

namespace Pbote.Kademlia

open Pbote.Wire

variable {ι : Type} (E : Env ι)

/-! ## Writing a peer list -/

/-- `response.data` for a version-`ver` request: a `PeerListPacketV4` or `PeerListPacketV5`
of every record's `ToBuffer`, and nothing for another version. -/
def peerListData (ver : UInt8) (nodes : List (Node ι)) : List UInt8 :=
  let entries := nodes.flatMap (Node.toBuffer E)
  if ver = 4 then PeerListPacket.toByte ⟨4, toU16 nodes.length, entries⟩
  else if ver = 5 then PeerListPacket.toByte ⟨5, toU16 nodes.length, entries⟩
  else []

/-- The response `receiveFindClosePeers` sends once it holds `getAllNodes()`. -/
def findClosePeersResponse (cid : Cid) (ver : UInt8) (nodes : List (Node ι)) : ResponsePacket :=
  if nodes.isEmpty then ⟨cid, StatusCode.GENERAL_ERROR, 0, []⟩
  else
    let data := peerListData E ver nodes
    ⟨cid, StatusCode.OK, toU16 data.length, data⟩

/-! ## Reading a peer list -/

/-- The `type`, `ver` and `count` fields both parsers copy out first. -/
def peerListHeader (buf : List UInt8) : Except Fault (UInt8 × UInt8 × Nat) := do
  let type ← readU8 buf 0
  let ver ← readU8 buf 1
  let count ← readU16BE buf 2
  pure (type, ver, count)

/-- `type == 'L' || type == 'P'`. -/
def isPeerListTag (t : UInt8) : Bool := t == 'L'.toUInt8 || t == 'P'.toUInt8

/-- `addNode` on decoded identities in turn, keeping the record `Node(identity.ToBase64())`
of each one it added. -/
def addNodes (w : DHTworker ι) : List ι → List (Node ι) × DHTworker ι
  | [] => ([], w)
  | x :: xs =>
    let r := addNode E w (some x)
    let rest := addNodes r.2 xs
    (if r.1 then Node.ofBase64 E (E.lib.toBase64 x) :: rest.1 else rest.1, rest.2)

/-- Modelled from the spec: the identities of `xs` that `addNode` takes in turn over a table
whose keys are `known`: those whose hash is neither the local one, nor known, nor that of an
earlier one taken. -/
def newIdentities (known : List Tag) : List ι → List ι
  | [] => []
  | x :: xs =>
    if E.lib.identHash x ∈ known ∨ E.lib.identHash E.localDestination = E.lib.identHash x then
      newIdentities known xs
    else x :: newIdentities (E.lib.identHash x :: known) xs

/-- The entry loop of `receivePeerListV5` with `n` iterations left, at `offset`. -/
def peerListV5Loop (buf : List UInt8) : Nat → Nat → DHTworker ι → List (Node ι) × DHTworker ι
  | 0, _, w => ([], w)
  | n + 1, offset, w =>
    if offset = buf.length then ([], w)
    else if buf.length < offset + 384 then ([], w)
    else match E.lib.fromBuffer (buf.drop offset) with
      | some (x, keyLen) =>
        let r := addNode E w (some x)
        let rest := peerListV5Loop buf n (offset + keyLen) r.2
        (if r.1 then Node.ofBase64 E (E.lib.toBase64 x) :: rest.1 else rest.1, rest.2)
      | none => peerListV5Loop buf n offset w

/-- `DHTworker::receivePeerListV5(buf, buf.size())`. -/
def receivePeerListV5 (w : DHTworker ι) (buf : List UInt8) :
    Except Fault (List (Node ι) × DHTworker ι) :=
  (peerListHeader buf).map fun (type, ver, count) =>
    if isPeerListTag type ∧ ver = 5 then peerListV5Loop E buf count 4 w else ([], w)

/-- The entry loop of `receivePeerListV4`: 384 bytes copied per entry, three zero bytes
appended, and the 387 bytes decoded. -/
def peerListV4Loop (buf : List UInt8) :
    Nat → Nat → DHTworker ι → Except Fault (List (Node ι) × DHTworker ι)
  | 0, _, w => .ok ([], w)
  | n + 1, offset, w =>
    if offset = buf.length then .ok ([], w)
    else if buf.length < offset + 384 then .ok ([], w)
    else do
      let key ← copyBytes buf offset 384
      let fullKey := key ++ [0, 0, 0]
      match E.lib.fromBuffer fullKey with
      | some (x, _) =>
        let r := addNodeFromBuffer E w fullKey
        let rest ← peerListV4Loop buf n (offset + 384) r.2
        pure (if r.1 then Node.ofBase64 E (E.lib.toBase64 x) :: rest.1 else rest.1, rest.2)
      | none => peerListV4Loop buf n (offset + 384) w

/-- `DHTworker::receivePeerListV4(buf, buf.size())`. -/
def receivePeerListV4 (w : DHTworker ι) (buf : List UInt8) :
    Except Fault (List (Node ι) × DHTworker ι) := do
  let (type, ver, count) ← peerListHeader buf
  if isPeerListTag type ∧ ver = 4 then peerListV4Loop E buf count 4 w else pure ([], w)

/-! ## Decoding before `addNode` -/

def peerListV5Identities (buf : List UInt8) : Nat → Nat → List ι
  | 0, _ => []
  | n + 1, offset =>
    if offset = buf.length then []
    else if buf.length < offset + 384 then []
    else match E.lib.fromBuffer (buf.drop offset) with
      | some (x, keyLen) => x :: peerListV5Identities buf n (offset + keyLen)
      | none => peerListV5Identities buf n offset

def peerListV4Identities (buf : List UInt8) : Nat → Nat → List ι
  | 0, _ => []
  | n + 1, offset =>
    if offset = buf.length then []
    else if buf.length < offset + 384 then []
    else match E.lib.fromBuffer ((buf.drop offset).take 384 ++ [0, 0, 0]) with
      | some (x, _) => x :: peerListV4Identities buf n (offset + 384)
      | none => peerListV4Identities buf n (offset + 384)

def peerListV5Decode (buf : List UInt8) : Except Fault (List ι) :=
  (peerListHeader buf).map fun (type, ver, count) =>
    if isPeerListTag type ∧ ver = 5 then peerListV5Identities E buf count 4 else []

def peerListV4Decode (buf : List UInt8) : Except Fault (List ι) :=
  (peerListHeader buf).map fun (type, ver, count) =>
    if isPeerListTag type ∧ ver = 4 then peerListV4Identities E buf count 4 else []

theorem peerListV5Loop_eq (buf : List UInt8) (n offset : Nat) (w : DHTworker ι) :
    peerListV5Loop E buf n offset w = addNodes E w (peerListV5Identities E buf n offset) := by
  induction n generalizing offset w with
  | zero => rfl
  | succ n ih =>
    simp only [peerListV5Loop, peerListV5Identities]
    split_ifs
    · rfl
    · rfl
    · split
      · simp only [addNodes, ih]
      · exact ih _ _

theorem addNodeFromBuffer_of_fromBuffer {w : DHTworker ι} {b : List UInt8} {x : ι} {n : Nat}
    (h : E.lib.fromBuffer b = some (x, n)) : addNodeFromBuffer E w b = addNode E w (some x) := by
  simp [addNodeFromBuffer, h]

theorem peerListV4Loop_eq (buf : List UInt8) (n offset : Nat) (w : DHTworker ι) :
    peerListV4Loop E buf n offset w = .ok (addNodes E w (peerListV4Identities E buf n offset)) := by
  induction n generalizing offset w with
  | zero => rfl
  | succ n ih =>
    simp only [peerListV4Loop, peerListV4Identities]
    split_ifs with h1 h2
    · rfl
    · rfl
    · rw [copyBytes_of_le (by omega)]
      simp only [bind, Except.bind]
      split
      · rename_i hx
        simp only [addNodeFromBuffer_of_fromBuffer E hx, ih, addNodes]
        rfl
      · exact ih _ _

theorem receivePeerListV5_eq (w : DHTworker ι) (buf : List UInt8) :
    receivePeerListV5 E w buf = (peerListV5Decode E buf).map (addNodes E w) := by
  unfold receivePeerListV5 peerListV5Decode
  cases peerListHeader buf with
  | error e => rfl
  | ok h =>
    obtain ⟨type, ver, count⟩ := h
    simp only [Except.map]
    split_ifs
    · rw [peerListV5Loop_eq]
    · rfl

theorem receivePeerListV4_eq (w : DHTworker ι) (buf : List UInt8) :
    receivePeerListV4 E w buf = (peerListV4Decode E buf).map (addNodes E w) := by
  unfold receivePeerListV4 peerListV4Decode
  cases peerListHeader buf with
  | error e => rfl
  | ok h =>
    obtain ⟨type, ver, count⟩ := h
    simp only [Except.map, bind, Except.bind]
    split_ifs
    · rw [peerListV4Loop_eq]
    · rfl

@[simp] theorem addNodes_activeRequests (w : DHTworker ι) (xs : List ι) :
    (addNodes E w xs).2.activeRequests = w.activeRequests := by
  induction xs generalizing w with
  | nil => rfl
  | cons x xs ih => simp [addNodes, ih]

theorem receivePeerListV5_activeRequests {w w' : DHTworker ι} {buf : List UInt8} {p : List (Node ι)}
    (h : receivePeerListV5 E w buf = .ok (p, w')) : w'.activeRequests = w.activeRequests := by
  obtain ⟨xs, -, h⟩ := map_eq_ok.mp ((receivePeerListV5_eq E w buf).symm.trans h)
  simpa [h] using addNodes_activeRequests E w xs

theorem receivePeerListV4_activeRequests {w w' : DHTworker ι} {buf : List UInt8} {p : List (Node ι)}
    (h : receivePeerListV4 E w buf = .ok (p, w')) : w'.activeRequests = w.activeRequests := by
  obtain ⟨xs, -, h⟩ := map_eq_ok.mp ((receivePeerListV4_eq E w buf).symm.trans h)
  simpa [h] using addNodes_activeRequests E w xs

/-! ## What a peer list adds -/

theorem addNodes_fst (hl : E.lib.Lawful) (xs : List ι) (w : DHTworker ι) (known : List Tag)
    (hk : ∀ h, h ∈ known ↔ h ∈ w.nodes.keys) :
    (addNodes E w xs).1 = (newIdentities E known xs).map fun x => { identity := some x } := by
  induction xs generalizing w known with
  | nil => rfl
  | cons x xs ih =>
    simp only [addNodes, newIdentities, addNode_eq E hl, hk]
    by_cases h : E.lib.identHash x ∈ w.nodes.keys ∨ E.lib.identHash E.localDestination = E.lib.identHash x
    · simp only [if_pos h, Bool.false_eq_true, if_false]
      exact ih w known hk
    · simp only [if_neg h, if_true, Node.ofBase64_toBase64 E hl, List.map_cons]
      rw [ih _ _ fun j => by rw [List.mem_cons, hk, StdMap.mem_keys_insert]]

theorem newIdentities_new (known : List Tag) (xs : List ι) :
    (∀ x ∈ newIdentities E known xs,
      E.lib.identHash x ∉ known ∧ E.lib.identHash x ≠ E.lib.identHash E.localDestination) ∧
      ((newIdentities E known xs).map E.lib.identHash).Nodup := by
  induction xs generalizing known with
  | nil => exact ⟨fun _ h => (nomatch h), List.nodup_nil⟩
  | cons x xs ih =>
    unfold newIdentities
    split_ifs with h
    · exact ih known
    · obtain ⟨hnew, hnd⟩ := ih (E.lib.identHash x :: known)
      rw [not_or] at h
      refine ⟨fun y hy => ?_, List.nodup_cons.mpr ⟨fun hm => ?_, hnd⟩⟩
      · rcases List.mem_cons.mp hy with rfl | hy
        · exact ⟨h.1, Ne.symm h.2⟩
        · exact ⟨fun hk => (hnew y hy).1 (List.mem_cons_of_mem _ hk), (hnew y hy).2⟩
      · obtain ⟨y, hy, he⟩ := List.mem_map.mp hm
        exact (hnew y hy).1 (he ▸ List.mem_cons_self _ _)

theorem length_newIdentities_le (known : List Tag) (xs : List ι) : (newIdentities E known xs).length ≤ xs.length := by
  induction xs generalizing known with
  | nil => exact le_rfl
  | cons x xs ih =>
    unfold newIdentities
    split_ifs
    · exact (ih known).trans (Nat.le_succ _)
    · exact Nat.succ_le_succ (ih _)

omit E in
theorem peerListHeader_of_le {buf : List UInt8} (h : 4 ≤ buf.length) :
    ∃ type ver count, peerListHeader buf = .ok (type, ver, count) := by
  obtain ⟨count, hc⟩ := readU16Host_of_le .bigEndian (show 2 + 2 ≤ buf.length by omega)
  exact ⟨buf[0], buf[1], count, by simp [peerListHeader, readU8_of_lt (show 0 < buf.length by omega),
    readU8_of_lt (show 1 < buf.length by omega), show readU16BE buf 2 = .ok count from hc, bind, Except.bind,
    pure, Except.pure]⟩

theorem length_peerListV5Identities_le (buf : List UInt8) (n offset : Nat) :
    (peerListV5Identities E buf n offset).length ≤ n := by
  induction n generalizing offset with
  | zero => exact le_rfl
  | succ n ih =>
    simp only [peerListV5Identities]
    split_ifs
    · exact Nat.zero_le _
    · exact Nat.zero_le _
    · split
      · exact Nat.succ_le_succ (ih _)
      · exact (ih _).trans (Nat.le_succ _)

theorem length_peerListV4Identities_le (buf : List UInt8) (n offset : Nat) :
    (peerListV4Identities E buf n offset).length ≤ n ∧
      (peerListV4Identities E buf n offset).length * 384 ≤ buf.length - offset := by
  induction n generalizing offset with
  | zero => simp [peerListV4Identities]
  | succ n ih =>
    simp only [peerListV4Identities]
    split_ifs with h1 h2
    · simp
    · simp
    · obtain ⟨ih1, ih2⟩ := ih (offset + 384)
      split
      · simp only [List.length_cons]; omega
      · omega

theorem entries_subset_addNodes {w : DHTworker ι} {p : Tag × Node ι} (xs : List ι) (h : p ∈ w.nodes.entries) :
    p ∈ (addNodes E w xs).2.nodes.entries := by
  induction xs generalizing w with
  | nil => exact h
  | cons x xs ih => exact ih (entries_subset_addNode E _ h)

theorem addNodes_mem (hl : E.lib.Lawful) (w : DHTworker ι) (xs : List ι) :
    ∀ n ∈ (addNodes E w xs).1, (n.identHash E, n) ∈ (addNodes E w xs).2.nodes.entries := by
  induction xs generalizing w with
  | nil => exact fun _ h => nomatch h
  | cons x xs ih =>
    simp only [addNodes, addNode_eq E hl]
    by_cases h : E.lib.identHash x ∈ w.nodes.keys ∨ E.lib.identHash E.localDestination = E.lib.identHash x
    · simp only [if_pos h, Bool.false_eq_true, if_false]
      exact ih w
    · simp only [if_neg h, if_true, Node.ofBase64_toBase64 E hl]
      intro n hn
      rcases List.mem_cons.mp hn with rfl | hn
      · exact entries_subset_addNodes E xs (StdMap.mem_insert.mpr (.inr ⟨rfl, (not_or.mp h).1⟩))
      · exact ih _ n hn

/-- What a peer-list parser returns from the identities `xs` it decoded over the table of `w`:
the new ones in order, no hash twice, none local and none known before. -/
structure AddsNew (w : DHTworker ι) (xs : List ι) (r : List (Node ι)) : Prop where
  eq : r = (newIdentities E w.nodes.keys xs).map fun x => { identity := some x }
  nodup : (r.map (Node.identHash E)).Nodup
  fresh : ∀ n ∈ r, n.identHash E ∉ w.nodes.keys ∧ n.identHash E ≠ E.lib.identHash E.localDestination

theorem addNodes_addsNew (hl : E.lib.Lawful) (w : DHTworker ι) (xs : List ι) : AddsNew E w xs (addNodes E w xs).1 := by
  obtain ⟨hnew, hnd⟩ := newIdentities_new E w.nodes.keys xs
  have heq := addNodes_fst E hl xs w w.nodes.keys fun _ => Iff.rfl
  refine ⟨heq, ?_, fun n hn => ?_⟩
  · rw [heq, List.map_map]
    exact hnd
  · rw [heq] at hn
    obtain ⟨x, hx, rfl⟩ := List.mem_map.mp hn
    exact hnew x hx

/-- On a buffer of at least four bytes, as the lookup hands over, both parsers read only inside
it and return, in order, the identities decoded in the call that `addNode` took: each new, none
twice. The loops are structural on the header's count, and a pass decodes at most one identity;
version 4 decodes at most one per 384 bytes after the header. -/
theorem receivePeerList_adds_new (hl : E.lib.Lawful) (w : DHTworker ι) {buf : List UInt8} (hlen : 4 ≤ buf.length) :
    ∃ type ver count, peerListHeader buf = .ok (type, ver, count) ∧
      (∃ xs r, peerListV4Decode E buf = .ok xs ∧ xs.length ≤ min count ((buf.length - 4) / 384) ∧
        receivePeerListV4 E w buf = .ok r ∧ AddsNew E w xs r.1) ∧
      (∃ xs r, peerListV5Decode E buf = .ok xs ∧ xs.length ≤ count ∧
        receivePeerListV5 E w buf = .ok r ∧ AddsNew E w xs r.1) := by
  obtain ⟨type, ver, count, hh⟩ := peerListHeader_of_le hlen
  have h4 : peerListV4Decode E buf = .ok (if isPeerListTag type ∧ ver = 4 then peerListV4Identities E buf count 4 else []) := by
    simp only [peerListV4Decode, hh]; rfl
  have h5 : peerListV5Decode E buf = .ok (if isPeerListTag type ∧ ver = 5 then peerListV5Identities E buf count 4 else []) := by
    simp only [peerListV5Decode, hh]; rfl
  refine ⟨type, ver, count, hh, ⟨_, _, h4, ?_, by rw [receivePeerListV4_eq, h4]; rfl, addNodes_addsNew E hl w _⟩,
    ⟨_, _, h5, ?_, by rw [receivePeerListV5_eq, h5]; rfl, addNodes_addsNew E hl w _⟩⟩
  · split_ifs
    · obtain ⟨h1, h2⟩ := length_peerListV4Identities_le E buf count 4
      exact le_min h1 ((Nat.le_div_iff_mul_le (by decide)).mpr h2)
    · exact Nat.zero_le _
  · split_ifs
    · exact length_peerListV5Identities_le E buf count 4
    · exact Nat.zero_le _

def sampleV5List : List UInt8 := ['L'.toUInt8, 5, 0, 2] ++ sampleLib.toBuffer 1 ++ sampleLib.toBuffer 2

set_option maxRecDepth 4000 in
/-- The list over a table that already holds `1`: only `2` is returned. -/
theorem receivePeerList_adds_new_known :
    sampleLib.Lawful ∧ 4 ≤ sampleV5List.length ∧
      (∃ type ver count, peerListHeader sampleV5List = .ok (type, ver, count) ∧
        (∃ xs r, peerListV4Decode ⟨sampleLib, 0⟩ sampleV5List = .ok xs ∧
          xs.length ≤ min count ((sampleV5List.length - 4) / 384) ∧
          receivePeerListV4 ⟨sampleLib, 0⟩ (addNode ⟨sampleLib, 0⟩ .empty (some 1)).2 sampleV5List = .ok r ∧
          AddsNew ⟨sampleLib, 0⟩ (addNode ⟨sampleLib, 0⟩ .empty (some 1)).2 xs r.1) ∧
        (∃ xs r, peerListV5Decode ⟨sampleLib, 0⟩ sampleV5List = .ok xs ∧ xs.length ≤ count ∧
          receivePeerListV5 ⟨sampleLib, 0⟩ (addNode ⟨sampleLib, 0⟩ .empty (some 1)).2 sampleV5List = .ok r ∧
          AddsNew ⟨sampleLib, 0⟩ (addNode ⟨sampleLib, 0⟩ .empty (some 1)).2 xs r.1)) ∧
      (receivePeerListV5 ⟨sampleLib, 0⟩ (addNode ⟨sampleLib, 0⟩ .empty (some 1)).2 sampleV5List).map (·.1) =
        .ok [Node.ofBase64 ⟨sampleLib, 0⟩ "N2"] := by
  have hlen : 4 ≤ sampleV5List.length := by
    rw [sampleV5List, List.length_append, List.length_append]
    exact Nat.le_add_right_of_le (Nat.le_add_right_of_le (le_refl 4))
  exact ⟨sampleLib_lawful, hlen, receivePeerList_adds_new ⟨sampleLib, 0⟩ sampleLib_lawful _ hlen, rfl⟩

/-! ## The round trip -/

theorem peerListHeader_toByte (p : PeerListPacket) :
    peerListHeader p.toByte = .ok ('L'.toUInt8, p.ver, p.count.toNat) := by
  have h0 : readU8 p.toByte 0 = .ok 'L'.toUInt8 := readU8_eq_ok.mpr rfl
  have h1 : readU8 p.toByte 1 = .ok p.ver := readU8_eq_ok.mpr rfl
  have h2 : readU16BE p.toByte 2 = .ok p.count.toNat := readU16BE_be16 ['L'.toUInt8, p.ver] p.data p.count
  simp [peerListHeader, h0, h1, h2]
  rfl

theorem peerListData_of_ver {v : UInt8} (hv : v = 4 ∨ v = 5) (nodes : List (Node ι)) :
    peerListData E v nodes = PeerListPacket.toByte ⟨v, toU16 nodes.length, nodes.flatMap (Node.toBuffer E)⟩ := by
  rcases hv with rfl | rfl <;> rfl

theorem findClosePeersResponse_of_ne_nil (cid : Cid) (v : UInt8) {nodes : List (Node ι)} (h : nodes ≠ []) :
    findClosePeersResponse E cid v nodes =
      ⟨cid, StatusCode.OK, toU16 (peerListData E v nodes).length, peerListData E v nodes⟩ := by
  simp [findClosePeersResponse, h]

theorem peerListV5Identities_entries (hl : E.lib.Lawful) (pre : List UInt8) (xs : List ι) :
    peerListV5Identities E (pre ++ xs.flatMap E.lib.toBuffer) xs.length pre.length = xs := by
  induction xs generalizing pre with
  | nil => rfl
  | cons x xs ih =>
    have hx := hl.toBuffer_length x
    have key := ih (pre ++ E.lib.toBuffer x)
    simp only [List.append_assoc, List.length_append] at key
    simp only [List.flatMap_cons, List.length_cons, peerListV5Identities, List.length_append]
    rw [if_neg (by omega), if_neg (by omega), List.drop_left, hl.fromBuffer_toBuffer]
    dsimp only
    rw [key]

/-- What `receiveFindClosePeers` sends for identities `ns` and a version-4 or version-5
request: `GENERAL_ERROR` and no list when `ns` is empty; otherwise `OK`, a count field of
`|ns|` and a length field of the data size, both modulo `2^16`, and for version 5 below
`2^16` identities a list that decodes to exactly `ns`. -/
theorem findClosePeersResponse_fields (hl : E.lib.Lawful) (cid : Cid) (v : UInt8) (hv : v = 4 ∨ v = 5)
    (ns : List ι) :
    let r := findClosePeersResponse E cid v (ns.map fun x => { identity := some x })
    (ns = [] → r = ⟨cid, StatusCode.GENERAL_ERROR, 0, []⟩) ∧
    (ns ≠ [] → r.status = StatusCode.OK ∧
      peerListHeader r.data = .ok ('L'.toUInt8, v, ns.length % 65536) ∧
      r.length.toNat = r.data.length % 65536 ∧
      (v = 5 → ns.length < 65536 → peerListV5Decode E r.data = .ok ns)) := by
  intro r
  refine ⟨fun h => by subst h; rfl, fun h => ?_⟩
  have hr : r = _ := findClosePeersResponse_of_ne_nil E cid v (by simpa using h)
  have hflat : (ns.map fun x => ({ identity := some x } : Node ι)).flatMap (Node.toBuffer E) =
      ns.flatMap E.lib.toBuffer := by
    simp [List.flatMap_map, Node.toBuffer, Function.comp_def]
  rw [hr, peerListData_of_ver E hv, hflat]
  simp only [peerListHeader_toByte, toU16_toNat, List.length_map, true_and]
  intro h5 hlt
  subst h5
  have he : peerListV5Identities E (PeerListPacket.toByte ⟨5, toU16 ns.length, ns.flatMap E.lib.toBuffer⟩)
      ns.length 4 = ns :=
    peerListV5Identities_entries E hl ('L'.toUInt8 :: 5 :: be16 (toU16 ns.length)) ns
  rw [peerListV5Decode, peerListHeader_toByte]
  simp [Except.map, Nat.mod_eq_of_lt hlt, isPeerListTag, he]

/-- Two identities of the lawful sample library read back in order. -/
theorem findClosePeersResponse_fields_two :
    sampleLib.Lawful ∧ ((5 : UInt8) = 4 ∨ (5 : UInt8) = 5) ∧
      peerListV5Decode ⟨sampleLib, 0⟩ (findClosePeersResponse ⟨sampleLib, 0⟩ [] 5
        ([1, 2].map fun x => { identity := some x })).data = .ok [1, 2] :=
  ⟨sampleLib_lawful, .inr rfl,
    ((findClosePeersResponse_fields ⟨sampleLib, 0⟩ sampleLib_lawful [] 5 (.inr rfl) [1, 2]).2
      (by simp)).2.2.2 rfl (by decide)⟩

/-- With `65536` identities the `uint16_t` count field of the peer list reads `0`. -/
theorem findClosePeersResponse_count_wraps :
    peerListHeader (findClosePeersResponse ⟨sampleLib, 0⟩ [] 5
        ((List.replicate 65536 (0 : Fin 4)).map fun x => { identity := some x })).data ≠
      .ok ('L'.toUInt8, 5, 65536) := by
  have hlen : ((List.replicate 65536 (0 : Fin 4)).map fun x => ({ identity := some x } : Node (Fin 4))).length
      = 65536 := by rw [List.length_map, List.length_replicate]
  rw [findClosePeersResponse_of_ne_nil _ _ _ (List.ne_nil_of_length_pos (by omega)),
    peerListData_of_ver _ (.inr rfl), peerListHeader_toByte, hlen]
  simp only [ne_eq, Except.ok.injEq, Prod.mk.injEq, toU16_toNat]
  omega

end Pbote.Kademlia
