import Pbote.Kademlia.Verbs
import Pbote.Packet.IncomingRequest
import Pbote.Mail.Packets

/-!
# The check round of `EmailWorker::checkEmailTask`

A round asks the DHT for the identity's index packets (`retrieveIndex`), reads the local index,
asks for every encrypted packet the indexes list (`retrieveEmailPacket`) and adds the local
ones. Both keep what the responses carry in a `std::map`, keyed by an index packet's owner hash
and by an encrypted packet's key, and `insert` keeps the first packet of a key. Every body read
is handed to `DHT_worker.safe` before it is parsed, and a save replaces what the store held
under the body's key, so the local index `checkEmailTask` reads after `retrieveIndex` is the
last index body saved for the identity. Of the index packets several nodes return for the
identity only the first and the last reach `retrieveEmailPacket`
(`checkRound_one_index_per_owner`). Neither function compares the owner hash or the key with
what it asked for, nor the key with the content hash (`checkRound_accepts`).

The three response parsers of the DHT and `receiveResponsePkt` copy `dataLen` bytes after the
header whatever the payload's size (`response_parsers_read_past_payload`).
-/

namespace Pbote.Mail

open Pbote.Wire Pbote.Kademlia

/-- The response loops of `retrieveIndex` and `retrieveEmailPacket`: every body read is handed
to `DHT_worker.safe`, and a packet that parses with content goes into the map under its key,
where a key already present keeps its packet. -/
def collectResponses {α : Type} (minLen : Nat) (parse : List UInt8 → Option α) (keyOf : α → List UInt8)
    (hasContent : α → Bool) (m : StdMap (List UInt8) α) :
    List CommunicationPacket → Except Fault (StdMap (List UInt8) α × List (List UInt8))
  | [] => .ok (m, [])
  | resp :: rs => do
    match ← responseBody minLen resp with
    | none => collectResponses minLen parse keyOf hasContent m rs
    | some data =>
      let m := match parse data with
        | some p => if hasContent p then (m.insert (keyOf p) p).1 else m
        | none => m
      let r ← collectResponses minLen parse keyOf hasContent m rs
      pure (r.1, data :: r.2)

variable (codec : ContentCodec)

/-- The loop of `retrieveIndex`: bodies of at least 4 bytes, index packets with entries, by owner hash. -/
def collectIndex : StdMap (List UInt8) IndexPacket → List CommunicationPacket →
    Except Fault (StdMap (List UInt8) IndexPacket × List (List UInt8)) :=
  collectResponses 4 codec.parseIndex (·.hash) fun p => !p.data.isEmpty

/-- The response loop of `retrieveEmailPacket`: non-empty bodies, packets with a ciphertext, by key. -/
def collectEmail : StdMap (List UInt8) EmailEncryptedPacket → List CommunicationPacket →
    Except Fault (StdMap (List UInt8) EmailEncryptedPacket × List (List UInt8)) :=
  collectResponses 1 codec.parseEmail (·.key) fun p => !p.edata.isEmpty

/-- The local packets of the listed keys that parse with a ciphertext. -/
def localEmailPackets (st : DHTStorage) (entries : List IndexEntry) : List EmailEncryptedPacket :=
  entries.filterMap fun e =>
    let data := st.getEmail e.key
    if data.isEmpty then none
    else match codec.parseEmail data with
      | some p => if p.edata.isEmpty then none else some p
      | none => none

/-- The local index `checkEmailTask` adds: one that parses and holds as many entries as it declares. -/
def localIndex (st : DHTStorage) (hash : List UInt8) : List IndexPacket :=
  let data := st.getIndex hash
  if data.isEmpty then []
  else match codec.parseIndex data with
    | some p => if p.data.length = p.nump.toNat then [p] else []
    | none => []

/-- `DHT_worker.safe(data)`, modelled from the spec as `DHTStorage::safe` is not among the
sources: `put(class, key, data)` replaces what the class held under the key. The class is the
body's type byte, the key the owner hash of an index packet or the key of an encrypted packet;
a body of another type, or one that does not parse, is not stored. -/
def safe (st : DHTStorage) (data : List UInt8) : DHTStorage :=
  if data.head? = some DataI then
    match codec.parseIndex data with
    | some p => { st with getIndex := Function.update st.getIndex p.hash data }
    | none => st
  else if data.head? = some DataE then
    match codec.parseEmail data with
    | some p => { st with getEmail := Function.update st.getEmail p.key data }
    | none => st
  else st

/-- The network a check round meets: `findAll` of the index, then of the entry at each position. -/
structure CheckNet where
  index : VerbNet
  email : Nat → VerbNet

/-- What a check round gathered before `processEmail`: the index packets of the DHT, those
passed on with the local one, the encrypted packets, the bodies saved, and the store and the
DHT state after the round. -/
structure CheckResult (ι : Type) where
  retrieved : List IndexPacket
  indexes : List IndexPacket
  mails : List EmailEncryptedPacket
  saved : List (List UInt8)
  store : DHTStorage
  worker : DHTworker ι

variable {ι : Type} (E : Env ι) (T : Timeouts)

/-- `EmailWorker::retrieveIndex`: the index packets the responses to `findAll(hash, 'I')` carry,
one per owner hash, the bodies it hands to `DHT_worker.safe`, in order, and the DHT state. -/
def retrieveIndex (w : DHTworker ι) (hash : List UInt8) (net : VerbNet) :
    Except Fault (List IndexPacket × List (List UInt8) × DHTworker ι) := do
  let r ← find E T w hash DataI net
  let c ← collectIndex codec .empty r.responses
  pure (c.1.values, c.2, r.worker)

/-- `findAll(key, 'E')` for each listed key in turn, the entry at position `k` meeting `net k`. -/
def findEmails (w : DHTworker ι) (net : Nat → VerbNet) (k : Nat) :
    List IndexEntry → Except Fault (List CommunicationPacket × DHTworker ι)
  | [] => .ok ([], w)
  | e :: es => do
    let r ← find E T w e.key DataE (net k)
    let rest ← findEmails r.worker net (k + 1) es
    pure (r.responses ++ rest.1, rest.2)

/-- `EmailWorker::retrieveEmailPacket`, which reads the local packets of the listed keys from
`st` before it saves a body: the encrypted packets of the responses, one per key, then the
local ones for keys no response filled, and the bodies saved. -/
def retrieveEmailPacket (st : DHTStorage) (w : DHTworker ι) (indexPackets : List IndexPacket)
    (net : Nat → VerbNet) : Except Fault (List EmailEncryptedPacket × List (List UInt8) × DHTworker ι) := do
  let entries := indexPackets.flatMap (·.data)
  let found ← findEmails E T w net 0 entries
  let c ← collectEmail codec .empty found.1
  let m := (localEmailPackets codec st entries).foldl (fun m p => (m.insert p.key p).1) c.1
  pure (m.values, c.2, found.2)

/-- One round of `EmailWorker::checkEmailTask` up to the encrypted packets it hands to
`processEmail`. The bodies each loop saves are written in order once the loop is over, as
nothing the loop reads depends on the store; the local index is read after `retrieveIndex`'s
saves. -/
def checkRound (st : DHTStorage) (w : DHTworker ι) (hash : List UInt8) (net : CheckNet) :
    Except Fault (CheckResult ι) := do
  let ri ← retrieveIndex codec E T w hash net.index
  let st := ri.2.1.foldl (safe codec) st
  let indexes := ri.1 ++ localIndex codec st hash
  let re ← retrieveEmailPacket codec E T st ri.2.2 indexes net.email
  pure ⟨ri.1, indexes, re.1, ri.2.1 ++ re.2.1, re.2.1.foldl (safe codec) st, re.2.2⟩

/-! ## The response loops -/

section Collect

variable {α : Type} {minLen : Nat} {parse : List UInt8 → Option α} {keyOf : α → List UInt8}
  {hasContent : α → Bool}

theorem collectResponses_keyed {m m' : StdMap (List UInt8) α} {rs : List CommunicationPacket}
    {saved : List (List UInt8)} (hk : StdMap.Keyed keyOf m)
    (h : collectResponses minLen parse keyOf hasContent m rs = .ok (m', saved)) : StdMap.Keyed keyOf m' := by
  induction rs generalizing m saved with
  | nil => cases h; exact hk
  | cons resp rs ih =>
    obtain ⟨body, hb, h⟩ := bind_eq_ok.mp h
    cases body with
    | none => exact ih hk h
    | some data =>
      obtain ⟨r, hr, he⟩ := bind_eq_ok.mp h
      cases he
      refine ih ?_ hr
      split
      · split
        · exact hk.insert _
        · exact hk
      · exact hk

theorem collectResponses_values {m m' : StdMap (List UInt8) α} {rs : List CommunicationPacket}
    {saved : List (List UInt8)} (h : collectResponses minLen parse keyOf hasContent m rs = .ok (m', saved)) :
    ∀ v ∈ m'.values, v ∈ m.values ∨ (hasContent v ∧ ∃ d ∈ saved, parse d = some v) := by
  induction rs generalizing m saved with
  | nil => cases h; exact fun v hv => .inl hv
  | cons resp rs ih =>
    obtain ⟨body, hb, h⟩ := bind_eq_ok.mp h
    cases body with
    | none => exact ih h
    | some data =>
      obtain ⟨r, hr, he⟩ := bind_eq_ok.mp h
      cases he
      intro v hv
      rcases ih hr v hv with hv | ⟨hc, d, hd, hp⟩
      · split at hv
        · rename_i p hp
          split at hv
          · rcases StdMap.mem_values_insert hv with hv | rfl
            · exact .inl hv
            · exact .inr ⟨‹_›, data, List.mem_cons_self _ _, hp⟩
          · exact .inl hv
        · exact .inl hv
      · exact .inr ⟨hc, d, List.mem_cons_of_mem _ hd, hp⟩

end Collect

theorem mem_values_foldl_insert {m : StdMap (List UInt8) EmailEncryptedPacket} {ps : List EmailEncryptedPacket}
    {v : EmailEncryptedPacket} (hv : v ∈ (ps.foldl (fun m p => (m.insert p.key p).1) m).values) :
    v ∈ m.values ∨ v ∈ ps := by
  induction ps generalizing m with
  | nil => exact .inl hv
  | cons p ps ih =>
    rcases ih hv with hv | hv
    · rcases StdMap.mem_values_insert hv with hv | rfl
      · exact .inl hv
      · exact .inr (List.mem_cons_self _ _)
    · exact .inr (List.mem_cons_of_mem _ hv)

theorem edata_of_mem_localEmailPackets {st : DHTStorage} {entries : List IndexEntry} {p : EmailEncryptedPacket}
    (h : p ∈ localEmailPackets codec st entries) : p.edata ≠ [] := by
  obtain ⟨e, -, he⟩ := List.mem_filterMap.mp h
  dsimp only at he
  split_ifs at he
  split at he
  · split_ifs at he with hc
    cases he
    simpa [List.isEmpty_iff] using hc
  · cases he

/-! ## The store a round writes -/

theorem safe_getEmail (st : DHTStorage) (d k : List UInt8) :
    (safe codec st d).getEmail k = st.getEmail k ∨ (safe codec st d).getEmail k = d := by
  unfold safe
  split_ifs <;> (try split) <;> try exact .inl rfl
  rename_i p _
  by_cases hk : k = p.key
  · exact .inr (hk ▸ Function.update_same _ _ _)
  · exact .inl (Function.update_noteq hk _ _)

theorem foldl_safe_getEmail (ds : List (List UInt8)) (st : DHTStorage) (k : List UInt8) :
    (ds.foldl (safe codec) st).getEmail k = st.getEmail k ∨ (ds.foldl (safe codec) st).getEmail k ∈ ds := by
  induction ds generalizing st with
  | nil => exact .inl rfl
  | cons d ds ih =>
    rw [List.foldl_cons]
    rcases ih (safe codec st d) with h | h
    · rw [h]
      exact (safe_getEmail codec st d k).imp_right fun h => by rw [h]; exact List.mem_cons_self _ _
    · exact .inr (List.mem_cons_of_mem _ h)

theorem mem_localEmailPackets_foldl_safe {ds : List (List UInt8)} {st : DHTStorage} {entries : List IndexEntry}
    {p : EmailEncryptedPacket} (h : p ∈ localEmailPackets codec (ds.foldl (safe codec) st) entries) :
    (∃ d ∈ ds, codec.parseEmail d = some p) ∨ p ∈ localEmailPackets codec st entries := by
  obtain ⟨e, he, hp⟩ := List.mem_filterMap.mp h
  dsimp only at hp
  rcases foldl_safe_getEmail codec ds st e.key with hk | hk
  · rw [hk] at hp
    exact .inr (List.mem_filterMap.mpr ⟨e, he, hp⟩)
  · refine .inl ⟨_, hk, ?_⟩
    split_ifs at hp
    split at hp
    · split_ifs at hp
      cases hp
      assumption
    · cases hp

/-! ## What a round keeps -/

theorem retrieveIndex_values {w : DHTworker ι} {hash : List UInt8} {net : VerbNet}
    {r : List IndexPacket × List (List UInt8) × DHTworker ι} (h : retrieveIndex codec E T w hash net = .ok r) :
    (r.1.map (·.hash)).Nodup ∧ ∀ p ∈ r.1, p.data ≠ [] ∧ ∃ d ∈ r.2.1, codec.parseIndex d = some p := by
  obtain ⟨v, -, h⟩ := bind_eq_ok.mp h
  obtain ⟨⟨m, saved⟩, hc, h⟩ := bind_eq_ok.mp h
  cases h
  refine ⟨(collectResponses_keyed (StdMap.keyed_empty _) hc).values_nodup, fun p hp => ?_⟩
  rcases collectResponses_values hc p hp with hp | ⟨hcont, hd⟩
  · simp [StdMap.values] at hp
  · exact ⟨by simpa [List.isEmpty_iff] using hcont, hd⟩

/-- A check round passes on one index packet of the DHT per owner hash, the first a response
brought, followed by the local index read after `retrieveIndex` saved every body: the entries of
an index packet for the identity that came neither first nor last are dropped. -/
theorem checkRound_one_index_per_owner (st : DHTStorage) (w : DHTworker ι) (hash : List UInt8) (net : CheckNet)
    {res : CheckResult ι} (h : checkRound codec E T st w hash net = .ok res) :
    ∃ ri, retrieveIndex codec E T w hash net.index = .ok ri ∧ res.retrieved = ri.1 ∧ (ri.1.map (·.hash)).Nodup ∧
      res.indexes = ri.1 ++ localIndex codec (ri.2.1.foldl (safe codec) st) hash := by
  obtain ⟨ri, hri, h⟩ := bind_eq_ok.mp h
  obtain ⟨re, -, h⟩ := bind_eq_ok.mp h
  cases h
  exact ⟨ri, hri, rfl, (retrieveIndex_values codec E T hri).1, rfl⟩

theorem retrieveEmailPacket_values {st : DHTStorage} {w : DHTworker ι} {ips : List IndexPacket}
    {net : Nat → VerbNet} {r : List EmailEncryptedPacket × List (List UInt8) × DHTworker ι}
    (h : retrieveEmailPacket codec E T st w ips net = .ok r) :
    ∀ p ∈ r.1, p.edata ≠ [] ∧
      ((∃ d ∈ r.2.1, codec.parseEmail d = some p) ∨ p ∈ localEmailPackets codec st (ips.flatMap (·.data))) := by
  obtain ⟨found, -, h⟩ := bind_eq_ok.mp h
  obtain ⟨⟨m, saved⟩, hc, h⟩ := bind_eq_ok.mp h
  cases h
  intro p hp
  rcases mem_values_foldl_insert hp with hp | hp
  · rcases collectResponses_values hc p hp with hp | ⟨hcont, hd⟩
    · simp [StdMap.values] at hp
    · exact ⟨by simpa [List.isEmpty_iff] using hcont, .inl hd⟩
  · exact ⟨edata_of_mem_localEmailPackets codec hp, .inr hp⟩

/-- What a check round keeps it takes as it comes: an index packet of the DHT is one with
entries parsed from a response body the round saved, and an encrypted packet is one with a
ciphertext parsed from a saved body or read locally under a listed key. Nothing compares an
owner hash, a key or a content hash with what was asked for. -/
theorem checkRound_accepts (st : DHTStorage) (w : DHTworker ι) (hash : List UInt8) (net : CheckNet)
    {res : CheckResult ι} (h : checkRound codec E T st w hash net = .ok res) :
    (∀ p ∈ res.retrieved, p.data ≠ [] ∧ ∃ d ∈ res.saved, codec.parseIndex d = some p) ∧
    (∀ p ∈ res.mails, p.edata ≠ [] ∧
      ((∃ d ∈ res.saved, codec.parseEmail d = some p) ∨
        p ∈ localEmailPackets codec st (res.indexes.flatMap (·.data)))) := by
  obtain ⟨ri, hri, h⟩ := bind_eq_ok.mp h
  obtain ⟨re, hre, h⟩ := bind_eq_ok.mp h
  cases h
  refine ⟨fun p hp => ?_, fun p hp => ?_⟩
  · obtain ⟨hd, d, hs, hp⟩ := (retrieveIndex_values codec E T hri).2 p hp
    exact ⟨hd, d, List.mem_append_left _ hs, hp⟩
  · obtain ⟨hd, hp⟩ := retrieveEmailPacket_values codec E T hre p hp
    refine ⟨hd, ?_⟩
    rcases hp with ⟨d, hs, hp⟩ | hp
    · exact .inl ⟨d, List.mem_append_right _ hs, hp⟩
    · exact (mem_localEmailPackets_foldl_safe codec hp).imp_left fun ⟨d, hs, hp⟩ => ⟨d, List.mem_append_left _ hs, hp⟩

/-! ## Rounds whose lookups no node answers -/

theorem retrieveIndex_of_silent (w : DHTworker ι) (hash : List UInt8) (net : VerbNet)
    (hl : ∀ i, (net.lookup.round i).responses = []) (hn : MIN_CLOSEST_NODES ≤ (getAllNodes w).length) :
    ∃ w', retrieveIndex codec E T w hash net =
      (collectIndex codec .empty (net.batch.responses (resendLoop net.batch.responses 0 5))).map
        (fun c => (c.1.values, c.2, w')) ∧ w'.nodes = w.nodes := by
  obtain ⟨w', h, hw⟩ := batchVerb_of_silent E T w hash
    (fun cid => (⟨cid, DataI, hash⟩ : RetrieveRequestPacket)) net hl hn
  refine ⟨w', ?_, hw⟩
  simp only [retrieveIndex, find, h, bind, Except.bind]
  cases collectIndex codec .empty _ <;> rfl

theorem findEmails_of_silent (net : Nat → VerbNet) (hl : ∀ k i, ((net k).lookup.round i).responses = []) :
    ∀ (es : List IndexEntry) (w : DHTworker ι) (k : Nat), MIN_CLOSEST_NODES ≤ (getAllNodes w).length →
    ∃ w', findEmails E T w net k es =
      .ok ((List.range' k es.length).flatMap
        (fun j => (net j).batch.responses (resendLoop (net j).batch.responses 0 5)), w') ∧ w'.nodes = w.nodes
  | [], w, _, _ => ⟨w, rfl, rfl⟩
  | e :: es, w, k, hn => by
    obtain ⟨w1, h1, hw1⟩ := batchVerb_of_silent E T w e.key
      (fun cid => (⟨cid, DataE, e.key⟩ : RetrieveRequestPacket)) (net k) (hl k) hn
    have hn1 : getAllNodes w1 = getAllNodes w := congrArg StdMap.values hw1
    obtain ⟨w2, h2, hw2⟩ := findEmails_of_silent net hl es w1 (k + 1) (hn1 ▸ hn)
    refine ⟨w2, ?_, hw2.trans hw1⟩
    simp only [findEmails, find, h1, h2, bind, Except.bind, List.length_cons, List.range'_succ, List.flatMap_cons]
    rfl

/-! ## Reading a response past its payload -/

/-- An `OK` response whose declared `dataLen` runs past its payload is read past the payload by
the loop of `closestNodesLookupTask` (from `dataLen = 4`), of `retrieveIndex` (likewise) and of
`retrieveEmailPacket`, wherever it comes among the responses, and by `receiveResponsePkt`; and
`receiveResponsePkt` reads `data[0]` of a response with `dataLen = 0`. -/
theorem response_parsers_read_past_payload (R : Packet.Runtime ι) (w : DHTworker ι) (rs : List CommunicationPacket)
    (mi : StdMap (List UInt8) IndexPacket) (me : StdMap (List UInt8) EmailEncryptedPacket) :
    (∀ resp dataLen, resp.type = type.CommN → readResponseHeader resp.payload = .ok (StatusCode.OK, dataLen) →
      resp.payload.length < 3 + dataLen →
      (4 ≤ dataLen → ReadsPastEnd (lookupResponse E w resp) resp.payload.length ∧
        ReadsPastEnd (collectIndex codec mi (resp :: rs)) resp.payload.length) ∧
      ReadsPastEnd (collectEmail codec me (resp :: rs)) resp.payload.length ∧
      ReadsPastEnd (Packet.IncomingRequest.receiveResponsePkt R w resp) resp.payload.length) ∧
    (∀ resp status, readResponseHeader resp.payload = .ok (status, 0) →
      Packet.IncomingRequest.receiveResponsePkt R w resp = .error (.pastEnd 0 1 0)) := by
  refine ⟨fun resp dataLen hN hh hlen => ⟨fun h4 => ⟨?_, ?_⟩, ?_, ?_⟩, fun resp status hh => ?_⟩
  · exact (responseBody_readsPastEnd hN hh h4 hlen).bind _
  · exact (responseBody_readsPastEnd hN hh h4 hlen).bind _
  · have := length_of_readResponseHeader hh
    exact (responseBody_readsPastEnd hN hh (by omega) hlen).bind _
  · exact .bind_of_ok hh ((copyBytes_readsPastEnd hlen).bind _)
  · have h3 := length_of_readResponseHeader hh
    simp only [Packet.IncomingRequest.receiveResponsePkt, hh, bind, Except.bind, responseData,
      copyBytes_of_le (show 3 + 0 ≤ resp.payload.length by omega), List.take_zero, readU8,
      copyBytes_of_lt (show [].length < 0 + 1 by decide)]
    rfl

/-! ## A sample round -/

/-- A stand-in for the codecs of `Packet.h`: an index body `'I' :: h :: k :: _` is the packet
of owner `[h]` with one entry, of key `[k]`; an email body `'E' :: k :: c :: _` is the packet
of key `[k]` with ciphertext `[c]`. -/
def sampleCodec : ContentCodec where
  parseIndex
    | t :: h :: k :: _ => if t = DataI then some ⟨[h], 1, [⟨[k], [], 0⟩]⟩ else none
    | _ => none
  parseEmail
    | t :: k :: c :: _ => if t = DataE then some ⟨[k], 0, [], 0, 1, [c]⟩ else none
    | _ => none

def okResponse («from» : String) (body : List UInt8) : CommunicationPacket :=
  ⟨type.CommN, 4, [], «from», (⟨[], StatusCode.OK, body.length.toUInt16, body⟩ : ResponsePacket).payload⟩

/-- A round whose lookups no node answers, in which `N1`, `N2` and `N3` return index packets of
owner `[7]` listing the keys `[1]`, `[2]` and `[3]`, and `N1` answers the `findAll(key, 'E')`
of the entry at position `k` with the encrypted packet of key `[5 + k]`. -/
def sampleCheckNet : CheckNet :=
  let silent : LookupNet := ⟨fun _ => [], 0, fun _ => ⟨[], 0⟩, 0⟩
  ⟨⟨silent, ⟨fun _ => [], fun _ => [okResponse "N1" [DataI, 7, 1, 0], okResponse "N2" [DataI, 7, 2, 0],
      okResponse "N3" [DataI, 7, 3, 0]]⟩⟩,
    fun k => ⟨silent, ⟨fun _ => [], fun _ => [okResponse "N1" [DataE, (5 + k).toUInt8, 9]]⟩⟩⟩

def emptyStorage : DHTStorage := ⟨fun _ => [], fun _ => [], fun _ => []⟩

def sampleWorker : DHTworker (Fin 4) :=
  let E : Env (Fin 4) := ⟨sampleLib, 0⟩
  (addNode E (addNode E (addNode E .empty (some 1)).2 (some 2)).2 (some 3)).2

theorem retrieveIndex_sampleCheckNet (hash : List UInt8) :
    ∃ w', retrieveIndex sampleCodec ⟨sampleLib, 0⟩ ⟨10, 30, by decide⟩ sampleWorker hash sampleCheckNet.index =
      .ok ([⟨[7], 1, [⟨[1], [], 0⟩]⟩], [[DataI, 7, 1, 0], [DataI, 7, 2, 0], [DataI, 7, 3, 0]], w') ∧
      w'.nodes = sampleWorker.nodes := by
  obtain ⟨w1, h1, hw1⟩ := retrieveIndex_of_silent sampleCodec ⟨sampleLib, 0⟩ ⟨10, 30, by decide⟩ sampleWorker hash
    sampleCheckNet.index (fun _ => rfl) (by decide)
  exact ⟨w1, h1.trans rfl, hw1⟩

theorem checkRound_sampleCheckNet_seven :
    ∃ st' w', checkRound sampleCodec ⟨sampleLib, 0⟩ ⟨10, 30, by decide⟩ emptyStorage sampleWorker [7] sampleCheckNet =
      .ok ⟨[⟨[7], 1, [⟨[1], [], 0⟩]⟩], [⟨[7], 1, [⟨[1], [], 0⟩]⟩, ⟨[7], 1, [⟨[3], [], 0⟩]⟩],
        [⟨[5], 0, [], 0, 1, [9]⟩, ⟨[6], 0, [], 0, 1, [9]⟩],
        [[DataI, 7, 1, 0], [DataI, 7, 2, 0], [DataI, 7, 3, 0], [DataE, 5, 9], [DataE, 6, 9]], st', w'⟩ := by
  obtain ⟨w1, h1, hw1⟩ := retrieveIndex_sampleCheckNet [7]
  obtain ⟨w2, h2, -⟩ := findEmails_of_silent ⟨sampleLib, 0⟩ ⟨10, 30, by decide⟩ sampleCheckNet.email
    (fun _ _ => rfl) [⟨[1], [], 0⟩, ⟨[3], [], 0⟩] w1 0 (by rw [getAllNodes, hw1]; decide)
  have hl : ([(⟨[7], 1, [⟨[1], [], 0⟩]⟩ : IndexPacket)] ++ localIndex sampleCodec
      ([[DataI, 7, 1, 0], [DataI, 7, 2, 0], [DataI, 7, 3, 0]].foldl (safe sampleCodec) emptyStorage) [7]).flatMap
      (·.data) = [⟨[1], [], 0⟩, ⟨[3], [], 0⟩] := rfl
  exact ⟨_, w2, by simp only [checkRound, retrieveEmailPacket, h1, bind, Except.bind, hl, h2]; rfl⟩

theorem checkRound_sampleCheckNet_eight :
    ∃ st' w', checkRound sampleCodec ⟨sampleLib, 0⟩ ⟨10, 30, by decide⟩ emptyStorage sampleWorker [8] sampleCheckNet =
      .ok ⟨[⟨[7], 1, [⟨[1], [], 0⟩]⟩], [⟨[7], 1, [⟨[1], [], 0⟩]⟩], [⟨[5], 0, [], 0, 1, [9]⟩],
        [[DataI, 7, 1, 0], [DataI, 7, 2, 0], [DataI, 7, 3, 0], [DataE, 5, 9]], st', w'⟩ := by
  obtain ⟨w1, h1, hw1⟩ := retrieveIndex_sampleCheckNet [8]
  obtain ⟨w2, h2, -⟩ := findEmails_of_silent ⟨sampleLib, 0⟩ ⟨10, 30, by decide⟩ sampleCheckNet.email
    (fun _ _ => rfl) [⟨[1], [], 0⟩] w1 0 (by rw [getAllNodes, hw1]; decide)
  have hl : ([(⟨[7], 1, [⟨[1], [], 0⟩]⟩ : IndexPacket)] ++ localIndex sampleCodec
      ([[DataI, 7, 1, 0], [DataI, 7, 2, 0], [DataI, 7, 3, 0]].foldl (safe sampleCodec) emptyStorage) [8]).flatMap
      (·.data) = [⟨[1], [], 0⟩] := rfl
  exact ⟨_, w2, by simp only [checkRound, retrieveEmailPacket, h1, bind, Except.bind, hl, h2]; rfl⟩

/-- Three nodes return index packets of the identity `[7]`, listing the keys `[1]`, `[2]` and
`[3]`: the first stays in the map, the last is what the local read finds, and the entry of key
`[2]`, from an `OK` response that parses, is not passed on. -/
theorem checkRound_one_index_per_owner_sample :
    ∃ res, checkRound sampleCodec ⟨sampleLib, 0⟩ ⟨10, 30, by decide⟩ emptyStorage sampleWorker [7] sampleCheckNet =
      .ok res ∧
      (∃ ri, retrieveIndex sampleCodec ⟨sampleLib, 0⟩ ⟨10, 30, by decide⟩ sampleWorker [7] sampleCheckNet.index = .ok ri ∧
        res.retrieved = ri.1 ∧ (ri.1.map (·.hash)).Nodup ∧
        res.indexes = ri.1 ++ localIndex sampleCodec (ri.2.1.foldl (safe sampleCodec) emptyStorage) [7]) ∧
      (∃ d ∈ res.saved, sampleCodec.parseIndex d = some ⟨[7], 1, [⟨[2], [], 0⟩]⟩) ∧
      (⟨[2], [], 0⟩ : IndexEntry) ∉ res.indexes.flatMap (·.data) := by
  obtain ⟨st', w', h⟩ := checkRound_sampleCheckNet_seven
  exact ⟨_, h, checkRound_one_index_per_owner sampleCodec _ _ emptyStorage sampleWorker [7] sampleCheckNet h,
    ⟨[DataI, 7, 2, 0], by dsimp only; decide, rfl⟩, by dsimp only; decide⟩

/-- What the sample round for the identity `[8]` keeps passes the checks the round makes. -/
theorem checkRound_accepts_sample :
    ∃ res, checkRound sampleCodec ⟨sampleLib, 0⟩ ⟨10, 30, by decide⟩ emptyStorage sampleWorker [8] sampleCheckNet =
      .ok res ∧ (∀ p ∈ res.retrieved, p.data ≠ [] ∧ ∃ d ∈ res.saved, sampleCodec.parseIndex d = some p) ∧
      (∀ p ∈ res.mails, p.edata ≠ [] ∧
        ((∃ d ∈ res.saved, sampleCodec.parseEmail d = some p) ∨
          p ∈ localEmailPackets sampleCodec emptyStorage (res.indexes.flatMap (·.data)))) := by
  obtain ⟨st', w', h⟩ := checkRound_sampleCheckNet_eight
  exact ⟨_, h, checkRound_accepts sampleCodec _ _ emptyStorage sampleWorker [8] sampleCheckNet h⟩

/-- Looking up the identity `[8]`, the round keeps an index packet of owner `[7]` and an
encrypted packet whose key `[5]` no index lists. -/
theorem checkRound_keeps_foreign_packets :
    ∃ res, checkRound sampleCodec ⟨sampleLib, 0⟩ ⟨10, 30, by decide⟩ emptyStorage sampleWorker [8] sampleCheckNet =
      .ok res ∧ (∃ p ∈ res.retrieved, p.hash ≠ [8]) ∧
      ∃ p ∈ res.mails, p.key ∉ res.indexes.flatMap fun ip => ip.data.map (·.key) := by
  obtain ⟨st', w', h⟩ := checkRound_sampleCheckNet_eight
  exact ⟨_, h, by dsimp only; decide, by dsimp only; decide⟩

/-- A response that declares five data bytes and carries none, and one that declares none. -/
theorem response_parsers_read_past_payload_sample :
    let resp : CommunicationPacket := ⟨type.CommN, 4, [], "N1", [0, 0, 5]⟩
    ReadsPastEnd (lookupResponse ⟨sampleLib, 0⟩ sampleWorker resp) 3 ∧
      ReadsPastEnd (collectIndex sampleCodec .empty [resp]) 3 ∧
      ReadsPastEnd (collectEmail sampleCodec .empty [resp]) 3 ∧
      ReadsPastEnd (Packet.IncomingRequest.receiveResponsePkt Packet.IncomingRequest.sampleRuntime sampleWorker resp) 3 ∧
      Packet.IncomingRequest.receiveResponsePkt Packet.IncomingRequest.sampleRuntime sampleWorker
        ⟨type.CommN, 4, [], "N1", [0, 0, 0]⟩ = .error (.pastEnd 0 1 0) := by
  obtain ⟨h1, h2⟩ := response_parsers_read_past_payload sampleCodec ⟨sampleLib, 0⟩
    Packet.IncomingRequest.sampleRuntime sampleWorker [] .empty .empty
  obtain ⟨h3, h4, h5⟩ := h1 ⟨type.CommN, 4, [], "N1", [0, 0, 5]⟩ 5 rfl rfl (show 3 < 3 + 5 by decide)
  exact ⟨(h3 (by decide)).1, (h3 (by decide)).2, h4, h5, h2 _ 0 rfl⟩

end Pbote.Mail
