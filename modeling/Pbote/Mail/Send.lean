import Pbote.Kademlia.Verbs
import Pbote.Kademlia.Handlers
import Pbote.Mail.Packets

/-!
# The send round of `EmailWorker::sendEmailTask`

A round runs four loops over the outbox: encrypt each email for its recipient, store each
encrypted packet, store an index packet for each, and move to `sent/` every email no loop
skipped. A store counts as done when `DHTworker::store` returns a non-empty list, and that list
holds the sender of every response whatever its status. So an email is moved as soon as each
of its two stores got any response at all, `NO_DISK_SPACE` included, which is what
`receiveStoreRequest` always answers (`sendRound_moves_on_any_response`).

Every length field a round writes is the size it describes stored into a `uint16_t`
(`sendRound_lengths`), so a ciphertext of 65536 bytes or more goes out with a wrapped length.
-/

namespace Pbote.Mail

open Pbote.Wire Pbote.Kademlia

/-- The identity and crypto calls of a send round, whose code is not among the sources:
`parse_address_v0` or `parse_address_v1` as the address's format prefix picks them,
`GetIdentHash`, `Encrypt` for a recipient's crypto key, `GetKeyType`, SHA-256 and `ToBase64`. -/
structure MailLib (κ : Type) where
  parseAddress : String → Option κ
  identHash : κ → List UInt8
  encrypt : κ → List UInt8 → κ → List UInt8
  keyType : κ → UInt8
  sha256 : List UInt8 → List UInt8
  toBase64 : List UInt8 → String

/-- An outbox email as the round reads it: the `To` and `From` addresses, the hashcash, and
the bytes and deletion authorisation of its `getDecrypted()` packet. -/
structure Email where
  toAddress : String
  fromAddress : String
  hashCash : List UInt8
  plain : List UInt8
  deleteAuth : List UInt8
  deriving DecidableEq, Repr

/-- An outbox email during a round: the headers set so far, and its encrypted packet while no
loop has skipped it. -/
structure Outgoing where
  email : Email
  headers : List (String × String)
  going : Option EmailEncryptedPacket
  deriving DecidableEq, Repr

/-- What a round has done to the node: the DHT state, the packets `DHT_worker.safe` saved, and
the store requests sent as `(destination, request)`. -/
structure SendState (ι : Type) where
  worker : DHTworker ι
  saved : List (List UInt8)
  requests : List (String × StoreRequestPacket)

/-- The network a round meets: the `store` call for the encrypted packet and the one for the
index packet of the outbox email at each position. -/
structure SendNet where
  email : Nat → VerbNet
  index : Nat → VerbNet

variable {κ : Type} (lib : MailLib κ)

/-- The first loop on one email: the deletion hash, both addresses, the ciphertext, and the DHT
key `SHA-256(length ‖ ciphertext)` with the `uint16_t` length. -/
def encryptEmail (e : Email) : Outgoing :=
  let delHash := lib.sha256 e.deleteAuth
  let headers := [("X-I2PBote-Delete-Auth-Hash", lib.toBase64 delHash)]
  match lib.parseAddress e.toAddress with
  | none => ⟨e, headers, none⟩
  | some recipient =>
    match lib.parseAddress e.fromAddress with
    | none => ⟨e, headers, none⟩
    | some sender =>
      let edata := lib.encrypt sender e.plain recipient
      if edata.isEmpty then ⟨e, headers, none⟩
      else
        let length := toU16 edata.length
        let key := lib.sha256 (be16 length ++ edata)
        ⟨e, headers ++ [("X-I2PBote-DHT-Key", lib.toBase64 key)],
          some ⟨key, 0, delHash, lib.keyType sender, length, edata⟩⟩

/-- The `StoreRequestPacket` of `data` with the email's hashcash; `store` sets the CID. -/
def storeRequest (e : Email) (data : List UInt8) : StoreRequestPacket :=
  ⟨[], toU16 e.hashCash.length, e.hashCash, toU16 data.length, data⟩

/-- The last loop on one email: one no loop skipped is marked not deleted and moved to `sent/`. -/
def markSent (o : Outgoing) : Outgoing :=
  match o.going with
  | some _ => { o with headers := o.headers ++ [("X-I2PBote-Deleted", "false")] }
  | none => o

def movedToSent (os : List Outgoing) : List Email := (os.filter (·.going.isSome)).map (·.email)

variable {ι : Type} (E : Env ι) (T : Timeouts)

/-- `DHT_worker.store` of `data` under `hash`: an empty list of nodes skips the email, any
other saves `data` locally. -/
def storeAndKeep (s : SendState ι) (o : Outgoing) (hash data : List UInt8) (net : VerbNet) :
    Except Fault (SendState ι × Outgoing) :=
  (store E T s.worker hash (storeRequest o.email data) net).map fun r =>
    let s := { s with worker := r.2.1, requests := s.requests ++ r.2.2 }
    if r.1.isEmpty then (s, { o with going := none }) else ({ s with saved := s.saved ++ [data] }, o)

/-- The second loop on one email: store the encrypted packet under its key. -/
def storeEmailStep (s : SendState ι) (o : Outgoing) (net : VerbNet) : Except Fault (SendState ι × Outgoing) :=
  match o.going with
  | none => .ok (s, o)
  | some enc => storeAndKeep E T s o enc.key enc.toByte net

/-- The third loop on one email: the recipient is parsed again, and an index packet listing
the encrypted packet at time `now` is stored under the recipient's hash. -/
def storeIndexStep (now : UInt32) (s : SendState ι) (o : Outgoing) (net : VerbNet) :
    Except Fault (SendState ι × Outgoing) :=
  match o.going with
  | none => .ok (s, o)
  | some enc =>
    match lib.parseAddress o.email.toAddress with
    | none => .ok (s, { o with going := none })
    | some recipient =>
      let hash := lib.identHash recipient
      storeAndKeep E T s o hash (IndexPacket.toByte ⟨hash, 1, [⟨enc.key, enc.deleteHash, now⟩]⟩) net

/-- A loop of the round over the outbox, the email at position `k` meeting `net k`. -/
def forEmails (step : SendState ι → Outgoing → VerbNet → Except Fault (SendState ι × Outgoing))
    (net : Nat → VerbNet) (k : Nat) (s : SendState ι) : List Outgoing → Except Fault (SendState ι × List Outgoing)
  | [] => .ok (s, [])
  | o :: os => do
    let (s, o) ← step s o (net k)
    let (s, os) ← forEmails step net (k + 1) s os
    pure (s, o :: os)

/-- One round of `EmailWorker::sendEmailTask`, on the outbox `checkOutbox` returned. -/
def sendRound (w : DHTworker ι) (outbox : List Email) (now : UInt32) (net : SendNet) :
    Except Fault (SendState ι × List Outgoing) := do
  let (s, os) ← forEmails (storeEmailStep E T) net.email 0 ⟨w, [], []⟩ (outbox.map (encryptEmail lib))
  let (s, os) ← forEmails (storeIndexStep lib E T now) net.index 0 s os
  pure (s, os.map markSent)

/-! ## The loops -/

@[simp] theorem encryptEmail_email (e : Email) : (encryptEmail lib e).email = e := by
  unfold encryptEmail
  dsimp only
  split
  · rfl
  · split
    · rfl
    · split <;> rfl

theorem parseAddress_of_encryptEmail {e : Email} (h : (encryptEmail lib e).going.isSome) :
    ∃ r, lib.parseAddress e.toAddress = some r := by
  unfold encryptEmail at h
  split at h
  · simp at h
  · exact ⟨_, ‹_›⟩

@[simp] theorem markSent_going (o : Outgoing) : (markSent o).going = o.going := by
  unfold markSent; split <;> rfl

@[simp] theorem markSent_email (o : Outgoing) : (markSent o).email = o.email := by
  unfold markSent; split <;> rfl

theorem forEmails_map {step : SendState ι → Outgoing → VerbNet → Except Fault (SendState ι × Outgoing)}
    {net : Nat → VerbNet} (P : SendState ι → Prop) (f : Outgoing → Outgoing) {os : List Outgoing}
    (hstep : ∀ k s, ∀ o ∈ os, P s → ∃ s', step s o (net k) = .ok (s', f o) ∧ P s') (k : Nat)
    {s : SendState ι} (hs : P s) : ∃ s', forEmails step net k s os = .ok (s', os.map f) ∧ P s' := by
  induction os generalizing k s with
  | nil => exact ⟨s, rfl, hs⟩
  | cons o os ih =>
    obtain ⟨s1, h1, hs1⟩ := hstep k s o (List.mem_cons_self _ _) hs
    obtain ⟨s2, h2, hs2⟩ := ih (fun k s o ho => hstep k s o (List.mem_cons_of_mem _ ho)) (k + 1) hs1
    exact ⟨s2, by simp [forEmails, h1, h2, bind, Except.bind, pure, Except.pure], hs2⟩

theorem storeAndKeep_of_answered (s : SendState ι) (o : Outgoing) (hash data : List UInt8) (net : VerbNet)
    (hl : ∀ i, (net.lookup.round i).responses = []) (hn : MIN_CLOSEST_NODES ≤ (getAllNodes s.worker).length)
    (hr : net.batch.responses 0 ≠ []) :
    ∃ s', storeAndKeep E T s o hash data net = .ok (s', o) ∧ s'.worker.nodes = s.worker.nodes := by
  obtain ⟨w', hst, hw⟩ := store_of_silent E T s.worker hash (storeRequest o.email data) net hl hn
  have hne : ((net.batch.responses (resendLoop net.batch.responses 0 5)).map (·.from)).isEmpty = false := by
    rw [resendLoop_of_first hr]
    simpa [List.isEmpty_iff] using hr
  exact ⟨_, by simp only [storeAndKeep, hst, Except.map, hne]; rfl, hw⟩

theorem storeEmailStep_of_answered (s : SendState ι) (o : Outgoing) (net : VerbNet)
    (hl : ∀ i, (net.lookup.round i).responses = []) (hn : MIN_CLOSEST_NODES ≤ (getAllNodes s.worker).length)
    (hr : net.batch.responses 0 ≠ []) :
    ∃ s', storeEmailStep E T s o net = .ok (s', o) ∧ s'.worker.nodes = s.worker.nodes := by
  unfold storeEmailStep
  split
  · exact ⟨s, rfl, rfl⟩
  · exact storeAndKeep_of_answered E T s o _ _ net hl hn hr

theorem storeIndexStep_of_answered (now : UInt32) (s : SendState ι) (e : Email) (net : VerbNet)
    (hl : ∀ i, (net.lookup.round i).responses = []) (hn : MIN_CLOSEST_NODES ≤ (getAllNodes s.worker).length)
    (hr : net.batch.responses 0 ≠ []) :
    ∃ s', storeIndexStep lib E T now s (encryptEmail lib e) net = .ok (s', encryptEmail lib e) ∧
      s'.worker.nodes = s.worker.nodes := by
  unfold storeIndexStep
  split
  · exact ⟨s, rfl, rfl⟩
  · rename_i hgo
    obtain ⟨r, hpr⟩ := parseAddress_of_encryptEmail lib (show (encryptEmail lib e).going.isSome by simp [hgo])
    simp only [encryptEmail_email, hpr]
    exact storeAndKeep_of_answered E T s _ _ _ net hl hn hr

theorem sendRound_of_answered (w : DHTworker ι) (outbox : List Email) (now : UInt32) (net : SendNet)
    (hlookup : ∀ k i, ((net.email k).lookup.round i).responses = [] ∧ ((net.index k).lookup.round i).responses = [])
    (hnodes : MIN_CLOSEST_NODES ≤ (getAllNodes w).length)
    (hresp : ∀ k, (net.email k).batch.responses 0 ≠ [] ∧ (net.index k).batch.responses 0 ≠ []) :
    ∃ s, sendRound lib E T w outbox now net = .ok (s, (outbox.map (encryptEmail lib)).map markSent) := by
  let P : SendState ι → Prop := fun s => s.worker.nodes = w.nodes
  have hall : ∀ s, P s → MIN_CLOSEST_NODES ≤ (getAllNodes s.worker).length := fun s hs => by
    simpa only [getAllNodes, hs] using hnodes
  have h2 : ∀ k s, ∀ o ∈ outbox.map (encryptEmail lib), P s →
      ∃ s', storeEmailStep E T s o (net.email k) = .ok (s', id o) ∧ P s' := fun k s o _ hs =>
    (storeEmailStep_of_answered E T s o _ (fun i => (hlookup k i).1) (hall s hs) (hresp k).1).imp
      fun _ h => ⟨h.1, h.2.trans hs⟩
  have h3 : ∀ k s, ∀ o ∈ outbox.map (encryptEmail lib), P s →
      ∃ s', storeIndexStep lib E T now s o (net.index k) = .ok (s', id o) ∧ P s' := by
    intro k s o ho hs
    obtain ⟨e, -, rfl⟩ := List.mem_map.mp ho
    exact (storeIndexStep_of_answered lib E T now s e _ (fun i => (hlookup k i).2) (hall s hs) (hresp k).2).imp
      fun _ h => ⟨h.1, h.2.trans hs⟩
  obtain ⟨s1, e1, hs1⟩ := forEmails_map P id h2 0 (show P ⟨w, [], []⟩ from rfl)
  obtain ⟨s2, e2, -⟩ := forEmails_map P id h3 0 hs1
  rw [List.map_id] at e1 e2
  exact ⟨s2, by simp only [sendRound, e1, e2, bind, Except.bind, pure, Except.pure]⟩

/-- If no node answers a lookup of the round, the table holds at least `MIN_CLOSEST_NODES`
records, and each store's batch holds a response after its first send, whatever those
responses say, then the round returns and moves to `sent/` every email it could encrypt. -/
theorem sendRound_moves_on_any_response (w : DHTworker ι) (outbox : List Email) (now : UInt32)
    (net : SendNet)
    (hlookup : ∀ k i, ((net.email k).lookup.round i).responses = [] ∧ ((net.index k).lookup.round i).responses = [])
    (hnodes : MIN_CLOSEST_NODES ≤ (getAllNodes w).length)
    (hresp : ∀ k, (net.email k).batch.responses 0 ≠ [] ∧ (net.index k).batch.responses 0 ≠ []) :
    ∃ s os, sendRound lib E T w outbox now net = .ok (s, os) ∧
      movedToSent os = outbox.filter fun e => (encryptEmail lib e).going.isSome := by
  obtain ⟨s, h⟩ := sendRound_of_answered lib E T w outbox now net hlookup hnodes hresp
  exact ⟨s, _, h, by simp [movedToSent, List.filter_map, Function.comp_def]⟩

/-- A stand-in library over the sample identities, for concrete runs only: an address is an
identity's base64, the ciphertext is the plaintext, and the digest repeats the length. -/
def sampleMailLib : MailLib (Fin 4) where
  parseAddress := sampleLib.fromBase64
  identHash i := List.replicate 32 i.val.toUInt8
  encrypt _ plain _ := plain
  keyType _ := 0
  sha256 d := List.replicate 32 d.length.toUInt8
  toBase64 _ := ""

/-- Three peers that answer every store request with `NO_DISK_SPACE`, as `receiveStoreRequest`
always does: the email is moved to `sent/` though no peer stored anything. -/
theorem sendRound_no_disk_space :
    let E : Env (Fin 4) := ⟨sampleLib, 0⟩
    let w := (addNode E (addNode E (addNode E .empty (some 1)).2 (some 2)).2 (some 3)).2
    let refusals : List CommunicationPacket := ["N1", "N2", "N3"].map fun n =>
      ⟨type.CommN, 4, [], n, (statusResponse [] StatusCode.NO_DISK_SPACE).payload⟩
    let verb : VerbNet := ⟨⟨fun _ => [], 0, fun _ => ⟨[], 0⟩, 0⟩, ⟨fun _ => [], fun _ => refusals⟩⟩
    let mail : Email := ⟨"N1", "N0", [], [1, 2, 3], [7]⟩
    ∃ s os, sendRound sampleMailLib E ⟨10, 30, by decide⟩ w [mail] 0 ⟨fun _ => verb, fun _ => verb⟩ = .ok (s, os) ∧
      movedToSent os = [mail] := by
  intro E w refusals verb mail
  obtain ⟨s, os, h, hm⟩ := sendRound_moves_on_any_response sampleMailLib E ⟨10, 30, by decide⟩ w [mail] 0
    ⟨fun _ => verb, fun _ => verb⟩ (fun _ _ => ⟨rfl, rfl⟩) (by decide) (fun _ => ⟨by simp [verb, refusals], by simp [verb, refusals]⟩)
  exact ⟨s, os, h, hm.trans (by decide)⟩

/-! ## The length fields

`sendEmailTask` assigns `edata.size()` and `toByte().size()` to `uint16_t` fields with no
bound check. Every length field a round writes is the size it describes modulo 2^16, and the
DHT key hashes that stored length (`sendRound_lengths`): an email whose ciphertext reaches
65536 bytes goes out with a wrapped length (`sendRound_length_wraps`). -/

/-- The `uint16_t` fields `hc_length` and `length` of a store request: the sizes of the
hashcash and of the data, stored into 16 bits. -/
def LengthsStored (q : StoreRequestPacket) : Prop :=
  q.hcLength.toNat = q.hashcash.length % 65536 ∧ q.length.toNat = q.data.length % 65536

/-- The `uint16_t` field `length` of an encrypted packet: the ciphertext's size stored into 16
bits, the DHT key being `SHA-256(length ‖ ciphertext)` of that stored length. -/
def EmailEncryptedPacket.LengthStored (sha256 : List UInt8 → List UInt8) (p : EmailEncryptedPacket) : Prop :=
  p.length.toNat = p.edata.length % 65536 ∧ p.key = sha256 (be16 p.length ++ p.edata)

/-- An email whose encrypted packet, while it has one, has its length stored. -/
def Outgoing.LengthStored (sha256 : List UInt8 → List UInt8) (o : Outgoing) : Prop :=
  ∀ enc, o.going = some enc → enc.LengthStored sha256

theorem Outgoing.LengthStored.of_going {sha256 : List UInt8 → List UInt8} {o o' : Outgoing}
    (h : o'.going = o.going ∨ o'.going = none) (ho : o.LengthStored sha256) : o'.LengthStored sha256 := by
  rcases h with h | h <;> intro enc he
  · exact ho enc (h ▸ he)
  · exact absurd (h ▸ he) nofun

theorem storeRequest_lengthsStored (e : Email) (data : List UInt8) (c : Cid) :
    LengthsStored { storeRequest e data with cid := c } :=
  ⟨toU16_toNat _, toU16_toNat _⟩

theorem encryptEmail_lengthStored (e : Email) : (encryptEmail lib e).LengthStored lib.sha256 := by
  unfold encryptEmail
  dsimp only
  split
  · nofun
  · split
    · nofun
    · split
      · nofun
      · rintro enc ⟨⟩
        exact ⟨toU16_toNat _, rfl⟩

theorem encryptEmail_going {e : Email} {recipient sender : κ} (hr : lib.parseAddress e.toAddress = some recipient)
    (hs : lib.parseAddress e.fromAddress = some sender) (hne : lib.encrypt sender e.plain recipient ≠ []) :
    ∃ enc, (encryptEmail lib e).going = some enc ∧ enc.edata = lib.encrypt sender e.plain recipient := by
  simp only [encryptEmail, hr, hs, List.isEmpty_iff, hne, if_false]
  exact ⟨_, rfl, rfl⟩

theorem storeAndKeep_lengths {s s' : SendState ι} {o o' : Outgoing} {hash data : List UInt8} {net : VerbNet}
    (h : storeAndKeep E T s o hash data net = .ok (s', o')) (hs : ∀ q ∈ s.requests, LengthsStored q.2) :
    (∀ q ∈ s'.requests, LengthsStored q.2) ∧ (o'.going = o.going ∨ o'.going = none) := by
  obtain ⟨r, hr, h⟩ := map_eq_ok.mp h
  have hreq : ∀ q ∈ s.requests ++ r.2.2, LengthsStored q.2 := fun q hq =>
    (List.mem_append.mp hq).elim (hs q) fun hq => by
      obtain ⟨c, hc⟩ := store_requests E T hr q hq
      exact hc ▸ storeRequest_lengthsStored o.email data c
  dsimp only at h
  split at h <;> cases h
  · exact ⟨hreq, .inr rfl⟩
  · exact ⟨hreq, .inl rfl⟩

theorem forEmails_inv {step : SendState ι → Outgoing → VerbNet → Except Fault (SendState ι × Outgoing)}
    {net : Nat → VerbNet} (P : SendState ι → Prop) (Q : Outgoing → Prop)
    (hstep : ∀ k s o s' o', step s o (net k) = .ok (s', o') → P s → Q o → P s' ∧ Q o')
    {k : Nat} {s s' : SendState ι} {os os' : List Outgoing} (h : forEmails step net k s os = .ok (s', os'))
    (hs : P s) (ho : ∀ o ∈ os, Q o) : P s' ∧ ∀ o ∈ os', Q o := by
  induction os generalizing k s s' os' with
  | nil => cases h; exact ⟨hs, nofun⟩
  | cons o os ih =>
    obtain ⟨⟨s1, o1⟩, h1, h⟩ := bind_eq_ok.mp h
    obtain ⟨⟨s2, os2⟩, h2, h⟩ := bind_eq_ok.mp h
    cases h
    obtain ⟨hs1, ho1⟩ := hstep k s o s1 o1 h1 hs (ho o (List.mem_cons_self _ _))
    obtain ⟨hs2, ho2⟩ := ih h2 hs1 fun o h => ho o (List.mem_cons_of_mem _ h)
    exact ⟨hs2, List.forall_mem_cons.mpr ⟨ho1, ho2⟩⟩

theorem storeEmailStep_lengths (sha256 : List UInt8 → List UInt8) {s s' : SendState ι} {o o' : Outgoing}
    {net : VerbNet} (h : storeEmailStep E T s o net = .ok (s', o'))
    (hs : ∀ q ∈ s.requests, LengthsStored q.2) (ho : o.LengthStored sha256) :
    (∀ q ∈ s'.requests, LengthsStored q.2) ∧ o'.LengthStored sha256 := by
  unfold storeEmailStep at h
  split at h
  · cases h; exact ⟨hs, ho⟩
  · obtain ⟨hs', hgo⟩ := storeAndKeep_lengths E T h hs
    exact ⟨hs', ho.of_going hgo⟩

theorem storeIndexStep_lengths (now : UInt32) {s s' : SendState ι} {o o' : Outgoing} {net : VerbNet}
    (h : storeIndexStep lib E T now s o net = .ok (s', o'))
    (hs : ∀ q ∈ s.requests, LengthsStored q.2) (ho : o.LengthStored lib.sha256) :
    (∀ q ∈ s'.requests, LengthsStored q.2) ∧ o'.LengthStored lib.sha256 := by
  unfold storeIndexStep at h
  split at h
  · cases h; exact ⟨hs, ho⟩
  · split at h
    · cases h; exact ⟨hs, ho.of_going (.inr rfl)⟩
    · obtain ⟨hs', hgo⟩ := storeAndKeep_lengths E T h hs
      exact ⟨hs', ho.of_going hgo⟩

/-- Every length field a round writes is the size of what it describes stored into a
`uint16_t`: the `length` of each encrypted packet still going, which its DHT key hashes, and
the `hc_length` and `length` of every store request sent. -/
theorem sendRound_lengths (w : DHTworker ι) (outbox : List Email) (now : UInt32) (net : SendNet)
    {s : SendState ι} {os : List Outgoing} (h : sendRound lib E T w outbox now net = .ok (s, os)) :
    (∀ o ∈ os, ∀ enc, o.going = some enc →
      enc.length.toNat = enc.edata.length % 65536 ∧ enc.key = lib.sha256 (be16 enc.length ++ enc.edata)) ∧
    ∀ q ∈ s.requests, q.2.hcLength.toNat = q.2.hashcash.length % 65536 ∧ q.2.length.toNat = q.2.data.length % 65536 := by
  obtain ⟨⟨s1, os1⟩, h1, h⟩ := bind_eq_ok.mp h
  obtain ⟨⟨s2, os2⟩, h2, h⟩ := bind_eq_ok.mp h
  cases h
  have henc : ∀ o ∈ outbox.map (encryptEmail lib), o.LengthStored lib.sha256 := by
    simpa only [List.forall_mem_map] using fun e _ => encryptEmail_lengthStored lib e
  let P : SendState ι → Prop := fun s => ∀ q ∈ s.requests, LengthsStored q.2
  obtain ⟨hs1, ho1⟩ := forEmails_inv P _ (fun _ _ _ _ _ h => storeEmailStep_lengths E T lib.sha256 h) h1 nofun henc
  obtain ⟨hs2, ho2⟩ := forEmails_inv P _ (fun _ _ _ _ _ h => storeIndexStep_lengths lib E T now h) h2 hs1 ho1
  refine ⟨fun o ho enc he => ?_, hs2⟩
  obtain ⟨o', ho', rfl⟩ := List.mem_map.mp ho
  exact ho2 o' ho' enc (by rwa [markSent_going] at he)

/-- An email of 65536 plaintext bytes, which the sample library encrypts to as many: the
round keeps it, and its packet's `length` field reads `0`. -/
theorem sendRound_length_wraps :
    let E : Env (Fin 4) := ⟨sampleLib, 0⟩
    let w := (addNode E (addNode E (addNode E .empty (some 1)).2 (some 2)).2 (some 3)).2
    let verb : VerbNet := ⟨⟨fun _ => [], 0, fun _ => ⟨[], 0⟩, 0⟩, ⟨fun _ => [], fun _ => [⟨type.CommN, 4, [], "N1", []⟩]⟩⟩
    let mail : Email := ⟨"N1", "N0", [], List.replicate 65536 0, [7]⟩
    ∃ s os, sendRound sampleMailLib E ⟨10, 30, by decide⟩ w [mail] 0 ⟨fun _ => verb, fun _ => verb⟩ = .ok (s, os) ∧
      ∃ o ∈ os, ∃ enc, o.going = some enc ∧ enc.edata.length = 65536 ∧ enc.length.toNat = 0 := by
  intro E w verb mail
  obtain ⟨s, h⟩ := sendRound_of_answered sampleMailLib E ⟨10, 30, by decide⟩ w [mail] 0
    ⟨fun _ => verb, fun _ => verb⟩ (fun _ _ => ⟨rfl, rfl⟩) (by decide) (fun _ => ⟨nofun, nofun⟩)
  obtain ⟨enc, hgo, hd⟩ := @encryptEmail_going _ sampleMailLib mail 1 0 (by decide) (by decide) (List.ne_nil_of_length_pos (by simp only [sampleMailLib, mail, List.length_replicate]; omega))
  have hgo' : (markSent (encryptEmail sampleMailLib mail)).going = some enc := by rw [markSent_going, hgo]
  have hlen : enc.edata.length = 65536 := by rw [hd]; exact List.length_replicate _ _
  have hfield := ((sendRound_lengths sampleMailLib E ⟨10, 30, by decide⟩ w [mail] 0 _ h).1 _
    (List.mem_singleton_self _) enc hgo').1
  exact ⟨s, _, h, _, List.mem_singleton_self _, enc, hgo', hlen, by rw [hfield, hlen]⟩

end Pbote.Mail
