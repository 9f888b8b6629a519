import Pbote.Mail.Check

/-!
# The end of a check round: `processEmail`, the inbox and the deletions

After `retrieveEmailPacket`, `checkEmailTask` hands the encrypted packets to `processEmail`,
which drops a packet with no ciphertext, one that does not decrypt, and one whose email does not
verify against the packet's delete hash, and attaches the packet to each email it keeps. Each
kept email is saved to `inbox/`, and `deleteEmail` and `deleteIndexEntry` are asked for its
packet, with the deletion authorisation the email carries.

The packets come out of a `std::map` keyed by the DHT key, so a round saves the email of each
packet at most once, and asks each packet's deletion once (`checkEmailRound_inbox`). Nothing here
makes a node delete anything: the delete handlers of the DHT answer `NO_DATA_FOUND` and leave
their storage as it is, so a later round finds the same packets again.
-/

namespace Pbote.Mail

open Pbote.Wire Pbote.Kademlia

/-- The calls the end of a check round makes, whose code is not among the sources: `Decrypt`
with the identity's key, the `pbote::Email(data, true)` constructor, `verify` of a delete hash,
`setEncrypted` and `getEncrypted`, `empty`, and the deletion authorisation `getDecrypted().DA`. -/
structure InboxLib (ε : Type) where
  decrypt : List UInt8 → List UInt8
  fromDecrypted : List UInt8 → ε
  verify : ε → List UInt8 → Bool
  setEncrypted : ε → EmailEncryptedPacket → ε
  getEncrypted : ε → EmailEncryptedPacket
  empty : ε → Bool
  deleteAuth : ε → List UInt8

/-- What the round needs of the email code: `getEncrypted` returns the packet `setEncrypted` attached. -/
structure InboxLib.Lawful {ε : Type} (lib : InboxLib ε) : Prop where
  getEncrypted_setEncrypted : ∀ m p, lib.getEncrypted (lib.setEncrypted m p) = p

/-- A `pbote::EmailDeleteRequestPacket`: the deletion authorisation and the DHT key. -/
structure EmailDeleteRequestPacket where
  DA : List UInt8
  key : List UInt8
  deriving DecidableEq, Repr

/-- A request the round hands the DHT, whose code is not among the sources:
`deleteEmail(key, DataE, packet)` and `deleteIndexEntry(identity hash, key, DA)`. -/
inductive DeleteCall where
  | deleteEmail (key : List UInt8) (dataType : UInt8) (packet : EmailDeleteRequestPacket)
  | deleteIndexEntry (hash key delAuth : List UInt8)
  deriving DecidableEq, Repr

def DeleteCall.emailKey : DeleteCall → Option (List UInt8)
  | .deleteEmail key _ _ => some key
  | .deleteIndexEntry .. => none

variable {ε : Type} (lib : InboxLib ε)

/-- The loop body of `EmailWorker::processEmail` on one packet. -/
def processPacket (encMail : EmailEncryptedPacket) : Option ε :=
  if encMail.edata.isEmpty then none
  else
    let data := lib.decrypt encMail.edata
    if data.isEmpty then none
    else
      let tempMail := lib.fromDecrypted data
      if !lib.verify tempMail encMail.deleteHash then none
      else
        let tempMail := lib.setEncrypted tempMail encMail
        if lib.empty tempMail then none else some tempMail

/-- `EmailWorker::processEmail`. -/
def processEmail (mailPackets : List EmailEncryptedPacket) : List ε := mailPackets.filterMap (processPacket lib)

/-- The requests the round makes for one email it saved to `inbox/`. -/
def deleteCalls (hash : List UInt8) (mail : ε) : List DeleteCall :=
  let encEmailPacket := lib.getEncrypted mail
  let da := lib.deleteAuth mail
  [.deleteEmail encEmailPacket.key DataE ⟨da, encEmailPacket.key⟩, .deleteIndexEntry hash encEmailPacket.key da]

variable (codec : ContentCodec) {ι : Type} (E : Env ι) (T : Timeouts)

/-- One round of `EmailWorker::checkEmailTask` for the identity of hash `hash`: what
`checkRound` gathered, the emails saved to `inbox/`, and the deletion requests, in order. -/
def checkEmailRound (st : DHTStorage) (w : DHTworker ι) (hash : List UInt8) (net : CheckNet) :
    Except Fault (CheckResult ι × List ε × List DeleteCall) := do
  let res ← checkRound codec E T st w hash net
  let emails := processEmail lib res.mails
  pure (res, emails, emails.flatMap (deleteCalls lib hash))

/-! ## `processEmail` -/

theorem processPacket_eq_some {encMail : EmailEncryptedPacket} {m : ε} (h : processPacket lib encMail = some m) :
    ∃ data, data ≠ [] ∧ lib.decrypt encMail.edata = data ∧
      lib.verify (lib.fromDecrypted data) encMail.deleteHash = true ∧
      m = lib.setEncrypted (lib.fromDecrypted data) encMail := by
  unfold processPacket at h
  dsimp only at h
  split_ifs at h with h1 h2 h3 h4
  cases h
  exact ⟨_, by simpa [List.isEmpty_iff] using h2, rfl, by simpa using h3, rfl⟩

theorem map_filterMap_sublist {α β γ : Type} {f : α → Option β} {g : β → γ} {k : α → γ}
    (h : ∀ a b, f a = some b → g b = k a) (l : List α) : List.Sublist ((l.filterMap f).map g) (l.map k) := by
  induction l with
  | nil => exact List.Sublist.slnil
  | cons a l ih =>
    rw [List.filterMap_cons, List.map_cons]
    cases hf : f a with
    | none => exact ih.cons _
    | some b => exact (h a b hf ▸ ih.cons₂ (g b))

theorem processEmail_keys_sublist (hl : lib.Lawful) (mailPackets : List EmailEncryptedPacket) :
    List.Sublist ((processEmail lib mailPackets).map fun m => (lib.getEncrypted m).key) (mailPackets.map (·.key)) :=
  map_filterMap_sublist (fun _ _ h => by
    obtain ⟨_, -, -, -, rfl⟩ := processPacket_eq_some lib h
    rw [hl.getEncrypted_setEncrypted]) mailPackets

theorem mem_processEmail {mailPackets : List EmailEncryptedPacket} {m : ε} (hl : lib.Lawful)
    (h : m ∈ processEmail lib mailPackets) :
    lib.getEncrypted m ∈ mailPackets ∧ ∃ data, data ≠ [] ∧ lib.decrypt (lib.getEncrypted m).edata = data ∧
      lib.verify (lib.fromDecrypted data) (lib.getEncrypted m).deleteHash = true ∧
      m = lib.setEncrypted (lib.fromDecrypted data) (lib.getEncrypted m) := by
  obtain ⟨p, hp, hm⟩ := List.mem_filterMap.mp h
  obtain ⟨data, hd, hdec, hv, rfl⟩ := processPacket_eq_some lib hm
  rw [hl.getEncrypted_setEncrypted]
  exact ⟨hp, data, hd, hdec, hv, rfl⟩

/-! ## The packets of a round -/

theorem keyed_foldl_insert {m : StdMap (List UInt8) EmailEncryptedPacket} (hm : StdMap.Keyed (·.key) m)
    (ps : List EmailEncryptedPacket) :
    StdMap.Keyed (·.key) (ps.foldl (fun m p => (m.insert p.key p).1) m) := by
  induction ps generalizing m with
  | nil => exact hm
  | cons p ps ih => exact ih (hm.insert p)

theorem retrieveEmailPacket_keys_nodup {st : DHTStorage} {w : DHTworker ι} {ips : List IndexPacket}
    {net : Nat → VerbNet} {r : List EmailEncryptedPacket × List (List UInt8) × DHTworker ι}
    (h : retrieveEmailPacket codec E T st w ips net = .ok r) : (r.1.map (·.key)).Nodup := by
  obtain ⟨found, -, h⟩ := bind_eq_ok.mp h
  obtain ⟨⟨m, saved⟩, hc, h⟩ := bind_eq_ok.mp h
  cases h
  exact (keyed_foldl_insert (collectResponses_keyed (StdMap.keyed_empty _) hc) _).values_nodup

theorem checkRound_mails_nodup {st : DHTStorage} {w : DHTworker ι} {hash : List UInt8} {net : CheckNet}
    {res : CheckResult ι} (h : checkRound codec E T st w hash net = .ok res) : (res.mails.map (·.key)).Nodup := by
  obtain ⟨ri, -, h⟩ := bind_eq_ok.mp h
  obtain ⟨re, hre, h⟩ := bind_eq_ok.mp h
  cases h
  exact retrieveEmailPacket_keys_nodup codec E T hre

theorem filterMap_emailKey_deleteCalls (hash : List UInt8) (inbox : List ε) :
    (inbox.flatMap (deleteCalls lib hash)).filterMap DeleteCall.emailKey =
      inbox.map fun m => (lib.getEncrypted m).key := by
  induction inbox with
  | nil => rfl
  | cons m inbox ih => simp only [List.flatMap_cons, List.filterMap_append, ih, List.map_cons]; rfl

/-! ## A round -/

/-- A check round saves to `inbox/` the email of each packet at most once, and only an email
that decrypts from a packet the round gathered and verifies against that packet's delete hash;
its `deleteEmail` requests name the keys of the emails it saved, in order, each once. -/
theorem checkEmailRound_inbox (hl : lib.Lawful) (st : DHTStorage) (w : DHTworker ι) (hash : List UInt8)
    (net : CheckNet) {res : CheckResult ι} {inbox : List ε} {calls : List DeleteCall}
    (h : checkEmailRound lib codec E T st w hash net = .ok (res, inbox, calls)) :
    (inbox.map fun m => (lib.getEncrypted m).key).Nodup ∧
      (∀ m ∈ inbox, lib.getEncrypted m ∈ res.mails ∧ ∃ data, data ≠ [] ∧
        lib.decrypt (lib.getEncrypted m).edata = data ∧
        lib.verify (lib.fromDecrypted data) (lib.getEncrypted m).deleteHash = true ∧
        m = lib.setEncrypted (lib.fromDecrypted data) (lib.getEncrypted m)) ∧
      calls.filterMap DeleteCall.emailKey = inbox.map fun m => (lib.getEncrypted m).key := by
  obtain ⟨r, hr, h⟩ := bind_eq_ok.mp h
  cases h
  exact ⟨(checkRound_mails_nodup codec E T hr).sublist (processEmail_keys_sublist lib hl _),
    fun m hm => mem_processEmail lib hl hm, filterMap_emailKey_deleteCalls lib hash _⟩

def sampleInboxLib : InboxLib (List UInt8 × EmailEncryptedPacket) where
  decrypt c := c
  fromDecrypted d := (d, ⟨[], 0, [], 0, 0, []⟩)
  verify _ _ := true
  setEncrypted m p := (m.1, p)
  getEncrypted m := m.2
  empty m := m.1.isEmpty
  deleteAuth m := m.1

theorem sampleInboxLib_lawful : sampleInboxLib.Lawful := ⟨fun _ _ => rfl⟩

theorem checkEmailRound_inbox_sample :
    ∃ res inbox calls, checkEmailRound sampleInboxLib sampleCodec ⟨sampleLib, 0⟩ ⟨10, 30, by decide⟩ emptyStorage
      sampleWorker [7] sampleCheckNet = .ok (res, inbox, calls) ∧ inbox.length = 2 ∧
      ((inbox.map fun m => (sampleInboxLib.getEncrypted m).key).Nodup ∧
      (∀ m ∈ inbox, sampleInboxLib.getEncrypted m ∈ res.mails ∧ ∃ data, data ≠ [] ∧
        sampleInboxLib.decrypt (sampleInboxLib.getEncrypted m).edata = data ∧
        sampleInboxLib.verify (sampleInboxLib.fromDecrypted data) (sampleInboxLib.getEncrypted m).deleteHash = true ∧
        m = sampleInboxLib.setEncrypted (sampleInboxLib.fromDecrypted data) (sampleInboxLib.getEncrypted m)) ∧
      calls.filterMap DeleteCall.emailKey = inbox.map fun m => (sampleInboxLib.getEncrypted m).key) := by
  obtain ⟨st', w', h⟩ := checkRound_sampleCheckNet_seven
  obtain ⟨res, calls, hround⟩ : ∃ res calls, checkEmailRound sampleInboxLib sampleCodec ⟨sampleLib, 0⟩
      ⟨10, 30, by decide⟩ emptyStorage sampleWorker [7] sampleCheckNet =
        .ok (res, [([9], ⟨[5], 0, [], 0, 1, [9]⟩), ([9], ⟨[6], 0, [], 0, 1, [9]⟩)], calls) :=
    ⟨_, _, by simp only [checkEmailRound, h, bind, Except.bind]; rfl⟩
  exact ⟨_, _, _, hround, rfl,
    checkEmailRound_inbox sampleInboxLib sampleCodec _ _ sampleInboxLib_lawful _ _ _ _ hround⟩

end Pbote.Mail
