import Pbote.Base.StdMap
import Pbote.Wire.Packets

/-!
# The node table of `DHTworker`

`m_nodes_` maps an identity hash to a node record. Every path into it except one goes
through `addNode`, which decodes the identity, refuses a hash already present and refuses
the local destination. `loadNodes` is the exception: it inserts each line of `nodes.txt`
as it reads it (`loadNodes_breaks_tableInv`), while `addNode` keeps `TableInv`
(`addNode_tableInv`).

The identity operations belong to the overlay library and are a parameter, `IdentityLib`;
`IdentityLib.Lawful` is what that library promises about its own serialisations.
-/

namespace Pbote.Kademlia

open Pbote.Wire

/-- The calls the code makes on `i2p::data::IdentityEx`. -/
structure IdentityLib (ι : Type) where
  fromBase64 : String → Option ι
  toBase64 : ι → String
  /-- `FromBuffer`: the identity and the bytes it used, `none` when it returns 0. -/
  fromBuffer : List UInt8 → Option (ι × Nat)
  /-- `ToBuffer` into a buffer of `GetFullLen()` bytes. -/
  toBuffer : ι → List UInt8
  identHash : ι → Tag
  /-- `GetIdentHash()`, `ToBase64()` and `ToBuffer` of an `IdentityEx` no decode has filled. -/
  blankHash : Tag
  blankBase64 : String
  blankBuffer : List UInt8
  fromBuffer_pos : ∀ {b x n}, fromBuffer b = some (x, n) → 0 < n

/-- An `IdentityEx` value: a decoded identity, or `none` for one that no decode has filled. -/
abbrev IdentityEx (ι : Type) := Option ι

namespace IdentityLib

variable {ι : Type} (lib : IdentityLib ι)

def hashOf (x : IdentityEx ι) : Tag := x.elim lib.blankHash lib.identHash
def base64Of (x : IdentityEx ι) : String := x.elim lib.blankBase64 lib.toBase64
def bufferOf (x : IdentityEx ι) : List UInt8 := x.elim lib.blankBuffer lib.toBuffer

@[simp] theorem hashOf_some (x : ι) : lib.hashOf (some x) = lib.identHash x := rfl
@[simp] theorem base64Of_some (x : ι) : lib.base64Of (some x) = lib.toBase64 x := rfl
@[simp] theorem bufferOf_some (x : ι) : lib.bufferOf (some x) = lib.toBuffer x := rfl

end IdentityLib

/-- The library's serialisations read back what they write, and a full identity takes at
least `DEFAULT_IDENTITY_SIZE = 387` bytes. -/
structure IdentityLib.Lawful {ι : Type} (lib : IdentityLib ι) : Prop where
  fromBase64_toBase64 : ∀ x, lib.fromBase64 (lib.toBase64 x) = some x
  fromBuffer_toBuffer : ∀ x rest, lib.fromBuffer (lib.toBuffer x ++ rest) = some (x, (lib.toBuffer x).length)
  toBuffer_length : ∀ x, 387 ≤ (lib.toBuffer x).length

/-- Modelled from the spec: a node record is an identity, a `locked` flag and a response
counter. `identity` is `none` when the base64 it was built from did not decode. -/
structure Node (ι : Type) where
  identity : IdentityEx ι
  locked : Bool := false
  responses : Nat := 0
  deriving DecidableEq, Repr

/-- What a `DHTworker` takes from its process: the identity library and the local destination. -/
structure Env (ι : Type) where
  lib : IdentityLib ι
  localDestination : ι

/-- The state of a `DHTworker`: `m_nodes_` and the pending requests `active_requests`. -/
structure DHTworker (ι : Type) where
  nodes : StdMap Tag (Node ι)
  activeRequests : StdMap Cid (Node ι)

def DHTworker.empty {ι : Type} : DHTworker ι := ⟨.empty, .empty⟩

variable {ι : Type} (E : Env ι)

/-- `Node(const std::string&)`, and `FromBase64` on a blank node. -/
def Node.ofBase64 (s : String) : Node ι := { identity := E.lib.fromBase64 s }

/-- `Node::GetIdentHash()`. -/
def Node.identHash (n : Node ι) : Tag := E.lib.hashOf n.identity

/-- `Node::ToBuffer` into a buffer of `GetFullLen()` bytes. -/
def Node.toBuffer (n : Node ι) : List UInt8 := E.lib.bufferOf n.identity

/-- `DHTworker::findNode`. -/
def findNode (w : DHTworker ι) (h : Tag) : Option (Node ι) := w.nodes.find? h

/-- `DHTworker::getAllNodes`: a copy of every record. -/
def getAllNodes (w : DHTworker ι) : List (Node ι) := w.nodes.values

/-- `DHTworker::addNode(const IdentityEx&)`; `IdentityEx::operator==` compares identity hashes. -/
def addNode (w : DHTworker ι) (x : IdentityEx ι) : Bool × DHTworker ι :=
  if (findNode w (E.lib.hashOf x)).isSome then (false, w)
  else if E.lib.identHash E.localDestination = E.lib.hashOf x then (false, w)
  else
    let node := Node.ofBase64 E (E.lib.base64Of x)
    let r := w.nodes.insert (node.identHash E) node
    (r.2, { w with nodes := r.1 })

/-- `DHTworker::addNode(const std::string&)`. -/
def addNodeFromBase64 (w : DHTworker ι) (dest : String) : Bool × DHTworker ι :=
  match E.lib.fromBase64 dest with
  | some x => addNode E w (some x)
  | none => (false, w)

/-- `DHTworker::addNode(const uint8_t*, size_t)`. -/
def addNodeFromBuffer (w : DHTworker ι) (buf : List UInt8) : Bool × DHTworker ι :=
  match E.lib.fromBuffer buf with
  | some (x, _) => addNode E w (some x)
  | none => (false, w)

/-- The lines `std::getline` yields from the rest of a text, `cur` being the part of the
current line read so far, reversed; a last line without `'\n'` still counts. -/
def getlines (cur : List Char) : List Char → List (List Char)
  | [] => if cur.isEmpty then [] else [cur.reverse]
  | c :: cs => if c = '\n' then cur.reverse :: getlines [] cs else getlines (c :: cur) cs

/-- The test `!line.empty() && line[0] != '\n' && line[0] != '#'`. -/
def isNodeLine : List Char → Bool
  | [] => false
  | c :: _ => c != '\n' && c != '#'

/-- `DHTworker::readNodes` on the text of `nodes.txt`; `none` is a file that does not open. -/
def readNodes : Option String → List String
  | none => []
  | some text => ((getlines [] text.data).filter isNodeLine).map String.mk

/-- The insertion loop of `loadNodes`: each record goes in under its own hash, unchecked;
the count is of the inserts that took. -/
def loadLoop (nodes : StdMap Tag (Node ι)) : List (Node ι) → StdMap Tag (Node ι) × Nat
  | [] => (nodes, 0)
  | n :: ns =>
    let r := nodes.insert (n.identHash E) n
    let rest := loadLoop r.1 ns
    (rest.1, if r.2 then rest.2 + 1 else rest.2)

/-- `addNode` over the `bootstrap.address` list. -/
def addBootstrap (w : DHTworker ι) : List String → DHTworker ι
  | [] => w
  | a :: as => addBootstrap (addNodeFromBase64 E w a).2 as

/-- `DHTworker::loadNodes`, given `nodes.txt` and the `bootstrap.address` option. -/
def loadNodes (w : DHTworker ι) (file : Option String) (bootstrap : List String) :
    Bool × DHTworker ι :=
  let loaded := loadLoop E w.nodes ((readNodes file).map (Node.ofBase64 E))
  let w' := { w with nodes := loaded.1 }
  if loaded.2 ≠ 0 then (true, w')
  else if bootstrap.isEmpty then (false, w')
  else (true, addBootstrap E w' bootstrap)

/-- The node-table invariant: a record sits under its own identity hash, holds a decoded
identity and is not the local destination. -/
structure TableInv (nodes : StdMap Tag (Node ι)) : Prop where
  keyed : ∀ h n, (h, n) ∈ nodes.entries → h = n.identHash E
  decoded : ∀ h n, (h, n) ∈ nodes.entries → n.identity.isSome
  notLocal : ∀ h n, (h, n) ∈ nodes.entries → n.identHash E ≠ E.lib.identHash E.localDestination

/-! ## `addNode` -/

omit E in
theorem findNode_isSome {w : DHTworker ι} {h : Tag} : (findNode w h).isSome ↔ h ∈ w.nodes.keys := by
  rw [Option.isSome_iff_ne_none, Ne, findNode, StdMap.find?_eq_none, not_not]

@[simp] theorem addNode_activeRequests (w : DHTworker ι) (x : IdentityEx ι) :
    (addNode E w x).2.activeRequests = w.activeRequests := by
  unfold addNode; split_ifs <;> rfl

theorem Node.ofBase64_toBase64 (hl : E.lib.Lawful) (x : ι) :
    Node.ofBase64 E (E.lib.toBase64 x) = { identity := some x } := by
  simp [Node.ofBase64, hl.fromBase64_toBase64]

@[simp] theorem Node.identHash_some (x : ι) (l : Bool) (r : Nat) :
    Node.identHash E ⟨some x, l, r⟩ = E.lib.identHash x := rfl

theorem addNode_eq (hl : E.lib.Lawful) (w : DHTworker ι) (x : ι) :
    addNode E w (some x) =
      if E.lib.identHash x ∈ w.nodes.keys ∨ E.lib.identHash E.localDestination = E.lib.identHash x
      then (false, w)
      else (true, { w with nodes := (w.nodes.insert (E.lib.identHash x) { identity := some x }).1 }) := by
  unfold addNode
  rw [IdentityLib.base64Of_some, Node.ofBase64_toBase64 E hl, IdentityLib.hashOf_some]
  by_cases h1 : E.lib.identHash x ∈ w.nodes.keys
  · simp [findNode_isSome, h1]
  · by_cases h2 : E.lib.identHash E.localDestination = E.lib.identHash x
    · simp [findNode_isSome, h1, h2]
    · simp [findNode_isSome, h1, h2, StdMap.insert_snd, StdMap.contains]

theorem entries_subset_addNode {w : DHTworker ι} {p : Tag × Node ι} (x : IdentityEx ι)
    (h : p ∈ w.nodes.entries) :
    p ∈ (addNode E w x).2.nodes.entries := by
  unfold addNode
  split_ifs
  · exact h
  · exact h
  · exact StdMap.mem_insert.mpr (.inl h)

theorem keys_subset_addNode {w : DHTworker ι} {k : Tag} (x : IdentityEx ι) (h : k ∈ w.nodes.keys) :
    k ∈ (addNode E w x).2.nodes.keys := by
  obtain ⟨v, hv⟩ := StdMap.mem_keys.mp h
  exact StdMap.mem_keys.mpr ⟨v, entries_subset_addNode E x hv⟩

theorem keys_subset_addNodeFromBase64 {w : DHTworker ι} {k : Tag} (s : String) (h : k ∈ w.nodes.keys) :
    k ∈ (addNodeFromBase64 E w s).2.nodes.keys := by
  unfold addNodeFromBase64
  split
  · exact keys_subset_addNode E _ h
  · exact h

structure AddResult (w : DHTworker ι) (x? : Option ι) (r : Bool × DHTworker ι) : Prop where
  result : r.1 = true ↔ ∃ x, x? = some x ∧ E.lib.identHash E.localDestination ≠ E.lib.identHash x ∧
    E.lib.identHash x ∉ w.nodes.keys
  gains : ∀ x, x? = some x → r.1 = true →
    r.2.nodes.entries.Perm ((E.lib.identHash x, { identity := some x }) :: w.nodes.entries) ∧
      r.2.activeRequests = w.activeRequests
  unchanged : r.1 = false → r.2 = w

theorem addResult_none (w : DHTworker ι) : AddResult E w none (false, w) :=
  ⟨by simp, nofun, fun _ => rfl⟩

theorem addNode_addResult (hl : E.lib.Lawful) (w : DHTworker ι) (x : ι) :
    AddResult E w (some x) (addNode E w (some x)) := by
  rw [addNode_eq E hl]
  by_cases h : E.lib.identHash x ∈ w.nodes.keys ∨ E.lib.identHash E.localDestination = E.lib.identHash x
  · rw [if_pos h]
    exact ⟨by simpa using fun hne => h.resolve_right hne, nofun, fun _ => rfl⟩
  · rw [if_neg h]
    obtain ⟨hk, hl⟩ := not_or.mp h
    refine ⟨by simpa using ⟨hl, hk⟩, fun x' hx _ => ?_, nofun⟩
    cases hx
    exact ⟨(StdMap.insert_of_not_mem _ hk).1, rfl⟩

theorem addNodeFromBase64_addResult (hl : E.lib.Lawful) (w : DHTworker ι) (s : String) :
    AddResult E w (E.lib.fromBase64 s) (addNodeFromBase64 E w s) := by
  unfold addNodeFromBase64
  split
  · rename_i x hx
    rw [hx]
    exact addNode_addResult E hl w x
  · rename_i hx
    rw [hx]
    exact addResult_none E w

theorem addNodeFromBuffer_addResult (hl : E.lib.Lawful) (w : DHTworker ι) (buf : List UInt8) :
    AddResult E w ((E.lib.fromBuffer buf).map Prod.fst) (addNodeFromBuffer E w buf) := by
  unfold addNodeFromBuffer
  split
  · rename_i x n hx
    rw [hx]
    exact addNode_addResult E hl w x
  · rename_i hx
    rw [hx]
    exact addResult_none E w

/-! ## The table invariant -/

theorem tableInv_empty : TableInv E .empty :=
  ⟨fun _ _ h => (List.not_mem_nil _ h).elim, fun _ _ h => (List.not_mem_nil _ h).elim,
    fun _ _ h => (List.not_mem_nil _ h).elim⟩

theorem TableInv.localHash_not_mem {m : StdMap Tag (Node ι)} (h : TableInv E m) :
    E.lib.identHash E.localDestination ∉ m.keys := fun hk => by
  obtain ⟨n, hn⟩ := StdMap.mem_keys.mp hk
  exact h.notLocal _ n hn (h.keyed _ n hn).symm

theorem TableInv.insert {m : StdMap Tag (Node ι)} (h : TableInv E m) {x : ι}
    (hx : E.lib.identHash E.localDestination ≠ E.lib.identHash x) :
    TableInv E (m.insert (E.lib.identHash x) { identity := some x }).1 := by
  refine ⟨?_, ?_, ?_⟩ <;> intro k n hkn <;> rcases StdMap.mem_insert.mp hkn with hkn | ⟨hkn, -⟩
  · exact h.keyed k n hkn
  · simp only [Prod.mk.injEq] at hkn; obtain ⟨rfl, rfl⟩ := hkn; rfl
  · exact h.decoded k n hkn
  · simp only [Prod.mk.injEq] at hkn; obtain ⟨rfl, rfl⟩ := hkn; rfl
  · exact h.notLocal k n hkn
  · simp only [Prod.mk.injEq] at hkn; obtain ⟨rfl, rfl⟩ := hkn; exact Ne.symm hx

theorem addNode_tableInv (hl : E.lib.Lawful) {w : DHTworker ι} (hw : TableInv E w.nodes) (x : ι) :
    TableInv E (addNode E w (some x)).2.nodes := by
  rw [addNode_eq E hl]
  split_ifs with h
  · exact hw
  · exact hw.insert E (not_or.mp h).2

theorem addNodeFromBase64_tableInv (hl : E.lib.Lawful) {w : DHTworker ι} (hw : TableInv E w.nodes)
    (s : String) : TableInv E (addNodeFromBase64 E w s).2.nodes := by
  unfold addNodeFromBase64
  split
  · exact addNode_tableInv E hl hw _
  · exact hw

theorem addNodeFromBuffer_tableInv (hl : E.lib.Lawful) {w : DHTworker ι} (hw : TableInv E w.nodes)
    (b : List UInt8) : TableInv E (addNodeFromBuffer E w b).2.nodes := by
  unfold addNodeFromBuffer
  split
  · exact addNode_tableInv E hl hw _
  · exact hw

/-! ## `loadNodes` -/

theorem keys_subset_loadLoop {m : StdMap Tag (Node ι)} {k : Tag} (ns : List (Node ι)) (h : k ∈ m.keys) :
    k ∈ (loadLoop E m ns).1.keys := by
  induction ns generalizing m with
  | nil => exact h
  | cons n ns ih => exact ih (StdMap.mem_keys_insert.mpr (.inr h))

theorem identHash_mem_loadLoop (m : StdMap Tag (Node ι)) {ns : List (Node ι)} {n : Node ι} (h : n ∈ ns) :
    n.identHash E ∈ (loadLoop E m ns).1.keys := by
  induction ns generalizing m with
  | nil => simp at h
  | cons n' ns ih =>
    rcases List.mem_cons.mp h with rfl | h
    · exact keys_subset_loadLoop E ns (StdMap.mem_keys_insert.mpr (.inl rfl))
    · exact ih _ h

theorem keys_subset_addBootstrap {w : DHTworker ι} {k : Tag} (as : List String) (h : k ∈ w.nodes.keys) :
    k ∈ (addBootstrap E w as).nodes.keys := by
  induction as generalizing w with
  | nil => exact h
  | cons a as ih => exact ih (keys_subset_addNodeFromBase64 E a h)

theorem identHash_mem_loadNodes (w : DHTworker ι) {file : Option String} (bootstrap : List String)
    {line : String} (h : line ∈ readNodes file) :
    (Node.ofBase64 E line).identHash E ∈ (loadNodes E w file bootstrap).2.nodes.keys := by
  have hk := identHash_mem_loadLoop E w.nodes (List.mem_map_of_mem (Node.ofBase64 E) h)
  dsimp only [loadNodes]
  split_ifs
  · exact hk
  · exact hk
  · exact keys_subset_addBootstrap E bootstrap hk

/-- A line of `nodes.txt` that decodes to the local destination breaks the table invariant,
whatever the table held before and whatever the bootstrap list is. -/
theorem loadNodes_breaks_tableInv (w : DHTworker ι) (file : Option String) (bootstrap : List String)
    (line : String) (hline : line ∈ readNodes file) (hlocal : E.lib.fromBase64 line = some E.localDestination) :
    ¬ TableInv E (loadNodes E w file bootstrap).2.nodes := fun hinv => by
  have hk := identHash_mem_loadNodes E w bootstrap hline
  simp only [Node.identHash, Node.ofBase64, hlocal, IdentityLib.hashOf_some] at hk
  exact hinv.localHash_not_mem E hk

/-! ## A lawful library -/

/-- Four identities, `N0` to `N3` in base64, each a 387-byte buffer led by its index. -/
def sampleLib : IdentityLib (Fin 4) where
  fromBase64 s := if s = "N0" then some 0 else if s = "N1" then some 1 else if s = "N2" then some 2
    else if s = "N3" then some 3 else none
  toBase64 i := if i = 0 then "N0" else if i = 1 then "N1" else if i = 2 then "N2" else "N3"
  fromBuffer
    | t :: rest => if h : t.toNat < 4 then if 386 ≤ rest.length then some (⟨t.toNat, h⟩, 387) else none else none
    | [] => none
  toBuffer i := i.val.toUInt8 :: List.replicate 386 0
  identHash i := BitVec.ofNat 256 (i.val + 1)
  blankHash := 0
  blankBase64 := ""
  blankBuffer := []
  fromBuffer_pos := by
    intro b x n h
    dsimp only at h
    split at h
    · split_ifs at h; cases h; omega
    · cases h

theorem sampleLib_lawful : sampleLib.Lawful where
  fromBase64_toBase64 := by decide
  fromBuffer_toBuffer x rest := by
    have hx : x.val.toUInt8.toNat = x.val := by rw [Wire.toUInt8_toNat]; omega
    simp only [sampleLib, List.cons_append, List.length_cons, List.length_append,
      List.length_replicate, hx, x.isLt, dite_true, Nat.le_add_right, ite_true]
  toBuffer_length x := by simp only [sampleLib, List.length_cons, List.length_replicate, le_refl]

/-- `nodes.txt` holding the local destination's own line: the loaded table holds it. -/
theorem loadNodes_local_line :
    "N0" ∈ readNodes (some "N0\n") ∧ sampleLib.fromBase64 "N0" = some 0 ∧
      ¬ TableInv ⟨sampleLib, 0⟩ (loadNodes ⟨sampleLib, 0⟩ .empty (some "N0\n") []).2.nodes :=
  ⟨by decide, by decide, loadNodes_breaks_tableInv _ _ _ _ "N0" (by decide) (by decide)⟩

end Pbote.Kademlia
