import Mathlib.Data.String.Basic
import Pbote.Kademlia.NodeTable

/-!
# `nodes.txt`, written and read back

`writeNodes` writes two comment lines, a blank line and the base64 of every record, one a
line; `readNodes` keeps the lines that are not empty and do not start with `#`, and
`loadNodes` inserts a record built from each. When the library writes base64 as one line that
does not start with `#` (`IdentityLib.LineSafe`), `readNodes` gives back the lines
`writeNodes` wrote (`readNodes_writeNodes`), and loading them into an empty table from a table
that keeps `TableInv` gives back its hashes, each with its identity (`loadNodes_writeNodes`).
The lock and the response count of a record are not written, and come back at their defaults.
-/

namespace Pbote.Kademlia

open Pbote.Wire

variable {ι : Type} (E : Env ι)

/-- `Node::ToBase64()`. -/
def Node.toBase64 (n : Node ι) : String := E.lib.base64Of n.identity

/-- The two comment lines and the blank line `writeNodes` starts `nodes.txt` with. -/
def nodesFileHeader : String :=
  "# Each line is one Base64-encoded I2P destination.\n" ++
    "# Do not edit this file while pbote is running as it will be overwritten.\n\n"

/-- `DHTworker::writeNodes`: the text it writes to `nodes.txt`. -/
def writeNodes (w : DHTworker ι) : String :=
  nodesFileHeader ++ String.join ((getAllNodes w).map fun n => n.toBase64 E ++ "\n")

/-- The library writes an identity's base64 as one non-empty line that does not start with `#`. -/
def IdentityLib.LineSafe (lib : IdentityLib ι) : Prop :=
  ∀ x, '\n' ∉ (lib.toBase64 x).data ∧ isNodeLine (lib.toBase64 x).data = true

/-! ## Lines -/

theorem getlines_append_newline (cur l rest : List Char) (hl : '\n' ∉ l) :
    getlines cur (l ++ '\n' :: rest) = (cur.reverse ++ l) :: getlines [] rest := by
  induction l generalizing cur with
  | nil => simp [getlines]
  | cons c l ih =>
    have hc : c ≠ '\n' := fun h => hl (h ▸ List.mem_cons_self _ _)
    rw [List.cons_append, getlines, if_neg hc, ih (c :: cur) fun h => hl (List.mem_cons_of_mem _ h)]
    simp

theorem getlines_lines (ls : List (List Char)) (h : ∀ l ∈ ls, '\n' ∉ l) :
    getlines [] (ls.map (· ++ ['\n'])).flatten = ls := by
  induction ls with
  | nil => rfl
  | cons l ls ih =>
    rw [List.map_cons, List.flatten_cons, List.append_assoc, List.singleton_append,
      getlines_append_newline _ _ _ (h l (List.mem_cons_self _ _)), ih fun l hl => h l (List.mem_cons_of_mem _ hl)]
    rfl

theorem writeNodes_data (w : DHTworker ι) :
    (writeNodes E w).data =
      (("# Each line is one Base64-encoded I2P destination.".data ::
        "# Do not edit this file while pbote is running as it will be overwritten.".data :: [] ::
          (getAllNodes w).map fun n => (n.toBase64 E).data).map (· ++ ['\n'])).flatten := by
  simp only [writeNodes, nodesFileHeader, String.data_append, String.data_join, List.map_map, List.map_cons,
    List.flatten_cons]
  rfl

theorem readNodes_writeNodes (hs : E.lib.LineSafe) {w : DHTworker ι} (hd : ∀ n ∈ getAllNodes w, n.identity.isSome) :
    readNodes (some (writeNodes E w)) = (getAllNodes w).map (Node.toBase64 E) := by
  have hline : ∀ n ∈ getAllNodes w, '\n' ∉ (n.toBase64 E).data ∧ isNodeLine (n.toBase64 E).data = true := by
    intro n hn
    obtain ⟨x, hx⟩ := Option.isSome_iff_exists.mp (hd n hn)
    simpa [Node.toBase64, hx] using hs x
  rw [readNodes, writeNodes_data, getlines_lines]
  · simp only [List.filter_cons, isNodeLine, bne_self_eq_false, Bool.and_false, Bool.false_eq_true, if_false]
    simp only [List.filter_map, List.map_map, Function.comp_def]
    rw [List.filter_eq_self.mpr fun n hn => (hline n hn).2]
  · simp only [List.mem_cons, List.mem_map]
    rintro l (rfl | rfl | rfl | ⟨n, hn, rfl⟩)
    · decide
    · decide
    · decide
    · exact (hline n hn).1

/-! ## Loading -/

theorem loadLoop_of_nodup (m : StdMap Tag (Node ι)) {ns : List (Node ι)} (hn : (ns.map (Node.identHash E)).Nodup)
    (hd : ∀ n ∈ ns, n.identHash E ∉ m.keys) :
    (loadLoop E m ns).1.entries.Perm (ns.map (fun n => (n.identHash E, n)) ++ m.entries) ∧
      (loadLoop E m ns).2 = ns.length := by
  induction ns generalizing m with
  | nil => exact ⟨.refl _, rfl⟩
  | cons n ns ih =>
    rw [List.map_cons, List.nodup_cons] at hn
    obtain ⟨hp, hins⟩ := StdMap.insert_of_not_mem n (hd n (List.mem_cons_self _ _))
    have hd' : ∀ n' ∈ ns, n'.identHash E ∉ (m.insert (n.identHash E) n).1.keys := fun n' hn' hk => by
      rcases StdMap.mem_keys_insert.mp hk with he | hk
      · exact hn.1 (he ▸ List.mem_map_of_mem _ hn')
      · exact hd n' (List.mem_cons_of_mem _ hn') hk
    obtain ⟨hperm, hcount⟩ := ih _ hn.2 hd'
    simp only [loadLoop, hins, if_true, hcount, List.length_cons, and_true]
    exact hperm.trans ((List.Perm.append_left _ hp).trans List.perm_middle)

theorem loadNodes_writeNodes_entries (hl : E.lib.Lawful) (hs : E.lib.LineSafe) {w : DHTworker ι} (hw : TableInv E w.nodes)
    (hne : w.nodes.entries ≠ []) (w0 : DHTworker ι) (h0 : w0.nodes.entries = []) (bootstrap : List String) :
    (loadNodes E w0 (some (writeNodes E w)) bootstrap).1 = true ∧
      (loadNodes E w0 (some (writeNodes E w)) bootstrap).2.nodes.entries.Perm
        (w.nodes.entries.map fun p => (p.1, { identity := p.2.identity })) := by
  have hd : ∀ n ∈ getAllNodes w, n.identity.isSome := fun n hn => by
    obtain ⟨p, hp, rfl⟩ := List.mem_map.mp hn
    exact hw.decoded p.1 p.2 hp
  have hrec : (getAllNodes w).map (fun n => Node.ofBase64 E (n.toBase64 E)) =
      w.nodes.entries.map fun p => ({ identity := p.2.identity } : Node ι) := by
    simp only [getAllNodes, StdMap.values, List.map_map]
    refine List.map_congr_left fun p hp => ?_
    obtain ⟨x, hx⟩ := Option.isSome_iff_exists.mp (hw.decoded p.1 p.2 hp)
    simp [Node.toBase64, hx, Node.ofBase64_toBase64 E hl]
  have hkey : ∀ p ∈ w.nodes.entries, ({ identity := p.2.identity } : Node ι).identHash E = p.1 :=
    fun p hp => (hw.keyed p.1 p.2 hp).symm
  have hn : ((w.nodes.entries.map fun p => ({ identity := p.2.identity } : Node ι)).map (Node.identHash E)).Nodup := by
    have heq : (w.nodes.entries.map fun p => ({ identity := p.2.identity } : Node ι)).map (Node.identHash E) =
        w.nodes.keys := by
      rw [List.map_map]
      exact List.map_congr_left hkey
    rw [heq]
    exact w.nodes.nodup
  obtain ⟨hperm, hcount⟩ := loadLoop_of_nodup E w0.nodes hn fun n _ => by simp [StdMap.keys, h0]
  have hpos : (w.nodes.entries.map fun p => ({ identity := p.2.identity } : Node ι)).length ≠ 0 := by
    simpa [List.length_eq_zero] using hne
  simp only [loadNodes, readNodes_writeNodes E hs hd, List.map_map, Function.comp_def, hrec, hcount, hpos,
    ne_eq, not_false_eq_true, if_true, true_and]
  refine hperm.trans ?_
  rw [h0, List.append_nil, List.map_map]
  exact .of_eq (List.map_congr_left fun p hp => by simp [hkey p hp])

/-- What `writeNodes` writes from a table that keeps `TableInv`, `loadNodes` reads into an
empty table: it returns `true`, with every hash of the table under it and its identity, and
the loaded table keeps `TableInv`, which an arbitrary `nodes.txt` can break
(`loadNodes_breaks_tableInv`). -/
theorem loadNodes_writeNodes (hl : E.lib.Lawful) (hs : E.lib.LineSafe) {w : DHTworker ι} (hw : TableInv E w.nodes)
    (hne : w.nodes.entries ≠ []) (w0 : DHTworker ι) (h0 : w0.nodes.entries = []) (bootstrap : List String) :
    (loadNodes E w0 (some (writeNodes E w)) bootstrap).1 = true ∧
      (loadNodes E w0 (some (writeNodes E w)) bootstrap).2.nodes.entries.Perm
        (w.nodes.entries.map fun p => (p.1, { identity := p.2.identity })) ∧
      TableInv E (loadNodes E w0 (some (writeNodes E w)) bootstrap).2.nodes := by
  obtain ⟨hok, hperm⟩ := loadNodes_writeNodes_entries E hl hs hw hne w0 h0 bootstrap
  have hmem : ∀ h n, (h, n) ∈ (loadNodes E w0 (some (writeNodes E w)) bootstrap).2.nodes.entries →
      ∃ m, (h, m) ∈ w.nodes.entries ∧ n = { identity := m.identity } := fun h n hn => by
    obtain ⟨⟨h', m⟩, hm, he⟩ := List.mem_map.mp (hperm.mem_iff.mp hn)
    obtain ⟨rfl, rfl⟩ := Prod.mk.inj_iff.mp he
    exact ⟨m, hm, rfl⟩
  refine ⟨hok, hperm, fun h n hn => ?_, fun h n hn => ?_, fun h n hn => ?_⟩ <;>
    obtain ⟨m, hm, rfl⟩ := hmem h n hn
  · exact hw.keyed h m hm
  · exact hw.decoded h m hm
  · exact hw.notLocal h m hm

/-- A table of two sample nodes, written and loaded back. -/
theorem loadNodes_writeNodes_sample :
    (loadNodes ⟨sampleLib, 0⟩ .empty
        (some (writeNodes ⟨sampleLib, 0⟩ (addNode ⟨sampleLib, 0⟩ (addNode ⟨sampleLib, 0⟩ .empty (some 1)).2 (some 2)).2)) []).1 = true ∧
      (loadNodes ⟨sampleLib, 0⟩ .empty
        (some (writeNodes ⟨sampleLib, 0⟩ (addNode ⟨sampleLib, 0⟩ (addNode ⟨sampleLib, 0⟩ .empty (some 1)).2 (some 2)).2)) []).2.nodes.entries.Perm
        ((addNode ⟨sampleLib, 0⟩ (addNode ⟨sampleLib, 0⟩ .empty (some 1)).2 (some 2)).2.nodes.entries.map
          fun p => (p.1, { identity := p.2.identity })) ∧
      TableInv ⟨sampleLib, 0⟩ (loadNodes ⟨sampleLib, 0⟩ .empty
        (some (writeNodes ⟨sampleLib, 0⟩ (addNode ⟨sampleLib, 0⟩ (addNode ⟨sampleLib, 0⟩ .empty (some 1)).2 (some 2)).2)) []).2.nodes :=
  loadNodes_writeNodes _ sampleLib_lawful (by unfold IdentityLib.LineSafe; decide)
    (addNode_tableInv _ sampleLib_lawful (addNode_tableInv _ sampleLib_lawful (tableInv_empty _) 1) 2)
    (by decide) _ rfl []

/-- An empty table is written as the header alone: `loadNodes` loads no line and falls back to
`bootstrap.address`, so the loaded table holds a hash the written one did not. -/
theorem loadNodes_writeNodes_empty :
    (loadNodes ⟨sampleLib, 0⟩ .empty (some (writeNodes ⟨sampleLib, 0⟩ (.empty : DHTworker (Fin 4)))) ["N1"]).2.nodes.keys =
      [sampleLib.identHash 1] := by
  have hr : readNodes (some (writeNodes ⟨sampleLib, 0⟩ (.empty : DHTworker (Fin 4)))) = [] :=
    readNodes_writeNodes _ (by unfold IdentityLib.LineSafe; decide) fun _ h => by simp [getAllNodes, StdMap.values, DHTworker.empty] at h
  simp only [loadNodes, hr]
  decide

end Pbote.Kademlia
