import Mathlib.Data.List.Sort
import Pbote.Kademlia.NodeTable

/-!
# `DHTworker::getClosestNodes`

The selection walks `m_nodes_` and keeps a `std::set<Sorted>` ordered by the XOR metric
`CreateRoutingKey(key) ^ hash`: an unlocked record goes in while the set holds fewer than
`num` elements, and otherwise only when its metric is below the set's largest, which it then
replaces; with `to_us`, a record farther from the key than the local node is skipped. The
first `num` elements of the set are returned.

Over a table that keeps `TableInv` the metrics are distinct (`candidates_nodup`), and for
`0 < num` the loop holds the `num` smallest candidates seen so far, in order
(`closestLoop_eq`). So the result is the `min(num, |candidates|)` candidates of smallest
metric, ascending (`getClosestNodes_smallest`). With `num = 0` the first candidate makes the
loop read the largest element of the empty set (`getClosestNodes_zero`).
-/

namespace Pbote.Kademlia

open Pbote.Wire

/-- `i2p::data::XORMetric` of two hashes, compared as 256-bit big-endian numbers. -/
def xorMetric (a b : Tag) : Nat := (a ^^^ b).toNat

/-- An element of the `std::set<Sorted>`: a record and its metric. -/
structure Sorted (ι : Type) where
  node : Node ι
  metric : Nat

variable {ι : Type}

def Sorted.le (a b : Sorted ι) : Prop := a.metric ≤ b.metric

instance : DecidableRel (@Sorted.le ι) := fun a b => Nat.decLe a.metric b.metric

instance : IsTotal (Sorted ι) Sorted.le := ⟨fun a b => Nat.le_total a.metric b.metric⟩

instance : IsTrans (Sorted ι) Sorted.le := ⟨fun _ _ _ => Nat.le_trans⟩

/-- `std::set<Sorted>::insert`, ascending by metric: an element whose metric the set already
holds is not inserted. -/
def setInsert (x : Sorted ι) : List (Sorted ι) → List (Sorted ι)
  | [] => [x]
  | y :: ys =>
    if x.metric < y.metric then x :: y :: ys
    else if y.metric < x.metric then y :: setInsert x ys
    else y :: ys

variable (E : Env ι)

/-- `ourMetric`: zero, or with `to_us` the local node's metric. -/
def ourMetricOf (destKey : Tag) (toUs : Bool) : Nat :=
  if toUs then xorMetric destKey (E.lib.identHash E.localDestination) else 0

/-- The loop over `m_nodes_`; `sorted.rbegin()` of an empty set is the end iterator. -/
def closestLoop (destKey : Tag) (ourMetric : Nat) (toUs : Bool) (num : Nat) :
    List (Sorted ι) → List (Tag × Node ι) → Except Fault (List (Sorted ι))
  | sorted, [] => .ok sorted
  | sorted, (_, n) :: rest =>
    let m := xorMetric destKey (n.identHash E)
    if n.locked then closestLoop destKey ourMetric toUs num sorted rest
    else if toUs ∧ ourMetric < m then closestLoop destKey ourMetric toUs num sorted rest
    else if sorted.length < num then closestLoop destKey ourMetric toUs num (setInsert ⟨n, m⟩ sorted) rest
    else match sorted.getLast? with
      | none => .error .endIterator
      | some last =>
        if m < last.metric then closestLoop destKey ourMetric toUs num (setInsert ⟨n, m⟩ sorted).dropLast rest
        else closestLoop destKey ourMetric toUs num sorted rest

/-- `DHTworker::getClosestNodes`, `routingKey` being `CreateRoutingKey` on the day of the call. -/
def getClosestNodes (routingKey : Tag → Tag) (w : DHTworker ι) (key : Tag) (num : Nat) (toUs : Bool) :
    Except Fault (List (Node ι)) :=
  let destKey := routingKey key
  (closestLoop E destKey (ourMetricOf E destKey toUs) toUs num [] w.nodes.entries).map fun sorted =>
    (sorted.take num).map (·.node)

def isCandidate (ourMetric : Nat) (toUs : Bool) (s : Sorted ι) : Bool :=
  !s.node.locked && !(toUs && decide (ourMetric < s.metric))

def candidates (destKey : Tag) (ourMetric : Nat) (toUs : Bool) (entries : List (Tag × Node ι)) :
    List (Sorted ι) :=
  (entries.map fun p => (⟨p.2, xorMetric destKey (p.2.identHash E)⟩ : Sorted ι)).filter (isCandidate ourMetric toUs)

/-! ## The set -/

omit E in
theorem xorMetric_injective (d : Tag) : Function.Injective (xorMetric d) := fun a b h => by
  have h' : d ^^^ a = d ^^^ b := BitVec.eq_of_toNat_eq h
  calc a = d ^^^ (d ^^^ a) := by rw [← BitVec.xor_assoc, BitVec.xor_self, BitVec.zero_xor]
    _ = d ^^^ (d ^^^ b) := by rw [h']
    _ = b := by rw [← BitVec.xor_assoc, BitVec.xor_self, BitVec.zero_xor]

omit E in
theorem setInsert_eq {x : Sorted ι} {l : List (Sorted ι)} (h : ∀ y ∈ l, y.metric ≠ x.metric) :
    setInsert x l = l.orderedInsert Sorted.le x := by
  induction l with
  | nil => rfl
  | cons y ys ih =>
    have hy := h y (List.mem_cons_self _ _)
    simp only [setInsert, List.orderedInsert, Sorted.le]
    by_cases hxy : x.metric < y.metric
    · rw [if_pos hxy, if_pos hxy.le]
    · rw [if_neg hxy, if_pos (by omega), if_neg (by omega), ih fun z hz => h z (List.mem_cons_of_mem _ hz)]

omit E in
theorem take_orderedInsert (x : Sorted ι) (l : List (Sorted ι)) (k : Nat) :
    (l.orderedInsert Sorted.le x).take k = ((l.take k).orderedInsert Sorted.le x).take k := by
  induction l generalizing k with
  | nil => rw [List.take_nil]
  | cons y ys ih =>
    cases k with
    | zero => rfl
    | succ k =>
      simp only [List.take_succ_cons, List.orderedInsert]
      split
      · cases k <;> simp [List.take_take]
      · simp [ih]

omit E in
theorem orderedInsert_of_lt {x : Sorted ι} {l : List (Sorted ι)} (h : ∀ y ∈ l, y.metric < x.metric) :
    l.orderedInsert Sorted.le x = l ++ [x] := by
  induction l with
  | nil => rfl
  | cons y ys ih =>
    have hy := h y (List.mem_cons_self _ _)
    simp only [List.orderedInsert, Sorted.le, if_neg (show ¬x.metric ≤ y.metric by omega), List.cons_append,
      ih fun z hz => h z (List.mem_cons_of_mem _ hz)]

/-! ## One candidate -/

section Step

variable {x : Sorted ι} {P : List (Sorted ι)} {num : Nat}

omit E

theorem metric_ne_of_mem_take (hx : x.metric ∉ P.map (·.metric)) :
    ∀ y ∈ (P.insertionSort Sorted.le).take num, y.metric ≠ x.metric := fun _ hy he =>
  hx (he ▸ List.mem_map_of_mem _ ((List.perm_insertionSort _ P).subset (List.mem_of_mem_take hy)))

theorem take_insertionSort_of_short (hx : x.metric ∉ P.map (·.metric))
    (hlen : ((P.insertionSort Sorted.le).take num).length < num) :
    setInsert x ((P.insertionSort Sorted.le).take num) = ((x :: P).insertionSort Sorted.le).take num := by
  have h : (((P.insertionSort Sorted.le).take num).orderedInsert Sorted.le x).length ≤ num := by
    rw [List.orderedInsert_length]
    omega
  rw [setInsert_eq (metric_ne_of_mem_take hx), List.insertionSort, take_orderedInsert, List.take_of_length_le h]

theorem take_insertionSort_of_below (hx : x.metric ∉ P.map (·.metric))
    (hlen : ¬((P.insertionSort Sorted.le).take num).length < num) :
    (setInsert x ((P.insertionSort Sorted.le).take num)).dropLast = ((x :: P).insertionSort Sorted.le).take num := by
  have hl : ((P.insertionSort Sorted.le).take num).length = num := by
    have := List.length_take_le num (P.insertionSort Sorted.le)
    omega
  rw [setInsert_eq (metric_ne_of_mem_take hx), List.insertionSort, take_orderedInsert, List.dropLast_eq_take,
    List.orderedInsert_length, hl, Nat.add_sub_cancel]

theorem take_insertionSort_of_above (hx : x.metric ∉ P.map (·.metric))
    (hlen : ¬((P.insertionSort Sorted.le).take num).length < num) {last : Sorted ι}
    (hlast : ((P.insertionSort Sorted.le).take num).getLast? = some last) (hm : ¬x.metric < last.metric) :
    (P.insertionSort Sorted.le).take num = ((x :: P).insertionSort Sorted.le).take num := by
  have hs : ((P.insertionSort Sorted.le).take num).Sorted Sorted.le :=
    (List.sorted_insertionSort _ P).sublist (List.take_sublist _ _)
  have hne : ∀ y ∈ (P.insertionSort Sorted.le).take num, y.metric ≠ x.metric := metric_ne_of_mem_take hx
  have hlt : ∀ y ∈ (P.insertionSort Sorted.le).take num, y.metric < x.metric := by
    intro y hy
    have hyl : y.metric ≤ last.metric := by
      obtain ⟨pre, hpre⟩ := List.getLast?_eq_some_iff.mp hlast
      rw [hpre] at hs hy
      rcases List.mem_append.mp hy with hy | hy
      · exact (List.pairwise_append.mp hs).2.2 y hy last (List.mem_singleton_self _)
      · rw [List.mem_singleton.mp hy]
    have h1 := hne last (List.mem_of_getLast?_eq_some hlast)
    have h2 := hne y hy
    omega
  have hl : ((P.insertionSort Sorted.le).take num).length = num := by
    have := List.length_take_le num (P.insertionSort Sorted.le)
    omega
  rw [List.insertionSort, take_orderedInsert, orderedInsert_of_lt hlt, List.take_append_of_le_length (by omega),
    List.take_take, min_self]

end Step

/-! ## The loop -/

omit E in
theorem isCandidate_iff {ourMetric : Nat} {toUs : Bool} {n : Node ι} {m : Nat} :
    isCandidate ourMetric toUs ⟨n, m⟩ = true ↔ ¬n.locked = true ∧ ¬(toUs = true ∧ ourMetric < m) := by
  unfold isCandidate
  cases n.locked <;> cases toUs <;> simp

section Loop

variable {destKey : Tag} {ourMetric : Nat} {toUs : Bool} {k : Tag} {n : Node ι} {rest : List (Tag × Node ι)}

theorem candidates_cons :
    candidates E destKey ourMetric toUs ((k, n) :: rest) =
      if isCandidate ourMetric toUs ⟨n, xorMetric destKey (n.identHash E)⟩ then
        ⟨n, xorMetric destKey (n.identHash E)⟩ :: candidates E destKey ourMetric toUs rest
      else candidates E destKey ourMetric toUs rest := by
  simp only [candidates, List.map_cons, List.filter_cons]

theorem closestLoop_skip {num : Nat} {sorted : List (Sorted ι)}
    (hc : ¬isCandidate ourMetric toUs ⟨n, xorMetric destKey (n.identHash E)⟩ = true) :
    closestLoop E destKey ourMetric toUs num sorted ((k, n) :: rest) =
      closestLoop E destKey ourMetric toUs num sorted rest := by
  rw [isCandidate_iff, not_and_or, not_not, not_not] at hc
  by_cases hl : n.locked = true
  · simp only [closestLoop, if_pos hl]
  · simp only [closestLoop, if_neg hl, if_pos (hc.resolve_left hl)]

end Loop

theorem closestLoop_eq (destKey : Tag) (ourMetric : Nat) (toUs : Bool) {num : Nat} (hnum : 0 < num) :
    ∀ (rest : List (Tag × Node ι)) (P : List (Sorted ι)),
      ((candidates E destKey ourMetric toUs rest ++ P).map (·.metric)).Nodup →
      closestLoop E destKey ourMetric toUs num ((P.insertionSort Sorted.le).take num) rest =
        .ok ((((candidates E destKey ourMetric toUs rest).reverse ++ P).insertionSort Sorted.le).take num)
  | [], P, _ => rfl
  | (k, n) :: rest, P, hnd => by
    have ih := closestLoop_eq destKey ourMetric toUs hnum rest
    by_cases hc : isCandidate ourMetric toUs ⟨n, xorMetric destKey (n.identHash E)⟩
    · rw [candidates_cons, if_pos hc, List.cons_append, List.map_cons, List.nodup_cons] at hnd
      rw [candidates_cons, if_pos hc, List.reverse_cons, List.append_assoc, List.singleton_append]
      have hx : (⟨n, xorMetric destKey (n.identHash E)⟩ : Sorted ι).metric ∉ P.map (·.metric) := fun h =>
        hnd.1 (by rw [List.map_append]; exact List.mem_append_right _ h)
      have ih' := ih (⟨n, xorMetric destKey (n.identHash E)⟩ :: P)
        ((List.perm_middle.map _).nodup_iff.mpr (by rw [List.map_cons, List.nodup_cons]; exact hnd))
      obtain ⟨hl, ht⟩ := isCandidate_iff.mp hc
      simp only [closestLoop, if_neg hl, if_neg ht]
      split
      · rw [take_insertionSort_of_short hx ‹_›, ih']
      · rename_i hlen
        split
        · next _ hnil =>
          rw [List.getLast?_eq_none_iff.mp hnil, List.length_nil] at hlen
          omega
        · next _ last hlast =>
          split
          · rw [take_insertionSort_of_below hx hlen, ih']
          · rw [take_insertionSort_of_above hx hlen hlast ‹_›, ih']
    · rw [candidates_cons, if_neg hc] at hnd ⊢
      rw [closestLoop_skip E hc, ih P hnd]

theorem closestLoop_zero (destKey : Tag) (ourMetric : Nat) (toUs : Bool) :
    ∀ rest : List (Tag × Node ι), candidates E destKey ourMetric toUs rest ≠ [] →
      closestLoop E destKey ourMetric toUs 0 [] rest = .error .endIterator
  | [], h => absurd rfl h
  | (k, n) :: rest, h => by
    by_cases hc : isCandidate ourMetric toUs ⟨n, xorMetric destKey (n.identHash E)⟩
    · obtain ⟨hl, ht⟩ := isCandidate_iff.mp hc
      simp only [closestLoop, if_neg hl, if_neg ht]
      rfl
    · rw [candidates_cons, if_neg hc] at h
      rw [closestLoop_skip E hc, closestLoop_zero destKey ourMetric toUs rest h]

theorem closestLoop_of_nil (destKey : Tag) (ourMetric : Nat) (toUs : Bool) (num : Nat) :
    ∀ (rest : List (Tag × Node ι)) (sorted : List (Sorted ι)), candidates E destKey ourMetric toUs rest = [] →
      closestLoop E destKey ourMetric toUs num sorted rest = .ok sorted
  | [], _, _ => rfl
  | (k, n) :: rest, sorted, h => by
    by_cases hc : isCandidate ourMetric toUs ⟨n, xorMetric destKey (n.identHash E)⟩
    · rw [candidates_cons, if_pos hc] at h
      cases h
    · rw [candidates_cons, if_neg hc] at h
      rw [closestLoop_skip E hc, closestLoop_of_nil destKey ourMetric toUs num rest sorted h]

/-! ## The result -/

theorem candidates_nodup {w : DHTworker ι} (hw : TableInv E w.nodes) (destKey : Tag) (ourMetric : Nat) (toUs : Bool) :
    ((candidates E destKey ourMetric toUs w.nodes.entries).map (·.metric)).Nodup := by
  have hmap : (w.nodes.entries.map fun p => (⟨p.2, xorMetric destKey (p.2.identHash E)⟩ : Sorted ι)).map (·.metric) =
      w.nodes.keys.map (xorMetric destKey) := by
    simp only [List.map_map, StdMap.keys]
    exact List.map_congr_left fun p hp => by simp [hw.keyed p.1 p.2 hp]
  have hall : ((w.nodes.entries.map fun p => (⟨p.2, xorMetric destKey (p.2.identHash E)⟩ : Sorted ι)).map
      (·.metric)).Nodup := by
    rw [hmap]
    exact w.nodes.nodup.map (xorMetric_injective destKey)
  exact hall.sublist ((List.filter_sublist _).map _)

theorem getClosestNodes_smallest (routingKey : Tag → Tag) {w : DHTworker ι} (hw : TableInv E w.nodes) (key : Tag)
    {num : Nat} (hnum : 0 < num) (toUs : Bool) :
    ∃ sel : List (Sorted ι), getClosestNodes E routingKey w key num toUs = .ok (sel.map (·.node)) ∧
      sel.Pairwise (fun a b => a.metric < b.metric) ∧
      (∀ s ∈ sel, s ∈ candidates E (routingKey key) (ourMetricOf E (routingKey key) toUs) toUs w.nodes.entries) ∧
      sel.length = min num (candidates E (routingKey key) (ourMetricOf E (routingKey key) toUs) toUs w.nodes.entries).length ∧
      ∀ c ∈ candidates E (routingKey key) (ourMetricOf E (routingKey key) toUs) toUs w.nodes.entries, c ∉ sel →
        ∀ s ∈ sel, s.metric < c.metric := by
  set C := candidates E (routingKey key) (ourMetricOf E (routingKey key) toUs) toUs w.nodes.entries
  have hnd := candidates_nodup E hw (routingKey key) (ourMetricOf E (routingKey key) toUs) toUs
  have hloop := closestLoop_eq E (routingKey key) (ourMetricOf E (routingKey key) toUs) toUs hnum w.nodes.entries []
    (by rw [List.append_nil]; exact hnd)
  rw [List.append_nil, List.insertionSort, List.take_nil] at hloop
  have hperm : (C.reverse.insertionSort Sorted.le).Perm C := (List.perm_insertionSort _ _).trans (List.reverse_perm C)
  have hstrict : (C.reverse.insertionSort Sorted.le).Pairwise (fun a b => a.metric < b.metric) :=
    ((List.sorted_insertionSort _ _).and (List.pairwise_map.mp ((hperm.map _).nodup_iff.mpr hnd))).imp
      fun h => Nat.lt_of_le_of_ne h.1 h.2
  refine ⟨(C.reverse.insertionSort Sorted.le).take num, ?_, hstrict.sublist (List.take_sublist _ _),
    fun s hs => hperm.subset (List.mem_of_mem_take hs), ?_, fun c hc hns s hs => ?_⟩
  · simp only [getClosestNodes, hloop, Except.map, List.take_take, min_self]
  · rw [List.length_take, List.length_insertionSort, List.length_reverse]
  · rw [← List.take_append_drop num (C.reverse.insertionSort Sorted.le)] at hstrict
    have hcd : c ∈ (C.reverse.insertionSort Sorted.le).drop num := by
      have := hperm.symm.subset hc
      rw [← List.take_append_drop num (C.reverse.insertionSort Sorted.le)] at this
      exact (List.mem_append.mp this).resolve_left hns
    exact (List.pairwise_append.mp hstrict).2.2 s hs c hcd

theorem getClosestNodes_zero (routingKey : Tag → Tag) (w : DHTworker ι) (key : Tag) (toUs : Bool)
    (h : candidates E (routingKey key) (ourMetricOf E (routingKey key) toUs) toUs w.nodes.entries ≠ []) :
    getClosestNodes E routingKey w key 0 toUs = .error .endIterator := by
  simp only [getClosestNodes, closestLoop_zero E _ _ _ _ h]
  rfl

/-- `getClosestNodes` over a table that keeps `TableInv`: for `0 < num`, the `min(num, |C|)`
candidates of smallest metric, in ascending order; for `num = 0`, nothing over a table without
a candidate, and otherwise a read of `sorted.rbegin()` on the empty set. -/
theorem getClosestNodes_spec (routingKey : Tag → Tag) {w : DHTworker ι} (hw : TableInv E w.nodes) (key : Tag)
    (num : Nat) (toUs : Bool) :
    let C := candidates E (routingKey key) (ourMetricOf E (routingKey key) toUs) toUs w.nodes.entries
    (0 < num → ∃ sel : List (Sorted ι), getClosestNodes E routingKey w key num toUs = .ok (sel.map (·.node)) ∧
      sel.Pairwise (fun a b => a.metric < b.metric) ∧ (∀ s ∈ sel, s ∈ C) ∧ sel.length = min num C.length ∧
      ∀ c ∈ C, c ∉ sel → ∀ s ∈ sel, s.metric < c.metric) ∧
    (num = 0 → getClosestNodes E routingKey w key num toUs = if C.isEmpty then .ok [] else .error .endIterator) := by
  intro C
  refine ⟨fun h => getClosestNodes_smallest E routingKey hw key h toUs, fun h0 => ?_⟩
  subst h0
  by_cases hC : C.isEmpty
  · rw [if_pos hC]
    simp only [getClosestNodes, closestLoop_of_nil E _ _ _ _ _ [] (List.isEmpty_iff.mp hC), Except.map,
      List.take_nil, List.map_nil]
  · rw [if_neg hC]
    exact getClosestNodes_zero E routingKey w key toUs fun he => hC (List.isEmpty_iff.mpr he)

/-- A table of one unlocked node and `num = 0`: the loop reads the largest element of the
empty set. -/
theorem getClosestNodes_zero_one_node :
    getClosestNodes ⟨sampleLib, 0⟩ id (addNode ⟨sampleLib, 0⟩ .empty (some 1)).2 0 0 false = .error .endIterator := by
  rw [(getClosestNodes_spec ⟨sampleLib, 0⟩ id (addNode_tableInv ⟨sampleLib, 0⟩ sampleLib_lawful (tableInv_empty _) 1)
    0 0 false).2 rfl]
  rfl

end Pbote.Kademlia
