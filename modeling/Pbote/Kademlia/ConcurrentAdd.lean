import Pbote.Kademlia.TableRuns

/-!
# Concurrent `addNode` calls

`addNode` takes `m_nodes_mutex_` twice: `findNode` checks the hash under the lock, the local
destination is compared without it, and the insert takes the lock again and returns
`insert(...).second`. Between the two sections any other thread may run, another `addNode`
on the same hash included. Each call is a thread whose check section and insert section are
separate steps, interleaved with one another and with any other operation of the node
(`CallStep`). A call run alone returns what `addNode` returns (`addNode_eq_sections`).

The insert's `.second` is `false` for a key already present and no operation removes a key,
so in every interleaving at most one call per hash returns `true`, and its hash stays in the
table (`CallsInv`).
-/

namespace Pbote.Kademlia

open Pbote.Packet Pbote.Packet.IncomingRequest

variable {ι : Type}

/-- Where an `addNode` call is: not yet checked, past both tests, or returned. -/
inductive CallPhase where
  | start
  | checked
  | done (result : Bool)
  deriving DecidableEq, Repr

/-- The node table and the phase of every call; call `i` adds `calls i`. -/
structure Calls (ι : Type) where
  worker : DHTworker ι
  phase : Nat → CallPhase

section Sections

variable (E : Env ι)

/-- The first section: `findNode` under the lock, then the local-destination test. -/
def checkSection (w : DHTworker ι) (x : ι) : CallPhase :=
  if (findNode w (E.lib.identHash x)).isSome then .done false
  else if E.lib.identHash E.localDestination = E.lib.identHash x then .done false
  else .checked

/-- The second section: `m_nodes_.insert(...)` under the lock; its `.second` is returned. -/
def insertSection (w : DHTworker ι) (x : ι) : Bool × DHTworker ι :=
  let node := Node.ofBase64 E (E.lib.base64Of (some x))
  let r := w.nodes.insert (node.identHash E) node
  (r.2, { w with nodes := r.1 })

theorem addNode_eq_sections (w : DHTworker ι) (x : ι) :
    addNode E w (some x) =
      match checkSection E w x with
      | .checked => insertSection E w x
      | .done b => (b, w)
      | .start => (false, w) := by
  unfold addNode checkSection
  rw [IdentityLib.hashOf_some]
  split_ifs <;> rfl

theorem insertSection_eq (hl : E.lib.Lawful) (w : DHTworker ι) (x : ι) :
    insertSection E w x =
      ((w.nodes.insert (E.lib.identHash x) { identity := some x }).2,
        { w with nodes := (w.nodes.insert (E.lib.identHash x) { identity := some x }).1 }) := by
  simp only [insertSection, IdentityLib.base64Of_some, Node.ofBase64_toBase64 E hl, Node.identHash_some]

end Sections

variable (R : Runtime ι) (T : Timeouts) (calls : Nat → ι)

/-- One step of the node: the check section or the insert section of a call, or any other
operation on the table. -/
inductive CallStep : Calls ι → Calls ι → Prop
  | check (c : Calls ι) (i : Nat) (h : c.phase i = .start) :
      CallStep c ⟨c.worker, Function.update c.phase i (checkSection R.env c.worker (calls i))⟩
  | insert (c : Calls ι) (i : Nat) (h : c.phase i = .checked) :
      CallStep c ⟨(insertSection R.env c.worker (calls i)).2,
        Function.update c.phase i (.done (insertSection R.env c.worker (calls i)).1)⟩
  | other (c : Calls ι) {w' : DHTworker ι} (h : TableOp R T c.worker w') : CallStep c ⟨w', c.phase⟩

/-- A call that returned `true` has its hash in the table, and no two such calls share a hash. -/
structure CallsInv (c : Calls ι) : Prop where
  mem : ∀ i, c.phase i = .done true → R.env.lib.identHash (calls i) ∈ c.worker.nodes.keys
  unique : ∀ i j, c.phase i = .done true → c.phase j = .done true →
    R.env.lib.identHash (calls i) = R.env.lib.identHash (calls j) → i = j

theorem callsInv_start (w : DHTworker ι) : CallsInv R calls ⟨w, fun _ => .start⟩ :=
  ⟨nofun, nofun⟩

theorem checkSection_ne_done_true (w : DHTworker ι) (x : ι) : checkSection R.env w x ≠ .done true := by
  unfold checkSection
  split_ifs <;> nofun

omit R calls in
theorem update_eq_done_true {f : Nat → CallPhase} {i j : Nat} {p : CallPhase} :
    Function.update f i p j = .done true ↔ (j = i ∧ p = .done true) ∨ (j ≠ i ∧ f j = .done true) := by
  rcases eq_or_ne j i with rfl | h <;> simp [Function.update_noteq, *]

theorem CallsInv.check {c : Calls ι} (hc : CallsInv R calls c) (i : Nat) :
    CallsInv R calls ⟨c.worker, Function.update c.phase i (checkSection R.env c.worker (calls i))⟩ := by
  have hold : ∀ j, Function.update c.phase i (checkSection R.env c.worker (calls i)) j = .done true →
      c.phase j = .done true := fun j hj =>
    (update_eq_done_true.mp hj).elim (fun h => absurd h.2 (checkSection_ne_done_true R _ _)) And.right
  exact ⟨fun j hj => hc.mem j (hold j hj), fun j k hj hk => hc.unique j k (hold j hj) (hold k hk)⟩

theorem CallsInv.insert (hl : R.env.lib.Lawful) {c : Calls ι} (hc : CallsInv R calls c) (i : Nat) :
    CallsInv R calls ⟨(insertSection R.env c.worker (calls i)).2,
      Function.update c.phase i (.done (insertSection R.env c.worker (calls i)).1)⟩ := by
  rw [insertSection_eq R.env hl]
  set m := c.worker.nodes.insert (R.env.lib.identHash (calls i)) { identity := some (calls i) }
  have hnew : m.2 = true → R.env.lib.identHash (calls i) ∉ c.worker.nodes.keys := by
    simp [m, StdMap.insert_snd, StdMap.contains]
  refine ⟨fun j hj => ?_, fun j k hj hk he => ?_⟩
  · rcases update_eq_done_true.mp hj with ⟨rfl, -⟩ | ⟨-, hj⟩
    · exact StdMap.mem_keys_insert.mpr (.inl rfl)
    · exact StdMap.mem_keys_insert.mpr (.inr (hc.mem j hj))
  · rcases update_eq_done_true.mp hj with ⟨rfl, hb⟩ | ⟨-, hj'⟩ <;>
      rcases update_eq_done_true.mp hk with ⟨rfl, hb'⟩ | ⟨-, hk'⟩
    · rfl
    · exact (hnew (CallPhase.done.inj hb) (he ▸ hc.mem k hk')).elim
    · exact (hnew (CallPhase.done.inj hb') (he ▸ hc.mem j hj')).elim
    · exact hc.unique j k hj' hk' he

theorem CallsInv.other {c : Calls ι} (hc : CallsInv R calls c) {w' : DHTworker ι} (h : TableOp R T c.worker w') :
    CallsInv R calls ⟨w', c.phase⟩ := by
  refine ⟨fun i hi => ?_, hc.unique⟩
  obtain ⟨v, hv⟩ := StdMap.mem_keys.mp (hc.mem i hi)
  exact StdMap.mem_keys.mpr ⟨v, h.entries_subset R T hv⟩

theorem CallStep.inv (hl : R.env.lib.Lawful) {c c' : Calls ι} (hs : CallStep R T calls c c')
    (hc : CallsInv R calls c) : CallsInv R calls c' := by
  cases hs with
  | check i _ => exact hc.check R calls i
  | insert i _ => exact hc.insert R calls hl i
  | other h => exact hc.other R T calls h

theorem callsInv_of_reachable (hl : R.env.lib.Lawful) {w : DHTworker ι} {c : Calls ι}
    (h : Relation.ReflTransGen (CallStep R T calls) ⟨w, fun _ => .start⟩ c) : CallsInv R calls c := by
  induction h with
  | refl => exact callsInv_start R calls w
  | tail _ hs ih => exact hs.inv R T calls hl ih

/-- `addNode`, given a base64 string, a byte buffer or a decoded identity, returns `true`
exactly when the identity decodes, is not the local destination and its hash is not in the
table, and then adds exactly that entry, which `findNode` returns from then on, whatever the
node does; `false` leaves the node as it was. In every interleaving of concurrent calls with
each other and with the node's other operations, no two calls whose identities share a hash
both return `true`. -/
theorem addNode_adds_once (hl : R.env.lib.Lawful) :
    (∀ w x, AddResult R.env w (some x) (addNode R.env w (some x))) ∧
    (∀ w s, AddResult R.env w (R.env.lib.fromBase64 s) (addNodeFromBase64 R.env w s)) ∧
    (∀ w buf, AddResult R.env w ((R.env.lib.fromBuffer buf).map Prod.fst) (addNodeFromBuffer R.env w buf)) ∧
    (∀ w x w', (addNode R.env w (some x)).1 = true →
      Relation.ReflTransGen (TableOp R T) (addNode R.env w (some x)).2 w' →
      findNode w' (R.env.lib.identHash x) = some { identity := some x }) ∧
    (∀ (calls : Nat → ι) (w : DHTworker ι) (c : Calls ι),
      Relation.ReflTransGen (CallStep R T calls) ⟨w, fun _ => .start⟩ c →
      ∀ i j, c.phase i = .done true → c.phase j = .done true →
        R.env.lib.identHash (calls i) = R.env.lib.identHash (calls j) → i = j) := by
  refine ⟨addNode_addResult R.env hl, addNodeFromBase64_addResult R.env hl,
    addNodeFromBuffer_addResult R.env hl, fun w x w' ht hrun => ?_,
    fun calls w c hc => (callsInv_of_reachable R T calls hl hc).unique⟩
  have hgain := ((addNode_addResult R.env hl w x).gains x rfl ht).1
  exact findNode_of_run R T hrun (StdMap.find?_eq_some.mpr (hgain.mem_iff.mpr (List.mem_cons_self _ _)))

/-- Two calls add `N1` to the empty sample table, both checked before either inserts: the
first insert returns `true`, the second `false`, and no interleaving lets both return `true`. -/
theorem addNode_adds_once_sample :
    let T : Timeouts := ⟨10, 10, by decide⟩
    sampleRuntime.env.lib.Lawful ∧
      (∃ c, Relation.ReflTransGen (CallStep sampleRuntime T fun _ => 1) ⟨.empty, fun _ => .start⟩ c ∧
        c.phase 0 = .done true ∧ c.phase 1 = .done false) ∧
      ∀ c, Relation.ReflTransGen (CallStep sampleRuntime T fun _ => 1) ⟨.empty, fun _ => .start⟩ c →
        ¬ (c.phase 0 = .done true ∧ c.phase 1 = .done true) := by
  intro T
  refine ⟨sampleLib_lawful, ⟨_, .tail (.tail (.tail (.tail .refl (.check _ 0 rfl)) (.check _ 1 rfl))
    (.insert _ 0 rfl)) (.insert _ 1 rfl), rfl, rfl⟩, fun c hc h => ?_⟩
  exact absurd ((addNode_adds_once sampleRuntime T sampleLib_lawful).2.2.2.2 _ _ c hc 0 1 h.1 h.2 rfl)
    (by decide)

end Pbote.Kademlia
