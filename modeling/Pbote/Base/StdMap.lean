import Mathlib.Data.List.Nodup
import Mathlib.Data.List.Perm.Basic

/-!
# `std::map` as a key-unique association list

The node table, the pending requests of a lookup, the check tasks of the email worker and
the packets a check round collects are all `std::map`s. Their entries are kept in ascending
key order and `insert` leaves a present key's entry untouched. The proofs only use that the
order decides where a new entry goes, so `insert` is stated for any `KeyLess`; key
uniqueness is carried by the structure.
-/

namespace Pbote

/-- The `operator<` a `std::map` orders its keys by. -/
class KeyLess (κ : Type) where
  lt : κ → κ → Bool

/-- Lexicographic `operator<` of a sequence, as `std::vector` and `std::string` compare. -/
def lexLess {α : Type} [DecidableEq α] (lt : α → α → Bool) : List α → List α → Bool
  | _, [] => false
  | [], _ :: _ => true
  | a :: as, b :: bs => lt a b || (a = b && lexLess lt as bs)

instance : KeyLess (BitVec 256) := ⟨fun a b => a.toNat < b.toNat⟩
instance : KeyLess (List UInt8) := ⟨lexLess fun a b => a.toNat < b.toNat⟩
instance : KeyLess String := ⟨fun a b => lexLess (fun c d => c.toNat < d.toNat) a.data b.data⟩

/-- A `std::map<κ, α>`: its entries, at most one per key. -/
structure StdMap (κ α : Type) where
  entries : List (κ × α)
  nodup : (entries.map Prod.fst).Nodup

namespace StdMap

variable {κ α : Type}

def empty : StdMap κ α := ⟨[], List.nodup_nil⟩

def keys (m : StdMap κ α) : List κ := m.entries.map Prod.fst

def values (m : StdMap κ α) : List α := m.entries.map Prod.snd

@[simp] theorem entries_empty : (empty : StdMap κ α).entries = [] := rfl

@[simp] theorem keys_empty : (empty : StdMap κ α).keys = [] := rfl

theorem eq_empty {m : StdMap κ α} (h : m.entries = []) : m = empty := by
  obtain ⟨e, hn⟩ := m
  subst h
  rfl

theorem mem_keys {m : StdMap κ α} {k : κ} : k ∈ m.keys ↔ ∃ v, (k, v) ∈ m.entries := by
  simp [keys]

theorem eq_of_mem {m : StdMap κ α} {k : κ} {v v' : α} (h : (k, v) ∈ m.entries)
    (h' : (k, v') ∈ m.entries) : v = v' := by
  simpa using List.inj_on_of_nodup_map m.nodup h h' rfl

def Keyed (f : α → κ) (m : StdMap κ α) : Prop := ∀ k v, (k, v) ∈ m.entries → f v = k

theorem keyed_empty (f : α → κ) : Keyed f (empty : StdMap κ α) := fun _ _ h => nomatch h

theorem Keyed.values_nodup {f : α → κ} {m : StdMap κ α} (h : Keyed f m) : (m.values.map f).Nodup := by
  have : m.values.map f = m.keys := by
    simp only [values, keys, List.map_map]
    exact List.map_congr_left fun p hp => h p.1 p.2 hp
  exact this ▸ m.nodup

section Lookup

variable [DecidableEq κ]

/-- `m.find(k) != m.end()`. -/
def contains (m : StdMap κ α) (k : κ) : Bool := decide (k ∈ m.keys)

/-- `m.find(k)->second`, with `none` for `end()`. -/
def find? (m : StdMap κ α) (k : κ) : Option α := (m.entries.find? (·.1 = k)).map Prod.snd

/-- `m.erase(k)`. -/
def erase (k : κ) (m : StdMap κ α) : StdMap κ α :=
  ⟨m.entries.filter (·.1 ≠ k), by
    have := m.nodup.filter (fun x => decide (x ≠ k))
    rwa [List.filter_map] at this⟩

@[simp] theorem contains_iff {m : StdMap κ α} {k : κ} : m.contains k = true ↔ k ∈ m.keys := by
  simp [contains]

theorem find?_eq_some {m : StdMap κ α} {k : κ} {v : α} : m.find? k = some v ↔ (k, v) ∈ m.entries := by
  constructor
  · intro h
    obtain ⟨⟨k', v'⟩, hf, rfl⟩ := Option.map_eq_some'.mp h
    obtain rfl : k' = k := by simpa using List.find?_some hf
    exact List.mem_of_find?_eq_some hf
  · intro h
    have hne : m.entries.find? (fun q => decide (q.1 = k)) ≠ none := by
      rw [Ne, List.find?_eq_none]
      exact fun hn => hn _ h (by simp)
    obtain ⟨q, hq⟩ := Option.ne_none_iff_exists'.mp hne
    obtain rfl : q.1 = k := by simpa using List.find?_some hq
    rw [find?, hq, eq_of_mem h (List.mem_of_find?_eq_some hq)]
    rfl

theorem find?_eq_none {m : StdMap κ α} {k : κ} : m.find? k = none ↔ k ∉ m.keys := by
  simp only [find?, Option.map_eq_none', List.find?_eq_none, decide_eq_true_eq, mem_keys, not_exists]
  exact ⟨fun h v hv => h _ hv rfl, fun h q hq hk => h q.2 (hk ▸ hq)⟩

@[simp] theorem mem_erase {m : StdMap κ α} {k : κ} {p : κ × α} :
    p ∈ (m.erase k).entries ↔ p ∈ m.entries ∧ p.1 ≠ k := by
  simp [erase]

theorem mem_keys_erase {m : StdMap κ α} {k j : κ} : j ∈ (m.erase k).keys ↔ j ∈ m.keys ∧ j ≠ k := by
  simp only [mem_keys, mem_erase]
  aesop

theorem erase_head {m : StdMap κ α} {k : κ} {v : α} {rest : List (κ × α)} (h : m.entries = (k, v) :: rest) :
    (m.erase k).entries = rest := by
  have hn := m.nodup
  rw [h, List.map_cons, List.nodup_cons] at hn
  dsimp only at hn
  simp only [erase, h, List.filter_cons, ne_eq, not_true_eq_false, decide_False, Bool.false_eq_true, if_false]
  exact List.filter_eq_self.mpr fun p hp => decide_eq_true fun hk => hn.1 (hk ▸ List.mem_map_of_mem Prod.fst hp)

end Lookup

section Insert

variable [KeyLess κ]

def insertList (k : κ) (v : α) : List (κ × α) → List (κ × α)
  | [] => [(k, v)]
  | (k', v') :: l => if KeyLess.lt k k' then (k, v) :: (k', v') :: l else (k', v') :: insertList k v l

theorem insertList_perm (k : κ) (v : α) (l : List (κ × α)) : (insertList k v l).Perm ((k, v) :: l) := by
  induction l with
  | nil => exact .refl _
  | cons q l ih =>
    unfold insertList
    split
    · exact .refl _
    · exact (List.Perm.cons q ih).trans (.swap _ _ _)

variable [DecidableEq κ]

/-- `m.insert({k, v})`; the `Bool` is the `.second` of the returned pair. -/
def insert (k : κ) (v : α) (m : StdMap κ α) : StdMap κ α × Bool :=
  if hk : k ∈ m.keys then (m, false)
  else (⟨insertList k v m.entries, ((insertList_perm k v _).map Prod.fst).nodup_iff.mpr
    (List.nodup_cons.mpr ⟨hk, m.nodup⟩)⟩, true)

theorem insert_snd {m : StdMap κ α} {k : κ} {v : α} : (m.insert k v).2 = !m.contains k := by
  unfold insert contains
  split <;> simp_all

theorem insert_of_mem {m : StdMap κ α} {k : κ} {v : α} (hk : k ∈ m.keys) : m.insert k v = (m, false) :=
  dif_pos hk

theorem insert_of_not_mem {m : StdMap κ α} {k : κ} (v : α) (hk : k ∉ m.keys) :
    (m.insert k v).1.entries.Perm ((k, v) :: m.entries) ∧ (m.insert k v).2 = true := by
  unfold insert
  rw [dif_neg hk]
  exact ⟨insertList_perm k v _, rfl⟩

theorem mem_insert {m : StdMap κ α} {k : κ} {v : α} {p : κ × α} :
    p ∈ (m.insert k v).1.entries ↔ p ∈ m.entries ∨ (p = (k, v) ∧ k ∉ m.keys) := by
  unfold insert
  split
  · simp_all
  · rename_i hk
    simp only [(insertList_perm k v _).mem_iff, List.mem_cons, hk, not_false_eq_true, and_true]
    exact or_comm

theorem mem_keys_insert {m : StdMap κ α} {k j : κ} {v : α} :
    j ∈ (m.insert k v).1.keys ↔ j = k ∨ j ∈ m.keys := by
  unfold insert
  split
  · exact ⟨.inr, by rintro (rfl | h) <;> assumption⟩
  · simp only [keys, ((insertList_perm k v _).map Prod.fst).mem_iff, List.map_cons, List.mem_cons]

theorem mem_values_insert {m : StdMap κ α} {k : κ} {v w : α} :
    w ∈ (m.insert k v).1.values → w ∈ m.values ∨ w = v := by
  simp only [values, List.mem_map]
  rintro ⟨p, hp, rfl⟩
  rcases mem_insert.mp hp with hp | ⟨rfl, -⟩
  · exact .inl ⟨p, hp, rfl⟩
  · exact .inr rfl

theorem Keyed.insert {f : α → κ} {m : StdMap κ α} (h : Keyed f m) (v : α) : Keyed f (m.insert (f v) v).1 :=
  fun k v' hm => (mem_insert.mp hm).elim (h k v') fun ⟨he, _⟩ => by cases he; rfl

end Insert

end StdMap

end Pbote
