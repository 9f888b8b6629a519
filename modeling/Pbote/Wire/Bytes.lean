import Mathlib.Data.List.Basic

/-!
# Byte buffers and the reads the parsers make

A payload is a `std::vector<uint8_t>`, here a `List UInt8`. The handlers and response
parsers copy fields out of it with `std::memcpy` at fixed offsets. A copy is modelled as
a read that ends in `Fault.pastEnd` when it would leave the buffer: that outcome is the
undefined behaviour of the C++ read, not an error the code reports. Integers on the wire
are big-endian (`ntohs`); the one field copied in host order is read through `ByteOrder`.
-/

namespace Pbote.Wire

/-- A read that leaves the program's defined behaviour. -/
inductive Fault where
  /-- `memcpy` of `len` bytes at `offset` out of a buffer of `size` bytes. -/
  | pastEnd (offset len size : Nat)
  /-- `it->first` on the `end()` iterator of a map lookup that missed. -/
  | endIterator
  /-- `it->first` of a map element after `erase` destroyed it. -/
  | erasedElement
  deriving DecidableEq, Repr

/-- The bytes a `std::string` holds for a text: its UTF-8 encoding. -/
def utf8 (s : String) : List UInt8 := s.toUTF8.data.toList

/-- `std::memcpy(dst, buf.data() + offset, len)`. -/
def copyBytes (buf : List UInt8) (offset len : Nat) : Except Fault (List UInt8) :=
  if offset + len ≤ buf.length then .ok ((buf.drop offset).take len)
  else .error (.pastEnd offset len buf.length)

/-- A one-byte `memcpy` into a `uint8_t`. -/
def readU8 (buf : List UInt8) (offset : Nat) : Except Fault UInt8 :=
  (copyBytes buf offset 1).map (·.getD 0 0)

/-- Value of a `uint16_t` whose first byte in memory is `b0`, on a host of the given order. -/
inductive ByteOrder where
  | bigEndian
  | littleEndian
  deriving DecidableEq, Repr

def ByteOrder.value : ByteOrder → UInt8 → UInt8 → Nat
  | .bigEndian, b0, b1 => b0.toNat * 256 + b1.toNat
  | .littleEndian, b0, b1 => b1.toNat * 256 + b0.toNat

/-- A two-byte `memcpy` into a `uint16_t` followed by `ntohs`. -/
def readU16BE (buf : List UInt8) (offset : Nat) : Except Fault Nat :=
  (copyBytes buf offset 2).map fun b => ByteOrder.bigEndian.value (b.getD 0 0) (b.getD 1 0)

/-- A two-byte `memcpy` into a `uint16_t` with no `ntohs`: the host's own order. -/
def readU16Host (host : ByteOrder) (buf : List UInt8) (offset : Nat) : Except Fault Nat :=
  (copyBytes buf offset 2).map fun b => host.value (b.getD 0 0) (b.getD 1 0)

/-- `htons` of a `uint16_t`, as the two bytes written to the wire. -/
def be16 (n : UInt16) : List UInt8 :=
  [(n.toNat / 256).toUInt8, n.toNat.toUInt8]

/-- `htonl` of a `uint32_t`, as the four bytes written to the wire. -/
def be32 (n : UInt32) : List UInt8 :=
  [(n.toNat / 16777216).toUInt8, (n.toNat / 65536).toUInt8, (n.toNat / 256).toUInt8, n.toNat.toUInt8]

/-- A `size_t` stored into a `uint16_t` field. -/
def toU16 (n : Nat) : UInt16 := UInt16.ofNat n

@[simp] theorem toU16_toNat (n : Nat) : (toU16 n).toNat = n % 65536 := by
  simp [toU16, UInt16.toNat, UInt16.ofNat, BitVec.toNat_ofNat]

@[simp] theorem toUInt8_toNat (n : Nat) : n.toUInt8.toNat = n % 256 := by
  simp [Nat.toUInt8, UInt8.toNat, UInt8.ofNat, BitVec.toNat_ofNat]

theorem bind_eq_ok {ε α β : Type} {x : Except ε α} {f : α → Except ε β} {b : β} :
    x >>= f = .ok b ↔ ∃ a, x = .ok a ∧ f a = .ok b := by
  cases x <;> simp [bind, Except.bind]

theorem map_eq_ok {ε α β : Type} {x : Except ε α} {f : α → β} {b : β} :
    x.map f = .ok b ↔ ∃ a, x = .ok a ∧ f a = b := by
  cases x <;> simp [Except.map]

@[simp] theorem copyBytes_of_le {buf : List UInt8} {offset len : Nat} (h : offset + len ≤ buf.length) :
    copyBytes buf offset len = .ok ((buf.drop offset).take len) := if_pos h

@[simp] theorem copyBytes_of_lt {buf : List UInt8} {offset len : Nat} (h : buf.length < offset + len) :
    copyBytes buf offset len = .error (.pastEnd offset len buf.length) := if_neg (by omega)

theorem copyBytes_middle (pre mid post : List UInt8) :
    copyBytes (pre ++ mid ++ post) pre.length mid.length = .ok mid := by
  rw [copyBytes_of_le (by simp)]
  simp [List.append_assoc]

theorem readU16BE_be16 (pre rest : List UInt8) (n : UInt16) :
    readU16BE (pre ++ be16 n ++ rest) pre.length = .ok n.toNat := by
  have hn : n.toNat < 65536 := n.toNat_lt_size
  simp only [readU16BE, List.append_assoc]
  rw [copyBytes_of_le (by simp [be16])]
  simp [be16, ByteOrder.value, List.drop_append_of_le_length, Except.map]
  omega

theorem readU16Host_be16 (host : ByteOrder) (pre rest : List UInt8) (n : UInt16) :
    readU16Host host (pre ++ be16 n ++ rest) pre.length =
      .ok (match host with
        | .bigEndian => n.toNat
        | .littleEndian => n.toNat % 256 * 256 + n.toNat / 256) := by
  have hn : n.toNat < 65536 := n.toNat_lt_size
  simp only [readU16Host, List.append_assoc]
  rw [copyBytes_of_le (by simp [be16])]
  cases host <;> simp [be16, ByteOrder.value, List.drop_append_of_le_length, Except.map] <;> omega

theorem readU8_eq_ok {buf : List UInt8} {offset : Nat} {b : UInt8} :
    readU8 buf offset = .ok b ↔ buf[offset]? = some b := by
  unfold readU8 copyBytes
  split
  · rename_i h
    simp only [Except.map, Except.ok.injEq, List.getD_eq_getElem?_getD, List.getElem?_take,
      List.getElem?_drop]
    simp [List.getElem?_eq_getElem (show offset < buf.length by omega)]
  · simp only [Except.map, reduceCtorEq, false_iff]
    rw [List.getElem?_eq_none (by omega)]
    simp

/-- `memcpy` of each `(offset, size)` field in turn, for fields copied only to be logged. -/
def copyFields (buf : List UInt8) : List (Nat × Nat) → Except Fault Unit
  | [] => .ok ()
  | (offset, len) :: fs => do
    let _ ← copyBytes buf offset len
    copyFields buf fs

theorem copyFields_eq_ok {buf : List UInt8} {fs : List (Nat × Nat)} :
    copyFields buf fs = .ok () ↔ ∀ f ∈ fs, f.1 + f.2 ≤ buf.length := by
  induction fs with
  | nil => simp [copyFields]
  | cons f fs ih =>
    obtain ⟨o, n⟩ := f
    by_cases h : o + n ≤ buf.length
    · simp [copyFields, copyBytes_of_le h, bind, Except.bind, ih, h]
    · simp [copyFields, copyBytes_of_lt (Nat.lt_of_not_le h), bind, Except.bind, h]

theorem readU8_of_lt {buf : List UInt8} {offset : Nat} (h : offset < buf.length) :
    readU8 buf offset = .ok buf[offset] :=
  readU8_eq_ok.mpr (List.getElem?_eq_getElem h)

/-! ## Reads past the end

`ReadsPastEnd r size`: the computation `r` stops at a `memcpy` that leaves a buffer of `size`
bytes. The handlers and parsers are chains of binds, so a fault met at one read is the fault
of the whole chain (`ReadsPastEnd.bind`, `ReadsPastEnd.bind_of_ok`). -/

def ReadsPastEnd {α : Type} (r : Except Fault α) (size : Nat) : Prop :=
  ∃ offset len, r = .error (.pastEnd offset len size) ∧ size < offset + len

theorem copyBytes_readsPastEnd {buf : List UInt8} {offset len : Nat} (h : buf.length < offset + len) :
    ReadsPastEnd (copyBytes buf offset len) buf.length :=
  ⟨offset, len, copyBytes_of_lt h, h⟩

theorem ReadsPastEnd.map {α β : Type} {r : Except Fault α} {size : Nat} (h : ReadsPastEnd r size) (f : α → β) :
    ReadsPastEnd (r.map f) size := by
  obtain ⟨o, n, hr, hlt⟩ := h
  exact ⟨o, n, by rw [hr]; rfl, hlt⟩

theorem ReadsPastEnd.bind {α β : Type} {r : Except Fault α} {size : Nat} (h : ReadsPastEnd r size)
    (f : α → Except Fault β) : ReadsPastEnd (r >>= f) size := by
  obtain ⟨o, n, hr, hlt⟩ := h
  exact ⟨o, n, by rw [hr]; rfl, hlt⟩

theorem ReadsPastEnd.bind_of_ok {α β : Type} {r : Except Fault α} {a : α} {f : α → Except Fault β}
    {size : Nat} (hr : r = .ok a) (h : ReadsPastEnd (f a) size) : ReadsPastEnd (r >>= f) size := by
  rw [hr]; exact h

theorem copyFields_readsPastEnd {buf : List UInt8} {fs : List (Nat × Nat)}
    (h : ∃ f ∈ fs, buf.length < f.1 + f.2) : ReadsPastEnd (copyFields buf fs) buf.length := by
  induction fs with
  | nil => simp at h
  | cons f fs ih =>
    obtain ⟨o, n⟩ := f
    by_cases hf : buf.length < o + n
    · exact (copyBytes_readsPastEnd hf).bind _
    · have hfs : ∃ f ∈ fs, buf.length < f.1 + f.2 := by
        obtain ⟨g, hg, hlt⟩ := h
        rcases List.mem_cons.mp hg with rfl | hg
        · exact absurd hlt hf
        · exact ⟨g, hg, hlt⟩
      exact .bind_of_ok (copyBytes_of_le (by omega)) (ih hfs)

theorem readU8_readsPastEnd {buf : List UInt8} {offset : Nat} (h : buf.length ≤ offset) :
    ReadsPastEnd (readU8 buf offset) buf.length :=
  (copyBytes_readsPastEnd (by omega)).map _

theorem readU16Host_readsPastEnd (host : ByteOrder) {buf : List UInt8} {offset : Nat}
    (h : buf.length < offset + 2) : ReadsPastEnd (readU16Host host buf offset) buf.length :=
  (copyBytes_readsPastEnd h).map _

theorem readU16Host_of_le (host : ByteOrder) {buf : List UInt8} {offset : Nat} (h : offset + 2 ≤ buf.length) :
    ∃ v, readU16Host host buf offset = .ok v := by
  simp [readU16Host, copyBytes_of_le h, Except.map]

end Pbote.Wire
