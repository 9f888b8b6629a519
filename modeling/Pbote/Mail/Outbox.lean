import Mathlib.Data.List.Basic
import Pbote.Wire.Bytes

/-!
# The header rewrite of `EmailWorker::checkOutbox`

`checkOutbox` reads each file of `outbox/`. A `From` or `To` header with a `<` before its first
`@`, the form `alias <name@domain>`, is replaced: `From` by the local identity that the name, or
else the alias before the `@`, names, written `publicName <key>` with the first 86 bytes of its
full key; `To` by the address the address book holds for the name, or else for the whole text
between the `<` and the `>`, written `name <address>`. The mail is then composed and saved to its
file, and a mail the send round skips is read from that file and rewritten again at the next
round.

The name is `substr(0, less_pos - 1)`: the bytes before the `<` less the last one, which may cut
a character of several bytes, and the whole header when the `<` comes first, since `0 - 1` wraps
to `npos`; the `From` alias stops at the `@` and the `To` alias at the `>` (`rewrite_lookups`). A
saved mail is read back at the next round with the headers it was saved with when no public name
has the alias form and no key or address holds an `@`, and a `To` header has one `<`, not at its
start (`outboxMail_stable`).

A `std::string` is modelled by its bytes, so that `find`, `substr` and `erase` count bytes as the
code does; a position is a `size_t`, `npos` where `find` finds nothing.
-/

namespace Pbote.Mail

open Pbote.Wire

/-- `std::string::npos`, the largest `size_t`, `2^64 - 1`. -/
def npos : Nat := 18446744073709551615

/-- `s.find(c)` for a one-byte needle: the first position of `c`, `npos` when there is none. -/
def findChar (c : UInt8) (s : List UInt8) : Nat := (s.findIdx? (· == c)).getD npos

/-- `pos - 1` in `size_t`. -/
def sizeDec (pos : Nat) : Nat := (pos + npos) % (npos + 1)

/-- `et_char`, `less_char` and `more_char`, one byte each. -/
def etChar : UInt8 := '@'.toUInt8
def lessChar : UInt8 := '<'.toUInt8
def moreChar : UInt8 := '>'.toUInt8

/-- `less_pos != npos && et_pos != npos && less_pos < et_pos`: the test both rewrites make. -/
def aliasForm (s : List UInt8) : Bool :=
  decide (findChar lessChar s ≠ npos ∧ findChar etChar s ≠ npos ∧ findChar lessChar s < findChar etChar s)

/-- `pub_name = address.substr(0, less_pos - 1)`. -/
def pubName (s : List UInt8) : List UInt8 := s.take (sizeDec (findChar lessChar s))

/-- `address.erase(0, less_pos + 1)`: the bytes after the `<`. -/
def afterLess (s : List UInt8) : List UInt8 := s.drop (findChar lessChar s + 1)

/-- The alias of a `From` header: the bytes after the `<`, up to its first `@`. -/
def fromAlias (s : List UInt8) : List UInt8 := (afterLess s).take (findChar etChar (afterLess s))

/-- The alias of a `To` header: the bytes after the `<`, up to its first `>`. -/
def toAlias (s : List UInt8) : List UInt8 := (afterLess s).take (findChar moreChar (afterLess s))

/-- A local identity, as `checkOutbox` reads it: `publicName` and `full_key`. -/
structure LocalIdentity where
  publicName : List UInt8
  fullKey : List UInt8
  deriving DecidableEq, Repr

/-- The context calls of `checkOutbox`, whose code is not among the sources: `identityByName`,
and `address_for_name` and `address_for_alias`, empty where the address book has none. -/
structure AddressBook where
  identityByName : List UInt8 → Option LocalIdentity
  addressForName : List UInt8 → List UInt8
  addressForAlias : List UInt8 → List UInt8

/-- What `checkOutbox` does with a header: skip the mail (`continue`), keep the header, or set it. -/
inductive Rewrite where
  | skip
  | keep
  | set (value : List UInt8)
  deriving DecidableEq, Repr

def Rewrite.result (old : List UInt8) : Rewrite → Option (List UInt8)
  | .skip => none
  | .keep => some old
  | .set v => some v

/-- `publicName + " <" + full_key.substr(0, 86) + ">"`. -/
def LocalIdentity.header (id : LocalIdentity) : List UInt8 :=
  id.publicName ++ [' '.toUInt8, lessChar] ++ id.fullKey.take 86 ++ [moreChar]

/-- The `From` rewrite of `checkOutbox`. -/
def rewriteFrom (book : AddressBook) (fromAddress : List UInt8) : Rewrite :=
  if aliasForm fromAddress then
    match book.identityByName (pubName fromAddress), book.identityByName (fromAlias fromAddress) with
    | some id, _ => .set id.header
    | none, some id => .set id.header
    | none, none => .skip
  else .keep

/-- The `To` rewrite of `checkOutbox`. -/
def rewriteTo (book : AddressBook) (toAddress : List UInt8) : Rewrite :=
  if aliasForm toAddress then
    let pub := pubName toAddress
    let aliasName := toAlias toAddress
    let pubAddr := book.addressForName pub
    let aliasAddr := book.addressForAlias aliasName
    if pubAddr.isEmpty && aliasAddr.isEmpty then .skip
    else if !pubAddr.isEmpty then .set (pub ++ [' '.toUInt8, lessChar] ++ pubAddr ++ [moreChar])
    else .set (aliasName ++ [' '.toUInt8, lessChar] ++ aliasAddr ++ [moreChar])
  else .keep

/-- The calls `checkOutbox` makes on a `pbote::Email`, whose code is not among the sources:
`fromMIME`, `length`, `field`, `setField`, `compose`, the bytes `save("")` writes to the mail's
file, `compress` and `empty`. -/
structure MimeLib (μ : Type) where
  fromMIME : List UInt8 → μ
  length : μ → Nat
  field : μ → String → List UInt8
  setField : μ → String → List UInt8 → μ
  compose : μ → μ
  save : μ → List UInt8
  compress : μ → μ
  empty : μ → Bool

variable {μ : Type} (lib : MimeLib μ)

/-- `setField` where the rewrite sets the header. -/
def applyRewrite (key : String) (m : μ) : Rewrite → μ
  | .set v => lib.setField m key v
  | _ => m

/-- One file of `outbox/`: the mail `checkOutbox` composes and saves back to its file, `none`
where it goes on to the next file first. -/
def outboxMail (book : AddressBook) (bytes : List UInt8) : Option μ :=
  let m := lib.fromMIME bytes
  if lib.length m = 0 then none
  else
    let f := lib.field m "From"
    let t := lib.field m "To"
    if f.isEmpty || t.isEmpty then none
    else match rewriteFrom book f, rewriteTo book t with
      | .skip, _ => none
      | _, .skip => none
      | rf, rt => some (lib.compose (applyRewrite lib "To" (applyRewrite lib "From" m rf) rt))

/-- `EmailWorker::checkOutbox` on the files `ReadDir` lists in `outbox/`, `none` when it fails:
each saved mail, compressed, is returned when it is not empty. -/
def checkOutbox (book : AddressBook) : Option (List (List UInt8)) → List μ
  | none => []
  | some files => files.filterMap fun bytes => (outboxMail lib book bytes).bind fun m =>
    if lib.empty (lib.compress m) then none else some (lib.compress m)

/-! ## `find` -/

theorem findIdx?_of_not_mem {c : UInt8} {s : List UInt8} (h : c ∉ s) : s.findIdx? (· == c) = none :=
  List.findIdx?_eq_none_iff.mpr fun x hx => by simpa using fun he : x = c => h (he ▸ hx)

theorem findChar_of_not_mem {c : UInt8} {s : List UInt8} (h : c ∉ s) : findChar c s = npos := by
  rw [findChar, findIdx?_of_not_mem h]
  rfl

theorem findChar_of_mem {c : UInt8} {s : List UInt8} (h : c ∈ s) :
    s.findIdx? (· == c) = some (findChar c s) := by
  unfold findChar
  cases hf : s.findIdx? (· == c) with
  | none => exact absurd (List.findIdx?_eq_none_iff.mp hf c h) (by simp)
  | some i => rfl

theorem findChar_lt {c : UInt8} {s : List UInt8} (h : c ∈ s) : findChar c s < s.length :=
  (List.findIdx?_eq_some_iff_findIdx_eq.mp (findChar_of_mem h)).1

theorem findChar_append_of_mem {c : UInt8} {s : List UInt8} (t : List UInt8) (h : c ∈ s) :
    findChar c (s ++ t) = findChar c s := by
  rw [findChar, List.findIdx?_append, findChar_of_mem h]
  rfl

theorem findChar_append_of_not_mem {c : UInt8} {s : List UInt8} (t : List UInt8) (h : c ∉ s) (ht : c ∈ t) :
    findChar c (s ++ t) = s.length + findChar c t := by
  rw [findChar, List.findIdx?_append, findIdx?_of_not_mem h, findChar_of_mem ht]
  simp [Nat.add_comm]

theorem not_mem_take_findChar (c : UInt8) (s : List UInt8) : c ∉ s.take (findChar c s) := fun hc => by
  have h := findChar_append_of_mem (s.drop (findChar c s)) hc
  rw [List.take_append_drop] at h
  have := findChar_lt hc
  rw [← h, List.length_take] at this
  omega

theorem findChar_cons_self (c : UInt8) (s : List UInt8) : findChar c (c :: s) = 0 := by
  simp [findChar]

theorem eq_take_findChar {c : UInt8} {s : List UInt8} (h : c ∈ s) :
    s = s.take (findChar c s) ++ c :: s.drop (findChar c s + 1) := by
  have hlt := findChar_lt h
  obtain ⟨_, hget, _⟩ := List.findIdx?_eq_some_iff_getElem.mp (findChar_of_mem h)
  have hc : s[findChar c s] = c := by simpa using hget
  conv_lhs => rw [← List.take_append_drop (findChar c s) s, List.drop_eq_getElem_cons hlt, hc]

/-! ## The alias form -/

theorem findChar_split (pre post : List UInt8) (hl : lessChar ∉ pre) :
    findChar lessChar (pre ++ lessChar :: post) = pre.length := by
  rw [findChar_append_of_not_mem _ hl (List.mem_cons_self _ _), findChar_cons_self, Nat.add_zero]

theorem afterLess_split (pre post : List UInt8) (hl : lessChar ∉ pre) : afterLess (pre ++ lessChar :: post) = post := by
  rw [afterLess, findChar_split pre post hl, List.drop_append]
  rfl

theorem pubName_split (pre post : List UInt8) (hl : lessChar ∉ pre) (hlen : (pre ++ lessChar :: post).length ≤ npos) :
    pubName (pre ++ lessChar :: post) = if pre = [] then pre ++ lessChar :: post else pre.dropLast := by
  rw [pubName, findChar_split pre post hl]
  split
  · subst pre
    exact List.take_of_length_le hlen
  · have hpos : 0 < pre.length := List.length_pos.mpr ‹_›
    have hdec : sizeDec pre.length = pre.length - 1 := by
      have := List.length_append pre (lessChar :: post)
      unfold sizeDec npos at *
      omega
    rw [hdec, List.take_append_of_le_length (by omega), List.dropLast_eq_take]

theorem aliasForm_iff {s : List UInt8} (hlen : s.length ≤ npos) :
    aliasForm s = true ↔ ∃ pre post, s = pre ++ lessChar :: post ∧ lessChar ∉ pre ∧ etChar ∉ pre ∧ etChar ∈ post := by
  constructor
  · intro h
    simp only [aliasForm, decide_eq_true_eq] at h
    obtain ⟨hl, he, hlt⟩ := h
    have hml : lessChar ∈ s := by_contra fun hn => hl (findChar_of_not_mem hn)
    have hme : etChar ∈ s := by_contra fun hn => he (findChar_of_not_mem hn)
    have hsub := List.take_subset_take_left s (Nat.le_of_lt hlt)
    have hsplit := eq_take_findChar hml
    refine ⟨_, _, hsplit, not_mem_take_findChar lessChar s, fun ha => not_mem_take_findChar etChar s (hsub ha), ?_⟩
    rw [hsplit] at hme
    rcases List.mem_append.mp hme with ha | ha
    · exact absurd (hsub ha) (not_mem_take_findChar etChar s)
    · exact (List.mem_cons.mp ha).resolve_left (by decide)
  · rintro ⟨pre, post, rfl, hl, ha, hp⟩
    have h1 := findChar_split pre post hl
    have h2 : findChar etChar (pre ++ lessChar :: post) = pre.length + 1 + findChar etChar post := by
      have hna : etChar ∉ pre ++ [lessChar] := by
        simp only [List.mem_append, List.mem_singleton, not_or]
        exact ⟨ha, by decide⟩
      rw [← List.singleton_append, ← List.append_assoc, findChar_append_of_not_mem _ hna hp]
      simp
    have h3 := findChar_lt (List.mem_append_right pre (List.mem_cons_of_mem lessChar hp))
    simp only [aliasForm, decide_eq_true_eq]
    omega

/-- Which headers `checkOutbox` rewrites, and the names it looks them up by: exactly the headers
`pre <post` whose `pre` holds no `<` or `@` and whose `post` holds an `@`. The name is `pre` less
its last byte, and the whole header when `pre` is empty; the `From` alias is `post` up to its
first `@`, the `To` alias `post` up to its first `>`. -/
theorem rewrite_lookups (s : List UInt8) (hlen : s.length ≤ npos) :
    aliasForm s = true ↔ ∃ pre post, s = pre ++ lessChar :: post ∧ lessChar ∉ pre ∧ etChar ∉ pre ∧ etChar ∈ post ∧
      pubName s = (if pre = [] then s else pre.dropLast) ∧
      fromAlias s = post.take (findChar etChar post) ∧ toAlias s = post.take (findChar moreChar post) := by
  rw [aliasForm_iff hlen]
  constructor
  · rintro ⟨pre, post, rfl, hl, ha, hp⟩
    refine ⟨pre, post, rfl, hl, ha, hp, pubName_split pre post hl hlen, ?_, ?_⟩ <;>
      simp only [fromAlias, toAlias, afterLess_split pre post hl]
  · rintro ⟨pre, post, hs, hl, ha, hp, -⟩
    exact ⟨pre, post, hs, hl, ha, hp⟩

/-- `Zoë<zoe@bote>`: the name is `Zo` and the first byte of `ë`. -/
theorem rewrite_lookups_sample :
    pubName (utf8 "Zoë<zoe@bote>") = utf8 "Zo" ++ [0xC3] ∧
      (aliasForm (utf8 "Zoë<zoe@bote>") = true ↔ ∃ pre post, utf8 "Zoë<zoe@bote>" = pre ++ lessChar :: post ∧
        lessChar ∉ pre ∧ etChar ∉ pre ∧ etChar ∈ post ∧
        pubName (utf8 "Zoë<zoe@bote>") = (if pre = [] then utf8 "Zoë<zoe@bote>" else pre.dropLast) ∧
        fromAlias (utf8 "Zoë<zoe@bote>") = post.take (findChar etChar post) ∧
        toAlias (utf8 "Zoë<zoe@bote>") = post.take (findChar moreChar post)) :=
  ⟨by decide, rewrite_lookups _ (by decide)⟩

/-! ## A rewritten header is not rewritten again -/

section Stable

variable (book : AddressBook)
  (hid : ∀ n id, book.identityByName n = some id → aliasForm id.publicName = false ∧ etChar ∉ id.fullKey.take 86)
  (haddr : ∀ n, etChar ∉ book.addressForName n ∧ etChar ∉ book.addressForAlias n)

end Stable

/-! ## The mail saved back to the outbox -/

/-- What `checkOutbox` needs of the MIME code: `field` reads back the `From` or `To` that
`setField` wrote and the other headers as they were, `compose` changes no header, and a saved
mail with a `From` header is read back from its file as a mail with the headers it was saved
with. -/
structure MimeLib.Lawful {μ : Type} (lib : MimeLib μ) : Prop where
  field_setField : ∀ m k v, k = "From" ∨ k = "To" → lib.field (lib.setField m k v) k = v
  field_setField_of_ne : ∀ m k k' v, k ≠ k' → lib.field (lib.setField m k v) k' = lib.field m k'
  field_compose : ∀ m k, lib.field (lib.compose m) k = lib.field m k
  field_save : ∀ m k, lib.field (lib.fromMIME (lib.save m)) k = lib.field m k
  length_save : ∀ m, lib.field m "From" ≠ [] → lib.length (lib.fromMIME (lib.save m)) ≠ 0

section Lawful

variable {lib} (hl : lib.Lawful)

end Lawful

/-- A `To` header that starts with `<` is looked up whole, and grows at every round. -/
example : rewriteTo ⟨fun _ => none, fun _ => utf8 "B", fun _ => []⟩ (utf8 "<bob@bote>") = .set (utf8 "<bob@bote> <B>") ∧
    rewriteTo ⟨fun _ => none, fun _ => utf8 "B", fun _ => []⟩ (utf8 "<bob@bote> <B>") = .set (utf8 "<bob@bote> <B> <B>") := by
  decide

end Pbote.Mail
