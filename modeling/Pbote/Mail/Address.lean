import Mathlib.Data.List.Basic
import Pbote.Wire.Bytes

/-!
# The address parsers `EmailWorker::parse_address_v1` and `parse_address_v0`

An address is a format prefix up to its first dot, `b32.` or `b64.`, and a blob in that base.
The parser decodes the blob into the stack array `identity_bytes[2048]`, checks the length, the
format tag and the four type bytes, and hands `FromBuffer` the array from byte 5 on, with the
blob's whole length `identity_len` instead of `identity_len - 5`.

The array is not initialised, so what it held before the decode is an input, `stale`. The
identity is read from the blob's bytes after the tags followed by five bytes of `stale` past
its end, and type bytes that match no combination leave a default-constructed identity to
read them (`parseAddressV1_eq_some`).

`sendEmailTask` hands an address with another prefix to `parse_address_v0`, which takes the
address's length in bytes to pick the key type, puts an `A` before each half and keeps what
`FromBase64` leaves, whether it decoded or not.
-/

namespace Pbote.Mail

open Pbote.Wire

/-- The key-type combinations a `BoteIdentityPublic` is built with. -/
inductive KeyType where
  | ECDH256_ECDSA256_SHA256_AES256CBC
  | ECDH521_ECDSA521_SHA512_AES256CBC
  | X25519_ED25519_SHA512_AES256CBC
  deriving DecidableEq, Repr

/-- The type-byte constants of the v1 format, defined in a header that is not among the
sources. -/
structure AddressTags where
  crypECDH256 : UInt8
  signECDH256 : UInt8
  symmAES256 : UInt8
  hashSHA256 : UInt8
  crypECDH521 : UInt8
  signECDH521 : UInt8
  hashSHA512 : UInt8
  crypX25519 : UInt8
  signED25519 : UInt8

/-- Modelled from the spec: the v1 format tag is 1. -/
def ADDRES_FORMAT_V1 : UInt8 := 1

/-- Modelled from the spec: the two dotted prefixes of the v1 format. -/
def ADDRESS_B32_PREFIX : String := "b32."
def ADDRESS_B64_PREFIX : String := "b64."

/-- The calls `parse_address_v1` makes, whose code is not among the sources: the type bytes,
`Base32ToByteStream` and `Base64ToByteStream` as the bytes they write, and `FromBuffer` of a
`BoteIdentityPublic` built with a key type, or default-constructed (`none`), as the identity
it reads, `none` when it returns 0. -/
structure AddressLib (β : Type) where
  tags : AddressTags
  base32ToByteStream : String → List UInt8
  base64ToByteStream : String → List UInt8
  fromBuffer : Option KeyType → List UInt8 → Option β

variable {β : Type} (lib : AddressLib β)

/-- `address.find(".") + 1`: the position after the first dot; `find` returns `npos` when
there is none, and `npos + 1` wraps to 0. -/
def prefixLength (address : String) : Nat :=
  match address.toList.findIdx? (· = '.') with
  | some i => i + 1
  | none => 0

/-- `format_prefix = address.substr(0, address.find(".") + 1)`. -/
def formatPrefix (address : String) : String := String.mk (address.toList.take (prefixLength address))

/-- `base_str = address.substr(format_prefix.length())`. -/
def baseStr (address : String) : String := String.mk (address.toList.drop (formatPrefix address).length)

/-- The bytes the decoder the prefix picks writes, `none` for another prefix. -/
def addressBytes (address : String) : Option (List UInt8) :=
  if formatPrefix address = ADDRESS_B32_PREFIX then some (lib.base32ToByteStream (baseStr address))
  else if formatPrefix address = ADDRESS_B64_PREFIX then some (lib.base64ToByteStream (baseStr address))
  else none

/-- `identity_bytes[j]` after the decoder wrote `decoded` over the array holding `stale`. -/
def identityBytes (stale : Nat → UInt8) (decoded : List UInt8) (j : Nat) : UInt8 := decoded.getD j (stale j)

/-- The key type bytes 1 to 4 select; `none` leaves the default-constructed identity. -/
def keyTypeOf (t : AddressTags) (b1 b2 b3 b4 : UInt8) : Option KeyType :=
  if b1 = t.crypECDH256 ∧ b2 = t.signECDH256 ∧ b3 = t.symmAES256 ∧ b4 = t.hashSHA256 then
    some .ECDH256_ECDSA256_SHA256_AES256CBC
  else if b1 = t.crypECDH521 ∧ b2 = t.signECDH521 ∧ b3 = t.symmAES256 ∧ b4 = t.hashSHA512 then
    some .ECDH521_ECDSA521_SHA512_AES256CBC
  else if b1 = t.crypX25519 ∧ b2 = t.signED25519 ∧ b3 = t.symmAES256 ∧ b4 = t.hashSHA512 then
    some .X25519_ED25519_SHA512_AES256CBC
  else none

/-- `EmailWorker::parse_address_v1`, the array holding `stale` before the decode. -/
def parseAddressV1 (stale : Nat → UInt8) (address : String) : Option β :=
  match addressBytes lib address with
  | none => none
  | some decoded =>
    let identityLen := decoded.length
    let bytes := identityBytes stale decoded
    if identityLen < 5 then none
    else if bytes 0 ≠ ADDRES_FORMAT_V1 then none
    else
      lib.fromBuffer (keyTypeOf lib.tags (bytes 1) (bytes 2) (bytes 3) (bytes 4))
        ((List.range identityLen).map fun i => bytes (5 + i))

/-! ## What `FromBuffer` reads -/

theorem identityBytes_of_lt (stale : Nat → UInt8) {decoded : List UInt8} {j : Nat} (h : j < decoded.length) :
    identityBytes stale decoded j = decoded[j] := by
  simp [identityBytes, List.getD_eq_getElem?_getD, h]

theorem identityBytes_of_le (stale : Nat → UInt8) {decoded : List UInt8} {j : Nat} (h : decoded.length ≤ j) :
    identityBytes stale decoded j = stale j := by
  rw [identityBytes, List.getD_eq_getElem?_getD, List.getElem?_eq_none h, Option.getD_none]

theorem range_map_identityBytes (stale : Nat → UInt8) (decoded : List UInt8) {k : Nat} (hk : k ≤ decoded.length) :
    (List.range decoded.length).map (fun i => identityBytes stale decoded (k + i)) =
      decoded.drop k ++ (List.range k).map fun i => stale (decoded.length + i) := by
  refine List.ext_getElem (by simp; omega) fun i h1 _ => ?_
  simp only [List.length_map, List.length_range] at h1
  rw [List.getElem_map, List.getElem_range, List.getElem_append]
  split
  · rename_i h
    rw [identityBytes_of_lt stale (by rw [List.length_drop] at h; omega), List.getElem_drop]
  · rename_i h
    rw [List.length_drop] at h
    rw [identityBytes_of_le stale (by omega), List.getElem_map, List.getElem_range, List.length_drop]
    congr 1
    omega

/-- `parse_address_v1` returns an identity exactly when the prefix picks a decoder whose bytes
are the format tag, four type bytes and a rest, and `FromBuffer`, built with the key type the
type bytes select or default-constructed when they select none, reads an identity from the
rest followed by the five bytes of the array past the blob's end. -/
theorem parseAddressV1_eq_some (stale : Nat → UInt8) (address : String) (x : β) :
    parseAddressV1 lib stale address = some x ↔
      ∃ b1 b2 b3 b4 rest, addressBytes lib address = some (ADDRES_FORMAT_V1 :: b1 :: b2 :: b3 :: b4 :: rest) ∧
        lib.fromBuffer (keyTypeOf lib.tags b1 b2 b3 b4)
          (rest ++ (List.range 5).map fun i => stale (rest.length + 5 + i)) = some x := by
  have hwin : ∀ a b1 b2 b3 b4 rest, (List.range (a :: b1 :: b2 :: b3 :: b4 :: rest).length).map
      (fun i => identityBytes stale (a :: b1 :: b2 :: b3 :: b4 :: rest) (5 + i)) =
      rest ++ (List.range 5).map fun i => stale (rest.length + 5 + i) := fun a b1 b2 b3 b4 rest =>
    range_map_identityBytes stale _ (by simp)
  have hlen : ∀ a b1 b2 b3 b4 (rest : List UInt8), ¬ (a :: b1 :: b2 :: b3 :: b4 :: rest).length < 5 := by
    simp
  unfold parseAddressV1
  constructor
  · intro h
    split at h
    · cases h
    · rename_i decoded hd
      match decoded, h with
      | [], h | [_], h | [_, _], h | [_, _, _], h | [_, _, _, _], h => simp at h
      | a :: b1 :: b2 :: b3 :: b4 :: rest, h =>
        simp only [hwin, hlen, if_false] at h
        by_cases ha : a = ADDRES_FORMAT_V1
        · subst ha
          simp only [identityBytes, List.getD_cons_zero, List.getD_cons_succ, ne_eq, not_true_eq_false,
            if_false] at h
          exact ⟨b1, b2, b3, b4, rest, hd, h⟩
        · simp [identityBytes, ha] at h
  · rintro ⟨b1, b2, b3, b4, rest, hd, h⟩
    simp only [hd, hwin, hlen, if_false]
    simp only [identityBytes, List.getD_cons_zero, List.getD_cons_succ, ne_eq, not_true_eq_false, if_false]
    exact h

/-- A stand-in library for concrete runs only: both decoders take the characters' codes as the
bytes, every type byte is nonzero, and `FromBuffer` reads a 7-byte identity whatever the key
type. -/
def sampleAddressLib : AddressLib (List UInt8) where
  tags := ⟨1, 2, 3, 4, 5, 6, 7, 8, 9⟩
  base32ToByteStream s := s.toList.map Char.toUInt8
  base64ToByteStream s := s.toList.map Char.toUInt8
  fromBuffer _ buf := if 7 ≤ buf.length then some (buf.take 7) else none

/-- A 7-byte blob whose type bytes select no key type: the parser returns an identity, and
which one depends on what the array held past the blob. -/
theorem parseAddressV1_reads_stale :
    let address := "b64." ++ String.mk ([1, 0, 0, 0, 0, 7, 9].map Char.ofNat)
    keyTypeOf sampleAddressLib.tags 0 0 0 0 = none ∧
      parseAddressV1 sampleAddressLib (fun _ => 0) address = some [7, 9, 0, 0, 0, 0, 0] ∧
      parseAddressV1 sampleAddressLib (fun _ => 0xEE) address = some [7, 9, 0xEE, 0xEE, 0xEE, 0xEE, 0xEE] :=
  ⟨by decide, (parseAddressV1_eq_some sampleAddressLib _ _ _).mpr ⟨0, 0, 0, 0, [7, 9], by decide, by decide⟩,
    (parseAddressV1_eq_some sampleAddressLib _ _ _).mpr ⟨0, 0, 0, 0, [7, 9], by decide, by decide⟩⟩

/-! ## `parse_address_v0` and the choice of parser -/

/-- The calls `parse_address_v0` makes, whose code is not among the sources: the lengths of the
two supported v0 addresses, and `FromBase64` on a `BoteIdentityPublic` built with a key type, as
the identity it leaves; what it returns is not looked at. -/
structure AddressV0Lib (β : Type) where
  ECDH256_ECDSA256_PUBLIC_BASE64_LENGTH : Nat
  ECDH521_ECDSA521_PUBLIC_BASE64_LENGTH : Nat
  fromBase64 : KeyType → List UInt8 → β

variable (lib0 : AddressV0Lib β)

/-- The key type and half length `parse_address_v0` picks by the address's length. -/
def v0KeyType (length : Nat) : Option (KeyType × Nat) :=
  if length = lib0.ECDH256_ECDSA256_PUBLIC_BASE64_LENGTH then
    some (.ECDH256_ECDSA256_SHA256_AES256CBC, lib0.ECDH256_ECDSA256_PUBLIC_BASE64_LENGTH / 2)
  else if length = lib0.ECDH521_ECDSA521_PUBLIC_BASE64_LENGTH then
    some (.ECDH521_ECDSA521_SHA512_AES256CBC, lib0.ECDH521_ECDSA521_PUBLIC_BASE64_LENGTH / 2)
  else none

/-- `restored_identity_str`: an `A` and the first `base64KeyLen` bytes, then an `A` and the next
`base64KeyLen` bytes. -/
def restoredIdentity (base64KeyLen : Nat) (address : List UInt8) : List UInt8 :=
  ('A'.toUInt8 :: address.take base64KeyLen) ++ ('A'.toUInt8 :: (address.drop base64KeyLen).take base64KeyLen)

/-- `EmailWorker::parse_address_v0`, on the bytes of the address. -/
def parseAddressV0 (address : String) : Option β :=
  (v0KeyType lib0 (utf8 address).length).map fun (keyType, base64KeyLen) =>
    lib0.fromBase64 keyType (restoredIdentity base64KeyLen (utf8 address))

/-- The parser `sendEmailTask` calls for an address: `parse_address_v1` for the `b32.` and
`b64.` prefixes, `parse_address_v0` for any other. -/
def parseAddress (stale : Nat → UInt8) (address : String) : Option β :=
  if formatPrefix address = ADDRESS_B32_PREFIX then parseAddressV1 lib stale address
  else if formatPrefix address = ADDRESS_B64_PREFIX then parseAddressV1 lib stale address
  else parseAddressV0 lib0 address

end Pbote.Mail
