/-
**Base64 as the standard defines it** (RFC 4648, section 4).

Three bytes are a number of 24 bits, which is written with four digits of six bits.  A last group of
one or two bytes is filled up with zero bits to a whole number of digits, and with padding
characters to four.

Main definitions:

* `Rfc4648.alphabet` — the digits;
* `Rfc4648.group`, `Rfc4648.encode` — one group, and a string of bytes.

Main results:

* `Rfc4648.encode_block` — the groups are written one after the other.
-/

import WebSocketDemo.Lib.BlockStream
import WebSocketDemo.Lib.ByteOrder

set_option relaxedAutoImplicit false
set_option autoImplicit false

namespace Rfc4648

open ByteOrder BlockStream

/-- The digits in the order of their values: capitals, small letters, figures, `+` and `/`. -/
def alphabet : Bytes :=
  (List.range' 65 26 ++ List.range' 97 26 ++ List.range' 48 10 ++ [43, 47]).map UInt8.ofNat

/-- The padding character. -/
def padding : UInt8 := 61

/-- The digit with a given value. -/
def digit (v : ℕ) : UInt8 := alphabet.getD (v % 64) 0

/-- A group of one to three bytes. -/
def group (b : Bytes) : Bytes :=
  let v := ofBigEndian (b ++ List.replicate (3 - b.length) 0)
  ((List.range (b.length + 1)).map fun i => digit (v / 64 ^ (3 - i))) ++
    List.replicate (3 - b.length) padding

/-- **The encoding of a string of bytes.** -/
def encode (m : Bytes) : Bytes :=
  (blocks 3 m).flatMap group ++ if rest 3 m = [] then [] else group (rest 3 m)

/-- **A full group in front.** -/
theorem encode_block {b : Bytes} (h : b.length = 3) (m : Bytes) :
    encode (b ++ m) = group b ++ encode m := by
  have hrest : rest 3 b = [] := by
    rw [rest, h]
    exact List.drop_eq_nil_of_le (by rw [h])
  have hrest' : rest 3 (b ++ m) = rest 3 m := by
    have hlen : (3 + m.length) / 3 = m.length / 3 + 1 := by omega
    rw [rest, rest, List.length_append, h, hlen, Nat.mul_add, Nat.mul_one, Nat.add_comm, ← h,
      List.drop_length_add_append]
  rw [encode, encode, blocks_append (by decide : 0 < 3), hrest, List.nil_append,
    blocks_of_eq (by decide) h, hrest', List.flatMap_append, List.flatMap_singleton,
    List.append_assoc]

/-- A last group. -/
theorem encode_short {b : Bytes} (h : b.length < 3) :
    encode b = if b = [] then [] else group b := by
  obtain ⟨hb, hr⟩ := blocks_of_lt h
  rw [encode, hb, hr, List.flatMap_nil, List.nil_append]

end Rfc4648
