/-
**Base64** (`base64.cpp`).

`base64_encode` collects its input in groups of three bytes and writes four characters for each,
padding the last group with `=`.  Here the groups are the cases of the recursion.

Main results:

* `length_base64Encode` — three bytes become four characters;
* `base64Encode_inj` — **the encoding determines what is encoded**, among bytes of one length.
-/

import WebSocketDemo.Lib.ByteOrder
import Mathlib.Data.List.Nodup

set_option relaxedAutoImplicit false
set_option autoImplicit false

namespace WebSocketDemo

/-- The bytes of an ASCII string. -/
def ascii (s : String) : Bytes := s.toList.map fun c => UInt8.ofNat c.toNat

/-- `base64_chars`. -/
def base64Chars : Bytes :=
  ascii "ABCDEFGHIJKLMNOPQRSTUVWXYZabcdefghijklmnopqrstuvwxyz0123456789+/"

/-- `base64_chars[i]`. -/
def base64Char (i : UInt8) : UInt8 := base64Chars.getD i.toNat 0

/-- The four indices `char_array_4` computed from `char_array_3`. -/
def charArray4 (a b c : UInt8) : UInt8 × UInt8 × UInt8 × UInt8 :=
  ((a &&& 0xfc) >>> 2, ((a &&& 0x03) <<< 4) + ((b &&& 0xf0) >>> 4),
    ((b &&& 0x0f) <<< 2) + ((c &&& 0xc0) >>> 6), c &&& 0x3f)

/-- `base64_encode`. -/
def base64Encode : Bytes → Bytes
  | a :: b :: c :: rest =>
      let (i, j, k, l) := charArray4 a b c
      base64Char i :: base64Char j :: base64Char k :: base64Char l :: base64Encode rest
  | [a, b] =>
      let (i, j, k, _) := charArray4 a b 0
      [base64Char i, base64Char j, base64Char k, 61]
  | [a] =>
      let (i, j, _, _) := charArray4 a 0 0
      [base64Char i, base64Char j, 61, 61]
  | [] => []

/-- Three bytes become four characters, padding included. -/
theorem length_base64Encode : ∀ l : Bytes, (base64Encode l).length = (l.length + 2) / 3 * 4
  | a :: b :: c :: rest => by
      have ih := length_base64Encode rest
      simp only [base64Encode, List.length_cons, ih]
      omega
  | [a, b] => by simp [base64Encode]
  | [a] => by simp [base64Encode]
  | [] => rfl

/-! ### Nothing is lost -/

/-- The low bits of a byte. -/
theorem toNat_low (a : UInt8) : (a &&& 0x03).toNat = a.toNat % 4 ∧
    (a &&& 0x0f).toNat = a.toNat % 16 ∧ (a &&& 0x3f).toNat = a.toNat % 64 :=
  ⟨Nat.and_two_pow_sub_one_eq_mod a.toNat 2, Nat.and_two_pow_sub_one_eq_mod a.toNat 4,
    Nat.and_two_pow_sub_one_eq_mod a.toNat 6⟩

/-- The high bits of a byte, moved down. -/
theorem toNat_high (a : UInt8) : ((a &&& 0xfc) >>> 2).toNat = a.toNat / 4 ∧
    ((a &&& 0xf0) >>> 4).toNat = a.toNat / 16 ∧ ((a &&& 0xc0) >>> 6).toNat = a.toNat / 64 := by
  have ha := a.toNat_lt
  refine ⟨?_, ?_, ?_⟩
  · have h : ((a &&& 0xfc) >>> 2).toNat = (a.toNat &&& 252) >>> 2 := by simp
    have hm : a.toNat >>> 2 &&& 63 = a.toNat >>> 2 % 64 := Nat.and_two_pow_sub_one_eq_mod _ 6
    rw [h, Nat.shiftRight_and_distrib, show 252 >>> 2 = 63 from rfl, hm, Nat.shiftRight_eq_div_pow]
    omega
  · have h : ((a &&& 0xf0) >>> 4).toNat = (a.toNat &&& 240) >>> 4 := by simp
    have hm : a.toNat >>> 4 &&& 15 = a.toNat >>> 4 % 16 := Nat.and_two_pow_sub_one_eq_mod _ 4
    rw [h, Nat.shiftRight_and_distrib, show 240 >>> 4 = 15 from rfl, hm, Nat.shiftRight_eq_div_pow]
    omega
  · have h : ((a &&& 0xc0) >>> 6).toNat = (a.toNat &&& 192) >>> 6 := by simp
    have hm : a.toNat >>> 6 &&& 3 = a.toNat >>> 6 % 4 := Nat.and_two_pow_sub_one_eq_mod _ 2
    rw [h, Nat.shiftRight_and_distrib, show 192 >>> 6 = 3 from rfl, hm, Nat.shiftRight_eq_div_pow]
    omega

/-- The four indices as numbers. -/
theorem toNat_charArray4 (a b c : UInt8) :
    (charArray4 a b c).1.toNat = a.toNat / 4 ∧
    (charArray4 a b c).2.1.toNat = a.toNat % 4 * 16 + b.toNat / 16 ∧
    (charArray4 a b c).2.2.1.toNat = b.toNat % 16 * 4 + c.toNat / 64 ∧
    (charArray4 a b c).2.2.2.toNat = c.toNat % 64 := by
  have ha := a.toNat_lt
  have hb := b.toNat_lt
  have hc := c.toNat_lt
  have hshift₁ : ((a &&& 0x03) <<< 4).toNat = a.toNat % 4 * 16 := by
    rw [UInt8.toNat_shiftLeft, (toNat_low a).1, Nat.shiftLeft_eq]
    exact Nat.mod_eq_of_lt (by simp; omega)
  have hshift₂ : ((b &&& 0x0f) <<< 2).toNat = b.toNat % 16 * 4 := by
    rw [UInt8.toNat_shiftLeft, (toNat_low b).2.1, Nat.shiftLeft_eq]
    exact Nat.mod_eq_of_lt (by simp; omega)
  refine ⟨(toNat_high a).1, ?_, ?_, (toNat_low c).2.2⟩
  · rw [charArray4, UInt8.toNat_add, hshift₁, (toNat_high b).2.1]
    omega
  · rw [charArray4, UInt8.toNat_add, hshift₂, (toNat_high c).2.2]
    omega

theorem base64Chars_nodup : base64Chars.Nodup := by decide

theorem base64Char_inj {i j : UInt8} (hi : i.toNat < 64) (hj : j.toNat < 64)
    (h : base64Char i = base64Char j) : i = j := by
  have hlen : base64Chars.length = 64 := by decide
  rw [base64Char, base64Char, List.getD_eq_getElem _ _ (by omega),
    List.getD_eq_getElem _ _ (by omega), List.Nodup.getElem_inj_iff base64Chars_nodup] at h
  exact UInt8.toNat_inj.1 h

/-- Four characters determine their three bytes. -/
theorem charArray4_inj {a b c a' b' c' : UInt8}
    (h₁ : base64Char (charArray4 a b c).1 = base64Char (charArray4 a' b' c').1)
    (h₂ : base64Char (charArray4 a b c).2.1 = base64Char (charArray4 a' b' c').2.1)
    (h₃ : base64Char (charArray4 a b c).2.2.1 = base64Char (charArray4 a' b' c').2.2.1) :
    a = a' ∧ b = b' ∧
      (base64Char (charArray4 a b c).2.2.2 = base64Char (charArray4 a' b' c').2.2.2 → c = c') := by
  obtain ⟨k₁, k₂, k₃, k₄⟩ := toNat_charArray4 a b c
  obtain ⟨l₁, l₂, l₃, l₄⟩ := toNat_charArray4 a' b' c'
  have ha := a.toNat_lt
  have hb := b.toNat_lt
  have hc := c.toNat_lt
  have ha' := a'.toNat_lt
  have hb' := b'.toNat_lt
  have hc' := c'.toNat_lt
  have e₁ := congrArg UInt8.toNat (base64Char_inj (by omega) (by omega) h₁)
  have e₂ := congrArg UInt8.toNat (base64Char_inj (by omega) (by omega) h₂)
  have e₃ := congrArg UInt8.toNat (base64Char_inj (by omega) (by omega) h₃)
  refine ⟨UInt8.toNat_inj.1 (by omega), UInt8.toNat_inj.1 (by omega), fun h₄ => ?_⟩
  have e₄ := congrArg UInt8.toNat (base64Char_inj (by omega) (by omega) h₄)
  exact UInt8.toNat_inj.1 (by omega)

/-- **The encoding of a given length determines what is encoded.** -/
theorem base64Encode_inj : ∀ {p q : Bytes}, p.length = q.length → base64Encode p = base64Encode q →
    p = q
  | a :: b :: c :: p, a' :: b' :: c' :: q, hlen, h => by
      simp only [base64Encode, List.cons.injEq] at h
      obtain ⟨h₁, h₂, h₃, h₄, hrest⟩ := h
      obtain ⟨rfl, rfl, hc⟩ := charArray4_inj h₁ h₂ h₃
      obtain rfl := hc h₄
      rw [base64Encode_inj (by simpa using hlen) hrest]
  | [a, b], [a', b'], _, h => by
      simp only [base64Encode, List.cons.injEq] at h
      obtain ⟨rfl, rfl, _⟩ := charArray4_inj h.1 h.2.1 h.2.2.1
      rfl
  | [a], [a'], _, h => by
      simp only [base64Encode, List.cons.injEq] at h
      obtain ⟨rfl, _⟩ := charArray4_inj h.1 h.2.1 rfl
      rfl
  | [], [], _, _ => rfl
  | _ :: _ :: _ :: _, [_, _], hlen, _ | _ :: _ :: _ :: _, [_], hlen, _ => by simp at hlen
  | [_, _], _ :: _ :: _ :: _, hlen, _ | [_], _ :: _ :: _ :: _, hlen, _ => by simp at hlen

end WebSocketDemo
