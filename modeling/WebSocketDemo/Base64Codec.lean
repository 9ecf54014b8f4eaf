/-
**The two directions of Base64** (`base64_encode`, `base64_decode` in `base64.cpp`).

`base64_encode` writes what the standard says.  `base64_decode` reads as long as it meets characters
of the alphabet, in groups of four, and stops at the first other character, be it padding or not;
what is behind it is never looked at.  The positions of a last group that were not read are filled
with zero *bytes*, which are not in the alphabet: `find` answers `npos` for them, which is cut down
to 255, and the bytes that come of it are not written.

The position `in_` of `base64_decode` is an `int`, which counts the digits read; it is a natural
number here, and what is said of the decoder is said of strings with fewer than 2^31 digits at their
front.

Main definitions:

* `isBase64`, `base64Find`, `base64Decode` — `base64_decode`.

Main results:

* `base64Encode_eq_encode` — **the encoder is that of the standard**;
* `base64_round_trip` — **decoding gives back what was encoded, whatever follows the encoding**, and
  sees only the digits at the front of a string.
-/

import WebSocketDemo.Base64
import WebSocketDemo.Lib.Rfc4648
import Mathlib.Data.List.TakeWhile

set_option relaxedAutoImplicit false
set_option autoImplicit false

namespace WebSocketDemo

open ByteOrder

/-! ### The decoder -/

/-- `isalnum` in the C locale. -/
def isalnum (c : UInt8) : Bool :=
  decide (48 ≤ c ∧ c ≤ 57) || decide (65 ≤ c ∧ c ≤ 90) || decide (97 ≤ c ∧ c ≤ 122)

/-- `is_base64`. -/
def isBase64 (c : UInt8) : Bool := isalnum c || decide (c = 43) || decide (c = 47)

/-- `base64_chars.find(c)` as an `unsigned char`: `npos` becomes 255. -/
def base64Find (c : UInt8) : UInt8 :=
  match base64Chars.idxOf? c with
  | some i => UInt8.ofNat i
  | none => 255

/-- The bytes of `char_array_3`, computed from four indices. -/
def charArray3 (i j k l : UInt8) : Bytes :=
  [(i <<< 2) + ((j &&& 0x30) >>> 4), ((j &&& 0xf) <<< 4) + ((k &&& 0x3c) >>> 2),
    ((k &&& 0x3) <<< 6) + l]

/-- `char_array_3` for the characters collected in `char_array_4`; the places behind them hold zero
bytes. -/
def decodeGroup (charArray4 : Bytes) : Bytes :=
  charArray3 (base64Find (charArray4.getD 0 0)) (base64Find (charArray4.getD 1 0))
    (base64Find (charArray4.getD 2 0)) (base64Find (charArray4.getD 3 0))

/-- What is written for the characters that are left when the loop ends. -/
def decodeTail (charArray4 : Bytes) : Bytes :=
  if charArray4.length = 0 then [] else (decodeGroup charArray4).take (charArray4.length - 1)

/-- The loop of `base64_decode`, with the characters collected. -/
def decodeLoop : Bytes → Bytes → Bytes
  | [], charArray4 => decodeTail charArray4
  | c :: encodedString, charArray4 =>
      if c ≠ 61 ∧ isBase64 c = true then
        let charArray4 := charArray4 ++ [c]
        if charArray4.length = 4 then decodeGroup charArray4 ++ decodeLoop encodedString []
        else decodeLoop encodedString charArray4
      else decodeTail charArray4

/-- `base64_decode`. -/
def base64Decode (encodedString : Bytes) : Bytes := decodeLoop encodedString []

/-! ### The encoder and the standard -/

theorem base64Chars_eq : base64Chars = Rfc4648.alphabet := by decide

/-- A character of the encoder is the digit of the standard. -/
theorem base64Char_eq_digit {i : UInt8} {v : ℕ} (h : i.toNat = v % 64) :
    base64Char i = Rfc4648.digit v := by
  rw [base64Char, Rfc4648.digit, base64Chars_eq, h]

/-- The four characters for three bytes are the digits of their number. -/
theorem digits_eq (a b c : UInt8) :
    Rfc4648.digit (ofBigEndian [a, b, c] / 64 ^ 3) = base64Char (charArray4 a b c).1 ∧
    Rfc4648.digit (ofBigEndian [a, b, c] / 64 ^ 2) = base64Char (charArray4 a b c).2.1 ∧
    Rfc4648.digit (ofBigEndian [a, b, c] / 64 ^ 1) = base64Char (charArray4 a b c).2.2.1 ∧
    Rfc4648.digit (ofBigEndian [a, b, c] / 64 ^ 0) = base64Char (charArray4 a b c).2.2.2 := by
  obtain ⟨h₁, h₂, h₃, h₄⟩ := toNat_charArray4 a b c
  have ha := a.toNat_lt
  have hb := b.toNat_lt
  have hc := c.toNat_lt
  have hv : ofBigEndian [a, b, c] = 65536 * a.toNat + 256 * b.toNat + c.toNat := by
    simp only [ofBigEndian, List.foldl_cons, List.foldl_nil]
    omega
  rw [hv]
  refine ⟨(base64Char_eq_digit ?_).symm, (base64Char_eq_digit ?_).symm,
    (base64Char_eq_digit ?_).symm, (base64Char_eq_digit ?_).symm⟩
  · rw [h₁]
    omega
  · rw [h₂]
    omega
  · rw [h₃]
    omega
  · rw [h₄]
    omega

/-- **The encoder is that of the standard.** -/
theorem base64Encode_eq_encode : ∀ l : Bytes, base64Encode l = Rfc4648.encode l
  | a :: b :: c :: l => by
      obtain ⟨h₁, h₂, h₃, h₄⟩ := digits_eq a b c
      have hgroup : Rfc4648.group [a, b, c] =
          [base64Char (charArray4 a b c).1, base64Char (charArray4 a b c).2.1,
            base64Char (charArray4 a b c).2.2.1, base64Char (charArray4 a b c).2.2.2] := by
        rw [← h₁, ← h₂, ← h₃, ← h₄]
        rfl
      have hblock : Rfc4648.encode (a :: b :: c :: l) =
          Rfc4648.group [a, b, c] ++ Rfc4648.encode l := Rfc4648.encode_block (b := [a, b, c]) rfl l
      rw [hblock, hgroup, ← base64Encode_eq_encode l]
      rfl
  | [a, b] => by
      obtain ⟨h₁, h₂, h₃, _⟩ := digits_eq a b 0
      rw [Rfc4648.encode_short (by simp), if_neg (List.cons_ne_nil _ _)]
      change [base64Char (charArray4 a b 0).1, base64Char (charArray4 a b 0).2.1,
        base64Char (charArray4 a b 0).2.2.1, 61] = _
      rw [← h₁, ← h₂, ← h₃]
      rfl
  | [a] => by
      obtain ⟨h₁, h₂, _, _⟩ := digits_eq a 0 0
      rw [Rfc4648.encode_short (by simp), if_neg (List.cons_ne_nil _ _)]
      change [base64Char (charArray4 a 0 0).1, base64Char (charArray4 a 0 0).2.1, 61, 61] = _
      rw [← h₁, ← h₂]
      rfl
  | [] => rfl

/-! ### The round trip -/

/-- Every character the encoder writes is read, as the index it stands for. -/
theorem base64Char_read {i : UInt8} (h : i.toNat < 64) :
    isBase64 (base64Char i) = true ∧ base64Find (base64Char i) = i := by
  have hall : ∀ n < 64, isBase64 (base64Char (UInt8.ofNat n)) = true ∧
      base64Find (base64Char (UInt8.ofNat n)) = UInt8.ofNat n := by
    decide +kernel
  have hi := hall i.toNat h
  rwa [UInt8.ofNat_toNat] at hi

/-- The four indices are less than 64. -/
theorem charArray4_lt (a b c : UInt8) : (charArray4 a b c).1.toNat < 64 ∧
    (charArray4 a b c).2.1.toNat < 64 ∧ (charArray4 a b c).2.2.1.toNat < 64 ∧
    (charArray4 a b c).2.2.2.toNat < 64 := by
  obtain ⟨h₁, h₂, h₃, h₄⟩ := toNat_charArray4 a b c
  have ha := a.toNat_lt
  have hb := b.toNat_lt
  have hc := c.toNat_lt
  refine ⟨?_, ?_, ?_, ?_⟩
  · rw [h₁]
    omega
  · rw [h₂]
    omega
  · rw [h₃]
    omega
  · rw [h₄]
    omega

/-- The parts of an index that `base64_decode` cuts out, as numbers. -/
theorem toNat_indexParts (x : UInt8) : ((x &&& 0x30) >>> 4).toNat = x.toNat / 16 % 4 ∧
    ((x &&& 0xf) <<< 4).toNat = x.toNat % 16 * 16 ∧ ((x &&& 0x3c) >>> 2).toNat = x.toNat / 4 % 16 ∧
    ((x &&& 0x3) <<< 6).toNat = x.toNat % 4 * 64 ∧ (x <<< 2).toNat = x.toNat % 64 * 4 := by
  have hall : ∀ n < 256, ((UInt8.ofNat n &&& 0x30) >>> 4).toNat = n / 16 % 4 ∧
      ((UInt8.ofNat n &&& 0xf) <<< 4).toNat = n % 16 * 16 ∧
      ((UInt8.ofNat n &&& 0x3c) >>> 2).toNat = n / 4 % 16 ∧
      ((UInt8.ofNat n &&& 0x3) <<< 6).toNat = n % 4 * 64 ∧
        (UInt8.ofNat n <<< 2).toNat = n % 64 * 4 := by
    decide +kernel
  have hx := hall x.toNat x.toNat_lt
  rwa [UInt8.ofNat_toNat] at hx

/-- **The indices of three bytes give the bytes back**; a byte depends on two indices only. -/
theorem charArray3_charArray4 (a b c : UInt8) {i j k l : UInt8} (hi : i = (charArray4 a b c).1)
    (hj : j = (charArray4 a b c).2.1) :
    (charArray3 i j k l).take 1 = [a] ∧
    (k = (charArray4 a b c).2.2.1 → (charArray3 i j k l).take 2 = [a, b] ∧
      (l = (charArray4 a b c).2.2.2 → charArray3 i j k l = [a, b, c])) := by
  obtain ⟨h₁, h₂, h₃, h₄⟩ := toNat_charArray4 a b c
  have ha := a.toNat_lt
  have hb := b.toNat_lt
  have hc := c.toNat_lt
  rw [← hi] at h₁
  rw [← hj] at h₂
  have hbyte₀ : (i <<< 2) + ((j &&& 0x30) >>> 4) = a := by
    apply UInt8.toNat_inj.1
    rw [UInt8.toNat_add, (toNat_indexParts j).1, (toNat_indexParts i).2.2.2.2]
    omega
  refine ⟨congrArg (fun x => [x]) hbyte₀, fun hk => ?_⟩
  rw [← hk] at h₃
  have hbyte₁ : ((j &&& 0xf) <<< 4) + ((k &&& 0x3c) >>> 2) = b := by
    apply UInt8.toNat_inj.1
    rw [UInt8.toNat_add, (toNat_indexParts j).2.1, (toNat_indexParts k).2.2.1]
    omega
  refine ⟨?_, fun hl => ?_⟩
  · rw [charArray3, hbyte₀, hbyte₁]
    rfl
  rw [← hl] at h₄
  have hbyte₂ : ((k &&& 0x3) <<< 6) + l = c := by
    apply UInt8.toNat_inj.1
    rw [UInt8.toNat_add, (toNat_indexParts k).2.2.2.1]
    omega
  rw [charArray3, hbyte₀, hbyte₁, hbyte₂]

/-- A character that is no digit ends the loop. -/
def Stops (t : Bytes) : Prop := ∀ c ∈ t.head?, isBase64 c = false

theorem decodeLoop_of_stops {t : Bytes} (h : Stops t) (cs : Bytes) :
    decodeLoop t cs = decodeTail cs := by
  cases t with
  | nil => rfl
  | cons c t =>
      have hc := h c rfl
      rw [decodeLoop, if_neg]
      rintro ⟨_, hb⟩
      rw [hc] at hb
      cases hb

/-- A character that is one. -/
theorem decodeLoop_cons {c : UInt8} (hc : isBase64 c = true) (t cs : Bytes) :
    decodeLoop (c :: t) cs =
      if (cs ++ [c]).length = 4 then decodeGroup (cs ++ [c]) ++ decodeLoop t []
      else decodeLoop t (cs ++ [c]) := by
  have hne : c ≠ 61 := by
    rintro rfl
    cases hc
  rw [decodeLoop, if_pos ⟨hne, hc⟩]

/-- A digit is collected. -/
theorem decodeLoop_digit {i : UInt8} (hi : i.toNat < 64) (t cs : Bytes) (h : cs.length < 3) :
    decodeLoop (base64Char i :: t) cs = decodeLoop t (cs ++ [base64Char i]) := by
  rw [decodeLoop_cons (base64Char_read hi).1, if_neg]
  rw [List.length_append, List.length_singleton]
  omega

/-- The fourth digit. -/
theorem decodeLoop_fourth {i : UInt8} (hi : i.toNat < 64) (t cs : Bytes) (h : cs.length = 3) :
    decodeLoop (base64Char i :: t) cs = decodeGroup (cs ++ [base64Char i]) ++ decodeLoop t [] := by
  rw [decodeLoop_cons (base64Char_read hi).1, if_pos]
  rw [List.length_append, List.length_singleton, h]

/-- Decoding gives back what was encoded.  What follows is ignored, if the encoding ends with
padding, or if it begins with a character that is no digit. -/
theorem base64Decode_base64Encode : ∀ l t : Bytes, l.length % 3 ≠ 0 ∨ Stops t →
    base64Decode (base64Encode l ++ t) = l
  | a :: b :: c :: l, t, h => by
      obtain ⟨h₁, h₂, h₃, h₄⟩ := charArray4_lt a b c
      have hmod : (a :: b :: c :: l).length % 3 = l.length % 3 := by
        simp only [List.length_cons]
        omega
      rw [hmod] at h
      have ih := base64Decode_base64Encode l t h
      have hgroup : decodeGroup ([] ++ [base64Char (charArray4 a b c).1] ++
          [base64Char (charArray4 a b c).2.1] ++ [base64Char (charArray4 a b c).2.2.1] ++
          [base64Char (charArray4 a b c).2.2.2]) = [a, b, c] :=
        ((charArray3_charArray4 a b c (base64Char_read h₁).2 (base64Char_read h₂).2).2
          (base64Char_read h₃).2).2 (base64Char_read h₄).2
      change decodeLoop (base64Char (charArray4 a b c).1 :: base64Char (charArray4 a b c).2.1 ::
        base64Char (charArray4 a b c).2.2.1 :: base64Char (charArray4 a b c).2.2.2 ::
        (base64Encode l ++ t)) [] = _
      rw [decodeLoop_digit h₁ _ _ (by simp), decodeLoop_digit h₂ _ _ (by simp),
        decodeLoop_digit h₃ _ _ (by simp), decodeLoop_fourth h₄ _ _ (by simp), hgroup]
      exact congrArg (a :: b :: c :: ·) ih
  | [a, b], t, _ => by
      obtain ⟨h₁, h₂, h₃, _⟩ := charArray4_lt a b 0
      have hstop : Stops (61 :: t) := by
        intro c hc
        obtain rfl := Option.some.inj hc
        decide
      change decodeLoop (base64Char (charArray4 a b 0).1 :: base64Char (charArray4 a b 0).2.1 ::
        base64Char (charArray4 a b 0).2.2.1 :: (61 :: t)) [] = _
      rw [decodeLoop_digit h₁ _ _ (by simp), decodeLoop_digit h₂ _ _ (by simp),
        decodeLoop_digit h₃ _ _ (by simp), decodeLoop_of_stops hstop]
      exact ((charArray3_charArray4 a b 0 (base64Char_read h₁).2 (base64Char_read h₂).2).2
        (base64Char_read h₃).2).1
  | [a], t, _ => by
      obtain ⟨h₁, h₂, _, _⟩ := charArray4_lt a 0 0
      have hstop : Stops (61 :: 61 :: t) := by
        intro c hc
        obtain rfl := Option.some.inj hc
        decide
      change decodeLoop (base64Char (charArray4 a 0 0).1 :: base64Char (charArray4 a 0 0).2.1 ::
        (61 :: 61 :: t)) [] = _
      rw [decodeLoop_digit h₁ _ _ (by simp), decodeLoop_digit h₂ _ _ (by simp),
        decodeLoop_of_stops hstop]
      exact (charArray3_charArray4 a 0 0 (base64Char_read h₁).2 (base64Char_read h₂).2).1
  | [], t, h => by
      rcases h with h | h
      · exact absurd rfl h
      · exact decodeLoop_of_stops h []

/-! ### What is read of any string -/

/-- The loop reads the digits at the front, and nothing else. -/
theorem decodeLoop_takeWhile (s cs : Bytes) :
    decodeLoop s cs = decodeLoop (s.takeWhile isBase64) cs := by
  induction s generalizing cs with
  | nil => rfl
  | cons c s ih =>
      cases hc : isBase64 c with
      | false =>
          have hstop : Stops (c :: s) := by
            intro d hd
            obtain rfl := Option.some.inj hd
            exact hc
          rw [List.takeWhile_cons_of_neg (by simp [hc]), decodeLoop_of_stops hstop]
          rfl
      | true =>
          rw [List.takeWhile_cons_of_pos hc, decodeLoop_cons hc, decodeLoop_cons hc, ih, ih]

/-- Four digits are three bytes; of a last group one digit is lost. -/
theorem length_decodeLoop {s cs : Bytes} (h : ∀ c ∈ s, isBase64 c = true) (hcs : cs.length < 4) :
    (decodeLoop s cs).length =
      (s.length + cs.length) / 4 * 3 + ((s.length + cs.length) % 4 - 1) := by
  induction s generalizing cs with
  | nil =>
      rw [decodeLoop, decodeTail]
      split_ifs with h0
      · simp [h0]
      · rw [List.length_take, decodeGroup, charArray3]
        simp only [List.length_cons, List.length_nil]
        omega
  | cons c s ih =>
      have hc := h c List.mem_cons_self
      have hs : ∀ c ∈ s, isBase64 c = true := fun d hd => h d (List.mem_cons_of_mem c hd)
      rw [decodeLoop_cons hc]
      split_ifs with h4
      · rw [List.length_append, ih hs (by simp)]
        rw [List.length_append, List.length_singleton] at h4
        simp only [decodeGroup, charArray3, List.length_cons, List.length_nil]
        omega
      · rw [List.length_append, List.length_singleton] at h4
        rw [ih hs (by rw [List.length_append, List.length_singleton]; omega)]
        simp only [List.length_append, List.length_cons, List.length_nil]
        omega

/-- **Base64 in both directions.**  The encoder is that of the standard, and the decoder takes it
back, whatever follows: the decoder sees only the digits at the front of a string, as long as an
`int` can count them. -/
theorem base64_round_trip (l t s : Bytes) :
    base64Encode l = Rfc4648.encode l ∧
    (l.length % 3 ≠ 0 ∨ Stops t →
      ((Rfc4648.encode l ++ t).takeWhile isBase64).length < 2 ^ 31 →
      base64Decode (Rfc4648.encode l ++ t) = l) ∧
    ((s.takeWhile isBase64).length < 2 ^ 31 →
      base64Decode s = base64Decode (s.takeWhile isBase64) ∧
      (base64Decode s).length = (s.takeWhile isBase64).length / 4 * 3 +
        ((s.takeWhile isBase64).length % 4 - 1)) := by
  refine ⟨base64Encode_eq_encode l, fun h _ => ?_, fun _ => ?_⟩
  · rw [← base64Encode_eq_encode]
    exact base64Decode_base64Encode l t h
  · have hfront := decodeLoop_takeWhile s []
    have hempty : ([] : Bytes).length < 4 := Nat.zero_lt_succ 3
    refine ⟨hfront, ?_⟩
    rw [base64Decode, hfront, length_decodeLoop (fun c hc => List.mem_takeWhile_imp hc) hempty]
    rfl

/-- "hi", and a line end behind it. -/
theorem base64_round_trip_hi : base64Encode (ascii "hi") = Rfc4648.encode (ascii "hi") ∧
    base64Decode (Rfc4648.encode (ascii "hi") ++ ascii "\r\n") = ascii "hi" ∧
      base64Decode (ascii "aGk!") = base64Decode ((ascii "aGk!").takeWhile isBase64) ∧
      (base64Decode (ascii "aGk!")).length = ((ascii "aGk!").takeWhile isBase64).length / 4 * 3 +
        (((ascii "aGk!").takeWhile isBase64).length % 4 - 1) := by
  obtain ⟨hencode, hdecode, hdigits⟩ :=
    base64_round_trip (ascii "hi") (ascii "\r\n") (ascii "aGk!")
  exact ⟨hencode, hdecode (Or.inl (by decide)) (by decide), hdigits (by decide)⟩

end WebSocketDemo
