/-
**URL encoding** (`CHttpclient::UrlEncode`, `UrlDecode`, `Hex2Char` and `Char2Hex` in
`HttpClient.cpp`).

A `char` is modelled by its byte; where its sign matters, in comparisons and in the right shift, the
byte is read as an `Int8`.  The loops count with an `int` up to the size converted to `int`, so that
only a front of a very long string is looked at.  `UrlDecode` has no branch for a mark written
literally, which is left out, and `Char2Hex` none for small letters, which come out too large by 32;
in the first digit of two that does not show, for it is shifted out.

Main definitions:

* `CHttpclient.urlEncode`, `CHttpclient.urlDecode`;
* `Token.Understood` — the forms `UrlDecode` reads as they are meant.

Main results:

* `urlDecodeLoop_render` — what the loop makes of a representation, token by token;
* `urlDecode_inverts_iff` — **which representations are decoded**, and `UrlEncode` writes one.
-/

import WebSocketDemo.Lib.UrlEncoded

set_option relaxedAutoImplicit false
set_option autoImplicit false

namespace WebSocketDemo

open UrlEncoded

namespace CHttpclient

/-- `(int)size` for a `size_t`. -/
def intOfSize (size : ℕ) : ℤ := Int.bmod size (2 ^ 32)

/-- The test for `'0'` to `'9'`, `'a'` to `'z'` and `'A'` to `'Z'`, on a signed `char`. -/
def isAlnum (ch : UInt8) : Bool :=
  let c := ch.toInt8
  (decide (48 ≤ c) && decide (c ≤ 57)) || (decide (97 ≤ c) && decide (c ≤ 122)) ||
    (decide (65 ≤ c) && decide (c ≤ 90))

/-- `Hex2Char`. -/
def hex2Char (abyChValue : UInt8) : UInt8 :=
  if abyChValue < 10 then 48 + abyChValue else 65 + abyChValue - 10

/-- `Char2Hex`. -/
def char2Hex (abyChValue : UInt8) : UInt8 :=
  if abyChValue < 65 then abyChValue - 48 else abyChValue - 65 + 10

/-- What one turn of the loop of `UrlEncode` appends. -/
def urlEncodeChar (ch : UInt8) : Bytes :=
  if isAlnum ch then [ch]
  else if ch = 32 then [43]
  else [37, hex2Char ((ch.toInt8 >>> 4).toUInt8 &&& 0x0F), hex2Char (ch &&& 0x0F)]

/-- `UrlEncode`. -/
def urlEncode (astrData : Bytes) : Bytes :=
  (astrData.take (intOfSize astrData.length).toNat).flatMap urlEncodeChar

/-- The loop of `UrlDecode`, on what is left up to the last index it may read. -/
def urlDecodeLoop : Bytes → Bytes
  | [] => []
  | ch :: rest =>
      if isAlnum ch then ch :: urlDecodeLoop rest
      else if ch = 43 then 32 :: urlDecodeLoop rest
      else if ch = 37 then
        match rest with
        | hi :: lo :: rest => ((char2Hex hi <<< 4) + char2Hex lo) :: urlDecodeLoop rest
        | _ => []
      else urlDecodeLoop rest

/-- `UrlDecode`. -/
def urlDecode (astrData : Bytes) : Bytes :=
  urlDecodeLoop (astrData.take (intOfSize astrData.length).toNat)

end CHttpclient

open CHttpclient

/-! ### Characters and digits -/

/-- A property of bytes that holds of the 256 of them. -/
theorem forall_byte {p : UInt8 → Prop} (h : ∀ n : Fin 256, p (UInt8.ofNat n.val)) (x : UInt8) :
    p x := by
  have hx := h ⟨x.toNat, x.toNat_lt⟩
  rwa [UInt8.ofNat_toNat] at hx

/-- The sign does not matter. -/
theorem isAlnum_eq (x : UInt8) : isAlnum x = decide (IsAlnum x) :=
  forall_byte (p := fun x => isAlnum x = decide (IsAlnum x)) (by decide +kernel) x

theorem not_isAlnum_of_isMark {x : UInt8} (h : IsMark x) : isAlnum x = false ∧ x ≠ 43 ∧ x ≠ 37 := by
  simp only [IsMark, List.mem_cons, List.not_mem_nil, or_false] at h
  rcases h with rfl | rfl | rfl | rfl <;> decide

/-- Two digits are read back, but for a small letter in the second place. -/
theorem char2Hex_char : ∀ (v w : Fin 16) (s t : Bool),
    (char2Hex (HexDigit.char ⟨v, s⟩) <<< 4) + char2Hex (HexDigit.char ⟨w, t⟩) =
      UInt8.ofNat (16 * v.val + w.val) + (if 10 ≤ w.val ∧ t = true then 32 else 0) := by
  decide +kernel

/-- The digits of a byte that is written as an escape. -/
theorem hex2Char_nibbles (x : UInt8) :
    hex2Char ((x.toInt8 >>> 4).toUInt8 &&& 0x0F) =
        HexDigit.char ⟨⟨x.toNat / 16, by have := x.toNat_lt; omega⟩, false⟩ ∧
      hex2Char (x &&& 0x0F) = HexDigit.char ⟨⟨x.toNat % 16, by omega⟩, false⟩ := by
  have hall : ∀ n : Fin 256, hex2Char (((UInt8.ofNat n.val).toInt8 >>> 4).toUInt8 &&& 0x0F) =
      HexDigit.char ⟨Fin.ofNat 16 (n.val / 16), false⟩ ∧
        hex2Char (UInt8.ofNat n.val &&& 0x0F) =
          HexDigit.char ⟨Fin.ofNat 16 (n.val % 16), false⟩ := by
    decide +kernel
  have hx := hall ⟨x.toNat, x.toNat_lt⟩
  rw [UInt8.ofNat_toNat] at hx
  refine ⟨hx.1.trans ?_, hx.2.trans ?_⟩
  · congr 2
    exact Fin.ext (Nat.mod_eq_of_lt (by have := x.toNat_lt; omega))
  · congr 2
    exact Fin.ext (Nat.mod_mod _ _)

/-! ### Decoding -/

/-- What the loop of `UrlDecode` makes of a token. -/
def Token.read : Token → Bytes
  | .literal x _ => if isAlnum x then [x] else []
  | .plus => [32]
  | .escape hi lo => [(char2Hex hi.char <<< 4) + char2Hex lo.char]

/-- The forms that are read as they are meant: no mark is written literally, and the second digit of
an escape is no small letter. -/
def Token.Understood : Token → Prop
  | .literal x _ => ¬ IsMark x
  | .plus => True
  | .escape _ lo => ¬ lo.IsSmall

instance (t : Token) : Decidable (Token.Understood t) := by
  cases t with
  | literal x h => exact inferInstanceAs (Decidable (¬ IsMark x))
  | plus => exact inferInstanceAs (Decidable True)
  | escape hi lo => exact inferInstanceAs (Decidable (¬ lo.IsSmall))

theorem Token.length_read_le (t : Token) : (Token.read t).length ≤ 1 := by
  cases t with
  | literal x h =>
      rw [Token.read]
      split_ifs
      · exact Nat.le_refl _
      · exact Nat.zero_le _
  | plus => exact Nat.le_refl _
  | escape hi lo => exact Nat.le_refl _

theorem Token.read_eq_iff (t : Token) : Token.read t = [t.value] ↔ Token.Understood t := by
  cases t with
  | literal x h =>
      rw [Token.read, Token.Understood, isAlnum_eq]
      by_cases hm : IsMark x
      · have hno := (not_isAlnum_of_isMark hm).1
        rw [isAlnum_eq] at hno
        simp [hno, hm]
      · have halnum := h.resolve_right hm
        simp [halnum, hm, Token.value]
  | plus => exact ⟨fun _ => trivial, fun _ => rfl⟩
  | escape hi lo =>
      rw [Token.read, Token.Understood, Token.value, char2Hex_char, HexDigit.IsSmall]
      split_ifs with hs
      · simp [hs]
      · simp [hs]

/-- The branches of the loop. -/
theorem urlDecodeLoop_cons (ch : UInt8) (rest : Bytes) : urlDecodeLoop (ch :: rest) =
    if isAlnum ch then ch :: urlDecodeLoop rest
    else if ch = 43 then 32 :: urlDecodeLoop rest
    else if ch = 37 then
      match rest with
      | hi :: lo :: rest => ((char2Hex hi <<< 4) + char2Hex lo) :: urlDecodeLoop rest
      | _ => []
    else urlDecodeLoop rest := by
  match rest with
  | [] => rfl
  | [_] => rfl
  | _ :: _ :: _ => rfl

/-- One token is read at a time. -/
theorem urlDecodeLoop_token (t : Token) (rest : Bytes) :
    urlDecodeLoop (t.bytes ++ rest) = Token.read t ++ urlDecodeLoop rest := by
  cases t with
  | literal x h =>
      rw [Token.bytes, Token.read, List.singleton_append, urlDecodeLoop_cons]
      by_cases hx : isAlnum x = true
      · rw [if_pos hx, if_pos hx, List.singleton_append]
      · have hm : IsMark x := h.resolve_left fun ha => hx (by rw [isAlnum_eq]; simpa using ha)
        obtain ⟨_, h43, h37⟩ := not_isAlnum_of_isMark hm
        rw [if_neg hx, if_neg h43, if_neg h37, if_neg hx, List.nil_append]
  | plus =>
      rw [Token.bytes, List.singleton_append, urlDecodeLoop_cons, if_neg (by decide), if_pos rfl]
      rfl
  | escape hi lo =>
      have hbytes : (Token.escape hi lo).bytes ++ rest = 37 :: hi.char :: lo.char :: rest := rfl
      rw [hbytes, urlDecodeLoop_cons, if_neg (by decide), if_neg (by decide), if_pos rfl]
      rfl

/-- **What the loop makes of a representation.** -/
theorem urlDecodeLoop_render (ts : List Token) :
    urlDecodeLoop (render ts) = ts.flatMap Token.read := by
  induction ts with
  | nil => rfl
  | cons t ts ih => rw [render_cons, urlDecodeLoop_token, ih, List.flatMap_cons]

/-- What is cut off inside a token is not read. -/
theorem urlDecodeLoop_cut (t : Token) {n : ℕ} (hn : n < t.bytes.length) :
    urlDecodeLoop (t.bytes.take n) = [] := by
  cases t with
  | literal x h =>
      obtain rfl : n = 0 := Nat.lt_one_iff.1 hn
      rfl
  | plus =>
      obtain rfl : n = 0 := Nat.lt_one_iff.1 hn
      rfl
  | escape hi lo =>
      match n, hn with
      | 0, _ => rfl
      | 1, _ => rfl
      | 2, _ => rfl

/-- Of a representation that is not read to its end fewer bytes come out than it stands for. -/
theorem length_urlDecodeLoop_take_lt (ts : List Token) {n : ℕ} (hn : n < (render ts).length) :
    (urlDecodeLoop ((render ts).take n)).length < ts.length := by
  induction ts generalizing n with
  | nil => exact absurd hn (Nat.not_lt_zero n)
  | cons t ts ih =>
      rw [render_cons, List.length_append] at hn
      rw [render_cons, List.take_append, List.length_cons]
      by_cases hcut : n < t.bytes.length
      · have hzero : n - t.bytes.length = 0 := by omega
        rw [hzero, List.take_zero, List.append_nil, urlDecodeLoop_cut t hcut]
        exact Nat.succ_pos _
      · have hrest := ih (n := n - t.bytes.length) (by omega)
        have hread := Token.length_read_le t
        rw [List.take_of_length_le (by omega), urlDecodeLoop_token, List.length_append]
        omega

/-! ### The length as an `int` -/

theorem intOfSize_of_lt {n : ℕ} (h : n < 2 ^ 31) : (intOfSize n).toNat = n := by
  unfold intOfSize
  simp only [Int.bmod_def]
  omega

theorem intOfSize_lt {n : ℕ} (h : ¬ n < 2 ^ 31) : (intOfSize n).toNat < n := by
  unfold intOfSize
  simp only [Int.bmod_def]
  omega

theorem urlDecode_of_lt {e : Bytes} (h : e.length < 2 ^ 31) : urlDecode e = urlDecodeLoop e := by
  rw [urlDecode, intOfSize_of_lt h, List.take_length]

theorem urlEncode_of_lt {s : Bytes} (h : s.length < 2 ^ 31) :
    urlEncode s = s.flatMap urlEncodeChar := by
  rw [urlEncode, intOfSize_of_lt h, List.take_length]

/-! ### Encoding -/

/-- The form in which `UrlEncode` writes a byte. -/
def tokenOf (x : UInt8) : Token :=
  if h : IsAlnum x then .literal x (Or.inl h)
  else if x = 32 then .plus
  else .escape ⟨⟨x.toNat / 16, by have := x.toNat_lt; omega⟩, false⟩
    ⟨⟨x.toNat % 16, by omega⟩, false⟩

theorem tokenOf_value (x : UInt8) : (tokenOf x).value = x := by
  unfold tokenOf
  split_ifs with h h32
  · rfl
  · exact h32.symm
  · change UInt8.ofNat (16 * (x.toNat / 16) + x.toNat % 16) = x
    rw [Nat.div_add_mod, UInt8.ofNat_toNat]

theorem tokenOf_bytes (x : UInt8) : (tokenOf x).bytes = urlEncodeChar x := by
  rw [tokenOf, urlEncodeChar, isAlnum_eq]
  by_cases h : IsAlnum x
  · rw [dif_pos h, decide_eq_true h, if_pos rfl, Token.bytes]
  · rw [dif_neg h, decide_eq_false h, if_neg Bool.false_ne_true]
    by_cases h32 : x = 32
    · rw [if_pos h32, if_pos h32, Token.bytes]
    · obtain ⟨hhi, hlo⟩ := hex2Char_nibbles x
      rw [if_neg h32, if_neg h32, Token.bytes, hhi, hlo]

/-- **What `UrlEncode` writes is a representation.** -/
theorem urlEncode_represents {s : Bytes} (hs : s.length < 2 ^ 31) :
    urlEncode s = render (s.map tokenOf) ∧ values (s.map tokenOf) = s := by
  constructor
  · rw [urlEncode_of_lt hs, render, List.flatMap_map]
    simp only [tokenOf_bytes]
  · simp only [values, List.map_map, Function.comp_def, tokenOf_value, List.map_id']

/-- **Which representations are decoded.**  `UrlDecode` returns what is represented exactly when no
mark is written literally, no escape has a small letter for its second digit, and the representation
is shorter than 2^31 bytes.  `UrlEncode` writes a representation. -/
theorem urlDecode_inverts_iff {s : Bytes} (hs : s.length < 2 ^ 31) :
    (∀ ts : List Token, values ts = s → (urlDecode (render ts) = s ↔
      (∀ t ∈ ts, Token.Understood t) ∧ (render ts).length < 2 ^ 31)) ∧
    ∃ ts : List Token, urlEncode s = render ts ∧ values ts = s := by
  refine ⟨fun ts hts => ?_, _, urlEncode_represents hs⟩
  subst hts
  by_cases hlen : (render ts).length < 2 ^ 31
  · rw [urlDecode_of_lt hlen, urlDecodeLoop_render, values, flatMap_eq_map_iff Token.length_read_le]
    simp only [Token.read_eq_iff, hlen, and_true]
  · -- the end is not read
    have hcut := length_urlDecodeLoop_take_lt ts (intOfSize_lt hlen)
    simp only [hlen, and_false, iff_false]
    intro he
    rw [← urlDecode, he, values, List.length_map] at hcut
    exact Nat.lt_irrefl _ hcut

/-- `a+%2F` is decoded. -/
theorem urlDecode_inverts_iff_slash : urlDecode [97, 43, 37, 50, 70] = [97, 32, 47] := by
  have hs : ([97, 32, 47] : Bytes).length < 2 ^ 31 := by decide
  refine ((urlDecode_inverts_iff hs).1 [.literal 97 (by decide), .plus,
    .escape ⟨2, false⟩ ⟨15, false⟩] rfl).2 ⟨?_, by decide⟩
  simp only [List.forall_mem_cons]
  exact ⟨by decide, by decide, by decide, List.forall_mem_nil _⟩

/-- A mark that is written literally is lost, and a small second digit gives another byte. -/
theorem mark_and_small_digit_misread :
    urlDecode [97, 45, 98] = [97, 98] ∧ urlDecode [37, 50, 102] = [79] ∧
      (∃ ts, render ts = [97, 45, 98] ∧ values ts = [97, 45, 98]) ∧
      ∃ ts, render ts = [37, 50, 102] ∧ values ts = [47] := by
  refine ⟨by decide, by decide, ⟨[.literal 97 (by decide), .literal 45 (by decide),
    .literal 98 (by decide)], by decide, by decide⟩, [.escape ⟨2, false⟩ ⟨15, true⟩], by decide,
    by decide⟩

end WebSocketDemo
