/-
**SHA-1** (`sha1.h`, `sha1.cpp`).

The class `SHA1` as the handshake uses it: `Reset`, the character-wise `operator<<`, and `Result`.
`unsigned` is 32 bits wide, so that the masks `& 0xFFFFFFFF` of the source are the identity and are
not repeated.  `Message_Block` is the list of the bytes written so far and `Message_Block_Index` is
its length.

Main results:

* `sha1_eq_hash` — a C string is hashed up to its first NUL, so wholly when it has none;
* `hash_isSome` — `Result` succeeds on everything shorter than `2 ^ 61` bytes.
-/

import WebSocketDemo.Base64
import Mathlib.Data.List.TakeWhile

set_option relaxedAutoImplicit false
set_option autoImplicit false

namespace WebSocketDemo

/-- `CircularShift`. -/
def circularShift (bits word : UInt32) : UInt32 := (word <<< bits) ||| (word >>> (32 - bits))

/-- Five words: the array `H` of the class, and the word buffers `A` to `E` of a round. -/
structure Digest where
  a : UInt32
  b : UInt32
  c : UInt32
  d : UInt32
  e : UInt32
  deriving DecidableEq, Repr

namespace Digest

/-- The words in order. -/
def words (h : Digest) : List UInt32 := [h.a, h.b, h.c, h.d, h.e]

end Digest

/-- The members of `SHA1`. -/
structure SHA1 where
  h : Digest
  lengthLow : UInt32
  lengthHigh : UInt32
  messageBlock : Bytes
  computed : Bool
  corrupted : Bool
  deriving DecidableEq, Repr

namespace SHA1

/-- `Reset`. -/
def reset : SHA1 where
  h := ⟨0x67452301, 0xEFCDAB89, 0x98BADCFE, 0x10325476, 0xC3D2E1F0⟩
  lengthLow := 0
  lengthHigh := 0
  messageBlock := []
  computed := false
  corrupted := false

/-- `W[t]` for `t < 16`: four bytes of the block, most significant first. -/
def blockWord (block : Bytes) (t : ℕ) : UInt32 :=
  ((block.getD (t * 4) 0).toUInt32 <<< 24) ||| ((block.getD (t * 4 + 1) 0).toUInt32 <<< 16) |||
    ((block.getD (t * 4 + 2) 0).toUInt32 <<< 8) ||| (block.getD (t * 4 + 3) 0).toUInt32

/-- The loop filling `n` further words of `W`. -/
def extendWords : ℕ → List UInt32 → List UInt32
  | 0, w => w
  | n + 1, w =>
      let t := w.length
      extendWords n (w ++ [circularShift 1 (w.getD (t - 3) 0 ^^^ w.getD (t - 8) 0 ^^^
        w.getD (t - 14) 0 ^^^ w.getD (t - 16) 0)])

/-- The word sequence `W`. -/
def wordSequence (block : Bytes) : List UInt32 :=
  extendWords 64 ((List.range 16).map (blockWord block))

/-- One iteration of the four loops over `t`: they differ in the function of `B`, `C`, `D` and in
the constant `K`. -/
def round (w : List UInt32) (s : Digest) (t : ℕ) : Digest :=
  let (f, k) :=
    if t < 20 then ((s.b &&& s.c) ||| (~~~s.b &&& s.d), (0x5A827999 : UInt32))
    else if t < 40 then (s.b ^^^ s.c ^^^ s.d, 0x6ED9EBA1)
    else if t < 60 then ((s.b &&& s.c) ||| (s.b &&& s.d) ||| (s.c &&& s.d), 0x8F1BBCDC)
    else (s.b ^^^ s.c ^^^ s.d, 0xCA62C1D6)
  ⟨circularShift 5 s.a + f + s.e + w.getD t 0 + k, s.a, circularShift 30 s.b, s.c, s.d⟩

/-- `ProcessMessageBlock`. -/
def processMessageBlock (self : SHA1) : SHA1 :=
  let w := wordSequence self.messageBlock
  let r := (List.range 80).foldl (round w) self.h
  { self with
    h := ⟨self.h.a + r.a, self.h.b + r.b, self.h.c + r.c, self.h.d + r.d, self.h.e + r.e⟩
    messageBlock := [] }

/-- `Input` of one character. -/
def input (self : SHA1) (b : UInt8) : SHA1 :=
  if self.computed || self.corrupted then
    { self with corrupted := true }
  else
    let low := self.lengthLow + 8
    let high := if low = 0 then self.lengthHigh + 1 else self.lengthHigh
    let self :=
      { self with
        messageBlock := self.messageBlock ++ [b], lengthLow := low, lengthHigh := high
        corrupted := decide (low = 0 ∧ high = 0) }
    if self.messageBlock.length = 64 then self.processMessageBlock else self

/-- The part of a buffer a C string function sees: the bytes before the first NUL. -/
def cStr (p : Bytes) : Bytes := p.takeWhile (· ≠ 0)

/-- `operator<<(const char *)`. -/
def inputStr (self : SHA1) (p : Bytes) : SHA1 := (cStr p).foldl input self

/-- The last 8 octets of a padded message. -/
def lengthOctets (self : SHA1) : Bytes :=
  [(self.lengthHigh >>> 24).toUInt8, (self.lengthHigh >>> 16).toUInt8,
    (self.lengthHigh >>> 8).toUInt8, self.lengthHigh.toUInt8,
    (self.lengthLow >>> 24).toUInt8, (self.lengthLow >>> 16).toUInt8,
    (self.lengthLow >>> 8).toUInt8, self.lengthLow.toUInt8]

/-- `Message_Block[Message_Block_Index++] = 0` up to index `n`. -/
def padZeros (self : SHA1) (n : ℕ) : SHA1 :=
  { self with
    messageBlock := self.messageBlock ++ List.replicate (n - self.messageBlock.length) 0 }

/-- `PadMessage`. -/
def padMessage (self : SHA1) : SHA1 :=
  let long := decide (self.messageBlock.length > 55)
  let self := { self with messageBlock := self.messageBlock ++ [0x80] }
  let self := if long then (self.padZeros 64).processMessageBlock.padZeros 56 else self.padZeros 56
  { self with messageBlock := self.messageBlock ++ self.lengthOctets }.processMessageBlock

/-- `Result`: the digest, or `none` where the source returns `false`. -/
def result (self : SHA1) : Option Digest :=
  if self.corrupted then none
  else if self.computed then some self.h
  else some self.padMessage.h

/-- The hash of all of `p`. -/
def hash (p : Bytes) : Option Digest := (p.foldl input reset).result

/-! ### The bit counter -/

/-- The state after `n` characters: nothing has gone wrong, and the two words count the bits. -/
structure Counts (x : SHA1) (n : ℕ) : Prop where
  computed : x.computed = false
  corrupted : x.corrupted = false
  length : x.lengthLow.toNat + 2 ^ 32 * x.lengthHigh.toNat = 8 * n

theorem counts_reset : reset.Counts 0 := ⟨rfl, rfl, rfl⟩

/-- A block changes the words alone. -/
theorem processMessageBlock_eq (self : SHA1) :
    ∃ d, self.processMessageBlock = { self with h := d, messageBlock := [] } := ⟨_, rfl⟩

theorem Counts.processMessageBlock {self : SHA1} {n : ℕ} (h : self.Counts n) :
    self.processMessageBlock.Counts n := by
  obtain ⟨d, hd⟩ := processMessageBlock_eq self
  rw [hd]
  exact ⟨h.computed, h.corrupted, h.length⟩

/-- Counting a character carries into the high word and does not overflow it. -/
theorem Counts.input {self : SHA1} {n : ℕ} (h : self.Counts n) (hn : n + 1 < 2 ^ 61) (b : UInt8) :
    (self.input b).Counts (n + 1) := by
  have hlow := self.lengthLow.toNat_lt
  have hhigh := self.lengthHigh.toNat_lt
  have hlen := h.length
  have hadd : (self.lengthLow + 8).toNat = (self.lengthLow.toNat + 8) % 2 ^ 32 :=
    UInt32.toNat_add _ 8
  have hzero : self.lengthLow + 8 = 0 ↔ self.lengthLow.toNat + 8 = 2 ^ 32 := by
    rw [← UInt32.toNat_inj, hadd, UInt32.toNat_zero]
    omega
  have hcarry : (self.lengthHigh + 1).toNat = (self.lengthHigh.toNat + 1) % 2 ^ 32 :=
    UInt32.toNat_add _ 1
  have hno : ¬ (self.lengthLow + 8 = 0 ∧
      (if self.lengthLow + 8 = 0 then self.lengthHigh + 1 else self.lengthHigh) = 0) := by
    rintro ⟨hl, hh⟩
    rw [if_pos hl] at hh
    have := congrArg UInt32.toNat hh
    rw [hzero] at hl
    rw [hcarry, UInt32.toNat_zero] at this
    omega
  have hsum : (self.lengthLow + 8).toNat + 2 ^ 32 *
      (if self.lengthLow + 8 = 0 then self.lengthHigh + 1 else self.lengthHigh).toNat =
        8 * (n + 1) := by
    split_ifs with hl
    · rw [hzero] at hl
      rw [hadd, hcarry]
      omega
    · rw [hzero] at hl
      rw [hadd]
      omega
  unfold SHA1.input
  rw [h.computed, h.corrupted]
  simp only [Bool.or_self, Bool.false_eq_true, if_false, decide_eq_false hno]
  by_cases hfull : (self.messageBlock ++ [b]).length = 64
  · rw [if_pos hfull]
    exact Counts.processMessageBlock ⟨rfl, rfl, hsum⟩
  · rw [if_neg hfull]
    exact ⟨rfl, rfl, hsum⟩

theorem Counts.foldl {self : SHA1} {n : ℕ} (h : self.Counts n) (p : Bytes)
    (hp : n + p.length < 2 ^ 61) : (p.foldl SHA1.input self).Counts (n + p.length) := by
  induction p generalizing self n with
  | nil => exact h
  | cons b p ih =>
      rw [List.length_cons] at hp ⊢
      have hrest := ih (h.input (by omega) b) (by omega)
      rwa [Nat.add_assoc, Nat.add_comm 1] at hrest

/-- `Result` succeeds. -/
theorem hash_isSome {p : Bytes} (hp : p.length < 2 ^ 61) : (hash p).isSome := by
  have h := counts_reset.foldl p (by omega)
  simp [hash, result, h.computed, h.corrupted]

end SHA1

/-- The handshake's use of the class: `Reset`, `<<`, `Result`. -/
def sha1 (p : Bytes) : Option Digest := (SHA1.reset.inputStr p).result

/-- A C string is hashed up to its first NUL. -/
theorem sha1_eq_hash {p : Bytes} (h : 0 ∉ p) : sha1 p = SHA1.hash p := by
  have hall : SHA1.cStr p = p := by
    rw [SHA1.cStr, List.takeWhile_eq_self_iff]
    intro b hb
    have hne : b ≠ 0 := fun he => h (he ▸ hb)
    simpa using hne
  rw [sha1, SHA1.inputStr, hall, SHA1.hash]

/-- The digest of `"abc"`. -/
example : sha1 (ascii "abc") =
    some ⟨0xa9993e36, 0x4706816a, 0xba3e2571, 0x7850c26c, 0x9cd0d89d⟩ := by
  decide +kernel

end WebSocketDemo
