/-
**Machine words and their bytes on a little-endian host.**

Network code moves words in and out of byte buffers with `memcpy` and swaps them with `htons`,
`ntohs` and `htonl`.  Whether the bytes come out in network order is a fact about the pair of
operations, not about either of them alone.  This module models both on a little-endian host and
proves the pairs right; nothing in it depends on the program that uses it.

Main definitions:

* `ByteOrder.load16`, `ByteOrder.store16`, `ByteOrder.store32` — a word as it lies in memory;
* `ByteOrder.swap16`, `ByteOrder.swap32` — the byte swap that `htons`/`ntohs` and `htonl` are;
* `ByteOrder.bigEndian` — the `n` bytes of a number, most significant first.

Main results:

* `ByteOrder.ofBigEndian_bigEndian` — the bytes of a number denote it;
* `ByteOrder.toNat_swap16_load16` — **`ntohs` of two loaded bytes is their big-endian value**;
* `ByteOrder.store16_swap16`, `ByteOrder.store32_swap32` — **a swapped word is stored most
  significant byte first**.
-/

import Mathlib.Data.Nat.Bitwise
import Mathlib.Data.List.Basic
import Mathlib.Tactic.IntervalCases
import Mathlib.Tactic.Ring

set_option relaxedAutoImplicit false
set_option autoImplicit false

/-- A byte buffer: `std::vector<char>`, `std::string` and the arrays behind them. -/
abbrev Bytes := List UInt8

namespace ByteOrder

/-! ### Memory -/

/-- Two bytes of memory read as a 16-bit word. -/
def load16 (b₀ b₁ : UInt8) : UInt16 := b₀.toUInt16 ||| (b₁.toUInt16 <<< 8)

/-- The two bytes of a 16-bit word as they lie in memory. -/
def store16 (x : UInt16) : Bytes := [x.toUInt8, (x >>> 8).toUInt8]

/-- The four bytes of a 32-bit word as they lie in memory. -/
def store32 (x : UInt32) : Bytes :=
  [x.toUInt8, (x >>> 8).toUInt8, (x >>> 16).toUInt8, (x >>> 24).toUInt8]

@[simp] theorem length_store32 (x : UInt32) : (store32 x).length = 4 := rfl

/-! ### Swapping -/

/-- `htons` and `ntohs`. -/
def swap16 (x : UInt16) : UInt16 := (x <<< 8) ||| (x >>> 8)

/-- `htonl` and `ntohl`. -/
def swap32 (x : UInt32) : UInt32 :=
  (x <<< 24) ||| ((x &&& (0xFF00 : UInt32)) <<< 8) ||| ((x >>> 8) &&& (0xFF00 : UInt32)) |||
    (x >>> 24)

/-- The `n` low bytes of a number, most significant first. -/
def bigEndian : ℕ → ℕ → Bytes
  | 0, _ => []
  | n + 1, v => UInt8.ofNat (v / 256 ^ n) :: bigEndian n v

@[simp] theorem length_bigEndian (n v : ℕ) : (bigEndian n v).length = n := by
  induction n with
  | zero => rfl
  | succ n ih => simp [bigEndian, ih]

/-- The number that bytes denote, most significant first. -/
def ofBigEndian (b : Bytes) : ℕ := b.foldl (fun v x => 256 * v + x.toNat) 0

/-- Reading the bytes one at a time: the accumulator moves up by a byte. -/
theorem foldl_bigEndian (n v a : ℕ) :
    (bigEndian n v).foldl (fun v x => 256 * v + x.toNat) a = a * 256 ^ n + v % 256 ^ n := by
  induction n generalizing a with
  | zero => simp [bigEndian, Nat.mod_one]
  | succ n ih =>
      rw [bigEndian, List.foldl_cons, ih]
      have hmod : v % 256 ^ (n + 1) = 256 ^ n * (v / 256 ^ n % 256) + v % 256 ^ n := by
        rw [pow_succ, Nat.mod_mul]
        ring
      have hbyte : (UInt8.ofNat (v / 256 ^ n)).toNat = v / 256 ^ n % 256 := by simp
      rw [hmod, hbyte, pow_succ]
      ring

/-- **The bytes of a number denote it.** -/
theorem ofBigEndian_bigEndian {n v : ℕ} (h : v < 256 ^ n) : ofBigEndian (bigEndian n v) = v := by
  rw [ofBigEndian, foldl_bigEndian, Nat.zero_mul, Nat.zero_add, Nat.mod_eq_of_lt h]

/-- As many bytes as there are bound the number. -/
theorem foldl_lt (b : Bytes) (a : ℕ) :
    b.foldl (fun v x => 256 * v + x.toNat) a < (a + 1) * 256 ^ b.length := by
  induction b generalizing a with
  | nil => simp
  | cons x b ih =>
      have hx : x.toNat < 256 := x.toNat_lt
      have hstep : (256 * a + x.toNat + 1) * 256 ^ b.length ≤ ((a + 1) * 256) * 256 ^ b.length :=
        Nat.mul_le_mul_right _ (by omega)
      have hpow : (a + 1) * 256 ^ (x :: b).length = ((a + 1) * 256) * 256 ^ b.length := by
        rw [List.length_cons, pow_succ]
        ring
      rw [List.foldl_cons, hpow]
      exact (ih _).trans_le hstep

theorem ofBigEndian_lt (b : Bytes) : ofBigEndian b < 256 ^ b.length := by
  have h := foldl_lt b 0
  rwa [Nat.zero_add, Nat.one_mul] at h

/-! ### The pairs are right -/

theorem swap16_load16 (b₀ b₁ : UInt8) :
    swap16 (load16 b₀ b₁) = (b₀.toUInt16 <<< 8) ||| b₁.toUInt16 := by
  apply UInt16.toBitVec_inj.1
  simp only [swap16, load16]
  ext i hi
  simp
  grind

/-- **`ntohs` of two loaded bytes is their big-endian value.** -/
theorem toNat_swap16_load16 (b₀ b₁ : UInt8) :
    (swap16 (load16 b₀ b₁)).toNat = ofBigEndian [b₀, b₁] := by
  have h₀ := b₀.toNat_lt
  have h₁ := b₁.toNat_lt
  have hval : ((b₀.toUInt16 <<< 8) ||| b₁.toUInt16).toNat = b₀.toNat <<< 8 ||| b₁.toNat := by
    rw [UInt16.toNat_or, UInt16.toNat_shiftLeft, UInt8.toNat_toUInt16, UInt8.toNat_toUInt16]
    congr 1
    exact Nat.mod_eq_of_lt (by simp [Nat.shiftLeft_eq]; omega)
  -- the two bytes occupy disjoint bits, so `|||` adds them
  rw [swap16_load16, hval, ← Nat.shiftLeft_add_eq_or_of_lt h₁, Nat.shiftLeft_eq]
  simp [ofBigEndian, Nat.mul_comm]

/-- **A word swapped by `htons` is stored most significant byte first.** -/
theorem store16_swap16 (x : UInt16) : store16 (swap16 x) = bigEndian 2 x.toNat := by
  have hhigh : (swap16 x).toUInt8 = (x >>> 8).toUInt8 := by
    apply UInt8.toBitVec_inj.1
    simp [swap16]
  have hlow : (swap16 x >>> 8).toUInt8 = x.toUInt8 := by
    apply UInt8.toBitVec_inj.1
    ext i hi
    simp [swap16]
    grind
  rw [store16, hhigh, hlow]
  simp only [bigEndian, List.cons.injEq, and_true]
  constructor
  · apply UInt8.toNat_inj.1
    simp [Nat.shiftRight_eq_div_pow]
  · apply UInt8.toNat_inj.1
    simp

/-- `htonl` puts byte `3 - k` where byte `k` was. -/
theorem getLsbD_swap32 (x : UInt32) {k i : ℕ} (hk : k < 4) (hi : i < 8) :
    (swap32 x).toBitVec.getLsbD (8 * k + i) = x.toBitVec.getLsbD (8 * (3 - k) + i) := by
  interval_cases k <;> interval_cases i <;> simp [swap32]

/-- **A word swapped by `htonl` is stored most significant byte first.** -/
theorem store32_swap32 (x : UInt32) : store32 (swap32 x) = bigEndian 4 x.toNat := by
  have h₀ : (swap32 x).toUInt8 = (x >>> 24).toUInt8 := by
    apply UInt8.toBitVec_inj.1
    ext i hi
    simpa [hi] using getLsbD_swap32 x (k := 0) (by omega) hi
  have h₁ : (swap32 x >>> 8).toUInt8 = (x >>> 16).toUInt8 := by
    apply UInt8.toBitVec_inj.1
    ext i hi
    simpa [hi] using getLsbD_swap32 x (k := 1) (by omega) hi
  have h₂ : (swap32 x >>> 16).toUInt8 = (x >>> 8).toUInt8 := by
    apply UInt8.toBitVec_inj.1
    ext i hi
    simpa [hi] using getLsbD_swap32 x (k := 2) (by omega) hi
  have h₃ : (swap32 x >>> 24).toUInt8 = x.toUInt8 := by
    apply UInt8.toBitVec_inj.1
    ext i hi
    simpa [hi] using getLsbD_swap32 x (k := 3) (by omega) hi
  rw [store32, h₀, h₁, h₂, h₃]
  simp only [bigEndian, List.cons.injEq, and_true]
  refine ⟨?_, ?_, ?_, ?_⟩ <;>
    · apply UInt8.toNat_inj.1
      simp [Nat.shiftRight_eq_div_pow]

end ByteOrder
