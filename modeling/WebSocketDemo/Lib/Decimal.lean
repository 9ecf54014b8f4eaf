/-
**Decimal numerals as bytes.**

A numeral is a non-empty string of digits; leading zeros are allowed.  Each number has one that is
written for it.  Nothing here depends on the program that uses it.

Main definitions:

* `Decimal.value`, `Decimal.Denotes` — the number a string of digits stands for;
* `Decimal.render` — the numeral without leading zeros.

Main results:

* `Decimal.denotes_render` — **what is written for a number stands for it**;
* `Decimal.takeWhile_numeral` — a numeral ends where the digits end.
-/

import WebSocketDemo.Lib.ByteOrder
import Mathlib.Data.List.TakeWhile

set_option relaxedAutoImplicit false
set_option autoImplicit false

namespace Decimal

/-- `0` to `9`. -/
def IsDigit (b : UInt8) : Prop := 48 ≤ b ∧ b ≤ 57

instance (b : UInt8) : Decidable (IsDigit b) := inferInstanceAs (Decidable (48 ≤ b ∧ b ≤ 57))

/-- The number a string of digits stands for. -/
def value (d : Bytes) : ℕ := d.foldl (fun v b => 10 * v + (b.toNat - 48)) 0

/-- `d` is a numeral for `n`. -/
structure Denotes (d : Bytes) (n : ℕ) : Prop where
  ne_nil : d ≠ []
  isDigit : ∀ b ∈ d, IsDigit b
  value_eq : value d = n

instance (d : Bytes) (n : ℕ) : Decidable (Denotes d n) :=
  haveI := List.decidableBAll IsDigit d
  decidable_of_iff (d ≠ [] ∧ (∀ b ∈ d, IsDigit b) ∧ value d = n)
    ⟨fun h => ⟨h.1, h.2.1, h.2.2⟩, fun h => ⟨h.ne_nil, h.isDigit, h.value_eq⟩⟩

/-- The numeral without leading zeros. -/
def render (n : ℕ) : Bytes := (Nat.toDigits 10 n).map fun c => UInt8.ofNat c.toNat

/-- A character that is a digit is one byte. -/
theorem toNat_digit {c : Char} (h : c.isDigit = true) :
    48 ≤ c.toNat ∧ c.toNat ≤ 57 ∧ (UInt8.ofNat c.toNat).toNat = c.toNat := by
  have hc : 48 ≤ c.toNat ∧ c.toNat ≤ 57 := by
    simpa [Char.isDigit, UInt32.le_iff_toNat_le] using h
  refine ⟨hc.1, hc.2, ?_⟩
  rw [UInt8.toNat_ofNat']
  omega

/-- **What is written for a number stands for it.** -/
theorem denotes_render (n : ℕ) : Denotes (render n) n := by
  have hdigits : ∀ c ∈ Nat.toDigits 10 n, c.isDigit = true := fun c hc =>
    Nat.isDigit_of_mem_toDigits (by decide) (by decide) hc
  refine ⟨?_, ?_, ?_⟩
  · simp [render, Nat.toDigits_ne_nil]
  · intro b hb
    obtain ⟨c, hc, rfl⟩ := List.mem_map.1 hb
    obtain ⟨h48, h57, hnat⟩ := toNat_digit (hdigits c hc)
    rw [IsDigit, UInt8.le_iff_toNat_le, UInt8.le_iff_toNat_le, hnat]
    exact ⟨h48, h57⟩
  · have hfold : ∀ (l : List Char) (v : ℕ), (∀ c ∈ l, c.isDigit = true) →
        (l.map fun c => UInt8.ofNat c.toNat).foldl (fun v b => 10 * v + (b.toNat - 48)) v =
          Nat.ofDigitChars 10 l v := by
      intro l
      induction l with
      | nil => intro v _; rfl
      | cons c l ih =>
          intro v hl
          obtain ⟨hc, hl⟩ := List.forall_mem_cons.1 hl
          rw [List.map_cons, List.foldl_cons, Nat.ofDigitChars_cons, (toNat_digit hc).2.2]
          exact ih _ hl
    rw [value, render, hfold _ _ hdigits, Nat.ofDigitChars_ten_toDigits]

/-- **A numeral ends where the digits end.** -/
theorem takeWhile_numeral {d rest : Bytes} (hd : ∀ b ∈ d, IsDigit b)
    (hrest : ∀ b ∈ rest.head?, ¬ IsDigit b) :
    (d ++ rest).takeWhile (fun b => decide (IsDigit b)) = d := by
  rw [List.takeWhile_append_of_pos (fun b hb => decide_eq_true (hd b hb))]
  cases rest with
  | nil => simp
  | cons b rest => simp [hrest b (by simp)]

end Decimal
