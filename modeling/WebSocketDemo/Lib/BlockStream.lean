/-
**Streams taken in blocks.**

A hash function of the iterated kind, a cipher or a compressor works on blocks of a fixed size,
while its input arrives one element at a time.  The elements are collected in a buffer, and a full
buffer is processed and emptied.  This module computes what such a loop has done after any input: it
has processed the full blocks at the front, and the rest is in the buffer.  Nothing here depends on
what is done with a block.

Main definitions:

* `BlockStream.feed` — one element;
* `BlockStream.blocks`, `BlockStream.rest` — the full blocks of an input, and what is behind them.

Main results:

* `BlockStream.foldl_feed` — **the loop processes the full blocks and keeps the rest**;
* `BlockStream.blocks_append` — the blocks of an input in two parts.
-/

import Mathlib.Data.List.Induction
import Mathlib.Data.Nat.ModEq

set_option relaxedAutoImplicit false
set_option autoImplicit false

namespace BlockStream

variable {α σ : Type} (n : ℕ) (f : σ → List α → σ)

/-- One element: it goes to the buffer, and a full buffer is processed. -/
def feed (p : σ × List α) (x : α) : σ × List α :=
  if (p.2 ++ [x]).length = n then (f p.1 (p.2 ++ [x]), []) else (p.1, p.2 ++ [x])

/-- The full blocks at the front. -/
def blocks (m : List α) : List (List α) :=
  (List.range (m.length / n)).map fun i => (m.drop (n * i)).take n

/-- What is behind the last full block. -/
def rest (m : List α) : List α := m.drop (n * (m.length / n))

variable {n} {m p : List α}

theorem length_rest (m : List α) : (rest n m).length = m.length % n := by
  rw [rest, List.length_drop]
  have h := Nat.div_add_mod m.length n
  omega

theorem rest_length_lt (hn : 0 < n) (m : List α) : (rest n m).length < n := by
  rw [length_rest]
  exact Nat.mod_lt _ hn

/-! ### One more element -/

/-- A block that is there is there when more follows. -/
theorem take_block (m p : List α) {i : ℕ} (hi : i < m.length / n) :
    ((m ++ p).drop (n * i)).take n = (m.drop (n * i)).take n := by
  have hmul : n * (i + 1) ≤ n * (m.length / n) := Nat.mul_le_mul_left n hi
  have hle : n * (m.length / n) ≤ m.length := Nat.mul_div_le m.length n
  rw [Nat.mul_add, Nat.mul_one] at hmul
  rw [List.drop_append_of_le_length (by omega), List.take_append_of_le_length]
  rw [List.length_drop]
  omega

/-- The element does not complete a block. -/
theorem blocks_snoc_of_ne (x : α) (h : (m.length + 1) % n ≠ 0) :
    blocks n (m ++ [x]) = blocks n m ∧ rest n (m ++ [x]) = rest n m ++ [x] := by
  have hdiv : (m.length + 1) / n = m.length / n := by
    rw [Nat.succ_div, if_neg fun hd => h (Nat.mod_eq_zero_of_dvd hd), Nat.add_zero]
  have hle : n * (m.length / n) ≤ m.length := Nat.mul_div_le m.length n
  constructor
  · rw [blocks, blocks, List.length_append, List.length_singleton, hdiv]
    refine List.map_congr_left fun i hi => take_block m [x] (List.mem_range.1 hi)
  · rw [rest, rest, List.length_append, List.length_singleton, hdiv,
      List.drop_append_of_le_length hle]

/-- The element completes a block. -/
theorem blocks_snoc_of_eq (x : α) (h : (m.length + 1) % n = 0) :
    blocks n (m ++ [x]) = blocks n m ++ [rest n m ++ [x]] ∧ rest n (m ++ [x]) = [] := by
  have hdiv : (m.length + 1) / n = m.length / n + 1 := by
    rw [Nat.succ_div, if_pos (Nat.dvd_of_mod_eq_zero h)]
  have hmul : n * (m.length / n + 1) = m.length + 1 := by
    rw [← hdiv]
    exact Nat.mul_div_cancel' (Nat.dvd_of_mod_eq_zero h)
  have hle : n * (m.length / n) ≤ m.length := Nat.mul_div_le m.length n
  rw [Nat.mul_add, Nat.mul_one] at hmul
  constructor
  · rw [blocks, blocks, List.length_append, List.length_singleton, hdiv, List.range_succ,
      List.map_append, List.map_singleton, List.drop_append_of_le_length hle,
      List.take_of_length_le, rest]
    · refine congrArg (· ++ _) (List.map_congr_left fun i hi => ?_)
      exact take_block m [x] (List.mem_range.1 hi)
    · rw [List.length_append, List.length_drop, List.length_singleton]
      omega
  · rw [rest, List.length_append, List.length_singleton, hdiv, Nat.mul_add, Nat.mul_one, hmul]
    simp

/-- **The loop processes the full blocks and keeps the rest.** -/
theorem foldl_feed (hn : 0 < n) (s : σ) (m : List α) :
    m.foldl (feed n f) (s, []) = ((blocks n m).foldl f s, rest n m) := by
  induction m using List.reverseRecOn with
  | nil => simp [blocks, rest]
  | append_singleton m x ih =>
      rw [List.foldl_append, ih, List.foldl_cons, List.foldl_nil, feed, List.length_append,
        List.length_singleton, length_rest]
      have hlt := Nat.mod_lt m.length hn
      by_cases h : (m.length + 1) % n = 0
      · obtain ⟨hb, hr⟩ := blocks_snoc_of_eq x h
        have hfull : m.length % n + 1 = n := by
          rcases Nat.lt_or_ge (m.length % n + 1) n with hs | hs
          · rw [Nat.add_mod, Nat.mod_eq_of_lt (by omega : 1 < n), Nat.mod_eq_of_lt hs] at h
            omega
          · omega
        rw [if_pos hfull, hb, hr, List.foldl_append, List.foldl_cons, List.foldl_nil]
      · obtain ⟨hb, hr⟩ := blocks_snoc_of_ne x h
        have hnot : m.length % n + 1 ≠ n := by
          intro he
          apply h
          have hsplit := Nat.div_add_mod m.length n
          have hsum : m.length + 1 = n * (m.length / n + 1) := by
            rw [Nat.mul_add, Nat.mul_one]
            omega
          rw [hsum, Nat.mul_mod_right]
        rw [if_neg hnot, hb, hr]

/-! ### Two parts -/

/-- Less than a block is not processed. -/
theorem blocks_of_lt (h : m.length < n) : blocks n m = [] ∧ rest n m = m := by
  have hdiv : m.length / n = 0 := Nat.div_eq_of_lt h
  rw [blocks, rest, hdiv]
  exact ⟨rfl, by simp⟩

/-- One block. -/
theorem blocks_of_eq (hn : 0 < n) (h : m.length = n) : blocks n m = [m] := by
  rw [blocks, h, Nat.div_self hn]
  simp [← h]

/-- **The blocks of an input in two parts**: the rest of the first part is in front of the second.
-/
theorem blocks_append (hn : 0 < n) (m p : List α) :
    blocks n (m ++ p) = blocks n m ++ blocks n (rest n m ++ p) := by
  -- the blocks are what the loop that collects them has processed
  have hcollect (l : List α) (s : List (List α)) :
      l.foldl (feed n fun s b => s ++ [b]) (s, []) = (s ++ blocks n l, rest n l) := by
    rw [foldl_feed _ hn]
    congr 1
    induction blocks n l generalizing s with
    | nil => simp
    | cons b bs ih => rw [List.foldl_cons, ih, List.append_assoc, List.singleton_append]
  have hrest (s : List (List α)) :
      (rest n m).foldl (feed n fun s b => s ++ [b]) (s, []) = (s, rest n m) := by
    obtain ⟨hb, hr⟩ := blocks_of_lt (rest_length_lt hn m)
    rw [hcollect, hb, hr, List.append_nil]
  have htwo := hcollect (m ++ p) []
  rw [List.foldl_append, hcollect m [], List.nil_append, ← hrest, ← List.foldl_append, hcollect]
    at htwo
  rw [Prod.mk.injEq, List.nil_append] at htwo
  exact htwo.1.symm

end BlockStream
