/-
**Incremental decoders of prefix codes.**

A stream decoder is called on the front of a buffer again and again: it takes one item off, asks
for more input, or gives up.  What makes it independent of how the stream is cut into reads is that
its two final answers survive more input.  This module packs a decoder with that property and
develops what follows for the loop around it; nothing in it depends on the format decoded.

Main definitions:

* `PrefixDecoder.Verdict`, `PrefixDecoder.Decoder` — one call, and the two laws of a decoder;
* `PrefixDecoder.Decoder.Decodes` — a buffer yields items and leaves a rest;
* `PrefixDecoder.Decoder.items`, `PrefixDecoder.Decoder.residual` — the loop: all complete items,
  and what it stops at.

Main results:

* `PrefixDecoder.Decoder.Decodes.append` — more input does not change the items taken;
* `PrefixDecoder.Decoder.items_of_decodes`, `PrefixDecoder.Decoder.residual_of_decodes` — **the
  loop finds exactly the items a buffer yields**;
* `PrefixDecoder.Decoder.items_append` — decoding a stream in two parts;
* `PrefixDecoder.Decoder.Decodes.of_prefix` — decoding a stream of encoded items, cut off
  anywhere.
-/

import Mathlib.Data.List.Basic

set_option relaxedAutoImplicit false
set_option autoImplicit false

namespace PrefixDecoder

/-- The answer of one call: ask for more input, give up, or take an item off the front. -/
inductive Verdict (α φ : Type)
  | more
  | bad
  | item (x : φ) (rest : List α)

/-- A decoder whose final answers survive more input, and that consumes something per item. -/
structure Decoder (α φ : Type) where
  /-- One call. -/
  next : List α → Verdict α φ
  next_append_of_item : ∀ {b r : List α} {x : φ} (y : List α),
    next b = .item x r → next (b ++ y) = .item x (r ++ y)
  next_append_of_bad : ∀ {b : List α} (y : List α), next b = .bad → next (b ++ y) = .bad
  length_lt_of_item : ∀ {b r : List α} {x : φ}, next b = .item x r → r.length < b.length

namespace Decoder

variable {α φ : Type} (D : Decoder α φ)

/-- `b` yields the items `xs` and leaves `r`. -/
inductive Decodes : List α → List φ → List α → Prop
  | nil (b : List α) : Decodes b [] b
  | cons {b b' r : List α} {x : φ} {xs : List φ} :
      D.next b = .item x b' → Decodes b' xs r → Decodes b (x :: xs) r

variable {D}

namespace Decodes

theorem append {b r : List α} {xs : List φ} (h : D.Decodes b xs r) (y : List α) :
    D.Decodes (b ++ y) xs (r ++ y) := by
  induction h with
  | nil b => exact nil _
  | cons hx _ ih => exact cons (D.next_append_of_item y hx) ih

theorem trans {b r t : List α} {xs ys : List φ} (h : D.Decodes b xs r) (h' : D.Decodes r ys t) :
    D.Decodes b (xs ++ ys) t := by
  induction h with
  | nil b => exact h'
  | cons hx _ ih => exact cons hx (ih h')

theorem length_le {b r : List α} {xs : List φ} (h : D.Decodes b xs r) : r.length ≤ b.length := by
  induction h with
  | nil b => exact Nat.le_refl _
  | cons hx _ ih => exact Nat.le_trans ih (Nat.le_of_lt (D.length_lt_of_item hx))

/-- What is consumed determines the items. -/
theorem items_unique {b r : List α} {xs ys : List φ} (h : D.Decodes b xs r)
    (h' : D.Decodes b ys r) : xs = ys := by
  induction h generalizing ys with
  | nil b =>
      cases h' with
      | nil => rfl
      | cons hy hrest => exact absurd hrest.length_le (Nat.not_le.2 (D.length_lt_of_item hy))
  | cons hx hrest ih =>
      cases h' with
      | nil => exact absurd hrest.length_le (Nat.not_le.2 (D.length_lt_of_item hx))
      | cons hy h' =>
          rw [hx] at hy
          injection hy with hxy hb
          subst hxy hb
          rw [ih h']

end Decodes

/-! ### The loop -/

variable (D)

/-- At most `n` calls: the items taken and the buffer left. -/
def decodeFuel : ℕ → List α → List φ × List α
  | 0, b => ([], b)
  | n + 1, b =>
      match D.next b with
      | .item x r => (x :: (decodeFuel n r).1, (decodeFuel n r).2)
      | _ => ([], b)

/-- The complete items at the front of a buffer. -/
def items (b : List α) : List φ := (D.decodeFuel b.length b).1

/-- What is left of a buffer behind its complete items. -/
def residual (b : List α) : List α := (D.decodeFuel b.length b).2

/-- No complete item is at the front. -/
def Stuck (b : List α) : Prop := ∀ x r, D.next b ≠ .item x r

instance (b : List α) : Decidable (D.Stuck b) :=
  match h : D.next b with
  | .item x r => isFalse fun hb => hb x r h
  | .more => isTrue fun x r hx => by rw [h] at hx; cases hx
  | .bad => isTrue fun x r hx => by rw [h] at hx; cases hx

variable {D}

theorem decodes_decodeFuel (n : ℕ) (b : List α) :
    D.Decodes b (D.decodeFuel n b).1 (D.decodeFuel n b).2 := by
  induction n generalizing b with
  | zero => exact Decodes.nil b
  | succ n ih =>
      rw [decodeFuel]
      cases hn : D.next b with
      | more => exact Decodes.nil b
      | bad => exact Decodes.nil b
      | item x r => exact Decodes.cons hn (ih r)

/-- Each item consumes something, so that as many calls as there are bytes are enough. -/
theorem stuck_decodeFuel (n : ℕ) (b : List α) (hb : b.length ≤ n) :
    D.Stuck (D.decodeFuel n b).2 := by
  induction n generalizing b with
  | zero =>
      intro x r h
      have := D.length_lt_of_item h
      simp only [decodeFuel] at this
      omega
  | succ n ih =>
      rw [decodeFuel]
      cases hn : D.next b with
      | more => intro x r h; rw [hn] at h; cases h
      | bad => intro x r h; rw [hn] at h; cases h
      | item x r =>
          have hlt := D.length_lt_of_item hn
          exact ih r (by omega)

/-- The loop decodes. -/
theorem decodes_items (b : List α) : D.Decodes b (D.items b) (D.residual b) :=
  decodes_decodeFuel b.length b

/-- The loop stops where no complete item is left. -/
theorem stuck_residual (b : List α) : D.Stuck (D.residual b) :=
  stuck_decodeFuel b.length b (Nat.le_refl _)

/-- Two decodings of a buffer: the one that stops for want of an item is the longer one. -/
theorem Decodes.unique {b r t : List α} {xs ys : List φ} (h : D.Decodes b xs r)
    (h' : D.Decodes b ys t) (hr : D.Stuck t) :
    ∃ zs, ys = xs ++ zs ∧ D.Decodes r zs t := by
  induction h generalizing ys with
  | nil b => exact ⟨ys, rfl, h'⟩
  | cons hx _ ih =>
      cases h' with
      | nil => exact absurd hx (hr _ _)
      | cons hy h' =>
          rw [hx] at hy
          injection hy with hxy hrest
          subst hxy hrest
          obtain ⟨zs, rfl, hz⟩ := ih h'
          exact ⟨zs, rfl, hz⟩

/-- A buffer with no complete item yields none. -/
theorem Decodes.of_stuck {r t : List α} {zs : List φ} (h : D.Decodes r zs t) (hr : D.Stuck r) :
    zs = [] ∧ t = r := by
  cases h with
  | nil => exact ⟨rfl, rfl⟩
  | cons hx _ => exact absurd hx (hr _ _)

/-- Decoding the items found so far and then the rest. -/
theorem items_append {b r : List α} {xs : List φ} (h : D.Decodes b xs r) (y : List α) :
    D.items (b ++ y) = xs ++ D.items (r ++ y) ∧ D.residual (b ++ y) = D.residual (r ++ y) := by
  obtain ⟨zs, hitems, hz⟩ := (h.append y).unique (decodes_items _) (stuck_residual _)
  -- both loops stop for want of an item, so that they find the same items behind `xs`
  obtain ⟨us, hus, hu⟩ := hz.unique (decodes_items (r ++ y)) (stuck_residual _)
  obtain ⟨rfl, hres⟩ := hu.of_stuck (stuck_residual _)
  exact ⟨by rw [hitems, hus, List.append_nil], hres.symm⟩

theorem items_of_decodes {b r : List α} {xs : List φ} (h : D.Decodes b xs r) (hr : D.Stuck r) :
    D.items b = xs := by
  obtain ⟨zs, hitems, hz⟩ := h.unique (decodes_items b) (stuck_residual b)
  rw [hitems, (hz.of_stuck hr).1, List.append_nil]

theorem residual_of_decodes {b r : List α} {xs : List φ} (h : D.Decodes b xs r)
    (hr : D.Stuck r) : D.residual b = r := by
  obtain ⟨zs, _, hz⟩ := h.unique (decodes_items b) (stuck_residual b)
  exact (hz.of_stuck hr).2

/-- The first item, and the items behind it. -/
theorem items_of_item {b r : List α} {x : φ} (h : D.next b = .item x r) :
    D.items b = x :: D.items r :=
  items_of_decodes (Decodes.cons h (decodes_items r)) (stuck_residual r)

/-- The rest is what the items behind the first one leave. -/
theorem residual_of_item {b r : List α} {x : φ} (h : D.next b = .item x r) :
    D.residual r = D.residual b :=
  (residual_of_decodes (Decodes.cons h (decodes_items r)) (stuck_residual r)).symm

/-- No item is at the front. -/
theorem items_of_stuck {b : List α} (h : D.Stuck b) : D.items b = [] :=
  items_of_decodes (Decodes.nil b) h

/-! ### Streams of encoded items -/

section Codec

variable {ω : Type} {encode : ω → List α} {content : ω → φ} {ws : List ω}

/-- **Decoding a stream of encoded items, cut off anywhere**: the items taken are those at its
front, and what is left begins the encoding of the others. -/
theorem Decodes.of_prefix {b r : List α} {xs : List φ} (h : D.Decodes b xs r)
    (henc : ∀ w ∈ ws, ∀ rest, D.next (encode w ++ rest) = .item (content w) rest)
    (hb : b <+: ws.flatMap encode) :
    ∃ us vs, ws = us ++ vs ∧ xs = us.map content ∧ r <+: vs.flatMap encode := by
  induction h generalizing ws with
  | nil b => exact ⟨[], ws, rfl, rfl, hb⟩
  | @cons b b' r x xs hx _ ih =>
      obtain ⟨y, hy⟩ := hb
      have hitem := D.next_append_of_item y hx
      cases ws with
      | nil =>
          rw [List.flatMap_nil] at hy
          obtain ⟨rfl, _⟩ := List.append_eq_nil_iff.1 hy
          have := D.length_lt_of_item hx
          simp at this
      | cons w ws =>
          rw [hy, List.flatMap_cons, henc w List.mem_cons_self] at hitem
          injection hitem with hcontent hrest
          obtain ⟨us, vs, rfl, rfl, hr⟩ :=
            ih (fun w' hw' => henc w' (List.mem_cons_of_mem _ hw')) ⟨y, hrest.symm⟩
          exact ⟨w :: us, vs, rfl, by rw [List.map_cons, hcontent], hr⟩

/-- The whole stream yields all items. -/
theorem decodes_flatMap
    (henc : ∀ w ∈ ws, ∀ rest, D.next (encode w ++ rest) = .item (content w) rest) :
    D.Decodes (ws.flatMap encode) (ws.map content) [] := by
  induction ws with
  | nil => exact Decodes.nil []
  | cons w ws ih =>
      rw [List.flatMap_cons, List.map_cons]
      exact Decodes.cons (henc w List.mem_cons_self _)
        (ih fun w' hw' => henc w' (List.mem_cons_of_mem _ hw'))

/-- Nothing is left to decode of an empty buffer. -/
theorem stuck_nil : D.Stuck [] := by
  intro x r hx
  have := D.length_lt_of_item hx
  simp at this

/-- Such a stream never makes the decoder give up. -/
theorem next_ne_bad_of_prefix {b : List α} (hnil : D.next [] ≠ .bad)
    (henc : ∀ w ∈ ws, ∀ rest, D.next (encode w ++ rest) = .item (content w) rest)
    (hb : b <+: ws.flatMap encode) : D.next b ≠ .bad := by
  intro hbad
  obtain ⟨y, hy⟩ := hb
  have hfinal := D.next_append_of_bad y hbad
  rw [hy] at hfinal
  cases ws with
  | nil => exact hnil hfinal
  | cons w ws =>
      rw [List.flatMap_cons, henc w List.mem_cons_self] at hfinal
      cases hfinal

end Codec

end Decoder

end PrefixDecoder
