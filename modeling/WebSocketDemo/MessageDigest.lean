/-
**What the class `SHA1` computes** (`sha1.h`, `sha1.cpp`).

An object of the class takes a message in pieces, through any of its overloads of `Input` and
`operator<<`, and gives the digest of all of it.  It is compared with an object that remembers the
whole message and applies the function of the standard to it: whatever the calls and their order,
both answer the same.  The class keeps two flags for the two ways to misuse it: input behind the
digest, and a message of `2 ^ 64` bits or more.

Main definitions:

* `SHA1.inputArray`, `SHA1.resultCall` — `Input` of an array, and `Result` with the state it leaves;
* `SHA1.Call`, `SHA1.session` — any sequence of calls, and what they return;
* `Hashing`, `Hashing.session` — the object that remembers.

Main results:

* `SHA1.processMessageBlock_words` — **a block is compressed as the standard says**;
* `SHA1.padMessage_words` — the padding is that of the standard;
* `session_refines` — **the class is the hash function of the standard, through any calls**.
-/

import WebSocketDemo.Sha1
import WebSocketDemo.Lib.Fips180

set_option relaxedAutoImplicit false
set_option autoImplicit false

namespace WebSocketDemo

open BlockStream ByteOrder

/-- The words of the class as words of the standard. -/
def Digest.toWords (d : Digest) : Fips180.Words :=
  ⟨d.a.toBitVec, d.b.toBitVec, d.c.toBitVec, d.d.toBitVec, d.e.toBitVec⟩

/-! ### One block -/

/-- `CircularShift` is `ROTL`. -/
theorem circularShift_toBitVec (x : UInt32) :
    (circularShift 1 x).toBitVec = Fips180.rotl 1 x.toBitVec ∧
    (circularShift 5 x).toBitVec = Fips180.rotl 5 x.toBitVec ∧
    (circularShift 30 x).toBitVec = Fips180.rotl 30 x.toBitVec := by
  refine ⟨?_, ?_, ?_⟩
  · simp [circularShift, Fips180.rotl, BitVec.rotateLeft_def]
  · simp [circularShift, Fips180.rotl, BitVec.rotateLeft_def]
  · simp [circularShift, Fips180.rotl, BitVec.rotateLeft_def]

/-- The choice and the majority, as the class computes them. -/
theorem or_eq_ch (x y z : Fips180.Word) : (x &&& y) ||| (~~~x &&& z) = Fips180.ch x y z := by
  rw [Fips180.ch]
  ext i hi
  simp
  cases x[i] <;> simp

theorem or_eq_maj (x y z : Fips180.Word) :
    (x &&& y) ||| (x &&& z) ||| (y &&& z) = Fips180.maj x y z := by
  rw [Fips180.maj]
  ext i hi
  simp
  cases x[i] <;> cases y[i] <;> cases z[i] <;> rfl

/-- Four bytes put together are the number they denote. -/
theorem toNat_fourBytes (a b c d : UInt8) :
    ((a.toUInt32 <<< 24) ||| (b.toUInt32 <<< 16) ||| (c.toUInt32 <<< 8) ||| d.toUInt32).toNat =
      ofBigEndian [a, b, c, d] := by
  have ha := a.toNat_lt
  have hb := b.toNat_lt
  have hc := c.toNat_lt
  have hd := d.toNat_lt
  have h₁ : (a.toUInt32 <<< 24).toNat = a.toNat <<< 24 := by
    rw [UInt32.toNat_shiftLeft, UInt8.toNat_toUInt32]
    exact Nat.mod_eq_of_lt (by simp [Nat.shiftLeft_eq]; omega)
  have h₂ : (b.toUInt32 <<< 16).toNat = b.toNat <<< 16 := by
    rw [UInt32.toNat_shiftLeft, UInt8.toNat_toUInt32]
    exact Nat.mod_eq_of_lt (by simp [Nat.shiftLeft_eq]; omega)
  have h₃ : (c.toUInt32 <<< 8).toNat = c.toNat <<< 8 := by
    rw [UInt32.toNat_shiftLeft, UInt8.toNat_toUInt32]
    exact Nat.mod_eq_of_lt (by simp [Nat.shiftLeft_eq]; omega)
  -- each byte occupies bits of its own, so that `|||` adds them
  have hab : a.toNat <<< 24 ||| b.toNat <<< 16 = (a.toNat * 256 + b.toNat) <<< 16 := by
    rw [← Nat.shiftLeft_add_eq_or_of_lt (by rw [Nat.shiftLeft_eq]; omega)]
    simp only [Nat.shiftLeft_eq]
    omega
  have habc : (a.toNat * 256 + b.toNat) <<< 16 ||| c.toNat <<< 8 =
      ((a.toNat * 256 + b.toNat) * 256 + c.toNat) <<< 8 := by
    rw [← Nat.shiftLeft_add_eq_or_of_lt (by rw [Nat.shiftLeft_eq]; omega)]
    simp only [Nat.shiftLeft_eq]
    omega
  rw [UInt32.toNat_or, UInt32.toNat_or, UInt32.toNat_or, h₁, h₂, h₃, UInt8.toNat_toUInt32, hab,
    habc, ← Nat.shiftLeft_add_eq_or_of_lt hd, Nat.shiftLeft_eq]
  simp only [ofBigEndian, List.foldl_cons, List.foldl_nil]
  omega

theorem take_four {l : Bytes} (h : 4 ≤ l.length) :
    l.take 4 = [l.getD 0 0, l.getD 1 0, l.getD 2 0, l.getD 3 0] := by
  match l, h with
  | a :: b :: c :: d :: l, _ => rfl

namespace SHA1

/-- A word of the block. -/
theorem blockWord_toBitVec {block : Bytes} {t : ℕ} (h : t * 4 + 4 ≤ block.length) :
    (blockWord block t).toBitVec = Fips180.wordAt block t := by
  have hdrop (i : ℕ) : block.getD (t * 4 + i) 0 = (block.drop (4 * t)).getD i 0 := by
    rw [List.getD_eq_getElem?_getD, List.getD_eq_getElem?_getD, List.getElem?_drop, Nat.mul_comm]
  have hzero := hdrop 0
  rw [Nat.add_zero] at hzero
  rw [blockWord, hzero, hdrop 1, hdrop 2, hdrop 3, Fips180.wordAt, take_four (by
    rw [List.length_drop]; omega), ← toNat_fourBytes]
  exact ((BitVec.ofNat_toNat 32 _).trans (BitVec.setWidth_eq _)).symm

/-- The first words of `W` are those of the schedule. -/
def Scheduled (block : Bytes) (w : List UInt32) : Prop :=
  ∀ t < w.length, (w.getD t 0).toBitVec = Fips180.schedule block t

theorem Scheduled.snoc {block : Bytes} {w : List UInt32} (h : Scheduled block w) {x : UInt32}
    (hx : x.toBitVec = Fips180.schedule block w.length) : Scheduled block (w ++ [x]) := by
  intro t ht
  rw [List.length_append, List.length_singleton] at ht
  rcases Nat.lt_or_ge t w.length with hlt | hge
  · rw [List.getD_append _ _ _ _ hlt]
    exact h t hlt
  · obtain rfl : t = w.length := by omega
    rw [List.getD_append_right _ _ _ _ le_rfl, Nat.sub_self]
    exact hx

/-- The loop that fills `W` follows the recurrence of the schedule. -/
theorem scheduled_extendWords {block : Bytes} (n : ℕ) {w : List UInt32} (h : Scheduled block w)
    (h16 : 16 ≤ w.length) :
    Scheduled block (extendWords n w) ∧ (extendWords n w).length = w.length + n := by
  induction n generalizing w with
  | zero => exact ⟨h, rfl⟩
  | succ n ih =>
      have hnext : Scheduled block (w ++ [circularShift 1 (w.getD (w.length - 3) 0 ^^^
          w.getD (w.length - 8) 0 ^^^ w.getD (w.length - 14) 0 ^^^ w.getD (w.length - 16) 0)]) := by
        refine h.snoc ?_
        rw [(circularShift_toBitVec _).1, Fips180.schedule_of_le h16]
        simp only [UInt32.toBitVec_xor, h _ (by omega : w.length - 3 < w.length),
          h _ (by omega : w.length - 8 < w.length), h _ (by omega : w.length - 14 < w.length),
          h _ (by omega : w.length - 16 < w.length)]
      obtain ⟨hs, hlen⟩ := ih hnext (by rw [List.length_append]; omega)
      refine ⟨hs, ?_⟩
      rw [extendWords, hlen, List.length_append, List.length_singleton]
      omega

/-- **`W` is the message schedule.** -/
theorem wordSequence_toBitVec {block : Bytes} (h : block.length = 64) {t : ℕ} (ht : t < 80) :
    ((wordSequence block).getD t 0).toBitVec = Fips180.schedule block t := by
  have hfirst : Scheduled block ((List.range 16).map (blockWord block)) := by
    intro t ht
    rw [List.length_map, List.length_range] at ht
    rw [List.getD_eq_getElem?_getD, List.getElem?_map, List.getElem?_range ht, Option.map_some,
      Option.getD_some, Fips180.schedule_of_lt ht]
    exact blockWord_toBitVec (by omega)
  obtain ⟨hs, hlen⟩ := scheduled_extendWords 64 hfirst (by simp)
  refine hs t ?_
  rw [hlen]
  simpa using ht

/-- The function of a round and its constant, over the four loops of the source. -/
theorem roundFunction_toBitVec (s : Digest) (t : ℕ) :
    (if t < 20 then ((s.b &&& s.c) ||| (~~~s.b &&& s.d), (0x5A827999 : UInt32))
      else if t < 40 then (s.b ^^^ s.c ^^^ s.d, 0x6ED9EBA1)
      else if t < 60 then ((s.b &&& s.c) ||| (s.b &&& s.d) ||| (s.c &&& s.d), 0x8F1BBCDC)
      else (s.b ^^^ s.c ^^^ s.d, 0xCA62C1D6)).map UInt32.toBitVec UInt32.toBitVec =
    (Fips180.f t s.b.toBitVec s.c.toBitVec s.d.toBitVec, Fips180.k t) := by
  have hch : ((s.b &&& s.c) ||| (~~~s.b &&& s.d)).toBitVec =
      Fips180.ch s.b.toBitVec s.c.toBitVec s.d.toBitVec := or_eq_ch _ _ _
  have hmaj : ((s.b &&& s.c) ||| (s.b &&& s.d) ||| (s.c &&& s.d)).toBitVec =
      Fips180.maj s.b.toBitVec s.c.toBitVec s.d.toBitVec := or_eq_maj _ _ _
  unfold Fips180.f Fips180.k
  split_ifs <;> first | omega | exact Prod.ext hch rfl | exact Prod.ext hmaj rfl | rfl

/-- **A round of the class is a round of the standard.** -/
theorem round_words {block : Bytes} (h : block.length = 64) (s : Digest) {t : ℕ} (ht : t < 80) :
    (round (wordSequence block) s t).toWords = Fips180.round block s.toWords t := by
  have hw := wordSequence_toBitVec h ht
  have h₅ := (circularShift_toBitVec s.a).2.1
  have h₃₀ := (circularShift_toBitVec s.b).2.2
  have hfk := roundFunction_toBitVec s t
  unfold round
  generalize (if t < 20 then ((s.b &&& s.c) ||| (~~~s.b &&& s.d), (0x5A827999 : UInt32))
      else if t < 40 then (s.b ^^^ s.c ^^^ s.d, 0x6ED9EBA1)
      else if t < 60 then ((s.b &&& s.c) ||| (s.b &&& s.d) ||| (s.c &&& s.d), 0x8F1BBCDC)
      else (s.b ^^^ s.c ^^^ s.d, 0xCA62C1D6)) = fk at hfk ⊢
  obtain ⟨f, k⟩ := fk
  rw [Prod.map_apply, Prod.mk.injEq] at hfk
  rw [Fips180.round, Digest.toWords]
  simp only [UInt32.toBitVec_add, hw, h₅, h₃₀, hfk, Digest.toWords]
  -- the two add the word and the constant in different orders
  rw [BitVec.add_assoc _ (Fips180.schedule block t), BitVec.add_comm (Fips180.schedule block t),
    ← BitVec.add_assoc]

/-- **A block is compressed as the standard says.** -/
theorem processMessageBlock_words {self : SHA1} (h : self.messageBlock.length = 64) :
    self.processMessageBlock.h.toWords =
      Fips180.compress self.h.toWords self.messageBlock := by
  have hrounds (ts : List ℕ) (hts : ∀ t ∈ ts, t < 80) (s : Digest) :
      (ts.foldl (round (wordSequence self.messageBlock)) s).toWords =
        ts.foldl (Fips180.round self.messageBlock) s.toWords := by
    induction ts generalizing s with
    | nil => rfl
    | cons t ts ih =>
        rw [List.foldl_cons, List.foldl_cons,
          ih (fun t' ht' => hts t' (List.mem_cons_of_mem t ht')),
          round_words h s (hts t List.mem_cons_self)]
  have hall := hrounds (List.range 80) (fun t ht => List.mem_range.1 ht) self.h
  rw [processMessageBlock, Fips180.compress, ← hall]
  rfl

/-! ### A message in pieces -/

/-- The state in which `m` has been taken in and no digest has been asked for. -/
structure Absorbs (x : SHA1) (m : Bytes) : Prop where
  counts : x.Counts m.length
  state : (x.h.toWords, x.messageBlock) = m.foldl (feed 64 Fips180.compress) (Fips180.initial, [])

theorem absorbs_reset : reset.Absorbs [] := ⟨counts_reset, rfl⟩

/-- What is in the buffer. -/
theorem Absorbs.messageBlock {x : SHA1} {m : Bytes} (h : x.Absorbs m) :
    x.messageBlock = rest 64 m ∧
      x.h.toWords = (blocks 64 m).foldl Fips180.compress Fips180.initial := by
  have hs := h.state
  rw [foldl_feed _ (by decide : 0 < 64), Prod.mk.injEq] at hs
  exact ⟨hs.2, hs.1⟩

/-- A character goes to the buffer, and a full buffer is compressed. -/
theorem input_state {self : SHA1} (b : UInt8) (hc : self.computed = false)
    (hk : self.corrupted = false) :
    ((self.input b).h.toWords, (self.input b).messageBlock) =
      feed 64 Fips180.compress (self.h.toWords, self.messageBlock) b := by
  unfold input feed
  rw [hc, hk]
  simp only [Bool.or_self, Bool.false_eq_true, if_false]
  by_cases hfull : (self.messageBlock ++ [b]).length = 64
  · rw [if_pos hfull, if_pos hfull, processMessageBlock_words hfull]
    rfl
  · rw [if_neg hfull, if_neg hfull]

theorem Absorbs.input {x : SHA1} {m : Bytes} (h : x.Absorbs m) (hm : m.length + 1 < 2 ^ 61)
    (b : UInt8) : (x.input b).Absorbs (m ++ [b]) := by
  refine ⟨?_, ?_⟩
  · rw [List.length_append, List.length_singleton]
    exact h.counts.input hm b
  · rw [input_state b h.counts.computed h.counts.corrupted, h.state, List.foldl_append]
    rfl

theorem Absorbs.foldl {x : SHA1} {m : Bytes} (h : x.Absorbs m) (p : Bytes)
    (hp : m.length + p.length < 2 ^ 61) : (p.foldl SHA1.input x).Absorbs (m ++ p) := by
  induction p generalizing x m with
  | nil => rwa [List.append_nil]
  | cons b p ih =>
      rw [List.length_cons] at hp
      rw [List.foldl_cons, ← List.singleton_append, ← List.append_assoc]
      exact ih (h.input (by omega) b) (by rw [List.length_append, List.length_singleton]; omega)

/-! ### The padding -/

/-- The last eight octets are the length in bits. -/
theorem lengthOctets_eq {x : SHA1} {n : ℕ} (h : x.Counts n) :
    x.lengthOctets = bigEndian 8 (8 * n) := by
  have hlen := h.length
  have hlow := x.lengthLow.toNat_lt
  have hhigh := x.lengthHigh.toNat_lt
  simp only [lengthOctets, bigEndian, List.cons.injEq, and_true]
  refine ⟨?_, ?_, ?_, ?_, ?_, ?_, ?_, ?_⟩ <;>
    · apply UInt8.toNat_inj.1
      simp [Nat.shiftRight_eq_div_pow]
      omega

/-- Padding that fits into the block. -/
theorem padMessage_short {x : SHA1} (h : x.messageBlock.length ≤ 55) :
    x.padMessage.h.toWords = Fips180.compress x.h.toWords (x.messageBlock ++
      0x80 :: (List.replicate (55 - x.messageBlock.length) 0 ++ x.lengthOctets)) := by
  have hzeros : 56 - (x.messageBlock ++ [0x80]).length = 55 - x.messageBlock.length := by
    rw [List.length_append, List.length_singleton]
    omega
  have hblock : x.padMessage =
      { x with
        messageBlock := x.messageBlock ++ [0x80] ++
          List.replicate (55 - x.messageBlock.length) 0 ++
            x.lengthOctets }.processMessageBlock := by
    simp only [padMessage, decide_eq_false (Nat.not_lt.2 h), Bool.false_eq_true, if_false, padZeros,
      hzeros]
    rfl
  rw [hblock, processMessageBlock_words]
  · simp only [List.append_assoc, List.cons_append, List.nil_append]
  · simp [lengthOctets]
    omega

/-- Padding that needs a block of its own. -/
theorem padMessage_long {x : SHA1} (h : 55 < x.messageBlock.length)
    (h64 : x.messageBlock.length < 64) :
    x.padMessage.h.toWords = Fips180.compress
      (Fips180.compress x.h.toWords
        (x.messageBlock ++ 0x80 :: List.replicate (63 - x.messageBlock.length) 0))
      (List.replicate 56 0 ++ x.lengthOctets) := by
  have hzeros : 64 - (x.messageBlock ++ [0x80]).length = 63 - x.messageBlock.length := by
    rw [List.length_append, List.length_singleton]
    omega
  set y : SHA1 :=
    { x with
      messageBlock := x.messageBlock ++ [0x80] ++ List.replicate (63 - x.messageBlock.length) 0 }
    with hy
  have hfirst : y.processMessageBlock.h.toWords =
      Fips180.compress x.h.toWords
        (x.messageBlock ++ 0x80 :: List.replicate (63 - x.messageBlock.length) 0) := by
    rw [processMessageBlock_words]
    · simp only [hy, List.append_assoc, List.singleton_append]
    · simp [hy]
      omega
  have hblock : x.padMessage =
      { y.processMessageBlock with
        messageBlock := List.replicate 56 0 ++ x.lengthOctets }.processMessageBlock := by
    simp only [padMessage, decide_eq_true h, if_true, padZeros, hzeros]
    rw [← hy]
    obtain ⟨d, hd⟩ := processMessageBlock_eq y
    rw [hd]
    rfl
  rw [hblock, processMessageBlock_words (by simp [lengthOctets]), hfirst]

theorem processMessageBlock_corrupted (x : SHA1) :
    x.processMessageBlock.corrupted = x.corrupted := by
  obtain ⟨d, hd⟩ := processMessageBlock_eq x
  rw [hd]

theorem padZeros_corrupted (x : SHA1) (n : ℕ) : (x.padZeros n).corrupted = x.corrupted := rfl

/-- The padding leaves the flag alone. -/
theorem padMessage_corrupted (x : SHA1) : x.padMessage.corrupted = x.corrupted := by
  unfold padMessage
  dsimp only
  rw [processMessageBlock_corrupted]
  dsimp only
  split_ifs
  · rw [padZeros_corrupted, processMessageBlock_corrupted, padZeros_corrupted]
  · rw [padZeros_corrupted]

/-- **The padding is that of the standard.** -/
theorem padMessage_words {x : SHA1} {m : Bytes} (h : x.Absorbs m) :
    x.padMessage.h.toWords = Fips180.sha1 m := by
  obtain ⟨hblock, hwords⟩ := h.messageBlock
  have hlen : x.messageBlock.length = m.length % 64 := by rw [hblock, length_rest]
  have hlt : m.length % 64 < 64 := Nat.mod_lt _ (by decide)
  have hoct := lengthOctets_eq h.counts
  rw [Fips180.sha1, Fips180.pad, blocks_append (by decide : 0 < 64), List.foldl_append, ← hwords,
    ← hblock, ← hoct]
  by_cases hlong : 55 < x.messageBlock.length
  · -- the first block is filled with zeros, the second begins with them
    have hzeros : List.replicate (Fips180.padZeros m.length) (0 : UInt8) =
        List.replicate (63 - x.messageBlock.length) 0 ++ List.replicate 56 0 := by
      rw [List.replicate_append_replicate, Fips180.padZeros]
      congr 1
      omega
    have hfirst : (x.messageBlock ++
        0x80 :: List.replicate (63 - x.messageBlock.length) 0).length = 64 := by
      simp
      omega
    have hsecond : (List.replicate 56 0 ++ x.lengthOctets).length = 64 := by simp [lengthOctets]
    have hsplit : x.messageBlock ++ 0x80 :: (List.replicate (Fips180.padZeros m.length) 0 ++
        x.lengthOctets) = (x.messageBlock ++ 0x80 :: List.replicate
          (63 - x.messageBlock.length) 0) ++
          (List.replicate 56 0 ++ x.lengthOctets) := by
      rw [hzeros]
      simp
    have hrest : rest 64 (x.messageBlock ++
        0x80 :: List.replicate (63 - x.messageBlock.length) 0) = [] := by
      rw [rest, hfirst]
      exact List.drop_eq_nil_of_le (by rw [hfirst])
    rw [hsplit, blocks_append (by decide : 0 < 64), blocks_of_eq (by decide) hfirst, hrest,
      List.nil_append, blocks_of_eq (by decide) hsecond, padMessage_long hlong (by omega)]
    rfl
  · have hzeros : Fips180.padZeros m.length = 55 - x.messageBlock.length := by
      rw [Fips180.padZeros]
      omega
    have hone : (x.messageBlock ++ 0x80 :: (List.replicate (55 - x.messageBlock.length) 0 ++
        x.lengthOctets)).length = 64 := by
      simp [lengthOctets]
      omega
    rw [hzeros, blocks_of_eq (by decide) hone, padMessage_short (Nat.not_lt.1 hlong)]
    rfl

/-! ### Calls -/

/-- The loop of `Input`.  In it neither flag is set when a character is taken, so that the body is
what `Input` of one character does. -/
def inputLoop : SHA1 → Bytes → SHA1
  | self, [] => self
  | self, b :: messageArray =>
      if self.corrupted then self else inputLoop (self.input b) messageArray

/-- `Input` of an array and its length; the overloads for `char` cast the pointer. -/
def inputArray (self : SHA1) (messageArray : Bytes) : SHA1 :=
  if messageArray.length = 0 then self
  else if self.computed || self.corrupted then { self with corrupted := true }
  else inputLoop self messageArray

/-- `Result`: what is returned and written to the array, and the state that is left. -/
def resultCall (self : SHA1) : Option Digest × SHA1 :=
  if self.corrupted then (none, self)
  else
    let self := if self.computed then self else { self.padMessage with computed := true }
    (some self.h, self)

/-- The calls of the class: the overloads of `Input` and `operator<<` come in pairs for the two
kinds of `char`. -/
inductive Call
  /-- `Reset`. -/
  | reset
  /-- `Input(message_array, length)`. -/
  | inputArray (messageArray : Bytes)
  /-- `Input(message_element)` and `operator<<(message_element)`. -/
  | input (messageElement : UInt8)
  /-- `operator<<(message_array)`. -/
  | inputStr (messageArray : Bytes)
  /-- `Result`. -/
  | result

/-- A sequence of calls: what the calls of `Result` give. -/
def session : SHA1 → List Call → List (Option Digest)
  | _, [] => []
  | _, .reset :: calls => session reset calls
  | self, .inputArray messageArray :: calls => session (self.inputArray messageArray) calls
  | self, .input messageElement :: calls => session (self.inputArray [messageElement]) calls
  | self, .inputStr messageArray :: calls => session (self.inputStr messageArray) calls
  | self, .result :: calls => self.resultCall.1 :: session self.resultCall.2 calls

/-- `resultCall` returns what `result` says. -/
theorem resultCall_fst (self : SHA1) : self.resultCall.1 = self.result := by
  unfold resultCall result
  split_ifs <;> rfl

end SHA1

/-- The object that remembers what it has been given. -/
inductive Hashing
  /-- The message so far. -/
  | absorbing (m : Bytes)
  /-- The digest has been asked for. -/
  | finished (d : Fips180.Words)
  /-- It has been misused. -/
  | broken

namespace Hashing

/-- More of the message: there must be no digest yet, and the length in bits must fit in 64 bits. -/
def input : Hashing → Bytes → Hashing
  | absorbing m, p => if 8 * (m ++ p).length < 2 ^ 64 then absorbing (m ++ p) else broken
  | finished d, p => if p = [] then finished d else broken
  | broken, _ => broken

/-- The digest of the message. -/
def result : Hashing → Option Fips180.Words × Hashing
  | absorbing m => (some (Fips180.sha1 m), finished (Fips180.sha1 m))
  | finished d => (some d, finished d)
  | broken => (none, broken)

/-- A sequence of calls: what the calls of `result` give. -/
def session : Hashing → List SHA1.Call → List (Option Fips180.Words)
  | _, [] => []
  | _, .reset :: calls => session (absorbing []) calls
  | x, .inputArray p :: calls => session (x.input p) calls
  | x, .input b :: calls => session (x.input [b]) calls
  | x, .inputStr p :: calls => session (x.input (SHA1.cStr p)) calls
  | x, .result :: calls => x.result.1 :: session x.result.2 calls

/-- The state of the class stands for a state of the object. -/
inductive Represents : SHA1 → Hashing → Prop
  | absorbing {x : SHA1} {m : Bytes} : x.Absorbs m → 8 * m.length < 2 ^ 64 →
      Represents x (absorbing m)
  | finished {x : SHA1} : x.computed = true → x.corrupted = false →
      Represents x (finished x.h.toWords)
  | broken {x : SHA1} : x.corrupted = true → Represents x broken

end Hashing

namespace SHA1

/-- Behind an error nothing is taken. -/
theorem foldl_input_of_corrupted {x : SHA1} (h : x.corrupted = true) (p : Bytes) :
    p.foldl input x = x := by
  induction p with
  | nil => rfl
  | cons b p ih =>
      have hb : x.input b = x := by
        unfold input
        rw [h, Bool.or_true, if_pos rfl, ← h]
      rw [List.foldl_cons, hb, ih]

/-- The array is taken like its characters, one at a time. -/
theorem inputArray_eq_foldl (x : SHA1) (p : Bytes) : x.inputArray p = p.foldl input x := by
  have hloop (p : Bytes) (x : SHA1) : inputLoop x p = p.foldl input x := by
    induction p generalizing x with
    | nil => rfl
    | cons b p ih =>
        rw [inputLoop]
        split_ifs with hc
        · exact (foldl_input_of_corrupted hc (b :: p)).symm
        · rw [ih, List.foldl_cons]
  cases p with
  | nil => rfl
  | cons b p =>
      rw [inputArray, if_neg (by simp)]
      split_ifs with hc
      · have hb : x.input b = { x with corrupted := true } := by
          unfold input
          rw [if_pos hc]
        rw [List.foldl_cons, hb, foldl_input_of_corrupted rfl]
      · exact hloop (b :: p) x

/-- The character that makes the message too long. -/
theorem Counts.overflow {x : SHA1} {n : ℕ} (h : x.Counts n) (hn : n + 1 = 2 ^ 61) (b : UInt8) :
    (x.input b).corrupted = true := by
  have hlen := h.length
  have hlow := x.lengthLow.toNat_lt
  have hhigh := x.lengthHigh.toNat_lt
  have hl : x.lengthLow + 8 = 0 := by
    rw [← UInt32.toNat_inj, UInt32.toNat_add, UInt32.toNat_zero]
    change (x.lengthLow.toNat + 8) % 2 ^ 32 = 0
    omega
  have hh : x.lengthHigh + 1 = 0 := by
    rw [← UInt32.toNat_inj, UInt32.toNat_add, UInt32.toNat_zero]
    change (x.lengthHigh.toNat + 1) % 2 ^ 32 = 0
    omega
  unfold SHA1.input
  rw [h.computed, h.corrupted]
  simp only [Bool.or_self, Bool.false_eq_true, if_false, hl, hh, if_true, and_self, decide_true]
  split_ifs
  · rfl
  · rfl

/-- A message that is too long. -/
theorem Absorbs.overflow {x : SHA1} {m : Bytes} (h : x.Absorbs m) (hm : m.length < 2 ^ 61)
    (p : Bytes) (hp : 2 ^ 61 ≤ m.length + p.length) : (p.foldl SHA1.input x).corrupted = true := by
  induction p generalizing x m with
  | nil =>
      rw [List.length_nil] at hp
      omega
  | cons b p ih =>
      rw [List.length_cons] at hp
      rw [List.foldl_cons]
      by_cases hb : m.length + 1 < 2 ^ 61
      · exact ih (h.input hb b) (by rw [List.length_append, List.length_singleton]; omega)
          (by rw [List.length_append, List.length_singleton]; omega)
      · have hc := h.counts.overflow (by omega) b
        rw [foldl_input_of_corrupted hc]
        exact hc

end SHA1

namespace Hashing

variable {x : SHA1} {a : Hashing}

/-- More of the message. -/
theorem Represents.input (h : Represents x a) (p : Bytes) :
    Represents (x.inputArray p) (a.input p) := by
  rw [SHA1.inputArray_eq_foldl]
  cases h with
  | @absorbing m hm hlen =>
      rw [Hashing.input]
      split_ifs with hfit
      · rw [List.length_append] at hfit
        exact .absorbing (hm.foldl p (by omega)) (by rw [List.length_append]; exact hfit)
      · rw [List.length_append] at hfit
        exact .broken (hm.overflow (by omega) p (by omega))
  | finished hc hk =>
      rw [Hashing.input]
      cases p with
      | nil => exact .finished hc hk
      | cons b p =>
          rw [if_neg (by simp)]
          refine .broken ?_
          have hb : (x.input b).corrupted = true := by
            unfold SHA1.input
            rw [hc, Bool.true_or, if_pos rfl]
          rw [List.foldl_cons, SHA1.foldl_input_of_corrupted hb]
          exact hb
  | broken hk =>
      rw [SHA1.foldl_input_of_corrupted hk]
      exact .broken hk

/-- The digest. -/
theorem Represents.result (h : Represents x a) :
    x.resultCall.1.map Digest.toWords = a.result.1 ∧ Represents x.resultCall.2 a.result.2 := by
  cases h with
  | @absorbing m hm hlen =>
      have hpad := SHA1.padMessage_words hm
      have hk : x.padMessage.corrupted = false :=
        (SHA1.padMessage_corrupted x).trans hm.counts.corrupted
      unfold SHA1.resultCall
      rw [hm.counts.corrupted, hm.counts.computed]
      simp only [Bool.false_eq_true, if_false, Option.map_some, Hashing.result, hpad, true_and]
      rw [← hpad]
      exact .finished (x := { x.padMessage with computed := true }) rfl hk
  | finished hc hk =>
      unfold SHA1.resultCall
      rw [hk, hc]
      exact ⟨rfl, .finished hc hk⟩
  | broken hk =>
      unfold SHA1.resultCall
      rw [hk]
      exact ⟨rfl, .broken hk⟩

end Hashing

/-- The digest of one message. -/
theorem SHA1.hash_eq_sha1 {p : Bytes} (hp : p.length < 2 ^ 61) :
    (SHA1.hash p).map Digest.toWords = some (Fips180.sha1 p) := by
  have habs := SHA1.absorbs_reset.foldl p (by rw [List.length_nil]; omega)
  rw [List.nil_append] at habs
  have hresult := (Hashing.Represents.absorbing habs (by omega)).result.1
  rwa [SHA1.resultCall_fst] at hresult

/-- **The class is the hash function of the standard**: after any calls in any order, every `Result`
gives the digest of what has been taken since the last `Reset`, or fails because something was taken
behind a digest or the message was too long. -/
theorem session_refines (calls : List SHA1.Call) :
    (SHA1.session SHA1.reset calls).map (Option.map Digest.toWords) =
      Hashing.session (.absorbing []) calls := by
  have hrun (calls : List SHA1.Call) {x : SHA1} {a : Hashing} (h : Hashing.Represents x a) :
      (SHA1.session x calls).map (Option.map Digest.toWords) = Hashing.session a calls := by
    induction calls generalizing x a with
    | nil => rfl
    | cons call calls ih =>
        cases call with
        | reset => exact ih (.absorbing SHA1.absorbs_reset (by decide))
        | inputArray p => exact ih (h.input p)
        | input b => exact ih (h.input [b])
        | inputStr p =>
            have hstr : x.inputStr p = x.inputArray (SHA1.cStr p) := by
              rw [SHA1.inputArray_eq_foldl, SHA1.inputStr]
            rw [SHA1.session, hstr]
            exact ih (h.input _)
        | result =>
            obtain ⟨hd, hx⟩ := h.result
            rw [SHA1.session, List.map_cons, hd, ih hx]
            rfl
  exact hrun calls (.absorbing SHA1.absorbs_reset (by decide))

end WebSocketDemo
