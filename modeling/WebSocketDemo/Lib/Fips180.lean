/-
**SHA-1 as the standard defines it** (FIPS 180).

Words are bit vectors of width 32.  A message is padded to whole blocks of 64 bytes, the last eight
of which are its length in bits; each block is expanded into 80 words, and as many rounds mix them
into the five words of the hash value.  This is the specification and not an implementation: no
buffer, no counters, and the message schedule is the recurrence of the standard.

Main definitions:

* `Fips180.pad` — the padded message;
* `Fips180.schedule`, `Fips180.round`, `Fips180.compress` — one block;
* `Fips180.sha1`, `Fips180.digest` — the hash value, as words and as bytes.

Main results:

* `Fips180.length_pad` — the padded message consists of whole blocks.
-/

import WebSocketDemo.Lib.BlockStream
import WebSocketDemo.Lib.ByteOrder

set_option relaxedAutoImplicit false
set_option autoImplicit false

namespace Fips180

open ByteOrder BlockStream

/-- A word of the standard. -/
abbrev Word := BitVec 32

/-- Five words: the hash value and the working variables. -/
structure Words where
  a : Word
  b : Word
  c : Word
  d : Word
  e : Word
  deriving DecidableEq, Repr

/-- The initial hash value. -/
def initial : Words := ⟨0x67452301, 0xEFCDAB89, 0x98BADCFE, 0x10325476, 0xC3D2E1F0⟩

/-! ### Functions and constants -/

/-- `ROTL`. -/
def rotl (n : ℕ) (x : Word) : Word := x.rotateLeft n

/-- `Ch`: the bits of `x` choose between `y` and `z`. -/
def ch (x y z : Word) : Word := (x &&& y) ^^^ (~~~x &&& z)

/-- `Parity`. -/
def parity (x y z : Word) : Word := x ^^^ y ^^^ z

/-- `Maj`: the majority of the three. -/
def maj (x y z : Word) : Word := (x &&& y) ^^^ (x &&& z) ^^^ (y &&& z)

/-- The function of round `t`. -/
def f (t : ℕ) : Word → Word → Word → Word :=
  if t ≤ 19 then ch else if t ≤ 39 then parity else if t ≤ 59 then maj else parity

/-- The constant of round `t`. -/
def k (t : ℕ) : Word :=
  if t ≤ 19 then 0x5A827999 else if t ≤ 39 then 0x6ED9EBA1 else if t ≤ 59 then 0x8F1BBCDC
  else 0xCA62C1D6

/-! ### One block -/

/-- Word `t` of a block. -/
def wordAt (block : Bytes) (t : ℕ) : Word :=
  BitVec.ofNat 32 (ofBigEndian ((block.drop (4 * t)).take 4))

/-- The message schedule of a block. -/
def schedule (block : Bytes) : ℕ → Word
  | t =>
      if t < 16 then wordAt block t
      else
        rotl 1 (schedule block (t - 3) ^^^ schedule block (t - 8) ^^^ schedule block (t - 14) ^^^
          schedule block (t - 16))
  termination_by t => t

/-- Round `t`. -/
def round (block : Bytes) (s : Words) (t : ℕ) : Words :=
  ⟨rotl 5 s.a + f t s.b s.c s.d + s.e + k t + schedule block t, s.a, rotl 30 s.b, s.c, s.d⟩

/-- The hash value behind one more block. -/
def compress (h : Words) (block : Bytes) : Words :=
  let s := (List.range 80).foldl (round block) h
  ⟨h.a + s.a, h.b + s.b, h.c + s.c, h.d + s.d, h.e + s.e⟩

/-! ### A message -/

/-- How many zero bytes stand between the first padding byte and the length. -/
def padZeros (length : ℕ) : ℕ := (119 - length % 64) % 64

/-- The padded message. -/
def pad (m : Bytes) : Bytes :=
  m ++ 0x80 :: (List.replicate (padZeros m.length) 0 ++ bigEndian 8 (8 * m.length))

/-- **The hash value of a message.** -/
def sha1 (m : Bytes) : Words := (blocks 64 (pad m)).foldl compress initial

/-- The words of a hash value as bytes. -/
def digest (h : Words) : Bytes :=
  [h.a, h.b, h.c, h.d, h.e].flatMap fun w => bigEndian 4 w.toNat

/-- **The padded message consists of whole blocks.** -/
theorem length_pad (m : Bytes) : (pad m).length % 64 = 0 := by
  simp only [pad, padZeros, List.length_append, List.length_cons, List.length_replicate,
    length_bigEndian]
  omega

theorem schedule_of_lt {block : Bytes} {t : ℕ} (h : t < 16) :
    schedule block t = wordAt block t := by
  rw [schedule, if_pos h]

theorem schedule_of_le {block : Bytes} {t : ℕ} (h : 16 ≤ t) :
    schedule block t = rotl 1 (schedule block (t - 3) ^^^ schedule block (t - 8) ^^^
      schedule block (t - 14) ^^^ schedule block (t - 16)) := by
  rw [schedule, if_neg (Nat.not_lt.2 h)]

end Fips180
