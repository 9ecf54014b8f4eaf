/-
**The `application/x-www-form-urlencoded` representation of a string of bytes.**

A byte is written literally, if it is a letter, a digit or one of the marks `-`, `_`, `.` and `~`;
as a plus sign, if it is a space; or as a percent sign and two hexadecimal digits, whose letters may
be in either case.  A string has many representations; each is a list of tokens, one for each byte.
Nothing here depends on the program that uses it.

Main definitions:

* `UrlEncoded.Token` — one byte, in one of its forms;
* `UrlEncoded.render`, `UrlEncoded.values` — what is written, and what it stands for.

Main results:

* `UrlEncoded.flatMap_eq_map_iff` — **when a reader that yields at most one byte for each token
  yields what is meant**.
-/

import WebSocketDemo.Lib.ByteOrder

set_option relaxedAutoImplicit false
set_option autoImplicit false

namespace UrlEncoded

/-- Digits, small letters and capital letters. -/
def IsAlnum (x : UInt8) : Prop := (48 ≤ x ∧ x ≤ 57) ∨ (97 ≤ x ∧ x ≤ 122) ∨ (65 ≤ x ∧ x ≤ 90)

instance (x : UInt8) : Decidable (IsAlnum x) :=
  inferInstanceAs (Decidable ((48 ≤ x ∧ x ≤ 57) ∨ (97 ≤ x ∧ x ≤ 122) ∨ (65 ≤ x ∧ x ≤ 90)))

/-- The marks `-`, `_`, `.` and `~`. -/
def IsMark (x : UInt8) : Prop := x ∈ ([45, 95, 46, 126] : Bytes)

instance (x : UInt8) : Decidable (IsMark x) :=
  inferInstanceAs (Decidable (x ∈ ([45, 95, 46, 126] : Bytes)))

/-- A hexadecimal digit; a letter may be a small one. -/
structure HexDigit where
  value : Fin 16
  small : Bool

namespace HexDigit

/-- The digit as it is written. -/
def char (d : HexDigit) : UInt8 :=
  if d.value.val < 10 then 48 + UInt8.ofNat d.value.val
  else (if d.small then 87 else 55) + UInt8.ofNat d.value.val

/-- It is written as a small letter. -/
def IsSmall (d : HexDigit) : Prop := 10 ≤ d.value.val ∧ d.small = true

instance (d : HexDigit) : Decidable d.IsSmall :=
  inferInstanceAs (Decidable (10 ≤ d.value.val ∧ d.small = true))

end HexDigit

/-- **One byte of a representation.** -/
inductive Token
  | literal (x : UInt8) (h : IsAlnum x ∨ IsMark x)
  | plus
  | escape (hi lo : HexDigit)

namespace Token

/-- What is written. -/
def bytes : Token → Bytes
  | literal x _ => [x]
  | plus => [43]
  | escape hi lo => [37, hi.char, lo.char]

/-- The byte it stands for. -/
def value : Token → UInt8
  | literal x _ => x
  | plus => 32
  | escape hi lo => UInt8.ofNat (16 * hi.value.val + lo.value.val)

end Token

/-- What a list of tokens is written as. -/
def render (ts : List Token) : Bytes := ts.flatMap Token.bytes

/-- The string it represents. -/
def values (ts : List Token) : Bytes := ts.map Token.value

@[simp] theorem render_nil : render [] = [] := rfl

@[simp] theorem render_cons (t : Token) (ts : List Token) :
    render (t :: ts) = t.bytes ++ render ts :=
  rfl

/-- **A reader that yields at most one element for each token yields what is meant exactly when it
does so for each of them.** -/
theorem flatMap_eq_map_iff {τ β : Type} {read : τ → List β} {value : τ → β} {ts : List τ}
    (hread : ∀ t, (read t).length ≤ 1) :
    ts.flatMap read = ts.map value ↔ ∀ t ∈ ts, read t = [value t] := by
  have hlen (ts : List τ) : (ts.flatMap read).length ≤ ts.length := by
    induction ts with
    | nil => exact Nat.le_refl _
    | cons t ts ih =>
        have ht := hread t
        rw [List.flatMap_cons, List.length_append, List.length_cons]
        omega
  induction ts with
  | nil => simp
  | cons t ts ih =>
      rw [List.flatMap_cons, List.map_cons, List.forall_mem_cons]
      refine Iff.trans ?_ (and_congr_right fun _ => ih)
      have ht := hread t
      cases hr : read t with
      | nil =>
          -- a byte is missing
          constructor
          · intro he
            have hle := hlen ts
            have hcount := congrArg List.length he
            simp only [List.nil_append, List.length_cons, List.length_map] at hcount
            omega
          · rintro ⟨hnil, _⟩
            cases hnil
      | cons x xs =>
          have hxs : xs = [] := by
            rw [hr, List.length_cons] at ht
            exact List.length_eq_zero_iff.1 (by omega)
          subst hxs
          simp

end UrlEncoded
