/-
**Searching and splitting text, as the C++ standard library does it.**

* `Text.find`, `Text.findFrom` — `std::string::find`: the first position at which a pattern occurs;
* `Text.substr` — `std::string::substr`;
* `Text.Splits` — what is between the occurrences of a separator;
* `Text.getlines` — the lines successive calls of `std::getline` return.

Nothing here depends on the program that uses it.

Main results:

* `Text.find_eq_some_iff`, `Text.find_eq_none_iff` — **the first occurrence is found**, if there is
  one;
* `Text.find_append_of_not_mem` — a pattern is not found in a stretch without its first element;
* `Text.find_append_of_not_infix`, `Text.exists_first` — **where the first occurrence is put, it is
  found**, and a text with an occurrence is cut at the first one;
* `Text.exists_splits`, `Text.Splits.unique` — **a text is split in one way**;
* `Text.getlines_append_delim` — **the first line ends at the first delimiter**.
-/

import Mathlib.Data.List.Basic
import Mathlib.Data.List.Infix

set_option relaxedAutoImplicit false
set_option autoImplicit false

namespace Text

variable {α : Type} [DecidableEq α]

/-- `std::string::find`: the first position at which `pat` occurs, or `none` for `npos`. -/
def find (pat : List α) : List α → Option ℕ
  | [] => if pat = [] then some 0 else none
  | x :: xs => if pat <+: x :: xs then some 0 else (find pat xs).map (· + 1)

/-- `std::string::find` with a position to start from. -/
def findFrom (pat s : List α) (pos : ℕ) : Option ℕ :=
  if s.length < pos then none else (find pat (s.drop pos)).map (· + pos)

/-- `std::string::substr`: at most `count` elements from `pos` on, or `none` where it throws
`std::out_of_range`. -/
def substr (s : List α) (pos count : ℕ) : Option (List α) :=
  if s.length < pos then none else some ((s.drop pos).take count)

/-- The lines successive calls of `std::getline` return: each ends at the delimiter, which is
dropped, and the last one, when it is not empty, at the end of the input. -/
def getlines (delim : α) : List α → List (List α)
  | [] => []
  | x :: xs =>
      if x = delim then [] :: getlines delim xs
      else
        match getlines delim xs with
        | [] => [[x]]
        | line :: lines => (x :: line) :: lines

/-- `s` is cut at every occurrence of `sep`, from the left: each of `segs` is followed by one, and
`last` is what remains. -/
inductive Splits (sep : List α) : List α → List (List α) → List α → Prop
  | last {s : List α} (h : ¬ sep <:+: s) : Splits sep s [] s
  | cons {seg s last : List α} {segs : List (List α)} (h : ¬ sep <:+: seg ++ sep.dropLast)
      (hs : Splits sep s segs last) : Splits sep (seg ++ (sep ++ s)) (seg :: segs) last

/-! ### Searching -/

section Find

variable {pat l s : List α} {x : α}

theorem find_of_starts (h : pat <+: s) : find pat s = some 0 := by
  cases s with
  | nil => exact if_pos (List.prefix_nil.1 h)
  | cons x s => exact if_pos h

theorem find_cons_of_not_starts (h : ¬ pat <+: x :: s) :
    find pat (x :: s) = (find pat s).map (· + 1) :=
  if_neg h

/-- A pattern is not found in a stretch that does not contain its first element. -/
theorem find_append_of_not_mem (h : x ∉ l) :
    find (x :: pat) (l ++ s) = (find (x :: pat) s).map (· + l.length) := by
  induction l with
  | nil => simp
  | cons y l ih =>
      have hne : ¬ x :: pat <+: y :: (l ++ s) := by
        rw [List.cons_prefix_cons]
        rintro ⟨rfl, _⟩
        exact h List.mem_cons_self
      have ih := ih fun hm => h (List.mem_cons_of_mem _ hm)
      rw [List.cons_append, find_cons_of_not_starts hne, ih, Option.map_map]
      exact congrArg (Option.map · _) (funext fun i => Nat.add_assoc i l.length 1)

/-- **What is not found does not occur.** -/
theorem find_eq_none_iff : find pat s = none ↔ ¬ pat <:+: s := by
  induction s with
  | nil => simp [find]
  | cons x s ih =>
      rw [List.infix_cons_iff, not_or, ← ih, find]
      by_cases h : pat <+: x :: s
      · simp [h]
      · simp [h]

/-- **What is found is the first occurrence.** -/
theorem find_eq_some_iff {i : ℕ} : find pat s = some i ↔
    i ≤ s.length ∧ pat <+: s.drop i ∧ ∀ j < i, ¬ pat <+: s.drop j := by
  induction s generalizing i with
  | nil =>
      constructor
      · intro h
        unfold find at h
        split_ifs at h with hnil
        obtain rfl := Option.some.inj h
        exact ⟨Nat.le_refl _, by simp [hnil], by simp⟩
      · rintro ⟨hi, hpre, _⟩
        obtain rfl := Nat.le_zero.1 hi
        exact if_pos (List.prefix_nil.1 hpre)
  | cons x s ih =>
      by_cases h : pat <+: x :: s
      · rw [find_of_starts h, Option.some.injEq]
        constructor
        · rintro rfl
          exact ⟨Nat.zero_le _, h, by simp⟩
        · rintro ⟨_, _, hfirst⟩
          by_contra hne
          exact hfirst 0 (Nat.pos_of_ne_zero (Ne.symm hne)) h
      · rw [find_cons_of_not_starts h]
        cases i with
        | zero => simp [h]
        | succ i =>
            have hmap : (find pat s).map (· + 1) = some (i + 1) ↔ find pat s = some i := by
              simp
            rw [hmap, ih, List.length_cons, Nat.add_le_add_iff_right, List.drop_succ_cons]
            refine and_congr_right fun _ => and_congr_right fun _ => ?_
            constructor
            · intro hfirst j hj
              cases j with
              | zero => exact h
              | succ j => exact hfirst j (Nat.lt_of_succ_lt_succ hj)
            · intro hfirst j hj
              exact hfirst (j + 1) (Nat.succ_lt_succ hj)

/-- What is found is within the text. -/
theorem add_length_le_of_find {i : ℕ} (h : find pat s = some i) : i + pat.length ≤ s.length := by
  obtain ⟨hi, hpre, _⟩ := find_eq_some_iff.1 h
  have hlen := hpre.length_le
  rw [List.length_drop] at hlen
  omega

/-- A single element is found where it comes first. -/
theorem find_singleton (h : x ∉ l) (t : List α) : find [x] (l ++ x :: t) = some l.length := by
  have hstart : [x] <+: x :: t := ⟨t, rfl⟩
  rw [find_append_of_not_mem h, find_of_starts hstart, Option.map_some, Nat.zero_add]

theorem find_singleton_eq_none (h : x ∉ s) : find [x] s = none :=
  find_eq_none_iff.2 fun hin => h ((List.singleton_infix_iff x s).1 hin)

/-- The search starts behind what is skipped. -/
theorem findFrom_append (l t : List α) : findFrom pat (l ++ t) l.length =
    (find pat t).map (· + l.length) := by
  rw [findFrom, if_neg (by rw [List.length_append]; omega), List.drop_left]

/-- **An occurrence is found again**, whatever follows. -/
theorem find_append_of_some {i : ℕ} (h : find pat s = some i) (t : List α) :
    find pat (s ++ t) = some i := by
  have hle := add_length_le_of_find h
  obtain ⟨hi, hpre, hfirst⟩ := find_eq_some_iff.1 h
  refine find_eq_some_iff.2 ⟨by rw [List.length_append]; omega, ?_, fun j hj hbad => ?_⟩
  · rw [List.drop_append_of_le_length hi]
    exact hpre.trans (List.prefix_append _ _)
  · rw [List.drop_append_of_le_length (by omega)] at hbad
    refine hfirst j hj (List.prefix_of_prefix_length_le hbad (List.prefix_append _ _) ?_)
    rw [List.length_drop]
    omega

/-- A text that ends before the end of the first occurrence holds none. -/
theorem not_infix_of_prefix {i : ℕ} (h : find pat s = some i) (hl : l <+: s)
    (hlen : l.length < i + pat.length) : ¬ pat <:+: l := by
  intro hin
  obtain ⟨t, rfl⟩ := hl
  cases hf : find pat l with
  | none => exact find_eq_none_iff.1 hf hin
  | some j =>
      have hj := find_append_of_some hf t
      rw [h, Option.some.injEq] at hj
      have hle := add_length_le_of_find hf
      omega

/-- A pattern is found behind a text in which it does not occur, not even across the end. -/
theorem find_append_of_not_infix (h : ¬ pat <:+: l ++ pat.dropLast) (t : List α) :
    find pat (l ++ (pat ++ t)) = some l.length := by
  refine find_eq_some_iff.2 ⟨by simp, ?_, fun j hj hpre => h ?_⟩
  · rw [List.drop_left]
    exact List.prefix_append _ _
  · -- an occurrence in front of that one ends before the last element of it
    have hdrop : (l ++ (pat ++ t)).drop j = l.drop j ++ (pat ++ t) :=
      List.drop_append_of_le_length (Nat.le_of_lt hj)
    have hlen : pat.length ≤ (l.drop j ++ pat.dropLast).length := by
      rw [List.length_append, List.length_drop, List.length_dropLast]
      omega
    have hfront : l.drop j ++ pat.dropLast <+: l.drop j ++ (pat ++ t) :=
      (List.prefix_append_right_inj _).2 ((List.dropLast_prefix pat).trans (List.prefix_append _ _))
    rw [hdrop] at hpre
    have hin := (List.prefix_of_prefix_length_le hpre hfront hlen).isInfix
    rw [← List.drop_append_of_le_length (Nat.le_of_lt hj)] at hin
    exact hin.trans (List.drop_suffix j _).isInfix

omit [DecidableEq α] in
/-- A pattern does not occur across an element it does not contain. -/
theorem infix_append_cons (hx : x ∉ pat) (h : pat <:+: l ++ x :: s) : pat <:+: l ∨ pat <:+: s := by
  obtain ⟨a, b, hab⟩ := h
  rw [List.append_eq_append_iff] at hab
  rcases hab with ⟨c, hl, _⟩ | ⟨c, hpat, hs⟩
  · exact Or.inl ⟨a, c, hl.symm⟩
  · cases c with
    | nil => exact Or.inl ⟨a, [], by simpa using hpat⟩
    | cons y c =>
        -- the element stands before the pattern
        obtain ⟨rfl, htail⟩ := List.cons.inj hs
        rw [List.append_eq_append_iff] at hpat
        rcases hpat with ⟨d, _, hpat⟩ | ⟨d, ha, hpat⟩
        · exact absurd (by rw [hpat]; simp) hx
        · cases d with
          | nil => exact absurd (by rw [← List.nil_append pat, ← hpat]; simp) hx
          | cons z d =>
              obtain ⟨_, hc⟩ := List.cons.inj hpat
              refine Or.inr ⟨d, b, ?_⟩
              rw [htail, hc]
              rfl

/-- **A text in which a pattern occurs is cut at the first occurrence.** -/
theorem exists_first (hne : pat ≠ []) (h : pat <:+: s) :
    ∃ l t, s = l ++ (pat ++ t) ∧ ¬ pat <:+: l ++ pat.dropLast := by
  cases hf : find pat s with
  | none => exact absurd h (find_eq_none_iff.1 hf)
  | some i =>
      obtain ⟨hi, ⟨t, ht⟩, hfirst⟩ := find_eq_some_iff.1 hf
      refine ⟨s.take i, t, by rw [ht, List.take_append_drop], ?_⟩
      rintro ⟨a, b, hab⟩
      -- an earlier occurrence would have been found
      have hlen := congrArg List.length hab
      have hpos : 0 < pat.length := List.length_pos_of_ne_nil hne
      simp only [List.length_append, List.length_take, List.length_dropLast] at hlen
      refine hfirst a.length (by omega) ?_
      have hs : s = s.take i ++ (pat.dropLast ++ (pat.drop (pat.length - 1) ++ t)) := by
        rw [List.dropLast_eq_take, ← List.append_assoc (pat.take _), List.take_append_drop, ht,
          List.take_append_drop]
      rw [hs, ← List.append_assoc, ← hab, List.append_assoc, List.append_assoc, List.drop_left]
      exact List.prefix_append _ _

end Find

/-! ### Splitting -/

section Split

variable {sep s last last' : List α} {segs segs' : List (List α)}

omit [DecidableEq α] in
theorem Splits.append_last (h : Splits sep s segs last) : ∃ front, s = front ++ last := by
  induction h with
  | last h => exact ⟨[], rfl⟩
  | @cons seg s last segs h hs ih =>
      obtain ⟨front, rfl⟩ := ih
      exact ⟨seg ++ (sep ++ front), by simp⟩

/-- **Every text can be split at a separator that is not empty.** -/
theorem exists_splits (hsep : sep ≠ []) (s : List α) : ∃ segs last, Splits sep s segs last := by
  induction hn : s.length using Nat.strong_induction_on generalizing s with
  | _ n ih =>
      by_cases hin : sep <:+: s
      · obtain ⟨seg, t, rfl, hfirst⟩ := exists_first hsep hin
        have hpos : 0 < sep.length := List.length_pos_of_ne_nil hsep
        rw [List.length_append, List.length_append] at hn
        obtain ⟨segs, last, hs⟩ := ih t.length (by omega) t rfl
        exact ⟨seg :: segs, last, .cons hfirst hs⟩
      · exact ⟨[], s, .last hin⟩

/-- **In one way only.** -/
theorem Splits.unique (h : Splits sep s segs last) (h' : Splits sep s segs' last') :
    segs = segs' ∧ last = last' := by
  induction h generalizing segs' with
  | last h =>
      cases h' with
      | last => exact ⟨rfl, rfl⟩
      | cons _ _ => exact absurd ⟨_, _, by rw [List.append_assoc]⟩ h
  | @cons seg s last segs h hs ih =>
      have hfind := find_append_of_not_infix h s
      generalize hw : seg ++ (sep ++ s) = w at h'
      cases h' with
      | last h' => exact absurd ⟨seg, s, by rw [List.append_assoc, hw]⟩ h'
      | @cons seg' s' _ segs' h' hs' =>
          have hfind' := find_append_of_not_infix h' s'
          rw [hw, hfind', Option.some.injEq] at hfind
          obtain ⟨rfl, htail⟩ := List.append_inj hw hfind.symm
          obtain rfl := List.append_cancel_left htail
          obtain ⟨rfl, rfl⟩ := ih hs'
          exact ⟨rfl, rfl⟩

end Split

/-! ### Lines -/

section Lines

variable {delim : α} {l : List α}

/-- The first line ends at the first delimiter. -/
theorem getlines_append_delim (h : delim ∉ l) (s : List α) :
    getlines delim (l ++ delim :: s) = l :: getlines delim s := by
  induction l with
  | nil => simp [getlines]
  | cons y l ih =>
      have hne : y ≠ delim := fun he => h (by simp [he])
      rw [List.cons_append, getlines, if_neg hne, ih fun hm => h (List.mem_cons_of_mem _ hm)]

/-- The first line is what is in front of the first delimiter. -/
theorem head?_getlines (s : List α) :
    (getlines delim s).head? = if s = [] then none else some (s.takeWhile (· ≠ delim)) := by
  induction s with
  | nil => rfl
  | cons x s ih =>
      rw [getlines, if_neg (List.cons_ne_nil x s)]
      split_ifs with hx
      · simp [hx]
      · rw [List.takeWhile_cons_of_pos (by simpa using hx)]
        cases hs : getlines delim s with
        | nil =>
            rw [hs, List.head?_nil] at ih
            split_ifs at ih with hnil
            simp [hnil]
        | cons line lines =>
            rw [hs, List.head?_cons] at ih
            split_ifs at ih
            rw [List.head?_cons, Option.some.inj ih]

/-- What is before the first delimiter, and what is behind it. -/
theorem append_cons_inj {l' s s' : List α} (h : delim ∉ l) (h' : delim ∉ l')
    (heq : l ++ delim :: s = l' ++ delim :: s') : l = l' ∧ s = s' := by
  have hlines := congrArg (getlines delim) heq
  rw [getlines_append_delim h, getlines_append_delim h'] at hlines
  obtain rfl := (List.cons.inj hlines).1
  exact ⟨rfl, (List.cons.inj (List.append_cancel_left heq)).2⟩

end Lines

end Text
