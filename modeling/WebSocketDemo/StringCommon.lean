/-
**Numbers in strings** (`string_common.h`).

`STRING::fromString` converts with `strtol` and then compares with the range of the type: a string
without a number and a number out of range both give 0.  `strtol` skips white space, takes a sign
and the digits that follow, and does not mind what is behind them.  A `long` has 64 bits.

Main definitions:

* `strtol`, `atoi` — the C library's, for base 10;
* `STRING.fromStringInt32`, `STRING.fromStringUInt16` — two of the overloads;
* `STRING.toStringSize` — `STRING::toString` of a `size_t`;
* `BeginsWith`, `Shows` — the integer a text begins with, and the value it shows to a type.

Main results:

* `STRING.fromStringBetween_of_shows` — **what a text shows is read**;
* `STRING.fromStringBetween_numeral` — a numeral between blanks is read.
-/

import WebSocketDemo.Lib.Decimal

set_option relaxedAutoImplicit false
set_option autoImplicit false

namespace WebSocketDemo

open Decimal

/-- `isspace` in the C locale. -/
def isspace (b : UInt8) : Bool := decide (b = 32) || (decide (9 ≤ b) && decide (b ≤ 13))

/-- What `strtol` returns, whether it sets `errno`, and whether it has moved the end pointer. -/
structure Strtol where
  value : ℤ
  erange : Bool
  converted : Bool
  deriving DecidableEq, Repr

/-- `LONG_MIN` and `LONG_MAX`. -/
def longMin : ℤ := -2 ^ 63
def longMax : ℤ := 2 ^ 63 - 1

/-- The sign, if there is one, and what follows it. -/
def takeSign : Bytes → Bool × Bytes
  | 45 :: s => (true, s)
  | 43 :: s => (false, s)
  | s => (false, s)

/-- `strtol(str, &end, 10)`. -/
def strtol (str : Bytes) : Strtol :=
  let (negative, s) := takeSign (str.dropWhile isspace)
  let digits := s.takeWhile fun b => decide (IsDigit b)
  if digits = [] then ⟨0, false, false⟩
  else
    let v : ℤ := if negative then -(value digits : ℤ) else value digits
    if longMax < v then ⟨longMax, true, true⟩
    else if v < longMin then ⟨longMin, true, true⟩
    else ⟨v, false, true⟩

/-- `atoi`: the `long` of `strtol`, cut down to an `int`. -/
def atoi (str : Bytes) : ℤ := (strtol str).value.bmod (2 ^ 32)

namespace STRING

/-- `fromString` for an integer type with the values from `lo` to `hi`: what `val` is set to, and
what is returned. -/
def fromStringBetween (lo hi : ℤ) (str : Bytes) : ℤ × Bool :=
  let v := strtol str
  if v.erange = true ∨ hi < v.value ∨ v.value < lo ∨ v.converted = false then (0, false)
  else (v.value, true)

/-- `fromString(const std::string &, int32_t &)`. -/
def fromStringInt32 (str : Bytes) : ℤ × Bool := fromStringBetween (-2 ^ 31) (2 ^ 31 - 1) str

/-- `fromString(const std::string &, uint16_t &)`. -/
def fromStringUInt16 (str : Bytes) : UInt16 × Bool :=
  let (v, ret) := fromStringBetween 0 (2 ^ 16 - 1) str
  (UInt16.ofNat v.toNat, ret)

/-- `toString(const size_t &)`. -/
def toStringSize (val : ℕ) : Bytes := render val

variable {before d after : Bytes} {n : ℕ} {lo hi : ℤ}

/-- A digit is no white space and no sign. -/
theorem not_isspace_of_isDigit {b : UInt8} (h : IsDigit b) :
    isspace b = false ∧ b ≠ 45 ∧ b ≠ 43 := by
  obtain ⟨h48, h57⟩ := h
  rw [UInt8.le_iff_toNat_le] at h48 h57
  have hnat : (48 : UInt8).toNat = 48 ∧ (57 : UInt8).toNat = 57 := ⟨rfl, rfl⟩
  refine ⟨?_, ?_, ?_⟩
  · rw [isspace, Bool.or_eq_false_iff, Bool.and_eq_false_iff]
    refine ⟨decide_eq_false ?_, Or.inr (decide_eq_false ?_)⟩
    · rintro rfl
      exact absurd h48 (by decide)
    · rw [UInt8.le_iff_toNat_le]
      have h13 : (13 : UInt8).toNat = 13 := rfl
      omega
  · rintro rfl
    exact absurd h48 (by decide)
  · rintro rfl
    exact absurd h48 (by decide)

/-- **A text begins with the integer `v`**: white space, a sign if there is one, and a numeral that
ends where the digits end. -/
def BeginsWith (str : Bytes) (v : ℤ) : Prop :=
  ∃ before sign d after n, str = before ++ (sign ++ (d ++ after)) ∧
    (∀ b ∈ before, isspace b = true) ∧ Denotes d n ∧ (∀ b ∈ after.head?, ¬ IsDigit b) ∧
    (sign = [45] ∧ v = -(n : ℤ) ∨ (sign = [] ∨ sign = [43]) ∧ v = n)

/-- The value a text shows to a type with the values from `lo` to `hi`: the integer it begins with,
or 0 where there is none or the type does not have it. -/
def Shows (lo hi : ℤ) (str : Bytes) (v : ℤ) : Prop :=
  BeginsWith str v ∧ lo ≤ v ∧ v ≤ hi ∨ v = 0 ∧ ∀ w, BeginsWith str w → w < lo ∨ hi < w

/-- A sign is taken, or there is none. -/
theorem takeSign_eq (s : Bytes) : ∃ sign, s = sign ++ (takeSign s).2 ∧
    (sign = [45] ∧ (takeSign s).1 = true ∨ (sign = [] ∨ sign = [43]) ∧ (takeSign s).1 = false) := by
  unfold takeSign
  split
  · exact ⟨[45], rfl, Or.inl ⟨rfl, rfl⟩⟩
  · exact ⟨[43], rfl, Or.inr ⟨Or.inr rfl, rfl⟩⟩
  · exact ⟨[], rfl, Or.inr ⟨Or.inl rfl, rfl⟩⟩

/-- White space is skipped, a sign is taken, and a numeral is taken up to its end. -/
theorem strtol_of_beginsWith {str : Bytes} {v : ℤ} (h : BeginsWith str v) : strtol str =
    if longMax < v then ⟨longMax, true, true⟩
    else if v < longMin then ⟨longMin, true, true⟩ else ⟨v, false, true⟩ := by
  obtain ⟨before, sign, d, after, n, rfl, hbefore, ⟨hne, hdigit, hvalue⟩, hafter, hsign⟩ := h
  obtain ⟨x, d', rfl⟩ := List.exists_cons_of_ne_nil hne
  obtain ⟨hspace, hminus, hplus⟩ := not_isspace_of_isDigit (hdigit x List.mem_cons_self)
  have htake := takeWhile_numeral hdigit hafter
  rw [strtol, List.dropWhile_append_of_pos hbefore]
  rcases hsign with ⟨rfl, rfl⟩ | ⟨rfl | rfl, rfl⟩
  · have hskip : ([45] ++ (x :: d' ++ after)).dropWhile isspace = [45] ++ (x :: d' ++ after) :=
      List.dropWhile_cons_of_neg (by decide)
    have hminus : takeSign ([45] ++ (x :: d' ++ after)) = (true, x :: d' ++ after) := rfl
    rw [hskip, hminus]
    dsimp only
    rw [htake, if_neg (List.cons_ne_nil x d'), hvalue, if_pos rfl]
  · have hskip : ([] ++ (x :: d' ++ after)).dropWhile isspace = x :: d' ++ after :=
      List.dropWhile_cons_of_neg (by simp [hspace])
    have hnone : takeSign (x :: d' ++ after) = (false, x :: d' ++ after) := by
      rw [List.cons_append]
      unfold takeSign
      split
      · rename_i heq
        exact absurd (List.cons.inj heq).1 hminus
      · rename_i heq
        exact absurd (List.cons.inj heq).1 hplus
      · rfl
    rw [hskip, hnone]
    dsimp only
    rw [htake, if_neg (List.cons_ne_nil x d'), hvalue, if_neg Bool.false_ne_true]
  · have hskip : ([43] ++ (x :: d' ++ after)).dropWhile isspace = [43] ++ (x :: d' ++ after) :=
      List.dropWhile_cons_of_neg (by decide)
    have hplus : takeSign ([43] ++ (x :: d' ++ after)) = (false, x :: d' ++ after) := rfl
    rw [hskip, hplus]
    dsimp only
    rw [htake, if_neg (List.cons_ne_nil x d'), hvalue, if_neg Bool.false_ne_true]

/-- Where there is no integer, nothing is converted. -/
theorem strtol_of_not_beginsWith {str : Bytes} (h : ∀ v, ¬ BeginsWith str v) :
    strtol str = ⟨0, false, false⟩ := by
  obtain ⟨sign, hsplit, hsign⟩ := takeSign_eq (str.dropWhile isspace)
  set s := (takeSign (str.dropWhile isspace)).2 with hs
  have hnone : s.takeWhile (fun b => decide (IsDigit b)) = [] := by
    by_contra hne
    have hstr : str = str.takeWhile isspace ++
        (sign ++ (s.takeWhile (fun b => decide (IsDigit b)) ++
        s.dropWhile fun b => decide (IsDigit b))) := by
      rw [List.takeWhile_append_dropWhile, ← hsplit, List.takeWhile_append_dropWhile]
    have hafter : ∀ b ∈ (s.dropWhile fun b => decide (IsDigit b)).head?, ¬ IsDigit b := by
      intro b hb
      have hnot := List.head?_dropWhile_not (fun b => decide (IsDigit b)) s
      rw [Option.mem_def.1 hb] at hnot
      simpa using hnot
    have hdigit : ∀ b ∈ s.takeWhile (fun b => decide (IsDigit b)), IsDigit b := by
      intro b hb
      simpa using List.mem_takeWhile_imp hb
    have hbegins (v : ℤ) := fun hv => h v ⟨_, sign, _, _, _, hstr,
      fun b hb => List.mem_takeWhile_imp hb, ⟨hne, hdigit, rfl⟩, hafter, hv⟩
    rcases hsign with ⟨hminus, _⟩ | ⟨hplain, _⟩
    · exact hbegins _ (Or.inl ⟨hminus, rfl⟩)
    · exact hbegins _ (Or.inr ⟨hplain, rfl⟩)
  rw [strtol]
  dsimp only
  rw [← hs, if_pos hnone]

/-- The integer a text begins with is read if the type has it, and 0 else. -/
theorem fromStringBetween_of_beginsWith {str : Bytes} {v : ℤ} (hlo : longMin ≤ lo)
    (hhi : hi ≤ longMax) (h : BeginsWith str v) :
    fromStringBetween lo hi str = if lo ≤ v ∧ v ≤ hi then (v, true) else (0, false) := by
  rw [fromStringBetween, strtol_of_beginsWith h]
  by_cases hin : lo ≤ v ∧ v ≤ hi
  · have hlong : ¬ longMax < v := by omega
    have hlow : ¬ v < longMin := by omega
    have hgood : ¬ (hi < v ∨ v < lo) := by omega
    rw [if_neg hlong, if_neg hlow, if_pos hin]
    simpa using hgood
  · rw [if_neg hin]
    by_cases hlong : longMax < v
    · simp [hlong]
    · by_cases hlow : v < longMin
      · simp [hlong, hlow]
      · have hbad : hi < v ∨ v < lo := by omega
        simpa [hlong, hlow, or_iff_not_imp_left] using hbad

/-- **What a text shows is read.** -/
theorem fromStringBetween_of_shows {str : Bytes} {v : ℤ} (hlo : longMin ≤ lo) (hhi : hi ≤ longMax)
    (h : Shows lo hi str v) : (fromStringBetween lo hi str).1 = v := by
  rcases h with ⟨hv, hin⟩ | ⟨rfl, hout⟩
  · rw [fromStringBetween_of_beginsWith hlo hhi hv, if_pos hin]
  · by_cases hsome : ∃ w, BeginsWith str w
    · obtain ⟨w, hw⟩ := hsome
      have hnot : ¬ (lo ≤ w ∧ w ≤ hi) := by
        have := hout w hw
        omega
      rw [fromStringBetween_of_beginsWith hlo hhi hw, if_neg hnot]
    · rw [fromStringBetween, strtol_of_not_beginsWith fun v hv => hsome ⟨v, hv⟩]
      simp

/-- Every text shows something. -/
theorem exists_shows (lo hi : ℤ) (str : Bytes) : ∃ v, Shows lo hi str v := by
  by_cases hin : ∃ v, BeginsWith str v ∧ lo ≤ v ∧ v ≤ hi
  · obtain ⟨v, hv⟩ := hin
    exact ⟨v, Or.inl hv⟩
  · refine ⟨0, Or.inr ⟨rfl, fun w hw => ?_⟩⟩
    by_contra hout
    exact hin ⟨w, hw, by omega⟩

/-- White space and a numeral. -/
theorem beginsWith_numeral (hbefore : ∀ b ∈ before, isspace b = true) (hd : Denotes d n)
    (hafter : ∀ b ∈ after.head?, ¬ IsDigit b) : BeginsWith (before ++ d ++ after) n :=
  ⟨before, [], d, after, n, List.append_assoc _ _ _, hbefore, hd, hafter,
    Or.inr ⟨Or.inl rfl, rfl⟩⟩

/-- **A numeral between blanks is read**, if the number is in the range of the type; else 0 is. -/
theorem fromStringBetween_numeral (hlow : longMin ≤ lo) (hlo : lo ≤ 0) (hhi : hi ≤ longMax)
    (hbefore : ∀ b ∈ before, isspace b = true) (hd : Denotes d n)
    (hafter : ∀ b ∈ after.head?, ¬ IsDigit b) : fromStringBetween lo hi (before ++ d ++ after) =
      if (n : ℤ) ≤ hi then ((n : ℤ), true) else (0, false) := by
  rw [fromStringBetween_of_beginsWith hlow hhi (beginsWith_numeral hbefore hd hafter)]
  have hn : lo ≤ (n : ℤ) := by omega
  simp [hn]

/-- A port number is read back. -/
theorem fromStringUInt16_numeral (hd : Denotes d n) (hn : n < 2 ^ 16) :
    fromStringUInt16 d = (UInt16.ofNat n, true) := by
  have hread := fromStringBetween_numeral (show longMin ≤ 0 by decide)
    (show (0 : ℤ) ≤ 0 from le_rfl)
    (show (2 ^ 16 - 1 : ℤ) ≤ longMax by decide)
      (show ∀ b ∈ ([] : Bytes), isspace b = true by simp) hd
    (show ∀ b ∈ ([] : Bytes).head?, ¬ IsDigit b by simp)
  rw [List.nil_append, List.append_nil, if_pos (by omega)] at hread
  rw [fromStringUInt16, hread]
  rfl

end STRING

end WebSocketDemo
