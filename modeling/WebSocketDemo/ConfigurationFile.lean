/-
**Reading back a configuration file**.

A file is written as lines, each of them for nothing, for a section or for a value.  A line may be
continued: it then stands in the file in pieces, with a backslash and a newline between them.  White
space may stand around everything; a value may stand in quotes, and a comment behind it.

What is in the file behind the lines is either nothing, or it begins with a line that is not
terminated or does not fit into the buffer.

Main definitions:

* `CConfigure.Line` — a line of a file, in its pieces;
* `CConfigure.Written`, `CConfigure.Means` — the ways to write a value, and a line;
* `CConfigure.bindings` — what a file says: sections, keys and values;
* `CConfigure.Accepted` — a key and a value that can be handed over.

Main results:

* `CConfigure.readLines_line` — one line is read, however it is continued;
* `CConfigure.Written.valueOf` — a value is found again, however it is written;
* `configuration_round_trip` — **what is written is found again**;
* `configuration_accepted` — **whatever the file is, it can be read**.
-/

import WebSocketDemo.Base64
import WebSocketDemo.Configure

set_option relaxedAutoImplicit false
set_option autoImplicit false

namespace WebSocketDemo

open Scanf Decimal

namespace CConfigure

/-! ### One line -/

/-- A line of a file.  It is continued behind each of the `fronts`. -/
structure Line where
  fronts : List Bytes
  last : Bytes
  deriving DecidableEq, Repr

namespace Line

/-- The pieces put together. -/
def content (l : Line) : Bytes := l.fronts.flatten ++ l.last

/-- The line as it stands in the file. -/
def text (l : Line) : Bytes := l.fronts.flatMap (fun front => front ++ [92, 10]) ++ l.last ++ [10]

/-- It fits into the buffer with its line feed, what is continued with its backslash, too, and its
end is its own. -/
structure Legal (l : Line) : Prop where
  bytes : ∀ b ∈ l.content, b ≠ 0 ∧ b ≠ 10
  fits : l.content.length + 1 < asciiLineSz
  continued : l.fronts.flatten.length + 2 < asciiLineSz
  ends : (l.content.rdropWhile isspace).getLast? ≠ some 92

end Line

section Reading

variable {α : Type} {before : UInt8} {onValue : Buffers → α → α} {found : α → Bool} {b : Buffers}
  {a : α} {rest kept : Bytes}

/-- What is done with a line. -/
def takeLine (onValue : Buffers → α → α) (content : Bytes) (b : Buffers) (a : α) : Buffers × α :=
  match iniparserLine content b with
  | (.lineValue, b) => (b, onValue b a)
  | (_, b) => (b, a)

/-- White space at the end makes no difference. -/
theorem iniparserLine_rdropWhile (content : Bytes) :
    iniparserLine (content.rdropWhile isspace) b = iniparserLine content b := by
  rw [iniparserLine, iniparserLine, strstrip_rdropWhile]

/-- A line that fits is read whole. -/
theorem fgets_line {n : ℕ} {front : Bytes} (hno : 10 ∉ front) (hn : front.length + 1 < n) :
    fgets n (front ++ 10 :: rest) = some (front ++ [10], rest) := by
  have htake : (front ++ 10 :: rest).take (n - 1) =
      front ++ 10 :: rest.take (n - 1 - front.length - 1) := by
    rw [List.take_append, List.take_of_length_le (by omega)]
    obtain ⟨m, hm⟩ : ∃ m, n - 1 - front.length = m + 1 := ⟨n - 1 - front.length - 1, by omega⟩
    rw [hm, List.take_succ_cons]
    rfl
  have hfront : (front ++ 10 :: rest.take (n - 1 - front.length - 1)).takeWhile
      (fun b => decide (b ≠ 10)) = front := by
    have hpos : ∀ b ∈ front, decide (b ≠ 10) = true := fun b hb =>
      decide_eq_true fun he => hno (by rwa [← he])
    rw [List.takeWhile_append_of_pos hpos, List.takeWhile_cons_of_neg (by simp), List.append_nil]
  have hdrop : (front ++ 10 :: rest).drop (front ++ [10]).length = rest := by
    have hsplit : front ++ 10 :: rest = (front ++ [10]) ++ rest := by simp
    rw [hsplit, List.drop_left]
  rw [fgets, if_neg (by simp), htake]
  dsimp only
  rw [if_pos (by simp), hfront, hdrop]

/-- One turn of the loop, when a line is read whole. -/
theorem readLines_succ {fuel : ℕ} {front : Bytes} (hstop : found a = false)
    (hbytes : ∀ b ∈ kept ++ front, b ≠ 0 ∧ b ≠ 10)
    (hfits : (kept ++ front).length + 1 < asciiLineSz) :
    readLines before onValue found (fuel + 1) (front ++ 10 :: rest) kept b a =
      if lastOr before ((kept ++ front).rdropWhile isspace) = 92 then
        if (kept ++ front).rdropWhile isspace = [] then none
        else readLines before onValue found fuel rest
          ((kept ++ front).rdropWhile isspace).dropLast b a
      else
        readLines before onValue found fuel rest [] (takeLine onValue (kept ++ front) b a).1
          (takeLine onValue (kept ++ front) b a).2 := by
  have hno : 10 ∉ front := fun h => (hbytes 10 (List.mem_append_right _ h)).2 rfl
  have hlen : front.length + 1 < asciiLineSz - kept.length := by
    rw [List.length_append] at hfits
    omega
  have hline : (kept ++ front ++ [10]).takeWhile (fun b => decide (b ≠ 0)) =
      kept ++ front ++ [10] := by
    refine List.takeWhile_eq_self_iff.2 fun b hb => decide_eq_true ?_
    rcases List.mem_append.1 hb with hb | hb
    · exact (hbytes b hb).1
    · rw [List.mem_singleton.1 hb]
      decide
  have hlast : lastOr before (kept ++ front ++ [10]) = 10 := by
    rw [lastOr, List.getLast?_concat]
    rfl
  have hstrip : (kept ++ front ++ [10]).rdropWhile isspace = (kept ++ front).rdropWhile isspace :=
    List.rdropWhile_concat_pos _ _ 10 (by decide)
  rw [readLines, if_neg (by simp [hstop]), fgets_line hno hlen]
  dsimp only
  rw [← List.append_assoc, hline, hlast, if_neg (by simp), hstrip]
  split_ifs with h92
  · rfl
  · rfl
  · rw [iniparserLine_rdropWhile, takeLine]
    rcases iniparserLine (kept ++ front) b with ⟨_ | _, b⟩ <;> rfl

/-- A line that is continued: its backslash goes, and it is kept. -/
theorem readLines_front {fuel : ℕ} {front : Bytes} (hstop : found a = false)
    (hbytes : ∀ b ∈ kept ++ front, b ≠ 0 ∧ b ≠ 10)
    (hfits : (kept ++ front).length + 2 < asciiLineSz) :
    readLines before onValue found (fuel + 1) (front ++ [92, 10] ++ rest) kept b a =
      readLines before onValue found fuel rest (kept ++ front) b a := by
  have hsplit : front ++ [92, 10] ++ rest = (front ++ [92]) ++ 10 :: rest := by simp
  have hkept : kept ++ (front ++ [92]) = kept ++ front ++ [92] := (List.append_assoc _ _ _).symm
  have hstrip : (kept ++ front ++ [92]).rdropWhile isspace = kept ++ front ++ [92] :=
    List.rdropWhile_concat_neg _ _ 92 (by decide)
  have hlast : lastOr before (kept ++ front ++ [92]) = 92 := by
    rw [lastOr, List.getLast?_concat]
    rfl
  rw [hsplit, readLines_succ hstop, hkept, hstrip, hlast, if_pos rfl, if_neg (by simp),
    List.dropLast_concat]
  · intro b hb
    rw [hkept] at hb
    rcases List.mem_append.1 hb with hb | hb
    · exact hbytes b hb
    · rw [List.mem_singleton.1 hb]
      decide
  · rw [hkept, List.length_append, List.length_singleton]
    omega

/-- The last piece of a line. -/
theorem readLines_last {fuel : ℕ} {last : Bytes} (hbefore : before ≠ 92) (hstop : found a = false)
    (hbytes : ∀ b ∈ kept ++ last, b ≠ 0 ∧ b ≠ 10) (hfits : (kept ++ last).length + 1 < asciiLineSz)
    (hends : ((kept ++ last).rdropWhile isspace).getLast? ≠ some 92) :
    readLines before onValue found (fuel + 1) (last ++ [10] ++ rest) kept b a =
      readLines before onValue found fuel rest [] (takeLine onValue (kept ++ last) b a).1
        (takeLine onValue (kept ++ last) b a).2 := by
  have hsplit : last ++ [10] ++ rest = last ++ 10 :: rest := by simp
  have hlast : lastOr before ((kept ++ last).rdropWhile isspace) ≠ 92 := by
    rw [lastOr]
    cases h : ((kept ++ last).rdropWhile isspace).getLast? with
    | none => exact hbefore
    | some x => exact fun he => hends (by rw [h, ← he]; rfl)
  rw [hsplit, readLines_succ hstop hbytes hfits, if_neg hlast]

variable (onValue b a) in
/-- **One line is read, however it is continued.** -/
theorem readLines_line {l : Line} (hl : l.Legal) (hbefore : before ≠ 92) (hstop : found a = false)
    {fuel : ℕ} (hfuel : (l.text ++ rest).length < fuel) :
    ∃ fuel', rest.length < fuel' ∧
      readLines before onValue found fuel (l.text ++ rest) [] b a =
        readLines before onValue found fuel' rest [] (takeLine onValue l.content b a).1
          (takeLine onValue l.content b a).2 := by
  obtain ⟨fronts, last⟩ := l
  -- `kept` are the pieces that have been read already
  suffices h : ∀ kept, (∀ b ∈ kept ++ (fronts.flatten ++ last), b ≠ 0 ∧ b ≠ 10) →
      (kept ++ (fronts.flatten ++ last)).length + 1 < asciiLineSz →
      (kept ++ fronts.flatten).length + 2 < asciiLineSz →
      ((kept ++ (fronts.flatten ++ last)).rdropWhile isspace).getLast? ≠ some 92 →
      ∃ fuel', rest.length < fuel' ∧
        readLines before onValue found fuel (Line.text ⟨fronts, last⟩ ++ rest) kept b a =
          readLines before onValue found fuel' rest []
            (takeLine onValue (kept ++ (fronts.flatten ++ last)) b a).1
            (takeLine onValue (kept ++ (fronts.flatten ++ last)) b a).2 from
    h [] hl.bytes hl.fits hl.continued hl.ends
  clear hl
  induction fronts generalizing fuel with
  | nil =>
      intro kept hbytes hfits _ hends
      rw [Line.text, List.flatMap_nil, List.nil_append, List.length_append, List.length_append,
        List.length_singleton] at hfuel
      obtain ⟨fuel, rfl⟩ : ∃ n, fuel = n + 1 := ⟨fuel - 1, by omega⟩
      refine ⟨fuel, by omega, ?_⟩
      rw [Line.text, List.flatMap_nil, List.nil_append]
      exact readLines_last hbefore hstop hbytes hfits hends
  | cons front fronts ih =>
      intro kept hbytes hfits hcontinued hends
      have htext : Line.text ⟨front :: fronts, last⟩ ++ rest =
          front ++ [92, 10] ++ (Line.text ⟨fronts, last⟩ ++ rest) := by
        simp [Line.text]
      have hcontent : kept ++ ((front :: fronts).flatten ++ last) =
          (kept ++ front) ++ (fronts.flatten ++ last) := by
        simp
      rw [hcontent] at hbytes hfits hends ⊢
      rw [htext, List.length_append, List.length_append, List.length_cons, List.length_singleton]
        at hfuel
      obtain ⟨fuel, rfl⟩ : ∃ n, fuel = n + 1 := ⟨fuel - 1, by omega⟩
      rw [List.flatten_cons, ← List.append_assoc] at hcontinued
      have hfront : (kept ++ front).length + 2 < asciiLineSz := by
        rw [List.length_append] at hcontinued
        omega
      rw [htext, readLines_front hstop (fun b hb => hbytes b (List.mem_append_left _ hb)) hfront]
      exact ih (by omega) (kept ++ front) hbytes hfits hcontinued hends

/-- A line that is not terminated, or does not fit, ends the reading. -/
theorem readLines_rest {fuel : ℕ} (hfuel : 0 < fuel) (hstop : found a = false)
    (hrest : ∀ b ∈ rest.take (asciiLineSz - 1), b ≠ 0 ∧ b ≠ 10) :
    readLines before onValue found fuel rest [] b a = some (decide (rest = []), a) := by
  obtain ⟨fuel, rfl⟩ : ∃ n, fuel = n + 1 := ⟨fuel - 1, by omega⟩
  rw [readLines, if_neg (by simp [hstop])]
  by_cases hnil : rest = []
  · rw [hnil]
    rfl
  have hfgets : fgets asciiLineSz rest =
      some (rest.take (asciiLineSz - 1), rest.drop (rest.take (asciiLineSz - 1)).length) := by
    rw [fgets, if_neg hnil]
    dsimp only
    rw [if_neg fun h => (hrest 10 h).2 rfl]
  have hline : (rest.take (asciiLineSz - 1)).takeWhile (fun b => decide (b ≠ 0)) =
      rest.take (asciiLineSz - 1) :=
    List.takeWhile_eq_self_iff.2 fun b hb => decide_eq_true (hrest b hb).1
  have hne : rest.take (asciiLineSz - 1) ≠ [] := by
    rw [ne_eq, List.take_eq_nil_iff]
    rintro (h | h)
    · exact absurd h (by decide)
    · exact hnil h
  have hlast : lastOr before (rest.take (asciiLineSz - 1)) ≠ 10 := by
    rw [lastOr, List.getLast?_eq_some_getLast hne, Option.getD_some]
    exact (hrest _ (List.getLast_mem hne)).2
  rw [List.length_nil, Nat.sub_zero, hfgets]
  dsimp only
  rw [List.nil_append, hline, if_pos hlast, decide_eq_false hnil]

end Reading

/-! ### How a value is written -/

/-- A comment, or nothing. -/
def IsTail (s : Bytes) : Prop := ∀ x ∈ s.head?, x = 59 ∨ x = 35

instance (s : Bytes) : Decidable (IsTail s) :=
  inferInstanceAs (Decidable (∀ x ∈ s.head?, x = 59 ∨ x = 35))

/-- The ways to write a value. -/
inductive Written : Bytes → Bytes → Prop
  /-- As it is. -/
  | plain {val gap tail : Bytes} : IsTrimmed val → (∀ b ∈ val, uncommented b = true) →
      val.head? ≠ some 34 → val.head? ≠ some 39 → IsBlank gap → IsTail tail →
      Written val (val ++ gap ++ tail)
  /-- In quotes. -/
  | quoted {quote : UInt8} {val tail : Bytes} : quote = 34 ∨ quote = 39 → IsTrimmed val → val ≠ [] →
      quote ∉ val → val ≠ [34, 34] → val ≠ [39, 39] → Written val (quote :: val ++ quote :: tail)
  /-- No value, in quotes. -/
  | empty {quote : UInt8} {gap tail : Bytes} : quote = 34 ∨ quote = 39 → IsBlank gap → IsTail tail →
      Written [] (quote :: quote :: (gap ++ tail))

section Value

variable {x quote : UInt8} {r s t w val gap tail : Bytes}

theorem uncommented_of_isspace (h : isspace x = true) : uncommented x = true := by
  rw [uncommented, Bool.and_eq_true, decide_eq_true_eq, decide_eq_true_eq]
  constructor
  · rintro rfl
    exact absurd h (by decide)
  · rintro rfl
    exact absurd h (by decide)

/-- When the end is cut off, what stands in front of a comment loses white space at most. -/
theorem IsTail.strstrip_takeWhile (htail : IsTail tail) (hw : ∀ b ∈ w, uncommented b = true) :
    strstrip (s ++ ((w ++ tail).rdropWhile isspace).takeWhile uncommented) = strstrip (s ++ w) := by
  cases tail with
  | nil =>
      have hself : (w.rdropWhile isspace).takeWhile uncommented = w.rdropWhile isspace :=
        List.takeWhile_eq_self_iff.2 fun b hb =>
          hw b ((List.rdropWhile_prefix isspace w).mem hb)
      have hblank : IsBlank (w.rtakeWhile isspace) := fun b hb => List.mem_rtakeWhile_imp hb
      rw [List.append_nil, hself, ← strstrip_append_right hblank, List.append_assoc,
        List.rdropWhile_append_rtakeWhile]
  | cons x tail =>
      have hspace : isspace x = false := by
        rcases htail x rfl with rfl | rfl <;> decide
      have hx : uncommented x = false := by
        rcases htail x rfl with rfl | rfl <;> decide
      rw [rdropWhile_append_cons hspace, List.takeWhile_append_of_pos hw,
        List.takeWhile_cons_of_neg (by simp [hx]), List.append_nil]

/-- No quote in front. -/
theorem quotedText_of_ne (h : r.head? ≠ some quote) : quotedText quote r = none := by
  cases r with
  | nil => rfl
  | cons x r => exact if_neg fun hx => h (by rw [List.head?_cons, hx.1])

/-- Two quotes in front. -/
theorem quotedText_empty : quotedText quote (quote :: quote :: r) = none := by
  rw [quotedText, if_neg]
  rw [List.takeWhile_cons_of_neg (by simp)]
  exact fun h => h.2 rfl

/-- A value in quotes. -/
theorem quotedText_quoted (hne : val ≠ []) (hno : quote ∉ val) :
    quotedText quote (quote :: val ++ quote :: r) = some val := by
  have htake : (val ++ quote :: r).takeWhile (fun b => decide (b ≠ quote)) = val := by
    have hpos : ∀ b ∈ val, decide (b ≠ quote) = true := fun b hb =>
      decide_eq_true fun he => hno (by rwa [← he])
    rw [List.takeWhile_append_of_pos hpos, List.takeWhile_cons_of_neg (by simp), List.append_nil]
  rw [List.cons_append, quotedText, htake, if_pos ⟨rfl, hne⟩]

/-- The value of a line whose end has been cut off. -/
theorem valueOf_rdropWhile (hgap : IsBlank gap) :
    valueOf ((gap ++ r).rdropWhile isspace) =
      if strstrip (valueText (strstrip r)) = [34, 34] ∨ strstrip (valueText (strstrip r)) = [39, 39]
      then [] else strstrip (valueText (strstrip r)) := by
  rw [valueOf, dropWhile_rdropWhile, List.dropWhile_append_of_pos hgap]
  rfl

/-- A value without quotes. -/
theorem valueText_of_none (hdouble : quotedText 34 r = none) (hsingle : quotedText 39 r = none) :
    valueText r = r.takeWhile uncommented := by
  rw [valueText, hdouble, hsingle]
  rfl

theorem strstrip_valueText_plain (htrim : IsTrimmed val) (hval : ∀ b ∈ val, uncommented b = true)
    (hdouble : val.head? ≠ some 34) (hsingle : val.head? ≠ some 39) (hblank : IsBlank gap)
    (htail : IsTail tail) : strstrip (valueText (strstrip (val ++ gap ++ tail))) = val := by
  cases val with
  | nil =>
      rw [List.nil_append, strstrip_append_left hblank]
      cases tail with
      | nil => rfl
      | cons x tail =>
          rcases htail x rfl with rfl | rfl
          · rw [strstrip_cons (by decide)]
            rfl
          · rw [strstrip_cons (by decide)]
            rfl
  | cons y v =>
      obtain ⟨hy, hv⟩ := List.forall_mem_cons.1 hval
      have hw : ∀ b ∈ v ++ gap, uncommented b = true := by
        intro b hb
        rcases List.mem_append.1 hb with hb | hb
        · exact hv b hb
        · exact uncommented_of_isspace (hblank b hb)
      have hnone : valueText (y :: (v ++ gap ++ tail).rdropWhile isspace) =
          (y :: (v ++ gap ++ tail).rdropWhile isspace).takeWhile uncommented :=
        valueText_of_none (quotedText_of_ne hdouble) (quotedText_of_ne hsingle)
      rw [List.cons_append, List.cons_append, strstrip_cons htrim.head, hnone,
        List.takeWhile_cons_of_pos hy]
      exact (htail.strstrip_takeWhile (s := [y]) hw).trans
        ((strstrip_append_right (s := y :: v) hblank).trans htrim)

theorem valueText_quoted (hquote : quote = 34 ∨ quote = 39) (hne : val ≠ []) (hno : quote ∉ val) :
    valueText (strstrip (quote :: val ++ quote :: tail)) = val := by
  have hspace : isspace quote = false := by
    rcases hquote with rfl | rfl <;> decide
  have htext := quotedText_quoted (r := tail.rdropWhile isspace) hne hno
  rw [List.cons_append, strstrip_cons hspace, rdropWhile_append_cons hspace, ← List.cons_append,
    valueText]
  rcases hquote with rfl | rfl
  · rw [htext]
    rfl
  · rw [quotedText_of_ne (by simp), htext]
    rfl

theorem strstrip_valueText_empty (hquote : quote = 34 ∨ quote = 39) (hblank : IsBlank gap)
    (htail : IsTail tail) :
    strstrip (valueText (strstrip (quote :: quote :: (gap ++ tail)))) = [quote, quote] := by
  have hspace : isspace quote = false := by
    rcases hquote with rfl | rfl <;> decide
  have hquoted : uncommented quote = true := by
    rcases hquote with rfl | rfl <;> decide
  have hw : ∀ b ∈ quote :: gap, uncommented b = true :=
    List.forall_mem_cons.2 ⟨hquoted, fun b hb => uncommented_of_isspace (hblank b hb)⟩
  have hcons : (quote :: (gap ++ tail)).rdropWhile isspace =
      quote :: (gap ++ tail).rdropWhile isspace :=
    rdropWhile_append_cons (l := []) hspace
  have hnone : valueText (quote :: quote :: (gap ++ tail).rdropWhile isspace) =
      (quote :: quote :: (gap ++ tail).rdropWhile isspace).takeWhile uncommented := by
    rcases hquote with rfl | rfl
    · exact valueText_of_none quotedText_empty (quotedText_of_ne (by simp))
    · exact valueText_of_none (quotedText_of_ne (by simp)) quotedText_empty
  have htrim : IsTrimmed [quote, quote] := by
    rcases hquote with rfl | rfl <;> decide
  rw [strstrip_cons hspace, hcons, hnone, List.takeWhile_cons_of_pos hquoted, ← hcons]
  exact (htail.strstrip_takeWhile (s := [quote]) hw).trans
    ((strstrip_append_right (s := [quote, quote]) hblank).trans htrim)

/-- **A value is found again, however it is written.** -/
theorem Written.valueOf (h : Written val r) (hgap : IsBlank gap) :
    CConfigure.valueOf ((gap ++ r).rdropWhile isspace) = val := by
  rw [valueOf_rdropWhile hgap]
  cases h with
  | plain htrim hval hdouble hsingle hblank htail =>
      rw [strstrip_valueText_plain htrim hval hdouble hsingle hblank htail, if_neg]
      rintro (rfl | rfl)
      · exact hdouble rfl
      · exact hsingle rfl
  | quoted hquote htrim hne hno hdouble hsingle =>
      rw [valueText_quoted hquote hne hno, htrim, if_neg (by simp [hdouble, hsingle])]
  | empty hquote hblank htail =>
      rw [strstrip_valueText_empty hquote hblank htail, if_pos]
      rcases hquote with rfl | rfl
      · exact Or.inl rfl
      · exact Or.inr rfl

end Value

/-! ### How a line is written -/

/-- What a line is for. -/
inductive Item
  | nothing
  | header (name : Bytes)
  | entry (key val : Bytes)
  deriving DecidableEq, Repr

/-- The ways to write a line. -/
inductive Means : Bytes → Item → Prop
  | blank {c : Bytes} : IsBlank c → Means c .nothing
  | comment {gap c : Bytes} : IsBlank gap → Means (gap ++ 35 :: c) .nothing
  | header {gap before name after tail : Bytes} : IsBlank gap → IsBlank before → IsBlank after →
      IsBlank tail → IsTrimmed name → name ≠ [] → 93 ∉ name →
      Means (gap ++ (91 :: (before ++ name ++ after) ++ [93]) ++ tail) (.header name)
  | entry {gap key before after r val : Bytes} : IsBlank gap → IsTrimmed key → IsKey key →
      key.head? ≠ some 35 → key.head? ≠ some 91 → IsBlank before → IsBlank after → Written val r →
      Means (gap ++ (key ++ before ++ 61 :: (after ++ r))) (.entry key val)
  /-- A line that is not understood. -/
  | error {c : Bytes} : IsPlain (strstrip c) →
      61 ∉ strstrip c ∨ (strstrip c).head? = some 61 → Means c .nothing

section Meaning

variable {α : Type} {onValue : Buffers → α → α} {c : Bytes} {i : Item} {b : Buffers} {a : α}

/-- The section that follows. -/
def Item.sectionName : Item → Bytes → Bytes
  | .header name, _ => name
  | _, sectionName => sectionName

/-- What is bound, in which section. -/
def Item.binding (sectionName : Bytes) : Item → Option (Bytes × Bytes × Bytes)
  | .entry key val => some (sectionName, key, val)
  | _ => none

theorem Means.header_line {gap before name after tail : Bytes} (hgap : IsBlank gap)
    (hbefore : IsBlank before) (hafter : IsBlank after) (htail : IsBlank tail)
    (htrim : IsTrimmed name) (hne : name ≠ []) (hno : 93 ∉ name) :
    iniparserLine (gap ++ (91 :: (before ++ name ++ after) ++ [93]) ++ tail) b =
      (.lineSection, { b with sectionName := name }) := by
  have hin : ∀ x ∈ before ++ name ++ after, x ≠ 93 := by
    intro x hx
    rw [List.mem_append, List.mem_append] at hx
    rintro rfl
    rcases hx with (hx | hx) | hx
    · exact absurd (hbefore 93 hx) (by decide)
    · exact hno hx
    · exact absurd (hafter 93 hx) (by decide)
  have hstrip : strstrip (gap ++ (91 :: (before ++ name ++ after) ++ [93]) ++ tail) =
      91 :: (before ++ name ++ after) ++ [93] := by
    refine strstrip_between ?_ hgap htail
    rw [IsTrimmed, List.cons_append, strstrip_cons (by decide), rdropWhile_append_cons (by decide)]
    rfl
  have hscan : scan isspace sectionFormat (91 :: (before ++ name ++ after) ++ [93]) =
      [before ++ name ++ after] := by
    rw [sectionFormat, List.cons_append, scan_char,
      scan_text (fun x hx => decide_eq_true (hin x hx))]
    · rfl
    · simp [hne]
    · decide
  rw [iniparserLine, hstrip]
  dsimp only
  rw [if_neg (by simp), if_neg (by simp), if_pos ⟨rfl, List.getLast?_concat⟩, hscan,
    List.headD_cons, strstrip_between htrim hbefore hafter]

theorem Means.entry_line {gap key before after r val : Bytes} (hgap : IsBlank gap)
    (htrim : IsTrimmed key) (hkey : IsKey key) (hcomment : key.head? ≠ some 35)
    (hsection : key.head? ≠ some 91) (hbefore : IsBlank before) (hafter : IsBlank after)
    (hval : Written val r) :
    iniparserLine (gap ++ (key ++ before ++ 61 :: (after ++ r))) b =
      (.lineValue, ⟨b.sectionName, key, val⟩) := by
  have hstrip : strstrip (gap ++ (key ++ before ++ 61 :: (after ++ r))) =
      key ++ before ++ 61 :: (after ++ r).rdropWhile isspace := by
    obtain ⟨x, k, rfl⟩ := List.exists_cons_of_ne_nil hkey.ne_nil
    rw [strstrip_append_left hgap, List.cons_append, List.cons_append, strstrip_cons htrim.head,
      rdropWhile_append_cons (by decide)]
    rfl
  have hk : IsKey (key ++ before) := by
    refine ⟨by simp [hkey.ne_nil], fun h => ?_⟩
    rcases List.mem_append.1 h with h | h
    · exact hkey.not_mem h
    · exact absurd (hbefore 61 h) (by decide)
  have hplain : IsPlain (key ++ before ++ 61 :: (after ++ r).rdropWhile isspace) := by
    obtain ⟨x, k, rfl⟩ := List.exists_cons_of_ne_nil hkey.ne_nil
    exact ⟨by simp, hcomment, fun h => hsection h.1⟩
  have hkeep : strstrip (key ++ before) = key := (strstrip_append_right hbefore).trans htrim
  rw [iniparserLine_value (by rwa [hstrip]) hk hstrip, hkeep, hval.valueOf hafter]

variable (onValue b a) in
/-- **What a line means is what it is written for.** -/
theorem Means.takeLine (h : Means c i) : (takeLine onValue c b a).1.sectionName =
      i.sectionName b.sectionName ∧
    (takeLine onValue c b a).2 = match i.binding b.sectionName with
      | some (sectionName, key, val) => onValue ⟨sectionName, key, val⟩ a
      | none => a := by
  cases h with
  | blank hc =>
      have hline : iniparserLine c b = (.lineEmpty, b) := by
        rw [iniparserLine, strstrip_of_isBlank hc]
        rfl
      rw [CConfigure.takeLine, hline]
      exact ⟨rfl, rfl⟩
  | @comment gap c hgap =>
      have hline : iniparserLine (gap ++ 35 :: c) b = (.lineComment, b) := by
        rw [iniparserLine, strstrip_append_left hgap, strstrip_cons (by decide)]
        rfl
      rw [CConfigure.takeLine, hline]
      exact ⟨rfl, rfl⟩
  | header hgap hbefore hafter htail htrim hne hno =>
      rw [CConfigure.takeLine, header_line hgap hbefore hafter htail htrim hne hno]
      exact ⟨rfl, rfl⟩
  | entry hgap htrim hkey hcomment hsection hbefore hafter hval =>
      rw [CConfigure.takeLine, entry_line hgap htrim hkey hcomment hsection hbefore hafter hval]
      exact ⟨rfl, rfl⟩
  | error hplain hno =>
      obtain ⟨b', hline, hsection⟩ := iniparserLine_error (b := b) hplain hno
      rw [CConfigure.takeLine, hline]
      exact ⟨hsection, rfl⟩

end Meaning

/-! ### A file -/

/-- A line of a file, and what it is for. -/
structure MeantLine where
  line : Line
  item : Item
  legal : line.Legal
  means : Means line.content item

/-- The bytes of a file. -/
def fileOf (lines : List MeantLine) : Bytes := lines.flatMap fun l => l.line.text

/-- What a file says, from a section on. -/
def bindings : Bytes → List MeantLine → List (Bytes × Bytes × Bytes)
  | _, [] => []
  | sectionName, l :: lines =>
      (l.item.binding sectionName).toList ++ bindings (l.item.sectionName sectionName) lines

section File

variable {α : Type} {before : UInt8} {onValue : Buffers → α → α} {found : α → Bool} {b : Buffers}
  {a : α} {rest : Bytes}

/-- What is done with what a file says, until something is found. -/
def consult (onValue : Buffers → α → α) (found : α → Bool) : List (Bytes × Bytes × Bytes) → α → α
  | [], a => a
  | (sectionName, key, val) :: said, a =>
      if found a then a else consult onValue found said (onValue ⟨sectionName, key, val⟩ a)

theorem consult_of_found (h : found a = true) (said : List (Bytes × Bytes × Bytes)) :
    consult onValue found said a = a := by
  cases said with
  | nil => rfl
  | cons x said => exact if_pos h

/-- **The loop does what the lines say.** -/
theorem readLines_eq_consult (hbefore : before ≠ 92) (lines : List MeantLine)
    (hrest : ∀ b ∈ rest.take (asciiLineSz - 1), b ≠ 0 ∧ b ≠ 10) {fuel : ℕ}
    (hfuel : (fileOf lines ++ rest).length < fuel) :
    readLines before onValue found fuel (fileOf lines ++ rest) [] b a =
      some (found (consult onValue found (bindings b.sectionName lines) a) || decide (rest = []),
        consult onValue found (bindings b.sectionName lines) a) := by
  induction lines generalizing fuel b a with
  | nil =>
      rw [bindings, consult]
      cases hstop : found a with
      | true =>
          obtain ⟨fuel, rfl⟩ : ∃ n, fuel = n + 1 := ⟨fuel - 1, by omega⟩
          rw [readLines, if_pos hstop]
          rfl
      | false => exact readLines_rest (by omega) hstop hrest
  | cons l lines ih =>
      cases hstop : found a with
      | true =>
          obtain ⟨fuel, rfl⟩ : ∃ n, fuel = n + 1 := ⟨fuel - 1, by omega⟩
          rw [readLines, if_pos hstop, consult_of_found hstop, hstop]
          rfl
      | false =>
          have hfile : fileOf (l :: lines) ++ rest = l.line.text ++ (fileOf lines ++ rest) := by
            rw [fileOf, List.flatMap_cons, List.append_assoc]
            rfl
          rw [hfile] at hfuel ⊢
          obtain ⟨fuel', hfuel', hread⟩ := readLines_line onValue b a l.legal hbefore hstop hfuel
          obtain ⟨hsection, htaken⟩ := l.means.takeLine onValue b a
          rw [hread, ih hfuel', hsection, htaken, bindings]
          cases l.item.binding b.sectionName with
          | none => rfl
          | some x =>
              obtain ⟨sectionName, key, val⟩ := x
              rw [Option.toList_some, List.singleton_append, consult, hstop]
              rfl

/-- `load` makes all the calls. -/
theorem consult_load (said : List (Bytes × Bytes × Bytes)) (calls : List (Bytes × Bytes)) :
    consult (fun b calls => calls ++ [(b.key, b.val)]) (fun _ => false) said calls =
      calls ++ said.map Prod.snd := by
  induction said generalizing calls with
  | nil => rw [consult, List.map_nil, List.append_nil]
  | cons x said ih =>
      rw [consult, if_neg (by simp), ih, List.map_cons, List.append_assoc, List.singleton_append]

/-- `GetStrParam` finds the first value. -/
theorem consult_getStrParam (key sectionName : Bytes) (said : List (Bytes × Bytes × Bytes)) :
    consult (fun b value => if key = b.key ∧ sectionName = b.sectionName then some b.val else value)
      Option.isSome said none =
      (said.find? fun x => decide (key = x.2.1 ∧ sectionName = x.1)).map fun x => x.2.2 := by
  induction said with
  | nil => rfl
  | cons x said ih =>
      obtain ⟨s, k, v⟩ := x
      rw [consult, if_neg (by simp), List.find?_cons]
      by_cases h : key = k ∧ sectionName = s
      · rw [if_pos h, consult_of_found rfl]
        simp [h]
      · rw [if_neg h, ih]
        simp [h]

end File

/-! ### Any file -/

/-- A key and a value that can be handed over. -/
structure Accepted (key val : Bytes) : Prop where
  isKey : IsKey key
  key_trimmed : IsTrimmed key
  val_trimmed : IsTrimmed val
  fits : key.length + val.length < asciiLineSz

section Any

variable {α : Type} {before : UInt8} {onValue : Buffers → α → α} {found : α → Bool} {b : Buffers}
  {a : α} {P : α → Prop} {kept line file file' chunk : Bytes}

theorem strstrip_sublist (s : Bytes) : (strstrip s).Sublist s :=
  (List.rdropWhile_prefix isspace _).sublist.trans (List.dropWhile_sublist isspace)

theorem isTrimmed_strstrip (s : Bytes) : IsTrimmed (strstrip s) := by
  rw [IsTrimmed, strstrip, strstrip, ← dropWhile_rdropWhile, List.rdropWhile_idempotent,
    dropWhile_rdropWhile, List.dropWhile_idempotent]

theorem quotedText_sublist {quote : UInt8} {r text : Bytes} (h : quotedText quote r = some text) :
    text.Sublist r := by
  cases r with
  | nil => exact absurd h (by simp [quotedText])
  | cons x r =>
      rw [quotedText, Option.ite_none_right_eq_some] at h
      rw [← Option.some.inj h.2]
      exact (List.takeWhile_sublist _).trans (List.sublist_cons_self x r)

theorem valueText_sublist (r : Bytes) : (valueText r).Sublist r := by
  rw [valueText]
  cases hdouble : quotedText 34 r with
  | some text => exact quotedText_sublist hdouble
  | none =>
      cases hsingle : quotedText 39 r with
      | some text => exact quotedText_sublist hsingle
      | none => exact List.takeWhile_sublist _

theorem valueOf_sublist (r : Bytes) : (valueOf r).Sublist r := by
  rw [valueOf]
  split_ifs
  · exact List.nil_sublist r
  · exact (strstrip_sublist _).trans ((valueText_sublist _).trans (List.dropWhile_sublist isspace))

theorem isTrimmed_valueOf (r : Bytes) : IsTrimmed (valueOf r) := by
  rw [valueOf]
  split_ifs
  · exact rfl
  · exact isTrimmed_strstrip _

theorem isPlain_of_lineValue (h : (iniparserLine line b).1 = .lineValue) :
    IsPlain (strstrip line) := by
  rw [iniparserLine] at h
  dsimp only at h
  split_ifs at h with hempty hcomment hsection
  exact ⟨fun hnil => hempty (by rw [hnil]; decide), hcomment, hsection⟩

/-- **What is taken for a value can be handed over.** -/
theorem accepted_of_lineValue (hfits : line.length < asciiLineSz)
    (h : (iniparserLine line b).1 = .lineValue) :
    Accepted (iniparserLine line b).2.key (iniparserLine line b).2.val := by
  have hplain := isPlain_of_lineValue h
  have herror : ¬ (61 ∉ strstrip line ∨ (strstrip line).head? = some 61) := by
    intro hno
    obtain ⟨b', hline, -⟩ := iniparserLine_error (b := b) hplain hno
    rw [hline] at h
    exact LineStatus.noConfusion h
  obtain ⟨hmem, hhead⟩ := not_or.1 herror
  obtain ⟨k, r, hline, hno⟩ := List.eq_append_cons_of_mem (not_not.1 hmem)
  cases k with
  | nil => exact absurd (by rw [hline]; rfl) hhead
  | cons x k =>
      have hx : isspace x = false := by
        have htrim := isTrimmed_strstrip line
        rw [hline] at htrim
        exact htrim.head
      have hkey : IsKey (strstrip (x :: k)) := by
        refine ⟨by simp [strstrip_cons hx], fun hin => hno ((strstrip_sublist _).subset hin)⟩
      rw [iniparserLine_value hplain ⟨List.cons_ne_nil x k, hno⟩ hline]
      refine ⟨hkey, isTrimmed_strstrip _, isTrimmed_valueOf _, ?_⟩
      have hlen := congrArg List.length hline
      have hstrip := (strstrip_sublist line).length_le
      have hkeylen := (strstrip_sublist (x :: k)).length_le
      have hvallen := (valueOf_sublist r).length_le
      simp only [List.length_append, List.length_cons] at hlen hkeylen
      dsimp only
      omega

/-- What `fgets` reads. -/
theorem fgets_some {n : ℕ} (hn : 1 < n) (h : fgets n file = some (chunk, file')) :
    chunk.length < n ∧ file'.length < file.length := by
  rw [fgets] at h
  split_ifs at h with hnil
  dsimp only at h
  obtain ⟨rfl, rfl⟩ := Prod.mk.inj (Option.some.inj h)
  have hpos := List.length_pos_of_ne_nil hnil
  have htake := List.length_take_le (n - 1) file
  rw [List.length_drop]
  split_ifs with hmem
  · obtain ⟨front, back, hsplit, hno⟩ := List.eq_append_cons_of_mem hmem
    have hfront : ((file.take (n - 1)).takeWhile fun b => decide (b ≠ 10)) = front := by
      have hpos : ∀ b ∈ front, decide (b ≠ 10) = true := fun b hb =>
        decide_eq_true fun he => hno (by rwa [← he])
      rw [hsplit, List.takeWhile_append_of_pos hpos, List.takeWhile_cons_of_neg (by simp),
        List.append_nil]
    have hlen := congrArg List.length hsplit
    rw [List.length_append, List.length_cons] at hlen
    rw [hfront, List.length_append, List.length_singleton]
    omega
  · rw [List.length_take]
    omega

/-- What is kept of a line leaves room for a backslash and a newline. -/
theorem continued_fits (hfits : line.length < asciiLineSz) (hnewline : lastOr before line = 10)
    (hne : line.rdropWhile isspace ≠ []) :
    (line.rdropWhile isspace).dropLast.length + 2 < asciiLineSz := by
  have hline : line ≠ [] := by
    rintro rfl
    exact hne rfl
  obtain ⟨front, rfl⟩ : ∃ front, line = front ++ [10] := by
    refine List.getLast?_eq_some_iff.1 ?_
    rw [lastOr, List.getLast?_eq_some_getLast hline, Option.getD_some] at hnewline
    rw [List.getLast?_eq_some_getLast hline, hnewline]
  have hstrip : (front ++ [10]).rdropWhile isspace = front.rdropWhile isspace :=
    List.rdropWhile_concat_pos _ _ 10 (by decide)
  have hle := (List.rdropWhile_prefix isspace front).length_le
  rw [hstrip] at hne ⊢
  have hpos := List.length_pos_of_ne_nil hne
  rw [List.length_append, List.length_singleton] at hfits
  rw [List.length_dropLast]
  omega

/-- **Any file can be read**, and nothing is handed over that cannot be. -/
theorem readLines_returns (hbefore : before ≠ 92)
    (hstep : ∀ b a, Accepted b.key b.val → P a → P (onValue b a)) {fuel : ℕ}
    (hfuel : file.length < fuel) (hkept : kept.length + 2 < asciiLineSz) (ha : P a) :
    ∃ ok a', readLines before onValue found fuel file kept b a = some (ok, a') ∧ P a' := by
  induction fuel generalizing file kept b a with
  | zero => omega
  | succ fuel ih =>
      rw [readLines]
      split_ifs with hstop
      · exact ⟨true, a, rfl, ha⟩
      cases hread : fgets (asciiLineSz - kept.length) file with
      | none => exact ⟨true, a, rfl, ha⟩
      | some r =>
          obtain ⟨chunk, file'⟩ := r
          obtain ⟨hchunk, hfile⟩ := fgets_some (by omega) hread
          dsimp only
          have hlen : ((kept ++ chunk).takeWhile fun b => decide (b ≠ 0)).length < asciiLineSz := by
            have hle := (List.takeWhile_sublist (fun b : UInt8 => decide (b ≠ 0))
              (l := kept ++ chunk)).length_le
            rw [List.length_append] at hle
            omega
          generalize (kept ++ chunk).takeWhile (fun b => decide (b ≠ 0)) = line at hlen
          split_ifs with hnewline hslash hnil
          · exact ⟨false, a, rfl, ha⟩
          · rw [hnil] at hslash
            exact absurd hslash hbefore
          · exact ih (by omega) (continued_fits hlen (not_not.1 hnewline) hnil) ha
          · have hstrip : (line.rdropWhile isspace).length < asciiLineSz :=
              (List.rdropWhile_prefix isspace line).length_le.trans_lt hlen
            have haccepted := accepted_of_lineValue (b := b) hstrip
            generalize iniparserLine (line.rdropWhile isspace) b = parsed at haccepted
            obtain ⟨status, b'⟩ := parsed
            have hroom : ([] : Bytes).length + 2 < asciiLineSz := by decide
            cases status
            case lineValue => exact ih (by omega) hroom (hstep b' a (haccepted rfl) ha)
            all_goals exact ih (by omega) hroom ha

end Any

section Params

variable {before : UInt8} {lines : List MeantLine} {rest key sectionName : Bytes} {fuel : ℕ}

/-- What `load` does with the lines of a file. -/
theorem load_fileOf (hbefore : before ≠ 92)
    (hrest : ∀ b ∈ rest.take (asciiLineSz - 1), b ≠ 0 ∧ b ≠ 10)
    (hfuel : (fileOf lines ++ rest).length < fuel) :
    load before fuel (some (fileOf lines ++ rest)) =
      some (decide (rest = []), (bindings [] lines).map Prod.snd) := by
  rw [load, readLines_eq_consult hbefore lines hrest hfuel, consult_load, Bool.false_or,
    List.nil_append]

/-- And `GetStrParam`. -/
theorem getStrParam_fileOf (hbefore : before ≠ 92)
    (hrest : ∀ b ∈ rest.take (asciiLineSz - 1), b ≠ 0 ∧ b ≠ 10)
    (hfuel : (fileOf lines ++ rest).length < fuel) :
    getStrParam before fuel key sectionName (some (fileOf lines ++ rest)) =
      some (((bindings [] lines).find? fun x => decide (key = x.2.1 ∧ sectionName = x.1)).elim []
        fun x => x.2.2) := by
  rw [getStrParam, readLines_eq_consult hbefore lines hrest hfuel, Option.map_some,
    consult_getStrParam]
  cases (bindings [] lines).find? fun x => decide (key = x.2.1 ∧ sectionName = x.1) with
  | none => rfl
  | some x => rfl

/-- The number in a file, where it is one and an `int` holds it. -/
theorem getIntParam_numeral (hbefore : before ≠ 92)
    (hrest : ∀ b ∈ rest.take (asciiLineSz - 1), b ≠ 0 ∧ b ≠ 10)
    (hfuel : (fileOf lines ++ rest).length < fuel) {d : Bytes} {n : ℕ}
    (hfind : ((bindings [] lines).find? fun x => decide (key = x.2.1 ∧ sectionName = x.1)) =
      some (sectionName, key, d)) (hd : Denotes d n) (hn : n < 2 ^ 31) :
    getIntParam before fuel key sectionName (some (fileOf lines ++ rest)) = some (n : ℤ) := by
  have hstrtol := STRING.strtol_of_beginsWith
    (STRING.beginsWith_numeral (show ∀ b ∈ ([] : Bytes), isspace b = true by simp) hd
      (show ∀ b ∈ ([] : Bytes).head?, ¬ IsDigit b by simp))
  have hlong : ¬ longMax < (n : ℤ) := by
    unfold longMax
    omega
  have hlow : ¬ (n : ℤ) < longMin := by
    unfold longMin
    omega
  rw [List.nil_append, List.append_nil, if_neg hlong, if_neg hlow] at hstrtol
  rw [getIntParam, getStrParam_fileOf hbefore hrest hfuel, hfind, Option.map_some, Option.elim_some,
    atoi, hstrtol]
  dsimp only
  rw [Int.bmod_eq_of_le (by omega) (by omega)]

end Params

end CConfigure

open CConfigure

/-- **What is written is found again.**  `load` hands over every value, in order, and fails only
when something is left that is not a line; `GetStrParam` returns the first value with the key, in
its section, or nothing. -/
theorem configuration_round_trip (before : UInt8) (lines : List MeantLine) (rest : Bytes) (fuel : ℕ)
    (hbefore : before ≠ 92) (hrest : ∀ b ∈ rest.take (asciiLineSz - 1), b ≠ 0 ∧ b ≠ 10)
    (hfuel : (fileOf lines ++ rest).length < fuel) :
    load before fuel (some (fileOf lines ++ rest)) =
        some (decide (rest = []), (bindings [] lines).map Prod.snd) ∧
      ∀ key sectionName, getStrParam before fuel key sectionName (some (fileOf lines ++ rest)) =
        some (((bindings [] lines).find? fun x => decide (key = x.2.1 ∧ sectionName = x.1)).elim []
          fun x => x.2.2) :=
  ⟨load_fileOf hbefore hrest hfuel, fun _ _ => getStrParam_fileOf hbefore hrest hfuel⟩

/-- A section, a comment, a value on two lines, and an unterminated rest. -/
theorem configuration_round_trip_sample :
    load 0 60 (some (ascii "[net]\n# c\nport = 80\\\n80 ;c\nx")) =
        some (false, [(ascii "port", ascii "8080")]) ∧
      getStrParam 0 60 (ascii "port") (ascii "net")
          (some (ascii "[net]\n# c\nport = 80\\\n80 ;c\nx")) =
        some (ascii "8080") := by
  have hheader : Means (ascii "[net]") (.header (ascii "net")) :=
    @Means.header [] [] (ascii "net") [] [] (by decide +kernel) (by decide +kernel)
      (by decide +kernel) (by decide +kernel) (by decide +kernel) (by decide +kernel)
      (by decide +kernel)
  have hcomment : Means (ascii "# c") .nothing :=
    @Means.comment [] (ascii " c") (by decide +kernel)
  have hval : Written (ascii "8080") (ascii "8080 ;c") :=
    @Written.plain (ascii "8080") [32] (ascii ";c") (by decide +kernel) (by decide +kernel)
      (by decide +kernel) (by decide +kernel) (by decide +kernel) (by decide +kernel)
  have hentry : Means (ascii "port = 8080 ;c") (.entry (ascii "port") (ascii "8080")) :=
    @Means.entry [] (ascii "port") [32] [32] (ascii "8080 ;c") (ascii "8080") (by decide +kernel)
      (by decide +kernel) ⟨by decide +kernel, by decide +kernel⟩ (by decide +kernel)
      (by decide +kernel) (by decide +kernel) (by decide +kernel) hval
  have hlegal : ∀ l ∈ [(⟨[], ascii "[net]"⟩ : Line), ⟨[], ascii "# c"⟩,
      ⟨[ascii "port = 80"], ascii "80 ;c"⟩], l.Legal := by
    refine List.forall_mem_cons.2 ⟨?_, List.forall_mem_cons.2 ⟨?_, List.forall_mem_singleton.2 ?_⟩⟩
    · exact ⟨by decide +kernel, by decide +kernel, by decide +kernel, by decide +kernel⟩
    · exact ⟨by decide +kernel, by decide +kernel, by decide +kernel, by decide +kernel⟩
    · exact ⟨by decide +kernel, by decide +kernel, by decide +kernel, by decide +kernel⟩
  have h := configuration_round_trip 0
    [⟨_, _, hlegal ⟨[], ascii "[net]"⟩ (by simp), hheader⟩,
      ⟨_, _, hlegal ⟨[], ascii "# c"⟩ (by simp), hcomment⟩,
      ⟨_, _, hlegal ⟨[ascii "port = 80"], ascii "80 ;c"⟩ (by simp), hentry⟩]
    (ascii "x") 60 (by decide +kernel) (by decide +kernel)
    (show (ascii "[net]\n# c\nport = 80\\\n80 ;c\nx").length < 60 by decide +kernel)
  exact ⟨h.1, h.2 (ascii "port") (ascii "net")⟩

/-- **Whatever the file is, it can be read**: nothing is written outside the array, and what is
handed over has a key, is trimmed, and is shorter than a line. -/
theorem configuration_accepted (before : UInt8) (file : Bytes) (fuel : ℕ) (hbefore : before ≠ 92)
    (hfuel : file.length < fuel) :
    ∃ ok calls, load before fuel (some file) = some (ok, calls) ∧
      ∀ call ∈ calls, Accepted call.1 call.2 := by
  refine readLines_returns hbefore ?_ hfuel (by decide) (by simp)
  intro b calls hb hcalls call hcall
  rcases List.mem_append.1 hcall with hcall | hcall
  · exact hcalls call hcall
  · rw [List.mem_singleton.1 hcall]
    exact hb

/-- A blank line, a line that is not understood, a value, and one that is continued to the end. -/
theorem configuration_accepted_sample : ∃ ok calls,
    load 0 20 (some (ascii "\n=\nk = v\nx = y\\\n")) = some (ok, calls) ∧
      (ascii "k", ascii "v") ∈ calls ∧ ∀ call ∈ calls, Accepted call.1 call.2 := by
  obtain ⟨ok, calls, hload, hall⟩ := configuration_accepted 0
    (ascii "\n=\nk = v\nx = y\\\n") 20 (by decide) (by decide)
  have hcalls : (load 0 20 (some (ascii "\n=\nk = v\nx = y\\\n"))).map Prod.snd =
      some [(ascii "k", ascii "v")] := by
    decide +kernel
  rw [hload, Option.map_some, Option.some.injEq] at hcalls
  dsimp only at hcalls
  refine ⟨ok, calls, hload, ?_, hall⟩
  rw [hcalls]
  exact List.mem_singleton_self _

end WebSocketDemo
