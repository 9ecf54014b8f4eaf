/-
**Configuration files** (`Configure.cpp`).

A file is read line by line into a buffer of 1025 bytes.  A line that ends in a backslash is
continued by the next one; white space at its end is cut off.  What a line means is found out with
`sscanf`: a section, a key and its value, which may stand in quotes and be followed by a comment, or
an error, in which case the line is passed over.  A line that is not terminated, or too long for the
buffer, ends the reading.

The byte in front of the buffer is looked at when a line is blank; it is a parameter.  The two
copies of the loop, in `load` and in `GetStrParam`, are one definition here; it is given fuel, of
which one more than there are bytes is enough.

Main definitions:

* `CConfigure.iniparserLine` — what a line means;
* `CConfigure.readLines`, `CConfigure.load`, `CConfigure.getStrParam` — the loop, and its two
  copies;
* `CConfigure.quotedText`, `CConfigure.valueOf` — the value behind an equals sign, as one function.

Main results:

* `CConfigure.strstrip_between` — what is left between white space;
* `CConfigure.iniparserLine_value`, `CConfigure.iniparserLine_error` — **what a line with an equals
  sign means, and one without**.
-/

import WebSocketDemo.Lib.Scanf
import WebSocketDemo.StringCommon
import Mathlib.Data.List.DropRight

set_option relaxedAutoImplicit false
set_option autoImplicit false

namespace WebSocketDemo

open Scanf

namespace CConfigure

/-- `ASCIILINESZ`. -/
def asciiLineSz : ℕ := 1024

/-- `line_status`. -/
inductive LineStatus
  | lineUnprocessed
  | lineError
  | lineEmpty
  | lineComment
  | lineSection
  | lineValue
  deriving DecidableEq, Repr

/-- The arrays `section`, `key` and `val`. -/
structure Buffers where
  sectionName : Bytes
  key : Bytes
  val : Bytes
  deriving DecidableEq, Repr

/-! ### What a line means -/

/-- `strstrip`. -/
def strstrip (s : Bytes) : Bytes := (s.dropWhile isspace).rdropWhile isspace

/-- `"[%[^]]"`. -/
def sectionFormat : List (Directive UInt8) := [.char 91, .text fun b => decide (b ≠ 93)]

/-- `"%[^=] = \"%[^\"]\""` and `"%[^=] = '%[^\']'"`. -/
def quotedFormat (quote : UInt8) : List (Directive UInt8) :=
  [.text fun b => decide (b ≠ 61), .space, .char 61, .space, .char quote,
    .text fun b => decide (b ≠ quote), .char quote]

/-- `[^;#]`. -/
def uncommented (b : UInt8) : Bool := decide (b ≠ 59) && decide (b ≠ 35)

/-- `"%[^=] = %[^;#]"`. -/
def plainFormat : List (Directive UInt8) :=
  [.text fun b => decide (b ≠ 61), .space, .char 61, .space,
    .text uncommented]

/-- `"%[^=] = %[;#]"`. -/
def commentedFormat : List (Directive UInt8) :=
  [.text fun b => decide (b ≠ 61), .space, .char 61, .space,
    .text fun b => decide (b = 59) || decide (b = 35)]

/-- `"%[^=] %[=]"`. -/
def bareFormat : List (Directive UInt8) :=
  [.text fun b => decide (b ≠ 61), .space, .text fun b => decide (b = 61)]

/-- What `sscanf` stores in `key` and `value`. -/
def Buffers.assign (b : Buffers) : List Bytes → Buffers
  | [] => b
  | [key] => { b with key := key }
  | key :: val :: _ => { b with key := key, val := val }

/-- Formats are tried one after the other, until one of them stores two texts. -/
def sscanfAny (line : Bytes) : List (List (Directive UInt8)) → Buffers → Bool × Buffers
  | [], b => (false, b)
  | format :: formats, b =>
      let texts := scan isspace format line
      if texts.length = 2 then (true, b.assign texts) else sscanfAny line formats (b.assign texts)

/-- `iniparser_line`. -/
def iniparserLine (inputLine : Bytes) (b : Buffers) : LineStatus × Buffers :=
  let line := strstrip inputLine
  if line.length < 1 then (.lineEmpty, b)
  else if line.head? = some 35 then (.lineComment, b)
  else if line.head? = some 91 ∧ line.getLast? = some 93 then
    let sectionName := (scan isspace sectionFormat line).headD b.sectionName
    (.lineSection, { b with sectionName := strstrip sectionName })
  else
    match sscanfAny line [quotedFormat 34, quotedFormat 39, plainFormat] b with
    | (true, b) =>
        let val := strstrip b.val
        let val := if val = [34, 34] ∨ val = [39, 39] then [] else val
        (.lineValue, { b with key := strstrip b.key, val := val })
    | (false, b) =>
        match sscanfAny line [commentedFormat, bareFormat] b with
        | (true, b) => (.lineValue, { b with key := strstrip b.key, val := [] })
        | (false, b) => (.lineError, b)

/-! ### Reading a file -/

/-- `fgets(line, n, in)`: what is read, and what is left of the file; `none` at its end. -/
def fgets (n : ℕ) (file : Bytes) : Option (Bytes × Bytes) :=
  if file = [] then none
  else
    let front := file.take (n - 1)
    let chunk := if 10 ∈ front then front.takeWhile (fun b => decide (b ≠ 10)) ++ [10] else front
    some (chunk, file.drop chunk.length)

/-- The last byte of `line`, or, if there is none, the byte `before` the array. -/
def lastOr (before : UInt8) (line : Bytes) : UInt8 := line.getLast?.getD before

/-- The loop of `load` and of `GetStrParam`.  `kept` is what is kept of the lines that were
continued, `onValue` is done with each value, and the loop stops when something is `found`.  The
result is whether the whole file could be read, or `none`: outside the array something is written,
or the fuel does not last. -/
def readLines {α : Type} (before : UInt8) (onValue : Buffers → α → α) (found : α → Bool) :
    ℕ → Bytes → Bytes → Buffers → α → Option (Bool × α)
  | 0, _, _, _, _ => none
  | fuel + 1, file, kept, b, a =>
      if found a then some (true, a)
      else
        match fgets (asciiLineSz - kept.length) file with
        | none => some (true, a)
        | some (chunk, file) =>
            let line := (kept ++ chunk).takeWhile fun b => decide (b ≠ 0)
            if lastOr before line ≠ 10 then some (false, a)
            else
              let line := line.rdropWhile isspace
              if lastOr before line = 92 then
                if line = [] then none
                else readLines before onValue found fuel file line.dropLast b a
              else
                match iniparserLine line b with
                | (.lineValue, b) => readLines before onValue found fuel file [] b (onValue b a)
                | (_, b) => readLines before onValue found fuel file [] b a

/-- `load`: what it returns, and the calls of `parse_value`; `file` is `none` if it cannot be
opened. -/
def load (before : UInt8) (fuel : ℕ) (file : Option Bytes) : Option (Bool × List (Bytes × Bytes)) :=
  match file with
  | none => some (false, [])
  | some file =>
      readLines before (fun b calls => calls ++ [(b.key, b.val)]) (fun _ => false) fuel file []
        ⟨[], [], []⟩ []

/-- `GetStrParam`. -/
def getStrParam (before : UInt8) (fuel : ℕ) (astrKey astrSection : Bytes) (file : Option Bytes) :
    Option Bytes :=
  match file with
  | none => some []
  | some file =>
      (readLines before
        (fun b lstrValue =>
          if astrKey = b.key ∧ astrSection = b.sectionName then some b.val else lstrValue)
        Option.isSome fuel file [] ⟨[], [], []⟩ none).map fun r => r.2.getD []

/-- `GetIntParam`. -/
def getIntParam (before : UInt8) (fuel : ℕ) (astrKey astrSection : Bytes) (file : Option Bytes) :
    Option ℤ :=
  (getStrParam before fuel astrKey astrSection file).map atoi

/-! ### Trimmed texts -/

section Trim

variable {p : UInt8 → Bool} {x : UInt8} {l m s t : Bytes}

/-- What is cut off behind a character that stays. -/
theorem rdropWhile_append_cons (hx : p x = false) :
    (l ++ x :: m).rdropWhile p = l ++ x :: m.rdropWhile p := by
  induction m using List.reverseRecOn with
  | nil => rw [List.rdropWhile_nil, List.rdropWhile_concat_neg _ _ x (by simp [hx])]
  | append_singleton m y ih =>
      have hsplit : l ++ x :: (m ++ [y]) = (l ++ x :: m) ++ [y] := by simp
      rw [hsplit, List.rdropWhile_concat, List.rdropWhile_concat, ih]
      split_ifs
      · rfl
      · exact hsplit.symm

/-- What is cut off with all of it. -/
theorem rdropWhile_append_of_pos (hm : ∀ b ∈ m, p b = true) :
    (t ++ m).rdropWhile p = t.rdropWhile p := by
  induction m using List.reverseRecOn with
  | nil => rw [List.append_nil]
  | append_singleton m y ih =>
      rw [← List.append_assoc, List.rdropWhile_concat_pos _ _ y (hm y (by simp))]
      exact ih fun b hb => hm b (List.mem_append_left _ hb)

/-- It does not matter which end is cut off first. -/
theorem dropWhile_rdropWhile : (s.rdropWhile p).dropWhile p = (s.dropWhile p).rdropWhile p := by
  induction s using List.reverseRecOn with
  | nil => rfl
  | append_singleton s y ih =>
      rw [List.dropWhile_append]
      by_cases hy : p y = true
      · rw [List.rdropWhile_concat_pos _ _ y hy, ih]
        by_cases hs : s.dropWhile p = []
        · rw [hs, List.isEmpty_nil, if_pos rfl, List.dropWhile_cons_of_pos hy]
          rfl
        · rw [if_neg (by simpa using hs), List.rdropWhile_concat_pos _ _ y hy]
      · rw [List.rdropWhile_concat_neg _ _ y hy, List.dropWhile_append]
        by_cases hs : s.dropWhile p = []
        · rw [hs, List.isEmpty_nil, if_pos rfl, List.dropWhile_cons_of_neg hy,
            List.rdropWhile_singleton, if_neg hy]
        · rw [if_neg (by simpa using hs), List.rdropWhile_concat_neg _ _ y hy]

/-- White space. -/
def IsBlank (s : Bytes) : Prop := ∀ b ∈ s, isspace b = true

/-- A text with no white space at its ends. -/
def IsTrimmed (s : Bytes) : Prop := strstrip s = s

instance (s : Bytes) : Decidable (IsBlank s) :=
  inferInstanceAs (Decidable (∀ b ∈ s, isspace b = true))

instance (s : Bytes) : Decidable (IsTrimmed s) := inferInstanceAs (Decidable (strstrip s = s))

theorem strstrip_append_left (hl : IsBlank l) : strstrip (l ++ s) = strstrip s := by
  rw [strstrip, List.dropWhile_append_of_pos hl, strstrip]

theorem strstrip_append_right (hm : IsBlank m) : strstrip (s ++ m) = strstrip s := by
  rw [strstrip, ← dropWhile_rdropWhile, rdropWhile_append_of_pos hm, dropWhile_rdropWhile, strstrip]

theorem strstrip_rdropWhile : strstrip (s.rdropWhile isspace) = strstrip s := by
  rw [strstrip, dropWhile_rdropWhile, List.rdropWhile_idempotent, strstrip]

theorem strstrip_of_isBlank (h : IsBlank s) : strstrip s = [] := by
  rw [strstrip, List.dropWhile_eq_nil_iff.2 h, List.rdropWhile_nil]

/-- **It is what is left between white space.** -/
theorem strstrip_between (h : IsTrimmed t) (hl : IsBlank l) (hm : IsBlank m) :
    strstrip (l ++ t ++ m) = t := by
  rw [strstrip_append_right hm, strstrip_append_left hl, h]

/-- Behind a first character that stays, only the end is cut off. -/
theorem strstrip_cons (hx : isspace x = false) : strstrip (x :: s) = x :: s.rdropWhile isspace := by
  rw [strstrip, List.dropWhile_cons_of_neg (by simp [hx])]
  exact rdropWhile_append_cons (l := []) hx

/-- And what is trimmed begins with one. -/
theorem IsTrimmed.head (h : IsTrimmed (x :: s)) : isspace x = false := by
  by_contra hx
  have hlen := congrArg List.length h
  rw [strstrip, List.dropWhile_cons_of_pos (by simpa using hx), List.length_cons] at hlen
  have hle := (List.rdropWhile_prefix isspace (s.dropWhile isspace)).length_le
  have hle' := (List.dropWhile_suffix isspace (l := s)).length_le
  omega

end Trim

/-! ### Lines with an equals sign, and without -/

/-- The text between quotes at the front. -/
def quotedText (quote : UInt8) : Bytes → Option Bytes
  | [] => none
  | x :: t =>
      let text := t.takeWhile fun b => decide (b ≠ quote)
      if x = quote ∧ text ≠ [] then some text else none

/-- The value at the front: in quotes, or up to a comment. -/
def valueText (q : Bytes) : Bytes :=
  ((quotedText 34 q).or (quotedText 39 q)).getD (q.takeWhile uncommented)

/-- The value behind an equals sign. -/
def valueOf (r : Bytes) : Bytes :=
  let val := strstrip (valueText (r.dropWhile isspace))
  if val = [34, 34] ∨ val = [39, 39] then [] else val

section Lines

variable {line k r : Bytes} {b : Buffers}

/-- A text with an equals sign behind it. -/
structure IsKey (k : Bytes) : Prop where
  ne_nil : k ≠ []
  not_mem : 61 ∉ k

theorem scan_key (hk : IsKey k) (f : List (Directive UInt8)) :
    scan isspace (.text (fun b => decide (b ≠ 61)) :: f) (k ++ 61 :: r) =
      k :: scan isspace f (61 :: r) :=
  scan_text (fun b hb => decide_eq_true fun he => hk.not_mem (by rwa [← he])) hk.ne_nil (by simp)

/-- The same with an equals sign in the format. -/
theorem scan_equals (hk : IsKey k) (f : List (Directive UInt8)) :
    scan isspace (.text (fun b => decide (b ≠ 61)) :: .space :: .char 61 :: .space :: f)
      (k ++ 61 :: r) = k :: scan isspace f (r.dropWhile isspace) := by
  rw [scan_key hk, scan_space_of_neg (by decide), scan_char, scan_space]

theorem scan_quotedFormat (quote : UInt8) (hk : IsKey k) :
    scan isspace (quotedFormat quote) (k ++ 61 :: r) =
    k :: (quotedText quote (r.dropWhile isspace)).toList := by
  rw [quotedFormat, scan_equals hk]
  cases hq : r.dropWhile isspace with
  | nil => rfl
  | cons x t =>
      by_cases hx : x = quote
      · subst hx
        rw [scan_char, quotedText]
        by_cases ht : t.takeWhile (fun b => decide (b ≠ x)) = []
        · rw [scan_text_eq_nil ht, if_neg fun h => h.2 ht]
          rfl
        · rw [if_pos ⟨rfl, ht⟩, Scanf.scan, if_neg ht]
          cases t.dropWhile fun b => decide (b ≠ x) with
          | nil => rfl
          | cons y t =>
              by_cases hy : y = x
              · rw [hy, scan_char]
                rfl
              · rw [scan_char_of_ne hy]
                rfl
      · rw [scan_char_of_ne hx, quotedText, if_neg fun h => hx h.1]
        rfl

theorem scan_plainFormat (hk : IsKey k) : scan isspace plainFormat (k ++ 61 :: r) =
    k :: if (r.dropWhile isspace).takeWhile uncommented = [] then []
      else [(r.dropWhile isspace).takeWhile uncommented] := by
  rw [plainFormat, scan_equals hk, scan_last]

/-- Two texts are stored. -/
theorem sscanfAny_two {formats : List (List (Directive UInt8))} {f : List (Directive UInt8)}
    {v : Bytes} (h : scan isspace f line = [k, v]) : sscanfAny line (f :: formats) b =
      (true, { b with key := k, val := v }) := by
  rw [sscanfAny, h]
  rfl

/-- Only the key is. -/
theorem sscanfAny_one {formats : List (List (Directive UInt8))} {f : List (Directive UInt8)}
    (h : scan isspace f line = [k]) : sscanfAny line (f :: formats) b =
      sscanfAny line formats { b with key := k } := by
  rw [sscanfAny, h]
  rfl

/-- Neither is anything else. -/
theorem sscanfAny_none {formats : List (List (Directive UInt8))}
    (h : ∀ f ∈ formats, (scan isspace f line).length < 2) :
    ∃ b', sscanfAny line formats b = (false, b') ∧ b'.sectionName = b.sectionName := by
  induction formats generalizing b with
  | nil => exact ⟨b, rfl, rfl⟩
  | cons f formats ih =>
      obtain ⟨hf, hformats⟩ := List.forall_mem_cons.1 h
      obtain ⟨b', hb', hsection⟩ := ih (b := b.assign (scan isspace f line)) hformats
      refine ⟨b', ?_, hsection.trans ?_⟩
      · rw [sscanfAny, if_neg (by omega), hb']
      · rcases hs : scan isspace f line with _ | ⟨k, _ | ⟨v, rest⟩⟩ <;> rfl

/-- Nothing stands in front of a comment, or at all. -/
theorem sscanfAny_rest (hk : IsKey k)
    (hv : (r.dropWhile isspace).takeWhile uncommented = []) :
    (match sscanfAny (k ++ 61 :: r) [commentedFormat, bareFormat] { b with key := k } with
      | (true, b) => (LineStatus.lineValue, { b with key := strstrip b.key, val := [] })
      | (false, b) => (LineStatus.lineError, b)) =
        (.lineValue, ⟨b.sectionName, strstrip k, []⟩) := by
  cases hq : r.dropWhile isspace with
  | nil =>
      have h₄ : scan isspace commentedFormat (k ++ 61 :: r) = [k] := by
        rw [commentedFormat, scan_equals hk, hq]
        rfl
      have h₅ : scan isspace bareFormat (k ++ 61 :: r) =
          [k, (61 :: r).takeWhile fun b => decide (b = 61)] := by
        rw [bareFormat, scan_key hk, scan_space_of_neg (by decide), scan_last, if_neg (by simp)]
      rw [sscanfAny_one h₄, sscanfAny_two h₅]
  | cons x t =>
      have hx : (decide (x = 59) || decide (x = 35)) = true := by
        rw [hq, List.takeWhile_cons] at hv
        by_cases h59 : x = 59
        · simp [h59]
        · by_cases h35 : x = 35
          · simp [h35]
          · simp [uncommented, h59, h35] at hv
      have hne : (x :: t).takeWhile (fun b => decide (b = 59) || decide (b = 35)) ≠ [] := by
        rw [List.takeWhile_cons, hx]
        exact List.cons_ne_nil _ _
      have h₄ : scan isspace commentedFormat (k ++ 61 :: r) =
          [k, (x :: t).takeWhile fun b => decide (b = 59) || decide (b = 35)] := by
        rw [commentedFormat, scan_equals hk, hq, scan_last, if_neg hne]
      rw [sscanfAny_two h₄]

/-- The line is taken for a section. -/
def IsSection (line : Bytes) : Prop := line.head? = some 91 ∧ line.getLast? = some 93

instance (line : Bytes) : Decidable (IsSection line) :=
  inferInstanceAs (Decidable (line.head? = some 91 ∧ line.getLast? = some 93))

/-- The line is neither empty nor a comment nor a section. -/
structure IsPlain (line : Bytes) : Prop where
  ne_nil : line ≠ []
  comment : line.head? ≠ some 35
  not_section : ¬ IsSection line

theorem iniparserLine_of_isPlain (h : IsPlain (strstrip line)) : iniparserLine line b =
    match sscanfAny (strstrip line) [quotedFormat 34, quotedFormat 39, plainFormat] b with
    | (true, b) =>
        let val := strstrip b.val
        let val := if val = [34, 34] ∨ val = [39, 39] then [] else val
        (.lineValue, { b with key := strstrip b.key, val := val })
    | (false, b) =>
        match sscanfAny (strstrip line) [commentedFormat, bareFormat] b with
        | (true, b) => (.lineValue, { b with key := strstrip b.key, val := [] })
        | (false, b) => (.lineError, b) := by
  have hlen : ¬ (strstrip line).length < 1 := by
    have hpos := List.length_pos_of_ne_nil h.ne_nil
    omega
  have hsection : ¬ ((strstrip line).head? = some 91 ∧ (strstrip line).getLast? = some 93) :=
    h.not_section
  rw [iniparserLine, if_neg hlen, if_neg h.comment, if_neg hsection]

/-- **What a line with an equals sign means.** -/
theorem iniparserLine_value (h : IsPlain (strstrip line)) (hk : IsKey k)
    (hline : strstrip line = k ++ 61 :: r) :
    iniparserLine line b = (.lineValue, ⟨b.sectionName, strstrip k, valueOf r⟩) := by
  rw [iniparserLine_of_isPlain h, hline]
  have h₁ := scan_quotedFormat 34 hk (r := r)
  have h₂ := scan_quotedFormat 39 hk (r := r)
  have h₃ := scan_plainFormat (r := r) hk
  rw [valueOf, valueText]
  cases hdouble : quotedText 34 (r.dropWhile isspace) with
  | some v =>
      rw [hdouble] at h₁
      rw [sscanfAny_two h₁]
      rfl
  | none =>
      rw [hdouble] at h₁
      cases hsingle : quotedText 39 (r.dropWhile isspace) with
      | some v =>
          rw [hsingle] at h₂
          rw [sscanfAny_one h₁, sscanfAny_two h₂]
          rfl
      | none =>
          rw [hsingle] at h₂
          rw [sscanfAny_one h₁, sscanfAny_one h₂, Option.or_none, Option.getD_none]
          by_cases hv : (r.dropWhile isspace).takeWhile uncommented = []
          · rw [if_pos hv] at h₃
            rw [sscanfAny_one h₃, hv]
            exact sscanfAny_rest hk hv
          · rw [if_neg hv] at h₃
            rw [sscanfAny_two h₃]

/-- **And one without, or with nothing in front of it.** -/
theorem iniparserLine_error (h : IsPlain (strstrip line))
    (hno : 61 ∉ strstrip line ∨ (strstrip line).head? = some 61) :
    ∃ b', iniparserLine line b = (.lineError, b') ∧ b'.sectionName = b.sectionName := by
  have hstored (f : List (Directive UInt8)) (hf : scan isspace f [] = []) :
      (scan isspace (.text (fun b => decide (b ≠ 61)) :: f) (strstrip line)).length < 2 := by
    rcases hno with hno | hno
    · have htake : (strstrip line).takeWhile (fun b => decide (b ≠ 61)) = strstrip line :=
        List.takeWhile_eq_self_iff.2 fun b hb => decide_eq_true fun he => hno (by rwa [← he])
      have hdrop : (strstrip line).dropWhile (fun b => decide (b ≠ 61)) = [] :=
        List.dropWhile_eq_nil_iff.2 fun b hb => decide_eq_true fun he => hno (by rwa [← he])
      rw [scan, htake, hdrop, if_neg h.ne_nil, hf]
      exact Nat.one_lt_two
    · rw [scan_text_eq_nil]
      · exact Nat.two_pos
      · cases hs : strstrip line with
        | nil => rfl
        | cons x t =>
            rw [hs, List.head?_cons, Option.some.injEq] at hno
            rw [hno, List.takeWhile_cons_of_neg (by simp)]
  have hquoted (quote : UInt8) : (scan isspace (quotedFormat quote) (strstrip line)).length < 2 :=
    hstored _ rfl
  have hplain : (scan isspace plainFormat (strstrip line)).length < 2 := hstored _ rfl
  have hcommented : (scan isspace commentedFormat (strstrip line)).length < 2 := hstored _ rfl
  have hbare : (scan isspace bareFormat (strstrip line)).length < 2 := hstored _ rfl
  obtain ⟨b₁, h₁, hb₁⟩ := sscanfAny_none (b := b) (List.forall_mem_cons.2
    ⟨hquoted 34, List.forall_mem_cons.2 ⟨hquoted 39, List.forall_mem_singleton.2 hplain⟩⟩)
  obtain ⟨b₂, h₂, hb₂⟩ := sscanfAny_none (b := b₁)
    (List.forall_mem_cons.2 ⟨hcommented, List.forall_mem_singleton.2 hbare⟩)
  refine ⟨b₂, ?_, hb₂.trans hb₁⟩
  rw [iniparserLine_of_isPlain h, h₁]
  dsimp only
  rw [h₂]

end Lines

end CConfigure

end WebSocketDemo
