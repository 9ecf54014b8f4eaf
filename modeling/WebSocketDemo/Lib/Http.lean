/-
**The header section of an HTTP/1.1 message.**

A message begins with lines that each end in CRLF: a start line, then one line for each field, then
an empty line.  A field line is a name, a colon and a value, with blanks around the value that are
no part of it; names are compared without regard to case.  Nothing here depends on the program that
uses it.

Main definitions:

* `Http.lines` — lines ended by CRLF;
* `Http.Field`, `Http.Message` — a field and a header section, which carry their grammar.

Main results:

* `Http.find_blank` — **the first blank line is the end of the header section**;
* `Http.getlines_end` — the lines come back with the CR that ended them.
-/

import WebSocketDemo.Lib.ByteOrder
import WebSocketDemo.Lib.Text

set_option relaxedAutoImplicit false
set_option autoImplicit false

namespace Http

/-! ### Lines -/

/-- CR and LF. -/
def crlf : Bytes := [13, 10]

/-- Lines, each ended by CRLF. -/
def lines (ls : List Bytes) : Bytes := ls.flatMap (· ++ crlf)

/-- Something is on the line, and it does not end before its end. -/
structure IsLine (l : Bytes) : Prop where
  ne_nil : l ≠ []
  not_cr : 13 ∉ l
  not_lf : 10 ∉ l

theorem lines_cons (l : Bytes) (ls : List Bytes) : lines (l :: ls) = l ++ (crlf ++ lines ls) := by
  simp [lines]

theorem lines_append (ls ms : List Bytes) : lines (ls ++ ms) = lines ls ++ lines ms :=
  List.flatMap_append

theorem length_le_of_mem {l : Bytes} {ls : List Bytes} (h : l ∈ ls) :
    l.length ≤ (lines ls).length := by
  obtain ⟨a, b, rfl⟩ := List.append_of_mem h
  rw [lines_append, lines_cons, List.length_append, List.length_append]
  omega

/-- **The first blank line is the one behind the lines.** -/
theorem find_blank {ls : List Bytes} (h : ∀ l ∈ ls, IsLine l) (hne : ls ≠ []) (rest : Bytes) :
    Text.find (crlf ++ crlf) (lines ls ++ (crlf ++ rest)) = some ((lines ls).length - 2) := by
  induction ls with
  | nil => exact absurd rfl hne
  | cons l ls ih =>
      obtain ⟨hl, hls⟩ := List.forall_mem_cons.1 h
      have hskip (s : Bytes) : Text.find (crlf ++ crlf) (l ++ s) =
          (Text.find (crlf ++ crlf) s).map (· + l.length) := Text.find_append_of_not_mem hl.not_cr
      rw [lines_cons, List.append_assoc, hskip]
      cases ls with
      | nil =>
          have hblank : crlf ++ crlf <+: crlf ++ lines [] ++ (crlf ++ rest) :=
            ⟨rest, by simp [lines]⟩
          rw [Text.find_of_starts hblank]
          simp [lines, crlf]
      | cons m ls =>
          have ih := ih hls (by simp)
          -- the next line does not begin with CR
          obtain ⟨x, m, rfl⟩ := List.exists_cons_of_ne_nil (hls m List.mem_cons_self).ne_nil
          have hx : x ≠ 13 := fun he => (hls _ List.mem_cons_self).not_cr (by simp [he])
          have h₁ : ¬ crlf ++ crlf <+: 13 :: 10 :: (lines ((x :: m) :: ls) ++ (crlf ++ rest)) := by
            rw [lines_cons]
            simp [crlf, Ne.symm hx]
          have h₂ : ¬ crlf ++ crlf <+: 10 :: (lines ((x :: m) :: ls) ++ (crlf ++ rest)) := by
            simp [crlf]
          have hlen : 2 ≤ (lines ((x :: m) :: ls)).length := by
            rw [lines_cons]
            simp [crlf]
            omega
          have hstart : crlf ++ lines ((x :: m) :: ls) ++ (crlf ++ rest) =
              13 :: 10 :: (lines ((x :: m) :: ls) ++ (crlf ++ rest)) := by simp [crlf]
          rw [hstart, Text.find_cons_of_not_starts h₁, Text.find_cons_of_not_starts h₂, ih]
          simp [crlf]
          omega

/-- A text that stands on none of the lines does not occur in them, not even across the end. -/
theorem not_infix_lines {pat : Bytes} {ls : List Bytes} (hne : pat ≠ []) (hcr : 13 ∉ pat)
    (hlf : 10 ∉ pat) (h : ∀ l ∈ ls, ¬ pat <:+: l) : ¬ pat <:+: lines ls ++ pat.dropLast := by
  have hpos : 0 < pat.length := List.length_pos_of_ne_nil hne
  induction ls with
  | nil =>
      intro hin
      have hlen := hin.length_le
      simp only [lines, List.flatMap_nil, List.nil_append, List.length_dropLast] at hlen
      omega
  | cons l ls ih =>
      obtain ⟨hl, hls⟩ := List.forall_mem_cons.1 h
      intro hin
      have hsplit : lines (l :: ls) ++ pat.dropLast = l ++
          13 :: ([] ++ 10 :: (lines ls ++ pat.dropLast)) := by
        rw [lines_cons]
        simp [crlf]
      rw [hsplit] at hin
      rcases Text.infix_append_cons hcr hin with hin | hin
      · exact hl hin
      · rcases Text.infix_append_cons hlf hin with hnil | hin
        · exact hne (List.infix_nil.1 hnil)
        · exact ih hls hin

/-- The lines come back with the CR that ended them. -/
theorem getlines_lines {ls : List Bytes} (h : ∀ l ∈ ls, 10 ∉ l) :
    Text.getlines 10 (lines ls) = ls.map (· ++ [13]) := by
  induction ls with
  | nil => rfl
  | cons l ls ih =>
      obtain ⟨hl, hls⟩ := List.forall_mem_cons.1 h
      have hlf : (10 : UInt8) ∉ l ++ [13] := by simp [hl]
      have hsplit : lines (l :: ls) = (l ++ [13]) ++ 10 :: lines ls := by
        rw [lines_cons]
        simp [crlf]
      rw [hsplit, Text.getlines_append_delim hlf, ih hls, List.map_cons]

/-! ### Lines and a blank line -/

/-- The blank line is found at the end. -/
theorem find_end {ls : List Bytes} (h : ∀ l ∈ ls, IsLine l) (hne : ls ≠ []) (rest : Bytes) :
    Text.find (crlf ++ crlf) (lines ls ++ crlf ++ rest) = some ((lines ls ++ crlf).length - 4) := by
  rw [List.append_assoc, find_blank h hne, List.length_append]
  rfl

theorem four_le_length_end {ls : List Bytes} (hne : ls ≠ []) : 4 ≤ (lines ls ++ crlf).length := by
  obtain ⟨l, ls, rfl⟩ := List.exists_cons_of_ne_nil hne
  rw [lines_cons]
  simp [crlf]
  omega

theorem getlines_end {ls : List Bytes} (h : ∀ l ∈ ls, IsLine l) :
    Text.getlines 10 (lines ls ++ crlf) = ls.map (· ++ [13]) ++ [[13]] := by
  have hblank : lines ls ++ crlf = lines (ls ++ [[]]) := by
    rw [lines_append]
    rfl
  have hlf : ∀ l ∈ ls ++ [[]], (10 : UInt8) ∉ l := by
    intro l hl
    rcases List.mem_append.1 hl with hl | hl
    · exact (h l hl).not_lf
    · rw [List.mem_singleton.1 hl]
      exact List.not_mem_nil
  rw [hblank, getlines_lines hlf, List.map_append, List.map_singleton, List.nil_append]

/-! ### Fields -/

/-- A character of a name: visible, and no delimiter. -/
def isTchar (b : UInt8) : Bool :=
  decide (33 ≤ b) && decide (b ≤ 126) &&
    !([34, 40, 41, 44, 47, 58, 59, 60, 61, 62, 63, 64, 91, 92, 93, 123, 125] : Bytes).contains b

/-- A space or a tab. -/
def isBlank (b : UInt8) : Bool := decide (b = 32) || decide (b = 9)

/-- A character of a value: anything but the control characters other than the tab. -/
def isText (b : UInt8) : Bool := decide (b = 9) || decide (32 ≤ b) && decide (b ≠ 127)

/-- Lower case. -/
def lower (b : UInt8) : UInt8 := if 65 ≤ b ∧ b ≤ 90 then b + 32 else b

/-- **A field**: the blanks `before` and `after` surround the value. -/
structure Field where
  name : Bytes
  before : Bytes
  value : Bytes
  after : Bytes
  name_ne : name ≠ []
  name_tchar : ∀ b ∈ name, isTchar b = true
  before_blank : ∀ b ∈ before, isBlank b = true
  value_text : ∀ b ∈ value, isText b = true
  value_head : ∀ b ∈ value.head?, isBlank b = false
  value_last : ∀ b ∈ value.getLast?, isBlank b = false
  after_blank : ∀ b ∈ after, isBlank b = true

namespace Field

variable (f : Field)

/-- What is behind the colon. -/
def content : Bytes := f.before ++ (f.value ++ f.after)

/-- The line of a field. -/
def line : Bytes := f.name ++ 58 :: f.content

/-- Whether a field has a name, in whatever case. -/
def isNamed (name : Bytes) : Bool := decide (f.name.map lower = name.map lower)

theorem isText_of_mem_content {b : UInt8} (h : b ∈ f.content) : isText b = true := by
  have hblank {b : UInt8} (hb : isBlank b = true) : isText b = true := by
    rw [isBlank, Bool.or_eq_true, decide_eq_true_iff, decide_eq_true_iff] at hb
    rcases hb with rfl | rfl <;> decide
  rw [content, List.mem_append, List.mem_append] at h
  rcases h with h | h | h
  · exact hblank (f.before_blank b h)
  · exact f.value_text b h
  · exact hblank (f.after_blank b h)

theorem not_mem_name {b : UInt8} (h : isTchar b = false) : b ∉ f.name := by
  intro hm
  rw [f.name_tchar b hm] at h
  cases h

theorem not_mem_content {b : UInt8} (h : isText b = false) : b ∉ f.content := by
  intro hm
  rw [f.isText_of_mem_content hm] at h
  cases h

theorem not_mem_line {b : UInt8} (h₁ : isTchar b = false) (h₂ : isText b = false) (h₃ : b ≠ 58) :
    b ∉ f.line := by
  rw [line, List.mem_append, List.mem_cons]
  rintro (h | h | h)
  · exact f.not_mem_name h₁ h
  · exact h₃ h
  · exact f.not_mem_content h₂ h

theorem isLine_line : IsLine f.line where
  ne_nil := by simp [line]
  not_cr := f.not_mem_line (by decide) (by decide) (by decide)
  not_lf := f.not_mem_line (by decide) (by decide) (by decide)

end Field

/-! ### Messages -/

/-- A header section. -/
structure Message where
  startLine : Bytes
  fields : List Field
  startLine_ne : startLine ≠ []
  startLine_text : ∀ b ∈ startLine, isText b = true

namespace Message

variable (m : Message)

/-- The lines that are not blank. -/
def contentLines : List Bytes := m.startLine :: m.fields.map Field.line

/-- The bytes of a header section. -/
def encode : Bytes := lines m.contentLines ++ crlf

theorem isLine_of_mem {l : Bytes} (h : l ∈ m.contentLines) : IsLine l := by
  rcases List.mem_cons.1 h with rfl | h
  · have hnot {b : UInt8} (hb : isText b = false) : b ∉ m.startLine := by
      intro hm
      rw [m.startLine_text b hm] at hb
      cases hb
    exact ⟨m.startLine_ne, hnot (by decide), hnot (by decide)⟩
  · obtain ⟨f, _, rfl⟩ := List.mem_map.1 h
    exact f.isLine_line

/-- **The first blank line ends the header section.** -/
theorem find_blank (rest : Bytes) :
    Text.find (crlf ++ crlf) (m.encode ++ rest) = some (m.encode.length - 4) :=
  find_end (fun _ => m.isLine_of_mem) (List.cons_ne_nil _ _) rest

/-- A header section is longer than the blank line. -/
theorem four_le_length : 4 ≤ m.encode.length := four_le_length_end (List.cons_ne_nil _ _)

theorem length_line_le {f : Field} (h : f ∈ m.fields) : f.line.length ≤ m.encode.length := by
  have hmem : f.line ∈ m.contentLines := List.mem_cons_of_mem _ (List.mem_map_of_mem h)
  rw [encode, List.length_append]
  exact (length_le_of_mem hmem).trans (Nat.le_add_right _ _)

theorem getlines_encode : Text.getlines 10 m.encode =
    (m.startLine ++ [13]) :: ((m.fields.map fun f => f.line ++ [13]) ++ [[13]]) := by
  rw [encode, getlines_end fun _ => m.isLine_of_mem, contentLines, List.map_cons, List.map_map]
  rfl

end Message

end Http
