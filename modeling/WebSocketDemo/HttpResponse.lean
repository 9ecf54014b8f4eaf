/-
**Which bytes of a response are its body** (`getHttpData`).

The header section of a response ends at its first blank line, and a field `Content-Length` in it
says how long the body is.  `getHttpData` looks for the text `Content-Length:` in the whole
response, before it knows where the header section ends, and takes the number behind the first place
where it occurs: in another field, in its name or its value, or in the body.

Main definitions:

* `HttpResponse` — a response by its lines and its body;
* `HttpResponse.Declares` — a header line declares a length;
* `HttpResponse.FieldFirst` — the text occurs first as the name of a field that declares one;
* `HttpResponse.Asks` — what is written where the text occurs first;
* `HttpResponse.Extracted` — the body is extracted by the header lines alone.

Main results:

* `getHttpData_eq` — **as many bytes as the first occurrence asks for**;
* `asks_of_fieldFirst` — the first occurrence on the line of the field itself;
* `extracted_iff` — **when the body is extracted by the header lines**: the text occurs nowhere, or
  first on the line of the field itself, or what is written elsewhere happens to be the same.
-/

import WebSocketDemo.HttpClient
import WebSocketDemo.Lib.Http

set_option relaxedAutoImplicit false
set_option autoImplicit false

namespace WebSocketDemo

open CHttpclient Http

/-- **A response**: a status line, header lines, and a body behind a blank line. -/
structure HttpResponse where
  statusLine : Bytes
  headerLines : List Bytes
  body : Bytes
  isLine_statusLine : IsLine statusLine
  isLine_headerLines : ∀ l ∈ headerLines, IsLine l

namespace HttpResponse

/-- The lines of the header section. -/
def head (r : HttpResponse) : Bytes := lines (r.statusLine :: r.headerLines)

/-- The response on the wire. -/
def bytes (r : HttpResponse) : Bytes := r.head ++ (crlf ++ r.body)

/-- A header line declares that the body has `n` bytes: its name is one that is `named`
`Content-Length`, and its value, blanks around it aside, is a numeral for `n`. -/
def Declares (named : Bytes → Prop) (r : HttpResponse) (n : ℕ) : Prop :=
  n < 2 ^ 31 ∧ ∃ name before d after, name ++ 58 :: (before ++ d ++ after) ∈ r.headerLines ∧
    named name ∧ (∀ b ∈ before, isBlank b = true) ∧ (∀ b ∈ after, isBlank b = true) ∧
    Decimal.Denotes d n

/-- The first line with the text `Content-Length:` on it is that of a field that declares `n`. -/
def FieldFirst (r : HttpResponse) (n : ℕ) : Prop :=
  n < 2 ^ 31 ∧ ∃ pre post before d after,
    r.headerLines = pre ++ (contentLength ++ (before ++ d ++ after)) :: post ∧
    (∀ l ∈ r.statusLine :: pre, ¬ contentLength <:+: l) ∧ (∀ b ∈ before, isBlank b = true) ∧
    (∀ b ∈ after, isBlank b = true) ∧ Decimal.Denotes d n

/-- **What is written where the text `Content-Length:` occurs first**: the value that what stands
between it and the next CRLF shows to an `int32_t`, taken as a size; more than the body has where no
CRLF follows it, and all the body has where the text does not occur. -/
inductive Asks (r : HttpResponse) : ℕ → Prop
  | all (hnot : ¬ contentLength <:+: r.bytes) : Asks r r.body.length
  | unended (p q : Bytes) (hsplit : r.bytes = p ++ (contentLength ++ q))
      (hfirst : ¬ contentLength <:+: p ++ contentLength.dropLast) (hend : ¬ crlf <:+: q) :
      Asks r (r.body.length + 1)
  | number (p num s : Bytes) (v : ℤ)
      (hsplit : r.bytes = p ++ (contentLength ++ (num ++ (crlf ++ s))))
      (hfirst : ¬ contentLength <:+: p ++ contentLength.dropLast)
      (hend : ¬ crlf <:+: num ++ crlf.dropLast)
      (hshows : STRING.Shows (-2 ^ 31) (2 ^ 31 - 1) num v) : Asks r (sizeOfInt v)

/-- `m` is as good as each length the header lines declare: it is the same, or both are more than
the body has.  Where they declare none, it is the length of the body. -/
structure Agrees (named : Bytes → Prop) (r : HttpResponse) (m : ℕ) : Prop where
  declared : ∀ n, r.Declares named n → m = n ∨ r.body.length < m ∧ r.body.length < n
  undeclared : (∀ n, ¬ r.Declares named n) → m = r.body.length

/-- **The body is extracted by the header lines alone**: when they declare a length, exactly the
responses with as many bytes are taken, and these bytes come out; when they do not, all of the body
does. -/
structure Extracted (named : Bytes → Prop) (r : HttpResponse) : Prop where
  declared : ∀ n, r.Declares named n → ∀ httpData,
    ((getHttpData r.bytes httpData).1 = true ↔ n ≤ r.body.length) ∧
      (n ≤ r.body.length → (getHttpData r.bytes httpData).2 = r.body.take n)
  undeclared : (∀ n, ¬ r.Declares named n) → ∀ httpData,
    getHttpData r.bytes httpData = (true, r.body)

variable {r : HttpResponse}

/-! ### The blank line -/

theorem find_head (r : HttpResponse) :
    Text.find (ascii "\r\n\r\n") r.bytes = some (r.head.length - 2) ∧ 2 ≤ r.head.length := by
  constructor
  · exact find_blank (List.forall_mem_cons.2 ⟨r.isLine_statusLine, r.isLine_headerLines⟩)
      (List.cons_ne_nil _ _) r.body
  · rw [head, lines_cons, List.length_append, List.length_append]
    have hlen : crlf.length = 2 := rfl
    omega

/-- What is behind the blank line. -/
theorem drop_head (r : HttpResponse) : r.bytes.drop (r.head.length - 2 + 4) = r.body := by
  obtain ⟨_, h2⟩ := r.find_head
  have hlen : r.head.length - 2 + 4 = (r.head ++ crlf).length := by
    rw [List.length_append]
    have hlen : crlf.length = 2 := rfl
    omega
  rw [bytes, hlen, ← List.append_assoc, List.drop_left]

theorem size_body (r : HttpResponse) :
    sizeSub (sizeSub r.bytes.length (r.head.length - 2)) 4 = r.body.length := by
  obtain ⟨_, h2⟩ := r.find_head
  have hlen : r.bytes.length = r.head.length + 2 + r.body.length := by
    rw [bytes, List.length_append, List.length_append, Nat.add_assoc]
    rfl
  unfold sizeSub
  split_ifs <;> omega

/-! ### What is extracted -/

/-- The CRLF is looked for from inside the text, which has none in it. -/
theorem findFrom_text {b p q : Bytes} (hsplit : b = p ++ (contentLength ++ q)) :
    Text.findFrom (ascii "\r\n") b (p.length + 1) =
      (Text.find crlf q).map (· + (p.length + contentLength.length)) := by
  have htext : contentLength = 67 :: contentLength.tail := rfl
  have hb : b = (p ++ [67]) ++ (contentLength.tail ++ q) := by
    rw [hsplit, htext]
    simp
  have hlen : p.length + 1 = (p ++ [67]).length := by simp
  have htail : Text.find crlf (contentLength.tail ++ q) =
      (Text.find crlf q).map (· + contentLength.tail.length) :=
    Text.find_append_of_not_mem (by decide)
  have h14 : contentLength.tail.length = 14 := by decide
  have h15 : contentLength.length = 15 := by decide
  rw [hb, hlen, Text.findFrom_append]
  refine (congrArg (Option.map _) htail).trans ?_
  rw [Option.map_map, ← hlen, h14, h15]
  refine congrArg (Option.map · _) (funext fun i => ?_)
  change i + 14 + (p.length + 1) = i + (p.length + 15)
  omega

/-- The text between the first occurrence and the CRLF. -/
theorem lenStr_eq {b p num s : Bytes} (hsplit : b = p ++ (contentLength ++ (num ++ (crlf ++ s)))) :
    (b.drop (p.length + contentLength.length)).take
      (sizeSub (sizeSub (num.length + (p.length + contentLength.length)) p.length)
        contentLength.length) = num := by
  have hdrop : b.drop (p.length + contentLength.length) = num ++ (crlf ++ s) := by
    rw [hsplit, ← List.drop_drop, List.drop_left, List.drop_left]
  have hsize : sizeSub (sizeSub (num.length + (p.length + contentLength.length)) p.length)
      contentLength.length = num.length := by
    unfold sizeSub
    split_ifs <;> omega
  rw [hdrop, hsize, List.take_left]

/-- **As many bytes are taken as the first occurrence asks for.** -/
theorem getHttpData_eq {m : ℕ} (h : r.Asks m) (httpData : Bytes) : getHttpData r.bytes httpData =
    if m ≤ r.body.length then (true, r.body.take m) else (false, httpData) := by
  have hblank := r.find_head.1
  cases h with
  | all hnot =>
      rw [getHttpData, Text.find_eq_none_iff.2 hnot]
      dsimp only
      rw [hblank, if_pos (Nat.le_refl _), List.take_length]
      dsimp only
      rw [r.drop_head]
  | unended p q hsplit hfirst hend =>
      have hfind : Text.find contentLength r.bytes = some p.length := by
        rw [hsplit]
        exact Text.find_append_of_not_infix hfirst q
      rw [getHttpData, hfind]
      dsimp only
      rw [findFrom_text hsplit, Text.find_eq_none_iff.2 hend, if_neg (by omega)]
      rfl
  | number p num s v hsplit hfirst hend hshows =>
      have hfind : Text.find contentLength r.bytes = some p.length := by
        rw [hsplit]
        exact Text.find_append_of_not_infix hfirst _
      have hread : (STRING.fromStringInt32 num).1 = v :=
        STRING.fromStringBetween_of_shows (by decide) (by decide) hshows
      rw [getHttpData, hfind]
      dsimp only
      rw [findFrom_text hsplit, Text.find_append_of_not_infix hend, Option.map_some]
      dsimp only
      rw [lenStr_eq hsplit, hread, hblank]
      dsimp only
      rw [r.size_body, r.drop_head]

/-- The first occurrence asks for something. -/
theorem exists_asks (r : HttpResponse) : ∃ m, r.Asks m := by
  by_cases hin : contentLength <:+: r.bytes
  · obtain ⟨p, q, hsplit, hfirst⟩ := Text.exists_first (by decide) hin
    by_cases hcrlf : crlf <:+: q
    · obtain ⟨num, s, rfl, hend⟩ := Text.exists_first (by decide) hcrlf
      obtain ⟨v, hshows⟩ := STRING.exists_shows (-2 ^ 31) (2 ^ 31 - 1) num
      exact ⟨_, .number p num s v hsplit hfirst hend hshows⟩
    · exact ⟨_, .unended p q hsplit hfirst hcrlf⟩
  · exact ⟨_, .all hin⟩

/-- The right bytes are extracted when the number the first occurrence asks for agrees with the
lengths declared. -/
theorem extracted_iff_of_asks {named : Bytes → Prop} {m : ℕ} (hm : r.Asks m) :
    r.Extracted named ↔ r.Agrees named m := by
  constructor
  · intro he
    have heq := getHttpData_eq hm []
    refine ⟨fun n hn => ?_, fun hno => ?_⟩
    · obtain ⟨htrue, htake⟩ := he.declared n hn []
      rw [heq] at htrue htake
      by_cases hle : m ≤ r.body.length
      · simp only [if_pos hle, true_iff] at htrue htake
        have hlen := congrArg List.length (htake htrue)
        rw [List.length_take, List.length_take] at hlen
        omega
      · simp only [if_neg hle, Bool.false_eq_true, false_iff] at htrue
        omega
    · have hall := he.undeclared hno []
      rw [heq] at hall
      split_ifs at hall with hle
      · have hlen := congrArg List.length (Prod.mk.inj hall).2
        rw [List.length_take] at hlen
        omega
      · cases (Prod.mk.inj hall).1
  · rintro ⟨hdeclared, hundeclared⟩
    refine ⟨fun n hn httpData => ?_, fun hno httpData => ?_⟩
    · rw [getHttpData_eq hm]
      rcases hdeclared n hn with rfl | ⟨hm', hn'⟩
      · split_ifs with hle
        · simp [hle]
        · simp [hle]
      · rw [if_neg (by omega)]
        refine ⟨?_, fun hle => absurd hle (by omega)⟩
        simp only [Bool.false_eq_true, false_iff]
        omega
    · rw [getHttpData_eq hm, hundeclared hno, if_pos (Nat.le_refl _), List.take_length]

/-! ### The line of the field itself -/

theorem isspace_of_isBlank {b : UInt8} (h : isBlank b = true) :
    isspace b = true ∧ ¬ Decimal.IsDigit b := by
  have hb : b = 32 ∨ b = 9 := by simpa [isBlank] using h
  rcases hb with rfl | rfl
  · exact ⟨by decide, by decide⟩
  · exact ⟨by decide, by decide⟩

/-- The number in the value of a field. -/
theorem shows_value {before d after : Bytes} {n : ℕ} (hbefore : ∀ b ∈ before, isBlank b = true)
    (hafter : ∀ b ∈ after, isBlank b = true) (hd : Decimal.Denotes d n) (hn : n < 2 ^ 31) :
    STRING.Shows (-2 ^ 31) (2 ^ 31 - 1) (before ++ d ++ after) n := by
  have hbegins := STRING.beginsWith_numeral (fun b hb => (isspace_of_isBlank (hbefore b hb)).1) hd
    (fun b hb => (isspace_of_isBlank (hafter b (List.mem_of_mem_head? hb))).2)
  exact Or.inl ⟨hbegins, by omega, by omega⟩

/-- **Where the first line with the text on it is the line of the field, the length it declares is
asked for.** -/
theorem asks_of_fieldFirst {n : ℕ} (h : r.FieldFirst n) : r.Asks n := by
  obtain ⟨hn, pre, post, before, d, after, hlines, hpre, hbefore, hafter, hd⟩ := h
  have hsplit : r.bytes = lines (r.statusLine :: pre) ++ (contentLength ++
      ((before ++ d ++ after) ++ (crlf ++ (lines post ++ (crlf ++ r.body))))) := by
    rw [bytes, head, hlines, ← List.cons_append, lines_append, lines_cons (_ ++ (_ ++ _))]
    simp only [List.append_assoc]
  have hline : IsLine (contentLength ++ (before ++ d ++ after)) :=
    r.isLine_headerLines _ (by rw [hlines]; simp)
  have hend : ¬ crlf <:+: (before ++ d ++ after) ++ crlf.dropLast := by
    intro hin
    have hmem : 10 ∈ (before ++ d ++ after) ++ crlf.dropLast := hin.subset (by decide)
    rcases List.mem_append.1 hmem with hm | hm
    · exact hline.not_lf (List.mem_append_right _ hm)
    · revert hm
      decide
  exact Asks.number (lines (r.statusLine :: pre)) (before ++ d ++ after) _ n hsplit
    (not_infix_lines (by decide) (by decide) (by decide) hpre) hend
    (shows_value hbefore hafter hd hn)

/-- **When the body is extracted by the header lines alone.**  Either the text `Content-Length:`
occurs nowhere in the response, and no header line declares another length than the body has; or it
occurs first as the name of a field that declares a length, and no other line declares another,
unless both are more than the body has; or it occurs first elsewhere, and what is written there
happens to agree with the lengths declared. -/
theorem extracted_iff (named : Bytes → Prop) (r : HttpResponse) : r.Extracted named ↔
    (¬ contentLength <:+: r.bytes ∧ ∀ n, r.Declares named n → n = r.body.length) ∨
      (∃ n, r.FieldFirst n ∧ r.Agrees named n) ∨
      (contentLength <:+: r.bytes ∧ (∀ n, ¬ r.FieldFirst n) ∧ ∃ m, r.Asks m ∧
        r.Agrees named m) := by
  constructor
  · intro he
    by_cases hin : contentLength <:+: r.bytes
    · right
      by_cases hfield : ∃ n, r.FieldFirst n
      · obtain ⟨n, hn⟩ := hfield
        exact Or.inl ⟨n, hn, (extracted_iff_of_asks (asks_of_fieldFirst hn)).1 he⟩
      · obtain ⟨m, hm⟩ := r.exists_asks
        exact Or.inr ⟨hin, fun n hn => hfield ⟨n, hn⟩, m, hm, (extracted_iff_of_asks hm).1 he⟩
    · have hagrees := (extracted_iff_of_asks (.all hin)).1 he
      refine Or.inl ⟨hin, fun n hn => ?_⟩
      rcases hagrees.declared n hn with heq | ⟨hlt, _⟩
      · exact heq.symm
      · exact absurd hlt (Nat.lt_irrefl _)
  · rintro (⟨hnot, hall⟩ | ⟨n, hn, hagrees⟩ | ⟨_, _, m, hm, hagrees⟩)
    · exact (extracted_iff_of_asks (.all hnot)).2
        ⟨fun n hn => Or.inl (hall n hn).symm, fun _ => rfl⟩
    · exact (extracted_iff_of_asks (asks_of_fieldFirst hn)).2 hagrees
    · exact (extracted_iff_of_asks hm).2 hagrees

end HttpResponse

/-- The names that are `Content-Length`, in whichever case. -/
def isContentLength (name : Bytes) : Prop := name.map lower = ascii "content-length"

/-- A response with another field whose name ends in the same way. -/
def otherField : HttpResponse where
  statusLine := ascii "HTTP/1.0 200 OK"
  headerLines := [ascii "X-Content-Length: 1", ascii "Content-Length: 3"]
  body := ascii "abc"
  isLine_statusLine := ⟨by decide, by decide, by decide⟩
  isLine_headerLines := by
    intro l hl
    rcases List.mem_cons.1 hl with rfl | hl
    · exact ⟨by decide, by decide, by decide⟩
    · rw [List.mem_singleton.1 hl]
      exact ⟨by decide, by decide, by decide⟩

/-- **The number behind the first occurrence is taken**, although it belongs to another field. -/
theorem other_field_taken :
    getHttpData otherField.bytes [] = (true, ascii "a") ∧ otherField.Declares isContentLength 3 ∧
      ¬ otherField.Extracted isContentLength := by
  have hdata : getHttpData otherField.bytes [] = (true, ascii "a") := by decide +kernel
  have hdeclares : otherField.Declares isContentLength 3 := by
    have hline : ascii "Content-Length" ++ 58 :: (ascii " " ++ ascii "3" ++ []) ∈
        otherField.headerLines := List.mem_cons_of_mem _ (List.mem_singleton.2 rfl)
    have hname : isContentLength (ascii "Content-Length") := rfl
    have hblank : ∀ b ∈ ascii " ", isBlank b = true := List.forall_mem_singleton.2 rfl
    have hthree : Decimal.Denotes (ascii "3") 3 := by decide
    exact ⟨by decide, _, _, _, _, hline, hname, hblank, List.forall_mem_nil _, hthree⟩
  refine ⟨hdata, hdeclares, fun he => ?_⟩
  have htake := (he.declared 3 hdeclares []).2 (by decide)
  rw [hdata] at htake
  revert htake
  decide

end WebSocketDemo
