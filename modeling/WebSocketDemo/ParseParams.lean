/-
**Parameter strings** (`CHttpclient::ParseParams`).

A string of parameters is cut at the separators, and each piece binds a name to a value.  The code
that binds the last piece is a copy of the code in the loop in which the first `=` is looked for and
not the separator the caller has given; as many characters as that separator has are skipped from
there on, and `substr` throws where there are not that many.

`URL_PARAMS` is a finite map; the loop is given fuel, of which the length of the string is enough.

Main definitions:

* `CHttpclient.parseLoop`, `CHttpclient.parseParams` — `ParseParams`;
* `CHttpclient.updated` — the map updated by every piece;
* `CHttpclient.SameEnd` — the last piece is bound like the others.

Main results:

* `CHttpclient.parseLoop_splits` — **the loop binds the pieces in front of the last**;
* `CHttpclient.endWith_iff` — what becomes of the last;
* `parseParams_iff` — **when the last one is treated like them**.
-/

import WebSocketDemo.HttpClient
import Mathlib.Data.List.Basic

set_option relaxedAutoImplicit false
set_option autoImplicit false

namespace WebSocketDemo

/-- `URL_PARAMS`. -/
abbrev UrlParams := Std.ExtTreeMap Bytes Bytes

namespace CHttpclient

/-- `lstrParamName` and `lstrParamValue`, where `pat` is looked for, or `none` where `substr`
throws. -/
def paramBinding (pat astrParamValueSep lstrParam : Bytes) : Option (Bytes × Bytes) :=
  match Text.find pat lstrParam with
  | none => some (lstrParam, [])
  | some lValuePos =>
      (Text.substr lstrParam (lValuePos + astrParamValueSep.length) lstrParam.length).map
        fun lstrParamValue => (lstrParam.take lValuePos, lstrParamValue)

/-- The loop of `ParseParams`: the map, and `lStartPos`, or `none` where `substr` throws. -/
def parseLoop (astrParams astrParamsSep astrParamValueSep : Bytes) :
    ℕ → UrlParams → ℕ → Option ℕ → Option (UrlParams × Option ℕ)
  | _, amapParams, lStartPos, none => some (amapParams, some lStartPos)
  | 0, _, _, some _ => none
  | fuel + 1, amapParams, lStartPos, some lPos =>
      let lstrParam := (astrParams.drop lStartPos).take (lPos - lStartPos)
      match paramBinding astrParamValueSep astrParamValueSep lstrParam with
      | none => some (amapParams, none)
      | some (lstrParamName, lstrParamValue) =>
          let lStartPos := lPos + astrParamsSep.length
          parseLoop astrParams astrParamsSep astrParamValueSep fuel
            (amapParams.insert lstrParamName lstrParamValue) lStartPos
            (Text.findFrom astrParamsSep astrParams lStartPos)

/-- How `ParseParams` ends: it returns, or throws `std::out_of_range`; with the map as it is then.
-/
inductive ParseOutcome
  | returned (ret : Bool) (amapParams : UrlParams)
  | outOfRange (amapParams : UrlParams)

/-- `ParseParams`; `none` when the fuel does not last. -/
def parseParams (fuel : ℕ) (astrParams : Bytes) (amapParams : UrlParams)
    (astrParamsSep astrParamValueSep : Bytes) : Option ParseOutcome :=
  match parseLoop astrParams astrParamsSep astrParamValueSep fuel amapParams 0
    (Text.find astrParamsSep astrParams) with
  | none => none
  | some (amapParams, none) => some (.outOfRange amapParams)
  | some (amapParams, some lStartPos) =>
      if lStartPos < astrParams.length then
        match paramBinding (ascii "=") astrParamValueSep (astrParams.drop lStartPos) with
        | none => some (.outOfRange amapParams)
        | some (lstrParamName, lstrParamValue) =>
            let amapParams := amapParams.insert lstrParamName lstrParamValue
            some (.returned (!amapParams.isEmpty) amapParams)
      else some (.returned (!amapParams.isEmpty) amapParams)

/-! ### What is meant -/

/-- The text in front of a position, and what stands `skip` characters behind it; without a position
the whole text, and nothing. -/
def cutAt (skip : ℕ) (seg : Bytes) : Option ℕ → Bytes × Bytes
  | none => (seg, [])
  | some i => (seg.take i, seg.drop (i + skip))

/-- A piece binds the text before its first separator to the text after it, or, if it has none, the
whole of it to the empty string. -/
def binding (valueSep seg : Bytes) : Bytes × Bytes :=
  cutAt valueSep.length seg (Text.find valueSep seg)

/-- The map with the binding of a piece. -/
def bindPiece (valueSep : Bytes) (m : UrlParams) (seg : Bytes) : UrlParams :=
  m.insert (binding valueSep seg).1 (binding valueSep seg).2

/-- **The map updated by every piece**, from left to right, but not by an empty one at the end. -/
def updated (valueSep : Bytes) (m : UrlParams) (segs : List Bytes) (last : Bytes) : UrlParams :=
  let m := segs.foldl (bindPiece valueSep) m
  if last = [] then m else bindPiece valueSep m last

/-- A binding the map has already. -/
def Holds (m : UrlParams) (b : Bytes × Bytes) : Prop := m[b.1]? = some b.2

/-- The last piece is bound like the others: it is empty, or its first `=` and its first separator
are in the same place, or it has neither, or the map has both the binding that is meant and the one
that is read off at the `=`, if nothing is thrown there. -/
def SameEnd (valueSep : Bytes) (m : UrlParams) (last : Bytes) : Prop :=
  last = [] ∨ Text.find (ascii "=") last = Text.find valueSep last ∨
    ((∀ i ∈ Text.find (ascii "=") last, i + valueSep.length ≤ last.length) ∧
      Holds m (cutAt valueSep.length last (Text.find (ascii "=") last)) ∧
      Holds m (binding valueSep last))

variable {sep valueSep pat s seg last front params : Bytes} {segs : List Bytes} {m : UrlParams}
  {fuel : ℕ}

/-! ### One piece -/

/-- A piece is cut where the text is found, when as many characters follow as are skipped. -/
theorem paramBinding_of_le (h : ∀ i ∈ Text.find pat seg, i + valueSep.length ≤ seg.length) :
    paramBinding pat valueSep seg = some (cutAt valueSep.length seg (Text.find pat seg)) := by
  unfold paramBinding
  cases hf : Text.find pat seg with
  | none => rfl
  | some i =>
      have hle := h i hf
      have hlen : (seg.drop (i + valueSep.length)).length ≤ seg.length := by
        rw [List.length_drop]
        omega
      dsimp only
      rw [Text.substr, if_neg (by omega), Option.map_some, List.take_of_length_le hlen]
      rfl

/-- Else `substr` throws. -/
theorem paramBinding_eq_none (h : ¬ ∀ i ∈ Text.find pat seg, i + valueSep.length ≤ seg.length) :
    paramBinding pat valueSep seg = none := by
  unfold paramBinding
  cases hf : Text.find pat seg with
  | none =>
      rw [hf] at h
      exact absurd (fun i hi => nomatch hi) h
  | some i =>
      have hlt : seg.length < i + valueSep.length := by
        by_contra hle
        refine h fun j hj => ?_
        obtain rfl := Option.some.inj (hf.symm.trans hj)
        exact Nat.le_of_not_lt hle
      dsimp only
      rw [Text.substr, if_pos hlt, Option.map_none]

/-- Where the separator is looked for, nothing is thrown. -/
theorem paramBinding_self (valueSep seg : Bytes) :
    paramBinding valueSep valueSep seg = some (binding valueSep seg) :=
  paramBinding_of_le fun _ hi => Text.add_length_le_of_find hi

/-- The name ends at the position. -/
theorem length_name (skip : ℕ) {a : Option ℕ} (h : ∀ i ∈ a, i < seg.length) :
    (cutAt skip seg a).1.length = a.getD seg.length := by
  cases a with
  | none => rfl
  | some i =>
      have hi := h i rfl
      rw [cutAt, List.length_take, Nat.min_eq_left (Nat.le_of_lt hi), Option.getD_some]

/-- At two positions, two names are read off. -/
theorem name_ne {skip : ℕ} {a b : Option ℕ} (ha : ∀ i ∈ a, i < seg.length)
    (hb : ∀ i ∈ b, i < seg.length) (hne : a ≠ b) : (cutAt skip seg a).1 ≠ (cutAt skip seg b).1 := by
  intro he
  have hlen := congrArg List.length he
  rw [length_name skip ha, length_name skip hb] at hlen
  cases a with
  | none =>
      cases b with
      | none => exact hne rfl
      | some j => exact Nat.ne_of_gt (hb j rfl) hlen
  | some i =>
      cases b with
      | none => exact Nat.ne_of_lt (ha i rfl) hlen
      | some j => exact hne (congrArg some hlen)

/-- A text that is not empty is found in front of the end. -/
theorem lt_length_of_find (hpat : pat ≠ []) : ∀ i ∈ Text.find pat seg, i < seg.length := by
  intro i hi
  have hpos := List.length_pos_of_ne_nil hpat
  have hle := Text.add_length_le_of_find hi
  omega

/-! ### The loop -/

/-- **The loop binds the pieces in front of the last one**, and ends where that begins. -/
theorem parseLoop_splits (h : Text.Splits sep s segs last) (front : Bytes) (m : UrlParams)
    (hfuel : s.length < fuel) : parseLoop (front ++ s) sep valueSep fuel m front.length
      ((Text.find sep s).map (· + front.length)) =
        some (segs.foldl (bindPiece valueSep) m,
          some (front.length + (s.length - last.length))) := by
  induction h generalizing front m fuel with
  | last h =>
      rw [Text.find_eq_none_iff.2 h, Nat.sub_self]
      cases fuel <;> rfl
  | @cons seg s last segs h hs ih =>
      obtain ⟨fuel, rfl⟩ : ∃ f, fuel = f + 1 := ⟨fuel - 1, by omega⟩
      have hsep : 0 < sep.length := by
        refine List.length_pos_of_ne_nil ?_
        rintro rfl
        exact h List.nil_infix
      have hseg : ((front ++ (seg ++ (sep ++ s))).drop front.length).take
          (seg.length + front.length - front.length) = seg := by
        rw [List.drop_left, Nat.add_sub_cancel, List.take_left]
      have hsplit : front ++ (seg ++ (sep ++ s)) = (front ++ seg ++ sep) ++ s := by
        simp only [List.append_assoc]
      have hstart : seg.length + front.length + sep.length = (front ++ seg ++ sep).length := by
        simp only [List.length_append]
        omega
      have hlast : last.length ≤ s.length := by
        obtain ⟨rest, rfl⟩ := hs.append_last
        rw [List.length_append]
        omega
      rw [Text.find_append_of_not_infix h, Option.map_some, parseLoop]
      dsimp only
      rw [hseg, paramBinding_self]
      dsimp only
      rw [hstart, hsplit, Text.findFrom_append]
      simp only [List.length_append] at hfuel
      have hrest : s.length < fuel := by omega
      refine (ih (front ++ seg ++ sep) (bindPiece valueSep m seg) hrest).trans ?_
      rw [List.foldl_cons]
      simp only [List.length_append]
      congr 3
      omega

/-! ### The last piece -/

/-- Bindings of two names come to the same when both are there already. -/
theorem insert_eq_insert_iff {b b' : Bytes × Bytes} (h : b.1 ≠ b'.1) :
    m.insert b.1 b.2 = m.insert b'.1 b'.2 ↔ Holds m b ∧ Holds m b' := by
  obtain ⟨name, value⟩ := b
  obtain ⟨name', value'⟩ := b'
  dsimp only [Holds] at h ⊢
  constructor
  · intro he
    constructor
    · have hget : (m.insert name value)[name]? = (m.insert name' value')[name]? := by rw [he]
      rw [Std.ExtTreeMap.getElem?_insert_self, Std.ExtTreeMap.getElem?_insert] at hget
      simpa [Std.LawfulEqCmp.compare_eq_iff_eq, h.symm] using hget.symm
    · have hget : (m.insert name value)[name']? = (m.insert name' value')[name']? := by rw [he]
      rw [Std.ExtTreeMap.getElem?_insert_self, Std.ExtTreeMap.getElem?_insert] at hget
      simpa [Std.LawfulEqCmp.compare_eq_iff_eq, h] using hget
  · rintro ⟨hname, hname'⟩
    have hsame {k v : Bytes} (hk : m[k]? = some v) : m.insert k v = m := by
      refine Std.ExtTreeMap.ext_getElem? fun k' => ?_
      rw [Std.ExtTreeMap.getElem?_insert]
      by_cases hk' : k = k'
      · subst hk'
        simp [hk]
      · simp [Std.LawfulEqCmp.compare_eq_iff_eq, hk']
    rw [hsame hname, hsame hname']

/-- How `ParseParams` ends when the last piece is left. -/
def endWith (valueSep : Bytes) (m : UrlParams) (last : Bytes) : ParseOutcome :=
  if last = [] then .returned (!m.isEmpty) m
  else
    match paramBinding (ascii "=") valueSep last with
    | none => .outOfRange m
    | some (name, value) => .returned (!(m.insert name value).isEmpty) (m.insert name value)

/-- **What `ParseParams` comes to**, with fuel above the length of the string. -/
theorem parseParams_splits (h : Text.Splits sep params segs last) (m : UrlParams)
    (hfuel : params.length < fuel) : parseParams fuel params m sep valueSep =
      some (endWith valueSep (segs.foldl (bindPiece valueSep) m) last) := by
  obtain ⟨front, hfront⟩ := h.append_last
  have hstart : params.length - last.length = front.length := by
    rw [hfront, List.length_append, Nat.add_sub_cancel]
  have hloop : parseLoop params sep valueSep fuel m 0 (Text.find sep params) =
      some (segs.foldl (bindPiece valueSep) m, some front.length) := by
    have hrun : parseLoop ([] ++ params) sep valueSep fuel m ([] : Bytes).length
        ((Text.find sep params).map (· + ([] : Bytes).length)) = _ :=
      parseLoop_splits h [] m hfuel
    simpa [hstart] using hrun
  have hlast : params.drop front.length = last := by rw [hfront, List.drop_left]
  rw [parseParams, hloop, endWith]
  dsimp only
  by_cases hnil : last = []
  · have hlen : ¬ front.length < params.length := by
      rw [hfront, hnil, List.append_nil]
      exact Nat.lt_irrefl _
    rw [if_neg hlen, if_pos hnil]
  · have hlen : front.length < params.length := by
      have hpos := List.length_pos_of_ne_nil hnil
      rw [hfront, List.length_append]
      omega
    rw [if_pos hlen, if_neg hnil, hlast]
    cases paramBinding (ascii "=") valueSep last <;> rfl

/-- **When the last piece is bound as it is meant.** -/
theorem endWith_iff (hvalue : valueSep ≠ []) :
    (∃ ret, endWith valueSep (segs.foldl (bindPiece valueSep) m) last =
      .returned ret (updated valueSep m segs last)) ↔
      SameEnd valueSep (segs.foldl (bindPiece valueSep) m) last := by
  unfold updated
  generalize segs.foldl (bindPiece valueSep) m = m₁
  dsimp only
  by_cases hnil : last = []
  · rw [endWith, if_pos hnil, if_pos hnil]
    exact iff_of_true ⟨_, rfl⟩ (Or.inl hnil)
  rw [endWith, if_neg hnil, if_neg hnil]
  by_cases hfits : ∀ i ∈ Text.find (ascii "=") last, i + valueSep.length ≤ last.length
  · rw [paramBinding_of_le hfits]
    dsimp only
    by_cases hfind : Text.find (ascii "=") last = Text.find valueSep last
    · rw [hfind]
      exact iff_of_true ⟨_, rfl⟩ (Or.inr (Or.inl hfind))
    · have hne : (cutAt valueSep.length last (Text.find (ascii "=") last)).1 ≠
          (binding valueSep last).1 :=
        name_ne (lt_length_of_find (by decide)) (lt_length_of_find hvalue) hfind
      constructor
      · rintro ⟨ret, he⟩
        injection he with _ he
        exact Or.inr (Or.inr ⟨hfits, (insert_eq_insert_iff hne).1 he⟩)
      · rintro (h | h | ⟨_, h⟩)
        · exact absurd h hnil
        · exact absurd h hfind
        · exact ⟨_, congrArg _ ((insert_eq_insert_iff hne).2 h)⟩
  · -- an exception
    rw [paramBinding_eq_none hfits]
    refine iff_of_false (fun ⟨ret, he⟩ => nomatch he) ?_
    rintro (h | h | ⟨h, _⟩)
    · exact hnil h
    · refine hfits fun i hi => ?_
      rw [h] at hi
      exact Text.add_length_le_of_find hi
    · exact hfits h

end CHttpclient

open CHttpclient

/-- **When `ParseParams` equals splitting.**  It returns or throws, whatever the string, the map and
the separators, as long as these are not empty.  It returns with the map updated by every piece
exactly when the last piece is bound like the others. -/
theorem parseParams_iff (params : Bytes) (m : UrlParams) {sep valueSep : Bytes} (hsep : sep ≠ [])
    (hvalue : valueSep ≠ []) : ∃ segs last, Text.Splits sep params segs last ∧ ∃ out,
      (∀ fuel, params.length < fuel → parseParams fuel params m sep valueSep = some out) ∧
      ((∃ ret, out = .returned ret (updated valueSep m segs last)) ↔
        SameEnd valueSep (segs.foldl (bindPiece valueSep) m) last) := by
  obtain ⟨segs, last, hsplits⟩ := Text.exists_splits hsep params
  exact ⟨segs, last, hsplits, _, fun fuel hfuel => parseParams_splits hsplits m hfuel,
    endWith_iff hvalue⟩

/-- With the default separators the last piece is treated like the others. -/
theorem parseParams_iff_default : ∃ segs last, Text.Splits (ascii "&") (ascii "a=1&b") segs last ∧
    ∃ ret, parseParams 6 (ascii "a=1&b") ∅ (ascii "&") (ascii "=") =
      some (.returned ret (updated (ascii "=") ∅ segs last)) := by
  obtain ⟨segs, last, hsplits, out, hout, hiff⟩ :=
    parseParams_iff (ascii "a=1&b") ∅ (show ascii "&" ≠ [] by decide)
      (show ascii "=" ≠ [] by decide)
  obtain ⟨ret, rfl⟩ := hiff.2 (Or.inr (Or.inl rfl))
  exact ⟨segs, last, hsplits, ret, hout 6 (by decide)⟩

/-- **The last piece is not cut at the separator of the caller**: `a:1` is bound as a whole, and
where there are too few characters behind a `=`, `substr` throws. -/
theorem last_piece_cut_at_equals :
    (∃ m, parseParams 8 (ascii "x:0&a:1") ∅ (ascii "&") (ascii ":") = some (.returned true m) ∧
      m[ascii "a"]? = none ∧ m[ascii "a:1"]? = some []) ∧
    Text.Splits (ascii "&") (ascii "x:0&a:1") [ascii "x:0"] (ascii "a:1") ∧
    (updated (ascii ":") ∅ [ascii "x:0"] (ascii "a:1"))[ascii "a"]? = some (ascii "1") ∧
    ∃ m, parseParams 4 (ascii "a=1") ∅ (ascii "&") (ascii "==>") = some (.outOfRange m) := by
  refine ⟨⟨_, rfl, by decide, by decide⟩, ?_, by decide, _, rfl⟩
  have hfirst : ¬ ascii "&" <:+: ascii "x:0" ++ (ascii "&").dropLast := by decide
  have hlast : ¬ ascii "&" <:+: ascii "a:1" := by decide
  exact .cons hfirst (.last hlast)

end WebSocketDemo
