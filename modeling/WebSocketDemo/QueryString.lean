/-
**Writing and reading the parameters of a request**.

A caller that writes every name and every value with `UrlEncode`, an equals sign between them and an
ampersand between the parameters, gets a string that `ParseParams` cuts into these parameters again:
neither character is among those that `UrlEncode` writes.  `GetParam` and `UrlDecode` then give back
the value that was last written for a name.

Main definitions:

* `CHttpclient.getParam` — `GetParam`;
* `CHttpclient.queryString` — parameters, as they are written with `UrlEncode`;
* `CHttpclient.Codable` — the strings whose lengths an `int` holds, before and after.

Main results:

* `CHttpclient.urlDecode_urlEncode` — what is encoded is decoded;
* `CHttpclient.splits_queryString` — the pieces are those that were joined;
* `query_round_trip` — **parameters are read as they were written**.
-/

import WebSocketDemo.ParseParams
import WebSocketDemo.UrlCodec

set_option relaxedAutoImplicit false
set_option autoImplicit false

namespace WebSocketDemo

open UrlEncoded

namespace CHttpclient

/-- `GetParam`. -/
def getParam (amapParams : UrlParams) (astrParamName : Bytes) : Bytes :=
  (amapParams[astrParamName]?).getD []

/-- A parameter, as it is written. -/
def queryPiece (p : Bytes × Bytes) : Bytes := urlEncode p.1 ++ 61 :: urlEncode p.2

/-- Parameters, as they are written. -/
def queryString : List (Bytes × Bytes) → Bytes
  | [] => []
  | [p] => queryPiece p
  | p :: q :: ps => queryPiece p ++ (ascii "&" ++ queryString (q :: ps))

/-- The lengths of the string and of its encoding are values of an `int`. -/
structure Codable (s : Bytes) : Prop where
  plain : s.length < 2 ^ 31
  encoded : (s.flatMap urlEncodeChar).length < 2 ^ 31

/-- The value that was last written for a name. -/
def lastValue (name : Bytes) (ps : List (Bytes × Bytes)) : Option Bytes :=
  (ps.reverse.find? fun p => decide (p.1 = name)).map Prod.snd

section Query

variable {s t name : Bytes} {p : Bytes × Bytes} {ps : List (Bytes × Bytes)} {m : UrlParams}

/-! ### Encoding and decoding -/

/-- `UrlEncode` writes no form that is misread. -/
theorem tokenOf_understood (x : UInt8) : Token.Understood (tokenOf x) := by
  unfold tokenOf
  split_ifs with halnum
  · intro hm
    have hno := (not_isAlnum_of_isMark hm).1
    rw [isAlnum_eq, decide_eq_false_iff_not] at hno
    exact hno halnum
  · trivial
  · exact fun hsmall => Bool.false_ne_true hsmall.2

/-- **What is encoded is decoded.** -/
theorem urlDecode_urlEncode (hs : Codable s) : urlDecode (urlEncode s) = s := by
  obtain ⟨hrender, hvalues⟩ := urlEncode_represents hs.plain
  have hlen : (render (s.map tokenOf)).length < 2 ^ 31 := by
    rw [← hrender, urlEncode_of_lt hs.plain]
    exact hs.encoded
  have hread : (s.map tokenOf).flatMap Token.read = (s.map tokenOf).map Token.value := by
    refine (flatMap_eq_map_iff Token.length_read_le).2 fun t ht => ?_
    obtain ⟨x, _, rfl⟩ := List.mem_map.1 ht
    exact (Token.read_eq_iff _).2 (tokenOf_understood x)
  rw [hrender, urlDecode_of_lt hlen, urlDecodeLoop_render, hread]
  exact hvalues

/-- So different strings are encoded differently. -/
theorem urlEncode_inj (hs : Codable s) (ht : Codable t) : urlEncode s = urlEncode t ↔ s = t := by
  refine ⟨fun h => ?_, fun h => by rw [h]⟩
  rw [← urlDecode_urlEncode hs, h, urlDecode_urlEncode ht]

/-- **Neither separator is written.** -/
theorem not_mem_urlEncode (s : Bytes) : 38 ∉ urlEncode s ∧ 61 ∉ urlEncode s := by
  have hchar : ∀ x, 38 ∉ urlEncodeChar x ∧ 61 ∉ urlEncodeChar x :=
    forall_byte (by decide +kernel)
  rw [urlEncode]
  simp only [List.mem_flatMap, not_exists, not_and]
  exact ⟨fun x _ => (hchar x).1, fun x _ => (hchar x).2⟩

/-! ### Joining and splitting -/

theorem not_mem_queryPiece (p : Bytes × Bytes) : 38 ∉ queryPiece p := by
  rw [queryPiece, List.mem_append, List.mem_cons]
  rintro (h | h | h)
  · exact (not_mem_urlEncode p.1).1 h
  · exact absurd h (by decide)
  · exact (not_mem_urlEncode p.2).1 h

theorem binding_queryPiece (p : Bytes × Bytes) :
    binding (ascii "=") (queryPiece p) = (urlEncode p.1, urlEncode p.2) := by
  have hequals : ascii "=" = [61] := by decide
  have hfind : Text.find [61] (queryPiece p) = some (urlEncode p.1).length :=
    Text.find_singleton (not_mem_urlEncode p.1).2 _
  have hdrop : (queryPiece p).drop ((urlEncode p.1).length + 1) = urlEncode p.2 := by
    have hsplit : queryPiece p = (urlEncode p.1 ++ [61]) ++ urlEncode p.2 := by simp [queryPiece]
    have hlen : (urlEncode p.1 ++ [61]).length = (urlEncode p.1).length + 1 := by
      rw [List.length_append, List.length_singleton]
    rw [hsplit, ← hlen, List.drop_left]
  rw [hequals, binding, hfind, cutAt, List.length_singleton, hdrop, queryPiece, List.take_left]

/-- **The pieces are those that were joined.** -/
theorem splits_queryString (p : Bytes × Bytes) (ps : List (Bytes × Bytes)) :
    ∃ segs last, Text.Splits (ascii "&") (queryString (p :: ps)) segs last ∧
      segs ++ [last] = (p :: ps).map queryPiece := by
  have hno (p : Bytes × Bytes) : ¬ ascii "&" <:+: queryPiece p := fun h =>
    not_mem_queryPiece p ((List.singleton_infix_iff 38 _).1 h)
  induction ps generalizing p with
  | nil => exact ⟨[], queryPiece p, .last (hno p), rfl⟩
  | cons q ps ih =>
      obtain ⟨segs, last, hsplits, hpieces⟩ := ih q
      refine ⟨queryPiece p :: segs, last, .cons ?_ hsplits, ?_⟩
      · have hnil : (ascii "&").dropLast = [] := by decide
        rw [hnil, List.append_nil]
        exact hno p
      · rw [List.cons_append, hpieces, List.map_cons (a := p)]

/-- The map with the parameters. -/
def withParams (m : UrlParams) (ps : List (Bytes × Bytes)) : UrlParams :=
  ps.foldl (fun m p => m.insert (urlEncode p.1) (urlEncode p.2)) m

theorem withParams_concat : withParams m (ps ++ [p]) =
    (withParams m ps).insert (urlEncode p.1) (urlEncode p.2) := by
  rw [withParams, List.foldl_append]
  rfl

/-- **`ParseParams` finds the parameters again.** -/
theorem parseParams_queryString (m : UrlParams) {fuel : ℕ}
    (hfuel : (queryString ps).length < fuel) :
    parseParams fuel (queryString ps) m (ascii "&") (ascii "=") =
      some (.returned (!(withParams m ps).isEmpty) (withParams m ps)) := by
  cases ps with
  | nil => exact parseParams_splits (.last (by decide)) m hfuel
  | cons p ps =>
      obtain ⟨segs, last, hsplits, hpieces⟩ := splits_queryString p ps
      have hbind : bindPiece (ascii "=") (segs.foldl (bindPiece (ascii "=")) m) last =
          withParams m (p :: ps) := by
        have hfold : (segs ++ [last]).foldl (bindPiece (ascii "=")) m =
            bindPiece (ascii "=") (segs.foldl (bindPiece (ascii "=")) m) last := by
          rw [List.foldl_append, List.foldl_cons, List.foldl_nil]
        rw [← hfold, hpieces, List.foldl_map, withParams]
        simp only [bindPiece, binding_queryPiece]
      have hlast : last ∈ (p :: ps).map queryPiece := by
        rw [← hpieces]
        exact List.mem_append_right _ (List.mem_singleton_self last)
      have hne : last ≠ [] := by
        obtain ⟨q, _, rfl⟩ := List.mem_map.1 hlast
        simp [queryPiece]
      rw [parseParams_splits hsplits m hfuel, endWith, if_neg hne, paramBinding_self]
      dsimp only
      rw [← hbind]
      rfl

/-- What is bound to a name, behind all of them. -/
theorem getElem?_withParams (hps : ∀ p ∈ ps, Codable p.1) (hname : Codable name) :
    (withParams m ps)[urlEncode name]? = ((lastValue name ps).map urlEncode).or
      m[urlEncode name]? := by
  induction ps using List.reverseRecOn with
  | nil => rfl
  | append_singleton ps p ih =>
      have hlast : lastValue name (ps ++ [p]) =
          if p.1 = name then some p.2 else lastValue name ps := by
        rw [lastValue, List.reverse_append, List.reverse_singleton, List.singleton_append,
          List.find?_cons]
        by_cases hp : p.1 = name
        · simp [hp]
        · simp [hp, lastValue]
      have hcode := urlEncode_inj (hps p (by simp)) hname
      rw [hlast, withParams_concat, Std.ExtTreeMap.getElem?_insert,
        ih fun q hq => hps q (List.mem_append_left _ hq)]
      by_cases hp : p.1 = name
      · simp [hp]
      · simp [Std.LawfulEqCmp.compare_eq_iff_eq, hcode, hp]

end Query

end CHttpclient

open CHttpclient

/-- **Parameters are read as they were written.**  Whatever bytes the names and the values consist
of, and whatever the map holds already, `ParseParams` returns, and for every name `GetParam` gives
the value that was last written for it, or else what the map has held. -/
theorem query_round_trip (ps : List (Bytes × Bytes)) (m : UrlParams) (fuel : ℕ)
    (hps : ∀ p ∈ ps, Codable p.1 ∧ Codable p.2) (hfuel : (queryString ps).length < fuel) :
    ∃ ret m', parseParams fuel (queryString ps) m (ascii "&") (ascii "=") =
      some (.returned ret m') ∧ (ret = false ↔ ps = [] ∧ m = ∅) ∧
      ∀ name, Codable name → urlDecode (getParam m' (urlEncode name)) =
        (lastValue name ps).getD (urlDecode (getParam m (urlEncode name))) := by
  refine ⟨_, _, parseParams_queryString m hfuel, ?_, fun name hname => ?_⟩
  · rw [Bool.not_eq_false', Std.ExtTreeMap.isEmpty_iff]
    cases ps using List.reverseRecOn with
    | nil => simp [withParams]
    | append_singleton ps p =>
        rw [withParams_concat]
        simp [Std.ExtTreeMap.insert_ne_empty]
  · rw [getParam, getElem?_withParams (fun p hp => (hps p hp).1) hname]
    cases hlast : lastValue name ps with
    | none => rw [Option.map_none, Option.none_or, Option.getD_none, getParam]
    | some v =>
        obtain ⟨p, hp, rfl⟩ := Option.map_eq_some_iff.1 hlast
        have hcodable := (hps p (List.mem_reverse.1 (List.mem_of_find?_eq_some hp))).2
        rw [Option.map_some, Option.some_or, Option.getD_some, urlDecode_urlEncode hcodable,
          Option.getD_some]

/-- A name with a blank in it, and a value that looks like another parameter. -/
theorem query_round_trip_blank :
    queryString [(ascii "a b", ascii "1"), (ascii "a b", ascii "x=1&y")] =
      ascii "a+b=1&a+b=x%3D1%26y" ∧
    ∃ ret m', parseParams 30 (ascii "a+b=1&a+b=x%3D1%26y") ∅ (ascii "&") (ascii "=") =
        some (.returned ret m') ∧
      urlDecode (getParam m' (urlEncode (ascii "a b"))) = ascii "x=1&y" := by
  have hquery : queryString [(ascii "a b", ascii "1"), (ascii "a b", ascii "x=1&y")] =
      ascii "a+b=1&a+b=x%3D1%26y" := by
    decide +kernel
  have hname : Codable (ascii "a b") := ⟨by decide +kernel, by decide +kernel⟩
  obtain ⟨ret, m', hparse, _, hvalue⟩ := query_round_trip
    [(ascii "a b", ascii "1"), (ascii "a b", ascii "x=1&y")] ∅ 30
    (List.forall_mem_cons.2 ⟨⟨hname, by decide +kernel, by decide +kernel⟩,
      List.forall_mem_singleton.2 ⟨hname, by decide +kernel, by decide +kernel⟩⟩)
    (by rw [hquery]; decide)
  rw [hquery] at hparse
  exact ⟨hquery, ret, m', hparse, (hvalue _ hname).trans rfl⟩

end WebSocketDemo
