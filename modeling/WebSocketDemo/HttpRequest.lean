/-
**Which host a request goes to** (`parseHttpParameter`, `getHttpRequestEx`, `postHttpRequestEx`).

A URL is cut in the right places in each of its four shapes, with and without a port and with and
without a query.  The authority is cut once more by the caller, at the colon in front of the port;
where there is none, the name that is looked up stays empty, whatever the URL says.

Main definitions:

* `HttpUrl` — a URL by its parts;
* `CHttpclient.opening` — the calls by which a request gets to its host;
* `HttpUrl.Reached` — both kinds of request go to the host of the URL.

Main results:

* `parseHttpParameter_bytes` — **a URL is cut into its parts**;
* `reached_iff` — **which URLs lead to their host**.
-/

import WebSocketDemo.HttpClient

set_option relaxedAutoImplicit false
set_option autoImplicit false

namespace WebSocketDemo

/-- A port, as it is written in a URL. -/
structure Port where
  digits : Bytes
  number : ℕ
  denotes : Decimal.Denotes digits number
  lt : number < 2 ^ 16

/-- The usual way to write a port. -/
def Port.ofNumber (n : ℕ) (h : n < 2 ^ 16) : Port :=
  ⟨Decimal.render n, n, Decimal.denotes_render n, h⟩

/-- **A URL**: a host without `/`, `?` and `:`, a port, a path that begins with `/` and has no `?`,
and a query. -/
structure HttpUrl where
  host : Bytes
  port : Option Port
  path : Bytes
  query : Option Bytes
  slash_not_mem : 47 ∉ host
  mark_not_mem : 63 ∉ host
  colon_not_mem : 58 ∉ host
  slash_path : ∃ rest, path = 47 :: rest
  mark_not_mem_path : 63 ∉ path

namespace HttpUrl

/-- Host and port. -/
def authority (u : HttpUrl) : Bytes := u.host ++ u.port.elim [] fun p => 58 :: p.digits

/-- **The URL as it is written.** -/
def bytes (u : HttpUrl) : Bytes :=
  ascii "http://" ++ (u.authority ++ (u.path ++ u.query.elim [] fun q => 63 :: q))

/-- The port to connect to. -/
def portNumber (u : HttpUrl) : UInt16 := u.port.elim 80 fun p => UInt16.ofNat p.number

variable (u : HttpUrl)

/-- Only the digits of the port are added to the host. -/
theorem not_mem_authority {x : UInt8} (hhost : x ∉ u.host) (hcolon : x ≠ 58)
    (hdigit : ¬ Decimal.IsDigit x) : x ∉ u.authority := by
  rw [authority, List.mem_append, not_or]
  refine ⟨hhost, ?_⟩
  cases u.port with
  | none => exact List.not_mem_nil
  | some p =>
      intro hx
      rcases List.mem_cons.1 hx with rfl | hx
      · exact hcolon rfl
      · exact hdigit (p.denotes.isDigit x hx)

/-! ### Where its parts are -/

theorem drop_scheme :
    u.bytes.drop 7 = u.authority ++ (u.path ++ u.query.elim [] fun q => 63 :: q) := by
  have h7 : (ascii "http://").length = 7 := by decide
  rw [HttpUrl.bytes, ← h7, List.drop_left]

theorem drop_authority :
    u.bytes.drop (u.authority.length + 7) = u.path ++ u.query.elim [] fun q => 63 :: q := by
  rw [Nat.add_comm, ← List.drop_drop, u.drop_scheme, List.drop_left]

/-- The first slash behind the scheme begins the path. -/
theorem find_slash : Text.findFrom (ascii "/") u.bytes 7 = some (u.authority.length + 7) := by
  obtain ⟨rest, hpath⟩ := u.slash_path
  have hnot : 47 ∉ u.authority := u.not_mem_authority u.slash_not_mem (by decide) (by decide)
  have h7 : (ascii "http://").length = 7 := by decide
  rw [HttpUrl.bytes, ← h7, Text.findFrom_append, hpath, List.cons_append]
  exact congrArg (Option.map _) (Text.find_singleton hnot _)

/-- The first question mark begins the query. -/
theorem find_mark :
    Text.find (ascii "?") u.bytes = u.query.map
      fun _ => u.authority.length + 7 + u.path.length := by
  have hfront : 63 ∉ ascii "http://" ++ (u.authority ++ u.path) := by
    have hnot : 63 ∉ u.authority := u.not_mem_authority u.mark_not_mem (by decide) (by decide)
    simp only [List.mem_append, not_or]
    exact ⟨by decide, hnot, u.mark_not_mem_path⟩
  cases hq : u.query with
  | none =>
      refine Text.find_singleton_eq_none ?_
      rw [HttpUrl.bytes, hq, Option.elim_none, List.append_nil]
      exact hfront
  | some q =>
      have hbytes : u.bytes = (ascii "http://" ++ (u.authority ++ u.path)) ++ 63 :: q := by
        simp [HttpUrl.bytes, hq]
      have h7 : (ascii "http://").length = 7 := by decide
      rw [hbytes]
      refine (Text.find_singleton hfront q).trans ?_
      rw [List.length_append, List.length_append, h7, Nat.add_comm 7, Nat.add_right_comm]
      rfl

end HttpUrl

namespace CHttpclient

/-- The calls by which a request gets to port `port` of the host `host`. -/
def opening (net : Network) (host : Bytes) (port : UInt16) : List NetCall :=
  [.getIpByName host, .init] ++ if net.init then [.connect (net.getIpByName host) port] else []

variable (u : HttpUrl)

theorem sizeSub_of_le {a b : ℕ} (h : b ≤ a) : sizeSub a b = a - b := if_pos h

/-- **A URL is cut into its parts.** -/
theorem parseHttpParameter_bytes :
    parseHttpParameter u.bytes = some (u.authority, u.path, u.query.getD []) := by
  have hne : u.bytes ≠ [] := by
    intro he
    have hscheme := List.append_eq_nil_iff.1 he
    exact absurd hscheme.1 (by decide)
  have hscheme : Text.find (ascii "http://") u.bytes = some 0 :=
    Text.find_of_starts (List.prefix_append _ _)
  have hauthority : (u.bytes.drop 7).take (sizeSub (u.authority.length + 7) 7) = u.authority := by
    rw [u.drop_scheme, sizeSub_of_le (Nat.le_add_left _ _), Nat.add_sub_cancel, List.take_left]
  rw [parseHttpParameter, if_neg hne, hscheme]
  dsimp only
  rw [u.find_slash]
  dsimp only
  rw [hauthority, u.find_mark, u.drop_authority]
  cases hq : u.query with
  | none => simp
  | some q =>
      have hquery : u.bytes.drop (u.authority.length + 7 + u.path.length + 1) = q := by
        rw [Nat.add_assoc, ← List.drop_drop, u.drop_authority, hq, ← List.drop_drop,
          Option.elim_some, List.drop_left]
        rfl
      rw [Option.map_some]
      dsimp only
      rw [hquery, sizeSub_of_le (Nat.le_add_right _ _), Nat.add_sub_cancel_left, Option.elim_some,
        List.take_left]
      rfl

/-- The authority is cut at the colon in front of the port; without a port no name comes out. -/
theorem hostAndPort_authority :
    hostAndPort u.authority = (if u.port.isSome then u.host else [], u.portNumber) := by
  rw [hostAndPort, HttpUrl.authority, HttpUrl.portNumber]
  cases u.port with
  | none =>
      have hnone : Text.find (ascii ":") u.host = none :=
        Text.find_singleton_eq_none u.colon_not_mem
      rw [Option.elim_none, List.append_nil, hnone]
      rfl
  | some p =>
      have hsome : Text.find (ascii ":") (u.host ++ 58 :: p.digits) = some u.host.length :=
        Text.find_singleton u.colon_not_mem p.digits
      have hport : (u.host ++ 58 :: p.digits).drop (u.host.length + 1) = p.digits := by
        rw [← List.drop_drop, List.drop_left]
        rfl
      rw [Option.elim_some, hsome]
      dsimp only
      rw [hport, List.take_left, STRING.fromStringUInt16_numeral p.denotes p.lt]
      rfl

/-- **A request begins with the calls that lead to the name and the port of its authority.** -/
theorem requestEx_opening (header : Bytes → Bytes → Bytes → Bytes) (net : Network)
    (response : Bytes) (timeout : ℤ) {url page parameter authority : Bytes}
    (hparse : parseHttpParameter url = some (authority, page, parameter)) :
    opening net (hostAndPort authority).1 (hostAndPort authority).2 <+:
      (requestEx header net url response timeout).calls := by
  unfold requestEx opening
  rw [hparse]
  dsimp only
  cases net.init with
  | false => simp
  | true =>
      -- every way out of the function is behind these calls
      rw [if_pos rfl, if_neg Bool.true_eq_false.mp]
      split_ifs
      · exact List.prefix_rfl
      · exact List.prefix_append _ _
      · simp
      · simp
      · split
        · simp
        · simp

end CHttpclient

open CHttpclient

/-- **Requests go to the host of the URL**: it is cut into its parts, and both functions then
resolve its name and connect to its port. -/
structure HttpUrl.Reached (u : HttpUrl) : Prop where
  parsed : parseHttpParameter u.bytes = some (u.authority, u.path, u.query.getD [])
  get : ∀ (net : Network) (response : Bytes) (timeout : ℤ),
    opening net u.host u.portNumber <+: (getHttpRequestEx net u.bytes response timeout).calls
  post : ∀ (net : Network) (response : Bytes) (timeout : ℤ),
    opening net u.host u.portNumber <+: (postHttpRequestEx net u.bytes response timeout).calls

/-- **Which URLs lead to their host.**  Every URL is cut into its parts; a request goes to the host
exactly when there is a port, or no host. -/
theorem reached_iff (u : HttpUrl) :
    parseHttpParameter u.bytes = some (u.authority, u.path, u.query.getD []) ∧
      (u.Reached ↔ u.port.isSome = true ∨ u.host = []) := by
  have hparse := parseHttpParameter_bytes u
  have hopening (header : Bytes → Bytes → Bytes → Bytes) (net : Network) (response : Bytes)
      (timeout : ℤ) : opening net (if u.port.isSome then u.host else []) u.portNumber <+:
        (requestEx header net u.bytes response timeout).calls := by
    have h := requestEx_opening header net response timeout hparse
    rwa [hostAndPort_authority] at h
  refine ⟨hparse, fun hr => ?_, fun hport => ?_⟩
  · by_contra hno
    obtain ⟨hport, hhost⟩ := not_or.1 hno
    -- the empty name is looked up
    let net : Network := ⟨id, false, fun _ _ => false, fun _ => false, fun _ => .failed 0,
      .failed 0⟩
    have hempty : opening net [] u.portNumber <+: (getHttpRequestEx net u.bytes [] 0).calls := by
      have h := hopening getHeader net [] 0
      rwa [if_neg hport] at h
    have hsame := List.prefix_of_prefix_length_le (hr.get net [] 0) hempty (le_refl _)
    have hhead := (List.cons_prefix_cons.1 hsame).1
    injection hhead with hnil
    exact hhost hnil
  · have hname : (if u.port.isSome then u.host else []) = u.host := by
      rcases hport with hport | hhost
      · rw [if_pos hport]
      · rw [hhost, ite_self]
    rw [hname] at hopening
    exact ⟨hparse, hopening getHeader, hopening postHeader⟩

/-- `http://a:8080/`. -/
def samplePort : HttpUrl where
  host := ascii "a"
  port := some (Port.ofNumber 8080 (by decide))
  path := ascii "/"
  query := none
  slash_not_mem := by decide
  mark_not_mem := by decide
  colon_not_mem := by decide
  slash_path := ⟨[], rfl⟩
  mark_not_mem_path := by decide

/-- With a port it is reached. -/
theorem reached_iff_port : samplePort.bytes = ascii "http://a:8080/" ∧
    samplePort.portNumber = 8080 ∧
    samplePort.Reached :=
  ⟨by decide, by decide, (reached_iff samplePort).2.2 (Or.inl rfl)⟩

/-- `http://a/?q`. -/
def sampleNoPort : HttpUrl where
  host := ascii "a"
  port := none
  path := ascii "/"
  query := some (ascii "q")
  slash_not_mem := by decide
  mark_not_mem := by decide
  colon_not_mem := by decide
  slash_path := ⟨[], rfl⟩
  mark_not_mem_path := by decide

/-- **Without a port the empty name is looked up.** -/
theorem no_port_not_reached : sampleNoPort.bytes = ascii "http://a/?q" ∧
    (∀ (net : Network) (response : Bytes) (timeout : ℤ),
      (getHttpRequestEx net sampleNoPort.bytes response timeout).calls.head? =
        some (.getIpByName [])) ∧
    ¬ sampleNoPort.Reached := by
  have hbytes : sampleNoPort.bytes = ascii "http://a/?q" := by decide
  refine ⟨hbytes, fun net response timeout => ?_, fun hr => ?_⟩
  · have hfront := requestEx_opening getHeader net response timeout
      (parseHttpParameter_bytes sampleNoPort)
    obtain ⟨rest, hrest⟩ := hfront
    rw [getHttpRequestEx, ← hrest]
    rfl
  · have hport := hr.get ⟨id, false, fun _ _ => false, fun _ => false, fun _ => .failed 0,
      .failed 0⟩ [] 0
    revert hport
    decide

end WebSocketDemo
