/-
**The handshake of the script client with the server.**

The client of the scripts writes one fixed request.  It is a header section the server takes, its
key is read back as it was written, and the response to it is what the client waits for: each side
computes the accept value with its own hash function and its own Base64, and they agree.

Main definitions:

* `clientRequest` — the request of the client as a header section.

Main results:

* `encode_clientRequest`, `clientRequest_valid` — **what the client writes is a valid handshake**;
* `answer_request` — **the server answers it with the accept value the client expects**;
* `ScriptClient.feed_response` — **the client takes the answer**.
-/

import WebSocketDemo.MessageDigest
import WebSocketDemo.ScriptClient
import WebSocketDemo.UpgradeRequest

set_option relaxedAutoImplicit false
set_option autoImplicit false

namespace WebSocketDemo

open ByteOrder Rfc6455

/-! ### The characters of a request -/

/-- A host name or an address: visible characters. -/
def IsHost (host : Bytes) : Prop := ∀ b ∈ host, 33 ≤ b ∧ b ≤ 126

instance (host : Bytes) : Decidable (IsHost host) :=
  List.decidableBAll (fun b => 33 ≤ b ∧ b ≤ 126) host

/-- Visible characters may stand in a value, at its ends too. -/
theorem isText_of_visible {b : UInt8} (h : 33 ≤ b ∧ b ≤ 126) :
    Http.isText b = true ∧ Http.isBlank b = false := by
  have hall : ∀ n : Fin 256, 33 ≤ n.val ∧ n.val ≤ 126 →
      Http.isText (UInt8.ofNat n.val) = true ∧ Http.isBlank (UInt8.ofNat n.val) = false := by
    decide +kernel
  have hb := hall ⟨b.toNat, b.toNat_lt⟩ ⟨UInt8.le_iff_toNat_le.1 h.1, UInt8.le_iff_toNat_le.1 h.2⟩
  rwa [UInt8.ofNat_toNat] at hb

/-- A Base64 digit or the padding. -/
theorem mem_encode {m : Bytes} {b : UInt8} (h : b ∈ Rfc4648.encode m) :
    b ∈ Rfc4648.padding :: Rfc4648.alphabet := by
  have hdigit (v : ℕ) : Rfc4648.digit v ∈ Rfc4648.alphabet := by
    have hlen : Rfc4648.alphabet.length = 64 := by decide
    have hv : v % 64 < Rfc4648.alphabet.length := by
      rw [hlen]
      exact Nat.mod_lt _ (by decide)
    rw [Rfc4648.digit, List.getD_eq_getElem _ _ hv]
    exact List.getElem_mem hv
  have hgroup {g : Bytes} (hb : b ∈ Rfc4648.group g) : b ∈ Rfc4648.padding :: Rfc4648.alphabet := by
    rw [Rfc4648.group] at hb
    rcases List.mem_append.1 hb with hb | hb
    · obtain ⟨i, _, rfl⟩ := List.mem_map.1 hb
      exact List.mem_cons_of_mem _ (hdigit _)
    · rw [List.eq_of_mem_replicate hb]
      exact List.mem_cons_self
  rw [Rfc4648.encode] at h
  rcases List.mem_append.1 h with h | h
  · obtain ⟨g, _, hb⟩ := List.mem_flatMap.1 h
    exact hgroup hb
  · split_ifs at h
    · exact absurd h List.not_mem_nil
    · exact hgroup h

/-- What Base64 writes is visible. -/
theorem isHost_encode (m : Bytes) : IsHost (Rfc4648.encode m) := by
  have hall : (Rfc4648.padding :: Rfc4648.alphabet).all (fun b => decide (33 ≤ b ∧ b ≤ 126)) =
      true := by
    decide +kernel
  intro b hb
  exact of_decide_eq_true (List.all_eq_true.1 hall b (mem_encode hb))

/-- A visible value may stand in a field. -/
theorem value_of_visible {value : Bytes} (h : IsHost value) : value.all Http.isText = true ∧
    value.head?.any Http.isBlank = false ∧ value.getLast?.any Http.isBlank = false := by
  refine ⟨List.all_eq_true.2 fun b hb => (isText_of_visible (h b hb)).1, ?_, ?_⟩
  · cases hb : value.head? with
    | none => rfl
    | some b => exact (isText_of_visible (h b (List.mem_of_mem_head? hb))).2
  · cases hb : value.getLast? with
    | none => rfl
    | some b => exact (isText_of_visible (h b (List.mem_of_mem_getLast? hb))).2

theorem plainField_line (name value : Bytes) (hname : name ≠ [] ∧ name.all Http.isTchar = true)
    (hvalue : value.all Http.isText = true ∧ value.head?.any Http.isBlank = false ∧
      value.getLast?.any Http.isBlank = false) :
    (plainField name value hname hvalue).line = name ++ (58 :: 32 :: value) := by
  simp [Http.Field.line, Http.Field.content, plainField]

theorem isTchar_key : ascii "Sec-WebSocket-Key" ≠ [] ∧
    (ascii "Sec-WebSocket-Key").all Http.isTchar = true := by
  decide

theorem isTchar_host : ascii "Host" ≠ [] ∧ (ascii "Host").all Http.isTchar = true := by decide

/-! ### The request -/

section Request

variable {host : Bytes} (hhost : IsHost host) (port : ℕ) (nonce : Bytes)

/-- A host and a port. -/
theorem isHost_port (hhost : IsHost host) (port : ℕ) :
    IsHost (host ++ ascii ":" ++ Decimal.render port) := by
  intro b hb
  rw [List.mem_append, List.mem_append] at hb
  rcases hb with (hb | hb) | hb
  · exact hhost b hb
  · have hcolon : ascii ":" = [58] := by decide
    rw [hcolon] at hb
    rw [List.mem_singleton.1 hb]
    decide
  · obtain ⟨h₁, h₂⟩ := (Decimal.denotes_render port).isDigit b hb
    exact ⟨UInt8.le_trans (by decide) h₁, UInt8.le_trans h₂ (by decide)⟩

/-- The field of the key. -/
def clientKeyField : Http.Field :=
  plainField (ascii "Sec-WebSocket-Key") (Rfc4648.encode nonce) isTchar_key
    (value_of_visible (isHost_encode nonce))

/-- The field of the host. -/
def clientHostField : Http.Field :=
  plainField (ascii "Host") (host ++ ascii ":" ++ Decimal.render port) isTchar_host
    (value_of_visible (isHost_port hhost port))

/-- **The request of the client.** -/
def clientRequest : UpgradeRequest where
  startLine := ascii "GET / HTTP/1.1"
  fields := [clientHostField hhost port, upgradeField, connectionField, clientKeyField nonce,
    versionField]
  startLine_ne := by decide
  startLine_text := List.all_eq_true.1 (by decide)
  keyField := clientKeyField nonce
  only_key := by
    have h₁ : (clientHostField hhost port).isNamed secWebSocketKey = false :=
      show decide ((ascii "Host").map Http.lower = secWebSocketKey.map Http.lower) = false by decide
    have h₂ : upgradeField.isNamed secWebSocketKey = false := by decide
    have h₃ : connectionField.isNamed secWebSocketKey = false := by decide
    have h₄ : versionField.isNamed secWebSocketKey = false := by decide
    have h₅ : (clientKeyField nonce).isNamed secWebSocketKey = true :=
      show decide ((ascii "Sec-WebSocket-Key").map Http.lower =
        secWebSocketKey.map Http.lower) = true by decide
    simp [h₁, h₂, h₃, h₄, h₅]

/-- **What the client writes.** -/
theorem encode_clientRequest : (clientRequest hhost port nonce).encode =
    ScriptClient.request host port (Rfc4648.encode nonce) := by
  have h₁ : ascii "GET / HTTP/1.1\r\n" = ascii "GET / HTTP/1.1" ++ [13, 10] := by decide
  have h₂ : ascii "Host: " = ascii "Host" ++ [58, 32] := by decide
  have h₃ : ascii "Upgrade: websocket\r\n" = upgradeField.line ++ [13, 10] := by decide
  have h₄ : ascii "Connection: Upgrade\r\n" = connectionField.line ++ [13, 10] := by decide
  have h₅ : ascii "Sec-WebSocket-Key: " = ascii "Sec-WebSocket-Key" ++ [58, 32] := by decide
  have h₆ : ascii "Sec-WebSocket-Version: 13\r\n" = versionField.line ++ [13, 10] := by decide
  have h₇ : ascii "\r\n" = [13, 10] := by decide
  have hline₁ : (clientHostField hhost port).line = _ := plainField_line _ _ _ _
  have hline₂ : (clientKeyField nonce).line = _ := plainField_line _ _ _ _
  have hlines : (clientRequest hhost port nonce).contentLines =
      [ascii "GET / HTTP/1.1", (clientHostField hhost port).line, upgradeField.line,
        connectionField.line, (clientKeyField nonce).line, versionField.line] := rfl
  rw [Http.Message.encode, hlines, hline₁, hline₂]
  simp only [ScriptClient.request, Http.lines, Http.crlf, List.flatMap_cons, List.flatMap_nil,
    h₁, h₂, h₃, h₄, h₅, h₆, h₇, List.append_assoc, List.nil_append, List.cons_append]

/-- **It is what RFC 6455 asks for.** -/
theorem clientRequest_valid (hnonce : nonce.length = 16) :
    (clientRequest hhost port nonce).Valid where
  get := show ascii "GET " <+: ascii "GET / HTTP/1.1" by decide
  version := show ascii " HTTP/1.1" <:+ ascii "GET / HTTP/1.1" by decide
  host := ⟨clientHostField hhost port, List.mem_cons_self,
    show decide ((ascii "Host").map Http.lower = (ascii "Host").map Http.lower) = true by decide⟩
  upgrade := ⟨upgradeField, by simp [clientRequest], by decide, by decide⟩
  connection := ⟨connectionField, by simp [clientRequest], by decide, by decide⟩
  webSocketVersion := ⟨versionField, by simp [clientRequest], by decide, rfl⟩
  nonce := ⟨nonce, hnonce, (base64Encode_eq_encode nonce).symm⟩

/-! ### The answer -/

/-- **Both sides compute the same accept value.** -/
theorem acceptValue_eq_expected {key : Bytes} (h0 : 0 ∉ key) (hlen : key.length < 2 ^ 32) :
    acceptValue key = ScriptClient.expected key := by
  have hmagic : magicKey.length = 36 := by decide
  have hhash := SHA1.hash_eq_sha1 (p := key ++ magicKey) (by rw [List.length_append, hmagic]; omega)
  obtain ⟨d, hd, hwords⟩ := Option.map_eq_some_iff.1 hhash
  have hdigest : Fips180.digest d.toWords = d.words.flatMap fun w => bigEndian 4 w.toNat := rfl
  have haccept := acceptValue_eq h0 hlen
  rw [expectedAccept, hd, Option.map_some, Option.some.injEq] at haccept
  rw [haccept, base64Encode_eq_encode, ScriptClient.expected, ← hdigest, hwords]
  rfl

/-- **The server answers the request with the accept value the client expects.** -/
theorem answer_request (hnonce : nonce.length = 16) :
    ∃ headerMap, fetchHttpInfo (fun _ => none) (clientRequest hhost port nonce).encode =
      (0, headerMap) ∧
      (parseStr headerMap).2 = response101 (ScriptClient.expected (Rfc4648.encode nonce)) := by
  obtain ⟨headerMap, hfetch, hkey⟩ := serverKey_fetchHttpInfo (clientRequest hhost port nonce)
  refine ⟨headerMap, hfetch, ?_⟩
  have hpre : keyPrefix = ascii "Sec-WebSocket-Key" ++ [58, 32] := by decide
  have hline : (clientKeyField nonce).line = keyPrefix ++ Rfc4648.encode nonce := by
    rw [hpre, clientKeyField, plainField_line, List.append_assoc]
    rfl
  have hread : keyRead (clientRequest hhost port nonce).keyField.line = Rfc4648.encode nonce := by
    change keyRead (clientKeyField nonce).line = _
    rw [hline, keyRead, if_pos (List.prefix_append _ _), List.drop_left]
  have hnul : 0 ∉ Rfc4648.encode nonce := fun h => absurd (isHost_encode nonce 0 h) (by decide)
  have hlen : (Rfc4648.encode nonce).length < 2 ^ 32 := by
    rw [← base64Encode_eq_encode, length_base64Encode, hnonce]
    decide
  rw [parseStr_eq, hkey, hread, acceptValue_eq_expected hnul hlen]

end Request

/-! ### What the client makes of it -/

namespace ScriptClient

section Response

variable {c : ScriptClient} {buf b accept : Bytes}

/-- The blank line has not come in. -/
theorem feed_headers (hpc : c.pc = .headers buf) (hlen : (buf ++ b).length ≤ 262144)
    (hno : ¬ Http.crlf ++ Http.crlf <:+: buf ++ b) :
    c.feed b = { c with pc := .headers (buf ++ b) } := by
  induction b generalizing c buf with
  | nil => rw [feed_nil, List.append_nil, ← hpc]
  | cons x b ih =>
      have hsplit : buf ++ x :: b = (buf ++ [x]) ++ b := by simp
      rw [hsplit] at hlen hno ⊢
      have hx : c.resume [x] = { c with pc := .headers (buf ++ [x]) } := by
        have hshort : ¬ (buf ++ [x]).length > 262144 := by
          rw [List.length_append] at hlen
          omega
        have hnot : ¬ Http.crlf ++ Http.crlf <:+: buf ++ [x] := fun h =>
          hno (h.trans (List.prefix_append _ _).isInfix)
        simp only [resume, hpc, if_neg (List.cons_ne_nil x []), if_neg hshort, if_neg hnot]
      have hrest := ih (c := { c with pc := .headers (buf ++ [x]) }) rfl hlen hno
      change (c.resume [x]).feed b = _
      rw [hx, hrest]

/-- Its last byte. -/
theorem feed_headers_end (hpc : c.pc = .headers buf) (hne : b ≠ [])
    (hlen : (buf ++ b).length ≤ 262144) (hno : ¬ Http.crlf ++ Http.crlf <:+: (buf ++ b).dropLast)
    (hyes : Http.crlf ++ Http.crlf <:+: buf ++ b) : c.feed b = c.checkHeaders (buf ++ b) := by
  obtain ⟨b, x, rfl⟩ := (List.eq_nil_or_concat b).resolve_left hne
  rw [List.concat_eq_append, ← List.append_assoc] at hlen hno hyes ⊢
  rw [List.dropLast_concat] at hno
  have hfront : (buf ++ b).length ≤ 262144 := by
    rw [List.length_append] at hlen
    omega
  have hlast : ({ c with pc := .headers (buf ++ b) } : ScriptClient).resume [x] =
      c.checkHeaders (buf ++ b ++ [x]) := by
    simp only [resume, if_neg (Nat.not_lt.2 hlen), if_pos hyes]
    rfl
  rw [feed_append, feed_headers hpc hfront hno, ← hlast]
  rfl

/-- **While nothing stands behind the blank line, the grouping makes no difference here either.** -/
theorem resume_headers (hpc : c.pc = .headers buf) (hne : b ≠ [])
    (hlen : (buf ++ b).length ≤ 262144)
    (hno : ¬ Http.crlf ++ Http.crlf <:+: (buf ++ b).dropLast) : c.resume b = c.feed b := by
  by_cases hyes : Http.crlf ++ Http.crlf <:+: buf ++ b
  · rw [feed_headers_end hpc hne hlen hno hyes]
    simp only [resume, hpc, if_neg hne, if_neg (Nat.not_lt.2 hlen), if_pos hyes]
  · rw [feed_headers hpc hlen hyes]
    simp only [resume, hpc, if_neg hne, if_neg (Nat.not_lt.2 hlen), if_neg hyes]

/-- A line is split off. -/
theorem splitCrlf_line {l : Bytes} (hl : 13 ∉ l) (s : Bytes) :
    splitCrlf (l ++ (Http.crlf ++ s)) = l :: splitCrlf s := by
  induction l with
  | nil => simp [splitCrlf, Http.crlf]
  | cons x l ih =>
      rw [List.mem_cons, not_or] at hl
      have ih := ih hl.2
      obtain ⟨y, t, hy⟩ := List.exists_cons_of_ne_nil (l := l ++ (Http.crlf ++ s))
        (by simp [Http.crlf])
      rw [List.cons_append, hy, splitCrlf, if_neg (fun h => hl.1 h.1.symm), ← hy, ih]

/-- White space in front is stripped. -/
theorem strip_blank {s : Bytes} (h : ∀ b ∈ s, isSpace b = false) : strip (32 :: s) = s := by
  have hkeep {l : Bytes} (hl : ∀ b ∈ l, isSpace b = false) : l.dropWhile isSpace = l := by
    cases l with
    | nil => rfl
    | cons x l => rw [List.dropWhile_cons_of_neg (by simp [hl x List.mem_cons_self])]
  have hblank : isSpace 32 = true := by decide
  rw [strip, List.dropWhile_cons_of_pos hblank, hkeep h,
    hkeep fun b hb => h b (List.mem_reverse.1 hb), List.reverse_reverse]

/-- The lines of the response. -/
theorem splitCrlf_response (h : 13 ∉ accept) : splitCrlf (response101 accept) =
    [ascii "HTTP/1.1 101 Switching Protocols", ascii "Connection: upgrade",
      ascii "Sec-WebSocket-Accept: " ++ accept, ascii "Upgrade: websocket", [], []] := by
  have haccept : 13 ∉ ascii "Sec-WebSocket-Accept: " ++ accept := by
    rw [List.mem_append, not_or]
    exact ⟨by decide, h⟩
  have hnil : Http.lines [] = [] := rfl
  rw [response101, Http.lines_cons, splitCrlf_line (by decide), Http.lines_cons,
    splitCrlf_line (by decide), Http.lines_cons, splitCrlf_line haccept, Http.lines_cons,
    splitCrlf_line (by decide), Http.lines_cons, splitCrlf_line (by decide), hnil]
  rfl

/-- **The accept value is read back.** -/
theorem parseAccept_response (h : IsHost accept) :
    parseAccept (response101 accept) = some accept := by
  have hcr : 13 ∉ accept := fun hm => absurd (h 13 hm) (by decide)
  have hspace : ∀ b ∈ accept, isSpace b = false := by
    have hall : ∀ n : Fin 256, 33 ≤ n.val ∧ n.val ≤ 126 → isSpace (UInt8.ofNat n.val) = false := by
      decide +kernel
    intro b hb
    obtain ⟨h₁, h₂⟩ := h b hb
    have hb := hall ⟨b.toNat, b.toNat_lt⟩ ⟨UInt8.le_iff_toNat_le.1 h₁, UInt8.le_iff_toNat_le.1 h₂⟩
    rwa [UInt8.ofNat_toNat] at hb
  have h₁ : ¬ ascii "sec-websocket-accept:" <+:
      (ascii "HTTP/1.1 101 Switching Protocols").map Http.lower := by decide
  have h₂ : ¬ ascii "sec-websocket-accept:" <+: (ascii "Connection: upgrade").map Http.lower := by
    decide
  have h₃ : ascii "sec-websocket-accept:" <+:
      (ascii "Sec-WebSocket-Accept: " ++ accept).map Http.lower := by
    rw [List.map_append]
    exact List.IsPrefix.trans (by decide) (List.prefix_append _ _)
  have hvalue : ((ascii "Sec-WebSocket-Accept: " ++ accept).dropWhile (· ≠ 58)).drop 1 =
      32 :: accept := by
    have hname : ascii "Sec-WebSocket-Accept: " = ascii "Sec-WebSocket-Accept" ++ [58, 32] := by
      decide
    have hno : ∀ b ∈ ascii "Sec-WebSocket-Accept", decide (b ≠ 58) = true :=
      List.all_eq_true.1 (by decide)
    rw [hname, List.append_assoc, List.dropWhile_append_of_pos hno]
    rfl
  rw [parseAccept, splitCrlf_response hcr, List.findSome?_cons, if_neg h₁, List.findSome?_cons,
    if_neg h₂, List.findSome?_cons, if_pos h₃, hvalue, strip_blank hspace]

/-- The blank line ends the response. -/
theorem find_response (h : 13 ∉ accept ∧ 10 ∉ accept) (t : Bytes) :
    Text.find (Http.crlf ++ Http.crlf) (response101 accept ++ t) =
      some ((response101 accept).length - 4) := by
  have hsplit : response101 accept = Http.lines [ascii "HTTP/1.1 101 Switching Protocols",
      ascii "Connection: upgrade", ascii "Sec-WebSocket-Accept: " ++ accept,
      ascii "Upgrade: websocket"] ++ Http.crlf := by
    simp [response101, Http.lines]
  have hlines : ∀ l ∈ [ascii "HTTP/1.1 101 Switching Protocols", ascii "Connection: upgrade",
      ascii "Sec-WebSocket-Accept: " ++ accept, ascii "Upgrade: websocket"], Http.IsLine l := by
    simp only [List.forall_mem_cons, List.not_mem_nil, false_implies, implies_true, and_true]
    refine ⟨⟨by decide, by decide, by decide⟩, ⟨by decide, by decide, by decide⟩, ⟨?_, ?_, ?_⟩,
      ⟨by decide, by decide, by decide⟩⟩
    · exact List.append_ne_nil_of_left_ne_nil (by decide) _
    · rw [List.mem_append, not_or]
      exact ⟨by decide, h.1⟩
    · rw [List.mem_append, not_or]
      exact ⟨by decide, h.2⟩
  rw [hsplit]
  exact Http.find_end hlines (List.cons_ne_nil _ _) t

theorem length_expected (key : Bytes) : (expected key).length = 28 := by
  have hdigest (d : Fips180.Words) : (Fips180.digest d).length = 20 := by simp [Fips180.digest]
  rw [expected, ← base64Encode_eq_encode, length_base64Encode, hdigest]

/-- The response, and where it ends. -/
theorem length_response (key : Bytes) : (response101 (expected key)).length = 129 := by
  have h₁ : (ascii "HTTP/1.1 101 Switching Protocols").length = 32 := by decide
  have h₂ : (ascii "Connection: upgrade").length = 19 := by decide
  have h₃ : (ascii "Sec-WebSocket-Accept: ").length = 22 := by decide
  have h₄ : (ascii "Upgrade: websocket").length = 18 := by decide
  simp [response101, Http.lines, Http.crlf, length_expected, h₁, h₂, h₃, h₄]

theorem find_expected (key t : Bytes) :
    Text.find (Http.crlf ++ Http.crlf) (response101 (expected key) ++ t) = some 125 := by
  have hhost : IsHost (expected key) := isHost_encode _
  have hcr : 13 ∉ expected key := fun hm => absurd (hhost 13 hm) (by decide)
  have hlf : 10 ∉ expected key := fun hm => absurd (hhost 10 hm) (by decide)
  rw [find_response ⟨hcr, hlf⟩, length_response]

/-- The blank line is in the response. -/
theorem blank_response (key : Bytes) : Http.crlf ++ Http.crlf <:+: response101 (expected key) := by
  have hfind := find_expected key []
  rw [List.append_nil] at hfind
  by_contra hno
  rw [Text.find_eq_none_iff.2 hno] at hfind
  cases hfind

theorem not_blank_dropLast (key : Bytes) :
    ¬ Http.crlf ++ Http.crlf <:+: (response101 (expected key)).dropLast :=
  Text.not_infix_of_prefix (find_expected key [])
    ((List.dropLast_prefix _).trans (List.prefix_append _ _))
    (by rw [List.length_dropLast, length_response]; decide)

/-- The two things that are checked. -/
theorem checkHeaders_accepts {headers : Bytes}
    (hstatus : ascii " 101 " <:+: (splitCrlf headers).headD [])
    (haccept : parseAccept headers = some (expected c.key)) :
    c.checkHeaders headers = { c with headers := headers, pc := .exact 2 .hdr [] } := by
  simp only [checkHeaders, haccept, hstatus, not_true_eq_false, if_false, ne_eq]

/-- **The client takes the answer.** -/
theorem feed_response (hpc : c.pc = .headers []) : c.feed (response101 (expected c.key)) =
    { c with headers := response101 (expected c.key), pc := .exact 2 .hdr [] } := by
  have hhost : IsHost (expected c.key) := isHost_encode _
  have hcr : 13 ∉ expected c.key := fun hm => absurd (hhost 13 hm) (by decide)
  have hlen := length_response c.key
  have hstatus : ascii " 101 " <:+: (splitCrlf (response101 (expected c.key))).headD [] := by
    rw [splitCrlf_response hcr, List.headD_cons]
    decide
  have hne : response101 (expected c.key) ≠ [] :=
    List.ne_nil_of_length_pos (by rw [hlen]; decide)
  have hend := feed_headers_end (b := response101 (expected c.key)) hpc hne
    (by rw [List.nil_append, hlen]; decide) (not_blank_dropLast c.key) (blank_response c.key)
  rw [hend, List.nil_append, checkHeaders_accepts hstatus (parseAccept_response hhost)]

/-- A whole session. -/
theorem feed_session {ps : List Bytes} (hpc : c.pc = .headers [])
    (hlen : ∀ p ∈ ps, p.length < 2 ^ 64) :
    c.feed (response101 (expected c.key) ++ ps.flatMap fun p => (serverFrame opText p).encode) =
      { c with
        headers := response101 (expected c.key), pc := .exact 2 .hdr []
        received := c.received ++ ps } := by
  rw [feed_append, feed_response hpc, feed_flatMap rfl hlen]

/-- **A whole session, cut off anywhere**: nothing is raised, and the client has received a first
part of the payloads. -/
theorem feed_session_front {ps : List Bytes} (hpc : c.pc = .headers [])
    (hlen : ∀ p ∈ ps, p.length < 2 ^ 64)
    (hb : b <+: response101 (expected c.key) ++ ps.flatMap fun p => (serverFrame opText p).encode) :
    (c.feed b).pc ≠ .raised ∧ (c.feed b).received <+: c.received ++ ps := by
  have hfront := feed_front hb (by rw [feed_session hpc hlen]; intro h; cases h)
  rwa [feed_session hpc hlen] at hfront

/-- A client that has the headers does not ask for them again. -/
theorem headers_onBytes {await : Await} : (c.onBytes await b).pc ≠ .headers buf := by
  cases await <;> simp only [onBytes, readMaskKey, readPayload, onPayload] <;> split_ifs <;> simp

/-- The buffer of a client that waits for the blank line is all it has read. -/
theorem headers_feed (hpc : c.pc = .headers []) (h : (c.feed b).pc = .headers buf) : buf = b := by
  induction b using List.reverseRecOn generalizing buf with
  | nil =>
      rw [feed_nil, hpc] at h
      injection h with h
      exact h.symm
  | append_singleton b x ih =>
      rw [feed_append] at h
      change ((c.feed b).resume [x]).pc = .headers buf at h
      cases hb : (c.feed b).pc with
      | headers buf' =>
          simp only [resume, hb, if_neg (List.cons_ne_nil x []), checkHeaders, ih hb, raise] at h
          split_ifs at h
          injection h with h
          exact h.symm
      | exact n await buf' =>
          simp only [resume, hb, if_neg (List.cons_ne_nil x [])] at h
          split_ifs at h
          exact absurd h headers_onBytes
      | start => simp [resume, hb] at h
      | raised => simp [resume, hb] at h

/-- There is no blank line in it. -/
theorem not_blank_of_headers (hpc : c.pc = .headers []) (h : (c.feed b).pc = .headers buf) :
    ¬ Http.crlf ++ Http.crlf <:+: buf := by
  induction b using List.reverseRecOn generalizing buf with
  | nil =>
      rw [feed_nil, hpc] at h
      injection h with h
      rw [← h]
      decide
  | append_singleton b x ih =>
      rw [feed_append] at h
      change ((c.feed b).resume [x]).pc = .headers buf at h
      cases hb : (c.feed b).pc with
      | headers buf' =>
          simp only [resume, hb, if_neg (List.cons_ne_nil x []), checkHeaders, raise] at h
          split_ifs at h with _ hyes
          injection h with h
          rw [← h]
          exact hyes
      | exact n await buf' =>
          simp only [resume, hb, if_neg (List.cons_ne_nil x [])] at h
          split_ifs at h
          exact absurd h headers_onBytes
      | start => simp [resume, hb] at h
      | raised => simp [resume, hb] at h

end Response

end ScriptClient

end WebSocketDemo
