/-
**The answer to an upgrade request.**

`fetch_http_info` cuts each header line at the first `": "` and looks the key up under one spelling
of its name.  A client may write the name in another case and may put any blanks around the value,
or none; the server then hashes something else and answers with a well-formed response that does not
belong to the key.

Main definitions:

* `UpgradeRequest` — a header section with one key field;
* `expectedAccept` — the value that belongs to a key;
* `keyRead` — what the server takes for the key.

Main results:

* `serverKey_fetchHttpInfo` — **what is hashed is what stands behind `Sec-WebSocket-Key: `**;
* `accept_matches_iff` — **a request is answered with the right accept value exactly when the buffer
  is within the limit and the key field is written like that**, or SHA-1 does not see the
  difference;
* `lower_case_key_mismatch` — a valid request that is answered with the wrong value.
-/

import WebSocketDemo.Execution
import WebSocketDemo.Lib.Http

set_option relaxedAutoImplicit false
set_option autoImplicit false

namespace WebSocketDemo

open ByteOrder

/-! ### What a client sends -/

/-- A header section with exactly one key field. -/
structure UpgradeRequest extends Http.Message where
  keyField : Http.Field
  only_key : fields.filter (fun f => f.isNamed secWebSocketKey) = [keyField]

namespace UpgradeRequest

variable (r : UpgradeRequest)

/-- The key. -/
def key : Bytes := r.keyField.value

theorem keyField_mem : r.keyField ∈ r.fields := by
  have hmem : r.keyField ∈ r.fields.filter fun f => f.isNamed secWebSocketKey := by
    rw [r.only_key]
    exact List.mem_singleton_self _
  exact List.mem_of_mem_filter hmem

/-- The elements of a list value, in lower case. -/
def tokens (value : Bytes) : List Bytes :=
  (value.splitOn 44).map fun t => (t.filter fun b => !Http.isBlank b).map Http.lower

/-- What else RFC 6455 asks of the client's handshake. -/
structure Valid : Prop where
  get : ascii "GET " <+: r.startLine
  version : ascii " HTTP/1.1" <:+ r.startLine
  host : ∃ f ∈ r.fields, f.isNamed (ascii "Host") = true
  upgrade : ∃ f ∈ r.fields, f.isNamed (ascii "Upgrade") = true ∧
    ascii "websocket" ∈ tokens f.value
  connection : ∃ f ∈ r.fields, f.isNamed (ascii "Connection") = true ∧
    ascii "upgrade" ∈ tokens f.value
  webSocketVersion : ∃ f ∈ r.fields, f.isNamed (ascii "Sec-WebSocket-Version") = true ∧
    f.value = ascii "13"
  nonce : ∃ nonce : Bytes, nonce.length = 16 ∧ r.key = base64Encode nonce

end UpgradeRequest

/-- The value that belongs to a key: the digest of the key and `MAGIC_KEY`, most significant byte of
each word first, in Base64. -/
def expectedAccept (key : Bytes) : Option Bytes :=
  (SHA1.hash (key ++ magicKey)).map fun d =>
    base64Encode (d.words.flatMap fun w => bigEndian 4 w.toNat)

/-- A 101 response with a given accept value. -/
def response101 (accept : Bytes) : Bytes :=
  Http.lines [ascii "HTTP/1.1 101 Switching Protocols", ascii "Connection: upgrade",
    ascii "Sec-WebSocket-Accept: " ++ accept, ascii "Upgrade: websocket", []]

theorem response101_injective : Function.Injective response101 := by
  intro accept accept' h
  simpa [response101, Http.lines] using h

/-- How the key field has to begin for the server. -/
def keyPrefix : Bytes := secWebSocketKey ++ ascii ": "

/-- What the server takes for the key, given the line of the key field. -/
def keyRead (line : Bytes) : Bytes :=
  if keyPrefix <+: line then line.drop keyPrefix.length else []

theorem keyRead_sublist (line : Bytes) : (keyRead line).Sublist line := by
  unfold keyRead
  split_ifs
  · exact List.drop_sublist _ _
  · exact List.nil_sublist _

/-! ### The accept value -/

/-- The swapped words are the digest, most significant bytes first. -/
theorem digestBytes_eq (d : Digest) :
    digestBytes d = d.words.flatMap fun w => bigEndian 4 w.toNat := by
  simp only [digestBytes, store32_swap32]

/-- **The accept value is the right one for what was taken for the key.** -/
theorem acceptValue_eq {key : Bytes} (h0 : 0 ∉ key) (hlen : key.length < 2 ^ 32) :
    some (acceptValue key) = expectedAccept key := by
  have hmagic : 0 ∉ magicKey := by decide
  have hnul : 0 ∉ key ++ magicKey := by
    rw [List.mem_append]
    rintro (h | h)
    · exact h0 h
    · exact hmagic h
  have hlength : magicKey.length = 36 := by decide
  have hsome := SHA1.hash_isSome (p := key ++ magicKey) (by
    rw [List.length_append, hlength]
    omega)
  obtain ⟨d, hd⟩ := Option.isSome_iff_exists.1 hsome
  rw [acceptValue, sha1_eq_hash hnul, expectedAccept, hd, Option.map_some, Option.getD_some,
    digestBytes_eq]

/-- A digest can be read off its bytes. -/
theorem digestBytes_inj {d d' : Digest} (h : digestBytes d = digestBytes d') : d = d' := by
  have hword {x y : UInt32} (hxy : bigEndian 4 x.toNat = bigEndian 4 y.toNat) : x = y := by
    have hx : x.toNat < 256 ^ 4 := x.toNat_lt
    have hy : y.toNat < 256 ^ 4 := y.toNat_lt
    rw [← UInt32.toNat_inj, ← ofBigEndian_bigEndian hx, hxy, ofBigEndian_bigEndian hy]
  rw [digestBytes_eq, digestBytes_eq] at h
  simp only [Digest.words, List.flatMap_cons, List.flatMap_nil, List.append_nil] at h
  obtain ⟨ha, h⟩ := List.append_inj h (by simp)
  obtain ⟨hb, h⟩ := List.append_inj h (by simp)
  obtain ⟨hc, h⟩ := List.append_inj h (by simp)
  obtain ⟨hd, he⟩ := List.append_inj h (by simp)
  obtain ⟨a, b, c, d₁, e⟩ := d
  obtain ⟨a', b', c', d', e'⟩ := d'
  rw [Digest.mk.injEq]
  exact ⟨hword ha, hword hb, hword hc, hword hd, hword he⟩

/-- Two keys have the same accept value exactly when they have the same digest. -/
theorem expectedAccept_eq_iff (k k' : Bytes) : expectedAccept k = expectedAccept k' ↔
    SHA1.hash (k ++ magicKey) = SHA1.hash (k' ++ magicKey) := by
  refine Option.map_inj_right fun d d' h => digestBytes_inj ?_
  rw [digestBytes_eq, digestBytes_eq]
  exact base64Encode_inj (by simp [Digest.words]) h

/-- The response of `parse_str`. -/
theorem parseStr_eq (headerMap : HeaderMap) :
    (parseStr headerMap).2 = response101 (acceptValue (serverKey headerMap)) := by
  have h₁ : ascii "HTTP/1.1 101 Switching Protocols\r\n" =
      ascii "HTTP/1.1 101 Switching Protocols" ++ Http.crlf := by decide
  have h₂ : ascii "Connection: upgrade\r\n" = ascii "Connection: upgrade" ++ Http.crlf := by decide
  have h₃ : ascii "\r\n" = Http.crlf := by decide
  have h₄ : ascii "Upgrade: websocket\r\n\r\n" =
      ascii "Upgrade: websocket" ++ (Http.crlf ++ Http.crlf) := by decide
  simp only [parseStr, response101, Http.lines, h₁, h₂, h₃, h₄, List.flatMap_cons,
    List.flatMap_nil, List.append_nil, List.nil_append, List.append_assoc]

/-! ### What is read -/

theorem ascii_separator : ascii ": " = [58, 32] := by decide

section Fields

variable (f : Http.Field) {name : Bytes} (headerMap : HeaderMap)

/-- The blank behind the colon is found where the name ends, if it is there. -/
theorem find_colon_blank {w : Bytes} (h : f.content = 32 :: w) :
    Text.find (ascii ": ") f.line = some f.name.length := by
  have hfront : [58, 32] <+: 58 :: f.content := ⟨w, by rw [h]; rfl⟩
  rw [ascii_separator, Http.Field.line, Text.find_append_of_not_mem (f.not_mem_name (by decide)),
    Text.find_of_starts hfront, Option.map_some, Nat.zero_add]

/-- Otherwise what is found is behind the colon. -/
theorem colon_mem_take {e : ℕ} (h : ∀ w, f.content ≠ 32 :: w)
    (he : Text.find (ascii ": ") f.line = some e) : 58 ∈ f.line.take e := by
  have hnot : ¬ [58, 32] <+: 58 :: f.content := by
    rintro ⟨w, hw⟩
    exact h w (List.cons.inj hw).2.symm
  rw [ascii_separator, Http.Field.line, Text.find_append_of_not_mem (f.not_mem_name (by decide)),
    Text.find_cons_of_not_starts hnot, Option.map_map] at he
  obtain ⟨i, _, rfl⟩ := Option.map_eq_some_iff.1 he
  have hlen : f.name.length < i + 1 + f.name.length := by omega
  rw [Http.Field.line, List.take_append, List.mem_append]
  right
  simp

/-- What a field line adds under a name without a colon: the value, if the name is spelled like that
and a space follows the colon. -/
theorem fetchHeader_line (hname : 58 ∉ name) :
    fetchHeader headerMap (f.line ++ [cr]) name =
      if name ++ ascii ": " <+: f.line then some (f.line.drop (name.length + 2))
      else headerMap name := by
  -- the line begins with the name and the separator exactly when its name is that name
  have hfront : name ++ ascii ": " <+: f.line ↔ f.name = name ∧ ∃ w, f.content = 32 :: w := by
    rw [ascii_separator]
    constructor
    · rintro ⟨w, hw⟩
      rw [List.append_assoc, Http.Field.line] at hw
      obtain ⟨hn, hc⟩ := Text.append_cons_inj hname (f.not_mem_name (by decide)) hw
      exact ⟨hn.symm, w, hc.symm⟩
    · rintro ⟨rfl, w, hw⟩
      exact ⟨w, by rw [Http.Field.line, hw]; simp⟩
  have hne : f.line ++ [cr] ≠ [] := by simp
  have hlast : ¬ (f.line ++ [cr]).getLast? ≠ some cr := by simp
  rw [fetchHeader, if_neg hne, if_neg hlast]
  simp only [List.dropLast_concat]
  by_cases hw : ∃ w, f.content = 32 :: w
  · obtain ⟨w, hw⟩ := hw
    rw [find_colon_blank f hw]
    dsimp only
    rw [show f.line.take f.name.length = f.name from List.take_left]
    by_cases hn : f.name = name
    · rw [if_pos (hfront.2 ⟨hn, w, hw⟩), hn, Function.update_self]
    · rw [if_neg fun hp => hn (hfront.1 hp).1, Function.update_of_ne (Ne.symm hn)]
  · rw [if_neg fun hp => hw (hfront.1 hp).2]
    cases he : Text.find (ascii ": ") f.line with
    | none => rfl
    | some e =>
        have hmem := colon_mem_take f (not_exists.1 hw) he
        refine Function.update_of_ne ?_ _ _
        rintro rfl
        exact hname hmem

/-- A field with another name adds nothing. -/
theorem fetchHeader_of_not_named (hname : 58 ∉ name) (h : f.isNamed name = false) :
    fetchHeader headerMap (f.line ++ [cr]) name = headerMap name := by
  rw [fetchHeader_line f headerMap hname, if_neg]
  rintro ⟨w, hw⟩
  rw [ascii_separator, List.append_assoc, Http.Field.line] at hw
  obtain ⟨rfl, _⟩ := Text.append_cons_inj hname (f.not_mem_name (by decide)) hw
  rw [Http.Field.isNamed, decide_eq_false_iff_not] at h
  exact h rfl

end Fields

/-- The lines of the fields and the line that ends them. -/
def fieldLines (fs : List Http.Field) : List Bytes := fs.map (fun f => f.line ++ [cr]) ++ [[cr]]

theorem fetchHeaders_cons (headerMap : HeaderMap) (f : Http.Field) (fs : List Http.Field) :
    fetchHeaders headerMap (fieldLines (f :: fs)) =
      fetchHeaders (fetchHeader headerMap (f.line ++ [cr])) (fieldLines fs) := by
  have hne : f.line ++ [cr] ≠ [cr] := by
    intro h
    have := congrArg List.length h
    simp only [Http.Field.line, List.length_append, List.length_cons, List.length_nil] at this
    omega
  rw [fieldLines, List.map_cons, List.cons_append, fetchHeaders, if_neg hne]
  rfl

/-- **One field decides**: the others are not recorded under its name. -/
theorem fetchHeaders_fields {name : Bytes} (hname : 58 ∉ name) (headerMap : HeaderMap)
    (fs : List Http.Field) : fetchHeaders headerMap (fieldLines fs) name =
      (fs.filter fun f => f.isNamed name).foldl
        (fun v f => if name ++ ascii ": " <+: f.line then some
          (f.line.drop (name.length + 2)) else v)
        (headerMap name) := by
  induction fs generalizing headerMap with
  | nil => simp [fieldLines, fetchHeaders]
  | cons f fs ih =>
      rw [fetchHeaders_cons, ih]
      cases hf : f.isNamed name with
      | false =>
          rw [fetchHeader_of_not_named f headerMap hname hf, List.filter_cons_of_neg (by simp [hf])]
      | true =>
          rw [fetchHeader_line f headerMap hname, List.filter_cons_of_pos (by simp [hf]),
            List.foldl_cons]

/-- **What the server takes for the key** is what stands behind `Sec-WebSocket-Key: `. -/
theorem serverKey_fetchHttpInfo (r : UpgradeRequest) :
    ∃ headerMap, fetchHttpInfo (fun _ => none) r.encode = (0, headerMap) ∧
      serverKey headerMap = keyRead r.keyField.line := by
  have hlines : Text.getlines lf r.encode = (r.startLine ++ [cr]) :: fieldLines r.fields :=
    r.getlines_encode
  refine ⟨fetchHeaders (fun _ => none) (fieldLines r.fields), ?_, ?_⟩
  · rw [fetchHttpInfo, hlines]
    simp
  · have hname : 58 ∉ secWebSocketKey := by decide
    have hlen : (ascii ": ").length = 2 := by decide
    rw [serverKey, fetchHeaders_fields hname, r.only_key, List.foldl_cons, List.foldl_nil, keyRead,
      keyPrefix, List.length_append, hlen]
    split_ifs <;> rfl

/-! ### The upgrade -/

section Upgrade

variable {once : Prop} {v v' : View} {g : List Frame} {a : List Obs}

/-- `fetch_http_info` fails before it records anything. -/
theorem fetchHttpInfo_of_ne_zero {headerMap : HeaderMap} {rawHeaders : Bytes}
    (h : (fetchHttpInfo headerMap rawHeaders).1 ≠ 0) :
    (fetchHttpInfo headerMap rawHeaders).2 = headerMap := by
  unfold fetchHttpInfo at h ⊢
  cases hlines : Text.getlines lf rawHeaders with
  | nil => rfl
  | cons request rest =>
      rw [hlines] at h
      dsimp only at h ⊢
      split_ifs at h ⊢
      · rfl
      · exact absurd rfl h
      · rfl

/-- Before the upgrade nothing has been read into `header_map_`. -/
def NoHeaders (v : View) : Prop :=
  v.handler.status = .unconnect → v.handler.headerMap = fun _ => none

theorem NoHeaders.step (h : NoHeaders v) (hs : ConnStep once v g a v') : NoHeaders v' := by
  cases hs with
  | quiet hm =>
      rw [NoHeaders, hm.handler]
      exact h
  | reject readBuf headerMap _ hu hup =>
      intro _
      have hsame : headerMap = v.handler.headerMap := by
        unfold WebsocketHandler.upgrade at hup
        split_ifs at hup
        · injection hup with _ hm
          exact hm.symm
        · split at hup
          · cases hup
          · dsimp only at hup
            split_ifs at hup with hret
            injection hup with _ hm
            rw [← hm]
            exact fetchHttpInfo_of_ne_zero hret
      exact hsame.trans (h hu)
  | upgrade headerMap rest _ _ _ _ =>
      intro hu
      cases hu
  | handle f rest request _ hs _ =>
      intro hu
      simp [hs] at hu
  | relay f _ hs _ =>
      intro hu
      simp [hs] at hu
  | _ => exact h

variable {ok : Loop → Input → Prop} {listenfd : Fd} {s : Loop} {fd : Fd} {es : List EpollEvent}
  {h : WebsocketHandler}

theorem Loop.noHeaders (hok : Promises ok once) (hr : Reachable ok listenfd s)
    (hfd : s.worker.websocketHandlerMap fd = some h) : NoHeaders (s.view fd h) :=
  conn_induction (P := fun _ v => NoHeaders v) hok (fun _ _ _ _ _ _ _ => rfl)
    (fun _ _ _ _ _ _ _ _ hs hn => hn.step hs) hr fd h hfd

/-- **A header block is answered in one step.**  It ends at the first blank line, what is behind it
is left to the frame loop, and the response follows from the fields read. -/
theorem Loop.accepts_block (hok : Promises ok once) (hr : Reachable ok listenfd s)
    (hpc : s.pc = .reading fd es) (hfd : s.worker.websocketHandlerMap fd = some h)
    (hu : h.status = .unconnect) {block rest : Bytes} {headerMap : HeaderMap}
    (hbuf : h.readBuf = block ++ rest) (hlen : h.readBuf.length ≤ wsMaxHandshakeBytes)
    (hfour : 4 ≤ block.length)
    (hfind : Text.find NetworkInterface.crlfCrlf (block ++ rest) = some (block.length - 4))
    (hfetch : fetchHttpInfo (fun _ => none) block = (0, headerMap)) :
    ∃ w', s.worker.driveIoUpgrade fd = (w', true) ∧
      s.step .readAgain = some ⟨w', .frames fd es⟩ ∧
      s.worker.Upgrades fd h headerMap rest w' := by
  have hwf := reachable_wellFormed hok hr
  have hempty : h.headerMap = fun _ => none := noHeaders hok hr hfd hu
  have hup : h.upgrade = .accept headerMap rest := by
    have hnot : ¬ h.readBuf.length > wsMaxHandshakeBytes := Nat.not_lt.2 hlen
    rw [← hbuf] at hfind
    rw [WebsocketHandler.upgrade, if_neg hnot, hfind]
    dsimp only
    rw [Nat.sub_add_cancel hfour, hbuf, List.take_left, List.drop_left, hempty, hfetch]
    rfl
  obtain ⟨hlisten, _⟩ := hwf.pc.current fd (by rw [hpc]; rfl)
  obtain ⟨w', hdrive, hupgrades⟩ := NetworkInterface.driveIoUpgrade_accept hfd hu
    (hwf.worker.own fd h hfd) hlisten (hwf.worker.nonneg fd h hfd hlisten)
    (hwf.worker.writeBuf fd h hfd hu) hup
  refine ⟨w', hdrive, ?_, hupgrades⟩
  simp only [step, hpc, hdrive, afterUpgrade]

/-- The first thing the connection is offered is a 101 response with this accept value. -/
def Loop.Answers (s t : Loop) (fd : Fd) (h : WebsocketHandler) (rest accept : Bytes) : Prop :=
  (∃ headerMap, t.worker.trace = s.worker.trace ++ [.upgraded h.conn headerMap rest,
      .offered h.conn (response101 accept) true true, .registered h.conn]) ∧
    (t.worker.websocketHandlerMap fd).map WebsocketHandler.writeBuf = some (response101 accept)

/-- There is one accept value in an answer. -/
theorem Loop.Answers.unique {t : Loop} {rest accept accept' : Bytes}
    (ha : s.Answers t fd h rest accept) (ha' : s.Answers t fd h rest accept') : accept = accept' :=
  response101_injective (Option.some.inj (ha.2.symm.trans ha'.2))

/-- **A request is answered in one step**, with the accept value of what is read for the key. -/
theorem Loop.answers_request (hok : Promises ok once) (hr : Reachable ok listenfd s)
    (hpc : s.pc = .reading fd es) (hfd : s.worker.websocketHandlerMap fd = some h)
    (hu : h.status = .unconnect) (r : UpgradeRequest) (rest : Bytes)
    (hbuf : h.readBuf = r.encode ++ rest) (hlen : h.readBuf.length ≤ wsMaxHandshakeBytes) :
    ∃ t, s.step .readAgain = some t ∧
      s.Answers t fd h rest (acceptValue (keyRead r.keyField.line)) := by
  obtain ⟨headerMap, hfetch, hkey⟩ := serverKey_fetchHttpInfo r
  obtain ⟨w', _, hstep, hupgrades⟩ := accepts_block hok hr hpc hfd hu hbuf hlen r.four_le_length
    (r.find_blank rest) hfetch
  have hresponse : (parseStr headerMap).2 = response101
      (acceptValue (keyRead r.keyField.line)) := by
    rw [parseStr_eq, hkey]
  refine ⟨⟨w', .frames fd es⟩, hstep, ⟨headerMap, ?_⟩, ?_⟩
  · rw [← hresponse]
    exact hupgrades.trace
  · rw [hupgrades.map, Function.update_self, Option.map_some, WebsocketHandler.upgraded, hresponse]

/-- **A buffer beyond the limit is turned down on its length alone**, also when it begins with a
request that is within the limit itself. -/
theorem Loop.rejects_oversized (hok : Promises ok once) (hr : Reachable ok listenfd s)
    (hpc : s.pc = .reading fd es) (hfd : s.worker.websocketHandlerMap fd = some h)
    (hu : h.status = .unconnect) (hlen : wsMaxHandshakeBytes < h.readBuf.length) :
    s.step .readAgain = some ⟨(s.worker.emit (.rejected h.conn)).queueClose fd, .batch es⟩ := by
  have hown := (reachable_wellFormed hok hr).worker.own fd h hfd
  have hdrive : s.worker.driveIoUpgrade fd =
      ((s.worker.emit (.rejected h.conn)).queueClose fd, false) := by
    simp [NetworkInterface.driveIoUpgrade, hfd, hu, hlen, hown]
  simp only [step, hpc, hdrive, afterUpgrade]

/-- **When the accept value is right.**  Whatever a client on any connection sends that begins with
a header section with one key field, of at most `WS_MAX_HANDSHAKE_BYTES`, is answered with a 101
response exactly when the bytes pipelined behind it leave the buffer within that limit, too.  The
accept value is the one that belongs to the key exactly when besides the key field is the line
`Sec-WebSocket-Key: ` and the key, or SHA-1 gives the same digest for what is read instead. -/
theorem accept_matches_iff (hr : Loop.Reachable Loop.AnyBatch listenfd s)
    (hpc : s.pc = .reading fd es) (hfd : s.worker.websocketHandlerMap fd = some h)
    (hu : h.status = .unconnect) (r : UpgradeRequest) (rest : Bytes)
    (hbuf : h.readBuf = r.encode ++ rest) (hlen : r.encode.length ≤ wsMaxHandshakeBytes) :
    ∃ t, s.step .readAgain = some t ∧
      ((∃ accept, s.Answers t fd h rest accept) ↔ h.readBuf.length ≤ wsMaxHandshakeBytes) ∧
      ((∃ accept, s.Answers t fd h rest accept ∧ some accept = expectedAccept r.key) ↔
        h.readBuf.length ≤ wsMaxHandshakeBytes ∧
          (r.keyField.line = keyPrefix ++ r.key ∨
            SHA1.hash (keyRead r.keyField.line ++ magicKey) =
              SHA1.hash (r.key ++ magicKey))) := by
  rcases Nat.lt_or_ge wsMaxHandshakeBytes h.readBuf.length with hlong | hfits
  · have hstep := Loop.rejects_oversized Loop.promises_anyBatch hr hpc hfd hu hlong
    have hnone (accept : Bytes) :
        ¬ s.Answers ⟨(s.worker.emit (.rejected h.conn)).queueClose fd, .batch es⟩ fd h rest
          accept := by
      rintro ⟨⟨headerMap, htrace⟩, _⟩
      simp at htrace
    refine ⟨_, hstep, iff_of_false ?_ (Nat.not_le.2 hlong), iff_of_false ?_ ?_⟩
    · exact fun ⟨accept, ha⟩ => hnone accept ha
    · exact fun ⟨accept, ha, _⟩ => hnone accept ha
    · exact fun hshort => absurd hshort.1 (Nat.not_le.2 hlong)
  · obtain ⟨t, hstep, ha⟩ :=
      Loop.answers_request Loop.promises_anyBatch hr hpc hfd hu r rest hbuf hfits
    -- a field line has no NUL, at which the C string would end
    have hnul : 0 ∉ keyRead r.keyField.line := by
      intro hm
      exact r.keyField.not_mem_line (by decide) (by decide) (by decide)
        ((keyRead_sublist r.keyField.line).subset hm)
    have hshort : (keyRead r.keyField.line).length < 2 ^ 32 := by
      have hline := r.length_line_le r.keyField_mem
      have hle := (keyRead_sublist r.keyField.line).length_le
      rw [wsMaxHandshakeBytes] at hlen
      omega
    have hright : some (acceptValue (keyRead r.keyField.line)) = expectedAccept r.key ↔
        r.keyField.line = keyPrefix ++ r.key ∨
          SHA1.hash (keyRead r.keyField.line ++ magicKey) = SHA1.hash (r.key ++ magicKey) := by
      rw [acceptValue_eq hnul hshort, expectedAccept_eq_iff]
      constructor
      · exact Or.inr
      · rintro (hline | hhash)
        · rw [hline, keyRead, if_pos (List.prefix_append _ _), List.drop_left]
        · exact hhash
    refine ⟨t, hstep, iff_of_true ⟨_, ha⟩ hfits, ?_⟩
    rw [← hright]
    constructor
    · rintro ⟨accept, ha', haccept⟩
      exact ⟨hfits, by rwa [ha.unique ha']⟩
    · exact fun hvalue => ⟨_, ha, hvalue.2⟩

end Upgrade

/-! ### Two spellings -/

/-- A field with one space in front of the value. -/
def plainField (name value : Bytes) (hname : name ≠ [] ∧ name.all Http.isTchar = true)
    (hvalue : value.all Http.isText = true ∧ value.head?.any Http.isBlank = false ∧
      value.getLast?.any Http.isBlank = false) : Http.Field where
  name := name
  before := [32]
  value := value
  after := []
  name_ne := hname.1
  name_tchar := List.all_eq_true.1 hname.2
  before_blank := List.forall_mem_singleton.2 rfl
  value_text := List.all_eq_true.1 hvalue.1
  value_head := fun b hb => by simpa [Option.mem_def.1 hb] using hvalue.2.1
  value_last := fun b hb => by simpa [Option.mem_def.1 hb] using hvalue.2.2
  after_blank := List.forall_mem_nil _

def hostField : Http.Field :=
  plainField (ascii "Host") (ascii "localhost") (by decide) (by decide)

def upgradeField : Http.Field :=
  plainField (ascii "Upgrade") (ascii "websocket") (by decide) (by decide)

def connectionField : Http.Field :=
  plainField (ascii "Connection") (ascii "Upgrade") (by decide) (by decide)

def versionField : Http.Field :=
  plainField (ascii "Sec-WebSocket-Version") (ascii "13") (by decide) (by decide)

/-- A handshake with a given key field. -/
def handshakeWith (f : Http.Field) (h : f.isNamed secWebSocketKey = true) : UpgradeRequest where
  startLine := ascii "GET /chat HTTP/1.1"
  fields := [hostField, upgradeField, connectionField, f, versionField]
  startLine_ne := by decide
  startLine_text := List.all_eq_true.1 (by decide)
  keyField := f
  only_key := by
    have h₁ : hostField.isNamed secWebSocketKey = false := by decide
    have h₂ : upgradeField.isNamed secWebSocketKey = false := by decide
    have h₃ : connectionField.isNamed secWebSocketKey = false := by decide
    have h₄ : versionField.isNamed secWebSocketKey = false := by decide
    simp [h, h₁, h₂, h₃, h₄]

/-- It is what RFC 6455 asks for when the key is. -/
theorem valid_handshakeWith (f : Http.Field) (h : f.isNamed secWebSocketKey = true)
    (hkey : ∃ nonce : Bytes, nonce.length = 16 ∧ f.value = base64Encode nonce) :
    (handshakeWith f h).Valid where
  get := show ascii "GET " <+: ascii "GET /chat HTTP/1.1" by decide
  version := show ascii " HTTP/1.1" <:+ ascii "GET /chat HTTP/1.1" by decide
  host := ⟨hostField, by simp [handshakeWith], by decide⟩
  upgrade := ⟨upgradeField, by simp [handshakeWith], by decide, by decide⟩
  connection := ⟨connectionField, by simp [handshakeWith], by decide, by decide⟩
  webSocketVersion := ⟨versionField, by simp [handshakeWith], by decide, rfl⟩
  nonce := hkey

/-- The sample handshake of RFC 6455. -/
def sampleRequest : UpgradeRequest :=
  handshakeWith
    (plainField (ascii "Sec-WebSocket-Key") (ascii "dGhlIHNhbXBsZSBub25jZQ==") (by decide)
      (by decide))
    (by decide)

/-- The same with the name of the key field in lower case. -/
def lowerCaseRequest : UpgradeRequest :=
  handshakeWith
    (plainField (ascii "sec-websocket-key") (ascii "dGhlIHNhbXBsZSBub25jZQ==") (by decide)
      (by decide))
    (by decide)

theorem isChunk_requests : Loop.IsChunk sampleRequest.encode ∧
    Loop.IsChunk lowerCaseRequest.encode := by
  unfold Loop.IsChunk
  decide +kernel

theorem length_le_of_isChunk {b : Bytes} (hb : Loop.IsChunk b) : b.length ≤ wsMaxHandshakeBytes :=
  hb.2.trans (by decide)

/-- A client has sent `b` on a fresh connection, and it has been read. -/
theorem exists_sent {b : Bytes} (hb : Loop.IsChunk b) : ∃ s h,
    Loop.Reachable Loop.EpollContract 3 s ∧ s.pc = .reading 5 [] ∧
      s.worker.websocketHandlerMap 5 = some h ∧ h.conn = 1 ∧ h.status = .unconnect ∧
      h.readBuf = b ∧ offers (about 1 s.worker.trace) = [] := by
  have hrun : ((Loop.init 3).exec [.epollWait [⟨3, epollIn⟩], .tau, .accept 5, .acceptFail, .tau,
      .epollWait [⟨5, epollIn⟩], .tau]).map (fun s =>
        (decide (s.pc = .reading 5 [] ∧ offers (about 1 s.worker.trace) = []),
          (s.worker.websocketHandlerMap 5).map fun h => (h.conn, h.status, h.readBuf))) =
      some (true, some (1, .unconnect, [])) := by
    decide +kernel
  obtain ⟨s, hr, hs⟩ := Loop.reachable_of_exec _ hrun
  injection hs with hfacts hmap
  obtain ⟨h, hfd, hh⟩ := Option.map_eq_some_iff.1 hmap
  simp only [Prod.mk.injEq] at hh
  obtain ⟨hpc, hoffers⟩ := of_decide_eq_true hfacts
  have hstep := Loop.step_read_fits hpc hfd hb (by
    have hle : readChunk ≤ wsMaxReadBuffer := by decide
    rw [hh.2.2]
    simpa using hb.2.trans hle)
  refine ⟨_, _, Transition.Reaches.tail (.read b) hr trivial hstep, hpc, Loop.reads_map _, hh.1,
    hh.2.1, by simp [hh.2.2], ?_⟩
  have hquiet : offers (about 1 [.received h.conn b]) = [] := by
    rw [hh.1]
    rfl
  rw [show (s.reads 5 h [b]).worker.trace = s.worker.trace ++ [.received h.conn b] from rfl,
    about_append, offers_append, hoffers, hquiet]
  rfl

/-- The sample handshake is answered as RFC 6455 says. -/
theorem accept_matches_iff_sample : ∃ s t h accept, Loop.Reachable Loop.AnyBatch 3 s ∧
    s.worker.websocketHandlerMap 5 = some h ∧ h.readBuf = sampleRequest.encode ∧
    s.step .readAgain = some t ∧ s.Answers t 5 h [] accept ∧
    some accept = expectedAccept sampleRequest.key := by
  obtain ⟨s, h, hr, hpc, hfd, _, hu, hbuf, _⟩ := exists_sent isChunk_requests.1
  have hlen := length_le_of_isChunk isChunk_requests.1
  obtain ⟨t, hstep, _, hiff⟩ := accept_matches_iff (Loop.reachable_anyBatch hr)
    hpc hfd hu sampleRequest [] (by rw [hbuf, List.append_nil]) hlen
  obtain ⟨accept, ha, hvalue⟩ := hiff.2 ⟨by rwa [hbuf], Or.inl (by decide)⟩
  exact ⟨s, t, h, accept, Loop.reachable_anyBatch hr, hfd, hbuf, hstep, ha, hvalue⟩

/-- **A valid request in lower case is answered with the wrong accept value**, that of the empty
key. -/
theorem lower_case_key_mismatch : ∃ s t h, Loop.Reachable Loop.EpollContract 3 s ∧
    s.worker.websocketHandlerMap 5 = some h ∧ h.status = .unconnect ∧ lowerCaseRequest.Valid ∧
    h.readBuf = lowerCaseRequest.encode ∧ h.readBuf.length ≤ wsMaxHandshakeBytes ∧
    s.step .readAgain = some t ∧
    offers (about h.conn t.worker.trace) =
      [⟨response101 (ascii "Kfh9QIsMVZcl6xEPYxPHzW8SZ8w="), true, true⟩] ∧
    expectedAccept lowerCaseRequest.key = some (ascii "s3pPLMBiTxaQ9kYGzzhZRbK+xOo=") := by
  obtain ⟨s, h, hr, hpc, hfd, hconn, hu, hbuf, hoffers⟩ := exists_sent isChunk_requests.2
  have hlen : h.readBuf.length ≤ wsMaxHandshakeBytes := by
    rw [hbuf]
    exact length_le_of_isChunk isChunk_requests.2
  have hvalid : lowerCaseRequest.Valid :=
    valid_handshakeWith _ _ ⟨ascii "the sample nonce", by decide, by decide⟩
  obtain ⟨t, hstep, ⟨headerMap, htrace⟩, _⟩ := Loop.answers_request Loop.promises_epollContract hr
    hpc hfd hu lowerCaseRequest [] (by rw [hbuf, List.append_nil]) hlen
  have hread : keyRead lowerCaseRequest.keyField.line = [] := by decide
  have hvalue : acceptValue [] = ascii "Kfh9QIsMVZcl6xEPYxPHzW8SZ8w=" := by decide +kernel
  have haccept : expectedAccept lowerCaseRequest.key =
      some (ascii "s3pPLMBiTxaQ9kYGzzhZRbK+xOo=") := by
    decide +kernel
  refine ⟨s, t, h, hr, hfd, hu, hvalid, hbuf, hlen, hstep, ?_, haccept⟩
  rw [htrace, hconn, hread, hvalue, about_append, offers_append, hoffers]
  rfl

end WebSocketDemo
