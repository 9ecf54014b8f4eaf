/-
**Header parsing undoes header rendering.**

`drive_io` cuts the buffer behind the first blank line by a search for `"\r\n\r\n"`, and
`fetch_http_info` reads the block line by line, splits each line at its first `": "` and stops at
the line that is only a CR.  On the rendering of a list of pairs the two agree: the block is cut
where the rendering ends, and the map read is the one the list stands for, in which a later pair
wins.

Main definitions:

* `HeaderPair`, `HeaderBlock` — a request line and pairs that can be told apart again;
* `HeaderBlock.render`, `HeaderBlock.lastWins` — the bytes, and the map they stand for.

Main results:

* `fetchHttpInfo_render` — **the fields are read back**;
* `header_round_trip` — **the upgrade cuts off the block and reads it back**.
-/

import WebSocketDemo.UpgradeRequest

set_option relaxedAutoImplicit false
set_option autoImplicit false

namespace WebSocketDemo

open ByteOrder

/-- A key and a value that make up a header line. -/
structure HeaderPair where
  key : Bytes
  value : Bytes
  key_ne : key ≠ []
  key_not_cr : cr ∉ key
  key_not_lf : lf ∉ key
  key_sep : ¬ ascii ": " <:+: key
  value_not_cr : cr ∉ value
  value_not_lf : lf ∉ value

namespace HeaderPair

variable (p : HeaderPair)

/-- The line of a pair. -/
def line : Bytes := p.key ++ (ascii ": " ++ p.value)

theorem isLine_line : Http.IsLine p.line where
  ne_nil := by simp [line, p.key_ne]
  not_cr := by
    have hsep : cr ∉ ascii ": " := by decide
    simp only [line, List.mem_append, not_or]
    exact ⟨p.key_not_cr, hsep, p.value_not_cr⟩
  not_lf := by
    have hsep : lf ∉ ascii ": " := by decide
    simp only [line, List.mem_append, not_or]
    exact ⟨p.key_not_lf, hsep, p.value_not_lf⟩

/-- **The separator is found behind the key**, whatever the value holds. -/
theorem find_separator : Text.find (ascii ": ") p.line = some p.key.length := by
  refine Text.find_append_of_not_infix ?_ p.value
  have hsep := p.key_sep
  rw [ascii_separator] at hsep ⊢
  rw [List.dropLast_cons_of_ne_nil (List.cons_ne_nil _ _), List.dropLast_singleton,
    List.infix_concat_iff]
  rintro (hend | hin)
  · -- a colon is not the end of the separator
    obtain ⟨u, hu⟩ := hend
    have hlast := congrArg List.getLast? hu
    simp at hlast
  · exact hsep hin

/-- The line of a pair is read back. -/
theorem fetchHeader_line (headerMap : HeaderMap) :
    fetchHeader headerMap (p.line ++ [cr]) = Function.update headerMap p.key (some p.value) := by
  have hne : p.line ++ [cr] ≠ [] := by simp
  have hlast : ¬ (p.line ++ [cr]).getLast? ≠ some cr := by simp
  have hkey : p.line.take p.key.length = p.key := List.take_left
  have hvalue : p.line.drop (p.key.length + 2) = p.value := by
    rw [line, ← List.drop_drop, List.drop_left]
    rfl
  rw [fetchHeader, if_neg hne, if_neg hlast]
  simp only [List.dropLast_concat, find_separator]
  rw [hkey, hvalue]

end HeaderPair

/-- A request line and a list of pairs. -/
structure HeaderBlock where
  requestLine : Bytes
  isLine_requestLine : Http.IsLine requestLine
  pairs : List HeaderPair

/-- The map a list of pairs stands for: the last pair with a key has its value. -/
def lastWins (pairs : List HeaderPair) : HeaderMap :=
  fun k => (pairs.reverse.map fun p => (p.key, p.value)).lookup k

theorem lastWins_append (pairs : List HeaderPair) (p : HeaderPair) :
    lastWins (pairs ++ [p]) = Function.update (lastWins pairs) p.key (some p.value) := by
  funext k
  rw [lastWins, List.reverse_append, List.reverse_singleton, List.singleton_append, List.map_cons,
    List.lookup_cons]
  by_cases hk : k = p.key
  · subst hk
    simp
  · have hne : (k == p.key) = false := beq_false_of_ne hk
    rw [hne, Function.update_of_ne hk]
    rfl

namespace HeaderBlock

variable (b : HeaderBlock)

/-- The lines that are not blank. -/
def contentLines : List Bytes := b.requestLine :: b.pairs.map HeaderPair.line

/-- **The rendering**: each line ended by CRLF, and a blank line. -/
def render : Bytes := Http.lines b.contentLines ++ Http.crlf

/-- The map the block stands for. -/
def lastWins : HeaderMap := WebSocketDemo.lastWins b.pairs

theorem isLine_of_mem {l : Bytes} (h : l ∈ b.contentLines) : Http.IsLine l := by
  rcases List.mem_cons.1 h with rfl | h
  · exact b.isLine_requestLine
  · obtain ⟨p, _, rfl⟩ := List.mem_map.1 h
    exact p.isLine_line

/-- The first blank line is the end of the rendering. -/
theorem find_blank (t : Bytes) :
    Text.find NetworkInterface.crlfCrlf (b.render ++ t) = some (b.render.length - 4) :=
  Http.find_end (fun _ => b.isLine_of_mem) (List.cons_ne_nil _ _) t

theorem four_le_length : 4 ≤ b.render.length := Http.four_le_length_end (List.cons_ne_nil _ _)

/-- The lines `std::getline` returns. -/
theorem getlines_render : Text.getlines lf b.render =
    (b.requestLine ++ [cr]) :: (b.pairs.map (fun p => p.line ++ [cr]) ++ [[cr]]) := by
  refine (Http.getlines_end fun _ => b.isLine_of_mem).trans ?_
  rw [contentLines, List.map_cons, List.map_map]
  rfl

end HeaderBlock

/-- The loop over the lines enters the pairs one by one. -/
theorem fetchHeaders_pairs (headerMap : HeaderMap) (ps : List HeaderPair) :
    fetchHeaders headerMap (ps.map (fun p => p.line ++ [cr]) ++ [[cr]]) =
      ps.foldl (fun (m : HeaderMap) p => Function.update m p.key (some p.value)) headerMap := by
  induction ps generalizing headerMap with
  | nil => simp [fetchHeaders]
  | cons p ps ih =>
      have hne : p.line ++ [cr] ≠ [cr] := by
        intro he
        exact p.isLine_line.ne_nil (List.append_left_eq_self.1 he)
      rw [List.map_cons, List.cons_append, fetchHeaders, if_neg hne, p.fetchHeader_line, ih,
        List.foldl_cons]

theorem foldl_update_eq_lastWins (ps : List HeaderPair) :
    ps.foldl (fun (m : HeaderMap) p => Function.update m p.key (some p.value)) (fun _ => none) =
      lastWins ps := by
  induction ps using List.reverseRecOn with
  | nil => rfl
  | append_singleton ps p ih =>
      rw [List.foldl_append, ih, lastWins_append, List.foldl_cons, List.foldl_nil]

/-- **The fields are read back.** -/
theorem fetchHttpInfo_render (b : HeaderBlock) :
    fetchHttpInfo (fun _ => none) b.render = (0, b.lastWins) := by
  have hne : b.requestLine ++ [cr] ≠ [] := by simp
  have hlast : (b.requestLine ++ [cr]).getLast? = some cr := by simp
  rw [fetchHttpInfo, b.getlines_render]
  dsimp only
  rw [if_neg hne, if_pos hlast, fetchHeaders_pairs, foldl_update_eq_lastWins]
  rfl

section Upgrade

variable {listenfd fd : Fd} {s : Loop} {es : List EpollEvent} {h : WebsocketHandler}

/-- **Header parsing undoes header rendering.**  When `drive_io` is called on an unconnected handler
whose buffer holds a rendering and a tail, at most `WS_MAX_HANDSHAKE_BYTES` together, the block cut
off is the rendering and the frame loop is given the tail; `fetch_http_info` returns 0 and leaves in
`header_map_` what the list of pairs stands for, to which `parse_str` then adds the entry it looks
up, when there is none. -/
theorem header_round_trip (hr : Loop.Reachable Loop.AnyBatch listenfd s)
    (hpc : s.pc = .reading fd es) (hfd : s.worker.websocketHandlerMap fd = some h)
    (hu : h.status = .unconnect) (b : HeaderBlock) (t : Bytes) (hbuf : h.readBuf = b.render ++ t)
    (hlen : (b.render ++ t).length ≤ wsMaxHandshakeBytes) :
    (∃ pos, Text.find NetworkInterface.crlfCrlf h.readBuf = some pos ∧
      h.readBuf.take (pos + 4) = b.render ∧ h.readBuf.drop (pos + 4) = t) ∧
    fetchHttpInfo h.headerMap b.render = (0, b.lastWins) ∧
    ∃ w' h', s.worker.driveIoUpgrade fd = (w', true) ∧
      s.step .readAgain = some ⟨w', .frames fd es⟩ ∧
      w'.websocketHandlerMap fd = some h' ∧ h'.status = .handsharked ∧ h'.readBuf = t ∧
      (∃ response, w'.trace = s.worker.trace ++ [.upgraded h.conn b.lastWins t,
        .offered h.conn response true true, .registered h.conn]) ∧
      h'.headerMap = Function.update b.lastWins secWebSocketKey
        (some ((b.lastWins secWebSocketKey).getD [])) := by
  have hfind := b.find_blank t
  have hcut : b.render.length - 4 + 4 = b.render.length := Nat.sub_add_cancel b.four_le_length
  refine ⟨⟨_, by rw [hbuf]; exact hfind, ?_, ?_⟩, ?_, ?_⟩
  · rw [hcut, hbuf, List.take_left]
  · rw [hcut, hbuf, List.drop_left]
  · have hempty : h.headerMap = fun _ => none := Loop.noHeaders Loop.promises_anyBatch hr hfd hu
    rw [hempty, fetchHttpInfo_render]
  · obtain ⟨w', hdrive, hstep, hup⟩ := Loop.accepts_block Loop.promises_anyBatch hr hpc hfd hu hbuf
      (by rw [hbuf]; exact hlen) b.four_le_length hfind (fetchHttpInfo_render b)
    refine ⟨w', h.upgraded b.lastWins t, hdrive, hstep, ?_, rfl, rfl, ⟨_, hup.trace⟩, rfl⟩
    rw [hup.map, Function.update_self]

/-- A key that comes twice, an empty value, and a value with a separator in it. -/
def sampleBlock : HeaderBlock where
  requestLine := ascii "GET / HTTP/1.1"
  isLine_requestLine := ⟨by decide, by decide, by decide⟩
  pairs := [
    ⟨ascii "A", ascii "1", by decide, by decide, by decide, by decide, by decide, by decide⟩,
    ⟨ascii "B:", ascii "x: y", by decide, by decide, by decide, by decide, by decide, by decide⟩,
    ⟨ascii "A", [], by decide, by decide, by decide, by decide, by decide, by decide⟩]

/-- The block is read with a frame behind it. -/
theorem header_round_trip_sample : ∃ s h w' h', Loop.Reachable Loop.AnyBatch 3 s ∧
    s.worker.websocketHandlerMap 5 = some h ∧ h.readBuf = sampleBlock.render ++ hiFrame.encode ∧
    s.worker.driveIoUpgrade 5 = (w', true) ∧ w'.websocketHandlerMap 5 = some h' ∧
    h'.readBuf = hiFrame.encode ∧ h'.headerMap (ascii "A") = some [] ∧
    h'.headerMap (ascii "B:") = some (ascii "x: y") := by
  have hchunk : Loop.IsChunk (sampleBlock.render ++ hiFrame.encode) := by
    unfold Loop.IsChunk
    decide
  obtain ⟨s, h, hr, hpc, hfd, _, hu, hbuf, _⟩ := exists_sent hchunk
  have hr' := Loop.reachable_anyBatch hr
  obtain ⟨_, _, w', h', hdrive, _, hmap, _, hread, _, hheaders⟩ :=
    header_round_trip hr' hpc hfd hu sampleBlock hiFrame.encode hbuf (length_le_of_isChunk hchunk)
  have hA : ascii "A" ≠ secWebSocketKey := by decide
  have hB : ascii "B:" ≠ secWebSocketKey := by decide
  refine ⟨s, h, w', h', hr', hfd, hbuf, hdrive, hmap, hread, ?_, ?_⟩
  · rw [hheaders, Function.update_of_ne hA]
    decide
  · rw [hheaders, Function.update_of_ne hB]
    decide

end Upgrade

end WebSocketDemo
