/-
**Room for one more read.**

`WS_MAX_READ_BUFFER` is the longest payload and `READ_CHUNK` more.  What `drive_io` leaves in
`read_buf_` is a frame cut short, and a frame is up to 14 bytes longer than its payload.  So a full
chunk always fits behind it, but for the parts of the longest frames from which less than 14 bytes
are missing.

Main results:

* `residual_room` — **what is left is part of one frame, and a read of `READ_CHUNK - 13` bytes
  fits behind it**;
* `chunk_refused` — a state in which a read of `READ_CHUNK` bytes does not.
-/

import WebSocketDemo.Overflow

set_option relaxedAutoImplicit false
set_option autoImplicit false

namespace WebSocketDemo

open PrefixDecoder Rfc6455

/-! ### A stream of frames cut short -/

section Stream

variable {fs : List WireFrame} {b r : Bytes} {xs : List Frame}

/-- A frame within the limit is decoded. -/
theorem next_of_mem (hfs : ∀ f ∈ fs, f.payload.length ≤ wsMaxPayloadBytes) :
    ∀ f ∈ fs, ∀ rest, frameDecoder.next (f.encode ++ rest) = .item (wireContent f) rest :=
  fun f hf rest => frameSpec_encode f (hfs f hf) rest

/-- What is left of such a stream is part of one frame. -/
theorem part_of_decodes (hfs : ∀ f ∈ fs, f.payload.length ≤ wsMaxPayloadBytes)
    (hb : b <+: fs.flatMap WireFrame.encode) (hd : frameDecoder.Decodes b xs r)
    (hr : frameDecoder.Stuck r) : r = [] ∨ ∃ f ∈ fs, r <+: f.encode ∧ r ≠ f.encode := by
  obtain ⟨us, vs, rfl, _, hfront⟩ := hd.of_prefix (next_of_mem hfs) hb
  cases vs with
  | nil => exact Or.inl (List.prefix_nil.1 hfront)
  | cons f vs =>
      have hmem : f ∈ us ++ f :: vs := List.mem_append_right _ List.mem_cons_self
      have hwhole : ¬ f.encode <+: r := by
        rintro ⟨rest, rfl⟩
        exact hr _ _ (next_of_mem hfs f hmem rest)
      rw [List.flatMap_cons] at hfront
      refine Or.inr ⟨f, hmem, ?_, fun he => hwhole (by rw [he])⟩
      exact (List.prefix_or_prefix_of_prefix hfront (List.prefix_append _ _)).resolve_right hwhole

/-- The parser asks for more of it. -/
theorem more_of_decodes (hfs : ∀ f ∈ fs, f.payload.length ≤ wsMaxPayloadBytes)
    (hb : b <+: fs.flatMap WireFrame.encode) (hd : frameDecoder.Decodes b xs r)
    (hr : frameDecoder.Stuck r) : frameSpec r = .more := by
  obtain ⟨us, vs, rfl, _, hfront⟩ := hd.of_prefix (next_of_mem hfs) hb
  have hnotbad : frameDecoder.next r ≠ .bad :=
    Decoder.next_ne_bad_of_prefix (fun hbad => by cases hbad)
      (fun f hf => next_of_mem hfs f (List.mem_append_right _ hf)) hfront
  cases hspec : frameSpec r with
  | more => rfl
  | bad => exact absurd hspec hnotbad
  | item x rest => exact absurd hspec (hr x rest)

/-- The parser asks for more of a part of a frame. -/
theorem more_of_part {f : WireFrame} (hf : f.payload.length ≤ wsMaxPayloadBytes)
    (hr : r <+: f.encode) (hne : r ≠ f.encode) : frameSpec r = .more := by
  have hfs : ∀ g ∈ [f], g.payload.length ≤ wsMaxPayloadBytes := List.forall_mem_singleton.2 hf
  refine more_of_decodes hfs (by rw [List.flatMap_singleton]; exact hr) (Decoder.Decodes.nil r) ?_
  intro x rest hx
  obtain ⟨y, hy⟩ := hr
  -- an item at the front would still be there in the whole frame, with what is missing behind it
  have hitem := frameDecoder.next_append_of_item y hx
  rw [hy, ← List.append_nil f.encode, next_of_mem hfs f (List.mem_singleton_self f)] at hitem
  injection hitem with _ hrest
  have hempty : y = [] := (List.append_eq_nil_iff.1 hrest.symm).2
  rw [hempty, List.append_nil] at hy
  exact hne hy

end Stream

/-- When `append_read` takes a chunk. -/
theorem WebsocketHandler.appendRead_iff (h : WebsocketHandler) (data : Bytes) :
    (h.appendRead data).1 = true ↔
      data.length = 0 ∨ h.readBuf.length + data.length ≤ wsMaxReadBuffer := by
  unfold WebsocketHandler.appendRead
  split_ifs with h0 hcap
  · simp [h0]
  · simp [h0]
    omega
  · simp
    omega

/-! ### Every run -/

section Runs

variable {listenfd fd : Fd} {s : Loop} {h : WebsocketHandler} {fs : List WireFrame}

/-- **Room for one more read.**  When `drive_io` has returned and has not queued the connection,
what it leaves of a stream of frames within the limit is part of one of them; a read of `READ_CHUNK
- 13` bytes fits behind it, and a read of `READ_CHUNK` bytes unless more than `WS_MAX_PAYLOAD_BYTES`
of the frame are there. -/
theorem residual_room (hr : Loop.Reachable Loop.EpollContract listenfd s)
    (hfd : s.worker.websocketHandlerMap fd = some h) (hs : h.status = .handsharked)
    (hfs : ∀ f ∈ fs, f.payload.length ≤ wsMaxPayloadBytes)
    (hin : inbound (about h.conn s.worker.trace) <+: fs.flatMap WireFrame.encode)
    (hreading : s.pc.phase fd ≠ .reading) (hframes : s.pc.phase fd ≠ .frames)
    (hqueued : fd ∉ s.worker.pendingCloses) :
    (h.readBuf = [] ∨ ∃ f ∈ fs, h.readBuf <+: f.encode ∧ h.readBuf ≠ f.encode) ∧
    h.readBuf.length + readChunk ≤ wsMaxReadBuffer + 13 ∧
    (∀ data, data.length ≤ readChunk - 13 → (h.appendRead data).1 = true) ∧
    ((∀ data, data.length ≤ readChunk → (h.appendRead data).1 = true) ↔
      h.readBuf.length ≤ wsMaxPayloadBytes) := by
  have hset := settled hr hfd
  have hacc := Loop.account Loop.promises_epollContract hr hfd
  obtain ⟨_, _, hup, _⟩ := hacc.handsharked hs
  -- control has left the connection, and the close queue does not have it
  have hstuck : frameDecoder.Stuck h.readBuf := by
    cases hp : s.pc.phase fd with
    | reading => exact absurd hp hreading
    | frames => exact absurd hp hframes
    | flushing => exact hset.flushing hs hp
    | idle =>
        refine (hset.idle hs hp).resolve_right fun hend => hqueued ?_
        exact of_decide_eq_true hend.pending
  have hlen : h.readBuf.length < 14 + wsMaxPayloadBytes :=
    length_lt_of_frameSpec_more (more_of_decodes hfs hin hup.inbound hstuck)
  have hchunk : ∃ data : Bytes, data.length = readChunk :=
    ⟨List.replicate readChunk 0, List.length_replicate⟩
  refine ⟨part_of_decodes hfs hin hup.inbound hstuck, ?_, fun data hd => ?_, ?_⟩
  · simp only [wsMaxReadBuffer, wsMaxPayloadBytes, readChunk] at hlen ⊢
    omega
  · rw [WebsocketHandler.appendRead_iff]
    right
    simp only [wsMaxReadBuffer, wsMaxPayloadBytes, readChunk] at hlen hd ⊢
    omega
  · constructor
    · intro hall
      obtain ⟨data, hd⟩ := hchunk
      have htaken := hall data (Nat.le_of_eq hd)
      rw [WebsocketHandler.appendRead_iff, hd] at htaken
      simp only [wsMaxReadBuffer, wsMaxPayloadBytes, readChunk] at htaken ⊢
      omega
    · intro hle data hd
      rw [WebsocketHandler.appendRead_iff]
      right
      simp only [wsMaxReadBuffer, wsMaxPayloadBytes, readChunk] at hle hd ⊢
      omega

end Runs

/-! ### The longest part of a frame -/

theorem inbound_received {c : ℕ} (ds : List Bytes) :
    (ds.map (Obs.received c)).foldl inboundStep [] = ds.flatten := by
  induction ds using List.reverseRecOn with
  | nil => rfl
  | append_singleton ds d ih => simp [ih, inboundStep]

/-- A client has been upgraded and has sent `buf`, which the frame loop is about to go through. -/
theorem exists_frames {buf : Bytes} (hlen : buf.length ≤ wsMaxReadBuffer) :
    ∃ s h, Loop.Reachable Loop.EpollContract 3 s ∧ s.pc = .frames 5 [] ∧
      s.worker.websocketHandlerMap 5 = some h ∧ h.status = .handsharked ∧ h.readBuf = buf ∧
      inbound (about h.conn s.worker.trace) = buf ∧ s.worker.pendingCloses = [] := by
  obtain ⟨s, h, hr, hpc, hlisten, hfd, hconn, hs, hread, hin, hpending⟩ := exists_upgraded_readable
  obtain ⟨ds, hds, rfl⟩ := Loop.exists_chunks buf
  have hdisp := Loop.step_readable hpc (by rw [hlisten]; decide) hfd
  set s₁ : Loop := ⟨s.worker.emit (.readable h.conn), .reading 5 []⟩ with hs₁
  have hmap : (s₁.reads 5 h ds).worker.websocketHandlerMap 5 =
      some { h with readBuf := ds.flatten } := by
    rw [Loop.reads_map, hread, List.nil_append]
  have hlast : (s₁.reads 5 h ds).step .readAgain =
      some ⟨(s₁.reads 5 h ds).worker, .frames 5 []⟩ := by
    have hdrive := NetworkInterface.driveIoUpgrade_handsharked hmap hs
    simp only [Loop.step, show (s₁.reads 5 h ds).pc = .reading 5 [] from rfl, hdrive,
      Loop.afterUpgrade]
  have hfeed : s₁.feed ds .readAgain = some ⟨(s₁.reads 5 h ds).worker, .frames 5 []⟩ := by
    rw [Loop.feed_fits .readAgain rfl (show s₁.worker.websocketHandlerMap 5 = some h from hfd) hds
      (by rw [hread, List.length_nil, Nat.zero_add]; exact hlen), hlast]
  have hr₁ : Loop.Reachable Loop.EpollContract 3 s₁ :=
    Transition.Reaches.tail .tau hr trivial hdisp
  have hr₂ := Transition.Reaches.trans hr₁
    (Loop.reaches_of_feed (fun _ _ => trivial)
      (show ∀ s, Loop.EpollContract s .readAgain from fun _ => trivial) hfeed)
  refine ⟨_, { h with readBuf := ds.flatten }, hr₂, rfl, hmap, hs, rfl, ?_, hpending⟩
  have hreadable : about 1 [Obs.readable 1] = [.readable 1] := rfl
  have hreceived : about 1 (ds.map (Obs.received 1)) = ds.map (Obs.received 1) :=
    List.filter_eq_self.2 (by simp [Obs.conn])
  simp only [Loop.reads, hs₁, NetworkInterface.emit, hconn, about_append, inbound_append, hin,
    hreadable, hreceived]
  exact inbound_received ds

/-- A client has been upgraded, has sent `buf` and waits. -/
theorem exists_part {buf : Bytes} (hmore : frameSpec buf = .more) :
    ∃ s h, Loop.Reachable Loop.EpollContract 3 s ∧ s.pc = .batch [] ∧
      s.worker.websocketHandlerMap 5 = some h ∧ h.status = .handsharked ∧ h.readBuf = buf ∧
      inbound (about h.conn s.worker.trace) = buf ∧ (5 : Fd) ∉ s.worker.pendingCloses := by
  have hlen := length_lt_of_frameSpec_more hmore
  obtain ⟨s, h, hr, hpc, hfd, hs, hread, hin, hpending⟩ := exists_frames (show buf.length ≤
    wsMaxReadBuffer by simp only [wsMaxPayloadBytes, wsMaxReadBuffer] at hlen ⊢; omega)
  -- the frame loop is left at once
  obtain ⟨request, hdrive⟩ :=
    NetworkInterface.driveIoFrame_more hfd hs (by rw [hread]; exact hmore)
  have hstep : s.step .tau =
      some ⟨s.worker.setHandler 5 { h with request := request }, .batch []⟩ := by
    simp only [Loop.step, hpc, hdrive, Loop.afterUpgrade]
  refine ⟨_, { h with request := request }, hr.tail .tau trivial hstep, rfl, ?_, hs, hread, hin, ?_⟩
  · rw [NetworkInterface.setHandler_map, Function.update_self]
  · change (5 : Fd) ∉ s.worker.pendingCloses
    rw [hpending]
    exact List.not_mem_nil

/-- The worker has read part of a frame that says "hi". -/
theorem residual_room_hi : ∃ s h, Loop.Reachable Loop.EpollContract 3 s ∧
    s.worker.websocketHandlerMap 5 = some h ∧ h.readBuf = hiFrame.encode.take 5 ∧
    (h.readBuf = [] ∨ ∃ f ∈ [hiFrame], h.readBuf <+: f.encode ∧ h.readBuf ≠ f.encode) ∧
    h.readBuf.length + readChunk ≤ wsMaxReadBuffer + 13 ∧
    (∀ data, data.length ≤ readChunk - 13 → (h.appendRead data).1 = true) ∧
    ((∀ data, data.length ≤ readChunk → (h.appendRead data).1 = true) ↔
      h.readBuf.length ≤ wsMaxPayloadBytes) := by
  obtain ⟨s, h, hr, hpc, hfd, hs, hread, hin, hqueued⟩ :=
    exists_part (more_of_part (f := hiFrame) (by decide) (List.take_prefix 5 _) (by decide))
  have hlegal : ∀ f ∈ [hiFrame], f.payload.length ≤ wsMaxPayloadBytes := by decide
  have hfront : inbound (about h.conn s.worker.trace) <+: [hiFrame].flatMap WireFrame.encode := by
    rw [hin, List.flatMap_singleton]
    exact List.take_prefix _ _
  have hroom := residual_room hr hfd hs hlegal hfront (by rw [hpc]; nofun) (by rw [hpc]; nofun)
    hqueued
  exact ⟨s, h, hr, hfd, hread, hroom⟩

/-- **A full chunk does not always fit.**  All of the longest frame but its last byte has been read,
and `drive_io` has returned without queueing the connection; the `READ_CHUNK` bytes that come next
are refused. -/
theorem chunk_refused : ∃ s h, Loop.Reachable Loop.EpollContract 3 s ∧ s.pc = .batch [] ∧
    s.worker.websocketHandlerMap 5 = some h ∧ h.status = .handsharked ∧
    inbound (about h.conn s.worker.trace) <+: longText.encode ∧
    longText.payload.length = wsMaxPayloadBytes ∧ (5 : Fd) ∉ s.worker.pendingCloses ∧
    h.readBuf <+: longText.encode ∧ h.readBuf ≠ longText.encode ∧
    ¬ h.readBuf.length + readChunk ≤ wsMaxReadBuffer ∧
    ∀ data, data.length = readChunk → (h.appendRead data).1 = false := by
  have hpart : longText.encode.dropLast <+: longText.encode := List.dropLast_prefix _
  have hlen : longText.encode.dropLast.length = wsMaxPayloadBytes + 13 := by
    rw [List.length_dropLast, length_encode_longText]
    rfl
  have hne : longText.encode.dropLast ≠ longText.encode := by
    intro he
    have := congrArg List.length he
    rw [hlen, length_encode_longText] at this
    exact absurd this (by decide)
  have hlong : longText.payload.length = wsMaxPayloadBytes := List.length_replicate
  obtain ⟨s, h, hr, hpc, hfd, hs, hread, hin, hqueued⟩ :=
    exists_part (more_of_part (Nat.le_of_eq hlong) hpart hne)
  have hover : wsMaxReadBuffer < h.readBuf.length + readChunk := by
    rw [hread, hlen]
    decide
  refine ⟨s, h, hr, hpc, hfd, hs, by rw [hin]; exact hpart, hlong,
    hqueued, by rw [hread]; exact hpart,
    by rw [hread]; exact hne, Nat.not_le.2 hover, fun data hd => ?_⟩
  rw [← Bool.not_eq_true, WebsocketHandler.appendRead_iff, hd]
  rintro (h0 | hle)
  · exact absurd h0 (by decide)
  · exact absurd hle (Nat.not_le.2 hover)

end WebSocketDemo
