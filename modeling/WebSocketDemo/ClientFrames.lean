/-
**Which frames of a client are accepted.**

RFC 6455 says which frames a client may send: the reserved bits are zero, the opcode is a known one,
the frame is masked, its length has the shortest form, and a control frame is short and in one
piece.  A header that keeps these rules is the header of such a frame and of no other.
`try_consume_frame` tests none of them.  It takes every complete frame off whose length is within
`WS_MAX_PAYLOAD_BYTES`, and refuses the others.

Main definitions:

* `Header.FromClient` — the rules, read off a header.

Main results:

* `fromClient_iff` — **the rules say which bytes are a frame of a client**;
* `accepted_frames` — **what the parser takes and what it refuses**.
-/

import WebSocketDemo.Parsing
import WebSocketDemo.Residual

set_option relaxedAutoImplicit false
set_option autoImplicit false

namespace WebSocketDemo

open ByteOrder PrefixDecoder Rfc6455

/-! ### The rules for a client -/

/-- What RFC 6455 allows a client with no extension negotiated. -/
structure Header.FromClient (h : Header) : Prop where
  rsv : h.byte0 &&& 0x70 = 0
  opcode : h.byte0 &&& 0x0f ∈ ([0, 1, 2, 8, 9, 10] : List UInt8)
  masked : h.Masked
  shortest : h.ext = WireFrame.extendedLength h.declared
  declared_lt : h.declared < 2 ^ 63
  control : 8 ≤ h.byte0 &&& 0x0f → h.byte0 >>> 7 = 1 ∧ h.declared ≤ 125

variable {f : WireFrame} {h : Header} {b k c rest : Bytes}

/-- The first byte, rule by rule. -/
theorem byte0_rules : ∀ (fin : Bool) (rsv : Fin 8) (opcode : Fin 16),
    let b := UInt8.ofNat (128 * fin.toNat + 16 * rsv.val + opcode.val)
    (b &&& 0x70 = 0 ↔ rsv = 0) ∧
      (b &&& 0x0f ∈ ([0, 1, 2, 8, 9, 10] : List UInt8) ↔
        opcode ∈ [opContinuation, opText, opBinary, opClose, opPing, opPong]) ∧
      (8 ≤ b &&& 0x0f ↔ 8 ≤ opcode.val) ∧ (b >>> 7 = 1 ↔ fin = true) := by
  decide +kernel

/-- Every byte is the first byte of a frame. -/
theorem exists_byte0 (x : UInt8) : ∃ (fin : Bool) (rsv : Fin 8) (opcode : Fin 16),
    UInt8.ofNat (128 * fin.toNat + 16 * rsv.val + opcode.val) = x := by
  have hx := x.toNat_lt
  refine ⟨decide (128 ≤ x.toNat), ⟨x.toNat / 16 % 8, by omega⟩, ⟨x.toNat % 16, by omega⟩, ?_⟩
  rw [← UInt8.toNat_inj, UInt8.toNat_ofNat']
  by_cases hfin : 128 ≤ x.toNat
  · simp only [hfin, decide_true, Bool.toNat_true]
    omega
  · simp only [hfin, decide_false, Bool.toNat_false]
    omega

/-- The mask bit and the length bits of the second byte. -/
theorem toNat_shiftRight_7 (x : UInt8) : (x >>> 7).toNat = x.toNat / 128 := by
  rw [UInt8.toNat_shiftRight]
  exact Nat.shiftRight_eq_div_pow x.toNat 7

theorem toNat_and_0x7f (x : UInt8) : (x &&& 0x7f).toNat = x.toNat % 128 := by
  rw [UInt8.toNat_and]
  exact Nat.and_two_pow_sub_one_eq_mod x.toNat 7

/-- A masked header's second byte, from its length bits. -/
theorem byte1_eq {x : UInt8} (hx : x >>> 7 ≠ 0) : x = UInt8.ofNat (128 + (x &&& 0x7f).toNat) := by
  have hlt := x.toNat_lt
  have hbit : x.toNat / 128 ≠ 0 := fun h0 => hx (by
    rw [← UInt8.toNat_inj, toNat_shiftRight_7, h0]
    rfl)
  rw [← UInt8.toNat_inj, UInt8.toNat_ofNat', toNat_and_0x7f]
  omega

/-- In the shortest form the length bits are those of the declared length. -/
theorem Header.FromClient.len7_eq (hc : h.FromClient) :
    (h.byte1 &&& 0x7f).toNat = WireFrame.len7 h.declared := by
  have hext := h.length_ext
  have hshort := hc.shortest
  by_cases h7 : h.byte1 &&& 0x7f < 126
  · have hsmall : (h.byte1 &&& 0x7f).toNat < 126 := UInt8.lt_iff_toNat_lt.1 h7
    have hdecl : h.declared = (h.byte1 &&& 0x7f).toNat := by
      rw [Header.declared, declaredLen, if_pos h7]
    rw [WireFrame.len7, hdecl, if_pos hsmall]
  · rw [hshort, extLen, if_neg h7, WireFrame.extendedLength] at hext
    have hmod := toNat_and_0x7f h.byte1
    have hge : ¬ (h.byte1 &&& 0x7f).toNat < 126 := fun hlt => h7 (UInt8.lt_iff_toNat_lt.2 hlt)
    have h126 : h.byte1 &&& 0x7f = 126 ↔ (h.byte1 &&& 0x7f).toNat = 126 := UInt8.toNat_inj.symm
    simp only [h126] at hext
    rw [WireFrame.len7]
    split_ifs at hext ⊢ <;> simp at hext <;> omega

/-- The header of a frame a client may send keeps the rules. -/
theorem fromClient_wireHeader (hf : f.FromClient) : (wireHeader f).FromClient := by
  obtain ⟨hrsv, hop, hctl, hfin⟩ := byte0_rules f.fin f.rsv f.opcode
  have hdecl : (wireHeader f).declared = f.payload.length :=
    declared_wireHeader f (lt_trans hf.length_lt (by decide))
  refine ⟨hrsv.2 hf.rsv_eq, hop.2 hf.opcode_mem, ?_, ?_, ?_, fun hc => ?_⟩
  · change f.byte1 >>> 7 ≠ 0
    rw [byte1_shiftRight, hf.masked]
    decide
  · rw [hdecl]
    rfl
  · rw [hdecl]
    exact hf.length_lt
  · rw [hdecl]
    exact ⟨hfin.2 (hf.control (hctl.1 hc)).1, (hf.control (hctl.1 hc)).2⟩

/-- Four bytes are a key. -/
theorem toList_keyAt (hk : k.length = 4) : (keyAt k).toList = k := by
  match k, hk with
  | [_, _, _, _], _ => rfl

/-- A frame whose header keeps the rules. -/
theorem encode_of_fromClient (hf : Framed b h k c rest) (hc : h.FromClient) :
    ∃ f : WireFrame, f.FromClient ∧ b = f.encode ++ rest := by
  obtain ⟨fin, rsv, opcode, hbyte0⟩ := exists_byte0 h.byte0
  obtain ⟨hrsv, hop, hctl, hfin⟩ := byte0_rules fin rsv opcode
  rw [hbyte0] at hrsv hop hctl hfin
  have hlen : (mask (keyAt k) c).length = h.declared := by rw [length_mask, hf.length_payload]
  refine ⟨⟨fin, rsv, opcode, some (keyAt k), mask (keyAt k) c⟩,
    ⟨hrsv.1 hc.rsv, hop.1 hc.opcode, rfl, ?_, fun hcontrol => ?_⟩, ?_⟩
  · exact lt_of_eq_of_lt hlen hc.declared_lt
  · obtain ⟨h1, h125⟩ := hc.control (hctl.2 hcontrol)
    exact ⟨hfin.1 h1, le_of_eq_of_le hlen h125⟩
  · have hbyte1 : h.byte1 = UInt8.ofNat (128 + WireFrame.len7 h.declared) := by
      rw [← hc.len7_eq]
      exact byte1_eq hc.masked
    have hkey : (keyAt k).toList = k :=
      toList_keyAt (by rw [hf.length_key, Header.keyLength, if_pos hc.masked])
    have hext : WireFrame.extendedLength h.declared = h.ext := hc.shortest.symm
    simp only [WireFrame.encode, WireFrame.byte0, WireFrame.byte1, WireFrame.keyBytes,
      WireFrame.maskedPayload, mask_mask, hlen, hkey, hext, hbyte0, Option.isSome_some,
      Bool.toNat_true, Nat.mul_one]
    rw [← hbyte1, hf.split, Header.bytes]
    simp

/-- The header at the front of a buffer is the one of the frame there. -/
theorem header_unique (hf : Framed b h k c rest) (hb : b = f.encode ++ rest) :
    h = wireHeader f := by
  have hsplit : h.byte0 :: h.byte1 :: (h.ext ++ (k ++ (c ++ rest))) = f.byte0 :: f.byte1 ::
      (WireFrame.extendedLength f.payload.length ++ (f.keyBytes ++ (f.maskedPayload ++ rest))) := by
    have heq := hf.split.symm.trans hb
    simpa [Header.bytes, WireFrame.encode] using heq
  obtain ⟨h0, htail⟩ := List.cons.inj hsplit
  obtain ⟨h1, hrest⟩ := List.cons.inj htail
  have hlen : h.ext.length = (WireFrame.extendedLength f.payload.length).length := by
    rw [h.length_ext, h1, extLen_byte1]
  obtain ⟨hext, _⟩ := List.append_inj hrest hlen
  cases h
  simp only [wireHeader, Header.mk.injEq]
  exact ⟨h0, h1, hext⟩

/-- **The rules say which bytes are a frame of a client.** -/
theorem fromClient_iff (hf : Framed b h k c rest) :
    h.FromClient ↔ ∃ f : WireFrame, f.FromClient ∧ b = f.encode ++ rest := by
  constructor
  · exact encode_of_fromClient hf
  · rintro ⟨f, hlegal, hb⟩
    rw [header_unique hf hb]
    exact fromClient_wireHeader hlegal

/-- One frame for each rule that is broken: a reserved bit, a reserved opcode, no mask, a length
that is not the shortest, a fragment of a ping, and a ping that is too long. -/
def unlawfulFrames : List Bytes :=
  [[0xC1, 0x80, 0, 0, 0, 0], [0x83, 0x80, 0, 0, 0, 0], [0x81, 0x00], [0x81, 0xFE, 0, 0, 0, 0, 0, 0],
    [0x09, 0x80, 0, 0, 0, 0], [0x89, 0xFE, 0, 126, 0, 0, 0, 0] ++ List.replicate 126 0]

/-- A frame whose header breaks a rule is none that a client may send, and is taken off. -/
theorem unlawful_accepted (hf : Framed b h k c []) (hno : ¬ h.FromClient) :
    (WebsocketRequest.new.tryConsumeFrame b).1 = .ok ∧
      (WebsocketRequest.new.tryConsumeFrame b).2.2 = [] ∧
      ¬ ∃ f : WireFrame, f.FromClient ∧ b = f.encode := by
  obtain ⟨r', hok, _⟩ := WebsocketRequest.new.tryConsumeFrame_framed hf
  refine ⟨by rw [hok], by rw [hok], ?_⟩
  rintro ⟨f, hlegal, hb⟩
  exact hno ((fromClient_iff hf).2 ⟨f, hlegal, by rw [hb, List.append_nil]⟩)

/-- **None of the rules is tested**: a frame that breaks one is taken off like any other. -/
theorem unlawful_frames_accepted : unlawfulFrames.Forall fun b =>
    (WebsocketRequest.new.tryConsumeFrame b).1 = .ok ∧
      (WebsocketRequest.new.tryConsumeFrame b).2.2 = [] ∧
      ¬ ∃ f : WireFrame, f.FromClient ∧ b = f.encode := by
  simp only [unlawfulFrames, List.Forall]
  refine ⟨?_, ?_, ?_, ?_, ?_, ?_⟩
  · refine unlawful_accepted (h := ⟨0xC1, 0x80, [], rfl⟩) (k := [0, 0, 0, 0]) (c := [])
      ⟨rfl, by decide, by decide, by decide⟩ fun hc => ?_
    exact absurd hc.rsv (by decide)
  · refine unlawful_accepted (h := ⟨0x83, 0x80, [], rfl⟩) (k := [0, 0, 0, 0]) (c := [])
      ⟨rfl, by decide, by decide, by decide⟩ fun hc => ?_
    exact absurd hc.opcode (by decide)
  · refine unlawful_accepted (h := ⟨0x81, 0x00, [], rfl⟩) (k := []) (c := [])
      ⟨rfl, by decide, by decide, by decide⟩ fun hc => ?_
    exact absurd hc.masked (by decide)
  · refine unlawful_accepted (h := ⟨0x81, 0xFE, [0, 0], rfl⟩) (k := [0, 0, 0, 0]) (c := [])
      ⟨rfl, by decide, by decide, by decide⟩ fun hc => ?_
    exact absurd hc.shortest (by decide)
  · refine unlawful_accepted (h := ⟨0x09, 0x80, [], rfl⟩) (k := [0, 0, 0, 0]) (c := [])
      ⟨rfl, by decide, by decide, by decide⟩ fun hc => ?_
    exact absurd (hc.control (by decide)).1 (by decide)
  · refine unlawful_accepted (h := ⟨0x89, 0xFE, [0, 126], rfl⟩) (k := [0, 0, 0, 0])
      (c := List.replicate 126 0) ⟨by simp [Header.bytes], by decide, by decide, ?_⟩ fun hc => ?_
    · rw [List.length_replicate]
      decide
    · exact absurd (hc.control (by decide)).2 (by decide)

/-! ### What is taken, and what is refused -/

/-- A length above the limit is refused as soon as the header and the key are there. -/
theorem refused_of_long (hk : k.length = h.keyLength) (hmax : wsMaxPayloadBytes < h.declared) :
    frameSpec (h.bytes ++ k ++ rest) = .bad :=
  frameSpec_eq_bad_iff.2 (Or.inr ⟨h, k, rest, rfl, hk, hmax⟩)

/-- The answer on a complete frame. -/
theorem answer_complete (r : WebsocketRequest) (hk : k.length = h.keyLength)
    (hc : c.length = h.declared) : (r.tryConsumeFrame (h.bytes ++ k ++ c ++ rest)).1 =
      if h.declared ≤ wsMaxPayloadBytes then .ok else .error := by
  obtain ⟨hok, herror, _⟩ := r.answer_iff (h.bytes ++ k ++ c ++ rest)
  split_ifs with hle
  · exact hok.2 ⟨_, _, frameSpec_of_framed ⟨rfl, hk, hle, hc⟩⟩
  · rw [List.append_assoc (h.bytes ++ k)] at herror ⊢
    exact herror.2 (refused_of_long hk (Nat.lt_of_not_le hle))

/-- A refused buffer has the loop queue its connection for closing. -/
theorem Loop.step_refused {once : Prop} {s : Loop} {fd : Fd} {es : List EpollEvent}
    {g : WebsocketHandler} (hwf : s.WellFormed once) (hpc : s.pc = .frames fd es)
    (hfd : s.worker.websocketHandlerMap fd = some g) (hbad : frameSpec g.readBuf = .bad) :
    ∃ s', s.step .tau = some s' ∧ s'.pc = .batch es ∧ fd ∈ s'.worker.pendingCloses := by
  obtain ⟨g', hg', hs⟩ := hwf.pc.frames fd es hpc
  obtain rfl : g = g' := Option.some.inj (hfd.symm.trans hg')
  have hne := (hwf.pc.current fd (by rw [hpc]; rfl)).1
  obtain ⟨request, hdrive⟩ :=
    NetworkInterface.driveIoFrame_bad hfd hs (hwf.worker.own fd g hfd) hbad
  have hstep : s.step .tau = some ⟨((s.worker.setHandler fd { g with request := request }).emit
      (.parseError g.conn)).queueClose fd, .batch es⟩ := by
    simp only [step, hpc, hdrive, afterUpgrade]
  refine ⟨_, hstep, rfl, ?_⟩
  rw [NetworkInterface.mem_queueClose]
  exact Or.inr ⟨rfl, hwf.worker.nonneg fd g hfd hne⟩

/-- **What the parser takes and what it refuses.**  What it takes off is a frame in the layout of
RFC 6455 whose length is within the limit, and it takes off every such frame, in particular each one
that a client may send.  A complete frame above the limit is an error, upon which `drive_io` queues
the connection for closing. -/
theorem accepted_frames :
    (∀ (r r' : WebsocketRequest) (b rest : Bytes), r.tryConsumeFrame b = (.ok, r', rest) →
      ∃ h k c, Framed b h k c rest ∧
        r'.frame = ⟨h.byte0 >>> 7, h.byte0 &&& 0x0f, h.payload k c⟩) ∧
    (∀ (r : WebsocketRequest) (h : Header) (k c rest : Bytes), k.length = h.keyLength →
      c.length = h.declared → (r.tryConsumeFrame (h.bytes ++ k ++ c ++ rest)).1 =
        if h.declared ≤ wsMaxPayloadBytes then .ok else .error) ∧
    (∀ (r : WebsocketRequest) (f : WireFrame) (rest : Bytes), f.FromClient →
      f.payload.length ≤ wsMaxPayloadBytes → ∃ r', r.tryConsumeFrame (f.encode ++ rest) =
        (.ok, r', rest) ∧ r'.frame = wireContent f) ∧
    ∀ (listenfd : Fd) (s : Loop) (fd : Fd) (es : List EpollEvent) (g : WebsocketHandler)
      (h : Header)
      (k c rest : Bytes), Loop.Reachable Loop.AnyBatch listenfd s → s.pc = .frames fd es →
      s.worker.websocketHandlerMap fd = some g → g.readBuf = h.bytes ++ k ++ c ++ rest →
      k.length = h.keyLength → c.length = h.declared → wsMaxPayloadBytes < h.declared →
      ∃ s', s.step .tau = some s' ∧ s'.pc = .batch es ∧ fd ∈ s'.worker.pendingCloses := by
  refine ⟨fun r r' b rest hok => ?_, fun r h k c rest hk hc => answer_complete r hk hc,
    fun r f rest _ hle => ?_, fun listenfd s fd es g h k c rest hr hpc hfd hbuf hk _ hmax => ?_⟩
  · have hspec := WebsocketRequest.frameSpec_of_ok hok
    obtain ⟨h, k, c, hf⟩ := framed_of_frameSpec hspec
    have hframe := (frameSpec_of_framed hf).symm.trans hspec
    injection hframe with hframe _
    exact ⟨h, k, c, hf, hframe.symm⟩
  · have hans := r.tryConsumeFrame_answers (f.encode ++ rest)
    rw [frameSpec_encode f hle rest] at hans
    rcases hout : r.tryConsumeFrame (f.encode ++ rest) with ⟨answer, r', b'⟩
    rw [hout] at hans
    obtain ⟨rfl, hframe, rfl, _⟩ := hans
    exact ⟨r', rfl, hframe⟩
  · refine Loop.step_refused (Loop.reachable_wellFormed Loop.promises_anyBatch hr) hpc hfd ?_
    rw [hbuf, List.append_assoc (h.bytes ++ k)]
    exact refused_of_long hk hmax

/-- A client has sent a frame one byte too long. -/
theorem accepted_frames_refused : ∃ s g s', Loop.Reachable Loop.AnyBatch 3 s ∧
    s.worker.websocketHandlerMap 5 = some g ∧
    g.readBuf = [0x82, 0xFF, 0, 0, 0, 0, 0, 16, 0, 1, 0, 0, 0, 0] ++
      List.replicate (wsMaxPayloadBytes + 1) 0 ∧
    s.step .tau = some s' ∧ (5 : Fd) ∈ s'.worker.pendingCloses := by
  let h : Header := ⟨0x82, 0xFF, [0, 0, 0, 0, 0, 16, 0, 1], rfl⟩
  have hdecl : h.declared = wsMaxPayloadBytes + 1 := by decide
  have hlen : (h.bytes ++ [0, 0, 0, 0] ++ List.replicate (wsMaxPayloadBytes + 1) 0).length ≤
      wsMaxReadBuffer := by
    rw [List.length_append, List.length_replicate]
    decide
  obtain ⟨s, g, hr, hpc, hfd, _, hread, _⟩ := exists_frames hlen
  have hr' := Loop.reachable_anyBatch hr
  obtain ⟨s', hs, _, hqueued⟩ := accepted_frames.2.2.2 3 s 5 [] g h [0, 0, 0, 0]
    (List.replicate (wsMaxPayloadBytes + 1) 0) [] hr' hpc hfd (by rw [hread, List.append_nil])
    (by decide)
    (by rw [List.length_replicate, hdecl]) (by rw [hdecl]; exact Nat.lt_succ_self _)
  exact ⟨s, g, s', hr', hfd, hread, hs, hqueued⟩

end WebSocketDemo
