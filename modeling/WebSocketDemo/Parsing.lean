/-
**The frame parser as a decoder of the stream.**

`try_consume_frame` is stated once more without its control flow: which buffers have a frame at
their front, which are refused, and what is recorded of a frame.  The loop that calls it is then
shown not to depend on how the stream is cut into chunks, and to give back what the encoder wrote.

Main definitions:

* `Header`, `HasFrame`, `Refused` — a buffer with a frame at its front, and one that is refused;
* `WebsocketRequest.consumeFrames`, `WebsocketRequest.consumeChunks` — the loop on one buffer, and
  on a stream that arrives in chunks;
* `WebsocketRequest.takeFrames` — a number of calls that all succeed.

Main results:

* `tryConsumeFrame_exact` — **the parser is an exact prefix decoder**;
* `chunking_irrelevant` — **decoding does not depend on the chunks**;
* `encoder_decoder_agree` — **the parser gives back what was encoded**.
-/

import WebSocketDemo.FrameCodec

set_option relaxedAutoImplicit false
set_option autoImplicit false

namespace WebSocketDemo

open ByteOrder PrefixDecoder Rfc6455

/-! ### From the answer to the verdict -/

namespace WebsocketRequest

variable {r r' : WebsocketRequest} {b b' : Bytes}

theorem frameSpec_of_ok (h : r.tryConsumeFrame b = (.ok, r', b')) :
    frameSpec b = .item r'.frame b' := by
  have hans := r.tryConsumeFrame_answers b
  rw [h] at hans
  cases hspec : frameSpec b with
  | more =>
      rw [hspec] at hans
      cases hans.1
  | bad =>
      rw [hspec] at hans
      cases hans.1
  | item f rest =>
      rw [hspec] at hans
      have hframe : r'.frame = f := hans.2.1
      have hrest : b' = rest := hans.2.2.1
      rw [hframe, hrest]

theorem frameSpec_of_needMore (h : r.tryConsumeFrame b = (.needMore, r', b')) :
    frameSpec b = .more ∧ b' = b := by
  have hans := r.tryConsumeFrame_answers b
  rw [h] at hans
  cases hspec : frameSpec b with
  | more =>
      rw [hspec] at hans
      exact ⟨rfl, hans.2⟩
  | bad =>
      rw [hspec] at hans
      cases hans.1
  | item f rest =>
      rw [hspec] at hans
      cases hans.1

theorem frameSpec_of_error (h : r.tryConsumeFrame b = (.error, r', b')) :
    frameSpec b = .bad ∧ b' = b := by
  have hans := r.tryConsumeFrame_answers b
  rw [h] at hans
  cases hspec : frameSpec b with
  | more =>
      rw [hspec] at hans
      cases hans.1
  | bad =>
      rw [hspec] at hans
      exact ⟨rfl, hans.2⟩
  | item f rest =>
      rw [hspec] at hans
      cases hans.1

/-- The three answers. -/
theorem answer_iff (r : WebsocketRequest) (b : Bytes) :
    ((r.tryConsumeFrame b).1 = .ok ↔ ∃ f rest, frameSpec b = .item f rest) ∧
      ((r.tryConsumeFrame b).1 = .error ↔ frameSpec b = .bad) ∧
      ((r.tryConsumeFrame b).1 = .needMore ↔ frameSpec b = .more) := by
  rcases hr : r.tryConsumeFrame b with ⟨answer, r', b'⟩
  cases answer with
  | ok => simp [frameSpec_of_ok hr]
  | needMore => simp [(frameSpec_of_needMore hr).1]
  | error => simp [(frameSpec_of_error hr).1]

end WebsocketRequest

/-! ### A frame at the front of a buffer -/

/-- A header: its first two bytes, and the extended length the low seven bits of the second one
select. -/
structure Header where
  byte0 : UInt8
  byte1 : UInt8
  ext : Bytes
  length_ext : ext.length = extLen byte1

namespace Header

/-- The header on the wire. -/
def bytes (h : Header) : Bytes := h.byte0 :: h.byte1 :: h.ext

/-- The payload length it declares. -/
def declared (h : Header) : ℕ := declaredLen h.byte1 h.ext

/-- The mask bit is set. -/
def Masked (h : Header) : Prop := h.byte1 >>> 7 ≠ 0

instance (h : Header) : Decidable h.Masked := inferInstanceAs (Decidable (h.byte1 >>> 7 ≠ 0))

/-- The number of key bytes behind it. -/
def keyLength (h : Header) : ℕ := if h.Masked then 4 else 0

/-- The payload, given the key bytes and the bytes on the wire. -/
def payload (h : Header) (k c : Bytes) : Bytes :=
  if h.Masked then c.mapIdx fun i x => x ^^^ k.getD (i % 4) 0 else c

/-- The three forms: two bytes, four or ten. -/
theorem length_bytes (h : Header) : h.bytes.length =
    if h.byte1 &&& 0x7f < 126 then 2 else if h.byte1 &&& 0x7f = 126 then 4 else 10 := by
  rw [bytes, List.length_cons, List.length_cons, h.length_ext, extLen]
  split_ifs
  · rfl
  · rfl
  · rfl

theorem length_bytes_le (h : Header) : h.bytes.length ≤ 10 := by
  rw [length_bytes]
  split_ifs
  · decide
  · decide
  · exact Nat.le_refl _

end Header

/-- `b` is a frame with the header `h`, the key bytes `k` and the payload bytes `c`, and `rest`
behind it. -/
structure Framed (b : Bytes) (h : Header) (k c rest : Bytes) : Prop where
  split : b = h.bytes ++ k ++ c ++ rest
  length_key : k.length = h.keyLength
  declared_le : h.declared ≤ wsMaxPayloadBytes
  length_payload : c.length = h.declared

/-- A frame is complete at the front of the buffer. -/
def HasFrame (b : Bytes) : Prop := ∃ h k c rest, Framed b h k c rest

/-- The ten bytes of a header are there and its 64-bit length has the top bit set, or the header and
the key bytes are there and the length is above the limit. -/
def Refused (b : Bytes) : Prop :=
  (∃ (h : Header) (rest : Bytes), b = h.bytes ++ rest ∧ h.bytes.length = 10 ∧
    2 ^ 63 ≤ h.declared) ∨
  ∃ (h : Header) (k rest : Bytes), b = h.bytes ++ k ++ rest ∧ k.length = h.keyLength ∧
    wsMaxPayloadBytes < h.declared

section Exact

variable {b : Bytes} {h : Header}

/-- The front of a buffer with a whole header. -/
theorem header_take (h : Header) (rest : Bytes) :
    (h.ext ++ rest).take (extLen h.byte1) = h.ext := by
  rw [← h.length_ext, List.take_left]

theorem header_drop (h : Header) (rest : Bytes) :
    (h.ext ++ rest).drop (extLen h.byte1) = rest := by
  rw [← h.length_ext, List.drop_left]

theorem keyLength_eq (h : Header) : h.keyLength = keyLen h.byte1 := rfl

/-- Unmasking, in the words of `Header.payload`. -/
theorem unmask_eq_payload {k c rest : Bytes} (hk : k.length = h.keyLength) :
    unmask h.byte1 (k ++ rest) c = h.payload k c := by
  unfold unmask Header.payload
  by_cases hm : h.Masked
  · have hm' : h.byte1 >>> 7 ≠ 0 := hm
    rw [if_pos hm, if_pos hm', keyAt_append rest (by rw [hk, Header.keyLength, if_pos hm]), mask]
    have hkey : ∀ j : Fin 4, (keyAt k)[j] = k.getD j 0 := by
      rintro ⟨j, hj⟩
      interval_cases j <;> rfl
    refine List.ext_getElem (by simp) fun i _ _ => ?_
    rw [List.getElem_mapIdx, List.getElem_mapIdx]
    exact congrArg (_ ^^^ ·) (hkey ⟨i % 4, Nat.mod_lt i (by decide)⟩)
  · have hm' : ¬ h.byte1 >>> 7 ≠ 0 := hm
    rw [if_neg hm, if_neg hm']

/-- Only a ten-byte header declares a length with its top bit set. -/
theorem length_bytes_of_topBit (htop : 2 ^ 63 ≤ h.declared) : h.bytes.length = 10 := by
  have hext := ofBigEndian_lt h.ext
  have hlen := h.length_ext
  unfold Header.declared declaredLen at htop
  unfold extLen at hlen
  rw [Header.length_bytes]
  split_ifs at htop hlen ⊢ with h7 h126
  · have hsmall := (h.byte1 &&& 0x7f).toNat_lt
    omega
  · rw [hlen] at hext
    omega
  · rfl

/-- **A complete frame is taken off.** -/
theorem frameSpec_of_framed {k c rest : Bytes} (hf : Framed b h k c rest) :
    frameSpec b = .item ⟨h.byte0 >>> 7, h.byte0 &&& 0x0f, h.payload k c⟩ rest := by
  obtain ⟨hsplit, hk, hle, hc⟩ := hf
  have hb : b = h.byte0 :: h.byte1 :: (h.ext ++ (k ++ (c ++ rest))) := by
    rw [hsplit, Header.bytes]
    simp
  have hlen : (h.ext ++ (k ++ (c ++ rest))).length =
      extLen h.byte1 + (keyLen h.byte1 + (h.declared + rest.length)) := by
    simp only [List.length_append, h.length_ext, hk, hc, keyLength_eq]
  have hkey : (h.ext ++ (k ++ (c ++ rest))).drop (extLen h.byte1 + keyLen h.byte1) = c ++ rest := by
    rw [← List.drop_drop, header_drop, ← keyLength_eq, ← hk, List.drop_left]
  have hbody : (h.ext ++ (k ++ (c ++ rest))).drop
      (extLen h.byte1 + keyLen h.byte1 + h.declared) = rest := by
    rw [← List.drop_drop, hkey, ← hc, List.drop_left]
  have htop : wsMaxPayloadBytes < 2 ^ 63 := by decide
  have hdecl : declaredLen h.byte1 h.ext = h.declared := rfl
  rw [hb]
  simp only [frameSpec, header_take, hdecl]
  rw [if_neg (by omega), if_neg (by omega), if_neg (by omega), if_neg (by omega),
    if_neg (by omega), hkey, hbody, header_drop, ← hc, List.take_left, unmask_eq_payload hk]

/-- The header of a buffer that has one. -/
def headerOf (b₀ b₁ : UInt8) (t : Bytes) (ht : extLen b₁ ≤ t.length) : Header :=
  ⟨b₀, b₁, t.take (extLen b₁), by rw [List.length_take, Nat.min_eq_left ht]⟩

theorem split_headerOf {b₀ b₁ : UInt8} {t : Bytes} (ht : extLen b₁ ≤ t.length) :
    b₀ :: b₁ :: t = (headerOf b₀ b₁ t ht).bytes ++ t.drop (extLen b₁) := by
  simp [Header.bytes, headerOf]

/-- A buffer whose frame is taken off has one at its front. -/
theorem framed_of_frameSpec {f : Frame} {rest : Bytes} (hspec : frameSpec b = .item f rest) :
    ∃ h k c, Framed b h k c rest := by
  match b, hspec with
  | b₀ :: b₁ :: t, hspec =>
      simp only [frameSpec] at hspec
      split_ifs at hspec with hext h63 hkey hmax hlen
      injection hspec with _ hrest
      refine ⟨headerOf b₀ b₁ t (by omega), (t.drop (extLen b₁)).take (keyLen b₁),
        (t.drop (extLen b₁ + keyLen b₁)).take (declaredLen b₁ (t.take (extLen b₁))), ?_, ?_, ?_, ?_⟩
      · rw [split_headerOf (by omega), ← hrest, List.append_assoc, List.append_assoc]
        have hbody : t.drop (extLen b₁ + keyLen b₁ + declaredLen b₁ (t.take (extLen b₁))) =
            (t.drop (extLen b₁ + keyLen b₁)).drop (declaredLen b₁ (t.take (extLen b₁))) :=
          List.drop_drop.symm
        have hkey : t.drop (extLen b₁ + keyLen b₁) = (t.drop (extLen b₁)).drop (keyLen b₁) :=
          List.drop_drop.symm
        rw [hbody, List.take_append_drop, hkey, List.take_append_drop]
      · rw [List.length_take, List.length_drop, keyLength_eq]
        exact Nat.min_eq_left (by omega)
      · exact Nat.le_of_not_lt hmax
      · rw [List.length_take, List.length_drop]
        exact Nat.min_eq_left (by omega)

/-- **What is refused.** -/
theorem frameSpec_eq_bad_iff : frameSpec b = .bad ↔ Refused b := by
  constructor
  · intro hspec
    match b, hspec with
    | b₀ :: b₁ :: t, hspec =>
        simp only [frameSpec] at hspec
        split_ifs at hspec with hext h63 hkey hmax
        · exact Or.inl ⟨headerOf b₀ b₁ t (by omega), _, split_headerOf _,
            length_bytes_of_topBit h63, h63⟩
        · refine Or.inr ⟨headerOf b₀ b₁ t (by omega), (t.drop (extLen b₁)).take (keyLen b₁),
            (t.drop (extLen b₁)).drop (keyLen b₁), ?_, ?_, hmax⟩
          · rw [List.append_assoc, List.take_append_drop]
            exact split_headerOf _
          · rw [List.length_take, List.length_drop, keyLength_eq]
            exact Nat.min_eq_left (by omega)
  · rintro (⟨h, rest, rfl, _, htop⟩ | ⟨h, k, rest, rfl, hk, hmax⟩)
    · have hlen : extLen h.byte1 ≤ (h.ext ++ rest).length := by
        rw [List.length_append, h.length_ext]
        omega
      have hb : h.bytes ++ rest = h.byte0 :: h.byte1 :: (h.ext ++ rest) := rfl
      rw [hb]
      exact WebsocketRequest.frameSpec_of_topBit hlen (by rw [header_take]; exact htop)
    · have hb : h.bytes ++ k ++ rest = h.byte0 :: h.byte1 :: (h.ext ++ (k ++ rest)) := by
        simp [Header.bytes]
      have hlen : (h.ext ++ (k ++ rest)).length =
          extLen h.byte1 + (keyLen h.byte1 + rest.length) := by
        simp only [List.length_append, h.length_ext, hk, keyLength_eq]
      have hdecl : declaredLen h.byte1 h.ext = h.declared := rfl
      rw [hb]
      by_cases htop : 2 ^ 63 ≤ h.declared
      · exact WebsocketRequest.frameSpec_of_topBit (by omega) (by rw [header_take]; exact htop)
      · simp only [frameSpec, header_take, hdecl]
        rw [if_neg (by omega), if_neg htop, if_neg (by omega), if_pos hmax]

/-- A complete frame at the front of the buffer is taken off, and what it says is recorded. -/
theorem WebsocketRequest.tryConsumeFrame_framed (r : WebsocketRequest) {k c rest : Bytes}
    (hf : Framed b h k c rest) : ∃ r' : WebsocketRequest,
      r.tryConsumeFrame b = (.ok, r', rest) ∧ r'.fin = h.byte0 >>> 7 ∧
        r'.opcode = h.byte0 &&& 0x0f ∧ r'.payloadLength.toNat = h.declared ∧
        r'.payload = h.payload k c ∧ r'.payload.length = h.declared := by
  have hans := r.tryConsumeFrame_answers b
  rw [frameSpec_of_framed hf] at hans
  obtain ⟨h₁, hframe, h₂, hlen, _⟩ := hans
  have hpayload : (r.tryConsumeFrame b).2.1.payload = h.payload k c :=
    congrArg Frame.payload hframe
  have hdecl : (h.payload k c).length = h.declared := by
    rw [← hf.length_payload, Header.payload]
    split_ifs
    · rw [List.length_mapIdx]
    · rfl
  refine ⟨(r.tryConsumeFrame b).2.1, ?_, congrArg Frame.fin hframe, congrArg Frame.opcode hframe,
    hlen.trans hdecl, hpayload, by rw [hpayload, hdecl]⟩
  rw [← h₁, ← h₂]

end Exact

/-- **The parser is an exact prefix decoder.**  It takes a frame off exactly when one is complete at
the front of the buffer, and records it; it gives up exactly when the buffer is refused; and else it
asks for more and leaves the buffer alone.  The sum of the lengths it compares with the size of the
buffer does not wrap.  That it reads within the buffer is part of its type: every read of a header
byte carries the proof of its bound, and the payload it records is as long as the header declares.
-/
theorem tryConsumeFrame_exact (r : WebsocketRequest) (b : Bytes) :
    (∀ h k c rest, Framed b h k c rest → ∃ r' : WebsocketRequest,
      r.tryConsumeFrame b = (.ok, r', rest) ∧ r'.fin = h.byte0 >>> 7 ∧
        r'.opcode = h.byte0 &&& 0x0f ∧ r'.payloadLength.toNat = h.declared ∧
        r'.payload = h.payload k c ∧ r'.payload.length = h.declared) ∧
    ((r.tryConsumeFrame b).1 = .ok ↔ HasFrame b) ∧
    ((r.tryConsumeFrame b).1 = .error ↔ Refused b) ∧
    ((r.tryConsumeFrame b).1 = .needMore ↔ ¬ HasFrame b ∧ ¬ Refused b) ∧
    ((r.tryConsumeFrame b).1 ≠ .ok → (r.tryConsumeFrame b).2.2 = b) ∧
    ∀ h : Header, h.declared ≤ wsMaxPayloadBytes →
      (h.bytes.length + h.keyLength + h.declared) % 2 ^ 64 =
        h.bytes.length + h.keyLength + h.declared := by
  obtain ⟨hok, herror, hmore⟩ := r.answer_iff b
  have hframe : (∃ f rest, frameSpec b = .item f rest) ↔ HasFrame b := by
    constructor
    · rintro ⟨f, rest, hspec⟩
      obtain ⟨h, k, c, hf⟩ := framed_of_frameSpec hspec
      exact ⟨h, k, c, rest, hf⟩
    · rintro ⟨h, k, c, rest, hf⟩
      exact ⟨_, _, frameSpec_of_framed hf⟩
  refine ⟨?_, hok.trans hframe, herror.trans frameSpec_eq_bad_iff, ?_, ?_, ?_⟩
  · exact fun h k c rest hf => r.tryConsumeFrame_framed hf
  · rw [hmore, ← hframe, ← frameSpec_eq_bad_iff]
    cases frameSpec b <;> simp
  · intro hne
    rcases hr : r.tryConsumeFrame b with ⟨answer, r', b'⟩
    cases answer with
    | ok => exact absurd (congrArg Prod.fst hr) hne
    | needMore => exact (WebsocketRequest.frameSpec_of_needMore hr).2
    | error => exact (WebsocketRequest.frameSpec_of_error hr).2
  · intro h hle
    have hbytes := h.length_bytes_le
    have hkey : h.keyLength ≤ 4 := by
      rw [Header.keyLength]
      split_ifs
      · exact Nat.le_refl _
      · exact Nat.zero_le _
    simp only [wsMaxPayloadBytes] at hle
    exact Nat.mod_eq_of_lt (by omega)

/-! ### The loop around it -/

namespace WebsocketRequest

/-- What the loop has taken off, whether it met an error, and what it leaves. -/
structure Outcome where
  frames : List Frame
  error : Bool
  request : WebsocketRequest
  buf : Bytes

/-- A frame that is taken off shortens the buffer. -/
theorem length_lt_of_ok {r r' : WebsocketRequest} {b b' : Bytes}
    (h : r.tryConsumeFrame b = (.ok, r', b')) : b'.length < b.length :=
  length_lt_of_frameSpec_item (frameSpec_of_ok h)

/-- The frame loop on one buffer: `try_consume_frame` is called until it does not return
`WS_PARSE_OK`. -/
def consumeFrames (r : WebsocketRequest) (buf : Bytes) : Outcome :=
  match h : r.tryConsumeFrame buf with
  | (.ok, r', buf') =>
      have : buf'.length < buf.length := length_lt_of_ok h
      let out := consumeFrames r'.reset buf'
      { out with frames := r'.frame :: out.frames }
  | (.needMore, r', buf') => ⟨[], false, r', buf'⟩
  | (.error, r', buf') => ⟨[], true, r', buf'⟩
termination_by buf.length

/-- The loop on a stream: each chunk is appended to the buffer, and an error is final. -/
def consumeChunks (r : WebsocketRequest) (buf : Bytes) : List Bytes → Outcome
  | [] => ⟨[], false, r, buf⟩
  | chunk :: chunks =>
      let out := r.consumeFrames (buf ++ chunk)
      if out.error then out
      else
        let more := out.request.consumeChunks out.buf chunks
        { more with frames := out.frames ++ more.frames }

/-- `n` calls, each of which takes a frame off. -/
def takeFrames : ℕ → WebsocketRequest → Bytes → Option (List Frame × Bytes)
  | 0, _, buf => some ([], buf)
  | n + 1, r, buf =>
      match r.tryConsumeFrame buf with
      | (.ok, r', buf') => (takeFrames n r'.reset buf').map fun out => (r'.frame :: out.1, out.2)
      | _ => none

/-- An outcome of the loop on the buffer `b`: the complete frames, and what is left behind them. -/
structure Consumed (b : Bytes) (out : Outcome) : Prop where
  frames : out.frames = frameDecoder.items b
  buf : out.buf = frameDecoder.residual b
  error : out.error = true ↔ frameSpec (frameDecoder.residual b) = .bad

/-- Where no frame is complete the loop takes nothing off. -/
theorem consumed_of_stuck {buf : Bytes} {out : Outcome} (hstuck : frameDecoder.Stuck buf)
    (hframes : out.frames = []) (hbuf : out.buf = buf)
    (herror : out.error = true ↔ frameSpec buf = .bad) : Consumed buf out := by
  have hres : frameDecoder.residual buf = buf :=
    Decoder.residual_of_decodes (Decoder.Decodes.nil _) hstuck
  exact ⟨by rw [hframes, Decoder.items_of_stuck hstuck], by rw [hbuf, hres], by rw [hres, herror]⟩

/-- **The loop takes off the complete frames** and stops at what is left behind them. -/
theorem consumeFrames_consumed (r : WebsocketRequest) (buf : Bytes) :
    Consumed buf (r.consumeFrames buf) := by
  induction hn : buf.length using Nat.strongRecOn generalizing r buf with
  | _ n ih =>
      rw [consumeFrames]
      split
      · rename_i r' buf' hr
        have hspec := frameSpec_of_ok hr
        have hlt := length_lt_of_ok hr
        obtain ⟨hframes, hbuf, herror⟩ := ih buf'.length (by omega) r'.reset buf' rfl
        have hitems : frameDecoder.items buf = r'.frame :: frameDecoder.items buf' :=
          Decoder.items_of_item hspec
        have hres : frameDecoder.residual buf' = frameDecoder.residual buf :=
          Decoder.residual_of_item hspec
        exact ⟨by rw [hitems, ← hframes], by rw [← hres, ← hbuf], by rw [← hres, ← herror]⟩
      · rename_i r' buf' hr
        obtain ⟨hspec, hbuf⟩ := frameSpec_of_needMore hr
        exact consumed_of_stuck (stuck_of_more hspec) rfl hbuf (by simp [hspec])
      · rename_i r' buf' hr
        obtain ⟨hspec, hbuf⟩ := frameSpec_of_error hr
        exact consumed_of_stuck (stuck_of_bad hspec) rfl hbuf (by simp [hspec])

/-- The outcome of the loop on a stream: that of one buffer which holds all of it, but that the
buffer is only known where there was no error. -/
structure ConsumedAll (s : Bytes) (out : Outcome) : Prop where
  frames : out.frames = frameDecoder.items s
  error : out.error = true ↔ frameSpec (frameDecoder.residual s) = .bad
  buf : out.error = false → out.buf = frameDecoder.residual s

/-- **Chunks make no difference.**  The induction is on the chunks; what it carries is that the
buffer holds no complete frame and nothing malformed. -/
theorem consumeChunks_consumed (r : WebsocketRequest) {buf : Bytes} (hbuf : frameSpec buf = .more)
    (chunks : List Bytes) : ConsumedAll (buf ++ chunks.flatten) (r.consumeChunks buf chunks) := by
  induction chunks generalizing r buf with
  | nil =>
      have hstuck := stuck_of_more hbuf
      have hres : frameDecoder.residual buf = buf :=
        Decoder.residual_of_decodes (Decoder.Decodes.nil _) hstuck
      rw [List.flatten_nil, List.append_nil, consumeChunks]
      exact ⟨(Decoder.items_of_stuck hstuck).symm, by simp [hres, hbuf], fun _ => hres.symm⟩
  | cons chunk chunks ih =>
      obtain ⟨hframes, hres, herror⟩ := r.consumeFrames_consumed (buf ++ chunk)
      obtain ⟨hitems, hresidual⟩ := Decoder.items_append
        (frameDecoder.decodes_items (buf ++ chunk)) chunks.flatten
      rw [List.flatten_cons, ← List.append_assoc, consumeChunks]
      dsimp only
      split_ifs with he
      · -- an error is final: nothing behind it is decoded
        have hbad := frameSpec_append_of_bad chunks.flatten (herror.1 he)
        have hstuck := stuck_of_bad hbad
        have hlast : frameDecoder.residual (buf ++ chunk ++ chunks.flatten) =
            frameDecoder.residual (buf ++ chunk) ++ chunks.flatten := by
          rw [hresidual]
          exact Decoder.residual_of_decodes (Decoder.Decodes.nil _) hstuck
        refine ⟨?_, ?_, fun hno => ?_⟩
        · rw [hframes, hitems, Decoder.items_of_stuck hstuck, List.append_nil]
        · rw [hlast, hbad]
          simp [he]
        · rw [he] at hno
          cases hno
      · have hmore : frameSpec (r.consumeFrames (buf ++ chunk)).buf = .more := by
          rw [hres]
          cases hspec : frameSpec (frameDecoder.residual (buf ++ chunk)) with
          | more => rfl
          | bad => exact absurd (herror.2 hspec) he
          | item f rest => exact absurd hspec (frameDecoder.stuck_residual _ f rest)
        obtain ⟨hframes', herror', hbuf'⟩ := ih (r.consumeFrames (buf ++ chunk)).request hmore
        rw [hres] at hframes' herror' hbuf'
        refine ⟨?_, ?_, ?_⟩
        · rw [hitems, hframes, hres, hframes']
        · rw [hresidual, hres, herror']
        · rw [hresidual, hres]
          exact hbuf'

end WebsocketRequest

/-- **Decoding does not depend on the chunks.**  However a stream is cut, the loop ends and takes
the same frames off, meets an error or does not, and leaves the same buffer when it does not.  For a
single call: a frame taken off, and an error, stay what they are whatever follows. -/
theorem chunking_irrelevant :
    (∀ (r r' : WebsocketRequest) (chunks chunks' : List Bytes),
      chunks.flatten = chunks'.flatten →
        (r.consumeChunks [] chunks).frames = (r'.consumeChunks [] chunks').frames ∧
        (r.consumeChunks [] chunks).error = (r'.consumeChunks [] chunks').error ∧
        ((r.consumeChunks [] chunks).error = false →
          (r.consumeChunks [] chunks).buf = (r'.consumeChunks [] chunks').buf)) ∧
    (∀ (r r₁ : WebsocketRequest) (b rest y : Bytes), r.tryConsumeFrame b = (.ok, r₁, rest) →
      ∃ r₂ : WebsocketRequest, r.tryConsumeFrame (b ++ y) = (.ok, r₂, rest ++ y) ∧
        r₂.frame = r₁.frame) ∧
    ∀ (r : WebsocketRequest) (b y : Bytes), (r.tryConsumeFrame b).1 = .error →
      (r.tryConsumeFrame (b ++ y)).1 = .error ∧ (r.tryConsumeFrame (b ++ y)).2.2 = b ++ y := by
  refine ⟨?_, ?_, ?_⟩
  · intro r r' chunks chunks' hflat
    have hmore : frameSpec [] = .more := rfl
    obtain ⟨hframes, herror, hbuf⟩ := r.consumeChunks_consumed hmore chunks
    obtain ⟨hframes', herror', hbuf'⟩ := r'.consumeChunks_consumed hmore chunks'
    rw [← hflat] at hframes' herror' hbuf'
    have hsame : (r.consumeChunks [] chunks).error = (r'.consumeChunks [] chunks').error := by
      rw [Bool.eq_iff_iff, herror, herror']
    exact ⟨hframes.trans hframes'.symm, hsame, fun hno =>
      (hbuf hno).trans (hbuf' (by rw [← hsame, hno])).symm⟩
  · intro r r₁ b rest y hr
    have hspec := frameSpec_append_of_item y (WebsocketRequest.frameSpec_of_ok hr)
    have hans := r.tryConsumeFrame_answers (b ++ y)
    rw [hspec] at hans
    obtain ⟨h₁, hframe, h₂, _⟩ := hans
    exact ⟨(r.tryConsumeFrame (b ++ y)).2.1, by rw [← h₁, ← h₂], hframe⟩
  · intro r b y hr
    have hspec := frameSpec_append_of_bad y ((r.answer_iff b).2.1.1 hr)
    have hans := r.tryConsumeFrame_answers (b ++ y)
    rw [hspec] at hans
    exact hans

/-! ### Encoder and decoder -/

/-- A frame the format can say: one FIN bit, four bits of opcode, a payload within the limit. -/
structure Sendable (m : Frame) : Prop where
  fin_le : m.fin ≤ 1
  opcode_lt : m.opcode < 16
  length_le : m.payload.length ≤ wsMaxPayloadBytes

/-- What `pack_data` makes of a frame, as every caller asks. -/
def packed (m : Frame) : Option Bytes :=
  WebsocketRespond.packData (some m.payload) m.payload.length m.fin m.opcode websocketNeedNotMask

/-- The frame on the wire, with or without a key. -/
def onWire (key : Option Key) (m : Frame) : WireFrame :=
  ⟨decide (m.fin = 1), 0, Fin.ofNat 16 m.opcode.toNat, key, m.payload⟩

section Codec

variable {m : Frame} {key : Option Key}

theorem Sendable.fin_eq (h : Sendable m) : UInt8.ofNat (decide (m.fin = 1)).toNat = m.fin := by
  have hle := UInt8.le_iff_toNat_le.1 h.fin_le
  by_cases h1 : m.fin = 1
  · simp [h1]
  · have h0 : m.fin = 0 := by
      have hne : m.fin.toNat ≠ 1 := fun he => h1 (UInt8.toNat_inj.1 he)
      refine UInt8.toNat_inj.1 ?_
      change m.fin.toNat ≤ 1 at hle
      change m.fin.toNat = 0
      omega
    simp [h0]

theorem Sendable.opcode_eq (h : Sendable m) :
    UInt8.ofNat (Fin.ofNat 16 m.opcode.toNat).val = m.opcode := by
  have hlt := UInt8.lt_iff_toNat_lt.1 h.opcode_lt
  change m.opcode.toNat < 16 at hlt
  rw [Fin.val_ofNat, Nat.mod_eq_of_lt hlt, UInt8.ofNat_toNat]

/-- The parser records the frame that was sent. -/
theorem wireContent_onWire (h : Sendable m) : wireContent (onWire key m) = m := by
  rw [wireContent, onWire, h.fin_eq, h.opcode_eq]

theorem packed_eq (h : Sendable m) : packed m = some (onWire none m).encode := by
  have hmax : wsMaxPayloadBytes < 2 ^ 64 := by decide
  have hpack := WebsocketRespond.packData_eq_encode (onWire none m) rfl rfl
    (lt_of_le_of_lt h.length_le hmax)
  rw [show (onWire none m).fin = decide (m.fin = 1) from rfl,
    show (onWire none m).opcode = Fin.ofNat 16 m.opcode.toNat from rfl, h.fin_eq, h.opcode_eq]
      at hpack
  exact hpack

/-- **Frames on the wire are taken off one by one**, and what follows them is left. -/
theorem WebsocketRequest.takeFrames_encode (r : WebsocketRequest) (ws : List WireFrame)
    (hws : ∀ w ∈ ws, w.payload.length ≤ wsMaxPayloadBytes) (t : Bytes) :
    r.takeFrames ws.length (ws.flatMap WireFrame.encode ++ t) = some (ws.map wireContent, t) := by
  induction ws generalizing r with
  | nil => rfl
  | cons w ws ih =>
      have hspec := frameSpec_encode w (hws w List.mem_cons_self) (ws.flatMap WireFrame.encode ++ t)
      have hans := r.tryConsumeFrame_answers (w.encode ++ (ws.flatMap WireFrame.encode ++ t))
      rw [hspec] at hans
      rcases hr : r.tryConsumeFrame (w.encode ++ (ws.flatMap WireFrame.encode ++ t)) with
        ⟨answer, r', b'⟩
      rw [hr] at hans
      have hok : answer = .ok := hans.1
      have hframe : r'.frame = wireContent w := hans.2.1
      have hrest : b' = ws.flatMap WireFrame.encode ++ t := hans.2.2.1
      subst hok hrest
      have ih := ih r'.reset fun w' hw' => hws w' (List.mem_cons_of_mem _ hw')
      rw [List.flatMap_cons, List.append_assoc, List.length_cons, takeFrames, hr]
      dsimp only
      rw [ih, Option.map_some, hframe, List.map_cons]

/-- The header of a frame on the wire. -/
def wireHeader (w : WireFrame) : Header :=
  ⟨w.byte0, w.byte1, WireFrame.extendedLength w.payload.length, (extLen_byte1 w).symm⟩

theorem declared_wireHeader (w : WireFrame) (h : w.payload.length < 2 ^ 64) :
    (wireHeader w).declared = w.payload.length :=
  declaredLen_byte1 w h

/-- The header is as long as `pack_data` says. -/
theorem length_bytes_wireHeader (w : WireFrame) :
    (wireHeader w).bytes.length = WebsocketRespond.hdr w.payload.length := by
  have hlen : (wireHeader w).bytes.length =
      (WireFrame.extendedLength w.payload.length).length + 2 := rfl
  rw [hlen, WireFrame.extendedLength, WebsocketRespond.hdr]
  by_cases h1 : w.payload.length < 126
  · simp [h1]
  · by_cases h2 : w.payload.length < 65536
    · have h2' : w.payload.length ≤ 0xFFFF := by omega
      simp [h1, h2, h2']
    · have h2' : ¬ w.payload.length ≤ 0xFFFF := by omega
      simp [h1, h2, h2']

/-- **No header that declares the same length is shorter.** -/
theorem hdr_le (h : Header) : WebsocketRespond.hdr h.declared ≤ h.bytes.length := by
  have hext := ofBigEndian_lt h.ext
  have hlen := h.length_ext
  rw [Header.length_bytes, WebsocketRespond.hdr, Header.declared, declaredLen]
  unfold extLen at hlen
  by_cases h7 : h.byte1 &&& 0x7f < 126
  · have hsmall : (h.byte1 &&& 0x7f).toNat < 126 := UInt8.lt_iff_toNat_lt.1 h7
    rw [if_pos h7, if_pos h7, if_pos hsmall]
  · rw [if_neg h7, if_neg h7]
    rw [if_neg h7] at hlen
    split_ifs at hlen ⊢ <;> first | omega | (rw [hlen] at hext; omega)

/-- **The parser gives back what was encoded.**  For every list of frames and every tail: as many
calls as there are frames return them in order from the encodings `pack_data` makes and leave the
tail; an encoding has the shortest header that declares its length, not masked, and `*out_len` is
its size; and the same frames are returned when each is masked with a key of its own. -/
theorem encoder_decoder_agree (ms : List Frame) (hms : ∀ m ∈ ms, Sendable m) (t : Bytes)
    (r : WebsocketRequest) :
    (∃ outs : List Bytes, ms.map packed = outs.map some ∧
      r.takeFrames ms.length (outs.flatten ++ t) = some (ms, t)) ∧
    (∀ m ∈ ms, ∃ (out : Bytes) (h : Header), packed m = some out ∧ out = h.bytes ++ m.payload ∧
      h.declared = m.payload.length ∧ ¬ h.Masked ∧
      (∀ h' : Header, h'.declared = m.payload.length → h.bytes.length ≤ h'.bytes.length) ∧
      out.length = WebsocketRespond.total m.payload.length) ∧
    ∀ keys : List Key, keys.length = ms.length →
      r.takeFrames ms.length ((List.zipWith (fun key m => onWire (some key) m) keys ms).flatMap
        WireFrame.encode ++ t) = some (ms, t) := by
  have hmax : wsMaxPayloadBytes < 2 ^ 64 := by decide
  refine ⟨⟨ms.map fun m => (onWire none m).encode, ?_, ?_⟩, ?_, ?_⟩
  · rw [List.map_map]
    exact List.map_congr_left fun m hm => packed_eq (hms m hm)
  · have htake := r.takeFrames_encode (ms.map (onWire none)) (by
      intro w hw
      obtain ⟨m, hm, rfl⟩ := List.mem_map.1 hw
      exact (hms m hm).length_le) t
    have hcontent : (ms.map (onWire none)).map wireContent = ms := by
      rw [List.map_map]
      have hsame : ms.map (wireContent ∘ onWire none) = ms.map id :=
        List.map_congr_left fun m hm => wireContent_onWire (hms m hm)
      rw [hsame, List.map_id]
    rw [List.length_map, List.flatMap_map, hcontent] at htake
    exact htake
  · intro m hm
    have hlt : (onWire none m).payload.length < 2 ^ 64 := lt_of_le_of_lt (hms m hm).length_le hmax
    have hdecl := declared_wireHeader (onWire none m) hlt
    have hhdr := length_bytes_wireHeader (onWire none m)
    have hout : (onWire none m).encode = (wireHeader (onWire none m)).bytes ++ m.payload := by
      simp [WireFrame.encode, WireFrame.keyBytes, WireFrame.maskedPayload, Header.bytes, wireHeader,
        onWire]
    refine ⟨_, wireHeader (onWire none m), packed_eq (hms m hm), hout, hdecl, ?_, ?_, ?_⟩
    · have hmask : (wireHeader (onWire none m)).byte1 >>> 7 = 0 := byte1_shiftRight (onWire none m)
      exact fun hne => hne hmask
    · intro h' hh'
      rw [hhdr, show (onWire none m).payload.length = h'.declared from hh'.symm]
      exact hdr_le h'
    · have hle := (wireHeader (onWire none m)).length_bytes_le
      have hsmall := (hms m hm).length_le
      have hlen : (wireHeader (onWire none m)).bytes.length =
          WebsocketRespond.hdr m.payload.length :=
        hhdr
      simp only [wsMaxPayloadBytes] at hsmall
      rw [hout, List.length_append, WebsocketRespond.total, ← hlen]
      exact (Nat.mod_eq_of_lt (by omega)).symm
  · intro keys hkeys
    have hlen : (List.zipWith (fun key m => onWire (some key) m) keys ms).length = ms.length := by
      rw [List.length_zipWith, hkeys, Nat.min_self]
    have hcontent : (List.zipWith (fun key m => onWire (some key) m) keys ms).map wireContent =
        ms := by
      rw [List.map_zipWith]
      refine List.ext_getElem (by rw [List.length_zipWith, hkeys, Nat.min_self]) fun i _ hi => ?_
      rw [List.getElem_zipWith]
      exact wireContent_onWire (hms _ (List.getElem_mem hi))
    have htake := r.takeFrames_encode (List.zipWith (fun key m => onWire (some key) m) keys ms) (by
      intro w hw
      obtain ⟨i, hi, rfl⟩ := List.getElem_of_mem hw
      rw [hlen] at hi
      rw [List.getElem_zipWith]
      exact (hms _ (List.getElem_mem hi)).length_le) t
    rw [hlen, hcontent] at htake
    exact htake

/-- A fragment, an empty text frame and a binary frame of NULs. -/
def sampleFrames : List Frame := [⟨0, 1, ascii "Hel"⟩, ⟨1, 1, []⟩, ⟨1, 2, [0, 0]⟩]

theorem encoder_decoder_agree_sample :
    ∃ outs : List Bytes, sampleFrames.map packed = outs.map some ∧
    WebsocketRequest.new.takeFrames 3 (outs.flatten ++ [0x81]) = some (sampleFrames, [0x81]) :=
  (encoder_decoder_agree sampleFrames
    (by
      intro m hm
      simp only [sampleFrames, List.mem_cons, List.not_mem_nil, or_false] at hm
      rcases hm with rfl | rfl | rfl
      · exact ⟨by decide, by decide, by decide⟩
      · exact ⟨by decide, by decide, by decide⟩
      · exact ⟨by decide, by decide, by decide⟩)
    [0x81] WebsocketRequest.new).1

end Codec

end WebSocketDemo
