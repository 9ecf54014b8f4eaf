/-
**What the frame parser accepts, and what the encoder writes.**

`tryConsumeFrame` reads the three length forms on three paths.  `frameSpec` says in one formula
what all of them do; the parser is shown to compute it, whatever the request held before.  From the
formula follow the two laws of an incremental decoder, that an answer survives more input, and that
the parser reads back every frame of the protocol.  On the other side `packData` is shown to write
the wire form of a frame that a server may send.

Main definitions:

* `frameSpec` — the answer of the parser as a function of the buffer;
* `frameDecoder` — the parser as an incremental decoder;
* `serverFrame` — the protocol's view of what `packData` writes.

Main results:

* `WebsocketRequest.tryConsumeFrame_answers` — **the parser computes `frameSpec`**;
* `frameSpec_encode` — **a frame on the wire is read back, and what follows it is left**;
* `WebsocketRespond.packData_eq_encode` — **`pack_data` writes the wire form of its frame**.
-/

import WebSocketDemo.NetworkInterface
import WebSocketDemo.Lib.PrefixDecoder
import WebSocketDemo.Lib.Rfc6455
import Mathlib.Tactic.Linarith

set_option relaxedAutoImplicit false
set_option autoImplicit false

namespace WebSocketDemo

open ByteOrder PrefixDecoder Rfc6455

/-! ### The header -/

/-- The number of bytes of the extended length. -/
def extLen (b₁ : UInt8) : ℕ :=
  if b₁ &&& 0x7f < 126 then 0 else if b₁ &&& 0x7f = 126 then 2 else 8

/-- The number of bytes of the masking key. -/
def keyLen (b₁ : UInt8) : ℕ := if b₁ >>> 7 ≠ 0 then 4 else 0

/-- The payload length a header declares, given the bytes of the extended length. -/
def declaredLen (b₁ : UInt8) (ext : Bytes) : ℕ :=
  if b₁ &&& 0x7f < 126 then (b₁ &&& 0x7f).toNat else ofBigEndian ext

/-- The key at the front of a buffer. -/
def keyAt (b : Bytes) : Key := #v[b.getD 0 0, b.getD 1 0, b.getD 2 0, b.getD 3 0]

/-- The payload behind an optional key. -/
def unmask (b₁ : UInt8) (key body : Bytes) : Bytes :=
  if b₁ >>> 7 ≠ 0 then mask (keyAt key) body else body

/-- **The answer of the parser.**  The order of the tests is the source's: a 64-bit length with its
top bit set is refused before the key is there, a length above the limit only behind it. -/
def frameSpec : Bytes → Verdict UInt8 Frame
  | b₀ :: b₁ :: t =>
      let len := declaredLen b₁ (t.take (extLen b₁))
      let headerLen := extLen b₁ + keyLen b₁
      if t.length < extLen b₁ then .more
      else if 2 ^ 63 ≤ len then .bad
      else if t.length < headerLen then .more
      else if wsMaxPayloadBytes < len then .bad
      else if t.length < headerLen + len then .more
      else
        .item ⟨b₀ >>> 7, b₀ &&& 0x0f,
            unmask b₁ (t.drop (extLen b₁)) ((t.drop headerLen).take len)⟩
          (t.drop (headerLen + len))
  | _ => .more

namespace WebsocketRequest

/-- The request answers a verdict: the result code, the frame taken off and the buffer left. -/
def Answers (out : ParseResult × WebsocketRequest × Bytes) (buf : Bytes) :
    Verdict UInt8 Frame → Prop
  | .more => out.1 = .needMore ∧ out.2.2 = buf
  | .bad => out.1 = .error ∧ out.2.2 = buf
  | .item f rest =>
      out.1 = .ok ∧ out.2.1.frame = f ∧ out.2.2 = rest ∧
        out.2.1.payloadLength.toNat = f.payload.length ∧ f.payload.length ≤ wsMaxPayloadBytes

theorem consumePayload_answers (self : WebsocketRequest) (buf : Bytes) (headerLen : ℕ)
    (payloadLen : UInt64) (hh : headerLen ≤ 14) :
    Answers (self.consumePayload buf headerLen payloadLen) buf
      (if wsMaxPayloadBytes < payloadLen.toNat then .bad
        else if buf.length < headerLen + payloadLen.toNat then .more
        else
          .item ⟨self.fin, self.opcode,
              if self.mask ≠ 0 then
                Rfc6455.mask self.maskingKey ((buf.drop headerLen).take payloadLen.toNat)
              else (buf.drop headerLen).take payloadLen.toNat⟩
            (buf.drop (headerLen + payloadLen.toNat))) := by
  unfold consumePayload
  by_cases hmax : wsMaxPayloadBytes < payloadLen.toNat
  · simp [hmax, Answers]
  · -- within the limit the sum of the two lengths does not wrap
    have htotal : (headerLen + payloadLen.toNat) % 2 ^ 64 = headerLen + payloadLen.toNat := by
      simp only [wsMaxPayloadBytes] at hmax
      exact Nat.mod_eq_of_lt (by omega)
    simp only [gt_iff_lt, hmax, if_false, htotal]
    by_cases hlen : buf.length < headerLen + payloadLen.toNat
    · simp [hlen, Answers]
    · have htake : ((buf.drop headerLen).take payloadLen.toNat).length = payloadLen.toNat := by
        simp
        omega
      simp only [hlen, if_false, Answers, frame, true_and]
      by_cases hm : self.mask = 0
      · simp [hm, htake]
        omega
      · simp only [ne_eq, hm, not_false_iff, if_true, length_mask, htake]
        exact ⟨rfl, trivial, by omega⟩

/-- The four bytes read one by one are the key at that place of the buffer. -/
theorem keyAt_drop (buf : Bytes) (n : ℕ) (h₀ : n < buf.length) (h₁ : n + 1 < buf.length)
    (h₂ : n + 2 < buf.length) (h₃ : n + 3 < buf.length) :
    (#v[buf[n], buf[n + 1], buf[n + 2], buf[n + 3]] : Key) = keyAt (buf.drop n) := by
  have hget (i : ℕ) (hi : n + i < buf.length) : (buf.drop n).getD i 0 = buf[n + i] := by
    simp [List.getD_eq_getElem?_getD, List.getElem?_eq_getElem hi]
  simp only [keyAt, hget 0 h₀, hget 1 h₁, hget 2 h₂, hget 3 h₃, Nat.add_zero]

theorem consumeBody_answers (self : WebsocketRequest) (buf : Bytes) (headerLen : ℕ)
    (payloadLen : UInt64) (b₁ : UInt8) (hmask : self.mask = b₁ >>> 7) (hh : headerLen ≤ 10)
    (hbuf : headerLen ≤ buf.length) :
    Answers (self.consumeBody buf headerLen payloadLen) buf
      (if buf.length < headerLen + keyLen b₁ then .more
        else if wsMaxPayloadBytes < payloadLen.toNat then .bad
        else if buf.length < headerLen + keyLen b₁ + payloadLen.toNat then .more
        else
          .item ⟨self.fin, self.opcode,
              unmask b₁ (buf.drop headerLen)
                ((buf.drop (headerLen + keyLen b₁)).take payloadLen.toNat)⟩
            (buf.drop (headerLen + keyLen b₁ + payloadLen.toNat))) := by
  unfold consumeBody
  by_cases hm : b₁ >>> 7 = 0
  · have hkey : keyLen b₁ = 0 := by simp [keyLen, hm]
    have hm' : self.mask = 0 := by rw [hmask, hm]
    simp only [hm', hkey, ne_eq, not_true, if_false, Nat.add_zero, unmask, hm]
    have hp := consumePayload_answers { self with maskingKey := #v[0, 0, 0, 0] } buf headerLen
      payloadLen (by omega)
    simp only [hm', ne_eq, not_true, if_false] at hp
    have hlen : ¬ buf.length < headerLen := by omega
    simpa only [hlen, if_false] using hp
  · have hkey : keyLen b₁ = 4 := by simp [keyLen, hm]
    have hm' : self.mask ≠ 0 := by rw [hmask]; exact hm
    simp only [hm', hkey, ne_eq, not_false_iff, if_true, unmask, hm]
    by_cases hlen : buf.length < headerLen + 4
    · simp [hlen, Answers]
    · simp only [hlen, dite_false, if_false]
      have hp := consumePayload_answers
        { self with
          maskingKey := #v[buf[headerLen], buf[headerLen + 1], buf[headerLen + 2],
            buf[headerLen + 3]] } buf (headerLen + 4) payloadLen (by omega)
      have hkeyAt := keyAt_drop buf headerLen (by omega) (by omega) (by omega) (by omega)
      simpa [hm', hkeyAt] using hp

/-- A 64-bit length with its top bit set. -/
theorem frameSpec_of_topBit {b₀ b₁ : UInt8} {t : Bytes} (ht : extLen b₁ ≤ t.length)
    (hlen : 2 ^ 63 ≤ declaredLen b₁ (t.take (extLen b₁))) : frameSpec (b₀ :: b₁ :: t) = .bad := by
  simp only [frameSpec]
  rw [if_neg (by omega), if_pos hlen]

/-- The formula behind a complete header, in the words of `consumeBody_answers`. -/
theorem frameSpec_of_header {b₀ b₁ : UInt8} {t : Bytes} {len : ℕ} (ht : extLen b₁ ≤ t.length)
    (hlen : declaredLen b₁ (t.take (extLen b₁)) = len) (h63 : len < 2 ^ 63) :
    frameSpec (b₀ :: b₁ :: t) =
      if (b₀ :: b₁ :: t).length < 2 + extLen b₁ + keyLen b₁ then .more
      else if wsMaxPayloadBytes < len then .bad
      else if (b₀ :: b₁ :: t).length < 2 + extLen b₁ + keyLen b₁ + len then .more
      else
        .item ⟨b₀ >>> 7, b₀ &&& 0x0f,
            unmask b₁ ((b₀ :: b₁ :: t).drop (2 + extLen b₁))
              (((b₀ :: b₁ :: t).drop (2 + extLen b₁ + keyLen b₁)).take len)⟩
          ((b₀ :: b₁ :: t).drop (2 + extLen b₁ + keyLen b₁ + len)) := by
  have hdrop (n : ℕ) : (b₀ :: b₁ :: t).drop (2 + n) = t.drop n := by
    rw [Nat.add_comm]
    rfl
  have hlt (n : ℕ) : (b₀ :: b₁ :: t).length < 2 + n ↔ t.length < n := by
    simp only [List.length_cons]
    omega
  have h1 : ¬ t.length < extLen b₁ := by omega
  have h2 : ¬ 2 ^ 63 ≤ len := by omega
  simp only [frameSpec, hlen, h1, h2, if_false, Nat.add_assoc 2, hdrop, hlt]

/-- One step of the loop that collects a 64-bit length. -/
theorem toNat_shift_or (x : UInt64) (b : UInt8) (hx : x.toNat < 2 ^ 56) :
    ((x <<< 8) ||| b.toUInt64).toNat = 256 * x.toNat + b.toNat := by
  have hb := b.toNat_lt
  rw [UInt64.toNat_or, UInt64.toNat_shiftLeft, UInt8.toNat_toUInt64]
  have hmod : x.toNat <<< (UInt64.toNat 8 % 64) % 2 ^ 64 = x.toNat <<< 8 := by
    have h8 : UInt64.toNat 8 % 64 = 8 := rfl
    rw [h8, Nat.shiftLeft_eq]
    exact Nat.mod_eq_of_lt (by omega)
  rw [hmod, ← Nat.shiftLeft_add_eq_or_of_lt hb, Nat.shiftLeft_eq]
  omega

/-- **The loop reads eight bytes as a big-endian number.** -/
theorem toNat_ext64 (e₀ e₁ e₂ e₃ e₄ e₅ e₆ e₇ : UInt8) :
    ([e₀, e₁, e₂, e₃, e₄, e₅, e₆, e₇].foldl (fun (ext : UInt64) e => (ext <<< 8) ||| e.toUInt64)
      0).toNat = ofBigEndian [e₀, e₁, e₂, e₃, e₄, e₅, e₆, e₇] := by
  have h₀ := e₀.toNat_lt
  have h₁ := e₁.toNat_lt
  have h₂ := e₂.toNat_lt
  have h₃ := e₃.toNat_lt
  have h₄ := e₄.toNat_lt
  have h₅ := e₅.toNat_lt
  have h₆ := e₆.toNat_lt
  have h₇ := e₇.toNat_lt
  simp only [List.foldl_cons, List.foldl_nil, ofBigEndian]
  -- before each step the accumulator is below 2 ^ 56
  have s₀ := toNat_shift_or 0 e₀ (by simp)
  have s₁ := toNat_shift_or _ e₁ (by rw [s₀]; simp; omega)
  have s₂ := toNat_shift_or _ e₂ (by rw [s₁, s₀]; simp; omega)
  have s₃ := toNat_shift_or _ e₃ (by rw [s₂, s₁, s₀]; simp; omega)
  have s₄ := toNat_shift_or _ e₄ (by rw [s₃, s₂, s₁, s₀]; simp; omega)
  have s₅ := toNat_shift_or _ e₅ (by rw [s₄, s₃, s₂, s₁, s₀]; simp; omega)
  have s₆ := toNat_shift_or _ e₆ (by rw [s₅, s₄, s₃, s₂, s₁, s₀]; simp; omega)
  have s₇ := toNat_shift_or _ e₇ (by rw [s₆, s₅, s₄, s₃, s₂, s₁, s₀]; simp; omega)
  rw [s₇, s₆, s₅, s₄, s₃, s₂, s₁, s₀]
  simp

/-- The test of the top bit. -/
theorem shiftRight_63_eq_zero {x : UInt64} : x >>> 63 = 0 ↔ x.toNat < 2 ^ 63 := by
  rw [← UInt64.toNat_inj, UInt64.toNat_shiftRight]
  have h63 : UInt64.toNat 63 % 64 = 63 := rfl
  rw [h63, Nat.shiftRight_eq_div_pow]
  have := x.toNat_lt
  constructor
  · intro h
    simp only [UInt64.toNat_zero] at h
    omega
  · intro h
    simp only [UInt64.toNat_zero]
    omega

/-- **The parser computes `frameSpec`**, whatever the request held before. -/
theorem tryConsumeFrame_answers (self : WebsocketRequest) (buf : Bytes) :
    Answers (self.tryConsumeFrame buf) buf (frameSpec buf) := by
  match buf with
  | [] => simp [tryConsumeFrame, frameSpec, Answers]
  | [_] => simp [tryConsumeFrame, frameSpec, Answers]
  | b₀ :: b₁ :: t =>
      have h2 : ¬ (b₀ :: b₁ :: t).length < 2 := by simp
      simp only [tryConsumeFrame, h2, dite_false, List.getElem_cons_zero, List.getElem_cons_succ]
      by_cases h7 : b₁ &&& 0x7f < 126
      · -- the 7-bit form
        have hext : extLen b₁ = 0 := by simp [extLen, h7]
        have hdecl : declaredLen b₁ (t.take (extLen b₁)) = (b₁ &&& 0x7f).toUInt64.toNat := by
          simp [declaredLen, h7]
        have hlt : (b₁ &&& 0x7f).toUInt64.toNat < 2 ^ 63 := by
          have := (b₁ &&& 0x7f).toNat_lt
          rw [UInt8.toNat_toUInt64]
          omega
        simp only [h7, if_true]
        rw [frameSpec_of_header (by omega) hdecl hlt, hext]
        exact consumeBody_answers _ _ 2 _ b₁ rfl (by omega) (by simp)
      · by_cases h126 : b₁ &&& 0x7f = 126
        · -- the 16-bit form
          have hext : extLen b₁ = 2 := by simp [extLen, h126]
          simp only [h126, UInt8.lt_irrefl, if_false, if_true]
          match t with
          | [] => simp [frameSpec, hext, Answers]
          | [_] => simp [frameSpec, hext, Answers]
          | e₀ :: e₁ :: t =>
              have h4 : ¬ (b₀ :: b₁ :: e₀ :: e₁ :: t).length < 4 := by simp
              have hdecl : declaredLen b₁ ((e₀ :: e₁ :: t).take (extLen b₁)) =
                  (swap16 (load16 e₀ e₁)).toUInt64.toNat := by
                simp [declaredLen, h126, hext, toNat_swap16_load16]
              have hlt : (swap16 (load16 e₀ e₁)).toUInt64.toNat < 2 ^ 63 := by
                have := (swap16 (load16 e₀ e₁)).toNat_lt
                rw [UInt16.toNat_toUInt64]
                omega
              simp only [h4, dite_false, List.getElem_cons_zero, List.getElem_cons_succ]
              rw [frameSpec_of_header (by simp [hext]) hdecl hlt, hext]
              exact consumeBody_answers _ _ 4 _ b₁ rfl (by omega) (by simp)
        · -- the 64-bit form
          have hext : extLen b₁ = 8 := by simp [extLen, h7, h126]
          simp only [h7, h126, if_false]
          by_cases h8 : t.length < 8
          · have h10 : (b₀ :: b₁ :: t).length < 10 := by
              simp only [List.length_cons]
              omega
            rw [dif_pos h10]
            simp [frameSpec, hext, h8, Answers]
          · obtain ⟨e₀, t, rfl⟩ := List.exists_cons_of_length_pos (l := t) (by omega)
            obtain ⟨e₁, t, rfl⟩ := List.exists_cons_of_length_pos (l := t) (by simp at h8; omega)
            obtain ⟨e₂, t, rfl⟩ := List.exists_cons_of_length_pos (l := t) (by simp at h8; omega)
            obtain ⟨e₃, t, rfl⟩ := List.exists_cons_of_length_pos (l := t) (by simp at h8; omega)
            obtain ⟨e₄, t, rfl⟩ := List.exists_cons_of_length_pos (l := t) (by simp at h8; omega)
            obtain ⟨e₅, t, rfl⟩ := List.exists_cons_of_length_pos (l := t) (by simp at h8; omega)
            obtain ⟨e₆, t, rfl⟩ := List.exists_cons_of_length_pos (l := t) (by simp at h8; omega)
            obtain ⟨e₇, t, rfl⟩ := List.exists_cons_of_length_pos (l := t) (by simp at h8; omega)
            rw [dif_neg (by simp)]
            generalize hx : List.foldl _ _ (List.finRange 8) = x
            have hval : x.toNat = ofBigEndian [e₀, e₁, e₂, e₃, e₄, e₅, e₆, e₇] := by
              rw [← hx]
              exact toNat_ext64 e₀ e₁ e₂ e₃ e₄ e₅ e₆ e₇
            have hdecl : declaredLen b₁
                ((e₀ :: e₁ :: e₂ :: e₃ :: e₄ :: e₅ :: e₆ :: e₇ :: t).take (extLen b₁)) =
                  x.toNat := by
              simp [declaredLen, h7, hext, hval]
            by_cases h63 : x >>> 63 = 0
            · have hlt : x.toNat < 2 ^ 63 := shiftRight_63_eq_zero.1 h63
              simp only [h63, ne_eq, not_true, if_false]
              rw [frameSpec_of_header (by simp [hext]) hdecl hlt, hext]
              exact consumeBody_answers _ _ 10 _ b₁ rfl (by omega) (by simp)
            · have hge : 2 ^ 63 ≤ x.toNat := by
                rw [shiftRight_63_eq_zero] at h63
                omega
              have hbad :
                  frameSpec (b₀ :: b₁ :: e₀ :: e₁ :: e₂ :: e₃ :: e₄ :: e₅ :: e₆ :: e₇ :: t) =
                  .bad :=
                frameSpec_of_topBit (by simp [hext]) (by rw [hdecl]; exact hge)
              simp only [h63, ne_eq, not_false_iff, if_true, hbad, Answers, and_self]

end WebsocketRequest

/-- A frame that is taken off is within the size limit. -/
theorem length_le_of_frameSpec_item {b r : Bytes} {f : Frame} (h : frameSpec b = .item f r) :
    f.payload.length ≤ wsMaxPayloadBytes := by
  have ha := WebsocketRequest.new.tryConsumeFrame_answers b
  rw [h] at ha
  exact ha.2.2.2.2

/-! ### The parser as an incremental decoder -/

theorem keyAt_append {b : Bytes} (y : Bytes) (h : 4 ≤ b.length) : keyAt (b ++ y) = keyAt b := by
  have hget (i : ℕ) (hi : i < 4) : (b ++ y).getD i 0 = b.getD i 0 :=
    List.getD_append b y 0 i (by omega)
  simp only [keyAt, hget 0 (by omega), hget 1 (by omega), hget 2 (by omega), hget 3 (by omega)]

/-- A key is looked at only where the header has one. -/
theorem unmask_append (b₁ : UInt8) {key : Bytes} (y body : Bytes) (h : keyLen b₁ ≤ key.length) :
    unmask b₁ (key ++ y) body = unmask b₁ key body := by
  unfold unmask keyLen at *
  by_cases hm : b₁ >>> 7 = 0
  · simp [hm]
  · simp only [ne_eq, hm, not_false_iff, if_true] at h ⊢
    rw [keyAt_append y h]

/-- **Taking a frame off does not depend on what follows it.** -/
theorem frameSpec_append_of_item {b r : Bytes} {f : Frame} (y : Bytes)
    (h : frameSpec b = .item f r) : frameSpec (b ++ y) = .item f (r ++ y) := by
  match b with
  | [] => simp [frameSpec] at h
  | [_] => simp [frameSpec] at h
  | b₀ :: b₁ :: t =>
      simp only [frameSpec] at h
      split_ifs at h with h1 h2 h3 h4 h5
      injection h with hf hr
      have htake : (t ++ y).take (extLen b₁) = t.take (extLen b₁) :=
        List.take_append_of_le_length (by omega)
      have hdrop (n : ℕ) (hn : n ≤ t.length) : (t ++ y).drop n = t.drop n ++ y :=
        List.drop_append_of_le_length hn
      have hbody : ((t.drop (extLen b₁ + keyLen b₁)) ++ y).take
          (declaredLen b₁ (t.take (extLen b₁))) =
          (t.drop (extLen b₁ + keyLen b₁)).take (declaredLen b₁ (t.take (extLen b₁))) :=
        List.take_append_of_le_length (by rw [List.length_drop]; omega)
      simp only [List.cons_append, frameSpec, htake, List.length_append]
      rw [if_neg (by omega), if_neg h2, if_neg (by omega), if_neg h4, if_neg (by omega),
        hdrop _ (by omega), hdrop _ (by omega), hdrop _ (by omega), hbody,
        unmask_append b₁ y _ (by rw [List.length_drop]; omega), hf, hr]

/-- **A parse error is final.** -/
theorem frameSpec_append_of_bad {b : Bytes} (y : Bytes) (h : frameSpec b = .bad) :
    frameSpec (b ++ y) = .bad := by
  match b with
  | [] => simp [frameSpec] at h
  | [_] => simp [frameSpec] at h
  | b₀ :: b₁ :: t =>
      simp only [frameSpec] at h
      have htake (hn : ¬ t.length < extLen b₁) : (t ++ y).take (extLen b₁) = t.take (extLen b₁) :=
        List.take_append_of_le_length (by omega)
      split_ifs at h with h1 h2 h3 h4
      · simp only [List.cons_append, frameSpec, htake h1, List.length_append]
        rw [if_neg (by omega), if_pos h2]
      · simp only [List.cons_append, frameSpec, htake h1, List.length_append]
        rw [if_neg (by omega), if_neg h2, if_neg (by omega), if_pos h4]

/-- A frame takes at least its two header bytes. -/
theorem length_lt_of_frameSpec_item {b r : Bytes} {f : Frame} (h : frameSpec b = .item f r) :
    r.length < b.length := by
  match b with
  | [] => simp [frameSpec] at h
  | [_] => simp [frameSpec] at h
  | b₀ :: b₁ :: t =>
      simp only [frameSpec] at h
      split_ifs at h
      injection h with _ hr
      rw [← hr, List.length_drop, List.length_cons, List.length_cons]
      omega

/-- A buffer that waits for more holds less than a frame of the greatest length. -/
theorem length_lt_of_frameSpec_more {b : Bytes} (h : frameSpec b = .more) :
    b.length < 14 + wsMaxPayloadBytes := by
  match b with
  | [] => simp
  | [_] => simp [wsMaxPayloadBytes]
  | b₀ :: b₁ :: t =>
      have hext : extLen b₁ ≤ 8 := by
        unfold extLen
        split_ifs <;> omega
      have hkey : keyLen b₁ ≤ 4 := by
        unfold keyLen
        split_ifs <;> omega
      rw [List.length_cons, List.length_cons]
      simp only [frameSpec] at h
      split_ifs at h <;> omega

/-- The frame parser as an incremental decoder. -/
def frameDecoder : Decoder UInt8 Frame where
  next := frameSpec
  next_append_of_item := frameSpec_append_of_item
  next_append_of_bad := frameSpec_append_of_bad
  length_lt_of_item := length_lt_of_frameSpec_item

theorem stuck_of_more {b : Bytes} (h : frameSpec b = .more) : frameDecoder.Stuck b := by
  intro x r hx
  rw [show frameDecoder.next b = .more from h] at hx
  cases hx

theorem stuck_of_bad {b : Bytes} (h : frameSpec b = .bad) : frameDecoder.Stuck b := by
  intro x r hx
  rw [show frameDecoder.next b = .bad from h] at hx
  cases hx

/-- A buffer no frame can fill waits for nothing: more input completes no frame in it. -/
theorem items_append_eq_nil_iff {b : Bytes} (y : Bytes) (hb : 14 + wsMaxPayloadBytes ≤ b.length) :
    frameDecoder.items (b ++ y) = [] ↔ frameDecoder.items b = [] := by
  cases hspec : frameSpec b with
  | more => exact absurd (length_lt_of_frameSpec_more hspec) (Nat.not_lt.2 hb)
  | bad =>
      rw [Decoder.items_of_stuck (stuck_of_bad hspec),
        Decoder.items_of_stuck (stuck_of_bad (frameSpec_append_of_bad y hspec))]
  | item f rest =>
      have hitem : frameDecoder.next b = .item f rest := hspec
      rw [Decoder.items_of_item hitem,
        Decoder.items_of_item (frameDecoder.next_append_of_item y hitem)]
      exact iff_of_false (List.cons_ne_nil _ _) (List.cons_ne_nil _ _)

/-! ### Frames on the wire -/

/-- What the parser records of a frame on the wire. -/
def wireContent (f : WireFrame) : Frame :=
  ⟨UInt8.ofNat f.fin.toNat, UInt8.ofNat f.opcode.val, f.payload⟩

/-- The opcodes of frames on the wire are told apart. -/
theorem ofNat_opcode_inj : ∀ o o' : Fin 16, UInt8.ofNat o.val = UInt8.ofNat o'.val ↔ o = o' := by
  decide

/-- The fields of the first byte. -/
theorem byte0_fields : ∀ (fin : Bool) (rsv : Fin 8) (opcode : Fin 16),
    UInt8.ofNat (128 * fin.toNat + 16 * rsv.val + opcode.val) >>> 7 = UInt8.ofNat fin.toNat ∧
      UInt8.ofNat (128 * fin.toNat + 16 * rsv.val + opcode.val) &&& 0x0f =
        UInt8.ofNat opcode.val := by
  decide

/-- The fields of the second byte. -/
theorem byte1_fields : ∀ (masked : Bool) (n : Fin 128),
    UInt8.ofNat (128 * masked.toNat + n.val) >>> 7 = UInt8.ofNat masked.toNat ∧
      UInt8.ofNat (128 * masked.toNat + n.val) &&& 0x7f = UInt8.ofNat n.val := by
  decide

theorem len7_lt (n : ℕ) : WireFrame.len7 n < 128 := by
  unfold WireFrame.len7
  split_ifs <;> omega

theorem byte1_shiftRight (f : WireFrame) : f.byte1 >>> 7 = UInt8.ofNat f.key.isSome.toNat :=
  (byte1_fields f.key.isSome ⟨_, len7_lt _⟩).1

theorem byte1_and (f : WireFrame) :
    f.byte1 &&& 0x7f = UInt8.ofNat (WireFrame.len7 f.payload.length) :=
  (byte1_fields f.key.isSome ⟨_, len7_lt _⟩).2

theorem ofNat_lt_126 {n : ℕ} (h : n < 126) : UInt8.ofNat n < 126 := by
  rw [UInt8.lt_iff_toNat_lt]
  simp
  omega

/-- The header announces as many bytes of extended length as there are. -/
theorem extLen_byte1 (f : WireFrame) :
    extLen f.byte1 = (WireFrame.extendedLength f.payload.length).length := by
  rw [extLen, byte1_and, WireFrame.extendedLength, WireFrame.len7]
  by_cases h1 : f.payload.length < 126
  · simp [h1, ofNat_lt_126 h1]
  · by_cases h2 : f.payload.length < 65536
    · simp [h1, h2]
    · simp [h1, h2]

/-- The header declares the length of the payload. -/
theorem declaredLen_byte1 (f : WireFrame) (h : f.payload.length < 2 ^ 64) :
    declaredLen f.byte1 (WireFrame.extendedLength f.payload.length) = f.payload.length := by
  rw [declaredLen, byte1_and, WireFrame.extendedLength, WireFrame.len7]
  by_cases h1 : f.payload.length < 126
  · simp [h1, ofNat_lt_126 h1]
    omega
  · by_cases h2 : f.payload.length < 65536
    · simp [h1, h2, ofBigEndian_bigEndian (n := 2) h2]
    · simp [h1, h2, ofBigEndian_bigEndian (n := 8) (v := f.payload.length) (by omega)]

theorem keyLen_byte1 (f : WireFrame) : keyLen f.byte1 = f.keyBytes.length := by
  rw [keyLen, byte1_shiftRight, WireFrame.keyBytes]
  cases f.key with
  | none => simp
  | some key => simp

/-- A key is read back from its four bytes. -/
theorem keyAt_toList (key : Key) (rest : Bytes) : keyAt (key.toList ++ rest) = key := by
  refine Vector.ext ?_
  intro i hi
  have hlen : key.toList.length = 4 := by simp
  interval_cases i <;>
    simp [keyAt, List.getD_eq_getElem?_getD, List.getElem?_append_left]

/-- Unmasking gives the payload back. -/
theorem unmask_maskedPayload (f : WireFrame) (rest : Bytes) :
    unmask f.byte1 (f.keyBytes ++ rest) f.maskedPayload = f.payload := by
  rw [unmask, byte1_shiftRight, WireFrame.keyBytes, WireFrame.maskedPayload]
  cases f.key with
  | none => simp
  | some key => simp [keyAt_toList]

/-- **A frame on the wire is read back, and what follows it is left.** -/
theorem frameSpec_encode (f : WireFrame) (h : f.payload.length ≤ wsMaxPayloadBytes)
    (rest : Bytes) : frameSpec (f.encode ++ rest) = .item (wireContent f) rest := by
  have hmax : wsMaxPayloadBytes < 2 ^ 63 := by norm_num [wsMaxPayloadBytes]
  have hbuf : f.encode ++ rest = f.byte0 :: f.byte1 ::
      (WireFrame.extendedLength f.payload.length ++
        (f.keyBytes ++ (f.maskedPayload ++ rest))) := by
    simp [WireFrame.encode]
  rw [hbuf]
  have hext := extLen_byte1 f
  have hkey := keyLen_byte1 f
  have htake : (WireFrame.extendedLength f.payload.length ++
      (f.keyBytes ++ (f.maskedPayload ++ rest))).take (extLen f.byte1) =
      WireFrame.extendedLength f.payload.length := by
    rw [hext, List.take_left]
  have hdrop : (WireFrame.extendedLength f.payload.length ++
      (f.keyBytes ++ (f.maskedPayload ++ rest))).drop (extLen f.byte1) =
      f.keyBytes ++ (f.maskedPayload ++ rest) := by
    rw [hext, List.drop_left]
  have hdrop2 : (WireFrame.extendedLength f.payload.length ++
      (f.keyBytes ++ (f.maskedPayload ++ rest))).drop (extLen f.byte1 + keyLen f.byte1) =
      f.maskedPayload ++ rest := by
    rw [← List.drop_drop, hdrop, hkey, List.drop_left]
  have hdrop3 : (WireFrame.extendedLength f.payload.length ++
      (f.keyBytes ++ (f.maskedPayload ++ rest))).drop
        (extLen f.byte1 + keyLen f.byte1 + f.payload.length) = rest := by
    rw [← List.drop_drop, hdrop2, ← WireFrame.length_maskedPayload f, List.drop_left]
  have hbody : (f.maskedPayload ++ rest).take f.payload.length = f.maskedPayload := by
    rw [← WireFrame.length_maskedPayload f, List.take_left]
  have hlen : (WireFrame.extendedLength f.payload.length ++
      (f.keyBytes ++ (f.maskedPayload ++ rest))).length =
      extLen f.byte1 + keyLen f.byte1 + f.payload.length + rest.length := by
    simp [hext, hkey]
    omega
  simp only [frameSpec, htake, declaredLen_byte1 f (by omega), hlen, hdrop, hdrop2, hdrop3, hbody]
  rw [if_neg (by omega), if_neg (by omega), if_neg (by omega), if_neg (by omega),
    if_neg (by omega), unmask_maskedPayload]
  have h0 := byte0_fields f.fin f.rsv f.opcode
  rw [wireContent, WireFrame.byte0, h0.1, h0.2]

/-! ### The encoder -/

namespace WebsocketRespond

/-- The first byte `pack_data` writes. -/
theorem packData_byte0 : ∀ (fin : Bool) (opcode : Fin 16),
    (UInt8.ofNat fin.toNat <<< 7) ||| (UInt8.ofNat opcode.val &&& 0x0F) =
      UInt8.ofNat (128 * fin.toNat + 16 * (0 : Fin 8).val + opcode.val) := by
  decide

/-- One byte of a 64-bit length. -/
theorem packData_ext64_byte {n k : ℕ} (h : n < 2 ^ 64) (hk : k < 64) :
    ((UInt64.ofNat n >>> UInt64.ofNat k) &&& (0xFF : UInt64)).toUInt8 =
      UInt8.ofNat (n / 2 ^ k) := by
  have hn : (UInt64.ofNat n).toNat = n := UInt64.toNat_ofNat_of_lt' h
  have hk' : (UInt64.ofNat k).toNat % 64 = k := by simp; omega
  have hff : (0xFF : UInt64).toNat = 2 ^ 8 - 1 := rfl
  rw [← UInt8.toNat_inj, UInt64.toNat_toUInt8, UInt64.toNat_and, UInt64.toNat_shiftRight, hn, hk',
    hff, Nat.and_two_pow_sub_one_eq_mod, Nat.shiftRight_eq_div_pow]
  simp

/-- The eight bytes of a 64-bit length. -/
theorem packData_ext64 {n : ℕ} (h : n < 2 ^ 64) :
    ((List.range 8).map fun i =>
      ((UInt64.ofNat n >>> UInt64.ofNat (56 - i * 8)) &&& (0xFF : UInt64)).toUInt8) =
      bigEndian 8 n := by
  have hbytes : ((List.range 8).map fun i =>
      ((UInt64.ofNat n >>> UInt64.ofNat (56 - i * 8)) &&& (0xFF : UInt64)).toUInt8) =
      (List.range 8).map fun i => UInt8.ofNat (n / 2 ^ (56 - i * 8)) := by
    refine List.map_congr_left ?_
    intro i hi
    exact packData_ext64_byte h (by omega)
  rw [hbytes]
  norm_num [List.range_succ, bigEndian]

/-- **`pack_data` writes the wire form of its frame**, with the length in the shortest form. -/
theorem packData_eq_encode (f : WireFrame) (hrsv : f.rsv = 0) (hkey : f.key = none)
    (hlen : f.payload.length < 2 ^ 64) :
    packData (some f.payload) f.payload.length (UInt8.ofNat f.fin.toNat) (UInt8.ofNat f.opcode.val)
      websocketNeedNotMask = some f.encode := by
  have hb0 := packData_byte0 f.fin f.opcode
  have hencode : f.encode = f.byte0 :: f.byte1 ::
      (WireFrame.extendedLength f.payload.length ++ f.payload) := by
    simp [WireFrame.encode, WireFrame.keyBytes, WireFrame.maskedPayload, hkey]
  have hbyte0 : f.byte0 = (UInt8.ofNat f.fin.toNat <<< 7) |||
      (UInt8.ofNat f.opcode.val &&& 0x0F) := by
    rw [hb0, WireFrame.byte0, hrsv]
  have hbyte1 : f.byte1 = UInt8.ofNat (WireFrame.len7 f.payload.length) := by
    simp [WireFrame.byte1, hkey]
  have hmask (x : UInt8) : websocketNeedNotMask <<< 7 ||| x = x := by
    have : websocketNeedNotMask <<< 7 = 0 := by decide
    simp [this]
  rw [hencode, hbyte0, hbyte1]
  simp only [packData, hmask, List.take_length, WireFrame.len7, WireFrame.extendedLength]
  by_cases h1 : f.payload.length < 126
  · simp [h1]
  · by_cases h2 : f.payload.length < 65536
    · have h2' : f.payload.length ≤ 0xFFFF := by omega
      have hswap : store16 (swap16 (UInt16.ofNat f.payload.length)) =
          bigEndian 2 f.payload.length := by
        rw [store16_swap16]
        congr 1
        simp
        omega
      simp only [h1, h2, h2', if_false, if_true, hswap]
      rfl
    · have h2' : ¬ f.payload.length ≤ 0xFFFF := by omega
      simp only [h1, h2, h2', if_false, packData_ext64 hlen]
      rfl

end WebsocketRespond

/-- The protocol's view of a frame `pack_data` is asked for: final, not masked. -/
def serverFrame (opcode : Fin 16) (payload : Bytes) : WireFrame := ⟨true, 0, opcode, none, payload⟩

/-- **Every call of `pack_data` in the server writes a server frame.** -/
theorem packData_serverFrame (opcode : Fin 16) {payload : Bytes}
    (h : payload.length ≤ wsMaxPayloadBytes) :
    WebsocketRespond.packData (some payload) payload.length websocketFinMsgEnd
      (UInt8.ofNat opcode.val) websocketNeedNotMask = some (serverFrame opcode payload).encode := by
  have hmax : wsMaxPayloadBytes < 2 ^ 64 := by norm_num [wsMaxPayloadBytes]
  exact WebsocketRespond.packData_eq_encode (serverFrame opcode payload) rfl rfl
    (lt_of_le_of_lt h hmax)

end WebSocketDemo
