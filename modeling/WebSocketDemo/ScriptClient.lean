/-
**The client of the test scripts** (`ws_varlen_test.py`).

The repository has a client of its own, the class `Client` that the scripts drive against the
server. It is modelled as the server is: cut where it waits for the network, so that every call of
`reader.read` is a step and the environment decides how many of the bytes asked for it returns.
`read_exact` asks for what is missing and no more; `recv_http_headers` asks for 65536 bytes at a
time, and what comes in behind the header section is dropped with it.

An exception ends the client: what it does not expect, the end of the stream, which is a `read` that
returns nothing, or a connection that is lost.  The library functions it calls, `hashlib.sha1` and
`base64.b64encode`, are those of the standards; `random` is a parameter; text decoded as Latin-1 has
one character for each byte.

Main definitions:

* `ScriptClient.buildTextFrame`, `ScriptClient.request` — what it writes;
* `ScriptClient`, `ScriptClient.resume` — its state, and what it does with the bytes one `read`
  returned.

Main results:

* `ScriptClient.buildTextFrame_eq_encode` — **it writes legal client frames**;
* `ScriptClient.feed_append`, `ScriptClient.resume_eq_feed` — **how the bytes of a frame are grouped
  makes no difference**;
* `ScriptClient.feed_serverFrame` — **it reads back the frames of the server**.
-/

import WebSocketDemo.Base64Codec
import WebSocketDemo.FrameCodec
import WebSocketDemo.Handshake
import WebSocketDemo.Lib.Decimal
import WebSocketDemo.Lib.Fips180
import WebSocketDemo.Lib.Http

set_option relaxedAutoImplicit false
set_option autoImplicit false

namespace WebSocketDemo

open ByteOrder Rfc6455

/-- Where the client waits. -/
inductive Await
  /-- The first two bytes of a frame. -/
  | hdr
  /-- The extended length. -/
  | ext (opcode masked : UInt8)
  /-- `mask_key`. -/
  | maskKey (opcode masked : UInt8) (ln : ℕ)
  /-- `payload`. -/
  | payload (opcode masked : UInt8) (maskKey : Bytes)
  deriving DecidableEq, Repr

/-- The state of a coroutine of the client. -/
inductive ClientPc
  /-- `handshake` has not been called. -/
  | start
  /-- In `recv_http_headers`. -/
  | headers (buf : Bytes)
  /-- In `read_exact(reader, n)`. -/
  | exact (n : ℕ) (await : Await) (buf : Bytes)
  /-- An exception has been raised. -/
  | raised
  deriving DecidableEq, Repr

/-- A `Client`: the variables `key` and `headers` of its `handshake`, where it is, and what
`recv_text_bytes` has returned so far. -/
structure ScriptClient where
  key : Bytes
  headers : Bytes
  pc : ClientPc
  received : List Bytes
  deriving DecidableEq, Repr

namespace ScriptClient

/-! ### What the client writes -/

/-- The magic string of the scripts. -/
def magic : Bytes := ascii "258EAFA5-E914-47DA-95CA-C5AB0DC85B11"

/-- `MAX_PAYLOAD`, in its default setting. -/
def maxPayload : ℕ := 768 * 1024

/-- `build_text_frame`; `mask` are the four random bytes. -/
def buildTextFrame (mask : Key) (payload : Bytes) : Bytes :=
  let b0 : UInt8 := 0x80 ||| 0x01
  let n := payload.length
  let header :=
    if n < 126 then [b0, 0x80 ||| UInt8.ofNat n]
    else if n < 65536 then [b0, 0x80 ||| 126] ++ bigEndian 2 n
    else [b0, 0x80 ||| 127] ++ bigEndian 8 n
  header ++ mask.toList ++ payload.mapIdx fun i x => x ^^^ mask.get (Fin.ofNat 4 i)

/-- `req` in `handshake`. -/
def request (host : Bytes) (port : ℕ) (key : Bytes) : Bytes :=
  ascii "GET / HTTP/1.1\r\n" ++ (ascii "Host: " ++ host ++ ascii ":" ++ Decimal.render port ++
    ascii "\r\n") ++ ascii "Upgrade: websocket\r\n" ++ ascii "Connection: Upgrade\r\n" ++
    (ascii "Sec-WebSocket-Key: " ++ key ++ ascii "\r\n") ++ ascii "Sec-WebSocket-Version: 13\r\n" ++
    ascii "\r\n"

/-- `expected` in `handshake`. -/
def expected (key : Bytes) : Bytes :=
  Rfc4648.encode (Fips180.digest (Fips180.sha1 (key ++ magic)))

/-- The client before its handshake; `nonce` are the sixteen random bytes. -/
def new (nonce : Bytes) : ScriptClient := ⟨Rfc4648.encode nonce, [], .start, []⟩

/-! ### The answer to the handshake -/

/-- `split("\r\n")`. -/
def splitCrlf : Bytes → List Bytes
  | [] => [[]]
  | [b] => [[b]]
  | b₁ :: b₂ :: t =>
      if b₁ = 13 ∧ b₂ = 10 then [] :: splitCrlf t
      else
        match splitCrlf (b₂ :: t) with
        | [] => [[b₁]]
        | l :: ls => (b₁ :: l) :: ls

/-- White space among the characters of Latin-1. -/
def isSpace (b : UInt8) : Bool :=
  decide (9 ≤ b ∧ b ≤ 13) || decide (28 ≤ b ∧ b ≤ 32) || decide (b = 0x85) || decide (b = 0xa0)

/-- `strip()`. -/
def strip (s : Bytes) : Bytes := ((s.dropWhile isSpace).reverse.dropWhile isSpace).reverse

/-- `parse_accept`. -/
def parseAccept (headers : Bytes) : Option Bytes :=
  (splitCrlf headers).findSome? fun line =>
    if ascii "sec-websocket-accept:" <+: line.map Http.lower then
      some (strip ((line.dropWhile (· ≠ 58)).drop 1))
    else none

/-- An exception is raised. -/
def raise (self : ScriptClient) : ScriptClient := { self with pc := .raised }

@[simp] theorem raise_key (self : ScriptClient) : self.raise.key = self.key := rfl
@[simp] theorem raise_pc (self : ScriptClient) : self.raise.pc = .raised := rfl
@[simp] theorem raise_received (self : ScriptClient) : self.raise.received = self.received := rfl

/-- What `handshake` does with the headers. -/
def checkHeaders (self : ScriptClient) (headers : Bytes) : ScriptClient :=
  let self := { self with headers := headers }
  let statusLine := (splitCrlf headers).headD []
  if ¬ ascii " 101 " <:+: statusLine then self.raise
  else if parseAccept headers ≠ some (expected self.key) then self.raise
  else { self with pc := .exact 2 .hdr [] }

/-! ### Frames -/

/-- The end of `read_ws_frame`, and `recv_text_bytes`, which is called again. -/
def onPayload (self : ScriptClient) (opcode masked : UInt8) (maskKey payload : Bytes) :
    ScriptClient :=
  let payload :=
    if masked ≠ 0 then payload.mapIdx fun i x => x ^^^ maskKey.getD (i % 4) 0 else payload
  if opcode = 0x08 then self.raise
  else if opcode ≠ 0x01 then self.raise
  else { self with received := self.received ++ [payload], pc := .exact 2 .hdr [] }

/-- `payload = await read_exact(reader, ln)`, which does not wait for nothing. -/
def readPayload (self : ScriptClient) (opcode masked : UInt8) (maskKey : Bytes) (ln : ℕ) :
    ScriptClient :=
  if ln = 0 then self.onPayload opcode masked maskKey []
  else { self with pc := .exact ln (.payload opcode masked maskKey) [] }

/-- `mask_key = await read_exact(reader, 4)`, for a masked frame. -/
def readMaskKey (self : ScriptClient) (opcode masked : UInt8) (ln : ℕ) : ScriptClient :=
  if masked ≠ 0 then { self with pc := .exact 4 (.maskKey opcode masked ln) [] }
  else self.readPayload opcode masked [] ln

/-- What is done with the bytes that were waited for. -/
def onBytes (self : ScriptClient) : Await → Bytes → ScriptClient
  | .hdr, hdr =>
      let b0 := hdr.getD 0 0
      let b1 := hdr.getD 1 0
      let opcode := b0 &&& 0x0F
      let masked := (b1 >>> 7) &&& 1
      let ln := b1 &&& 0x7F
      if ln = 126 then { self with pc := .exact 2 (.ext opcode masked) [] }
      else if ln = 127 then { self with pc := .exact 8 (.ext opcode masked) [] }
      else self.readMaskKey opcode masked ln.toNat
  | .ext opcode masked, ext => self.readMaskKey opcode masked (ofBigEndian ext)
  | .maskKey opcode masked ln, maskKey => self.readPayload opcode masked maskKey ln
  | .payload opcode masked maskKey, payload => self.onPayload opcode masked maskKey payload

/-! ### Reading -/

/-- How many bytes `reader.read` is asked for. -/
def asks (self : ScriptClient) : ℕ :=
  match self.pc with
  | .headers _ => 65536
  | .exact n _ buf => n - buf.length
  | _ => 0

/-- **One `read` returns `chunk`**, which is empty at the end of the stream. -/
def resume (self : ScriptClient) (chunk : Bytes) : ScriptClient :=
  match self.pc with
  | .headers buf =>
      if chunk = [] then self.raise
      else
        let buf := buf ++ chunk
        if buf.length > 262144 then self.raise
        else if Http.crlf ++ Http.crlf <:+: buf then self.checkHeaders buf
        else { self with pc := .headers buf }
  | .exact n await buf =>
      if chunk = [] then self.raise
      else
        let buf := buf ++ chunk
        if buf.length < n then { self with pc := .exact n await buf } else self.onBytes await buf
  | _ => self

/-- **At the end of the stream a client that waits raises an exception.** -/
theorem resume_nil {c : ScriptClient} (h : 0 < c.asks) : c.resume [] = c.raise := by
  cases hpc : c.pc with
  | headers buf => simp only [resume, hpc, if_true, raise]
  | exact n await buf => simp only [resume, hpc, if_true, raise]
  | start => simp [asks, hpc] at h
  | raised => simp [asks, hpc] at h

/-- `handshake` up to its first `await`. -/
def connect (self : ScriptClient) : ScriptClient := { self with pc := .headers [] }

theorem connect_begun (c : ScriptClient) : c.connect.pc ≠ .start := by
  intro h
  cases h

/-! ### Its frames -/

theorem or_ofNat : ∀ n : Fin 128, (0x80 : UInt8) ||| UInt8.ofNat n.val =
    UInt8.ofNat (128 + n.val) := by
  decide

/-- **The client writes a masked text frame.** -/
theorem buildTextFrame_eq_encode (mask : Key) (payload : Bytes) : buildTextFrame mask payload =
    (⟨true, 0, opText, some mask, payload⟩ : WireFrame).encode := by
  have hbyte0 : (⟨true, 0, opText, some mask, payload⟩ : WireFrame).byte0 = 0x80 ||| 0x01 := by
    simp only [WireFrame.byte0]
    decide
  have hbyte1 : (⟨true, 0, opText, some mask, payload⟩ : WireFrame).byte1 =
      0x80 ||| UInt8.ofNat (WireFrame.len7 payload.length) :=
    (or_ofNat ⟨_, len7_lt payload.length⟩).symm
  rw [WireFrame.encode, hbyte0, hbyte1]
  simp only [buildTextFrame, WireFrame.extendedLength, WireFrame.len7]
  by_cases h₁ : payload.length < 126
  · simp only [if_pos h₁]
    rfl
  · by_cases h₂ : payload.length < 65536
    · simp only [if_neg h₁, if_pos h₂]
      rfl
    · simp only [if_neg h₁, if_neg h₂]
      rfl

/-! ### One byte at a time -/

/-- The client reads `b` one byte at a time. -/
def feed (self : ScriptClient) (b : Bytes) : ScriptClient := b.foldl (fun c x => c.resume [x]) self

section Feed

variable {c : ScriptClient} {n : ℕ} {await : Await} {buf b : Bytes}

@[simp] theorem feed_nil : c.feed [] = c := rfl

theorem feed_append (a b : Bytes) : c.feed (a ++ b) = (c.feed a).feed b := List.foldl_append

/-- What the client does next does not depend on where it was. -/
theorem onBytes_pc (pc : ClientPc) : ({ c with pc := pc }).onBytes await b = c.onBytes await b := by
  cases await with
  | hdr => simp only [onBytes, readMaskKey, readPayload, onPayload, raise]
  | ext opcode masked => simp only [onBytes, readMaskKey, readPayload, onPayload, raise]
  | maskKey opcode masked ln => simp only [onBytes, readPayload, onPayload, raise]
  | payload opcode masked maskKey => simp only [onBytes, onPayload, raise]

/-- Not all that was waited for has come in. -/
theorem feed_part (hpc : c.pc = .exact n await buf) (hlen : buf.length + b.length < n) :
    c.feed b = { c with pc := .exact n await (buf ++ b) } := by
  induction b generalizing c buf with
  | nil => rw [feed_nil, List.append_nil, ← hpc]
  | cons x b ih =>
      rw [List.length_cons] at hlen
      have hx : c.resume [x] = { c with pc := .exact n await (buf ++ [x]) } := by
        simp only [resume, hpc, List.length_append, List.length_singleton]
        rw [if_neg (List.cons_ne_nil _ _), if_pos (by omega)]
      have hrest : (c.resume [x]).feed b = { c with pc := .exact n await (buf ++ [x] ++ b) } := by
        rw [hx, ih rfl (by rw [List.length_append, List.length_singleton]; omega)]
      rw [List.append_assoc, List.singleton_append] at hrest
      exact hrest

/-- The last byte that was waited for. -/
theorem feed_all (hpc : c.pc = .exact n await buf) (hne : b ≠ [])
    (hlen : buf.length + b.length = n) :
    c.feed b = c.onBytes await (buf ++ b) := by
  obtain ⟨b, x, rfl⟩ := (List.eq_nil_or_concat b).resolve_left hne
  rw [List.concat_eq_append, List.length_append, List.length_singleton] at hlen
  have hlast : ({ c with pc := .exact n await (buf ++ b) } : ScriptClient).resume [x] =
      c.onBytes await (buf ++ b ++ [x]) := by
    simp only [resume, List.length_append, List.length_singleton]
    rw [if_neg (List.cons_ne_nil _ _), if_neg (by omega), onBytes_pc]
  rw [List.concat_eq_append, feed_append, feed_part hpc (by omega), ← List.append_assoc, ← hlast]
  rfl

/-- **How the bytes of a frame are grouped makes no difference.** -/
theorem resume_eq_feed (hpc : c.pc = .exact n await buf) (hne : b ≠ [])
    (hlen : buf.length + b.length ≤ n) : c.resume b = c.feed b := by
  rcases Nat.lt_or_eq_of_le hlen with hlt | heq
  · rw [feed_part hpc hlt]
    simp only [resume, hpc, List.length_append]
    rw [if_neg hne, if_pos hlt]
  · rw [feed_all hpc hne heq]
    simp only [resume, hpc, List.length_append]
    rw [if_neg hne, if_neg (by omega)]

/-- `raised` is for good. -/
theorem feed_raised (hpc : c.pc = .raised) : c.feed b = c := by
  induction b with
  | nil => rfl
  | cons x b ih =>
      have hx : c.resume [x] = c := by simp only [resume, hpc]
      change (c.resume [x]).feed b = c
      rw [hx, ih]

/-- What has been received stays. -/
theorem received_onBytes : c.received <+: (c.onBytes await b).received := by
  cases await with
  | hdr =>
      simp only [onBytes, readMaskKey, readPayload, onPayload]
      split_ifs <;> simp
  | ext opcode masked =>
      simp only [onBytes, readMaskKey, readPayload, onPayload]
      split_ifs <;> simp
  | maskKey opcode masked ln =>
      simp only [onBytes, readPayload, onPayload]
      split_ifs <;> simp
  | payload opcode masked maskKey =>
      simp only [onBytes, onPayload]
      split_ifs <;> simp

theorem received_resume : c.received <+: (c.resume b).received := by
  unfold resume
  split
  · simp only [checkHeaders]
    split_ifs <;> exact List.prefix_rfl
  · dsimp only
    split_ifs
    · exact List.prefix_rfl
    · exact List.prefix_rfl
    · exact received_onBytes
  · exact List.prefix_rfl

/-- The key stays, and a client that has begun has begun. -/
theorem key_onBytes : (c.onBytes await b).key = c.key ∧ (c.onBytes await b).pc ≠ .start := by
  cases await with
  | hdr =>
      simp only [onBytes, readMaskKey, readPayload, onPayload]
      split_ifs <;> simp
  | ext opcode masked =>
      simp only [onBytes, readMaskKey, readPayload, onPayload]
      split_ifs <;> simp
  | maskKey opcode masked ln =>
      simp only [onBytes, readPayload, onPayload]
      split_ifs <;> simp
  | payload opcode masked maskKey =>
      simp only [onBytes, onPayload]
      split_ifs <;> simp

theorem key_resume (hpc : c.pc ≠ .start) : (c.resume b).key = c.key ∧ (c.resume b).pc ≠ .start := by
  unfold resume
  split
  · simp only [checkHeaders]
    split_ifs <;> simp
  · dsimp only
    split_ifs
    · simp
    · simp
    · exact key_onBytes
  · exact ⟨rfl, hpc⟩

theorem key_feed (hpc : c.pc ≠ .start) : (c.feed b).key = c.key ∧ (c.feed b).pc ≠ .start := by
  induction b generalizing c with
  | nil => exact ⟨rfl, hpc⟩
  | cons x b ih =>
      obtain ⟨hkey, hbegun⟩ := key_resume (b := [x]) hpc
      have hrest := ih hbegun
      rw [hkey] at hrest
      exact hrest

theorem received_feed : c.received <+: (c.feed b).received := by
  induction b generalizing c with
  | nil => exact List.prefix_rfl
  | cons x b ih => exact received_resume.trans ih

/-- A client that waits asks for something. -/
def Asking (self : ScriptClient) : Prop := self.pc ≠ .start → self.pc ≠ .raised → 0 < self.asks

theorem asking_raised (hpc : c.pc = .raised) : c.Asking := fun _ h => absurd hpc h

theorem asking_exact (hpc : c.pc = .exact n await buf) (hlen : buf.length < n) : c.Asking := by
  intro _ _
  rw [asks, hpc]
  exact Nat.sub_pos_of_lt hlen

theorem asking_headers (hpc : c.pc = .headers buf) : c.Asking := by
  intro _ _
  rw [asks, hpc]
  exact Nat.zero_lt_succ _

theorem asking_onPayload {opcode masked : UInt8} {maskKey payload : Bytes} :
    (c.onPayload opcode masked maskKey payload).Asking := by
  by_cases h₁ : opcode = 0x08
  · simp only [onPayload, if_pos h₁]
    exact asking_raised rfl
  · by_cases h₂ : opcode ≠ 0x01
    · simp only [onPayload, if_neg h₁, if_pos h₂]
      exact asking_raised rfl
    · simp only [onPayload, if_neg h₁, if_neg h₂]
      exact asking_exact rfl (Nat.zero_lt_succ 1)

theorem asking_readPayload {opcode masked : UInt8} {maskKey : Bytes} {ln : ℕ} :
    (c.readPayload opcode masked maskKey ln).Asking := by
  unfold readPayload
  split_ifs with h0
  · exact asking_onPayload
  · exact asking_exact rfl (Nat.pos_of_ne_zero h0)

theorem asking_readMaskKey {opcode masked : UInt8} {ln : ℕ} :
    (c.readMaskKey opcode masked ln).Asking := by
  unfold readMaskKey
  split_ifs
  · exact asking_exact rfl (Nat.zero_lt_succ 3)
  · exact asking_readPayload

theorem asking_onBytes : (c.onBytes await b).Asking := by
  cases await with
  | hdr =>
      simp only [onBytes]
      split_ifs
      · exact asking_exact rfl (Nat.zero_lt_succ 1)
      · exact asking_exact rfl (Nat.zero_lt_succ 7)
      · exact asking_readMaskKey
  | ext opcode masked => exact asking_readMaskKey
  | maskKey opcode masked ln => exact asking_readPayload
  | payload opcode masked maskKey => exact asking_onPayload

theorem asking_checkHeaders {headers : Bytes} : (c.checkHeaders headers).Asking := by
  unfold checkHeaders
  dsimp only
  split_ifs
  · exact asking_raised rfl
  · exact asking_exact rfl (Nat.zero_lt_succ 1)
  · exact asking_raised rfl

theorem asking_resume (h : c.Asking) : (c.resume b).Asking := by
  cases hpc : c.pc with
  | headers buf =>
      simp only [resume, hpc]
      split_ifs
      · exact asking_raised rfl
      · exact asking_raised rfl
      · exact asking_checkHeaders
      · exact asking_headers rfl
  | exact n await buf =>
      simp only [resume, hpc]
      split_ifs with _ hshort
      · exact asking_raised rfl
      · exact asking_exact rfl hshort
      · exact asking_onBytes
  | start =>
      simp only [resume, hpc]
      exact h
  | raised =>
      simp only [resume, hpc]
      exact h

theorem asking_feed (h : c.Asking) : (c.feed b).Asking := by
  induction b generalizing c with
  | nil => exact h
  | cons x b ih => exact ih (asking_resume h)

end Feed

/-! ### The frames of the server -/

section ServerFrames

variable {c : ScriptClient} {b : Bytes}

/-- A text payload that is not masked. -/
theorem feed_readPayload : (c.readPayload 1 0 [] b.length).feed b =
    { c with received := c.received ++ [b], pc := .exact 2 .hdr [] } := by
  have hpayload : c.onPayload 1 0 [] b =
      { c with received := c.received ++ [b], pc := .exact 2 .hdr [] } := rfl
  rw [readPayload]
  split_ifs with h0
  · obtain rfl := List.length_eq_zero_iff.1 h0
    exact hpayload
  · rw [feed_all rfl (List.ne_nil_of_length_pos (Nat.pos_of_ne_zero h0)) (Nat.zero_add _),
      onBytes_pc, List.nil_append]
    exact hpayload

/-- The client reads the length back. -/
theorem feed_header (f : WireFrame) (hkey : f.key = none) (hlen : f.payload.length < 2 ^ 64)
    (hpc : c.pc = .exact 2 .hdr []) :
    c.feed (f.byte0 :: f.byte1 :: WireFrame.extendedLength f.payload.length) =
      c.readPayload (f.byte0 &&& 0x0F) 0 [] f.payload.length := by
  have hmasked : (f.byte1 >>> 7) &&& 1 = 0 := by
    rw [byte1_shiftRight, hkey]
    decide
  have htwo : c.feed [f.byte0, f.byte1] = c.onBytes .hdr [f.byte0, f.byte1] :=
    feed_all hpc (List.cons_ne_nil _ _) rfl
  have hln := byte1_and f
  have hhdr : c.feed (f.byte0 :: f.byte1 :: WireFrame.extendedLength f.payload.length) =
      (c.onBytes .hdr [f.byte0, f.byte1]).feed (WireFrame.extendedLength f.payload.length) := by
    rw [← htwo, ← feed_append]
    rfl
  rw [hhdr]
  simp only [onBytes, List.getD_cons_zero, List.getD_cons_succ, hln, hmasked]
  unfold WireFrame.len7 WireFrame.extendedLength
  by_cases h₁ : f.payload.length < 126
  · have hlt := ofNat_lt_126 h₁
    have hne : UInt8.ofNat f.payload.length ≠ 126 ∧ UInt8.ofNat f.payload.length ≠ 127 := by
      constructor <;> · intro he; rw [he] at hlt; exact absurd hlt (by decide)
    simp only [if_pos h₁, if_neg hne.1, if_neg hne.2, feed_nil]
    rw [readMaskKey, if_neg (by decide), UInt8.toNat_ofNat', Nat.mod_eq_of_lt (by omega)]
  · by_cases h₂ : f.payload.length < 65536
    · simp only [if_neg h₁, if_pos h₂]
      rw [if_pos (by decide), feed_all rfl (List.ne_nil_of_length_pos (by simp)) (by simp),
        onBytes_pc]
      simp only [onBytes, List.nil_append]
      rw [ofBigEndian_bigEndian h₂, readMaskKey, if_neg (by decide)]
    · simp only [if_neg h₁, if_neg h₂]
      rw [if_neg (by decide), if_pos (by decide),
        feed_all rfl (List.ne_nil_of_length_pos (by simp)) (by simp), onBytes_pc]
      simp only [onBytes, List.nil_append]
      rw [ofBigEndian_bigEndian hlen, readMaskKey, if_neg (by decide)]

/-- **The client reads back a text frame of the server.** -/
theorem feed_serverFrame {payload : Bytes} (hpc : c.pc = .exact 2 .hdr [])
    (hlen : payload.length < 2 ^ 64) :
    c.feed (serverFrame opText payload).encode =
      { c with received := c.received ++ [payload] } := by
  have hsplit : (serverFrame opText payload).encode =
      (serverFrame opText payload).byte0 :: (serverFrame opText payload).byte1 ::
        WireFrame.extendedLength payload.length ++ payload := by
    simp [WireFrame.encode, serverFrame, WireFrame.keyBytes, WireFrame.maskedPayload]
  have hopcode : (serverFrame opText payload).byte0 &&& 0x0F = 1 := by
    simp only [serverFrame, WireFrame.byte0]
    decide
  have hheader := feed_header (c := c) (serverFrame opText payload) rfl hlen hpc
  rw [hopcode] at hheader
  have hsame :
      ({ c with received := c.received ++ [payload], pc := .exact 2 .hdr [] } : ScriptClient) =
      { c with received := c.received ++ [payload] } := by rw [← hpc]
  rw [hsplit, feed_append, ← hsame]
  exact (congrArg (fun d => d.feed payload) hheader).trans feed_readPayload

/-- A stream of such frames. -/
theorem feed_flatMap {ps : List Bytes} (hpc : c.pc = .exact 2 .hdr [])
    (hlen : ∀ p ∈ ps, p.length < 2 ^ 64) :
    c.feed (ps.flatMap fun p => (serverFrame opText p).encode) =
      { c with received := c.received ++ ps } := by
  induction ps generalizing c with
  | nil => rw [List.append_nil]; rfl
  | cons p ps ih =>
      obtain ⟨hp, hps⟩ := List.forall_mem_cons.1 hlen
      have hrest := ih (c := { c with received := c.received ++ [p] }) hpc hps
      rw [List.flatMap_cons, feed_append, feed_serverFrame hpc hp, hrest, List.append_assoc,
        List.singleton_append]

/-- **A stream that is read without an exception, cut off anywhere**: nothing is raised, and what
has been received is a first part of what the whole stream brings. -/
theorem feed_front {s : Bytes} (hb : b <+: s) (hs : (c.feed s).pc ≠ .raised) :
    (c.feed b).pc ≠ .raised ∧ (c.feed b).received <+: (c.feed s).received := by
  obtain ⟨t, rfl⟩ := hb
  rw [feed_append] at hs ⊢
  refine ⟨fun hr => ?_, received_feed⟩
  rw [feed_raised hr] at hs
  exact hs hr

end ServerFrames

end ScriptClient

end WebSocketDemo
