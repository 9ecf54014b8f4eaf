/-
**The outgoing stream of a connection.**

Three producers share `write_buf_` with one consumer: the handshake, the replies to the
connection's own frames, the broadcasts of other connections, and `flush_writes` with its partial
sends.  What the peer has received and what is still in the buffer is at every point the response
followed by whole frames, and each frame is one a server may send as far as its header goes.

Main definitions:

* `Intact` — the stream of a connection is whole.

Main results:

* `outgoing_intact` — **the stream is intact at every point of every run**, also when the
  connection has been closed;
* `emitted_frames_framing` — **every frame is final, not masked, without reserved bits and in the
  shortest form; a Pong is as long as its Ping**.
-/

import WebSocketDemo.Execution

set_option relaxedAutoImplicit false
set_option autoImplicit false

namespace WebSocketDemo

open PrefixDecoder Rfc6455

/-- The stream of a connection is whole: what `send` accepted and what `writeBuf` holds is nothing
before the upgrade, and afterwards the response and the frames that were taken.  Its own frames are
one answer for each text frame and each Ping, in the order in which those arrived: the frames
handled, with `readBuf` behind them, are what came in behind the handshake. -/
structure Intact (c : ℕ) (a : List Obs) (status : WebsocketStatus) (readBuf writeBuf : Bytes) :
    Prop where
  before : status = .unconnect → sentBytes a ++ writeBuf = []
  behind : status = .handsharked → ∃ headerMap os,
    (∃ rest, .upgraded c headerMap rest ∈ a) ∧
    offers a = ⟨(parseStr headerMap).2, true, true⟩ :: os ∧
    sentBytes a ++ writeBuf = (parseStr headerMap).2 ++ (takenData os).flatten ∧
    (∀ o ∈ os, ∃ opcode payload, o.data = (serverFrame opcode payload).encode) ∧
    ownData os = (handledFrames a).filterMap reply ∧
    frameDecoder.Decodes (inbound a) (handledFrames a) readBuf

/-- The two kinds of frames the server answers with. -/
theorem reply_eq_some {f : Frame} {data : Bytes} (h : reply f = some data) :
    f.opcode = websocketTextData ∧ data = (serverFrame opText f.payload).encode ∨
      f.opcode = websocketPingPack ∧ data = (serverFrame opPong f.payload).encode := by
  unfold reply at h
  split_ifs at h with h₁ h₂
  · exact Or.inl ⟨h₁, (Option.some.inj h).symm⟩
  · exact Or.inr ⟨h₂, (Option.some.inj h).symm⟩

/-- Only text frames are relayed. -/
theorem relay_eq_some {f : Frame} {data : Bytes} (h : relay f = some data) :
    f.opcode = websocketTextData ∧ data = (serverFrame opText f.payload).encode := by
  unfold relay at h
  split_ifs at h with h₁
  exact ⟨h₁, (Option.some.inj h).symm⟩

/-- Whatever a connection is offered behind the response is a frame. -/
theorem Justified.exists_frame {fs : List Frame} {o : Offer} (h : Justified fs o) :
    ∃ wf : WireFrame, o.data = wf.encode ∧ wf.fin = true ∧ wf.rsv = 0 ∧ wf.key = none ∧
      wf.payload.length ≤ wsMaxPayloadBytes ∧
      (wf.opcode = opText ∨ wf.opcode = opPong ∧
        ∃ f ∈ fs, f.opcode = websocketPingPack ∧ wf.payload = f.payload) := by
  unfold Justified at h
  split_ifs at h
  · obtain ⟨f, hf, hlen, hr⟩ := h
    rcases reply_eq_some hr with ⟨_, hd⟩ | ⟨hop, hd⟩
    · exact ⟨_, hd, rfl, rfl, rfl, hlen, Or.inl rfl⟩
    · exact ⟨_, hd, rfl, rfl, rfl, hlen, Or.inr ⟨rfl, f, hf, hop, rfl⟩⟩
  · obtain ⟨f, hlen, hr⟩ := h
    obtain ⟨_, hd⟩ := relay_eq_some hr
    exact ⟨_, hd, rfl, rfl, rfl, hlen, Or.inl rfl⟩

theorem Account.intact {v : View} {a : List Obs} (h : Account v a) :
    Intact v.handler.conn a v.handler.status v.handler.readBuf v.handler.writeBuf := by
  refine ⟨?_, ?_⟩
  · intro hu
    rw [h.stream, (h.unconnect hu).1]
    rfl
  · intro hs
    obtain ⟨headerMap, os, hup, hmem, _⟩ := h.handsharked hs
    refine ⟨headerMap, os, hmem, hup.offers, ?_, ?_, hup.own, hup.inbound⟩
    · rw [h.stream, hup.offers]
      simp [takenData]
    · intro o ho
      have hjust := hup.justified o ho
      unfold Justified at hjust
      split_ifs at hjust
      · obtain ⟨f, _, _, hr⟩ := hjust
        rcases reply_eq_some hr with ⟨_, hd⟩ | ⟨_, hd⟩
        · exact ⟨_, _, hd⟩
        · exact ⟨_, _, hd⟩
      · obtain ⟨f, _, hr⟩ := hjust
        exact ⟨_, _, (relay_eq_some hr).2⟩

/-- Closing a connection adds nothing to its streams. -/
theorem Intact.closed {c : ℕ} {a : List Obs} {status : WebsocketStatus} {readBuf writeBuf : Bytes}
    (h : Intact c a status readBuf writeBuf) (fd : Fd) :
    Intact c (a ++ [.closed c fd]) status readBuf writeBuf := by
  refine ⟨?_, ?_⟩
  · intro hu
    rw [sentBytes_append]
    simpa [sentBytes] using h.before hu
  · intro hs
    obtain ⟨headerMap, os, ⟨rest, hmem⟩, hoffers, hstream, hframes, hown, hin⟩ :=
      h.behind hs
    have h₁ : offers [Obs.closed c fd] = [] := rfl
    have h₂ : sentBytes [Obs.closed c fd] = [] := rfl
    have h₃ : handledFrames [Obs.closed c fd] = [] := rfl
    refine ⟨headerMap, os, ⟨rest, List.mem_append_left _ hmem⟩, ?_, ?_, hframes, ?_, ?_⟩
    · rw [offers_append, h₁, List.append_nil, hoffers]
    · rw [sentBytes_append, h₂, List.append_nil, hstream]
    · rw [handledFrames_append, h₃, List.append_nil, hown]
    · rw [handledFrames_append, h₃, List.append_nil, inbound_snoc]
      exact hin

/-- **The outgoing stream is intact** for every accepted connection at every point of every run: of
a live connection with its buffers, of a closed one with the bytes it had when it was closed. -/
theorem outgoing_intact {listenfd : Fd} {s : Loop} (hr : Loop.Reachable Loop.AnyBatch listenfd s)
    {c : ℕ} (hc : c < s.worker.nextConn) :
    ∃ status readBuf writeBuf, Intact c (about c s.worker.trace) status readBuf writeBuf ∧
      ∀ fd h, s.worker.websocketHandlerMap fd = some h → h.conn = c →
        h.status = status ∧ h.readBuf = readBuf ∧ h.writeBuf = writeBuf := by
  by_cases hlive : ∃ fd h, s.worker.websocketHandlerMap fd = some h ∧ h.conn = c
  · obtain ⟨fd, h, hfd, rfl⟩ := hlive
    refine ⟨h.status, h.readBuf, h.writeBuf, (Loop.account Loop.promises_anyBatch hr hfd).intact,
      ?_⟩
    intro fd' h' hfd' hconn
    have hwf := Loop.reachable_wellFormed Loop.promises_anyBatch hr
    obtain rfl := hwf.worker.conn_inj fd' fd h' h hfd' hfd hconn
    rw [hfd, Option.some.injEq] at hfd'
    exact ⟨by rw [hfd'], by rw [hfd'], by rw [hfd']⟩
  · have hclosed := Loop.conn_history (P := fun τ v => Account v (about v.handler.conn τ))
      (Q := fun c τ => ∃ status readBuf writeBuf, Intact c (about c τ) status readBuf writeBuf)
      Loop.promises_anyBatch (fun τ c fd p u hτ => Loop.account_new τ c fd p u hτ)
      (fun τ δ v g a v' _ ha hstep hacc => by
        rw [hstep.conn, about_append, ha]
        exact hacc.step hstep)
      (fun τ δ v fd hacc _ _ _ _ ha => by
        rw [about_append, ha]
        exact ⟨_, _, _, hacc.intact.closed fd⟩)
      (fun c τ δ ha hQ => by
        rw [about_append, ha, List.append_nil]
        exact hQ)
      hr c hc
    obtain ⟨status, readBuf, writeBuf, hQ⟩ := hclosed.resolve_left hlive
    refine ⟨status, readBuf, writeBuf, hQ, ?_⟩
    intro fd h hfd hconn
    exact absurd ⟨fd, h, hfd, hconn⟩ hlive

/-- The stream of a client that was sent 100 bytes of its response before it spoke. -/
theorem outgoing_intact_partial_send : ∃ s, Loop.Reachable Loop.AnyBatch 3 s ∧
    (sentBytes (about 1 s.worker.trace)).length = 100 ∧
    ∃ status readBuf writeBuf, Intact 1 (about 1 s.worker.trace) status readBuf writeBuf ∧
      ∀ fd h, s.worker.websocketHandlerMap fd = some h → h.conn = 1 →
        h.status = status ∧ h.readBuf = readBuf ∧ h.writeBuf = writeBuf := by
  have hrun : ((Loop.init 3).exec (session [5] ++
      [.epollWait [⟨5, epollOut⟩], .tau, .send 100, .sendAgain, .tau] ++
      receive 5 hiFrame.encode ++ [.tau])).map
        (fun s => ((sentBytes (about 1 s.worker.trace)).length, decide (1 < s.worker.nextConn))) =
      some (100, true) := by
    decide +kernel
  obtain ⟨s, hr, hs⟩ := Loop.reachable_of_exec _ hrun
  injection hs with hlen hconn
  exact ⟨s, Loop.reachable_anyBatch hr, hlen,
    outgoing_intact (Loop.reachable_anyBatch hr) (of_decide_eq_true hconn)⟩

/-! ### The framing of what is sent -/

/-- Everything a connection has been offered behind the response is justified, also after the
close. -/
theorem justified_of_mem_tail {listenfd : Fd} {s : Loop}
    (hr : Loop.Reachable Loop.AnyBatch listenfd s) {c : ℕ} (hc : c < s.worker.nextConn) :
    ∀ o ∈ (offers (about c s.worker.trace)).tail,
      Justified (handledFrames (about c s.worker.trace)) o := by
  have hlive {v : View} {a : List Obs} (hacc : Account v a) :
      ∀ o ∈ (offers a).tail, Justified (handledFrames a) o := by
    cases hs : v.handler.status with
    | unconnect =>
        rw [(hacc.unconnect hs).1]
        simp
    | handsharked =>
        obtain ⟨headerMap, os, hup, _⟩ := hacc.handsharked hs
        rw [hup.offers]
        exact hup.justified
  rcases Loop.conn_history (P := fun τ v => Account v (about v.handler.conn τ))
    (Q := fun c τ => ∀ o ∈ (offers (about c τ)).tail, Justified (handledFrames (about c τ)) o)
    Loop.promises_anyBatch (fun τ c fd p u hτ => Loop.account_new τ c fd p u hτ)
    (fun τ δ v g a v' _ ha hstep hacc => by
      rw [hstep.conn, about_append, ha]
      exact hacc.step hstep)
    (fun τ δ v fd hacc _ _ _ _ ha => by
      have h₁ : offers [Obs.closed v.handler.conn fd] = [] := rfl
      have h₂ : handledFrames [Obs.closed v.handler.conn fd] = [] := rfl
      rw [about_append, ha, offers_append, handledFrames_append, h₁, h₂, List.append_nil,
        List.append_nil]
      exact hlive hacc)
    (fun c τ δ ha hQ => by
      rw [about_append, ha, List.append_nil]
      exact hQ)
    hr c hc with ⟨fd, h, hfd, rfl⟩ | hQ
  · exact hlive (Loop.account Loop.promises_anyBatch hr hfd)
  · exact hQ

/-- **Every frame the server emits is final, without reserved bits, not masked and in the shortest
length form.**  A control frame among them is a Pong with the payload of a Ping of the same
connection, so that the frames are legal where the Pings handled were. -/
theorem emitted_frames_framing {listenfd : Fd} {s : Loop}
    (hr : Loop.Reachable Loop.AnyBatch listenfd s) {c : ℕ} (hc : c < s.worker.nextConn) :
    ∀ o ∈ (offers (about c s.worker.trace)).tail, ∃ wf : WireFrame, o.data = wf.encode ∧
      wf.fin = true ∧ wf.rsv = 0 ∧ wf.key = none ∧ wf.payload.length < 2 ^ 63 ∧
      (wf.IsControl → wf.opcode = opPong ∧ ∃ f ∈ handledFrames (about c s.worker.trace),
        f.opcode = websocketPingPack ∧ wf.payload = f.payload) ∧
      ((∀ f ∈ handledFrames (about c s.worker.trace),
        f.opcode = websocketPingPack → f.payload.length ≤ 125) → wf.FromServer) := by
  intro o ho
  obtain ⟨wf, hdata, hfin, hrsv, hkey, hlen, hop⟩ := (justified_of_mem_tail hr hc o ho).exists_frame
  have hlt : wf.payload.length < 2 ^ 63 := by
    simp only [wsMaxPayloadBytes] at hlen
    omega
  have hcontrol (hctl : wf.IsControl) : wf.opcode = opPong ∧
      ∃ f ∈ handledFrames (about c s.worker.trace),
        f.opcode = websocketPingPack ∧ wf.payload = f.payload := by
    rcases hop with htext | hpong
    · rw [WireFrame.IsControl, htext] at hctl
      exact absurd hctl (by decide)
    · exact hpong
  refine ⟨wf, hdata, hfin, hrsv, hkey, hlt, hcontrol, fun hpings => ⟨hrsv, hkey, hlt, ?_⟩⟩
  intro hctl
  obtain ⟨_, f, hf, hping, hpayload⟩ := hcontrol hctl
  rw [hpayload]
  exact ⟨hfin, hpings f hf hping⟩

/-- A Ping with more payload than a control frame may have. -/
def longPing : WireFrame := ⟨true, 0, opPing, some sampleKey, List.replicate 126 0⟩

/-- The frames of a client that sent "hi". -/
theorem emitted_frames_framing_echo : ∃ s, Loop.Reachable Loop.AnyBatch 3 s ∧
    ∀ o ∈ (offers (about 1 s.worker.trace)).tail, ∃ wf : WireFrame, o.data = wf.encode ∧
      wf.fin = true ∧ wf.rsv = 0 ∧ wf.key = none ∧ wf.payload.length < 2 ^ 63 ∧
      (wf.IsControl → wf.opcode = opPong ∧ ∃ f ∈ handledFrames (about 1 s.worker.trace),
        f.opcode = websocketPingPack ∧ wf.payload = f.payload) ∧
      ((∀ f ∈ handledFrames (about 1 s.worker.trace),
        f.opcode = websocketPingPack → f.payload.length ≤ 125) → wf.FromServer) := by
  have hrun : ((Loop.init 3).exec (session [5] ++ receive 5 hiFrame.encode ++ [.tau])).map
      (fun s => decide (1 < s.worker.nextConn)) = some true := by
    decide +kernel
  obtain ⟨s, hr, hs⟩ := Loop.reachable_of_exec _ hrun
  exact ⟨s, Loop.reachable_anyBatch hr,
    emitted_frames_framing (Loop.reachable_anyBatch hr) (of_decide_eq_true hs)⟩

/-- **A Ping of 126 bytes is answered by a Pong of 126 bytes.** -/
theorem long_pong_emitted : ∃ s, Loop.Reachable Loop.EpollContract 3 s ∧
    ∃ o ∈ (offers (about 1 s.worker.trace)).tail, o.taken = true ∧
      ∃ wf : WireFrame, o.data = wf.encode ∧ wf.IsControl ∧ 125 < wf.payload.length := by
  have hrun : ((Loop.init 3).exec (session [5] ++ receive 5 longPing.encode ++ [.tau])).map
      (fun s => (offers (about 1 s.worker.trace)).tail) =
      some [⟨(serverFrame opPong (List.replicate 126 0)).encode, true, true⟩] := by
    decide +kernel
  obtain ⟨s, hr, hs⟩ := Loop.reachable_of_exec _ hrun
  refine ⟨s, hr, _, by rw [hs]; exact List.mem_singleton_self _, rfl,
    serverFrame opPong (List.replicate 126 0), rfl, by decide, ?_⟩
  simp [serverFrame]

end WebSocketDemo
