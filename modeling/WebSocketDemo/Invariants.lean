/-
**What holds in every reachable state.**

Three invariants of a worker.  The interest list asks for a writable descriptor exactly when there
is output to write; nothing that could be handled is left behind when the loop blocks; and the
client set, the status of the handlers and the handler map fit together at every step.

Main definitions:

* `Done` — a connection has nothing in its read buffer that could be handled;
* `RegistryInvariant` — the registry, the listener and the buffers.

Main results:

* `interest_of_writeBuf` — **no wakeup is lost**;
* `blocked_done` — **nothing complete is left unprocessed when the loop blocks**;
* `registry_invariant` — **the registry is consistent in every reachable state**.
-/

import WebSocketDemo.Descriptors
import WebSocketDemo.Overflow

set_option relaxedAutoImplicit false
set_option autoImplicit false

namespace WebSocketDemo

variable {listenfd fd : Fd} {s : Loop} {h : WebsocketHandler}

/-! ### Output -/

/-- **No wakeup is lost.**  Unless control is in the middle of `flush_writes` on it, a connection
waits for input, and for a writable descriptor exactly when it has output to write. -/
theorem interest_of_writeBuf (hr : Loop.Reachable Loop.AnyBatch listenfd s)
    (hfd : s.worker.websocketHandlerMap fd = some h) (hne : fd ≠ s.worker.listenfd)
    (hpc : ∀ es, s.pc ≠ .flushing fd es) :
    s.worker.interest fd = some (if h.writeBuf = [] then epollIn else epollIn ||| epollOut) := by
  obtain ⟨mask, hmask, hm⟩ := Loop.coherent Loop.promises_anyBatch hr fd h hfd hne
  have hphase : s.pc.phase fd ≠ .flushing := by
    intro hf
    obtain ⟨es, hs⟩ := Loop.pc_of_phase_flushing hf
    exact hpc es hs
  rw [hmask, hm hphase, WebsocketHandler.eventMask, WebsocketHandler.writePending]
  by_cases hempty : h.writeBuf = []
  · simp [hempty]
  · simp [hempty]

/-- Two clients have been upgraded; their responses are still to be written. -/
theorem interest_of_writeBuf_response : ∃ s h, Loop.Reachable Loop.AnyBatch 3 s ∧ s.pc = .waiting ∧
    s.worker.websocketHandlerMap 6 = some h ∧ h.writeBuf.length = 129 ∧
    s.worker.interest 6 = some (epollIn ||| epollOut) := by
  obtain ⟨s, response, hp, hlen⟩ := exists_pair
  obtain ⟨h, hfd, _, _, hwrite⟩ := hp.reader
  have hresponse : h.writeBuf = response := by simpa [takenData] using hwrite
  have hr := Loop.reachable_anyBatch hp.reachable
  have hmain := interest_of_writeBuf hr hfd (by rw [hp.listenfd]; decide)
    (fun es he => by rw [hp.pc] at he; cases he)
  rw [if_neg (by rw [hresponse]; rintro rfl; cases hlen)] at hmain
  exact ⟨s, h, hr, hp.pc, hfd, by rw [hresponse, hlen], hmain⟩

/-! ### Input -/

/-- Nothing in the read buffer could be handled: before the upgrade there is no complete header
block and there is room for one, after it there is no complete frame and no malformed one. -/
structure Done (h : WebsocketHandler) : Prop where
  unconnect : h.status = .unconnect →
    ¬ NetworkInterface.crlfCrlf <:+: h.readBuf ∧ h.readBuf.length ≤ wsMaxHandshakeBytes
  handsharked : h.status = .handsharked → frameSpec h.readBuf = .more

/-- A connection has nothing left to handle, or is being served, or is queued for closing. -/
def Attended (v : View) : Prop :=
  v.pending = true ∨ v.phase = .reading ∨ v.phase = .frames ∨ Done v.handler

/-- What is waited for is not there. -/
theorem WebsocketHandler.done_of_wait (hs : h.status = .unconnect) (hup : h.upgrade = .wait) :
    Done h := by
  refine ⟨fun _ => ?_, fun hs' => ?_⟩
  · unfold WebsocketHandler.upgrade at hup
    split_ifs at hup with hlen
    split at hup
    · rename_i hfind
      exact ⟨Text.find_eq_none_iff.1 hfind, Nat.le_of_not_lt hlen⟩
    · dsimp only at hup
      split_ifs at hup
  · rw [hs] at hs'
    cases hs'

theorem Attended.step {once : Prop} {v v' : View} {g : List Frame} {a : List Obs}
    (hatt : Attended v) (h : ConnStep once v g a v') : Attended v' := by
  -- where control is not at the connection, and it is not queued, it has been done with
  have hdone (h₁ : v.phase ≠ .reading) (h₂ : v.phase ≠ .frames) :
      v.pending = true ∨ Done v.handler := by
    rcases hatt with hp | hr | hf | hd
    · exact Or.inl hp
    · exact absurd hr h₁
    · exact absurd hf h₂
    · exact Or.inr hd
  have hkeep (h₁ : v.phase ≠ .reading) (h₂ : v.phase ≠ .frames)
      (hp : v.pending = true → v'.pending = true) (hd : Done v.handler → Done v'.handler) :
      Attended v' :=
    (hdone h₁ h₂).imp hp fun hd' => Or.inr (Or.inr (hd hd'))
  cases h with
  | quiet hm =>
      cases hm with
      | stay => exact hatt
      | batch u hi _ _ => exact hkeep (by rw [hi]; decide) (by rw [hi]; decide) id id
      | skip u hi _ _ => exact hkeep (by rw [hi]; decide) (by rw [hi]; decide) id id
      | hangup u _ _ _ => exact Or.inl rfl
      | writable u hi _ _ => exact hkeep (by rw [hi]; decide) (by rw [hi]; decide) id id
      | readError _ => exact Or.inl rfl
      | wait _ hs hup => exact Or.inr (Or.inr (Or.inr (WebsocketHandler.done_of_wait hs hup)))
      | drive _ _ => exact Or.inr (Or.inr (Or.inl rfl))
      | flushed hf => exact hkeep (by rw [hf]; decide) (by rw [hf]; decide) id id
      | sendError _ => exact Or.inl rfl
  | readable u _ _ _ => exact Or.inr (Or.inl rfl)
  | received data hp _ _ _ => exact Or.inr (Or.inl hp)
  | readRefused data _ _ _ _ => exact Or.inl rfl
  | eof _ => exact Or.inl rfl
  | reject readBuf headerMap _ _ _ => exact Or.inl rfl
  | upgrade headerMap rest _ _ _ _ => exact Or.inr (Or.inr (Or.inl rfl))
  | more request _ hs hspec =>
      refine Or.inr (Or.inr (Or.inr ⟨fun hu => ?_, fun _ => hspec⟩))
      rw [show v.handler.status = .unconnect from hu] at hs
      cases hs
  | bad request _ _ _ => exact Or.inl rfl
  | handle f rest request hf _ _ => exact Or.inr (Or.inr (Or.inl hf))
  | relay f hi _ _ =>
      refine hkeep (by rw [hi]; decide) (by rw [hi]; decide) (fun hp => by simp [hp]) fun hd => ?_
      exact ⟨by simpa using hd.unconnect, by simpa using hd.handsharked⟩
  | overheard f _ _ => exact hatt
  | sent n hf _ _ =>
      exact hkeep (by rw [hf]; decide) (by rw [hf]; decide) id fun hd => ⟨hd.1, hd.2⟩

/-- **Nothing complete is left unprocessed when the loop blocks.**  A connection that waits for its
upgrade has no complete header block in its buffer and has not reached the limit, and one that is
upgraded has no complete frame and nothing malformed. -/
theorem blocked_done (hr : Loop.Reachable Loop.AnyBatch listenfd s) (hpc : s.pc = .waiting)
    (hfd : s.worker.websocketHandlerMap fd = some h) :
    (h.status = .unconnect →
      ¬ NetworkInterface.crlfCrlf <:+: h.readBuf ∧ h.readBuf.length ≤ wsMaxHandshakeBytes) ∧
    (h.status = .handsharked → (h.request.tryConsumeFrame h.readBuf).1 = .needMore) := by
  have hatt : Attended (s.view fd h) := by
    refine Loop.conn_induction (P := fun _ v => Attended v) Loop.promises_anyBatch ?_ ?_ hr fd h hfd
    · intro τ c fd p u _
      refine Or.inr (Or.inr (Or.inr ⟨fun _ => ⟨?_, Nat.zero_le _⟩, nofun⟩))
      change ¬ NetworkInterface.crlfCrlf <:+: []
      decide
    · intro τ δ v g a v' _ _ hstep hatt
      exact hatt.step hstep
  have hempty := (Loop.reachable_wellFormed Loop.promises_anyBatch hr).waiting hpc
  have hdone : Done h := by
    rcases hatt with hp | hp | hp | hd
    · simp [Loop.view, hempty] at hp
    · simp [Loop.view, hpc, Pc.phase] at hp
    · simp [Loop.view, hpc, Pc.phase] at hp
    · exact hd
  refine ⟨hdone.unconnect, fun hs => ?_⟩
  have hans := WebsocketRequest.tryConsumeFrame_answers h.request h.readBuf
  rw [hdone.handsharked hs] at hans
  exact hans.1

/-- A client has been upgraded and has sent part of a frame. -/
theorem blocked_done_upgraded : ∃ s h, Loop.Reachable Loop.AnyBatch 3 s ∧ s.pc = .waiting ∧
    s.worker.websocketHandlerMap 5 = some h ∧ h.status = .handsharked ∧
    h.readBuf = hiFrame.encode.take 5 ∧ (h.request.tryConsumeFrame h.readBuf).1 = .needMore := by
  have hrun : ((Loop.init 3).exec
      (session [5] ++ receive 5 (hiFrame.encode.take 5) ++ [.tau, .tau])).map (fun s =>
        (decide (s.pc = .waiting),
          (s.worker.websocketHandlerMap 5).map fun h => (h.status, h.readBuf))) =
      some (true, some (.handsharked, hiFrame.encode.take 5)) := by
    decide +kernel
  obtain ⟨s, hr, hs⟩ := Loop.reachable_of_exec _ hrun
  injection hs with hpc hmap
  obtain ⟨h, hfd, hh⟩ := Option.map_eq_some_iff.1 hmap
  injection hh with hstatus hread
  have hr' := Loop.reachable_anyBatch hr
  have hwait : s.pc = .waiting := of_decide_eq_true hpc
  exact ⟨s, h, hr', hwait, hfd, hstatus, hread, (blocked_done hr' hwait hfd).2 hstatus⟩

/-! ### The registry -/

/-- The client set, the handler map and the buffers of a worker that listens on `listenfd`. -/
structure RegistryInvariant (listenfd : Fd) (w : NetworkInterface) : Prop where
  /-- A client is mapped, and is a peer. -/
  clients : ∀ fd ∈ w.wsClients, (∃ h, w.websocketHandlerMap fd = some h) ∧ fd ≠ listenfd ∧ 0 ≤ fd
  /-- The clients are the connections whose handshake is done. -/
  mem_wsClients : ∀ fd h, w.websocketHandlerMap fd = some h → fd ≠ listenfd →
    (fd ∈ w.wsClients ↔ h.status = .handsharked)
  /-- Only they have anything to be sent. -/
  writeBuf : ∀ fd h, w.websocketHandlerMap fd = some h → h.writeBuf ≠ [] → h.status = .handsharked
  /-- The listener is the first connection, stays mapped, and is never closed. -/
  listener : w.listenfd = listenfd ∧
    (∃ h, w.websocketHandlerMap listenfd = some h ∧ h.conn = 0) ∧
    listenfd ∉ w.pendingCloses ∧ ∀ c, .closed c listenfd ∉ w.trace
  bounds : ∀ fd h, w.websocketHandlerMap fd = some h →
    h.readBuf.length ≤ wsMaxReadBuffer ∧ h.writeBuf.length ≤ wsMaxWriteBuffer

/-- **The registry is consistent in every reachable state.** -/
theorem registry_invariant (hr : Loop.Reachable Loop.AnyBatch listenfd s) :
    RegistryInvariant listenfd s.worker := by
  have hw := (Loop.reachable_wellFormed Loop.promises_anyBatch hr).worker
  obtain ⟨hlisten, hconn, hclosed⟩ := Loop.listener Loop.promises_anyBatch hr
  refine ⟨?_, ?_, ?_, ⟨hlisten, NetworkInterface.connAt_eq_some hconn, ?_, hclosed⟩, ?_⟩
  · intro fd hfd
    obtain ⟨h, hh, hs⟩ := (hw.mem_wsClients fd).1 hfd
    -- the listener is nobody's peer
    have hne : fd ≠ s.worker.listenfd := by
      rintro rfl
      obtain ⟨h', hh', hs'⟩ := hw.listener
      rw [hh, Option.some.injEq] at hh'
      rw [hh', hs'] at hs
      cases hs
    exact ⟨⟨h, hh⟩, by rw [← hlisten]; exact hne, hw.nonneg fd h hh hne⟩
  · intro fd h hh _
    rw [hw.mem_wsClients fd, hh]
    simp
  · intro fd h hh hwrite
    cases hs : h.status with
    | unconnect => exact absurd (hw.writeBuf fd h hh hs) hwrite
    | handsharked => rfl
  · rw [← hlisten]
    exact hw.listener_pending
  · intro fd h hh
    exact Loop.bounded Loop.promises_anyBatch hr hh

/-- Two clients have been upgraded. -/
theorem registry_invariant_pair : ∃ s, Loop.Reachable Loop.AnyBatch 3 s ∧
    (5 : Fd) ∈ s.worker.wsClients ∧ RegistryInvariant 3 s.worker := by
  obtain ⟨s, response, hp, _⟩ := exists_pair
  obtain ⟨h, hfd, hs, _⟩ := hp.speaker
  have hinv := registry_invariant (Loop.reachable_anyBatch hp.reachable)
  exact ⟨s, Loop.reachable_anyBatch hp.reachable, (hinv.mem_wsClients 5 h hfd (by decide)).2 hs,
    hinv⟩

end WebSocketDemo
