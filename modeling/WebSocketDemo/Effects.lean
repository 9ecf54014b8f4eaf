/-
**What each operation does to the state**, one lemma for each field it touches.

The operations call one another through the singleton, so that the effect of one frame is spread
over several methods.  The lemmas here say once what each of them does to the handlers, the client
set and the history; everything later is derived from these and unfolds no operation.

Main definitions:

* `WebsocketHandler.accepts`, `WebsocketHandler.offer` — `append_outgoing` as it affects one
  handler;
* `reply`, `relay` — the frame a decoded frame is answered with, and the one passed on to the other
  clients;
* `NetworkInterface.Handles` — what handling one frame does.

Main results:

* `NetworkInterface.broadcastWsBinary_spec` — **a broadcast offers the data once to every other
  client**;
* `NetworkInterface.handleOneFrame_handles`, `NetworkInterface.driveIoFrame_item` — **handling a
  frame offers its reply to the sender and relays it to the others**.
-/

import WebSocketDemo.FrameCodec

set_option relaxedAutoImplicit false
set_option autoImplicit false

namespace WebSocketDemo

open Rfc6455 PrefixDecoder WebsocketHandler

/-! ### One handler -/

namespace WebsocketHandler

/-- Whether `append_outgoing` takes the data. -/
def accepts (h : WebsocketHandler) (data : Bytes) : Bool :=
  decide (h.writeBuf.length + data.length ≤ wsMaxWriteBuffer)

/-- The handler after `append_outgoing`. -/
def offer (h : WebsocketHandler) (data : Bytes) : WebsocketHandler :=
  if h.accepts data then { h with writeBuf := h.writeBuf ++ data } else h

@[simp] theorem offer_conn (h : WebsocketHandler) (data : Bytes) :
    (h.offer data).conn = h.conn := by
  unfold offer; split <;> rfl

@[simp] theorem offer_fd (h : WebsocketHandler) (data : Bytes) : (h.offer data).fd = h.fd := by
  unfold offer; split <;> rfl

@[simp] theorem offer_status (h : WebsocketHandler) (data : Bytes) :
    (h.offer data).status = h.status := by
  unfold offer; split <;> rfl

@[simp] theorem offer_readBuf (h : WebsocketHandler) (data : Bytes) :
    (h.offer data).readBuf = h.readBuf := by
  unfold offer; split <;> rfl

@[simp] theorem offer_request (h : WebsocketHandler) (data : Bytes) :
    (h.offer data).request = h.request := by
  unfold offer; split <;> rfl

@[simp] theorem offer_headerMap (h : WebsocketHandler) (data : Bytes) :
    (h.offer data).headerMap = h.headerMap := by
  unfold offer; split <;> rfl

/-- The handler after an offer that may not be made. -/
def offerOption (h : WebsocketHandler) (data : Option Bytes) : WebsocketHandler :=
  data.elim h h.offer

section OfferOption

variable (h : WebsocketHandler) (data : Option Bytes)

@[simp] theorem offerOption_none : h.offerOption none = h := rfl

@[simp] theorem offerOption_some (data : Bytes) : h.offerOption (some data) = h.offer data := rfl

@[simp] theorem offerOption_conn : (h.offerOption data).conn = h.conn := by
  cases data <;> simp

@[simp] theorem offerOption_fd : (h.offerOption data).fd = h.fd := by
  cases data <;> simp

@[simp] theorem offerOption_status : (h.offerOption data).status = h.status := by
  cases data <;> simp

@[simp] theorem offerOption_readBuf : (h.offerOption data).readBuf = h.readBuf := by
  cases data <;> simp

@[simp] theorem offerOption_request : (h.offerOption data).request = h.request := by
  cases data <;> simp

@[simp] theorem offerOption_headerMap : (h.offerOption data).headerMap = h.headerMap := by
  cases data <;> simp

/-- The input side of a handler plays no part in an offer. -/
theorem offerOption_input (request : WebsocketRequest) (readBuf : Bytes) :
    offerOption { h with request := request, readBuf := readBuf } data =
      { h.offerOption data with request := request, readBuf := readBuf } := by
  cases data with
  | none => rfl
  | some data =>
      simp only [offerOption_some, offer, accepts]
      by_cases hcap : h.writeBuf.length + data.length ≤ wsMaxWriteBuffer
      · simp [hcap]
      · simp [hcap]

end OfferOption

end WebsocketHandler

/-- The record of an offer that may not be made. -/
def offerObs (h : WebsocketHandler) (own : Bool) (data : Option Bytes) : List Obs :=
  data.elim [] fun data => [.offered h.conn data own (h.accepts data)]

/-- The frame a decoded frame is answered with: a text frame by an echo, a Ping by a Pong. -/
def reply (f : Frame) : Option Bytes :=
  if f.opcode = websocketTextData then some (serverFrame opText f.payload).encode
  else if f.opcode = websocketPingPack then some (serverFrame opPong f.payload).encode
  else none

/-- The frame passed on to the other clients. -/
def relay (f : Frame) : Option Bytes :=
  if f.opcode = websocketTextData then some (serverFrame opText f.payload).encode else none

theorem length_encode_ne_zero (f : WireFrame) : f.encode.length ≠ 0 := by
  simp [WireFrame.encode]

namespace NetworkInterface

variable (w : NetworkInterface) (fd : Fd)

/-! ### The operations that leave the handlers alone -/

section Emit

variable (o : Obs)

@[simp] theorem emit_listenfd : (w.emit o).listenfd = w.listenfd := rfl
@[simp] theorem emit_map : (w.emit o).websocketHandlerMap = w.websocketHandlerMap := rfl
@[simp] theorem emit_wsClients : (w.emit o).wsClients = w.wsClients := rfl
@[simp] theorem emit_pendingCloses : (w.emit o).pendingCloses = w.pendingCloses := rfl
@[simp] theorem emit_nextConn : (w.emit o).nextConn = w.nextConn := rfl
@[simp] theorem emit_trace : (w.emit o).trace = w.trace ++ [o] := rfl

end Emit

section SetHandler

variable (h : WebsocketHandler)

@[simp] theorem setHandler_listenfd : (w.setHandler fd h).listenfd = w.listenfd := rfl
@[simp] theorem setHandler_map : (w.setHandler fd h).websocketHandlerMap =
    Function.update w.websocketHandlerMap fd (some h) := rfl
@[simp] theorem setHandler_wsClients : (w.setHandler fd h).wsClients = w.wsClients := rfl
@[simp] theorem setHandler_pendingCloses :
    (w.setHandler fd h).pendingCloses = w.pendingCloses := rfl
@[simp] theorem setHandler_nextConn : (w.setHandler fd h).nextConn = w.nextConn := rfl
@[simp] theorem setHandler_trace : (w.setHandler fd h).trace = w.trace := rfl

end SetHandler

/-- `update_handler_events` changes the interest list only. -/
theorem updateHandlerEvents_eq :
    ∃ interest, w.updateHandlerEvents fd = { w with interest := interest } := by
  unfold updateHandlerEvents
  split
  · exact ⟨w.interest, rfl⟩
  · split
    · exact ⟨w.interest, rfl⟩
    · exact ⟨_, rfl⟩

@[simp] theorem updateHandlerEvents_listenfd :
    (w.updateHandlerEvents fd).listenfd = w.listenfd := by
  obtain ⟨_, h⟩ := updateHandlerEvents_eq w fd
  rw [h]

@[simp] theorem updateHandlerEvents_map :
    (w.updateHandlerEvents fd).websocketHandlerMap = w.websocketHandlerMap := by
  obtain ⟨_, h⟩ := updateHandlerEvents_eq w fd
  rw [h]

@[simp] theorem updateHandlerEvents_wsClients :
    (w.updateHandlerEvents fd).wsClients = w.wsClients := by
  obtain ⟨_, h⟩ := updateHandlerEvents_eq w fd
  rw [h]

@[simp] theorem updateHandlerEvents_pendingCloses :
    (w.updateHandlerEvents fd).pendingCloses = w.pendingCloses := by
  obtain ⟨_, h⟩ := updateHandlerEvents_eq w fd
  rw [h]

@[simp] theorem updateHandlerEvents_nextConn :
    (w.updateHandlerEvents fd).nextConn = w.nextConn := by
  obtain ⟨_, h⟩ := updateHandlerEvents_eq w fd
  rw [h]

@[simp] theorem updateHandlerEvents_trace : (w.updateHandlerEvents fd).trace = w.trace := by
  obtain ⟨_, h⟩ := updateHandlerEvents_eq w fd
  rw [h]

/-- The refresh pass of a broadcast changes the interest list only. -/
theorem foldl_updateHandlerEvents_eq (fds : List Fd) :
    ∃ interest, fds.foldl updateHandlerEvents w = { w with interest := interest } := by
  induction fds generalizing w with
  | nil => exact ⟨w.interest, rfl⟩
  | cons fd fds ih =>
      obtain ⟨i, hi⟩ := updateHandlerEvents_eq w fd
      rw [List.foldl_cons, hi]
      exact ih _

/-- `queue_close` changes the close queue only. -/
theorem queueClose_eq : ∃ pending, w.queueClose fd = { w with pendingCloses := pending } := by
  unfold queueClose
  split
  · exact ⟨w.pendingCloses, rfl⟩
  · exact ⟨_, rfl⟩

@[simp] theorem queueClose_listenfd : (w.queueClose fd).listenfd = w.listenfd := by
  obtain ⟨_, h⟩ := queueClose_eq w fd
  rw [h]

@[simp] theorem queueClose_map :
    (w.queueClose fd).websocketHandlerMap = w.websocketHandlerMap := by
  obtain ⟨_, h⟩ := queueClose_eq w fd
  rw [h]

@[simp] theorem queueClose_wsClients : (w.queueClose fd).wsClients = w.wsClients := by
  obtain ⟨_, h⟩ := queueClose_eq w fd
  rw [h]

@[simp] theorem queueClose_nextConn : (w.queueClose fd).nextConn = w.nextConn := by
  obtain ⟨_, h⟩ := queueClose_eq w fd
  rw [h]

@[simp] theorem queueClose_trace : (w.queueClose fd).trace = w.trace := by
  obtain ⟨_, h⟩ := queueClose_eq w fd
  rw [h]

@[simp] theorem mem_queueClose {fd' : Fd} :
    fd' ∈ (w.queueClose fd).pendingCloses ↔ fd' ∈ w.pendingCloses ∨ fd' = fd ∧ 0 ≤ fd := by
  unfold queueClose
  split_ifs with h
  · constructor
    · intro hm
      exact Or.inl hm
    · rintro (hm | ⟨rfl, h0⟩)
      · exact hm
      · exact absurd h (not_lt.2 h0)
  · simp [not_lt.1 h]

/-! ### `append_outgoing` -/

section AppendOutgoing

variable (data : Bytes) (updateEpoll : Bool)

@[simp] theorem appendOutgoing_listenfd :
    (w.appendOutgoing fd data updateEpoll).listenfd = w.listenfd := by
  unfold appendOutgoing
  cases w.websocketHandlerMap fd with
  | none => rfl
  | some h => dsimp only; split_ifs <;> simp

@[simp] theorem appendOutgoing_wsClients :
    (w.appendOutgoing fd data updateEpoll).wsClients = w.wsClients := by
  unfold appendOutgoing
  cases w.websocketHandlerMap fd with
  | none => rfl
  | some h => dsimp only; split_ifs <;> simp

@[simp] theorem appendOutgoing_nextConn :
    (w.appendOutgoing fd data updateEpoll).nextConn = w.nextConn := by
  unfold appendOutgoing
  cases w.websocketHandlerMap fd with
  | none => rfl
  | some h => dsimp only; split_ifs <;> simp

variable {w fd data} {h : WebsocketHandler}

/-- The handler takes the data or stays as it is; the others are not touched. -/
theorem appendOutgoing_map (hfd : w.websocketHandlerMap fd = some h) (hdata : data.length ≠ 0) :
    (w.appendOutgoing fd data updateEpoll).websocketHandlerMap =
      Function.update w.websocketHandlerMap fd (some (h.offer data)) := by
  unfold appendOutgoing WebsocketHandler.offer WebsocketHandler.accepts
  rw [hfd]
  dsimp only
  rw [if_neg hdata]
  by_cases hcap : h.writeBuf.length + data.length > wsMaxWriteBuffer
  · have hle : ¬ h.writeBuf.length + data.length ≤ wsMaxWriteBuffer := by omega
    simp only [hcap, hle, decide_false, Bool.false_eq_true, if_true, if_false, queueClose_map,
      emit_map]
    rw [← hfd, Function.update_eq_self]
  · have hle : h.writeBuf.length + data.length ≤ wsMaxWriteBuffer := by omega
    simp only [hcap, hle, decide_true, if_true, if_false]
    split_ifs <;> simp

/-- The offer is recorded once. -/
theorem appendOutgoing_trace (hfd : w.websocketHandlerMap fd = some h) (hdata : data.length ≠ 0) :
    (w.appendOutgoing fd data updateEpoll).trace =
      w.trace ++ [.offered h.conn data updateEpoll (h.accepts data)] := by
  unfold appendOutgoing WebsocketHandler.accepts
  rw [hfd]
  dsimp only
  rw [if_neg hdata]
  by_cases hcap : h.writeBuf.length + data.length > wsMaxWriteBuffer
  · rw [if_pos hcap]
    simp [show ¬ h.writeBuf.length + data.length ≤ wsMaxWriteBuffer by omega]
  · rw [if_neg hcap]
    split_ifs <;> simp [show h.writeBuf.length + data.length ≤ wsMaxWriteBuffer by omega]

/-- A refusal queues the handler for closing. -/
theorem mem_appendOutgoing (hfd : w.websocketHandlerMap fd = some h) (hown : h.fd = fd)
    (hdata : data.length ≠ 0) {fd' : Fd} :
    fd' ∈ (w.appendOutgoing fd data updateEpoll).pendingCloses ↔
      fd' ∈ w.pendingCloses ∨ fd' = fd ∧ 0 ≤ fd ∧ h.accepts data = false := by
  unfold appendOutgoing WebsocketHandler.accepts
  rw [hfd]
  dsimp only
  rw [if_neg hdata]
  by_cases hcap : h.writeBuf.length + data.length > wsMaxWriteBuffer
  · rw [if_pos hcap, mem_queueClose, hown]
    simp [show ¬ h.writeBuf.length + data.length ≤ wsMaxWriteBuffer by omega]
  · rw [if_neg hcap]
    split_ifs <;> simp [show h.writeBuf.length + data.length ≤ wsMaxWriteBuffer by omega]

theorem appendOutgoing_of_none (hfd : w.websocketHandlerMap fd = none) :
    w.appendOutgoing fd data updateEpoll = w := by
  simp [appendOutgoing, hfd]

end AppendOutgoing

/-! ### `broadcast_ws_binary` -/

section Broadcast

variable (exceptFd : Fd) (data : Bytes)

theorem broadcastAppend_frame (fds : List Fd) (acc : NetworkInterface × List Fd) :
    (broadcastAppend exceptFd data fds acc).1.listenfd = acc.1.listenfd ∧
      (broadcastAppend exceptFd data fds acc).1.wsClients = acc.1.wsClients ∧
      (broadcastAppend exceptFd data fds acc).1.nextConn = acc.1.nextConn := by
  induction fds generalizing acc with
  | nil => exact ⟨rfl, rfl, rfl⟩
  | cons cfd rest ih =>
      obtain ⟨w, toRefresh⟩ := acc
      rw [broadcastAppend]
      split_ifs
      · exact ih _
      · cases w.websocketHandlerMap cfd with
        | none => exact ih _
        | some h =>
            obtain ⟨h1, h2, h3⟩ := ih (w.appendOutgoing cfd data false, _)
            exact ⟨by rw [h1]; simp, by rw [h2]; simp, by rw [h3]; simp⟩

/-- The offers a broadcast records, in iteration order. -/
def broadcastObs (fds : List Fd) : List Obs :=
  fds.filterMap fun cfd =>
    if cfd = exceptFd then none
    else (w.websocketHandlerMap cfd).map fun h => .offered h.conn data false (h.accepts data)

variable {data}

/-- The appends of a broadcast: each client named once is offered the data once, and is queued for
closing when it refuses it. -/
theorem broadcastAppend_spec (hdata : data.length ≠ 0)
    (hown : ∀ fd h, w.websocketHandlerMap fd = some h → h.fd = fd) {fds : List Fd}
    (hnd : fds.Nodup) (toRefresh : List Fd) :
    (∀ fd, (broadcastAppend exceptFd data fds (w, toRefresh)).1.websocketHandlerMap fd =
      if fd ∈ fds ∧ fd ≠ exceptFd then (w.websocketHandlerMap fd).map (·.offer data)
      else w.websocketHandlerMap fd) ∧
    (broadcastAppend exceptFd data fds (w, toRefresh)).1.trace =
      w.trace ++ w.broadcastObs exceptFd data fds ∧
    (∀ fd, fd ∈ (broadcastAppend exceptFd data fds (w, toRefresh)).1.pendingCloses ↔
      fd ∈ w.pendingCloses ∨ (fd ∈ fds ∧ fd ≠ exceptFd) ∧ 0 ≤ fd ∧
        ∃ h, w.websocketHandlerMap fd = some h ∧ h.accepts data = false) := by
  induction fds generalizing w toRefresh with
  | nil => simp [broadcastAppend, broadcastObs]
  | cons cfd rest ih =>
      have hrest := hnd.of_cons
      have hnotin : cfd ∉ rest := (List.nodup_cons.1 hnd).1
      rw [broadcastAppend]
      by_cases hex : cfd = exceptFd
      · rw [if_pos hex]
        obtain ⟨hm, ht, hp⟩ := ih w hown hrest toRefresh
        refine ⟨?_, by rw [ht]; simp [broadcastObs, hex], ?_⟩
        · intro fd
          rw [hm fd]
          by_cases hfd : fd = cfd
          · simp [hfd, hex]
          · simp [hfd]
        · intro fd
          rw [hp fd]
          by_cases hfd : fd = cfd
          · simp [hfd, hex]
          · simp [hfd]
      · rw [if_neg hex]
        cases hc : w.websocketHandlerMap cfd with
        | none =>
            obtain ⟨hm, ht, hp⟩ := ih w hown hrest toRefresh
            dsimp only
            refine ⟨?_, by rw [ht]; simp [broadcastObs, hex, hc], ?_⟩
            · intro fd
              rw [hm fd]
              by_cases hfd : fd = cfd
              · simp [hfd, hc]
              · simp [hfd]
            · intro fd
              rw [hp fd]
              by_cases hfd : fd = cfd
              · simp [hfd, hc]
              · simp [hfd]
        | some h =>
            dsimp only
            set w₁ := w.appendOutgoing cfd data false with hw₁
            have hmap₁ := appendOutgoing_map false hc hdata
            have hother (fd : Fd) (hfd : fd ≠ cfd) :
                w₁.websocketHandlerMap fd = w.websocketHandlerMap fd := by
              rw [hw₁, hmap₁, Function.update_of_ne hfd]
            have hown₁ : ∀ fd h, w₁.websocketHandlerMap fd = some h → h.fd = fd := by
              intro fd h' hh'
              by_cases hfd : fd = cfd
              · rw [hw₁, hmap₁, hfd, Function.update_self, Option.some.injEq] at hh'
                rw [← hh', WebsocketHandler.offer_fd, hfd]
                exact hown cfd h hc
              · exact hown fd h' (by rw [← hother fd hfd]; exact hh')
            obtain ⟨hm, ht, hp⟩ := ih w₁ hown₁ hrest
              (if (!h.writePending && w₁.writePendingAt cfd) then toRefresh ++ [cfd]
                else toRefresh)
            refine ⟨?_, ?_, ?_⟩
            · intro fd
              rw [hm fd]
              by_cases hfd : fd = cfd
              · subst hfd
                rw [if_neg (by simp [hnotin]), if_pos ⟨List.mem_cons_self, hex⟩, hc, hw₁, hmap₁,
                  Function.update_self, Option.map_some]
              · rw [hother fd hfd]
                simp [hfd]
            · rw [ht, hw₁, appendOutgoing_trace false hc hdata, ← hw₁, List.append_assoc]
              congr 1
              simp only [broadcastObs, List.filterMap_cons, hex, if_false, hc, Option.map_some,
                List.singleton_append, List.cons.injEq, true_and]
              refine List.filterMap_congr ?_
              intro fd hfd
              have hne : fd ≠ cfd := fun he => hnotin (he ▸ hfd)
              rw [hother fd hne]
            · intro fd
              rw [hp fd, hw₁, mem_appendOutgoing false hc (hown cfd h hc) hdata, ← hw₁]
              by_cases hfd : fd = cfd
              · subst hfd
                simp [hnotin, hex, hc]
              · rw [hother fd hfd]
                simp [hfd]

/-- **A broadcast offers the data once to every other client.** -/
theorem broadcastWsBinary_spec (hdata : data.length ≠ 0)
    (hown : ∀ fd h, w.websocketHandlerMap fd = some h → h.fd = fd) (hnd : w.wsClients.Nodup) :
    (∀ fd, (w.broadcastWsBinary exceptFd data).websocketHandlerMap fd =
      if fd ∈ w.wsClients ∧ fd ≠ exceptFd then (w.websocketHandlerMap fd).map (·.offer data)
      else w.websocketHandlerMap fd) ∧
    (w.broadcastWsBinary exceptFd data).trace =
      w.trace ++ w.broadcastObs exceptFd data w.wsClients ∧
    (∀ fd, fd ∈ (w.broadcastWsBinary exceptFd data).pendingCloses ↔
      fd ∈ w.pendingCloses ∨ (fd ∈ w.wsClients ∧ fd ≠ exceptFd) ∧ 0 ≤ fd ∧
        ∃ h, w.websocketHandlerMap fd = some h ∧ h.accepts data = false) := by
  unfold broadcastWsBinary
  rw [if_neg hdata]
  obtain ⟨_, hi⟩ := foldl_updateHandlerEvents_eq
    (broadcastAppend exceptFd data w.wsClients (w, [])).1
    (broadcastAppend exceptFd data w.wsClients (w, [])).2
  dsimp only
  rw [hi]
  exact broadcastAppend_spec w exceptFd hdata hown hnd []

/-- A broadcast leaves the client set alone. -/
theorem broadcastWsBinary_frame (data : Bytes) :
    (w.broadcastWsBinary exceptFd data).listenfd = w.listenfd ∧
      (w.broadcastWsBinary exceptFd data).wsClients = w.wsClients ∧
      (w.broadcastWsBinary exceptFd data).nextConn = w.nextConn := by
  unfold broadcastWsBinary
  split_ifs with hdata
  · exact ⟨rfl, rfl, rfl⟩
  · obtain ⟨_, hi⟩ := foldl_updateHandlerEvents_eq
      (broadcastAppend exceptFd data w.wsClients (w, [])).1
      (broadcastAppend exceptFd data w.wsClients (w, [])).2
    dsimp only
    rw [hi]
    exact broadcastAppend_frame exceptFd data w.wsClients (w, [])

end Broadcast

/-! ### `handle_one_frame` -/

/-- The operations of one handled frame: the reply to the sender comes before the broadcast. -/
def handleObs (w : NetworkInterface) (fd : Fd) (h : WebsocketHandler) (f : Frame) : List Obs :=
  .handled h.conn f :: offerObs h true (reply f) ++
    (relay f).elim [] fun data => w.broadcastObs fd data w.wsClients

/-- What handling the frame `f` of the handler `h` under `fd` does: the sender, whose handler is
`h'` afterwards, is offered the reply, every other client the relayed frame, and the sender of a
Close is queued for closing. -/
structure Handles (w : NetworkInterface) (fd : Fd) (h : WebsocketHandler) (f : Frame)
    (h' : WebsocketHandler) (w' : NetworkInterface) : Prop where
  map : ∀ fd', w'.websocketHandlerMap fd' =
    if fd' = fd then some h'
    else if fd' ∈ w.wsClients then (w.websocketHandlerMap fd').map (·.offerOption (relay f))
    else w.websocketHandlerMap fd'
  trace : w'.trace = w.trace ++ w.handleObs fd h f
  pending : ∀ fd', fd' ∈ w'.pendingCloses ↔
    fd' ∈ w.pendingCloses ∨
      (fd' = fd ∧ 0 ≤ fd ∧
        (f.opcode = websocketConnectClose ∨ ∃ data ∈ reply f, h.accepts data = false)) ∨
      (fd' ∈ w.wsClients ∧ fd' ≠ fd ∧ 0 ≤ fd' ∧ ∃ h' data, w.websocketHandlerMap fd' = some h' ∧
        data ∈ relay f ∧ h'.accepts data = false)
  listenfd : w'.listenfd = w.listenfd
  wsClients : w'.wsClients = w.wsClients
  nextConn : w'.nextConn = w.nextConn

section HandleOneFrame

variable {w fd} {h : WebsocketHandler} {f : Frame}

/-- They are the frame and offers to connections there are. -/
theorem mem_handleObs {o : Obs} (hfd : w.websocketHandlerMap fd = some h)
    (ho : o ∈ w.handleObs fd h f) :
    o = .handled h.conn f ∨ ∃ fd' h' data own taken,
      w.websocketHandlerMap fd' = some h' ∧ o = .offered h'.conn data own taken := by
  rcases List.mem_append.1 ho with hown | hrelay
  · rcases List.mem_cons.1 hown with rfl | hreply
    · exact Or.inl rfl
    · cases hr : reply f with
      | none => simp [hr, offerObs] at hreply
      | some data =>
          rw [hr] at hreply
          exact Or.inr ⟨fd, h, data, true, _, hfd, List.mem_singleton.1 hreply⟩
  · cases hr : relay f with
    | none => simp [hr] at hrelay
    | some data =>
        simp only [hr, Option.elim_some, broadcastObs, List.mem_filterMap] at hrelay
        obtain ⟨fd', _, ho⟩ := hrelay
        split_ifs at ho
        obtain ⟨h', hh', rfl⟩ := Option.map_eq_some_iff.1 ho
        exact Or.inr ⟨fd', h', data, false, _, hh', rfl⟩

/-- The echo and the broadcast of a text frame. -/
theorem handles_text {data : Bytes} (hfd : w.websocketHandlerMap fd = some h)
    (hown : ∀ fd h, w.websocketHandlerMap fd = some h → h.fd = fd) (hnd : w.wsClients.Nodup)
    (hdata : data.length ≠ 0) (hreply : reply f = some data) (hrelay : relay f = some data)
    (hclose : f.opcode ≠ websocketConnectClose) :
    Handles w fd h f (h.offerOption (reply f))
      (((w.emit (.handled h.conn f)).queueSend fd data).broadcastWsBinary h.fd data) := by
  set w₁ := w.emit (.handled h.conn f) with hw₁
  have hfd₁ : w₁.websocketHandlerMap fd = some h := hfd
  have hmap := appendOutgoing_map true hfd₁ hdata
  have htrace := appendOutgoing_trace true hfd₁ hdata
  have hpending (fd' : Fd) : fd' ∈ (w₁.appendOutgoing fd data true).pendingCloses ↔
      fd' ∈ w₁.pendingCloses ∨ fd' = fd ∧ 0 ≤ fd ∧ h.accepts data = false :=
    mem_appendOutgoing true hfd₁ (hown fd h hfd) hdata
  rw [queueSend, hown fd h hfd]
  set w₂ := w₁.appendOutgoing fd data true with hw₂
  have hclients : w₂.wsClients = w.wsClients := by rw [hw₂, appendOutgoing_wsClients, hw₁]; rfl
  have hother (fd' : Fd) (hne : fd' ≠ fd) :
      w₂.websocketHandlerMap fd' = w.websocketHandlerMap fd' := by
    rw [hmap, Function.update_of_ne hne, hw₁, emit_map]
  have hown₂ : ∀ fd h, w₂.websocketHandlerMap fd = some h → h.fd = fd := by
    intro fd' h' hh'
    by_cases hne : fd' = fd
    · rw [hmap, hne, Function.update_self, Option.some.injEq] at hh'
      rw [← hh', WebsocketHandler.offer_fd, hne]
      exact hown fd h hfd
    · exact hown fd' h' (by rw [← hother fd' hne]; exact hh')
  obtain ⟨hm, ht, hp⟩ := broadcastWsBinary_spec w₂ fd hdata hown₂ (by rw [hclients]; exact hnd)
  obtain ⟨hl, hc, hn⟩ := broadcastWsBinary_frame w₂ fd data
  refine ⟨?_, ?_, ?_, ?_, ?_, ?_⟩
  · intro fd'
    rw [hm fd', hclients, hreply, hrelay]
    by_cases hne : fd' = fd
    · rw [if_neg (by simp [hne]), if_pos hne, hne, hmap, Function.update_self]
      rfl
    · rw [hother fd' hne]
      simp [hne]
  · rw [ht, htrace, hw₁, emit_trace, handleObs, hreply, hrelay, hclients]
    have hobs : w₂.broadcastObs fd data w.wsClients = w.broadcastObs fd data w.wsClients := by
      refine List.filterMap_congr ?_
      intro fd' _
      by_cases hne : fd' = fd
      · simp [hne]
      · rw [hother fd' hne]
    simp [hobs, offerObs]
  · intro fd'
    rw [hp fd', hpending fd', hclients, hreply, hrelay]
    by_cases hne : fd' = fd
    · simp [hne, hclose, hw₁]
    · rw [hother fd' hne]
      simp [hne, hw₁]
  · rw [hl, hw₂, appendOutgoing_listenfd, hw₁, emit_listenfd]
  · rw [hc, hclients]
  · rw [hn, hw₂, appendOutgoing_nextConn, hw₁, emit_nextConn]

/-- The Pong for a Ping. -/
theorem handles_ping {data : Bytes} (hfd : w.websocketHandlerMap fd = some h)
    (hown : h.fd = fd) (hdata : data.length ≠ 0) (hreply : reply f = some data)
    (hrelay : relay f = none) (hclose : f.opcode ≠ websocketConnectClose) :
    Handles w fd h f (h.offerOption (reply f))
      ((w.emit (.handled h.conn f)).queueSend fd data) := by
  have hfd₁ : (w.emit (.handled h.conn f)).websocketHandlerMap fd = some h := hfd
  refine ⟨?_, ?_, ?_, ?_, ?_, ?_⟩
  · intro fd'
    rw [queueSend, appendOutgoing_map true hfd₁ hdata, hreply, hrelay]
    by_cases hne : fd' = fd
    · rw [if_pos hne, hne, Function.update_self]
      rfl
    · rw [Function.update_of_ne hne]
      simp [hne]
  · rw [queueSend, appendOutgoing_trace true hfd₁ hdata, handleObs, hreply, hrelay]
    simp [offerObs]
  · intro fd'
    rw [queueSend, mem_appendOutgoing true hfd₁ hown hdata, hreply, hrelay]
    simp [hclose]
  · rw [queueSend, appendOutgoing_listenfd, emit_listenfd]
  · rw [queueSend, appendOutgoing_wsClients, emit_wsClients]
  · rw [queueSend, appendOutgoing_nextConn, emit_nextConn]

/-- **What `handle_one_frame` does** with the frame the request holds. -/
theorem handleOneFrame_handles (hfd : w.websocketHandlerMap fd = some h)
    (hown : ∀ fd h, w.websocketHandlerMap fd = some h → h.fd = fd) (hnd : w.wsClients.Nodup)
    (hf : h.request.frame = f) (hlen : h.request.payloadLength.toNat = f.payload.length)
    (hmax : f.payload.length ≤ wsMaxPayloadBytes) :
    Handles w fd h f (h.offerOption (reply f))
      ((w.emit (.handled h.conn f)).handleOneFrame fd) := by
  have hmsg : h.request.getMsg = f.payload := by rw [← hf]; rfl
  have hopcode : h.request.getMsgOpcode = f.opcode := by rw [← hf]; rfl
  have htext := packData_serverFrame opText hmax
  have hpong := packData_serverFrame opPong hmax
  have htext' : UInt8.ofNat opText.val = websocketTextData := by decide
  have hpong' : UInt8.ofNat opPong.val = websocketPangPack := by decide
  rw [htext'] at htext
  rw [hpong'] at hpong
  unfold handleOneFrame
  rw [emit_map, hfd]
  dsimp only
  rw [hmsg, hopcode, WebsocketRequest.getMsgLength, hlen]
  by_cases h1 : f.opcode = websocketTextData
  · rw [if_pos h1, htext]
    exact handles_text hfd hown hnd (length_encode_ne_zero _) (by simp [reply, h1])
      (by simp [relay, h1]) (by rw [h1]; decide)
  · rw [if_neg h1]
    have hrelay : relay f = none := by simp [relay, h1]
    by_cases h8 : f.opcode = websocketConnectClose
    · have h9 : f.opcode ≠ websocketPingPack := by rw [h8]; decide
      have hreply : reply f = none := by simp [reply, h1, h9]
      rw [if_pos h8, hown fd h hfd]
      refine ⟨?_, by simp [handleObs, hreply, hrelay, offerObs], ?_, by simp, by simp, by simp⟩
      · intro fd'
        by_cases hne : fd' = fd
        · simp [hne, hreply, hfd]
        · simp [hne, hrelay]
      · intro fd'
        simp [hreply, hrelay, h8]
    · rw [if_neg h8]
      by_cases h9 : f.opcode = websocketPingPack
      · have hreply : reply f = some (serverFrame opPong f.payload).encode := by
          rw [reply, if_neg h1, if_pos h9]
        rw [if_pos h9, hpong]
        exact handles_ping hfd (hown fd h hfd) (length_encode_ne_zero _) hreply hrelay h8
      · rw [if_neg h9]
        have hreply : reply f = none := by simp [reply, h1, h9]
        refine ⟨?_, by simp [handleObs, hreply, hrelay, offerObs], ?_, rfl, rfl, rfl⟩
        · intro fd'
          by_cases hne : fd' = fd
          · simp [hne, hreply, hfd]
          · simp [hne, hrelay]
        · intro fd'
          simp [hreply, hrelay, h8]

end HandleOneFrame

/-! ### One turn of the frame loop -/

section DriveIoFrame

variable {w fd} {h : WebsocketHandler} {f : Frame}

/-- Reading a frame off the buffer first, and resetting the request afterwards. -/
theorem Handles.of_setHandler {request : WebsocketRequest} {readBuf : Bytes}
    {w' : NetworkInterface}
    (hh : Handles (w.setHandler fd { h with request := request, readBuf := readBuf }) fd
      { h with request := request, readBuf := readBuf } f
      (offerOption { h with request := request, readBuf := readBuf } (reply f)) w') :
    ∃ request', Handles w fd h f
      { h.offerOption (reply f) with request := request', readBuf := readBuf }
      (w'.resetRequest fd) := by
  have hself := hh.map fd
  rw [if_pos rfl, offerOption_input] at hself
  have hreset : w'.resetRequest fd = w'.setHandler fd
      { h.offerOption (reply f) with request := request.reset, readBuf := readBuf } := by
    rw [resetRequest, hself]
  have hother (fd' : Fd) (hne : fd' ≠ fd) :
      (w.setHandler fd { h with request := request, readBuf := readBuf }).websocketHandlerMap fd' =
        w.websocketHandlerMap fd' := by
    rw [setHandler_map, Function.update_of_ne hne]
  refine ⟨request.reset, ?_⟩
  rw [hreset]
  refine ⟨?_, ?_, ?_, hh.listenfd, hh.wsClients, hh.nextConn⟩
  · intro fd'
    by_cases hne : fd' = fd
    · rw [if_pos hne, hne, setHandler_map, Function.update_self]
    · rw [setHandler_map, Function.update_of_ne hne, hh.map fd', hother fd' hne]
      rw [if_neg hne, if_neg hne]
      rfl
  · rw [setHandler_trace, hh.trace]
    have hobs (data : Bytes) :
        (w.setHandler fd { h with request := request, readBuf := readBuf }).broadcastObs fd data
          w.wsClients = w.broadcastObs fd data w.wsClients := by
      refine List.filterMap_congr ?_
      intro fd' _
      by_cases hne : fd' = fd
      · simp [hne]
      · rw [hother fd' hne]
    simp only [handleObs, setHandler_trace, setHandler_wsClients, hobs]
    rfl
  · intro fd'
    rw [setHandler_pendingCloses, hh.pending fd']
    by_cases hne : fd' = fd
    · simp [hne, accepts]
    · rw [hother fd' hne]
      rfl

/-- The loop stops for want of a frame. -/
theorem driveIoFrame_more (hfd : w.websocketHandlerMap fd = some h)
    (hstatus : h.status = .handsharked) (hspec : frameSpec h.readBuf = .more) :
    ∃ request, w.driveIoFrame fd = (w.setHandler fd { h with request := request }, false) := by
  have ha := h.request.tryConsumeFrame_answers h.readBuf
  rw [hspec] at ha
  unfold driveIoFrame
  rw [hfd]
  rcases hout : h.request.tryConsumeFrame h.readBuf with ⟨r, request, readBuf⟩
  rw [hout] at ha
  obtain ⟨rfl, rfl⟩ := ha
  exact ⟨request, by simp [hstatus, hout]⟩

/-- The loop stops at a parse error. -/
theorem driveIoFrame_bad (hfd : w.websocketHandlerMap fd = some h)
    (hstatus : h.status = .handsharked) (hown : h.fd = fd) (hspec : frameSpec h.readBuf = .bad) :
    ∃ request, w.driveIoFrame fd =
      (((w.setHandler fd { h with request := request }).emit (.parseError h.conn)).queueClose fd,
        false) := by
  have ha := h.request.tryConsumeFrame_answers h.readBuf
  rw [hspec] at ha
  unfold driveIoFrame
  rw [hfd]
  rcases hout : h.request.tryConsumeFrame h.readBuf with ⟨r, request, readBuf⟩
  rw [hout] at ha
  obtain ⟨rfl, rfl⟩ := ha
  exact ⟨request, by simp [hstatus, hout, hown]⟩

/-- **The loop takes a frame off and goes on.** -/
theorem driveIoFrame_item {rest : Bytes} (hfd : w.websocketHandlerMap fd = some h)
    (hstatus : h.status = .handsharked)
    (hown : ∀ fd h, w.websocketHandlerMap fd = some h → h.fd = fd) (hnd : w.wsClients.Nodup)
    (hspec : frameSpec h.readBuf = .item f rest) :
    ∃ request w', w.driveIoFrame fd = (w', true) ∧
      Handles w fd h f { h.offerOption (reply f) with request := request, readBuf := rest } w' := by
  have ha := h.request.tryConsumeFrame_answers h.readBuf
  rw [hspec] at ha
  rcases hout : h.request.tryConsumeFrame h.readBuf with ⟨r, request, readBuf⟩
  rw [hout] at ha
  obtain ⟨rfl, hf, rfl, hlen, hmax⟩ := ha
  set h₁ : WebsocketHandler := { h with request := request, readBuf := readBuf } with hh₁
  have hdrive : w.driveIoFrame fd =
      ((((w.setHandler fd h₁).emit (.handled h.conn f)).handleOneFrame fd).resetRequest fd,
        true) := by
    have hupgraded : ¬ h.status ≠ .handsharked := not_not.2 hstatus
    simp only [driveIoFrame, hfd, hupgraded, if_false, hout, hh₁, hf]
  have hfd₁ : (w.setHandler fd h₁).websocketHandlerMap fd = some h₁ := by
    rw [setHandler_map, Function.update_self]
  have hown₁ : ∀ fd' h', (w.setHandler fd h₁).websocketHandlerMap fd' = some h' → h'.fd = fd' := by
    intro fd' h' hh'
    by_cases hne : fd' = fd
    · rw [hne, hfd₁, Option.some.injEq] at hh'
      rw [← hh', hne]
      exact hown fd h hfd
    · rw [setHandler_map, Function.update_of_ne hne] at hh'
      exact hown fd' h' hh'
  have hhandles := handleOneFrame_handles hfd₁ hown₁ hnd hf hlen hmax
  obtain ⟨request', hh⟩ := Handles.of_setHandler hhandles
  exact ⟨request', _, hdrive, hh⟩

end DriveIoFrame

end NetworkInterface

end WebSocketDemo
