/-
**What one step can do.**

Every later result rests on two facts: the state is well formed, and a step from a well-formed
state is one of the turns listed here.  `Turn` is the inversion of `Loop.step`; nothing behind this
module unfolds the step function of a run again.

The parameter `once` says whether the environment reports a descriptor at most once in a batch
(`EpollContract`) or promises nothing.

Main definitions:

* `NetworkInterface.WellFormed` — the handler map, the numbers of the connections and the client
  set fit together: a descriptor is a client if and only if its handshake is done;
* `Loop.WellFormed` — the same, and control is at a mapped connection;
* `PcTurn`, `Turn` — what a step can do.

Main results:

* `Loop.step_turn` — **every step is a turn**.
-/

import WebSocketDemo.Lifecycle
import WebSocketDemo.EpollLoop

set_option relaxedAutoImplicit false
set_option autoImplicit false

namespace WebSocketDemo

open PrefixDecoder

/-- The connection an operation belongs to. -/
def Obs.conn : Obs → ℕ
  | accepted c _ => c
  | closed c _ => c
  | readable c => c
  | received c _ => c
  | readRefused c _ => c
  | eof c => c
  | rejected c => c
  | upgraded c _ _ => c
  | registered c => c
  | handled c _ => c
  | parseError c => c
  | offered c _ _ _ => c
  | sent c _ => c

/-! ### The invariant -/

/-- The registry of a worker is consistent. -/
structure NetworkInterface.WellFormed (w : NetworkInterface) : Prop where
  /-- A handler knows its descriptor. -/
  own : ∀ fd h, w.websocketHandlerMap fd = some h → h.fd = fd
  nonneg : ∀ fd h, w.websocketHandlerMap fd = some h → fd ≠ w.listenfd → 0 ≤ fd
  /-- A connection has one number, which no later connection gets. -/
  conn_lt : ∀ fd h, w.websocketHandlerMap fd = some h → h.conn < w.nextConn
  conn_inj : ∀ fd fd' h h', w.websocketHandlerMap fd = some h →
    w.websocketHandlerMap fd' = some h' → h.conn = h'.conn → fd = fd'
  trace_lt : ∀ o ∈ w.trace, o.conn < w.nextConn
  /-- The clients are the handlers whose handshake is done. -/
  nodup : w.wsClients.Nodup
  mem_wsClients : ∀ fd, fd ∈ w.wsClients ↔
    ∃ h, w.websocketHandlerMap fd = some h ∧ h.status = .handsharked
  /-- The listener is mapped and is nobody's peer. -/
  listener : ∃ h, w.websocketHandlerMap w.listenfd = some h ∧ h.status = .unconnect
  listener_pending : w.listenfd ∉ w.pendingCloses
  /-- Nothing is waiting to be sent before the handshake. -/
  writeBuf : ∀ fd h, w.websocketHandlerMap fd = some h → h.status = .unconnect → h.writeBuf = []

namespace Pc

/-- The events of the batch that are still to be dispatched. -/
def rest : Pc → List EpollEvent
  | waiting => []
  | batch es => es
  | accepting es => es
  | reading _ es => es
  | frames _ es => es
  | flushing _ es => es

/-- The connection control is at. -/
def current : Pc → Option Fd
  | reading fd _ => some fd
  | frames fd _ => some fd
  | flushing fd _ => some fd
  | _ => none

end Pc

/-- Control is at a mapped connection; in the frame loop its handshake is done. -/
structure Pc.WellFormed (once : Prop) (w : NetworkInterface) (pc : Pc) : Prop where
  current : ∀ fd ∈ pc.current, fd ≠ w.listenfd ∧ ∃ h, w.websocketHandlerMap fd = some h
  frames : ∀ fd es, pc = .frames fd es →
    ∃ h, w.websocketHandlerMap fd = some h ∧ h.status = .handsharked
  /-- Where descriptors are reported once, they are dispatched once. -/
  nodup : once → (pc.rest.map EpollEvent.fd).Nodup
  current_rest : once → ∀ fd ∈ pc.current, fd ∉ pc.rest.map EpollEvent.fd

/-- The worker is well formed and so is the place where control is; the close queue is empty when
the loop waits. -/
structure Loop.WellFormed (once : Prop) (s : Loop) : Prop where
  worker : s.worker.WellFormed
  pc : s.pc.WellFormed once s.worker
  waiting : s.pc = .waiting → s.worker.pendingCloses = []

/-! ### What a step can do -/

/-- A turn that touches no handler: where control goes, and the descriptor that is queued for
closing, if any. -/
inductive PcTurn (s : Loop) : Option Fd → Pc → Prop
  | rehash : PcTurn s none s.pc
  | epollWait (es : List EpollEvent) : s.pc = .waiting → PcTurn s none (.batch es)
  | listen (ev : EpollEvent) (es : List EpollEvent) :
      s.pc = .batch (ev :: es) → ev.fd = s.worker.listenfd → PcTurn s none (.accepting es)
  | acceptFail (es : List EpollEvent) : s.pc = .accepting es → PcTurn s none (.batch es)
  | skip (ev : EpollEvent) (es : List EpollEvent) :
      s.pc = .batch (ev :: es) → ev.fd ≠ s.worker.listenfd → PcTurn s none (.batch es)
  | hangup (ev : EpollEvent) (es : List EpollEvent) :
      s.pc = .batch (ev :: es) → ev.fd ≠ s.worker.listenfd → PcTurn s (some ev.fd) (.batch es)
  | writable (ev : EpollEvent) (es : List EpollEvent) (h : WebsocketHandler) :
      s.pc = .batch (ev :: es) → ev.fd ≠ s.worker.listenfd →
      s.worker.websocketHandlerMap ev.fd = some h → PcTurn s none (.flushing ev.fd es)
  | readError (fd : Fd) (es : List EpollEvent) :
      s.pc = .reading fd es → PcTurn s (some fd) (.batch es)
  | wait (fd : Fd) (es : List EpollEvent) (h : WebsocketHandler) :
      s.pc = .reading fd es → s.worker.websocketHandlerMap fd = some h → h.status = .unconnect →
      h.upgrade = .wait → PcTurn s none (.batch es)
  | drive (fd : Fd) (es : List EpollEvent) (h : WebsocketHandler) :
      s.pc = .reading fd es → s.worker.websocketHandlerMap fd = some h →
      h.status = .handsharked → PcTurn s none (.frames fd es)
  | flushed (fd : Fd) (es : List EpollEvent) : s.pc = .flushing fd es → PcTurn s none (.batch es)
  | sendError (fd : Fd) (es : List EpollEvent) :
      s.pc = .flushing fd es → PcTurn s (some fd) (.batch es)

/-- `w'` differs from `w` in the iteration order of the clients, in the interest list, and in the
descriptor `q` that is queued for closing. -/
structure NetworkInterface.Same (w : NetworkInterface) (q : Option Fd) (w' : NetworkInterface) :
    Prop where
  map : w'.websocketHandlerMap = w.websocketHandlerMap
  perm : w'.wsClients.Perm w.wsClients
  trace : w'.trace = w.trace
  listenfd : w'.listenfd = w.listenfd
  nextConn : w'.nextConn = w.nextConn
  pending : ∀ fd, fd ∈ w'.pendingCloses ↔ fd ∈ w.pendingCloses ∨ q = some fd ∧ 0 ≤ fd

/-- **What a step can do.** -/
inductive Turn (s : Loop) : Loop → Prop
  | quiet {q : Option Fd} {w' : NetworkInterface} {pc' : Pc} :
      PcTurn s q pc' → s.worker.Same q w' → Turn s ⟨w', pc'⟩
  | accept {fd : Fd} {es : List EpollEvent} :
      s.pc = .accepting es → 0 ≤ fd → fd ≠ s.worker.listenfd →
      s.worker.websocketHandlerMap fd = none → Turn s ⟨s.worker.ctlEvent fd true, .accepting es⟩
  | readable {ev : EpollEvent} {es : List EpollEvent} {h : WebsocketHandler} :
      s.pc = .batch (ev :: es) → ev.fd ≠ s.worker.listenfd →
      s.worker.websocketHandlerMap ev.fd = some h →
      Turn s ⟨s.worker.emit (.readable h.conn), .reading ev.fd es⟩
  | received {fd : Fd} {es : List EpollEvent} {h : WebsocketHandler} {data : Bytes} :
      s.pc = .reading fd es → s.worker.websocketHandlerMap fd = some h → data.length ≠ 0 →
      data.length ≤ readChunk → h.readBuf.length + data.length ≤ wsMaxReadBuffer →
      Turn s ⟨(s.worker.setHandler fd { h with readBuf := h.readBuf ++ data }).emit
        (.received h.conn data), .reading fd es⟩
  | readRefused {fd : Fd} {es : List EpollEvent} {h : WebsocketHandler} {data : Bytes} :
      s.pc = .reading fd es → s.worker.websocketHandlerMap fd = some h → data.length ≠ 0 →
      data.length ≤ readChunk → wsMaxReadBuffer < h.readBuf.length + data.length →
      Turn s ⟨(s.worker.emit (.readRefused h.conn data)).queueClose fd, .batch es⟩
  | eof {fd : Fd} {es : List EpollEvent} {h : WebsocketHandler} :
      s.pc = .reading fd es → s.worker.websocketHandlerMap fd = some h →
      Turn s ⟨(s.worker.emit (.eof h.conn)).queueClose fd, .batch es⟩
  | reject {fd : Fd} {es : List EpollEvent} {h : WebsocketHandler} {readBuf : Bytes}
      {headerMap : HeaderMap} :
      s.pc = .reading fd es → s.worker.websocketHandlerMap fd = some h → h.status = .unconnect →
      h.upgrade = .reject readBuf headerMap →
      Turn s ⟨((s.worker.setHandler fd { h with readBuf := readBuf, headerMap := headerMap }).emit
        (.rejected h.conn)).queueClose fd, .batch es⟩
  | upgrade {fd : Fd} {es : List EpollEvent} {h : WebsocketHandler} {headerMap : HeaderMap}
      {rest : Bytes} {w' : NetworkInterface} :
      s.pc = .reading fd es → s.worker.websocketHandlerMap fd = some h → h.status = .unconnect →
      h.upgrade = .accept headerMap rest → s.worker.Upgrades fd h headerMap rest w' →
      Turn s ⟨w', .frames fd es⟩
  | more {fd : Fd} {es : List EpollEvent} {h : WebsocketHandler} {request : WebsocketRequest} :
      s.pc = .frames fd es → s.worker.websocketHandlerMap fd = some h →
      h.status = .handsharked → frameSpec h.readBuf = .more →
      Turn s ⟨s.worker.setHandler fd { h with request := request }, .batch es⟩
  | bad {fd : Fd} {es : List EpollEvent} {h : WebsocketHandler} {request : WebsocketRequest} :
      s.pc = .frames fd es → s.worker.websocketHandlerMap fd = some h →
      h.status = .handsharked → frameSpec h.readBuf = .bad →
      Turn s ⟨((s.worker.setHandler fd { h with request := request }).emit
        (.parseError h.conn)).queueClose fd, .batch es⟩
  | handle {fd : Fd} {es : List EpollEvent} {h : WebsocketHandler} {f : Frame} {rest : Bytes}
      {request : WebsocketRequest} {w' : NetworkInterface} :
      s.pc = .frames fd es → s.worker.websocketHandlerMap fd = some h →
      h.status = .handsharked → frameSpec h.readBuf = .item f rest →
      s.worker.Handles fd h f
        { h.offerOption (reply f) with request := request, readBuf := rest } w' →
      Turn s ⟨w', .frames fd es⟩
  | sent {fd : Fd} {es : List EpollEvent} {h : WebsocketHandler} {n : ℕ} :
      s.pc = .flushing fd es → s.worker.websocketHandlerMap fd = some h → n ≠ 0 →
      n ≤ h.writeBuf.length →
      Turn s ⟨(s.worker.setHandler fd { h with writeBuf := h.writeBuf.drop n }).emit
        (.sent h.conn (h.writeBuf.take n)), .flushing fd es⟩
  | close {fds : List Fd} {w' : NetworkInterface} :
      s.pc = .batch [] → fds.Nodup → (∀ fd, fd ∈ fds ↔ fd ∈ s.worker.pendingCloses) →
      s.worker.Closes fds w' → w'.pendingCloses = [] → Turn s ⟨w', .waiting⟩

namespace Loop

variable {once : Prop} {s s' : Loop} {i : Input}

theorem same_refl (w : NetworkInterface) : w.Same none w :=
  ⟨rfl, List.Perm.refl _, rfl, rfl, rfl, by simp⟩

theorem same_queueClose (w : NetworkInterface) (fd : Fd) : w.Same (some fd) (w.queueClose fd) := by
  refine ⟨by simp, by simp, by simp, by simp, by simp, ?_⟩
  intro fd'
  rw [NetworkInterface.mem_queueClose, Option.some.injEq]
  constructor
  · rintro (hm | ⟨rfl, h0⟩)
    · exact Or.inl hm
    · exact Or.inr ⟨rfl, h0⟩
  · rintro (hm | ⟨rfl, h0⟩)
    · exact Or.inl hm
    · exact Or.inr ⟨rfl, h0⟩

theorem same_updateHandlerEvents {w w' : NetworkInterface} {q : Option Fd} (h : w.Same q w')
    (fd : Fd) : w.Same q (w'.updateHandlerEvents fd) :=
  ⟨by simp [h.map], by simp [h.perm], by simp [h.trace], by simp [h.listenfd], by simp [h.nextConn],
    by simp [h.pending]⟩

/-- Dispatching an event. -/
theorem dispatch_turn {ev : EpollEvent} {es : List EpollEvent} (hpc : s.pc = .batch (ev :: es)) :
    Turn s (dispatch s.worker ev es) := by
  unfold dispatch
  split_ifs with hlisten herr hin hout
  · exact Turn.quiet (PcTurn.listen ev es hpc hlisten) (same_refl _)
  · exact Turn.quiet (PcTurn.hangup ev es hpc hlisten) (same_queueClose _ _)
  · cases hfd : s.worker.websocketHandlerMap ev.fd with
    | none => exact Turn.quiet (PcTurn.skip ev es hpc hlisten) (same_refl _)
    | some h => exact Turn.readable hpc hlisten hfd
  · cases hfd : s.worker.websocketHandlerMap ev.fd with
    | none => exact Turn.quiet (PcTurn.skip ev es hpc hlisten) (same_refl _)
    | some h => exact Turn.quiet (PcTurn.writable ev es h hpc hlisten hfd) (same_refl _)
  · exact Turn.quiet (PcTurn.skip ev es hpc hlisten) (same_refl _)

/-- The handshake half of `drive_io`. -/
theorem driveIoUpgrade_turn (hwf : s.WellFormed once) {fd : Fd} {es : List EpollEvent}
    (hpc : s.pc = .reading fd es) :
    Turn s (afterUpgrade fd es (s.worker.driveIoUpgrade fd)) := by
  obtain ⟨hlisten, h, hfd⟩ := hwf.pc.current fd (by rw [hpc]; rfl)
  have hown := hwf.worker.own fd h hfd
  cases hstatus : h.status with
  | handsharked =>
      rw [NetworkInterface.driveIoUpgrade_handsharked hfd hstatus]
      exact Turn.quiet (PcTurn.drive fd es h hpc hfd hstatus) (same_refl _)
  | unconnect =>
      cases hup : h.upgrade with
      | wait =>
          rw [NetworkInterface.driveIoUpgrade_wait hfd hstatus hup]
          exact Turn.quiet (PcTurn.wait fd es h hpc hfd hstatus hup) (same_refl _)
      | reject readBuf headerMap =>
          rw [NetworkInterface.driveIoUpgrade_reject hfd hstatus hown hup]
          exact Turn.reject hpc hfd hstatus hup
      | accept headerMap rest =>
          obtain ⟨w', hdrive, hu⟩ := NetworkInterface.driveIoUpgrade_accept hfd hstatus hown hlisten
            (hwf.worker.nonneg fd h hfd hlisten) (hwf.worker.writeBuf fd h hfd hstatus) hup
          rw [hdrive]
          exact Turn.upgrade hpc hfd hstatus hup hu

/-- One turn of the frame loop. -/
theorem driveIoFrame_turn (hwf : s.WellFormed once) {fd : Fd} {es : List EpollEvent}
    (hpc : s.pc = .frames fd es) :
    Turn s (afterUpgrade fd es (s.worker.driveIoFrame fd)) := by
  obtain ⟨h, hfd, hstatus⟩ := hwf.pc.frames fd es hpc
  cases hspec : frameSpec h.readBuf with
  | more =>
      obtain ⟨request, hdrive⟩ := NetworkInterface.driveIoFrame_more hfd hstatus hspec
      rw [hdrive]
      exact Turn.more hpc hfd hstatus hspec
  | bad =>
      obtain ⟨request, hdrive⟩ :=
        NetworkInterface.driveIoFrame_bad hfd hstatus (hwf.worker.own fd h hfd) hspec
      rw [hdrive]
      exact Turn.bad hpc hfd hstatus hspec
  | item f rest =>
      obtain ⟨request, w', hdrive, hh⟩ := NetworkInterface.driveIoFrame_item hfd hstatus
        hwf.worker.own hwf.worker.nodup hspec
      rw [hdrive]
      exact Turn.handle hpc hfd hstatus hspec hh

/-- **Every step is a turn.** -/
theorem step_turn (hwf : s.WellFormed once) (h : step s i = some s') : Turn s s' := by
  cases step_branch h with
  | rehash order hperm => exact Turn.quiet PcTurn.rehash ⟨rfl, hperm, rfl, rfl, rfl, by simp⟩
  | epollWait es hpc => exact Turn.quiet (PcTurn.epollWait es hpc) (same_refl _)
  | close hpc =>
      obtain ⟨fds, hnd, hmem, hc, hempty⟩ :=
        NetworkInterface.processCloseQueue_closes hwf.worker.own hwf.worker.nodup
      exact Turn.close hpc hnd hmem hc hempty
  | dispatch ev es hpc => exact dispatch_turn hpc
  | accept fd es hpc h0 hne hfd => exact Turn.accept hpc h0 hne hfd
  | acceptFail es hpc => exact Turn.quiet (PcTurn.acceptFail es hpc) (same_refl _)
  | received fd es hd data hpc hfd h0 hchunk hcap => exact Turn.received hpc hfd h0 hchunk hcap
  | readRefused fd es hd data hpc hfd h0 hchunk hcap =>
      exact Turn.readRefused hpc hfd h0 hchunk hcap
  | readEof fd es hd hpc hfd => exact Turn.eof hpc hfd
  | readError fd es hpc => exact Turn.quiet (PcTurn.readError fd es hpc) (same_queueClose _ fd)
  | readAgain fd es hpc => exact driveIoUpgrade_turn hwf hpc
  | frames fd es hpc => exact driveIoFrame_turn hwf hpc
  | flushed fd es hpc _ =>
      exact Turn.quiet (PcTurn.flushed fd es hpc) (same_updateHandlerEvents (same_refl _) fd)
  | sent fd es hd n hpc hfd h0 hle => exact Turn.sent hpc hfd h0 hle
  | sendAgain fd es hpc _ =>
      exact Turn.quiet (PcTurn.flushed fd es hpc) (same_updateHandlerEvents (same_refl _) fd)
  | sendError fd es hpc _ =>
      exact Turn.quiet (PcTurn.sendError fd es hpc)
        (same_updateHandlerEvents (same_queueClose _ fd) fd)

end Loop

end WebSocketDemo
