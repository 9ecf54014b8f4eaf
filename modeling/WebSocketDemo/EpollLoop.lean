/-
**The event loop** (`Network_Interface::epoll_loop`) as a transition system.

The loop is cut at every system call and at every turn of its inner loops, so that every point at
which something has been handled, sent or closed is a state of its own.  `Pc` says where control
is; `Input` is what the environment answers; `step` is the code between two such points.  The
deterministic turns (dispatching an event, one turn of the frame loop, draining the close queue)
carry the label `tau`.

* `Pc.accepting`, `Pc.reading`, `Pc.flushing` — the loops around `accept`, `read` and `send`; the
  last is the loop of `Websocket_Handler::flush_writes`;
* `Pc.frames` — the frame loop of `Websocket_Handler::drive_io`.

Two answers are constrained, by what the system promises: `accept` returns a descriptor that is not
open, and `read` and `send` transfer a positive number of bytes within the buffer they are given.
What `epoll_wait` reports is not constrained here; its contract is `EpollContract`.  `Loop.Branch`
lists the branches of `step`, so that nothing behind this module needs to unfold it.

`rehash` is no system call: the iteration order of an `unordered_set` is unspecified, so that the
environment may permute `ws_clients_` between any two steps.
-/

import WebSocketDemo.NetworkInterface
import WebSocketDemo.Lib.Transition

set_option relaxedAutoImplicit false
set_option autoImplicit false

namespace WebSocketDemo

/-- `struct epoll_event`. -/
structure EpollEvent where
  fd : Fd
  events : UInt32
  deriving DecidableEq, Repr

/-- Where the loop is.  `es` are the events of the batch that are still to be dispatched. -/
inductive Pc
  | waiting
  | batch (es : List EpollEvent)
  | accepting (es : List EpollEvent)
  | reading (fd : Fd) (es : List EpollEvent)
  | frames (fd : Fd) (es : List EpollEvent)
  | flushing (fd : Fd) (es : List EpollEvent)
  deriving DecidableEq, Repr

/-- What the environment answers. -/
inductive Input
  /-- `epoll_wait` returns a batch. -/
  | epollWait (es : List EpollEvent)
  /-- `accept` returns a descriptor. -/
  | accept (fd : Fd)
  /-- `accept` fails. -/
  | acceptFail
  /-- `read` returns data. -/
  | read (data : Bytes)
  /-- `read` returns 0. -/
  | readEof
  /-- `read` fails with `EAGAIN` or `EWOULDBLOCK`. -/
  | readAgain
  /-- `read` fails otherwise. -/
  | readError
  /-- `send` accepts `n` bytes. -/
  | send (n : ℕ)
  /-- `send` fails with `EAGAIN` or `EWOULDBLOCK`. -/
  | sendAgain
  /-- `send` returns 0 or fails otherwise. -/
  | sendError
  /-- No system call. -/
  | tau
  /-- `ws_clients_` is iterated in another order from here on. -/
  | rehash (order : List Fd)
  deriving DecidableEq, Repr

/-- A state of the loop. -/
structure Loop where
  worker : NetworkInterface
  pc : Pc

namespace Loop

/-- The state in which the loop is entered. -/
def init (listenfd : Fd) : Loop := ⟨NetworkInterface.init listenfd, .waiting⟩

/-- The branches of the `for` loop over a batch. -/
def dispatch (w : NetworkInterface) (ev : EpollEvent) (es : List EpollEvent) : Loop :=
  if ev.fd = w.listenfd then ⟨w, .accepting es⟩
  else if ev.events &&& (epollErr ||| epollHup) ≠ 0 then ⟨w.queueClose ev.fd, .batch es⟩
  else if ev.events &&& epollIn ≠ 0 then
    match w.websocketHandlerMap ev.fd with
    | none => ⟨w, .batch es⟩
    | some h => ⟨w.emit (.readable h.conn), .reading ev.fd es⟩
  else if ev.events &&& epollOut ≠ 0 then
    match w.websocketHandlerMap ev.fd with
    | none => ⟨w, .batch es⟩
    | some _ => ⟨w, .flushing ev.fd es⟩
  else ⟨w, .batch es⟩

/-- `accept` succeeds: the descriptor is one the process has not open. -/
def acceptStep (w : NetworkInterface) (es : List EpollEvent) (fd : Fd) : Option Loop :=
  if 0 ≤ fd ∧ fd ≠ w.listenfd ∧ (w.websocketHandlerMap fd).isNone then
    some ⟨w.ctlEvent fd true, .accepting es⟩
  else none

/-- `read` returns data, which `append_read` takes or refuses. -/
def readStep (w : NetworkInterface) (fd : Fd) (es : List EpollEvent) (data : Bytes) :
    Option Loop :=
  match w.websocketHandlerMap fd with
  | none => none
  | some h =>
      if data.length = 0 ∨ readChunk < data.length then none
      else
        match h.appendRead data with
        | (true, h') => some ⟨(w.setHandler fd h').emit (.received h.conn data), .reading fd es⟩
        | (false, _) =>
            some ⟨(w.emit (.readRefused h.conn data)).queueClose fd, .batch es⟩

/-- `read` returns 0. -/
def eofStep (w : NetworkInterface) (fd : Fd) (es : List EpollEvent) : Option Loop :=
  match w.websocketHandlerMap fd with
  | none => none
  | some h => some ⟨(w.emit (.eof h.conn)).queueClose fd, .batch es⟩

/-- `send` accepts the first `n` bytes of `write_buf_`. -/
def sendStep (w : NetworkInterface) (fd : Fd) (es : List EpollEvent) (n : ℕ) : Option Loop :=
  match w.websocketHandlerMap fd with
  | none => none
  | some h =>
      if n = 0 ∨ h.writeBuf.length < n then none
      else
        some ⟨(w.setHandler fd { h with writeBuf := h.writeBuf.drop n }).emit
          (.sent h.conn (h.writeBuf.take n)), .flushing fd es⟩

/-- Where `drive_io` goes on after the upgrade: to the frame loop, or back to the batch. -/
def afterUpgrade (fd : Fd) (es : List EpollEvent) : NetworkInterface × Bool → Loop
  | (w, true) => ⟨w, .frames fd es⟩
  | (w, false) => ⟨w, .batch es⟩

/-- The code between two system calls. -/
def step (s : Loop) (i : Input) : Option Loop :=
  match s.pc, i with
  | .waiting, .epollWait es => some ⟨s.worker, .batch es⟩
  | .batch [], .tau => some ⟨s.worker.processCloseQueue, .waiting⟩
  | .batch (ev :: es), .tau => some (dispatch s.worker ev es)
  | .accepting es, .accept fd => acceptStep s.worker es fd
  | .accepting es, .acceptFail => some ⟨s.worker, .batch es⟩
  | .reading fd es, .read data => readStep s.worker fd es data
  | .reading fd es, .readEof => eofStep s.worker fd es
  | .reading fd es, .readError => some ⟨s.worker.queueClose fd, .batch es⟩
  | .reading fd es, .readAgain => some (afterUpgrade fd es (s.worker.driveIoUpgrade fd))
  | .frames fd es, .tau => some (afterUpgrade fd es (s.worker.driveIoFrame fd))
  | .flushing fd es, .tau =>
      if s.worker.writePendingAt fd then none
      else some ⟨s.worker.updateHandlerEvents fd, .batch es⟩
  | .flushing fd es, .send n => sendStep s.worker fd es n
  | .flushing fd es, .sendAgain =>
      if s.worker.writePendingAt fd then some ⟨s.worker.updateHandlerEvents fd, .batch es⟩
      else none
  | .flushing fd es, .sendError =>
      if s.worker.writePendingAt fd then
        some ⟨(s.worker.queueClose fd).updateHandlerEvents fd, .batch es⟩
      else none
  | pc, .rehash order =>
      if order.Perm s.worker.wsClients then some ⟨{ s.worker with wsClients := order }, pc⟩
      else none
  | _, _ => none

/-! ### The branches of a step -/

/-- **The branches of `step`**, each with the tests that lead to it. -/
inductive Branch (s : Loop) : Input → Loop → Prop
  | rehash (order : List Fd) : order.Perm s.worker.wsClients →
      Branch s (.rehash order) ⟨{ s.worker with wsClients := order }, s.pc⟩
  | epollWait (es : List EpollEvent) : s.pc = .waiting →
      Branch s (.epollWait es) ⟨s.worker, .batch es⟩
  | close : s.pc = .batch [] → Branch s .tau ⟨s.worker.processCloseQueue, .waiting⟩
  | dispatch (ev : EpollEvent) (es : List EpollEvent) : s.pc = .batch (ev :: es) →
      Branch s .tau (dispatch s.worker ev es)
  | accept (fd : Fd) (es : List EpollEvent) : s.pc = .accepting es → 0 ≤ fd →
      fd ≠ s.worker.listenfd → s.worker.websocketHandlerMap fd = none →
      Branch s (.accept fd) ⟨s.worker.ctlEvent fd true, .accepting es⟩
  | acceptFail (es : List EpollEvent) : s.pc = .accepting es →
      Branch s .acceptFail ⟨s.worker, .batch es⟩
  | received (fd : Fd) (es : List EpollEvent) (h : WebsocketHandler) (data : Bytes) :
      s.pc = .reading fd es → s.worker.websocketHandlerMap fd = some h → data.length ≠ 0 →
      data.length ≤ readChunk → h.readBuf.length + data.length ≤ wsMaxReadBuffer →
      Branch s (.read data)
        ⟨(s.worker.setHandler fd { h with readBuf := h.readBuf ++ data }).emit
          (.received h.conn data), .reading fd es⟩
  | readRefused (fd : Fd) (es : List EpollEvent) (h : WebsocketHandler) (data : Bytes) :
      s.pc = .reading fd es → s.worker.websocketHandlerMap fd = some h → data.length ≠ 0 →
      data.length ≤ readChunk → wsMaxReadBuffer < h.readBuf.length + data.length →
      Branch s (.read data) ⟨(s.worker.emit (.readRefused h.conn data)).queueClose fd, .batch es⟩
  | readEof (fd : Fd) (es : List EpollEvent) (h : WebsocketHandler) :
      s.pc = .reading fd es → s.worker.websocketHandlerMap fd = some h →
      Branch s .readEof ⟨(s.worker.emit (.eof h.conn)).queueClose fd, .batch es⟩
  | readError (fd : Fd) (es : List EpollEvent) : s.pc = .reading fd es →
      Branch s .readError ⟨s.worker.queueClose fd, .batch es⟩
  | readAgain (fd : Fd) (es : List EpollEvent) : s.pc = .reading fd es →
      Branch s .readAgain (afterUpgrade fd es (s.worker.driveIoUpgrade fd))
  | frames (fd : Fd) (es : List EpollEvent) : s.pc = .frames fd es →
      Branch s .tau (afterUpgrade fd es (s.worker.driveIoFrame fd))
  | flushed (fd : Fd) (es : List EpollEvent) : s.pc = .flushing fd es →
      s.worker.writePendingAt fd = false →
      Branch s .tau ⟨s.worker.updateHandlerEvents fd, .batch es⟩
  | sent (fd : Fd) (es : List EpollEvent) (h : WebsocketHandler) (n : ℕ) :
      s.pc = .flushing fd es → s.worker.websocketHandlerMap fd = some h → n ≠ 0 →
      n ≤ h.writeBuf.length →
      Branch s (.send n)
        ⟨(s.worker.setHandler fd { h with writeBuf := h.writeBuf.drop n }).emit
          (.sent h.conn (h.writeBuf.take n)), .flushing fd es⟩
  | sendAgain (fd : Fd) (es : List EpollEvent) : s.pc = .flushing fd es →
      s.worker.writePendingAt fd = true →
      Branch s .sendAgain ⟨s.worker.updateHandlerEvents fd, .batch es⟩
  | sendError (fd : Fd) (es : List EpollEvent) : s.pc = .flushing fd es →
      s.worker.writePendingAt fd = true →
      Branch s .sendError ⟨(s.worker.queueClose fd).updateHandlerEvents fd, .batch es⟩

variable {s s' : Loop} {i : Input} {fd : Fd} {es : List EpollEvent}

/-- The iteration order may change anywhere. -/
theorem step_rehash (order : List Fd) :
    step s (.rehash order) =
      if order.Perm s.worker.wsClients then some ⟨{ s.worker with wsClients := order }, s.pc⟩
      else none := by
  unfold step
  cases s.pc with
  | batch es => cases es <;> rfl
  | _ => rfl

/-- The chunk one `read` returned. -/
theorem readStep_branch {data : Bytes} (hpc : s.pc = .reading fd es)
    (h : readStep s.worker fd es data = some s') : Branch s (.read data) s' := by
  unfold readStep at h
  cases hfd : s.worker.websocketHandlerMap fd with
  | none => simp [hfd] at h
  | some hd =>
      simp only [hfd] at h
      split_ifs at h with hlen
      obtain ⟨h0, hchunk⟩ := not_or.1 hlen
      by_cases hcap : hd.readBuf.length + data.length > wsMaxReadBuffer
      · simp only [WebsocketHandler.appendRead, h0, hcap, if_false, if_true,
          Option.some.injEq] at h
        subst h
        exact Branch.readRefused fd es hd data hpc hfd h0 (not_lt.1 hchunk) hcap
      · simp only [WebsocketHandler.appendRead, h0, hcap, if_false, Option.some.injEq] at h
        subst h
        exact Branch.received fd es hd data hpc hfd h0 (not_lt.1 hchunk) (not_lt.1 hcap)

/-- Answers to `send`. -/
theorem flushing_branch (hpc : s.pc = .flushing fd es) (hi : ∀ order, i ≠ .rehash order)
    (h : step s i = some s') : Branch s i s' := by
  cases i with
  | rehash order => exact absurd rfl (hi order)
  | tau =>
      simp only [step, hpc] at h
      split_ifs at h with hpending
      obtain rfl := Option.some.inj h
      exact Branch.flushed fd es hpc (Bool.eq_false_of_not_eq_true hpending)
  | sendAgain =>
      simp only [step, hpc] at h
      split_ifs at h with hpending
      obtain rfl := Option.some.inj h
      exact Branch.sendAgain fd es hpc hpending
  | sendError =>
      simp only [step, hpc] at h
      split_ifs at h with hpending
      obtain rfl := Option.some.inj h
      exact Branch.sendError fd es hpc hpending
  | send n =>
      simp only [step, hpc, sendStep] at h
      cases hfd : s.worker.websocketHandlerMap fd with
      | none => simp [hfd] at h
      | some hd =>
          simp only [hfd] at h
          split_ifs at h with hn
          obtain rfl := Option.some.inj h
          obtain ⟨h0, hle⟩ := not_or.1 hn
          exact Branch.sent fd es hd n hpc hfd h0 (not_lt.1 hle)
  | _ => simp [step, hpc] at h

/-- **A step takes one of the branches.** -/
theorem step_branch (h : step s i = some s') : Branch s i s' := by
  by_cases hi : ∃ order, i = .rehash order
  · obtain ⟨order, rfl⟩ := hi
    rw [step_rehash] at h
    split_ifs at h with hperm
    obtain rfl := Option.some.inj h
    exact Branch.rehash order hperm
  · rw [not_exists] at hi
    cases hpc : s.pc with
    | waiting =>
        cases i with
        | epollWait es =>
            simp only [step, hpc] at h
            obtain rfl := Option.some.inj h
            exact Branch.epollWait es hpc
        | rehash order => exact absurd rfl (hi order)
        | _ => simp [step, hpc] at h
    | batch es =>
        cases es with
        | nil =>
            cases i with
            | tau =>
                simp only [step, hpc] at h
                obtain rfl := Option.some.inj h
                exact Branch.close hpc
            | rehash order => exact absurd rfl (hi order)
            | _ => simp [step, hpc] at h
        | cons ev es =>
            cases i with
            | tau =>
                simp only [step, hpc] at h
                obtain rfl := Option.some.inj h
                exact Branch.dispatch ev es hpc
            | rehash order => exact absurd rfl (hi order)
            | _ => simp [step, hpc] at h
    | accepting es =>
        cases i with
        | accept fd =>
            simp only [step, hpc, acceptStep] at h
            split_ifs at h with hfd
            obtain rfl := Option.some.inj h
            exact Branch.accept fd es hpc hfd.1 hfd.2.1 (Option.isNone_iff_eq_none.1 hfd.2.2)
        | acceptFail =>
            simp only [step, hpc] at h
            obtain rfl := Option.some.inj h
            exact Branch.acceptFail es hpc
        | rehash order => exact absurd rfl (hi order)
        | _ => simp [step, hpc] at h
    | reading fd es =>
        cases i with
        | read data =>
            simp only [step, hpc] at h
            exact readStep_branch hpc h
        | readEof =>
            simp only [step, hpc, eofStep] at h
            cases hfd : s.worker.websocketHandlerMap fd with
            | none => simp [hfd] at h
            | some hd =>
                simp only [hfd] at h
                obtain rfl := Option.some.inj h
                exact Branch.readEof fd es hd hpc hfd
        | readError =>
            simp only [step, hpc] at h
            obtain rfl := Option.some.inj h
            exact Branch.readError fd es hpc
        | readAgain =>
            simp only [step, hpc] at h
            obtain rfl := Option.some.inj h
            exact Branch.readAgain fd es hpc
        | rehash order => exact absurd rfl (hi order)
        | _ => simp [step, hpc] at h
    | frames fd es =>
        cases i with
        | tau =>
            simp only [step, hpc] at h
            obtain rfl := Option.some.inj h
            exact Branch.frames fd es hpc
        | rehash order => exact absurd rfl (hi order)
        | _ => simp [step, hpc] at h
    | flushing fd es => exact flushing_branch hpc hi h

/-- Where the tests of a branch hold, it is the step. -/
theorem step_of_branch (hb : Branch s i s') : step s i = some s' := by
  cases hb with
  | rehash order hperm => rw [step_rehash, if_pos hperm]
  | accept fd es hpc h0 hne hfd =>
      have hfree : 0 ≤ fd ∧ fd ≠ s.worker.listenfd ∧ (s.worker.websocketHandlerMap fd).isNone :=
        ⟨h0, hne, by rw [hfd]; rfl⟩
      simp only [step, hpc, acceptStep, if_pos hfree]
  | received fd es h data hpc hfd h0 hchunk hcap =>
      have hlen : ¬ (data.length = 0 ∨ readChunk < data.length) := by omega
      simp only [step, hpc, readStep, hfd, if_neg hlen, WebsocketHandler.appendRead, if_neg h0,
        if_neg (not_lt.2 hcap)]
  | readRefused fd es h data hpc hfd h0 hchunk hcap =>
      have hlen : ¬ (data.length = 0 ∨ readChunk < data.length) := by omega
      simp only [step, hpc, readStep, hfd, if_neg hlen, WebsocketHandler.appendRead, if_neg h0,
        if_pos hcap]
  | readEof fd es h hpc hfd => simp only [step, hpc, eofStep, hfd]
  | flushed fd es hpc hpending => simp [step, hpc, hpending]
  | sent fd es h n hpc hfd h0 hle =>
      have hn : ¬ (n = 0 ∨ h.writeBuf.length < n) := by omega
      simp only [step, hpc, sendStep, hfd, if_neg hn]
  | sendAgain fd es hpc hpending => simp only [step, hpc, if_pos hpending]
  | sendError fd es hpc hpending => simp only [step, hpc, if_pos hpending]
  | _ => simp only [step, *]

/-- The loop leaves `epoll_wait` with a batch. -/
theorem step_waiting (hpc : s.pc = .waiting) (h : step s i = some s') :
    (∃ es, i = .epollWait es ∧ s' = ⟨s.worker, .batch es⟩) ∨
      ∃ order, i = .rehash order ∧ s'.pc = .waiting := by
  cases i with
  | epollWait es =>
      simp only [step, hpc] at h
      exact Or.inl ⟨es, rfl, (Option.some.inj h).symm⟩
  | rehash order =>
      rw [step_rehash] at h
      split_ifs at h
      obtain rfl := Option.some.inj h
      exact Or.inr ⟨order, rfl, hpc⟩
  | _ => simp [step, hpc] at h

/-! ### Environments -/

/-- What `epoll_wait` promises: it reports each descriptor at most once, only descriptors that are
in the interest list, and only events asked for there, besides errors and hang-ups. -/
def EpollContract (s : Loop) : Input → Prop
  | .epollWait es =>
      (es.map EpollEvent.fd).Nodup ∧
        ∀ ev ∈ es, ∃ mask ∈ s.worker.interest ev.fd,
          ev.events &&& ~~~(mask ||| epollErr ||| epollHup) = 0
  | _ => True

instance (s : Loop) (i : Input) : Decidable (EpollContract s i) := by
  unfold EpollContract
  split <;> infer_instance

/-- An environment that promises nothing about `epoll_wait`. -/
def AnyBatch (_ : Loop) (_ : Input) : Prop := True

/-- The states a worker reaches in an environment. -/
def Reachable (ok : Loop → Input → Prop) (listenfd : Fd) (s : Loop) : Prop :=
  Transition.Reaches step ok (init listenfd) s

end Loop

end WebSocketDemo
