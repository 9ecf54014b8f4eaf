/-
**Why a connection is queued for closing.**

`queue_close` is called where a chunk is refused or the stream ends, where the handshake or a frame
cannot be parsed, on a Close frame, where the write buffer refuses what it is offered, and where a
system call fails.  All but the last are observed at the connection: a connection that is queued has
such an operation in its history, or one of its system calls has failed.

Main definitions:

* `Obs.queues` — the operations that queue their connection;
* `Loop.Fails`, `Loop.Failed` — a system call fails for a descriptor, now or before.

Main results:

* `Loop.step_queues` — **what queues a connection**, of one step;
* `Loop.queued_by` — **why a connection is in the queue**, in every reachable state.
-/

import WebSocketDemo.Descriptors

set_option relaxedAutoImplicit false
set_option autoImplicit false

namespace WebSocketDemo

open PrefixDecoder

/-- The operations that queue their connection for closing. -/
def Obs.queues : Obs → Bool
  | readRefused _ _ => true
  | eof _ => true
  | rejected _ => true
  | parseError _ => true
  | handled _ f => decide (f.opcode = websocketConnectClose)
  | offered _ _ _ taken => !taken
  | _ => false

namespace NetworkInterface

variable {w : NetworkInterface} {fd fd' : Fd} {h h' : WebsocketHandler} {f : Frame}

/-- A frame that is not answered for want of room. -/
theorem mem_handleObs_reply {data : Bytes} (hd : data ∈ reply f) :
    .offered h.conn data true (h.accepts data) ∈ w.handleObs fd h f := by
  rw [Option.mem_def] at hd
  simp [handleObs, offerObs, hd]

/-- A frame that is not relayed for want of room. -/
theorem mem_handleObs_relay {data : Bytes} (hd : data ∈ relay f) (hmem : fd' ∈ w.wsClients)
    (hne : fd' ≠ fd) (hfd' : w.websocketHandlerMap fd' = some h') :
    .offered h'.conn data false (h'.accepts data) ∈ w.handleObs fd h f := by
  rw [Option.mem_def] at hd
  refine List.mem_append_right _ ?_
  rw [hd, Option.elim_some, broadcastObs, List.mem_filterMap]
  exact ⟨fd', hmem, by rw [if_neg hne, hfd', Option.map_some]⟩

/-- **What a handled frame queues it queues with such an operation.** -/
theorem Handles.queues {w' : NetworkInterface} {h₁ h₂ : WebsocketHandler}
    (hh : w.Handles fd h₁ f h₂ w') (hfd : w.websocketHandlerMap fd = some h₁)
    (hfd' : w.websocketHandlerMap fd' = some h) (hno : fd' ∉ w.pendingCloses)
    (hyes : fd' ∈ w'.pendingCloses) :
    ∃ o ∈ w.handleObs fd h₁ f, o.conn = h.conn ∧ o.queues = true := by
  rcases (hh.pending fd').1 hyes with hold | ⟨rfl, _, hreason⟩ |
    ⟨hmem, hne, _, g, data, hg, hdata, hrefused⟩
  · exact absurd hold hno
  · rw [hfd, Option.some.injEq] at hfd'
    subst hfd'
    rcases hreason with hclose | ⟨data, hdata, hrefused⟩
    · exact ⟨.handled h₁.conn f, List.mem_cons_self, rfl, decide_eq_true hclose⟩
    · exact ⟨_, mem_handleObs_reply hdata, rfl, by simp [Obs.queues, hrefused]⟩
  · rw [hg, Option.some.injEq] at hfd'
    subst hfd'
    exact ⟨_, mem_handleObs_relay hdata hmem hne hg, rfl, by simp [Obs.queues, hrefused]⟩

end NetworkInterface

namespace Loop

variable {once : Prop} {listenfd fd : Fd} {s t : Loop} {i : Input} {h : WebsocketHandler}

/-- A system call fails for `fd`: `epoll_wait` reports an error or that the peer has hung up, or
`read` or `send` returns an error. -/
inductive Fails (s : Loop) (fd : Fd) : Input → Prop
  | hangup (ev : EpollEvent) (es : List EpollEvent) : s.pc = .batch (ev :: es) → ev.fd = fd →
      ev.events &&& (epollErr ||| epollHup) ≠ 0 → Fails s fd .tau
  | readError (es : List EpollEvent) : s.pc = .reading fd es → Fails s fd .readError
  | sendError (es : List EpollEvent) : s.pc = .flushing fd es → Fails s fd .sendError

/-- One operation is observed, and `fd'` is queued with it. -/
theorem queues_of_queueClose {w : NetworkInterface} {o : Obs} {fd' : Fd}
    {h' : WebsocketHandler} (hfd : s.worker.websocketHandlerMap fd = some h)
    (hfd' : s.worker.websocketHandlerMap fd' = some h') (hno : fd ∉ s.worker.pendingCloses)
    (hyes : fd ∈ (w.queueClose fd').pendingCloses) (hw : w.pendingCloses = s.worker.pendingCloses)
    (ho : o.conn = h'.conn) (hq : o.queues = true) :
    ∃ o' ∈ [o], o'.conn = h.conn ∧ o'.queues = true := by
  rcases (NetworkInterface.mem_queueClose w fd').1 hyes with hold | ⟨rfl, _⟩
  · rw [hw] at hold
    exact absurd hold hno
  · rw [hfd, Option.some.injEq] at hfd'
    exact ⟨o, List.mem_singleton_self o, by rw [ho, hfd'], hq⟩

/-- **What queues a connection**: an operation of it that does, or the failure of a system call. -/
theorem step_queues (hwf : s.WellFormed once) (hs : s.step i = some t)
    (hfd : s.worker.websocketHandlerMap fd = some h) (hno : fd ∉ s.worker.pendingCloses)
    (hyes : fd ∈ t.worker.pendingCloses) :
    s.Fails fd i ∨ ∃ δ, t.worker.trace = s.worker.trace ++ δ ∧
      ∃ o ∈ δ, o.conn = h.conn ∧ o.queues = true := by
  -- nothing is queued
  have hsame {q : Prop} (hw : t.worker.pendingCloses = s.worker.pendingCloses) : q := by
    rw [hw] at hyes
    exact absurd hyes hno
  -- `fd'` is queued without an operation
  have hqueued {w : NetworkInterface} {fd' : Fd} (hw : w.pendingCloses = s.worker.pendingCloses)
      (hq : fd ∈ (w.queueClose fd').pendingCloses) : fd = fd' := by
    rcases (NetworkInterface.mem_queueClose w fd').1 hq with hold | ⟨he, _⟩
    · rw [hw] at hold
      exact absurd hold hno
    · exact he
  cases step_branch hs with
  | rehash order _ => exact hsame rfl
  | epollWait es _ => exact hsame rfl
  | close hpc =>
      obtain ⟨fds, _, _, _, hempty⟩ :=
        NetworkInterface.processCloseQueue_closes hwf.worker.own hwf.worker.nodup
      rw [hempty] at hyes
      cases hyes
  | dispatch ev es hpc =>
      unfold dispatch at hyes
      split_ifs at hyes with hlisten herr hin hout
      · exact absurd hyes hno
      · exact Or.inl (Fails.hangup ev es hpc (hqueued rfl hyes).symm herr)
      · cases hev : s.worker.websocketHandlerMap ev.fd <;> simp [hev, hno] at hyes
      · cases hev : s.worker.websocketHandlerMap ev.fd <;> simp [hev, hno] at hyes
      · exact absurd hyes hno
  | accept fd' es _ _ _ _ => exact hsame rfl
  | acceptFail es _ => exact hsame rfl
  | received fd' es h' data _ _ _ _ _ => exact hsame rfl
  | readRefused fd' es h' data hpc hfd' _ _ _ =>
      exact Or.inr ⟨[.readRefused h'.conn data], by simp,
        queues_of_queueClose hfd hfd' hno hyes rfl rfl rfl⟩
  | readEof fd' es h' hpc hfd' =>
      exact Or.inr ⟨[.eof h'.conn], by simp, queues_of_queueClose hfd hfd' hno hyes rfl rfl rfl⟩
  | readError fd' es hpc =>
      obtain rfl := hqueued rfl hyes
      exact Or.inl (Fails.readError es hpc)
  | readAgain fd' es hpc =>
      obtain ⟨hlisten, h', hfd'⟩ := hwf.pc.current fd' (by rw [hpc]; rfl)
      have hown := hwf.worker.own fd' h' hfd'
      cases hstatus : h'.status with
      | handsharked =>
          rw [NetworkInterface.driveIoUpgrade_handsharked hfd' hstatus] at hyes
          exact absurd hyes hno
      | unconnect =>
          cases hup : h'.upgrade with
          | wait =>
              rw [NetworkInterface.driveIoUpgrade_wait hfd' hstatus hup] at hyes
              exact absurd hyes hno
          | reject readBuf headerMap =>
              rw [NetworkInterface.driveIoUpgrade_reject hfd' hstatus hown hup] at hyes ⊢
              exact Or.inr ⟨[.rejected h'.conn], by simp [afterUpgrade],
                queues_of_queueClose hfd hfd' hno hyes rfl rfl rfl⟩
          | accept headerMap rest =>
              obtain ⟨w', hdrive, hu⟩ := NetworkInterface.driveIoUpgrade_accept hfd' hstatus hown
                hlisten (hwf.worker.nonneg fd' h' hfd' hlisten)
                (hwf.worker.writeBuf fd' h' hfd' hstatus) hup
              rw [hdrive] at hyes
              exact absurd ((hu.pending fd).1 hyes) hno
  | frames fd' es hpc =>
      obtain ⟨h', hfd', hstatus⟩ := hwf.pc.frames fd' es hpc
      have hown := hwf.worker.own fd' h' hfd'
      cases hspec : frameSpec h'.readBuf with
      | more =>
          obtain ⟨request, hdrive⟩ := NetworkInterface.driveIoFrame_more hfd' hstatus hspec
          rw [hdrive] at hyes
          exact absurd hyes hno
      | bad =>
          obtain ⟨request, hdrive⟩ := NetworkInterface.driveIoFrame_bad hfd' hstatus hown hspec
          rw [hdrive] at hyes ⊢
          exact Or.inr ⟨[.parseError h'.conn], by simp [afterUpgrade],
            queues_of_queueClose hfd hfd' hno hyes rfl rfl rfl⟩
      | item f rest =>
          obtain ⟨request, w', hdrive, hh⟩ := NetworkInterface.driveIoFrame_item hfd' hstatus
            hwf.worker.own hwf.worker.nodup hspec
          rw [hdrive] at hyes ⊢
          exact Or.inr ⟨_, hh.trace, hh.queues hfd' hfd hno hyes⟩
  | flushed fd' es _ _ => exact hsame (by simp)
  | sent fd' es h' n _ _ _ _ => exact hsame rfl
  | sendAgain fd' es _ _ => exact hsame (by simp)
  | sendError fd' es hpc _ =>
      rw [NetworkInterface.updateHandlerEvents_pendingCloses] at hyes
      obtain rfl := hqueued rfl hyes
      exact Or.inl (Fails.sendError es hpc)

/-! ### Every run -/

/-- On the way to `s` a system call has failed for the connection `c` on `fd`. -/
def Failed (listenfd : Fd) (c : ℕ) (fd : Fd) (s : Loop) : Prop :=
  ∃ u i v, Reachable EpollContract listenfd u ∧ u.step i = some v ∧
    Transition.Reaches step EpollContract v s ∧ u.worker.connAt fd = some c ∧ u.Fails fd i

/-- **Why a connection is in the queue**: an operation that queues it has been observed, or a system
call has failed for it. -/
theorem queued_by (hr : Reachable EpollContract listenfd s)
    (hfd : s.worker.websocketHandlerMap fd = some h) (hq : fd ∈ s.worker.pendingCloses) :
    (∃ o ∈ about h.conn s.worker.trace, o.queues = true) ∨ Failed listenfd h.conn fd s := by
  induction hr generalizing h with
  | refl => exact absurd hq List.not_mem_nil
  | @tail s t i hreach hi hs ih =>
      have hwf := reachable_wellFormed promises_epollContract hreach
      -- a connection that was queued before
      have hkeep (hconn : s.worker.connAt fd = some h.conn) (hold : fd ∈ s.worker.pendingCloses) :
          (∃ o ∈ about h.conn t.worker.trace, o.queues = true) ∨ Failed listenfd h.conn fd t := by
        obtain ⟨g, hg, hgc⟩ := NetworkInterface.connAt_eq_some hconn
        obtain ⟨δ, hδ⟩ := step_keeps_trace hwf hs
        rw [← hgc]
        rcases ih hg hold with ⟨o, ho, hqueues⟩ | ⟨u, j, v, hu, hstep, hrun, hfails⟩
        · refine Or.inl ⟨o, ?_, hqueues⟩
          rw [← hδ, about_append]
          exact List.mem_append_left _ ho
        · exact Or.inr ⟨u, j, v, hu, hstep, hrun.tail i hi hs, hfails⟩
      rcases turn_descriptors hwf (step_turn hwf hs) with hst | ⟨fd', ha⟩ | ⟨fds, hd⟩
      · have hconn : s.worker.connAt fd = some h.conn := by
          rw [← hst.connAt, NetworkInterface.connAt_of_map hfd]
        by_cases hold : fd ∈ s.worker.pendingCloses
        · exact hkeep hconn hold
        · obtain ⟨g, hg, hgc⟩ := NetworkInterface.connAt_eq_some hconn
          rcases step_queues hwf hs hg hold hq with hfails | ⟨δ, hδ, o, ho, hc, hqueues⟩
          · exact Or.inr ⟨s, i, t, hreach, hs, Transition.Reaches.refl, hconn, hfails⟩
          · refine Or.inl ⟨o, List.mem_filter.2 ⟨?_, decide_eq_true (by rw [hc, hgc])⟩, hqueues⟩
            rw [hδ]
            exact List.mem_append_right _ ho
      · -- a connection that is accepted is not queued
        rw [ha.worker] at hq
        have hmapped : (s.worker.connAt fd).isSome := (bound hreach).pending fd hq
        have hne : fd ≠ fd' := ha.ne hmapped
        refine hkeep ?_ hq
        rw [← ha.connAt_of_ne hne, NetworkInterface.connAt_of_map hfd]
      · -- the queue is empty behind a batch
        rw [hd.empty] at hq
        cases hq

end Loop

end WebSocketDemo
