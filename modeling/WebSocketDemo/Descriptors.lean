/-
**Descriptors are reused, connections are not.**

The kernel gives a closed descriptor out again.  The worker names connections by their descriptors
in the batch, in the close queue and in the handler map; since it closes descriptors only between
two batches, every such name means the connection it meant when it was written down.

Main definitions:

* `NetworkInterface.connAt` — the connection the worker has on a descriptor;
* `openConn` — the connection a descriptor is open for, by the history of `accept` and `close`;
* `Loop.Bound` — every descriptor the worker holds is mapped;
* `Loop.SafeDescriptors` — the life of descriptors and connections.

Main results:

* `Loop.turn_descriptors` — **a step keeps every connection on its descriptor, or accepts one, or
  closes the queued ones**;
* `Loop.bound` — **no descriptor in the batch, the queue or the interest list is stale**;
* `safe_descriptors` — **the life of a descriptor is safe under reuse**.
-/

import WebSocketDemo.Execution
import WebSocketDemo.Interest

set_option relaxedAutoImplicit false
set_option autoImplicit false

namespace WebSocketDemo

/-! ### The interest list -/

namespace NetworkInterface

variable {w w' w'' : NetworkInterface} {fd : Fd} {h : WebsocketHandler}

@[simp] theorem registerWsClient_interest : (w.registerWsClient fd).interest = w.interest := by
  unfold registerWsClient
  split_ifs
  · rfl
  · rfl

/-- The same descriptors are watched. -/
def Watches (w w' : NetworkInterface) : Prop :=
  ∀ fd, (w'.interest fd).isSome = (w.interest fd).isSome

namespace Watches

theorem of_eq (h : w'.interest = w.interest) : Watches w w' := fun fd => by rw [h]

theorem trans (h : Watches w w') (h' : Watches w' w'') : Watches w w'' :=
  fun fd => (h' fd).trans (h fd)

end Watches

theorem updateHandlerEvents_watches (w : NetworkInterface) (fd : Fd) :
    Watches w (w.updateHandlerEvents fd) := by
  intro fd'
  unfold updateHandlerEvents
  split_ifs
  · rfl
  · split
    · rfl
    · by_cases he : fd' = fd
      · subst he
        simp [modEvents]
      · simp [modEvents, Function.update_of_ne he]

theorem appendOutgoing_watches (w : NetworkInterface) (fd : Fd) (data : Bytes) (own : Bool) :
    Watches w (w.appendOutgoing fd data own) := by
  unfold appendOutgoing
  split
  · exact Watches.of_eq rfl
  · rename_i h _
    dsimp only
    split_ifs
    · exact Watches.of_eq rfl
    · exact Watches.of_eq (by simp)
    · have hset : Watches w ((w.setHandler fd { h with writeBuf := h.writeBuf ++ data }).emit
          (.offered h.conn data own true)) := Watches.of_eq rfl
      exact hset.trans (updateHandlerEvents_watches _ _)
    · exact Watches.of_eq rfl

theorem foldl_updateHandlerEvents_watches (fds : List Fd) (w : NetworkInterface) :
    Watches w (fds.foldl updateHandlerEvents w) := by
  induction fds generalizing w with
  | nil => exact Watches.of_eq rfl
  | cons fd fds ih => exact (updateHandlerEvents_watches w fd).trans (ih _)

theorem broadcastAppend_watches (exceptFd : Fd) (data : Bytes) (fds : List Fd)
    (w : NetworkInterface) (toRefresh : List Fd) :
    Watches w (broadcastAppend exceptFd data fds (w, toRefresh)).1 := by
  induction fds generalizing w toRefresh with
  | nil => exact Watches.of_eq rfl
  | cons cfd rest ih =>
      rw [broadcastAppend]
      split_ifs
      · exact ih w toRefresh
      · split
        · exact ih w toRefresh
        · exact (appendOutgoing_watches w cfd data false).trans (ih _ _)

theorem broadcastWsBinary_watches (w : NetworkInterface) (exceptFd : Fd) (data : Bytes) :
    Watches w (w.broadcastWsBinary exceptFd data) := by
  unfold broadcastWsBinary
  split_ifs
  · exact Watches.of_eq rfl
  · exact (broadcastAppend_watches exceptFd data w.wsClients w []).trans
      (foldl_updateHandlerEvents_watches _ _)

theorem handleOneFrame_watches (w : NetworkInterface) (fd : Fd) :
    Watches w (w.handleOneFrame fd) := by
  unfold handleOneFrame
  split
  · exact Watches.of_eq rfl
  · dsimp only
    split_ifs
    · split
      · exact Watches.of_eq rfl
      · exact (appendOutgoing_watches w fd _ true).trans (broadcastWsBinary_watches _ _ _)
    · exact Watches.of_eq (by simp)
    · split
      · exact Watches.of_eq rfl
      · exact appendOutgoing_watches w fd _ true
    · exact Watches.of_eq rfl

theorem resetRequest_watches (w : NetworkInterface) (fd : Fd) : Watches w (w.resetRequest fd) := by
  unfold resetRequest
  split
  · exact Watches.of_eq rfl
  · exact Watches.of_eq rfl

theorem driveIoFrame_watches (w : NetworkInterface) (fd : Fd) :
    Watches w (w.driveIoFrame fd).1 := by
  unfold driveIoFrame
  split
  · exact Watches.of_eq rfl
  · rename_i h _
    dsimp only
    split_ifs
    · exact Watches.of_eq rfl
    · split
      · exact Watches.of_eq rfl
      · exact Watches.of_eq (by simp)
      · rename_i request readBuf _
        have hset : Watches w
            ((w.setHandler fd { h with request := request, readBuf := readBuf }).emit
              (.handled h.conn request.frame)) :=
          Watches.of_eq rfl
        exact (hset.trans (handleOneFrame_watches _ fd)).trans (resetRequest_watches _ fd)

theorem driveIoUpgrade_watches (w : NetworkInterface) (fd : Fd) :
    Watches w (w.driveIoUpgrade fd).1 := by
  unfold driveIoUpgrade
  split
  · exact Watches.of_eq rfl
  · rename_i h _
    dsimp only
    split_ifs
    · exact Watches.of_eq rfl
    · exact Watches.of_eq (by simp)
    · split
      · exact Watches.of_eq rfl
      · rename_i pos _
        rcases fetchHttpInfo h.headerMap (h.readBuf.take (pos + 4)) with ⟨ret, headerMap⟩
        dsimp only
        have hsent (h' : WebsocketHandler) (o : Obs) (data : Bytes) :
            Watches w (((w.setHandler fd h').emit o).queueSend fd data) := by
          have hset : Watches w ((w.setHandler fd h').emit o) := Watches.of_eq rfl
          exact hset.trans (appendOutgoing_watches _ fd data true)
        split_ifs
        · exact Watches.of_eq (by simp)
        · exact hsent _ _ _
        · intro fd'
          rw [emit_interest, registerWsClient_interest]
          exact hsent _ _ _ fd'

/-! ### Connections and their descriptors -/

/-- The connection the worker has on a descriptor. -/
def connAt (w : NetworkInterface) (fd : Fd) : Option ℕ :=
  (w.websocketHandlerMap fd).map WebsocketHandler.conn

theorem connAt_of_map (hfd : w.websocketHandlerMap fd = some h) : w.connAt fd = some h.conn := by
  rw [connAt, hfd, Option.map_some]

theorem connAt_eq_some {c : ℕ} (hc : w.connAt fd = some c) :
    ∃ h, w.websocketHandlerMap fd = some h ∧ h.conn = c :=
  Option.map_eq_some_iff.1 hc

theorem connAt_eq_none : w.connAt fd = none ↔ w.websocketHandlerMap fd = none :=
  Option.map_eq_none_iff

theorem connAt_of_keeps {h' : WebsocketHandler} {fd' : Fd} (hfd : w.websocketHandlerMap fd = some h)
    (hmap : w'.websocketHandlerMap = Function.update w.websocketHandlerMap fd (some h'))
    (hconn : h'.conn = h.conn) : w'.connAt fd' = w.connAt fd' := by
  by_cases he : fd' = fd
  · subst he
    rw [connAt, connAt, hmap, Function.update_self, hfd, Option.map_some, Option.map_some, hconn]
  · rw [connAt, connAt, hmap, Function.update_of_ne he]

/-- Only mapped descriptors are watched. -/
def Watched (w : NetworkInterface) : Prop := ∀ fd, (w.interest fd).isSome → (w.connAt fd).isSome

namespace Watched

theorem of_watches (hw : w.Watched) (h : Watches w w')
    (hmap : ∀ fd, (w.connAt fd).isSome → (w'.connAt fd).isSome) : w'.Watched := by
  intro fd hfd
  rw [h fd] at hfd
  exact hmap fd (hw fd hfd)

theorem ctlEvent_true (hw : w.Watched) : (w.ctlEvent fd true).Watched := by
  intro fd' hfd'
  by_cases he : fd' = fd
  · subst he
    simp [connAt, ctlEvent]
  · simp only [ctlEvent, if_true, connAt, Function.update_of_ne he] at hfd' ⊢
    exact hw fd' hfd'

theorem ctlEvent_false (hw : w.Watched) : (w.ctlEvent fd false).Watched := by
  unfold NetworkInterface.ctlEvent
  rw [if_neg (by decide)]
  split
  · exact hw
  · intro fd' hfd'
    by_cases he : fd' = fd
    · subst he
      simp [unregisterWsClient, emit] at hfd'
    · simp only [connAt, unregisterWsClient, emit, Function.update_of_ne he] at hfd' ⊢
      exact hw fd' hfd'

theorem processCloseQueue (hw : w.Watched) : w.processCloseQueue.Watched := by
  have hfold : ∀ (fds : List Fd) (w : NetworkInterface), w.Watched →
      (fds.foldl (fun w fd => w.ctlEvent fd false) w).Watched := by
    intro fds
    induction fds with
    | nil => exact fun _ hw => hw
    | cons fd fds ih => exact fun w hw => ih _ hw.ctlEvent_false
  unfold NetworkInterface.processCloseQueue
  split_ifs
  · exact hw
  · exact hfold _ w hw

end Watched

end NetworkInterface

/-- The descriptor an operation opens or closes. -/
def Obs.descriptor : Obs → Option Fd
  | accepted _ fd => some fd
  | closed _ fd => some fd
  | _ => none

namespace Loop

variable {once : Prop} {s s' t u : Loop} {fd : Fd} {es : List EpollEvent} {c : ℕ}

/-- A step that neither opens nor closes a descriptor. -/
structure Stays (s s' : Loop) : Prop where
  listenfd : s'.worker.listenfd = s.worker.listenfd
  connAt : ∀ fd, s'.worker.connAt fd = s.worker.connAt fd
  trace : ∃ δ, s'.worker.trace = s.worker.trace ++ δ ∧ ∀ o ∈ δ, o.descriptor = none
  /-- What is queued for closing is mapped or in the batch. -/
  queued : ∀ fd ∈ s'.worker.pendingCloses, fd ∈ s.worker.pendingCloses ∨
    fd ∈ s.pc.rest.map EpollEvent.fd ∨ (s.worker.connAt fd).isSome
  kept : ∀ fd ∈ s.worker.pendingCloses, fd ∈ s'.worker.pendingCloses
  rest : s.pc = .waiting ∨ s'.pc.rest <:+ s.pc.rest
  current : ∀ fd ∈ s'.pc.current,
    fd ∈ s.pc.current ∨ fd ∈ s.pc.rest.map EpollEvent.fd
  waiting : s'.pc = .waiting → s.pc = .waiting

/-- A step that accepts a connection. -/
structure Accepts (s s' : Loop) (fd : Fd) : Prop where
  pc : ∃ es, s.pc = .accepting es ∧ s'.pc = .accepting es
  nonneg : 0 ≤ fd
  free : s.worker.websocketHandlerMap fd = none
  worker : s'.worker = s.worker.ctlEvent fd true

/-- A step that closes what is queued. -/
structure Drained (s s' : Loop) (fds : List Fd) : Prop where
  pc : s.pc = .batch []
  pc' : s'.pc = .waiting
  nodup : fds.Nodup
  mem : ∀ fd, fd ∈ fds ↔ fd ∈ s.worker.pendingCloses
  closes : s.worker.Closes fds s'.worker
  empty : s'.worker.pendingCloses = []

/-- Where control goes in a turn that touches no handler. -/
theorem pcTurn_place {q : Option Fd} {pc' : Pc} (ht : PcTurn s q pc') :
    (∀ fd, q = some fd → fd ∈ s.pc.current ∨ fd ∈ s.pc.rest.map EpollEvent.fd) ∧
      (s.pc = .waiting ∨ pc'.rest <:+ s.pc.rest) ∧
      (∀ fd ∈ pc'.current, fd ∈ s.pc.current ∨ fd ∈ s.pc.rest.map EpollEvent.fd) ∧
      (pc' = .waiting → s.pc = .waiting) := by
  cases ht with
  | rehash => exact ⟨nofun, Or.inr List.suffix_rfl, fun _ h => Or.inl h, id⟩
  | epollWait es hpc => exact ⟨nofun, Or.inl hpc, nofun, nofun⟩
  | listen ev es hpc _ =>
      rw [hpc]
      exact ⟨nofun, Or.inr (List.suffix_cons _ _), nofun, nofun⟩
  | acceptFail es hpc =>
      rw [hpc]
      exact ⟨nofun, Or.inr List.suffix_rfl, nofun, nofun⟩
  | skip ev es hpc _ =>
      rw [hpc]
      exact ⟨nofun, Or.inr (List.suffix_cons _ _), nofun, nofun⟩
  | hangup ev es hpc _ =>
      rw [hpc]
      refine ⟨fun fd hq => Or.inr ?_, Or.inr (List.suffix_cons _ _), nofun, nofun⟩
      obtain rfl := Option.some.inj hq
      exact List.mem_cons_self
  | writable ev es h hpc _ _ =>
      rw [hpc]
      refine ⟨nofun, Or.inr (List.suffix_cons _ _), fun fd hc => Or.inr ?_, nofun⟩
      obtain rfl := Option.some.inj hc
      exact List.mem_cons_self
  | readError fd es hpc =>
      rw [hpc]
      exact ⟨fun fd hq => Or.inl hq, Or.inr List.suffix_rfl, nofun, nofun⟩
  | wait fd es h hpc _ _ _ =>
      rw [hpc]
      exact ⟨nofun, Or.inr List.suffix_rfl, nofun, nofun⟩
  | drive fd es h hpc _ _ =>
      rw [hpc]
      exact ⟨nofun, Or.inr List.suffix_rfl, fun fd hc => Or.inl hc, nofun⟩
  | flushed fd es hpc =>
      rw [hpc]
      exact ⟨nofun, Or.inr List.suffix_rfl, nofun, nofun⟩
  | sendError fd es hpc =>
      rw [hpc]
      exact ⟨fun fd hq => Or.inl hq, Or.inr List.suffix_rfl, nofun, nofun⟩

/-- A turn in which control stays at its connection, or leaves it for the batch. -/
theorem stays_current {w' : NetworkInterface} {pc' : Pc} {δ : List Obs}
    (hlisten : w'.listenfd = s.worker.listenfd)
    (hconn : ∀ fd, w'.connAt fd = s.worker.connAt fd)
    (htrace : w'.trace = s.worker.trace ++ δ)
    (hδ : ∀ o ∈ δ, o.descriptor = none)
    (hqueued : ∀ fd ∈ w'.pendingCloses,
      fd ∈ s.worker.pendingCloses ∨ (s.worker.connAt fd).isSome)
    (hkept : ∀ fd ∈ s.worker.pendingCloses, fd ∈ w'.pendingCloses) (hrest : pc'.rest = s.pc.rest)
    (hcur : ∀ fd ∈ pc'.current, fd ∈ s.pc.current) (hpc' : pc' ≠ .waiting) :
    Stays s ⟨w', pc'⟩ where
  listenfd := hlisten
  connAt := hconn
  trace := ⟨δ, htrace, hδ⟩
  queued fd hfd := (hqueued fd hfd).imp_right Or.inr
  kept := hkept
  rest := Or.inr (by rw [hrest])
  current fd hfd := Or.inl (hcur fd hfd)
  waiting hw := absurd hw hpc'

theorem descriptor_handleObs {w : NetworkInterface} {h : WebsocketHandler} {f : Frame}
    (hfd : w.websocketHandlerMap fd = some h) :
    ∀ o ∈ w.handleObs fd h f, o.descriptor = none := by
  intro o ho
  rcases NetworkInterface.mem_handleObs hfd ho with rfl | ⟨_, _, _, _, _, _, rfl⟩
  · rfl
  · rfl

/-- **A step keeps every connection on its descriptor, or accepts one, or closes the queued
ones.** -/
theorem turn_descriptors (hwf : s.WellFormed once) (ht : Turn s s') :
    Stays s s' ∨ (∃ fd, Accepts s s' fd) ∨ ∃ fds, Drained s s' fds := by
  have hone {o : Obs} (ho : o.descriptor = none) : ∀ o' ∈ [o], o'.descriptor = none := by
    intro o' ho'
    obtain rfl := List.mem_singleton.1 ho'
    exact ho
  -- a connection control is at is queued for closing
  have hqueue {w : NetworkInterface} {fd : Fd} {h : WebsocketHandler}
      (hfd : s.worker.websocketHandlerMap fd = some h)
      (hw : w.pendingCloses = s.worker.pendingCloses) :
      (∀ fd' ∈ (w.queueClose fd).pendingCloses,
        fd' ∈ s.worker.pendingCloses ∨ (s.worker.connAt fd').isSome) ∧
      ∀ fd' ∈ s.worker.pendingCloses, fd' ∈ (w.queueClose fd).pendingCloses := by
    constructor
    · intro fd' hfd'
      rcases (NetworkInterface.mem_queueClose w fd).1 hfd' with hm | ⟨rfl, _⟩
      · exact Or.inl (by rw [← hw]; exact hm)
      · exact Or.inr (by rw [NetworkInterface.connAt_of_map hfd]; rfl)
    · intro fd' hfd'
      exact (NetworkInterface.mem_queueClose w fd).2 (Or.inl (by rw [hw]; exact hfd'))
  cases ht with
  | @quiet q w' pc' hpc hs =>
      left
      obtain ⟨hq, hrest, hcur, hwait⟩ := pcTurn_place hpc
      refine ⟨hs.listenfd, fun fd => by rw [NetworkInterface.connAt, hs.map,
        NetworkInterface.connAt],
        ⟨[], by rw [hs.trace, List.append_nil], nofun⟩, ?_, ?_, hrest, hcur, hwait⟩
      · intro fd hfd
        rcases (hs.pending fd).1 hfd with hm | ⟨hqfd, _⟩
        · exact Or.inl hm
        · right
          rcases hq fd hqfd with hc | hm
          · obtain ⟨_, h, hh⟩ := hwf.pc.current fd hc
            exact Or.inr (by rw [NetworkInterface.connAt_of_map hh]; rfl)
          · exact Or.inl hm
      · intro fd hfd
        exact (hs.pending fd).2 (Or.inl hfd)
  | @accept fd es hpc h0 hne hfd => exact Or.inr (Or.inl ⟨fd, ⟨es, hpc, rfl⟩, h0, hfd, rfl⟩)
  | @readable ev es h hpc hne hfd =>
      left
      refine ⟨rfl, fun fd => rfl, ⟨_, rfl, hone rfl⟩, fun fd hfd => Or.inl hfd, fun fd hfd => hfd,
        Or.inr ?_, ?_, nofun⟩
      · rw [hpc]
        exact List.suffix_cons _ _
      · intro fd hc
        obtain rfl := Option.some.inj hc
        rw [hpc]
        exact Or.inr List.mem_cons_self
  | @received fd es h data hpc hfd _ _ _ =>
      exact Or.inl (stays_current rfl
        (fun _ => NetworkInterface.connAt_of_keeps hfd rfl rfl) rfl (hone rfl)
        (fun _ hm => Or.inl hm) (fun _ hm => hm) (by rw [hpc]) (by rw [hpc]; exact fun _ h => h)
        nofun)
  | @readRefused fd es h data hpc hfd _ _ _ =>
      obtain ⟨hq, hk⟩ := hqueue (w := s.worker.emit (.readRefused h.conn data)) hfd rfl
      exact Or.inl (stays_current (δ := [.readRefused h.conn data]) (by simp)
        (fun fd' => by simp [NetworkInterface.connAt]) (by simp)
        (hone rfl) hq hk (by rw [hpc]; rfl) nofun nofun)
  | @eof fd es h hpc hfd =>
      obtain ⟨hq, hk⟩ := hqueue (w := s.worker.emit (.eof h.conn)) hfd rfl
      exact Or.inl (stays_current (δ := [.eof h.conn]) (by simp)
        (fun fd' => by simp [NetworkInterface.connAt]) (by simp)
        (hone rfl) hq hk (by rw [hpc]; rfl) nofun nofun)
  | @reject fd es h readBuf headerMap hpc hfd _ _ =>
      set h' : WebsocketHandler := { h with readBuf := readBuf, headerMap := headerMap }
      obtain ⟨hq, hk⟩ :=
        hqueue (w := (s.worker.setHandler fd h').emit (.rejected h.conn)) hfd rfl
      have hconn : h'.conn = h.conn := rfl
      exact Or.inl (stays_current (δ := [.rejected h.conn]) (by simp)
        (fun _ => NetworkInterface.connAt_of_keeps hfd (by simp) hconn) (by simp) (hone rfl) hq hk
        (by rw [hpc]; rfl) nofun nofun)
  | @upgrade fd es h headerMap rest w' hpc hfd _ _ hu =>
      refine Or.inl (stays_current hu.listenfd
        (fun fd' => NetworkInterface.connAt_of_keeps hfd hu.map rfl) hu.trace ?_
        (fun fd' hm => Or.inl ((hu.pending fd').1 hm)) (fun fd' hm => (hu.pending fd').2 hm)
        (by rw [hpc]; rfl) (by rw [hpc]; exact fun _ h => h) nofun)
      intro o ho
      simp only [List.mem_cons, List.not_mem_nil, or_false] at ho
      rcases ho with rfl | rfl | rfl
      · rfl
      · rfl
      · rfl
  | @more fd es h request hpc hfd _ _ =>
      exact Or.inl (stays_current (δ := []) rfl
        (fun _ => NetworkInterface.connAt_of_keeps hfd rfl rfl) (by simp) nofun
        (fun _ hm => Or.inl hm) (fun _ hm => hm) (by rw [hpc]; rfl) nofun nofun)
  | @bad fd es h request hpc hfd _ _ =>
      set h' : WebsocketHandler := { h with request := request }
      obtain ⟨hq, hk⟩ :=
        hqueue (w := (s.worker.setHandler fd h').emit (.parseError h.conn)) hfd rfl
      have hconn : h'.conn = h.conn := rfl
      exact Or.inl (stays_current (δ := [.parseError h.conn]) (by simp)
        (fun _ => NetworkInterface.connAt_of_keeps hfd (by simp) hconn) (by simp) (hone rfl) hq hk
        (by rw [hpc]; rfl) nofun nofun)
  | @handle fd es h f rest request w' hpc hfd hst _ hh =>
      refine Or.inl (stays_current hh.listenfd (fun fd' => ?_) hh.trace (descriptor_handleObs hfd)
        ?_ ?_ (by rw [hpc]) (by rw [hpc]; exact fun _ h => h) nofun)
      · rw [NetworkInterface.connAt, NetworkInterface.connAt, hh.map fd']
        split_ifs with he hm
        · rw [he, hfd, Option.map_some, Option.map_some]
          simp
        · rw [Option.map_map]
          exact congrArg (Option.map · _) (funext fun h' => by simp)
        · rfl
      · intro fd' hfd'
        rcases (hh.pending fd').1 hfd' with hm | ⟨he, _⟩ | ⟨hm, _⟩
        · exact Or.inl hm
        · exact Or.inr (by rw [he, NetworkInterface.connAt_of_map hfd]; rfl)
        · obtain ⟨h₁, hh₁, _⟩ := (hwf.worker.mem_wsClients fd').1 hm
          exact Or.inr (by rw [NetworkInterface.connAt_of_map hh₁]; rfl)
      · exact fun fd' hm => (hh.pending fd').2 (Or.inl hm)
  | @sent fd es h n hpc hfd _ _ =>
      exact Or.inl (stays_current rfl
        (fun _ => NetworkInterface.connAt_of_keeps hfd rfl rfl) rfl (hone rfl)
        (fun _ hm => Or.inl hm) (fun _ hm => hm) (by rw [hpc]) (by rw [hpc]; exact fun _ h => h)
        nofun)
  | @close fds w' hpc hnd hmem hc hempty =>
      exact Or.inr (Or.inr ⟨fds, hpc, rfl, hnd, hmem, hc, hempty⟩)

/-! ### Nothing stale -/

theorem dispatch_watches (w : NetworkInterface) (ev : EpollEvent) (es : List EpollEvent) :
    w.Watches (dispatch w ev es).worker := by
  unfold dispatch
  split_ifs
  · exact NetworkInterface.Watches.of_eq rfl
  · exact NetworkInterface.Watches.of_eq (by simp)
  · split
    · exact NetworkInterface.Watches.of_eq rfl
    · exact NetworkInterface.Watches.of_eq rfl
  · split
    · exact NetworkInterface.Watches.of_eq rfl
    · exact NetworkInterface.Watches.of_eq rfl
  · exact NetworkInterface.Watches.of_eq rfl

theorem afterUpgrade_worker (fd : Fd) (es : List EpollEvent) (out : NetworkInterface × Bool) :
    (afterUpgrade fd es out).worker = out.1 := by
  obtain ⟨w, b⟩ := out
  cases b with
  | true => rfl
  | false => rfl

/-- A step watches the same descriptors, unless it accepts or closes some. -/
theorem step_watches {i : Input} (hs : s.step i = some s') :
    s.worker.Watches s'.worker ∧ (s.pc = .batch [] → s'.pc = s.pc) ∨
      (∃ fd, s'.worker = s.worker.ctlEvent fd true) ∨
      s'.worker = s.worker.processCloseQueue := by
  have hsame {w : NetworkInterface} (h : w.interest = s.worker.interest) : s.worker.Watches w :=
    NetworkInterface.Watches.of_eq h
  have hbusy {pc : Pc} (hpc : s.pc = pc) (hne : pc ≠ .batch []) :
      s.pc = .batch [] → s'.pc = s.pc := fun h => absurd (hpc.symm.trans h) hne
  cases step_branch hs with
  | rehash order _ => exact Or.inl ⟨hsame rfl, fun _ => rfl⟩
  | epollWait es hpc => exact Or.inl ⟨hsame rfl, hbusy hpc nofun⟩
  | close hpc => exact Or.inr (Or.inr rfl)
  | dispatch ev es hpc => exact Or.inl ⟨dispatch_watches s.worker ev es, hbusy hpc nofun⟩
  | accept fd es hpc _ _ _ => exact Or.inr (Or.inl ⟨fd, rfl⟩)
  | acceptFail es hpc => exact Or.inl ⟨hsame rfl, hbusy hpc nofun⟩
  | received fd es h data hpc _ _ _ _ => exact Or.inl ⟨hsame rfl, hbusy hpc nofun⟩
  | readRefused fd es h data hpc _ _ _ _ => exact Or.inl ⟨hsame (by simp), hbusy hpc nofun⟩
  | readEof fd es h hpc _ => exact Or.inl ⟨hsame (by simp), hbusy hpc nofun⟩
  | readError fd es hpc => exact Or.inl ⟨hsame (by simp), hbusy hpc nofun⟩
  | readAgain fd es hpc =>
      refine Or.inl ⟨?_, hbusy hpc nofun⟩
      rw [afterUpgrade_worker]
      exact NetworkInterface.driveIoUpgrade_watches _ _
  | frames fd es hpc =>
      refine Or.inl ⟨?_, hbusy hpc nofun⟩
      rw [afterUpgrade_worker]
      exact NetworkInterface.driveIoFrame_watches _ _
  | flushed fd es hpc _ =>
      exact Or.inl ⟨NetworkInterface.updateHandlerEvents_watches _ _, hbusy hpc nofun⟩
  | sent fd es h n hpc _ _ _ => exact Or.inl ⟨hsame rfl, hbusy hpc nofun⟩
  | sendAgain fd es hpc _ =>
      exact Or.inl ⟨NetworkInterface.updateHandlerEvents_watches _ _, hbusy hpc nofun⟩
  | sendError fd es hpc _ =>
      have hqueue : s.worker.Watches (s.worker.queueClose fd) := hsame (by simp)
      exact Or.inl ⟨hqueue.trans (NetworkInterface.updateHandlerEvents_watches _ _),
        hbusy hpc nofun⟩

/-- Every descriptor in the batch, in the close queue and in the interest list is mapped. -/
structure Bound (s : Loop) : Prop where
  watched : s.worker.Watched
  rest : ∀ fd ∈ s.pc.rest.map EpollEvent.fd, (s.worker.connAt fd).isSome
  pending : ∀ fd ∈ s.worker.pendingCloses, (s.worker.connAt fd).isSome

/-- What `accept` does to the other descriptors. -/
theorem Accepts.connAt_of_ne (ha : Accepts s s' fd) {fd' : Fd} (hne : fd' ≠ fd) :
    s'.worker.connAt fd' = s.worker.connAt fd' := by
  rw [ha.worker, NetworkInterface.connAt, NetworkInterface.connAt]
  simp [NetworkInterface.ctlEvent, Function.update_of_ne hne]

theorem Accepts.connAt_self (ha : Accepts s s' fd) :
    s'.worker.connAt fd = some s.worker.nextConn := by
  rw [ha.worker, NetworkInterface.connAt]
  simp [NetworkInterface.ctlEvent, WebsocketHandler.new]

/-- A mapped descriptor is not the one `accept` returns. -/
theorem Accepts.ne (ha : Accepts s s' fd) {fd' : Fd} (h : (s.worker.connAt fd').isSome) :
    fd' ≠ fd := by
  rintro rfl
  rw [NetworkInterface.connAt_eq_none.2 ha.free] at h
  cases h

theorem Drained.connAt {fds : List Fd} (hd : Drained s s' fds) (fd : Fd) :
    s'.worker.connAt fd = if fd ∈ s.worker.pendingCloses then none else s.worker.connAt fd := by
  rw [NetworkInterface.connAt, hd.closes.map fd, NetworkInterface.connAt]
  simp only [hd.mem]
  split_ifs
  · rfl
  · rfl

/-- **Every step keeps the descriptors bound**, when `epoll_wait` reports watched ones only. -/
theorem step_bound {i : Input} (hwf : s.WellFormed once) (hb : s.Bound) (hi : EpollContract s i)
    (hs : s.step i = some s') : s'.Bound := by
  have hwatch := step_watches hs
  have hwatched (hmap : ∀ fd, (s.worker.connAt fd).isSome → (s'.worker.connAt fd).isSome)
      (h : s.worker.Watches s'.worker) : s'.worker.Watched := hb.watched.of_watches h hmap
  have hothers : (∃ fd, s'.worker = s.worker.ctlEvent fd true) ∨
      s'.worker = s.worker.processCloseQueue → s'.worker.Watched := by
    rintro (⟨fd, hw⟩ | hw)
    · rw [hw]
      exact hb.watched.ctlEvent_true
    · rw [hw]
      exact hb.watched.processCloseQueue
  rcases turn_descriptors hwf (step_turn hwf hs) with hst | ⟨fd, ha⟩ | ⟨fds, hd⟩
  · have hsame (fd : Fd) (h : (s.worker.connAt fd).isSome) : (s'.worker.connAt fd).isSome := by
      rw [hst.connAt]
      exact h
    refine ⟨?_, ?_, ?_⟩
    · rcases hwatch with ⟨hw, _⟩ | hw
      · exact hwatched hsame hw
      · exact hothers hw
    · intro fd hfd
      apply hsame
      rcases hst.rest with hpc | hsuf
      · -- a new batch
        rcases step_waiting hpc hs with ⟨es, rfl, rfl⟩ | ⟨order, rfl, hpc'⟩
        · obtain ⟨ev, hev, rfl⟩ := List.mem_map.1 hfd
          obtain ⟨mask, hmask, _⟩ := hi.2 ev hev
          exact hb.watched ev.fd (by rw [Option.mem_def.1 hmask]; rfl)
        · rw [hpc'] at hfd
          cases hfd
      · exact hb.rest fd ((hsuf.map EpollEvent.fd).subset hfd)
    · intro fd hfd
      apply hsame
      rcases hst.queued fd hfd with hm | hm | hm
      · exact hb.pending fd hm
      · exact hb.rest fd hm
      · exact hm
  · have hkeep (fd' : Fd) (h : (s.worker.connAt fd').isSome) : (s'.worker.connAt fd').isSome := by
      rw [ha.connAt_of_ne (ha.ne h)]
      exact h
    obtain ⟨es, hpc, hpc'⟩ := ha.pc
    refine ⟨?_, ?_, ?_⟩
    · rw [ha.worker]
      exact hb.watched.ctlEvent_true
    · intro fd' hfd'
      rw [hpc'] at hfd'
      exact hkeep fd' (hb.rest fd' (by rw [hpc]; exact hfd'))
    · intro fd' hfd'
      rw [ha.worker] at hfd'
      exact hkeep fd' (hb.pending fd' hfd')
  · refine ⟨?_, ?_, ?_⟩
    · rcases hwatch with ⟨_, hpc⟩ | hw
      · have hsame := hpc hd.pc
        rw [hd.pc', hd.pc] at hsame
        cases hsame
      · exact hothers hw
    · rw [hd.pc']
      exact nofun
    · rw [hd.empty]
      exact nofun

/-- **No descriptor in the batch, the queue or the interest list is stale.** -/
theorem bound {listenfd : Fd} (hr : Reachable EpollContract listenfd s) : s.Bound := by
  induction hr with
  | refl =>
      refine ⟨NetworkInterface.Watched.ctlEvent_true ?_, nofun, nofun⟩
      intro fd hfd
      cases hfd
  | tail i hreach hi hs ih =>
      exact step_bound (reachable_wellFormed promises_epollContract hreach) ih hi hs

end Loop

/-! ### The history of a descriptor -/

/-- What an operation makes of a descriptor: `accept` opens it for a connection, `close` closes
it. -/
def opens (fd : Fd) (before : Option ℕ) : Obs → Option ℕ
  | .accepted c fd' => if fd' = fd then some c else before
  | .closed _ fd' => if fd' = fd then none else before
  | _ => before

/-- The connection a descriptor is open for, by the history of `accept` and `close`. -/
def openConn (fd : Fd) (τ : List Obs) : Option ℕ := τ.foldl (opens fd) none

/-- How often a connection is closed. -/
def closings (c : ℕ) (τ : List Obs) : ℕ :=
  (about c τ).countP fun
    | .closed _ _ => true
    | _ => false

section History

variable {once : Prop} {fd : Fd} {c : ℕ} {τ δ : List Obs}

theorem opens_of_ne {o : Obs} (ho : o.descriptor ≠ some fd) (before : Option ℕ) :
    opens fd before o = before := by
  cases o with
  | accepted c fd' => exact if_neg fun he => ho (congrArg some he)
  | closed c fd' => exact if_neg fun he => ho (congrArg some he)
  | _ => rfl

theorem openConn_append_of_ne (hδ : ∀ o ∈ δ, o.descriptor ≠ some fd) :
    openConn fd (τ ++ δ) = openConn fd τ := by
  rw [openConn, List.foldl_append, openConn]
  generalize List.foldl (opens fd) none τ = before
  induction δ with
  | nil => rfl
  | cons o δ ih =>
      rw [List.foldl_cons, opens_of_ne (hδ o List.mem_cons_self)]
      exact ih fun o' ho' => hδ o' (List.mem_cons_of_mem _ ho')

theorem openConn_accepted : openConn fd (τ ++ [.accepted c fd]) = some c := by
  simp [openConn, opens]

theorem openConn_closed : openConn fd (τ ++ [.closed c fd]) = none := by
  simp [openConn, opens]

/-- Draining the queue closes the mapped descriptors in it. -/
theorem openConn_closeObs (w : NetworkInterface) (fds : List Fd) :
    openConn fd (τ ++ w.closeObs fds) =
      if fd ∈ fds ∧ (w.connAt fd).isSome then none else openConn fd τ := by
  induction fds generalizing τ with
  | nil => simp [NetworkInterface.closeObs]
  | cons cfd fds ih =>
      have hcons : w.closeObs (cfd :: fds) = w.closeObs [cfd] ++ w.closeObs fds := by
        simp only [NetworkInterface.closeObs, ← List.filterMap_append, List.singleton_append]
      rw [hcons, ← List.append_assoc, ih]
      cases hc : w.websocketHandlerMap cfd with
      | none =>
          have hnil : w.closeObs [cfd] = [] := by simp [NetworkInterface.closeObs, hc]
          rw [hnil, List.append_nil]
          by_cases he : fd = cfd
          · subst he
            simp [NetworkInterface.connAt, hc]
          · simp [he]
      | some h =>
          have hone : w.closeObs [cfd] = [.closed h.conn cfd] := by
            simp [NetworkInterface.closeObs, hc]
          rw [hone]
          by_cases he : fd = cfd
          · subst he
            rw [openConn_closed]
            simp [NetworkInterface.connAt, hc]
          · rw [openConn_append_of_ne]
            · simp [he]
            · intro o ho
              obtain rfl := List.mem_singleton.1 ho
              exact fun hd => he (Option.some.inj hd).symm

theorem closings_append (δ : List Obs) : closings c (τ ++ δ) = closings c τ + closings c δ := by
  rw [closings, about_append, List.countP_append, closings, closings]

theorem closings_of_about (hδ : about c δ = []) : closings c δ = 0 := by
  rw [closings, hδ, List.countP_nil]

/-- A live connection is not closed by what happens to it. -/
theorem ConnStep.closings {v v' : View} {g : List Frame} {a : List Obs}
    (h : ConnStep once v g a v') (hδ : about v.handler.conn δ = a) :
    WebSocketDemo.closings v.handler.conn δ = 0 := by
  rw [WebSocketDemo.closings, hδ]
  cases h with
  | handle f rest request _ _ _ => cases hr : reply f <;> simp [offerObs]
  | relay f _ _ _ => cases hr : WebSocketDemo.relay f <;> simp [offerObs]
  | _ => rfl

end History

namespace Loop

variable {once : Prop} {s s' t u : Loop} {fd listenfd : Fd} {es : List EpollEvent} {c : ℕ}

/-- **The handler map is the table of open descriptors.** -/
theorem connAt_eq_openConn {ok : Loop → Input → Prop} (hok : Promises ok once)
    (hr : Reachable ok listenfd s) (fd : Fd) :
    s.worker.connAt fd = openConn fd s.worker.trace := by
  induction hr generalizing fd with
  | refl =>
      by_cases he : listenfd = fd
      · subst he
        simp [NetworkInterface.connAt, init, NetworkInterface.init, NetworkInterface.ctlEvent,
          openConn, opens, WebsocketHandler.new]
      · simp [NetworkInterface.connAt, init, NetworkInterface.init, NetworkInterface.ctlEvent,
          openConn, opens, he, Function.update_of_ne (Ne.symm he)]
  | @tail t u i hreach _ hs ih =>
      have hwf := reachable_wellFormed hok hreach
      rcases turn_descriptors hwf (step_turn hwf hs) with hst | ⟨fd', ha⟩ | ⟨fds, hd⟩
      · obtain ⟨δ, htrace, hδ⟩ := hst.trace
        rw [hst.connAt, ih, htrace, openConn_append_of_ne]
        intro o ho he
        rw [hδ o ho] at he
        cases he
      · have htrace : _ = _ ++ [Obs.accepted _ fd'] := congrArg NetworkInterface.trace ha.worker
        rw [htrace]
        by_cases he : fd = fd'
        · subst he
          rw [ha.connAt_self, openConn_accepted]
        · rw [ha.connAt_of_ne he, ih, openConn_append_of_ne]
          intro o ho
          obtain rfl := List.mem_singleton.1 ho
          exact fun hd => he (Option.some.inj hd).symm
      · rw [hd.connAt, hd.closes.trace, openConn_closeObs, ← ih]
        simp only [hd.mem]
        by_cases hm : fd ∈ t.worker.pendingCloses
        · cases hc : t.worker.connAt fd with
          | none => simp
          | some c => simp [hm]
        · simp [hm]

/-- **The listener stays mapped and is never closed.** -/
theorem listener {ok : Loop → Input → Prop} (hok : Promises ok once)
    (hr : Reachable ok listenfd s) : s.worker.listenfd = listenfd ∧
      s.worker.connAt listenfd = some 0 ∧ ∀ c, .closed c listenfd ∉ s.worker.trace := by
  induction hr with
  | refl =>
      refine ⟨rfl, ?_, by simp [init, NetworkInterface.init, NetworkInterface.ctlEvent]⟩
      simp [NetworkInterface.connAt, init, NetworkInterface.init, NetworkInterface.ctlEvent,
        WebsocketHandler.new]
  | @tail t u i hreach _ hs ih =>
      have hwf := reachable_wellFormed hok hreach
      obtain ⟨hlisten, hconn, hclosed⟩ := ih
      rcases turn_descriptors hwf (step_turn hwf hs) with hst | ⟨fd', ha⟩ | ⟨fds, hd⟩
      · obtain ⟨δ, htrace, hδ⟩ := hst.trace
        refine ⟨hst.listenfd.trans hlisten, by rw [hst.connAt, hconn], fun c hm => ?_⟩
        rw [htrace] at hm
        rcases List.mem_append.1 hm with hold | hnew
        · exact hclosed c hold
        · cases hδ _ hnew
      · refine ⟨by rw [ha.worker]; exact hlisten, ?_, fun c hm => ?_⟩
        · rw [ha.connAt_of_ne (ha.ne (by rw [hconn]; rfl)), hconn]
        · rw [ha.worker] at hm
          have hm' : Obs.closed c listenfd ∈ t.worker.trace ++ [.accepted t.worker.nextConn fd'] :=
            hm
          rcases List.mem_append.1 hm' with hold | hnew
          · exact hclosed c hold
          · cases List.mem_singleton.1 hnew
      · have hnot : listenfd ∉ t.worker.pendingCloses := by
          rw [← hlisten]
          exact hwf.worker.listener_pending
        refine ⟨hd.closes.listenfd.trans hlisten, by rw [hd.connAt, if_neg hnot, hconn],
          fun c hm => ?_⟩
        rw [hd.closes.trace] at hm
        rcases List.mem_append.1 hm with hold | hnew
        · exact hclosed c hold
        · obtain ⟨fd, hfd, ho⟩ := List.mem_filterMap.1 hnew
          obtain ⟨h, _, he⟩ := Option.map_eq_some_iff.1 ho
          cases he
          exact hnot ((hd.mem listenfd).1 hfd)

/-- **Each connection is closed once, when it leaves the handler map.** -/
theorem closings_eq {ok : Loop → Input → Prop} (hok : Promises ok once)
    (hr : Reachable ok listenfd s) (hc : c < s.worker.nextConn) :
    (∃ fd, s.worker.connAt fd = some c) ∧ closings c s.worker.trace = 0 ∨
      (∀ fd, s.worker.connAt fd ≠ some c) ∧ closings c s.worker.trace = 1 := by
  have hnew (τ : List Obs) (c : ℕ) (fd : Fd) (hτ : ∀ o ∈ τ, o.conn ≠ c) :
      closings c (τ ++ [.accepted c fd]) = 0 := by
    rw [closings, about_append, about_of_ne c hτ]
    simp [about_cons, Obs.conn]
  have hstep (τ δ : List Obs) (v : View) (g : List Frame) (a : List Obs) (v' : View)
      (ha : about v.handler.conn δ = a) (h : ConnStep once v g a v')
      (h0 : closings v.handler.conn τ = 0) : closings v'.handler.conn (τ ++ δ) = 0 := by
    rw [h.conn, closings_append, h0, h.closings ha]
  by_cases hlive : ∃ fd h, s.worker.websocketHandlerMap fd = some h ∧ h.conn = c
  · obtain ⟨fd, h, hfd, rfl⟩ := hlive
    refine Or.inl ⟨⟨fd, NetworkInterface.connAt_of_map hfd⟩, ?_⟩
    exact conn_induction (P := fun τ v => closings v.handler.conn τ = 0) hok
      (fun τ c fd _ _ hτ => hnew τ c fd hτ)
      (fun τ δ v g a v' _ ha h h0 => hstep τ δ v g a v' ha h h0) hr fd h hfd
  · refine Or.inr ⟨fun fd he => hlive ?_, ?_⟩
    · obtain ⟨h, hfd, hconn⟩ := NetworkInterface.connAt_eq_some he
      exact ⟨fd, h, hfd, hconn⟩
    · refine (conn_history (P := fun τ v => closings v.handler.conn τ = 0)
        (Q := fun c τ => closings c τ = 1) hok (fun τ c fd _ _ hτ => hnew τ c fd hτ)
        (fun τ δ v g a v' _ ha h h0 => hstep τ δ v g a v' ha h h0) ?_ ?_ hr c hc).resolve_left hlive
      · intro τ δ v fd h0 _ _ _ _ hδ
        rw [closings_append, h0, closings, hδ]
        rfl
      · intro c τ δ hδ h1
        rw [closings_append, h1, closings_of_about hδ]

/-! ### Requests and events keep their connection -/

/-- The queue was drained at some point of a run, and the connection `c` on `fd` closed. -/
def DrainedBetween (c : ℕ) (fd : Fd) (s t : Loop) : Prop :=
  ∃ u, Transition.Reaches step EpollContract s u ∧ Transition.Reaches step EpollContract u t ∧
    u.pc = .waiting ∧ u.worker.pendingCloses = [] ∧ .closed c fd ∈ u.worker.trace

/-- **A request to close a connection does not outlive it.** -/
theorem queued_run (hwf : s.WellFormed True) (hc : s.worker.connAt fd = some c)
    (hq : fd ∈ s.worker.pendingCloses) (hrun : Transition.Reaches step EpollContract s t) :
    t.worker.connAt fd = some c ∧ fd ∈ t.worker.pendingCloses ∨ DrainedBetween c fd s t := by
  induction hrun with
  | refl => exact Or.inl ⟨hc, hq⟩
  | @tail t u i hreach hi hs ih =>
      have hwf := reaches_wellFormed promises_epollContract hwf hreach
      rcases ih with ⟨hct, hqt⟩ | ⟨v, hsv, hvt, hv⟩
      · rcases turn_descriptors hwf (step_turn hwf hs) with hst | ⟨fd', ha⟩ | ⟨fds, hd⟩
        · exact Or.inl ⟨by rw [hst.connAt, hct], hst.kept fd hqt⟩
        · have hne := ha.ne (by rw [hct]; rfl)
          refine Or.inl ⟨by rw [ha.connAt_of_ne hne, hct], ?_⟩
          rw [ha.worker]
          exact hqt
        · right
          obtain ⟨h, hfd, rfl⟩ := NetworkInterface.connAt_eq_some hct
          have hstep : Transition.Reaches step EpollContract s u := hreach.tail i hi hs
          refine ⟨u, hstep, Transition.Reaches.refl, hd.pc', hd.empty, ?_⟩
          rw [hd.closes.trace]
          refine List.mem_append_right _ (List.mem_filterMap.2 ⟨fd, (hd.mem fd).2 hqt, ?_⟩)
          rw [hfd, Option.map_some]
      · exact Or.inr ⟨v, hsv, hvt.tail i hi hs, hv⟩

/-- The environment keeps the contract, and the loop does not wait again. -/
def WithinBatch (s : Loop) (i : Input) : Prop := EpollContract s i ∧ ∀ es, i ≠ .epollWait es

/-- What the loop holds of a batch reported in `s`: the events are of that batch, and their
descriptors are on the connections they were on. -/
structure FromBatch (s : Loop) (es : List EpollEvent) (t : Loop) : Prop where
  rest : ∀ ev ∈ t.pc.rest, ev ∈ es
  current : ∀ fd ∈ t.pc.current, fd ∈ es.map EpollEvent.fd
  connAt : t.pc ≠ .waiting → ∀ fd ∈ es.map EpollEvent.fd,
    t.worker.connAt fd = s.worker.connAt fd

/-- **An event keeps its connection until it is dispatched.** -/
theorem fromBatch_run (hwf : t.WellFormed True) (ht : FromBatch s es t)
    (hmapped : ∀ fd ∈ es.map EpollEvent.fd, (s.worker.connAt fd).isSome)
    (hrun : Transition.Reaches step WithinBatch t u) : FromBatch s es u := by
  induction hrun with
  | refl => exact ht
  | @tail u v i hreach hi hs ih =>
      have hwf := reaches_wellFormed promises_epollContract hwf (hreach.mono fun _ _ h => h.1)
      by_cases hwait : u.pc = .waiting
      · -- the loop goes on waiting
        have hpc : v.pc = .waiting := by
          rcases step_waiting hwait hs with ⟨es, rfl, _⟩ | ⟨_, _, hpc⟩
          · exact absurd rfl (hi.2 es)
          · exact hpc
        exact ⟨by rw [hpc]; nofun, by rw [hpc]; nofun, fun h => absurd hpc h⟩
      · rcases turn_descriptors hwf (step_turn hwf hs) with hst | ⟨fd, ha⟩ | ⟨fds, hd⟩
        · refine ⟨?_, ?_, ?_⟩
          · rcases hst.rest with h | hsuf
            · exact absurd h hwait
            · exact fun ev hev => ih.rest ev (hsuf.subset hev)
          · intro fd hfd
            rcases hst.current fd hfd with hc | hm
            · exact ih.current fd hc
            · obtain ⟨ev, hev, rfl⟩ := List.mem_map.1 hm
              exact List.mem_map_of_mem (ih.rest ev hev)
          · intro _ fd hfd
            rw [hst.connAt, ih.connAt hwait fd hfd]
        · obtain ⟨es', hpc, hpc'⟩ := ha.pc
          refine ⟨?_, by rw [hpc']; nofun, ?_⟩
          · rw [hpc']
            intro ev hev
            exact ih.rest ev (by rw [hpc]; exact hev)
          · intro _ fd' hfd'
            have hsame := ih.connAt hwait fd' hfd'
            rw [ha.connAt_of_ne (ha.ne (by rw [hsame]; exact hmapped fd' hfd')), hsame]
        · have hpc := hd.pc'
          exact ⟨by rw [hpc]; nofun, by rw [hpc]; nofun, fun h => absurd hpc h⟩

/-! ### Safety under reuse -/

/-- The life of descriptors and connections in a state of a run. -/
structure SafeDescriptors (s : Loop) : Prop where
  /-- Nothing is queued for closing when the loop waits. -/
  waiting : s.pc = .waiting → s.worker.pendingCloses = []
  /-- A descriptor is mapped to the connection it is open for. -/
  openConn : ∀ fd, s.worker.connAt fd = openConn fd s.worker.trace
  /-- A connection has been closed once if it has left the map, and else not. -/
  closings : ∀ c < s.worker.nextConn,
    (∃ fd, s.worker.connAt fd = some c) ∧ closings c s.worker.trace = 0 ∨
      (∀ fd, s.worker.connAt fd ≠ some c) ∧ closings c s.worker.trace = 1
  /-- A request to close is for the connection on the descriptor; it is gone from the queue when
  that connection has left the descriptor. -/
  queued : ∀ fd ∈ s.worker.pendingCloses, ∃ c, s.worker.connAt fd = some c ∧
    fd ≠ s.worker.listenfd ∧ ∀ t, Transition.Reaches step EpollContract s t →
      t.worker.connAt fd = some c ∧ fd ∈ t.worker.pendingCloses ∨ DrainedBetween c fd s t
  /-- `accept` may return every descriptor that is not open. -/
  acceptable : ∀ es fd, s.pc = .accepting es →
    ((s.step (.accept fd)).isSome ↔ 0 ≤ fd ∧ WebSocketDemo.openConn fd s.worker.trace = none)
  /-- What it returns is free: there is no handler, no request and no event for it. -/
  accepted : ∀ fd t, s.step (.accept fd) = some t → s.worker.websocketHandlerMap fd = none ∧
    fd ∉ s.worker.pendingCloses ∧ fd ∉ s.pc.rest.map EpollEvent.fd
  /-- Until the loop waits again, an event that is still to be dispatched or being handled was
  reported in the batch, for the connection its descriptor is on. -/
  dispatched : ∀ es t u, s.pc = .waiting → EpollContract s (.epollWait es) →
    s.step (.epollWait es) = some t → Transition.Reaches step WithinBatch t u →
      (∀ ev ∈ u.pc.rest, ev ∈ es) ∧
        ∀ fd, fd ∈ u.pc.rest.map EpollEvent.fd ∨ fd ∈ u.pc.current →
          fd ∈ es.map EpollEvent.fd ∧
            ∃ c, s.worker.connAt fd = some c ∧ u.worker.connAt fd = some c

/-- **The life of a descriptor is safe under reuse.** -/
theorem safe_descriptors (hr : Reachable EpollContract listenfd s) : s.SafeDescriptors := by
  have hwf := reachable_wellFormed promises_epollContract hr
  have hb := bound hr
  have hopen := connAt_eq_openConn promises_epollContract hr
  refine ⟨hwf.waiting, hopen, fun c hc => closings_eq promises_epollContract hr hc, ?_, ?_, ?_, ?_⟩
  · intro fd hfd
    obtain ⟨c, hc⟩ := Option.isSome_iff_exists.1 (hb.pending fd hfd)
    refine ⟨c, hc, ?_, fun t hrun => queued_run hwf hc hfd hrun⟩
    rintro rfl
    exact hwf.worker.listener_pending hfd
  · intro es fd hpc
    rw [← hopen fd, NetworkInterface.connAt_eq_none]
    obtain ⟨h, hlisten, _⟩ := hwf.worker.listener
    simp only [step, hpc, acceptStep]
    split_ifs with hfree
    · simp [hfree.1, Option.isNone_iff_eq_none.1 hfree.2.2]
    · simp only [Option.isSome_none, Bool.false_eq_true, false_iff]
      rintro ⟨h0, hnone⟩
      refine hfree ⟨h0, ?_, by rw [hnone]; rfl⟩
      rintro rfl
      rw [hlisten] at hnone
      cases hnone
  · intro fd t hs
    have hfree : s.worker.connAt fd = none := by
      cases step_branch hs with
      | accept _ es _ _ _ hfd => exact NetworkInterface.connAt_eq_none.2 hfd
    refine ⟨NetworkInterface.connAt_eq_none.1 hfree, fun hm => ?_, fun hm => ?_⟩
    · have hbad := hb.pending fd hm
      rw [hfree] at hbad
      cases hbad
    · have hbad := hb.rest fd hm
      rw [hfree] at hbad
      cases hbad
  · intro es t u hpc hi hs hrun
    have hwft := step_wellFormed promises_epollContract hwf hi hs
    have hbt := step_bound hwf hb hi hs
    simp only [step, hpc] at hs
    obtain rfl := Option.some.inj hs
    have hmapped : ∀ fd ∈ es.map EpollEvent.fd, (s.worker.connAt fd).isSome := hbt.rest
    have hfrom := fromBatch_run hwft ⟨fun _ h => h, fun _ hm => (by cases hm),
      fun _ _ _ => rfl⟩ hmapped hrun
    refine ⟨hfrom.rest, fun fd hfd => ?_⟩
    have hmem : fd ∈ es.map EpollEvent.fd := by
      rcases hfd with hm | hc
      · obtain ⟨ev, hev, rfl⟩ := List.mem_map.1 hm
        exact List.mem_map_of_mem (hfrom.rest ev hev)
      · exact hfrom.current fd hc
    have hbusy : u.pc ≠ .waiting := by
      intro hw
      rw [hw] at hfd
      rcases hfd with hm | hc
      · cases hm
      · cases hc
    obtain ⟨c, hc⟩ := Option.isSome_iff_exists.1 (hmapped fd hmem)
    exact ⟨hmem, c, hc, by rw [hfrom.connAt hbusy fd hmem, hc]⟩

/-- A client hangs up, and the next one gets its descriptor. -/
theorem safe_descriptors_reused : ∃ s, Reachable EpollContract 3 s ∧ s.worker.connAt 5 = some 2 ∧
    closings 1 s.worker.trace = 1 ∧ s.SafeDescriptors := by
  have hrun : ((init 3).exec [.epollWait [⟨3, epollIn⟩], .tau, .accept 5, .acceptFail, .tau,
      .epollWait [⟨5, epollIn⟩], .tau, .readEof, .tau,
      .epollWait [⟨3, epollIn⟩], .tau, .accept 5, .acceptFail, .tau]).map (fun s =>
        (s.worker.connAt 5, closings 1 s.worker.trace)) = some (some 2, 1) := by
    decide
  obtain ⟨s, hr, hs⟩ := reachable_of_exec _ hrun
  exact ⟨s, hr, congrArg Prod.fst hs, congrArg Prod.snd hs, safe_descriptors hr⟩

end Loop

end WebSocketDemo
