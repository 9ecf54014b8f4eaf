/-
**The interest list follows the write buffers.**

`epoll_wait` reports that a descriptor is writable only when the worker has asked for it.  Every
operation that fills or empties `write_buf_` brings the interest of its descriptor up to date, a
broadcast in a second pass over the buffers that were empty before.

Main definitions:

* `WebsocketHandler.eventMask` — the events a handler waits for;
* `NetworkInterface.Coherent` — the interest list is up to date, but for some descriptors.

Main results:

* `NetworkInterface.Coherent.broadcastWsBinary` — **a broadcast leaves nothing behind**;
* `Loop.coherent` — **the interest list is up to date in every reachable state**, but for the
  descriptor that is being flushed.
-/

import WebSocketDemo.Connection

set_option relaxedAutoImplicit false
set_option autoImplicit false

namespace WebSocketDemo

/-- What `update_handler_events` asks for. -/
def WebsocketHandler.eventMask (h : WebsocketHandler) : UInt32 :=
  if h.writePending then epollIn ||| epollOut else epollIn

namespace NetworkInterface

/-- Each connection is in the interest list, with the events its handler waits for unless it is one
of `X`. -/
def Coherent (X : Fd → Prop) (w : NetworkInterface) : Prop :=
  ∀ fd h, w.websocketHandlerMap fd = some h → fd ≠ w.listenfd →
    ∃ mask, w.interest fd = some mask ∧ (¬ X fd → mask = h.eventMask)

variable {w w' : NetworkInterface} {X Y : Fd → Prop} {fd : Fd} {h h' : WebsocketHandler}

@[simp] theorem emit_interest (o : Obs) : (w.emit o).interest = w.interest := rfl

@[simp] theorem setHandler_interest : (w.setHandler fd h).interest = w.interest := rfl

@[simp] theorem queueClose_interest : (w.queueClose fd).interest = w.interest := by
  obtain ⟨_, h⟩ := queueClose_eq w fd
  rw [h]

namespace Coherent

theorem mono (hc : Coherent X w) (hXY : ∀ fd, X fd → Y fd) : Coherent Y w := by
  intro fd h hfd hne
  obtain ⟨mask, hmask, hm⟩ := hc fd h hfd hne
  exact ⟨mask, hmask, fun hY => hm fun hX => hY (hXY fd hX)⟩

/-- Operations that touch neither the handlers nor the interest list. -/
theorem of_eq (hc : Coherent X w) (hmap : w'.websocketHandlerMap = w.websocketHandlerMap)
    (hint : w'.interest = w.interest) (hlisten : w'.listenfd = w.listenfd) : Coherent X w' := by
  intro fd h hfd hne
  rw [hmap] at hfd
  rw [hlisten] at hne
  rw [hint]
  exact hc fd h hfd hne

/-- Assigning a handler, whose descriptor may have to be brought up to date afterwards. -/
theorem setHandler (hc : Coherent X w) (hfd : w.websocketHandlerMap fd = some h)
    (hY : ∀ fd', X fd' → Y fd') (hpending : ¬ Y fd → h'.writePending = h.writePending) :
    Coherent Y (w.setHandler fd h') := by
  intro fd' g hg hne
  rw [setHandler_map] at hg
  by_cases he : fd' = fd
  · subst he
    rw [Function.update_self, Option.some.injEq] at hg
    subst hg
    obtain ⟨mask, hmask, hm⟩ := hc fd' h hfd hne
    refine ⟨mask, hmask, fun hnY => ?_⟩
    rw [hm fun hX => hnY (hY fd' hX), WebsocketHandler.eventMask, WebsocketHandler.eventMask,
      hpending hnY]
  · rw [Function.update_of_ne he] at hg
    obtain ⟨mask, hmask, hm⟩ := hc fd' g hg hne
    exact ⟨mask, hmask, fun hnY => hm fun hX => hnY (hY fd' hX)⟩

/-- `update_handler_events` brings a descriptor up to date. -/
theorem updateHandlerEvents (hc : Coherent X w) :
    Coherent (fun fd' => X fd' ∧ fd' ≠ fd) (w.updateHandlerEvents fd) := by
  intro fd' g hg hne
  rw [updateHandlerEvents_map] at hg
  rw [updateHandlerEvents_listenfd] at hne
  obtain ⟨mask, hmask, hm⟩ := hc fd' g hg hne
  have hother (he : fd' ≠ fd) (hint : (w.updateHandlerEvents fd).interest fd' = w.interest fd') :
      ∃ mask, (w.updateHandlerEvents fd).interest fd' = some mask ∧
        (¬ (X fd' ∧ fd' ≠ fd) → mask = g.eventMask) :=
    ⟨mask, by rw [hint, hmask], fun hX => hm fun hX' => hX ⟨hX', he⟩⟩
  unfold NetworkInterface.updateHandlerEvents at hother ⊢
  split_ifs at hother ⊢ with hlisten
  · exact hother (fun he => hne (he.trans hlisten)) rfl
  · cases hfd : w.websocketHandlerMap fd with
    | none =>
        rw [hfd] at hother
        refine hother ?_ rfl
        rintro rfl
        rw [hfd] at hg
        cases hg
    | some h =>
        by_cases he : fd' = fd
        · subst he
          rw [hfd, Option.some.injEq] at hg
          subst hg
          exact ⟨h.eventMask, by simp [modEvents, hmask, WebsocketHandler.eventMask], fun _ => rfl⟩
        · rw [hfd] at hother
          exact hother he (by simp [modEvents, Function.update_of_ne he])

theorem foldl_updateHandlerEvents (fds : List Fd) (hc : Coherent X w) :
    Coherent (fun fd => X fd ∧ fd ∉ fds) (fds.foldl NetworkInterface.updateHandlerEvents w) := by
  induction fds generalizing w X with
  | nil => exact hc.mono fun fd hX => ⟨hX, by simp⟩
  | cons fd fds ih =>
      rw [List.foldl_cons]
      refine (ih hc.updateHandlerEvents).mono ?_
      rintro fd' ⟨⟨hX, hne⟩, hnot⟩
      exact ⟨hX, by simp [hne, hnot]⟩

/-! ### Output -/

/-- `append_outgoing` with the update. -/
theorem queueSend (hc : Coherent X w)
    (hown : ∀ fd h, w.websocketHandlerMap fd = some h → h.fd = fd) (data : Bytes) :
    Coherent X (w.queueSend fd data) := by
  unfold NetworkInterface.queueSend appendOutgoing
  cases hfd : w.websocketHandlerMap fd with
  | none => exact hc
  | some h =>
      obtain rfl := hown fd h hfd
      dsimp only
      split_ifs with h0 hcap htrue
      · exact hc
      · exact hc.of_eq (by simp) (by simp) (by simp)
      · have hset : Coherent (fun fd' => X fd' ∨ fd' = h.fd)
            (w.setHandler h.fd { h with writeBuf := h.writeBuf ++ data }) :=
          hc.setHandler hfd (fun _ hX => Or.inl hX) (fun hn => absurd (Or.inr rfl) hn)
        have hemit : Coherent (fun fd' => X fd' ∨ fd' = h.fd)
            ((w.setHandler h.fd { h with writeBuf := h.writeBuf ++ data }).emit
              (.offered h.conn data true true)) := hset.of_eq rfl rfl rfl
        refine hemit.updateHandlerEvents.mono ?_
        rintro fd' ⟨hX | he, hne⟩
        · exact hX
        · exact absurd he hne
      · exact absurd rfl htrue

/-- `append_outgoing` without the update: the descriptor has to be refreshed when its buffer was
empty and is not any more. -/
theorem appendOutgoing_false (hc : Coherent X w) (hfd : w.websocketHandlerMap fd = some h)
    (data : Bytes) :
    Coherent (fun fd' => X fd' ∨ fd' = fd ∧ h.writePending = false ∧
      (w.appendOutgoing fd data false).writePendingAt fd = true)
        (w.appendOutgoing fd data false) := by
  have hsame (hw : w.appendOutgoing fd data false = w ∨ (w.appendOutgoing fd data false) =
      (w.emit (.offered h.conn data false false)).queueClose h.fd) :
      Coherent (fun fd' => X fd' ∨ fd' = fd ∧ h.writePending = false ∧
        (w.appendOutgoing fd data false).writePendingAt fd = true)
        (w.appendOutgoing fd data false) := by
    refine mono ?_ fun _ hX => Or.inl hX
    rcases hw with hw | hw
    · rw [hw]
      exact hc
    · rw [hw]
      exact hc.of_eq (by simp) (by simp) (by simp)
  by_cases h0 : data.length = 0
  · exact hsame (Or.inl (by simp [appendOutgoing, hfd, h0]))
  · by_cases hcap : h.writeBuf.length + data.length > wsMaxWriteBuffer
    · exact hsame (Or.inr (by simp [appendOutgoing, hfd, h0, hcap]))
    · have hw : w.appendOutgoing fd data false =
          (w.setHandler fd { h with writeBuf := h.writeBuf ++ data }).emit
            (.offered h.conn data false true) := by
        simp [appendOutgoing, hfd, h0, hcap]
      have hdata : data ≠ [] := fun hnil => h0 (by rw [hnil]; rfl)
      have hafter : (w.appendOutgoing fd data false).writePendingAt fd = true := by
        simp [hw, writePendingAt, WebsocketHandler.writePending, hdata]
      rw [hafter, hw]
      refine of_eq (hc.setHandler hfd (fun _ hX => Or.inl hX) fun hn => ?_) rfl rfl rfl
      have hpend : h.writePending = true := by
        cases hp : h.writePending with
        | true => rfl
        | false => exact absurd (Or.inr ⟨rfl, hp, rfl⟩) hn
      rw [hpend]
      simp [WebsocketHandler.writePending, hdata]

/-- The appends of a broadcast: what is not up to date is collected. -/
theorem broadcastAppend (exceptFd : Fd) (data : Bytes) (fds : List Fd) {toRefresh : List Fd}
    (hc : Coherent (· ∈ toRefresh) w) :
    Coherent (· ∈ (NetworkInterface.broadcastAppend exceptFd data fds (w, toRefresh)).2)
      (NetworkInterface.broadcastAppend exceptFd data fds (w, toRefresh)).1 := by
  induction fds generalizing w toRefresh with
  | nil => exact hc
  | cons cfd rest ih =>
      rw [NetworkInterface.broadcastAppend]
      split_ifs with hex
      · exact ih hc
      · cases hfd : w.websocketHandlerMap cfd with
        | none => exact ih hc
        | some h =>
            dsimp only
            refine ih ((hc.appendOutgoing_false hfd data).mono ?_)
            intro fd hX
            split_ifs with hb
            · rcases hX with hX | ⟨rfl, _, _⟩
              · exact List.mem_append_left _ hX
              · exact List.mem_append_right _ (List.mem_singleton_self _)
            · rcases hX with hX | ⟨rfl, hempty, hpend⟩
              · exact hX
              · exact absurd (by simp [hempty, hpend]) hb

/-- **A broadcast leaves nothing behind.** -/
theorem broadcastWsBinary (exceptFd : Fd) (data : Bytes) (hc : Coherent (fun _ => False) w) :
    Coherent (fun _ => False) (w.broadcastWsBinary exceptFd data) := by
  unfold NetworkInterface.broadcastWsBinary
  split_ifs
  · exact hc
  · have happend : Coherent (· ∈ (NetworkInterface.broadcastAppend exceptFd data w.wsClients
        (w, [])).2) (NetworkInterface.broadcastAppend exceptFd data w.wsClients (w, [])).1 :=
      broadcastAppend exceptFd data w.wsClients (hc.mono fun _ hF => hF.elim)
    refine (happend.foldl_updateHandlerEvents _).mono ?_
    rintro fd ⟨hin, hout⟩
    exact hout hin

/-! ### Input -/

/-- A handler that keeps its write buffer. -/
theorem setHandler_same (hc : Coherent X w) (hfd : w.websocketHandlerMap fd = some h)
    (hwrite : h'.writeBuf = h.writeBuf) : Coherent X (w.setHandler fd h') :=
  hc.setHandler hfd (fun _ hX => hX) fun _ => by
    rw [WebsocketHandler.writePending, WebsocketHandler.writePending, hwrite]

theorem handleOneFrame (hc : Coherent (fun _ => False) w)
    (hown : ∀ fd h, w.websocketHandlerMap fd = some h → h.fd = fd) :
    Coherent (fun _ => False) (w.handleOneFrame fd) := by
  unfold NetworkInterface.handleOneFrame
  cases hfd : w.websocketHandlerMap fd with
  | none => exact hc
  | some h =>
      dsimp only
      split_ifs
      · split
        · exact hc
        · exact (hc.queueSend hown _).broadcastWsBinary _ _
      · exact hc.of_eq (by simp) (by simp) (by simp)
      · split
        · exact hc
        · exact hc.queueSend hown _
      · exact hc

theorem resetRequest (hc : Coherent X w) : Coherent X (w.resetRequest fd) := by
  unfold NetworkInterface.resetRequest
  cases hfd : w.websocketHandlerMap fd with
  | none => exact hc
  | some h => exact hc.setHandler_same hfd rfl

theorem own_setHandler (hown : ∀ fd h, w.websocketHandlerMap fd = some h → h.fd = fd)
    (hfd : h'.fd = fd) :
    ∀ fd' g, (w.setHandler fd h').websocketHandlerMap fd' = some g → g.fd = fd' := by
  intro fd' g hg
  rw [setHandler_map] at hg
  by_cases he : fd' = fd
  · subst he
    rw [Function.update_self, Option.some.injEq] at hg
    rw [← hg, hfd]
  · rw [Function.update_of_ne he] at hg
    exact hown fd' g hg

theorem driveIoFrame (hc : Coherent (fun _ => False) w)
    (hown : ∀ fd h, w.websocketHandlerMap fd = some h → h.fd = fd) :
    Coherent (fun _ => False) (w.driveIoFrame fd).1 := by
  unfold NetworkInterface.driveIoFrame
  cases hfd : w.websocketHandlerMap fd with
  | none => exact hc
  | some h =>
      dsimp only
      split_ifs
      · exact hc
      · split
        · exact hc.setHandler_same hfd rfl
        · rename_i request readBuf _
          have hset : Coherent (fun _ => False)
              (w.setHandler fd { h with request := request, readBuf := readBuf }) :=
            hc.setHandler_same hfd rfl
          exact hset.of_eq (by simp) (by simp) (by simp)
        · rename_i request readBuf _
          have hset : Coherent (fun _ => False)
              (w.setHandler fd { h with request := request, readBuf := readBuf }) :=
            hc.setHandler_same hfd rfl
          have hemit : Coherent (fun _ => False)
              ((w.setHandler fd { h with request := request, readBuf := readBuf }).emit
                (.handled h.conn request.frame)) :=
            hset.of_eq rfl rfl rfl
          exact (hemit.handleOneFrame (own_setHandler hown (hown fd h hfd))).resetRequest

theorem registerWsClient (hc : Coherent X w) : Coherent X (w.registerWsClient fd) := by
  unfold NetworkInterface.registerWsClient
  split_ifs
  · exact hc
  · exact hc.of_eq rfl rfl rfl

/-- The upgrade, up to the registration. -/
theorem upgraded (hc : Coherent (fun _ => False) w)
    (hown : ∀ fd h, w.websocketHandlerMap fd = some h → h.fd = fd)
    (hfd : w.websocketHandlerMap fd = some h) (readBuf : Bytes) (headerMap : HeaderMap) (o : Obs)
    (response : Bytes) :
    Coherent (fun _ => False) (((w.setHandler fd
      { h with readBuf := readBuf, status := .handsharked, headerMap := headerMap }).emit
        o).queueSend
        fd response) := by
  have hset : Coherent (fun _ => False) (w.setHandler fd
      { h with readBuf := readBuf, status := .handsharked, headerMap := headerMap }) :=
    hc.setHandler_same hfd rfl
  have hemit : Coherent (fun _ => False) ((w.setHandler fd
      { h with readBuf := readBuf, status := .handsharked, headerMap := headerMap }).emit o) :=
    hset.of_eq rfl rfl rfl
  exact hemit.queueSend (own_setHandler hown (hown fd h hfd)) response

theorem driveIoUpgrade (hc : Coherent (fun _ => False) w)
    (hown : ∀ fd h, w.websocketHandlerMap fd = some h → h.fd = fd) :
    Coherent (fun _ => False) (w.driveIoUpgrade fd).1 := by
  unfold NetworkInterface.driveIoUpgrade
  cases hfd : w.websocketHandlerMap fd with
  | none => exact hc
  | some h =>
      dsimp only
      split_ifs
      · exact hc
      · exact hc.of_eq (by simp) (by simp) (by simp)
      · split
        · exact hc
        · rename_i pos _
          rcases hout : fetchHttpInfo h.headerMap (h.readBuf.take (pos + 4)) with ⟨ret, headerMap⟩
          dsimp only
          split_ifs with hret
          · have hset : Coherent (fun _ => False) (w.setHandler fd
                { h with readBuf := h.readBuf.drop (pos + 4), headerMap := headerMap }) :=
              hc.setHandler_same hfd rfl
            exact hset.of_eq (by simp) (by simp) (by simp)
          · exact upgraded hc hown hfd _ _ _ _
          · exact (upgraded hc hown hfd _ _ _ _).registerWsClient.of_eq rfl rfl rfl

/-! ### The life of a connection -/

theorem ctlEvent_true (hc : Coherent X w) : Coherent X (w.ctlEvent fd true) := by
  intro fd' g hg hne
  simp only [ctlEvent, if_true] at hg hne ⊢
  by_cases he : fd' = fd
  · subst he
    rw [Function.update_self, Option.some.injEq] at hg
    subst hg
    exact ⟨epollIn, Function.update_self .., fun _ => rfl⟩
  · rw [Function.update_of_ne he] at hg ⊢
    exact hc fd' g hg hne

theorem ctlEvent_false (hc : Coherent X w) : Coherent X (w.ctlEvent fd false) := by
  unfold NetworkInterface.ctlEvent
  rw [if_neg (by decide)]
  cases hfd : w.websocketHandlerMap fd with
  | none => exact hc
  | some h =>
      intro fd' g hg hne
      simp only [unregisterWsClient, emit] at hg hne ⊢
      by_cases he : fd' = fd
      · subst he
        rw [Function.update_self] at hg
        cases hg
      · rw [Function.update_of_ne he] at hg ⊢
        exact hc fd' g hg hne

theorem processCloseQueue (hc : Coherent X w) : Coherent X w.processCloseQueue := by
  unfold NetworkInterface.processCloseQueue
  split_ifs
  · exact hc
  · have hfold : ∀ (fds : List Fd) (w : NetworkInterface), Coherent X w →
        Coherent X (fds.foldl (fun w fd => w.ctlEvent fd false) w) := by
      intro fds
      induction fds with
      | nil => exact fun _ hw => hw
      | cons fd fds ih => exact fun w hw => ih _ hw.ctlEvent_false
    exact (hfold _ w hc).of_eq rfl rfl rfl

end Coherent

end NetworkInterface

/-! ### Every run -/

namespace Loop

variable {once : Prop} {s s' : Loop} {fd : Fd} {es : List EpollEvent}

/-- The interest list is up to date, but for the descriptor that is being flushed. -/
def Coherent (s : Loop) : Prop :=
  s.worker.Coherent fun fd => s.pc.phase fd = .flushing

theorem afterUpgrade_coherent {out : NetworkInterface × Bool}
    (h : out.1.Coherent fun _ => False) : (afterUpgrade fd es out).Coherent := by
  obtain ⟨w, b⟩ := out
  cases b with
  | true => exact h.mono fun _ hF => hF.elim
  | false => exact h.mono fun _ hF => hF.elim

/-- Where nothing is being flushed, all of the list is up to date. -/
theorem Coherent.all (hc : s.Coherent) (hpc : ∀ fd, s.pc.phase fd ≠ .flushing) :
    s.worker.Coherent fun _ => False :=
  NetworkInterface.Coherent.mono hc fun fd hf => hpc fd hf

/-- A state in which nothing is being flushed. -/
theorem coherent_of_all {w : NetworkInterface} {pc : Pc} (h : w.Coherent fun _ => False) :
    Coherent ⟨w, pc⟩ :=
  NetworkInterface.Coherent.mono h fun _ hF => hF.elim

/-- Leaving `flush_writes`. -/
theorem flushed_coherent {w : NetworkInterface} (hpc : s.pc = .flushing fd es) (hc : s.Coherent)
    (hmap : w.websocketHandlerMap = s.worker.websocketHandlerMap)
    (hint : w.interest = s.worker.interest) (hlisten : w.listenfd = s.worker.listenfd) :
    Coherent ⟨w.updateHandlerEvents fd, .batch es⟩ := by
  have hw : w.Coherent fun fd' => s.pc.phase fd' = .flushing :=
    NetworkInterface.Coherent.of_eq hc hmap hint hlisten
  refine NetworkInterface.Coherent.mono hw.updateHandlerEvents ?_
  rintro fd' ⟨hf, hne⟩
  rw [hpc, Pc.phase, if_neg (Ne.symm hne)] at hf
  cases hf

theorem dispatch_coherent {w : NetworkInterface} (ev : EpollEvent)
    (hc : w.Coherent fun _ => False) : (dispatch w ev es).Coherent := by
  unfold dispatch
  split_ifs
  · exact coherent_of_all hc
  · exact coherent_of_all (hc.of_eq (by simp) (by simp) (by simp))
  · split
    · exact coherent_of_all hc
    · exact coherent_of_all (hc.of_eq rfl rfl rfl)
  · split
    · exact coherent_of_all hc
    · exact coherent_of_all hc
  · exact coherent_of_all hc

/-- **Every step keeps the interest list up to date.** -/
theorem step_coherent {i : Input} (hwf : s.WellFormed once) (hc : s.Coherent)
    (hs : s.step i = some s') : s'.Coherent := by
  have hown := hwf.worker.own
  -- outside of `flush_writes` all of the list is up to date
  have hreading {fd : Fd} {es : List EpollEvent} (hpc : s.pc = .reading fd es) :
      s.worker.Coherent fun _ => False := by
    refine hc.all fun fd' => ?_
    rw [hpc, Pc.phase]
    split_ifs <;> simp
  have hframes {fd : Fd} {es : List EpollEvent} (hpc : s.pc = .frames fd es) :
      s.worker.Coherent fun _ => False := by
    refine hc.all fun fd' => ?_
    rw [hpc, Pc.phase]
    split_ifs <;> simp
  have hidle (hpc : s.pc.current = none) : s.worker.Coherent fun _ => False := by
    refine hc.all fun fd' => ?_
    rw [phase_eq_idle (by rw [hpc]; simp)]
    simp
  cases step_branch hs with
  | rehash order _ => exact NetworkInterface.Coherent.of_eq hc rfl rfl rfl
  | epollWait es hpc => exact coherent_of_all (hidle (by rw [hpc]; rfl))
  | close hpc => exact coherent_of_all (hidle (by rw [hpc]; rfl)).processCloseQueue
  | dispatch ev es hpc => exact dispatch_coherent ev (hidle (by rw [hpc]; rfl))
  | accept fd es hpc _ _ _ => exact coherent_of_all (hidle (by rw [hpc]; rfl)).ctlEvent_true
  | acceptFail es hpc => exact coherent_of_all (hidle (by rw [hpc]; rfl))
  | received fd es h data hpc hfd _ _ _ =>
      have hset : NetworkInterface.Coherent (fun _ => False)
          (s.worker.setHandler fd { h with readBuf := h.readBuf ++ data }) :=
        (hreading hpc).setHandler_same hfd rfl
      exact coherent_of_all (hset.of_eq rfl rfl rfl)
  | readRefused fd es h data hpc _ _ _ _ =>
      exact coherent_of_all ((hreading hpc).of_eq (by simp) (by simp) (by simp))
  | readEof fd es h hpc _ =>
      exact coherent_of_all ((hreading hpc).of_eq (by simp) (by simp) (by simp))
  | readError fd es hpc =>
      exact coherent_of_all ((hreading hpc).of_eq (by simp) (by simp) (by simp))
  | readAgain fd es hpc => exact afterUpgrade_coherent ((hreading hpc).driveIoUpgrade hown)
  | frames fd es hpc => exact afterUpgrade_coherent ((hframes hpc).driveIoFrame hown)
  | flushed fd es hpc _ => exact flushed_coherent hpc hc rfl rfl rfl
  | sent fd es h n hpc hfd _ _ =>
      have hset : NetworkInterface.Coherent (fun fd' => s.pc.phase fd' = .flushing)
          (s.worker.setHandler fd { h with writeBuf := h.writeBuf.drop n }) :=
        NetworkInterface.Coherent.setHandler hc hfd (fun _ hX => hX)
          fun hn => absurd (by rw [hpc]; simp [Pc.phase]) hn
      rw [hpc] at hset
      exact hset.of_eq rfl rfl rfl
  | sendAgain fd es hpc _ => exact flushed_coherent hpc hc rfl rfl rfl
  | sendError fd es hpc _ => exact flushed_coherent hpc hc (by simp) (by simp) (by simp)

/-- **The interest list is up to date in every reachable state**, but for the descriptor that is
being flushed. -/
theorem coherent {ok : Loop → Input → Prop} (hok : Promises ok once) {listenfd : Fd}
    (hr : Reachable ok listenfd s) : s.Coherent := by
  induction hr with
  | refl =>
      intro fd h hfd hne
      have hinit : (NetworkInterface.init listenfd).websocketHandlerMap fd = some h := hfd
      have hlisten : fd ≠ listenfd := hne
      simp only [NetworkInterface.init, NetworkInterface.ctlEvent, if_true] at hinit
      rw [Function.update_of_ne hlisten] at hinit
      cases hinit
  | tail i hreach _ hs ih => exact step_coherent (reachable_wellFormed hok hreach) ih hs

end Loop

end WebSocketDemo
