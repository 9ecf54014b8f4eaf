/-
**The beginning and the end of a connection**: what the upgrade, `accept` and the close queue do to
the state.

Main definitions:

* `WebsocketHandler.upgrade` — the decision `drive_io` takes on the buffer of an unconnected
  handler;
* `NetworkInterface.Upgrades`, `NetworkInterface.Closes` — the effect of a successful upgrade and of
  draining the close queue.

Main results:

* `NetworkInterface.driveIoUpgrade_accept` — **the response is the first thing a handler is offered,
  and it registers next**;
* `NetworkInterface.processCloseQueue_closes` — **the queue is drained, each descriptor is closed
  once, and no other connection is touched**.
-/

import WebSocketDemo.Effects

set_option relaxedAutoImplicit false
set_option autoImplicit false

namespace WebSocketDemo

/-! ### The upgrade -/

/-- The outcome of the handshake part of `drive_io`: wait for more bytes, give up, or upgrade with
the headers read and the bytes behind them. -/
inductive Upgrade
  | wait
  | reject (readBuf : Bytes) (headerMap : HeaderMap)
  | accept (headerMap : HeaderMap) (rest : Bytes)

namespace WebsocketHandler

/-- The decision on the buffer of an unconnected handler. -/
def upgrade (h : WebsocketHandler) : Upgrade :=
  if h.readBuf.length > wsMaxHandshakeBytes then .reject h.readBuf h.headerMap
  else
    match Text.find NetworkInterface.crlfCrlf h.readBuf with
    | none => .wait
    | some pos =>
        let out := fetchHttpInfo h.headerMap (h.readBuf.take (pos + 4))
        if out.1 ≠ 0 then .reject (h.readBuf.drop (pos + 4)) out.2
        else .accept out.2 (h.readBuf.drop (pos + 4))

/-- The handler after the upgrade, when nothing was waiting to be sent. -/
def upgraded (h : WebsocketHandler) (headerMap : HeaderMap) (rest : Bytes) : WebsocketHandler :=
  { h with
    readBuf := rest, status := .handsharked, headerMap := (parseStr headerMap).1
    writeBuf := (parseStr headerMap).2 }

end WebsocketHandler

namespace NetworkInterface

/-- What a successful upgrade of the handler `h` under `fd` does. -/
structure Upgrades (w : NetworkInterface) (fd : Fd) (h : WebsocketHandler) (headerMap : HeaderMap)
    (rest : Bytes) (w' : NetworkInterface) : Prop where
  map : w'.websocketHandlerMap =
    Function.update w.websocketHandlerMap fd (some (h.upgraded headerMap rest))
  trace : w'.trace = w.trace ++ [.upgraded h.conn headerMap rest,
    .offered h.conn (parseStr headerMap).2 true true, .registered h.conn]
  pending : ∀ fd', fd' ∈ w'.pendingCloses ↔ fd' ∈ w.pendingCloses
  listenfd : w'.listenfd = w.listenfd
  wsClients : w'.wsClients = w.wsClients.insert fd
  nextConn : w'.nextConn = w.nextConn

section DriveIoUpgrade

variable {w : NetworkInterface} {fd : Fd} {h : WebsocketHandler}

theorem driveIoUpgrade_handsharked (hfd : w.websocketHandlerMap fd = some h)
    (hstatus : h.status = .handsharked) : w.driveIoUpgrade fd = (w, true) := by
  simp [driveIoUpgrade, hfd, hstatus]

theorem driveIoUpgrade_wait (hfd : w.websocketHandlerMap fd = some h)
    (hstatus : h.status = .unconnect) (hup : h.upgrade = .wait) :
    w.driveIoUpgrade fd = (w, false) := by
  unfold WebsocketHandler.upgrade at hup
  split_ifs at hup with hlen
  cases hpos : Text.find crlfCrlf h.readBuf with
  | none => simp [driveIoUpgrade, hfd, hstatus, hlen, hpos]
  | some pos =>
      rw [hpos] at hup
      dsimp only at hup
      split_ifs at hup

theorem driveIoUpgrade_reject {readBuf : Bytes} {headerMap : HeaderMap}
    (hfd : w.websocketHandlerMap fd = some h) (hstatus : h.status = .unconnect) (hown : h.fd = fd)
    (hup : h.upgrade = .reject readBuf headerMap) :
    w.driveIoUpgrade fd =
      (((w.setHandler fd { h with readBuf := readBuf, headerMap := headerMap }).emit
        (.rejected h.conn)).queueClose fd, false) := by
  unfold WebsocketHandler.upgrade at hup
  split_ifs at hup with hlen
  · injection hup with hbuf hmap
    have hsame : w.setHandler fd { h with readBuf := readBuf, headerMap := headerMap } = w := by
      rw [← hbuf, ← hmap]
      change w.setHandler fd h = w
      rw [setHandler, ← hfd, Function.update_eq_self]
    rw [hsame]
    simp [driveIoUpgrade, hfd, hstatus, hlen, hown]
  · cases hpos : Text.find crlfCrlf h.readBuf with
    | none => simp [hpos] at hup
    | some pos =>
        rw [hpos] at hup
        dsimp only at hup
        split_ifs at hup with hret
        · injection hup with hbuf hmap
          simp [driveIoUpgrade, hfd, hstatus, hlen, hpos, hret, ← hbuf, ← hmap, hown]

/-- **The response is the first thing a handler is offered, and it registers next.** -/
theorem driveIoUpgrade_accept {headerMap : HeaderMap} {rest : Bytes}
    (hfd : w.websocketHandlerMap fd = some h) (hstatus : h.status = .unconnect) (hown : h.fd = fd)
    (hlisten : fd ≠ w.listenfd) (hpos : 0 ≤ fd) (hempty : h.writeBuf = [])
    (hup : h.upgrade = .accept headerMap rest) :
    ∃ w', w.driveIoUpgrade fd = (w', true) ∧ Upgrades w fd h headerMap rest w' := by
  unfold WebsocketHandler.upgrade at hup
  split_ifs at hup with hlen
  cases hfind : Text.find crlfCrlf h.readBuf with
  | none => simp [hfind] at hup
  | some pos =>
      rw [hfind] at hup
      dsimp only at hup
      split_ifs at hup with hret
      injection hup with hmap hrest
      rcases hout : fetchHttpInfo h.headerMap (h.readBuf.take (pos + 4)) with ⟨ret, headerMap'⟩
      rw [hout] at hmap hret
      dsimp only at hmap hret
      subst hmap
      set h₁ : WebsocketHandler :=
        { h with readBuf := rest, status := .handsharked, headerMap := (parseStr headerMap').1 }
        with hh₁
      set w₁ := (w.setHandler fd h₁).emit (.upgraded h.conn headerMap' rest) with hw₁
      have hdrive : w.driveIoUpgrade fd =
          (((w₁.queueSend fd (parseStr headerMap').2).registerWsClient fd).emit
            (.registered h.conn), true) := by
        have hnot : (w₁.queueSend fd (parseStr headerMap').2).isListenFd fd = false := by
          simp [isListenFd, queueSend, hw₁, hlisten]
        unfold driveIoUpgrade
        simp only [hfd, hstatus, hlen, hfind, hout, hret, ne_eq, not_true, if_false, hrest]
        rw [← hh₁, ← hw₁, hown, hnot]
        rfl
      have hfd₁ : w₁.websocketHandlerMap fd = some h₁ := by
        rw [hw₁, emit_map, setHandler_map, Function.update_self]
      have hresponse : (parseStr headerMap').2.length ≠ 0 := by simp [length_parseStr]
      have haccepts : h₁.accepts (parseStr headerMap').2 = true := by
        simp [WebsocketHandler.accepts, hh₁, hempty, length_parseStr, wsMaxWriteBuffer]
      have hregister : (w₁.queueSend fd (parseStr headerMap').2).registerWsClient fd =
          { w₁.queueSend fd (parseStr headerMap').2 with wsClients := w.wsClients.insert fd } := by
        have hlisten' : (w₁.queueSend fd (parseStr headerMap').2).listenfd = w.listenfd := by
          rw [queueSend, appendOutgoing_listenfd, hw₁]
          rfl
        have hclients : (w₁.queueSend fd (parseStr headerMap').2).wsClients = w.wsClients := by
          rw [queueSend, appendOutgoing_wsClients, hw₁]
          rfl
        rw [registerWsClient, if_neg (by rw [hlisten']; simp [hlisten, hpos]), hclients]
      refine ⟨_, hdrive, ?_⟩
      rw [hregister]
      refine ⟨?_, ?_, ?_, ?_, rfl, ?_⟩
      · rw [emit_map]
        dsimp only
        have hoffer : h₁.offer (parseStr headerMap').2 = h.upgraded headerMap' rest := by
          rw [WebsocketHandler.offer, haccepts]
          simp [hh₁, WebsocketHandler.upgraded, hempty]
        rw [queueSend, appendOutgoing_map true hfd₁ hresponse, hoffer, hw₁, emit_map,
          setHandler_map, Function.update_idem]
      · rw [emit_trace]
        dsimp only
        rw [queueSend, appendOutgoing_trace true hfd₁ hresponse, haccepts, hw₁]
        simp [hh₁]
      · intro fd'
        rw [emit_pendingCloses]
        dsimp only
        rw [queueSend, mem_appendOutgoing true hfd₁ hown hresponse, haccepts, hw₁]
        simp
      · rw [emit_listenfd]
        dsimp only
        rw [queueSend, appendOutgoing_listenfd, hw₁]
        rfl
      · rw [emit_nextConn]
        dsimp only
        rw [queueSend, appendOutgoing_nextConn, hw₁]
        rfl

end DriveIoUpgrade

/-! ### The close queue -/

/-- The closings of descriptors that are each named once. -/
def closeObs (w : NetworkInterface) (fds : List Fd) : List Obs :=
  fds.filterMap fun fd => (w.websocketHandlerMap fd).map fun h => .closed h.conn fd

/-- What closing the descriptors `fds` does. -/
structure Closes (w : NetworkInterface) (fds : List Fd) (w' : NetworkInterface) : Prop where
  map : ∀ fd, w'.websocketHandlerMap fd = if fd ∈ fds then none else w.websocketHandlerMap fd
  trace : w'.trace = w.trace ++ w.closeObs fds
  sublist : w'.wsClients.Sublist w.wsClients
  mem_wsClients : ∀ fd, fd ∈ w'.wsClients ↔
    fd ∈ w.wsClients ∧ ¬ (fd ∈ fds ∧ (w.websocketHandlerMap fd).isSome)
  listenfd : w'.listenfd = w.listenfd
  nextConn : w'.nextConn = w.nextConn

section CloseQueue

variable {w : NetworkInterface}

/-- `ctl_event(fd, false)` on a mapped descriptor. -/
theorem ctlEvent_closes {fd : Fd} {h : WebsocketHandler} (hfd : w.websocketHandlerMap fd = some h)
    (hown : h.fd = fd) (hnd : w.wsClients.Nodup) : Closes w [fd] (w.ctlEvent fd false) := by
  have hclients : (w.ctlEvent fd false).wsClients = w.wsClients.erase fd := by
    simp only [ctlEvent, Bool.false_eq_true, if_false, hfd, unregisterWsClient, emit_wsClients,
      hown]
    exact List.erase_of_not_mem hnd.not_mem_erase
  refine ⟨?_, ?_, ?_, ?_, ?_, ?_⟩
  · intro fd'
    simp only [ctlEvent, Bool.false_eq_true, if_false, hfd, unregisterWsClient, emit_map,
      Function.update_apply, List.mem_singleton]
  · simp [ctlEvent, hfd, unregisterWsClient, closeObs]
  · rw [hclients]
    exact List.erase_sublist
  · intro fd'
    rw [hclients, hnd.mem_erase_iff]
    by_cases hne : fd' = fd
    · simp [hne, hfd]
    · simp [hne]
  · simp [ctlEvent, hfd, unregisterWsClient]
  · simp [ctlEvent, hfd, unregisterWsClient]

/-- The loop of `process_close_queue`. -/
theorem foldl_ctlEvent_closes {fds : List Fd} (hfds : fds.Nodup)
    (hown : ∀ fd h, w.websocketHandlerMap fd = some h → h.fd = fd) (hnd : w.wsClients.Nodup) :
    Closes w fds (fds.foldl (fun w fd => w.ctlEvent fd false) w) := by
  induction fds generalizing w with
  | nil =>
      refine ⟨?_, ?_, List.Sublist.refl _, ?_, rfl, rfl⟩
      · intro fd
        simp
      · simp [closeObs]
      · intro fd
        simp
  | cons fd rest ih =>
      have hnotin : fd ∉ rest := (List.nodup_cons.1 hfds).1
      rw [List.foldl_cons]
      cases hfd : w.websocketHandlerMap fd with
      | none =>
          have hsame : w.ctlEvent fd false = w := by simp [ctlEvent, hfd]
          have hr := ih hfds.of_cons hown hnd
          rw [hsame]
          refine ⟨?_, ?_, hr.sublist, ?_, hr.listenfd, hr.nextConn⟩
          · intro fd'
            rw [hr.map fd']
            by_cases hne : fd' = fd
            · simp [hne, hfd]
            · simp [hne]
          · rw [hr.trace]
            simp [closeObs, hfd]
          · intro fd'
            rw [hr.mem_wsClients fd']
            by_cases hne : fd' = fd
            · simp [hne, hfd]
            · simp [hne]
      | some h =>
          have h₁ := ctlEvent_closes hfd (hown fd h hfd) hnd
          have hown₁ : ∀ fd' h', (w.ctlEvent fd false).websocketHandlerMap fd' = some h' →
              h'.fd = fd' := by
            intro fd' h' hh'
            rw [h₁.map fd'] at hh'
            split_ifs at hh'
            exact hown fd' h' hh'
          have hr := ih (w := w.ctlEvent fd false) hfds.of_cons hown₁ (hnd.sublist h₁.sublist)
          refine ⟨?_, ?_, hr.sublist.trans h₁.sublist, ?_, by rw [hr.listenfd, h₁.listenfd],
            by rw [hr.nextConn, h₁.nextConn]⟩
          · intro fd'
            rw [hr.map fd', h₁.map fd']
            by_cases hne : fd' = fd
            · simp [hne]
            · simp [hne]
          · rw [hr.trace, h₁.trace, List.append_assoc]
            congr 1
            have hrest : (w.ctlEvent fd false).closeObs rest = w.closeObs rest := by
              refine List.filterMap_congr ?_
              intro fd' hfd'
              have hne : fd' ≠ fd := fun he => hnotin (he ▸ hfd')
              rw [h₁.map fd', if_neg (by simp [hne])]
            rw [hrest]
            simp [closeObs, hfd]
          · intro fd'
            rw [hr.mem_wsClients fd', h₁.mem_wsClients fd', h₁.map fd']
            by_cases hne : fd' = fd
            · simp [hne, hfd]
            · simp [hne]

/-- `std::unique` keeps every value. -/
theorem mem_destutter_ne {a : Fd} : ∀ {l : List Fd}, a ∈ l.destutter (· ≠ ·) ↔ a ∈ l
  | [] => by simp
  | b :: l => by
      have hsub := List.destutter_sublist (· ≠ ·) (b :: l)
      refine ⟨fun ha => hsub.subset ha, fun ha => ?_⟩
      rw [List.destutter_cons']
      induction l generalizing b with
      | nil => simpa using ha
      | cons c l ih =>
          by_cases hbc : b ≠ c
          · rw [List.destutter'_cons_pos _ hbc]
            rcases List.mem_cons.1 ha with rfl | ha
            · exact List.mem_cons_self
            · exact List.mem_cons_of_mem _ (ih c (List.destutter_sublist _ _) ha)
          · rw [List.destutter'_cons_neg _ hbc]
            refine ih b (List.destutter_sublist _ _) ?_
            rw [not_not] at hbc
            subst hbc
            simpa using ha

/-- Sorting and `std::unique` leave each value once. -/
theorem nodup_sort_unique (l : List Fd) :
    ((l.insertionSort (· ≤ ·)).destutter (· ≠ ·)).Nodup := by
  have hsorted : ((l.insertionSort (· ≤ ·)).destutter (· ≠ ·)).Pairwise (· ≤ ·) :=
    (List.pairwise_insertionSort (· ≤ ·) l).sublist (List.destutter_sublist _ _)
  have hchain := List.isChain_destutter (· ≠ ·) (l.insertionSort (· ≤ ·))
  generalize (l.insertionSort (· ≤ ·)).destutter (· ≠ ·) = m at hsorted hchain
  have hlt : m.IsChain (· < ·) := by
    induction m with
    | nil => exact List.IsChain.nil
    | cons a m ih =>
        cases m with
        | nil => exact List.isChain_singleton a
        | cons b m =>
            rw [List.isChain_cons_cons] at hchain ⊢
            have hle : a ≤ b := (List.pairwise_cons.1 hsorted).1 b List.mem_cons_self
            exact ⟨lt_of_le_of_ne hle hchain.1, ih hsorted.of_cons hchain.2⟩
  exact (List.isChain_iff_pairwise.1 hlt).imp fun h => ne_of_lt h

/-- **The queue is drained, each descriptor is closed once, and no other connection is touched.** -/
theorem processCloseQueue_closes (hown : ∀ fd h, w.websocketHandlerMap fd = some h → h.fd = fd)
    (hnd : w.wsClients.Nodup) :
    ∃ fds : List Fd, fds.Nodup ∧ (∀ fd, fd ∈ fds ↔ fd ∈ w.pendingCloses) ∧
      Closes w fds w.processCloseQueue ∧ w.processCloseQueue.pendingCloses = [] := by
  unfold processCloseQueue
  split_ifs with hempty
  · refine ⟨[], List.nodup_nil, by simp [hempty], ?_, hempty⟩
    exact foldl_ctlEvent_closes List.nodup_nil hown hnd
  · refine ⟨_, nodup_sort_unique w.pendingCloses, ?_, ?_, rfl⟩
    · intro fd
      rw [mem_destutter_ne, List.mem_insertionSort]
    · have hc := foldl_ctlEvent_closes (nodup_sort_unique w.pendingCloses) hown hnd
      exact ⟨hc.map, hc.trace, hc.sublist, hc.mem_wsClients, hc.listenfd, hc.nextConn⟩

end CloseQueue

end NetworkInterface

end WebSocketDemo
