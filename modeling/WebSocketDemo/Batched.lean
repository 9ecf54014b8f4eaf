/-
**The batched broadcast and the plain one.**

`broadcast_ws_binary` appends to every client without touching the interest list and brings it up to
date in a second pass, for the buffers that were empty before and are not any more.  That saves an
`epoll_ctl` for a buffer that was not empty, which is sound because such a descriptor is already
waited for.  Both the batched broadcast and one `append_outgoing` after the other come to the same
closed form, in which the order of the clients does not occur.

Main definitions:

* `NetworkInterface.plainBroadcast` — `append_outgoing(data, len, true)` on each client;
* `NetworkInterface.Armed` — a connection with output to write is waited for;
* `NetworkInterface.Offered` — the closed form.

Main results:

* `NetworkInterface.broadcastWsBinary_offered`, `NetworkInterface.plainBroadcast_offered` — **both
  broadcasts have it**;
* `batched_eq_plain` — **they agree in every reachable state, for all orders of the clients**.
-/

import WebSocketDemo.Invariants

set_option relaxedAutoImplicit false
set_option autoImplicit false

namespace WebSocketDemo

open WebsocketHandler

namespace NetworkInterface

variable {w w' : NetworkInterface} {fd exceptFd : Fd} {h : WebsocketHandler} {data : Bytes}
  {fds : List Fd}

/-- `append_outgoing` with the update, on each client but one. -/
def plainBroadcast (w : NetworkInterface) (exceptFd : Fd) (data : Bytes) (clients : List Fd) :
    NetworkInterface :=
  (clients.filter (· ≠ exceptFd)).foldl (fun w cfd => w.appendOutgoing cfd data true) w

/-- A connection with output to write is waited for. -/
def Armed (w : NetworkInterface) : Prop :=
  ∀ fd h, w.websocketHandlerMap fd = some h → fd ≠ w.listenfd → h.writeBuf ≠ [] →
    w.interest fd = some (epollIn ||| epollOut)

/-- What a broadcast needs: handlers know their descriptor, clients are named once, the listener is
none of them, and a connection with output to write is waited for. -/
structure Broadcasts (w : NetworkInterface) : Prop where
  own : ∀ fd h, w.websocketHandlerMap fd = some h → h.fd = fd
  nodup : w.wsClients.Nodup
  listener : w.listenfd ∉ w.wsClients
  armed : w.Armed

/-- The data have been offered to each of `fds`, and the interest list is up to date for those that
took them. -/
structure Offered (w : NetworkInterface) (data : Bytes) (fds : List Fd) (w' : NetworkInterface) :
    Prop where
  map : ∀ fd, w'.websocketHandlerMap fd =
    if fd ∈ fds then (w.websocketHandlerMap fd).map (·.offer data) else w.websocketHandlerMap fd
  interest : ∀ fd, w'.interest fd =
    if fd ∈ fds ∧ (w.websocketHandlerMap fd).any (·.accepts data) = true then
      (w.interest fd).map fun _ => epollIn ||| epollOut
    else w.interest fd
  pending : ∀ fd, fd ∈ w'.pendingCloses ↔
    fd ∈ w.pendingCloses ∨ fd ∈ fds ∧ 0 ≤ fd ∧
      ∃ h, w.websocketHandlerMap fd = some h ∧ h.accepts data = false

/-! ### One client -/

/-- Handlers know their descriptor also afterwards. -/
theorem own_appendOutgoing (updateEpoll : Bool)
    (hown : ∀ fd h, w.websocketHandlerMap fd = some h → h.fd = fd) :
    ∀ fd' g, (w.appendOutgoing fd data updateEpoll).websocketHandlerMap fd' = some g →
      g.fd = fd' := by
  unfold appendOutgoing
  cases hfd : w.websocketHandlerMap fd with
  | none => exact hown
  | some h =>
      have hset :
          ∀ fd' g, (w.setHandler fd { h with writeBuf := h.writeBuf ++ data }).websocketHandlerMap
          fd' = some g → g.fd = fd' :=
        Coherent.own_setHandler hown (hown fd h hfd)
      dsimp only
      split_ifs
      · exact hown
      · simpa using hown
      · simpa using hset
      · exact hset

/-- Without the update the interest list is left alone. -/
theorem appendOutgoing_interest_false :
    (w.appendOutgoing fd data false).interest = w.interest := by
  unfold appendOutgoing
  cases w.websocketHandlerMap fd with
  | none => rfl
  | some h =>
      simp only [Bool.false_eq_true, if_false]
      split_ifs
      · rfl
      · simp
      · rfl

theorem updateHandlerEvents_interest (hfd : w.websocketHandlerMap fd = some h)
    (hne : fd ≠ w.listenfd) : (w.updateHandlerEvents fd).interest =
      Function.update w.interest fd ((w.interest fd).map fun _ => h.eventMask) := by
  unfold updateHandlerEvents
  rw [if_neg hne, hfd]
  rfl

/-- With the update it asks for a writable descriptor, if the data were taken. -/
theorem appendOutgoing_interest_true (hfd : w.websocketHandlerMap fd = some h) (hown : h.fd = fd)
    (hne : fd ≠ w.listenfd) (hdata : data.length ≠ 0) :
    (w.appendOutgoing fd data true).interest =
      if h.accepts data = true then
        Function.update w.interest fd ((w.interest fd).map fun _ => epollIn ||| epollOut)
      else w.interest := by
  have hnil : data ≠ [] := fun he => hdata (by rw [he]; rfl)
  subst hown
  unfold appendOutgoing accepts
  rw [hfd]
  dsimp only
  rw [if_neg hdata]
  by_cases hcap : h.writeBuf.length + data.length > wsMaxWriteBuffer
  · rw [if_pos hcap, if_neg (by simpa using hcap)]
    simp
  · have hpending : eventMask { h with writeBuf := h.writeBuf ++ data } = epollIn ||| epollOut := by
      simp [eventMask, writePending, hnil]
    have hle : decide (h.writeBuf.length + data.length ≤ wsMaxWriteBuffer) = true := by
      simpa using hcap
    rw [if_neg hcap, if_pos rfl, if_pos hle,
      updateHandlerEvents_interest (h := { h with writeBuf := h.writeBuf ++ data })
        (by simp) (by simpa using hne), hpending]
    rfl

/-! ### The plain broadcast -/

/-- One `append_outgoing` offers the data to one descriptor. -/
theorem appendOutgoing_offered (hdata : data.length ≠ 0)
    (hown : ∀ fd h, w.websocketHandlerMap fd = some h → h.fd = fd) (hne : fd ≠ w.listenfd) :
    Offered w data [fd] (w.appendOutgoing fd data true) := by
  cases hc : w.websocketHandlerMap fd with
  | none =>
      rw [appendOutgoing_of_none true hc]
      refine ⟨fun fd' => ?_, fun fd' => ?_, fun fd' => ?_⟩
      all_goals
        by_cases hfd : fd' = fd
        · simp [hfd, hc]
        · simp [hfd]
  | some h =>
      have hmap := appendOutgoing_map true hc hdata
      have hinterest := appendOutgoing_interest_true hc (hown fd h hc) hne hdata
      refine ⟨fun fd' => ?_, fun fd' => ?_, fun fd' => ?_⟩
      · rw [hmap]
        by_cases hfd : fd' = fd
        · simp [hfd, hc]
        · simp [hfd]
      · rw [hinterest]
        by_cases hfd : fd' = fd
        · by_cases hacc : h.accepts data = true
          · simp [hfd, hc, hacc]
          · simp [hfd, hc, hacc]
        · by_cases hacc : h.accepts data = true
          · simp [hfd, hacc]
          · simp [hfd, hacc]
      · rw [mem_appendOutgoing true hc (hown fd h hc) hdata]
        by_cases hfd : fd' = fd
        · simp [hfd, hc]
        · simp [hfd]

/-- **Offers to different descriptors add up.** -/
theorem Offered.cons {w₁ w₂ : NetworkInterface} (hnotin : fd ∉ fds) (h₁ : Offered w data [fd] w₁)
    (h₂ : Offered w₁ data fds w₂) : Offered w data (fd :: fds) w₂ := by
  refine ⟨fun fd' => ?_, fun fd' => ?_, fun fd' => ?_⟩
  · rw [h₂.map fd', h₁.map fd']
    by_cases hfd : fd' = fd
    · simp [hfd, hnotin]
    · simp [hfd]
  · rw [h₂.interest fd', h₁.interest fd', h₁.map fd']
    by_cases hfd : fd' = fd
    · simp [hfd, hnotin]
    · simp [hfd]
  · rw [h₂.pending fd', h₁.pending fd', h₁.map fd']
    by_cases hfd : fd' = fd
    · simp [hfd, hnotin]
    · simp [hfd]

/-- One `append_outgoing` after the other. -/
theorem foldl_appendOutgoing_offered (hdata : data.length ≠ 0)
    (hown : ∀ fd h, w.websocketHandlerMap fd = some h → h.fd = fd) (hnd : fds.Nodup)
    (hlisten : w.listenfd ∉ fds) :
    Offered w data fds (fds.foldl (fun w cfd => w.appendOutgoing cfd data true) w) := by
  induction fds generalizing w with
  | nil => exact ⟨fun fd => by simp, fun fd => by simp, fun fd => by simp⟩
  | cons cfd rest ih =>
      obtain ⟨hnotin, hrest⟩ := List.nodup_cons.1 hnd
      have hne : cfd ≠ w.listenfd := fun he => hlisten (by simp [he])
      have hlisten' : (w.appendOutgoing cfd data true).listenfd ∉ rest := by
        rw [appendOutgoing_listenfd]
        exact fun hm => hlisten (List.mem_cons_of_mem _ hm)
      rw [List.foldl_cons]
      exact (appendOutgoing_offered hdata hown hne).cons hnotin
        (ih (own_appendOutgoing true hown) hrest hlisten')

/-! ### The batched broadcast -/

/-- The appends leave the interest list alone. -/
theorem broadcastAppend_interest (fds : List Fd) (toRefresh : List Fd) :
    (broadcastAppend exceptFd data fds (w, toRefresh)).1.interest = w.interest := by
  induction fds generalizing w toRefresh with
  | nil => rfl
  | cons cfd rest ih =>
      rw [broadcastAppend]
      split_ifs
      · exact ih toRefresh
      · cases w.websocketHandlerMap cfd with
        | none => exact ih toRefresh
        | some h => exact (ih _).trans appendOutgoing_interest_false

/-- Collected are the clients whose buffer was empty and that took the data. -/
theorem mem_broadcastAppend (hdata : data.length ≠ 0) (hnd : fds.Nodup) (toRefresh : List Fd) :
    fd ∈ (broadcastAppend exceptFd data fds (w, toRefresh)).2 ↔
      fd ∈ toRefresh ∨ (fd ∈ fds ∧ fd ≠ exceptFd) ∧
        ∃ h, w.websocketHandlerMap fd = some h ∧ h.writeBuf = [] ∧ h.accepts data = true := by
  have hnil : data ≠ [] := fun he => hdata (by rw [he]; rfl)
  induction fds generalizing w toRefresh with
  | nil => simp [broadcastAppend]
  | cons cfd rest ih =>
      obtain ⟨hnotin, hrest⟩ := List.nodup_cons.1 hnd
      rw [broadcastAppend]
      by_cases hex : cfd = exceptFd
      · rw [if_pos hex]
        refine (ih hrest toRefresh).trans ?_
        by_cases hfd : fd = cfd
        · simp [hfd, hex]
        · simp [hfd]
      · rw [if_neg hex]
        cases hc : w.websocketHandlerMap cfd with
        | none =>
            dsimp only
            refine (ih hrest toRefresh).trans ?_
            by_cases hfd : fd = cfd
            · simp [hfd, hc, hnotin]
            · simp [hfd]
        | some h =>
            have hmap₁ := appendOutgoing_map false hc hdata
            have hcollect : (!h.writePending &&
                (w.appendOutgoing cfd data false).writePendingAt cfd) = true ↔
                h.writeBuf = [] ∧ h.accepts data = true := by
              rw [writePendingAt, hmap₁, Function.update_self]
              cases hacc : h.accepts data with
              | true => simp [writePending, offer, hacc, hnil]
              | false => simp [writePending, offer, hacc]
            dsimp only
            refine (ih hrest _).trans ?_
            rw [hmap₁]
            by_cases hfd : fd = cfd
            · by_cases hboth : h.writeBuf = [] ∧ h.accepts data = true
              · simp [hfd, hcollect, hboth, hc, hex]
              · simp [hfd, hcollect, hboth, hc, hnotin]
            · rw [Function.update_of_ne hfd]
              by_cases hboth : h.writeBuf = [] ∧ h.accepts data = true
              · simp [hfd, hcollect, hboth]
              · simp [hfd, hcollect, hboth]

/-- The second pass asks for a writable descriptor where there is output to write. -/
theorem foldl_updateHandlerEvents_interest
    (hfds : ∀ fd ∈ fds, fd ≠ w.listenfd ∧ ∃ h, w.websocketHandlerMap fd = some h ∧
      h.writeBuf ≠ []) :
    (fds.foldl updateHandlerEvents w).interest fd =
      if fd ∈ fds then (w.interest fd).map fun _ => epollIn ||| epollOut else w.interest fd := by
  induction fds generalizing w with
  | nil => rfl
  | cons cfd rest ih =>
      obtain ⟨⟨hne, h, hc, hwrite⟩, hrest⟩ := List.forall_mem_cons.1 hfds
      have hmask : h.eventMask = epollIn ||| epollOut := by simp [eventMask, writePending, hwrite]
      have hrest' : ∀ fd ∈ rest, fd ≠ (w.updateHandlerEvents cfd).listenfd ∧
          ∃ h, (w.updateHandlerEvents cfd).websocketHandlerMap fd = some h ∧ h.writeBuf ≠ [] := by
        simpa using hrest
      rw [List.foldl_cons, ih hrest', updateHandlerEvents_interest hc hne, hmask]
      by_cases hfd : fd = cfd
      · simp [hfd, Function.comp_def]
      · simp [hfd]

/-- **The batched broadcast offers the data to every other client**, and leaves the interest list up
to date. -/
theorem broadcastWsBinary_offered (hw : w.Broadcasts) (hdata : data.length ≠ 0) :
    Offered w data (w.wsClients.filter (· ≠ exceptFd)) (w.broadcastWsBinary exceptFd data) := by
  obtain ⟨hm, _, hp⟩ := broadcastWsBinary_spec w exceptFd hdata hw.own hw.nodup
  refine ⟨fun fd => ?_, fun fd => ?_, fun fd => ?_⟩
  · rw [hm fd]
    simp
  · have hnil : data ≠ [] := fun he => hdata (by rw [he]; rfl)
    have happend := (broadcastAppend_spec w exceptFd hdata hw.own hw.nodup []).1
    have hlistenfd := (broadcastAppend_frame exceptFd data w.wsClients (w, [])).1
    have hfds : ∀ fd ∈ (broadcastAppend exceptFd data w.wsClients (w, [])).2,
        fd ≠ (broadcastAppend exceptFd data w.wsClients (w, [])).1.listenfd ∧
          ∃ h, (broadcastAppend exceptFd data w.wsClients (w, [])).1.websocketHandlerMap fd =
            some h ∧
            h.writeBuf ≠ [] := by
      intro fd hfd
      obtain ⟨hmem, h, hh, _, hacc⟩ :=
        ((mem_broadcastAppend hdata hw.nodup []).1 hfd).resolve_left List.not_mem_nil
      refine ⟨?_, h.offer data, ?_, by simp [offer, hacc, hnil]⟩
      · rw [hlistenfd]
        rintro rfl
        exact hw.listener hmem.1
      · rw [happend fd, if_pos hmem, hh, Option.map_some]
    unfold broadcastWsBinary
    rw [if_neg hdata]
    dsimp only
    rw [foldl_updateHandlerEvents_interest hfds, broadcastAppend_interest]
    simp only [mem_broadcastAppend hdata hw.nodup]
    by_cases hmem : fd ∈ w.wsClients ∧ fd ≠ exceptFd
    · cases hfd : w.websocketHandlerMap fd with
      | none => simp
      | some h =>
          by_cases hacc : h.accepts data = true
          · by_cases hwrite : h.writeBuf = []
            · simp [hmem, hacc, hwrite]
            · -- its descriptor is waited for already
              have hlisten : fd ≠ w.listenfd := by
                rintro rfl
                exact hw.listener hmem.1
              simp [hmem, hacc, hwrite, hw.armed fd h hfd hlisten hwrite]
          · simp [hacc]
    · simp [hmem]
  · rw [hp fd]
    simp

/-- **So does the plain one**, in whatever order. -/
theorem plainBroadcast_offered (hw : w.Broadcasts) (hdata : data.length ≠ 0) {clients : List Fd}
    (hperm : clients.Perm w.wsClients) :
    Offered w data (w.wsClients.filter (· ≠ exceptFd))
      (w.plainBroadcast exceptFd data clients) := by
  have hmem (fd : Fd) : fd ∈ clients.filter (· ≠ exceptFd) ↔
      fd ∈ w.wsClients.filter (· ≠ exceptFd) := by
    simp [hperm.mem_iff]
  have hplain : Offered w data (clients.filter (· ≠ exceptFd))
      (w.plainBroadcast exceptFd data clients) :=
    foldl_appendOutgoing_offered hdata hw.own ((hperm.nodup_iff.2 hw.nodup).filter _)
      (fun hl => hw.listener (List.mem_of_mem_filter ((hmem _).1 hl)))
  obtain ⟨hm, hi, hp⟩ := hplain
  refine ⟨fun fd => ?_, fun fd => ?_, fun fd => ?_⟩
  · exact (hm fd).trans (by simp only [hmem])
  · exact (hi fd).trans (by simp only [hmem])
  · exact (hp fd).trans (by simp only [hmem])

/-- Two workers with the same closed form agree. -/
theorem Offered.agree {w₁ w₂ : NetworkInterface} (h₁ : w.Offered data fds w₁)
    (h₂ : w.Offered data fds w₂) : w₁.websocketHandlerMap = w₂.websocketHandlerMap ∧
      w₁.interest = w₂.interest ∧ ∀ fd, fd ∈ w₁.pendingCloses ↔ fd ∈ w₂.pendingCloses :=
  ⟨funext fun fd => (h₁.map fd).trans (h₂.map fd).symm,
    funext fun fd => (h₁.interest fd).trans (h₂.interest fd).symm,
    fun fd => (h₁.pending fd).trans (h₂.pending fd).symm⟩

theorem Broadcasts.permute (hw : w.Broadcasts) {order : List Fd} (hperm : order.Perm w.wsClients) :
    Broadcasts { w with wsClients := order } where
  own := hw.own
  nodup := hperm.nodup_iff.2 hw.nodup
  listener := fun hm => hw.listener (hperm.mem_iff.1 hm)
  armed := hw.armed

/-- **The batched broadcast and the plain one agree**, each in its own order of the clients. -/
theorem Broadcasts.agree (hw : w.Broadcasts) (exceptFd : Fd) (hdata : data.length ≠ 0)
    {order clients : List Fd} (horder : order.Perm w.wsClients)
    (hclients : clients.Perm w.wsClients) :
    let batched := broadcastWsBinary { w with wsClients := order } exceptFd data
    let plain := w.plainBroadcast exceptFd data clients
    batched.websocketHandlerMap = plain.websocketHandlerMap ∧ batched.interest = plain.interest ∧
      ∀ fd, fd ∈ batched.pendingCloses ↔ fd ∈ plain.pendingCloses := by
  have hplain : Offered w data (w.wsClients.filter (· ≠ exceptFd))
      (w.plainBroadcast exceptFd data clients) := plainBroadcast_offered hw hdata hclients
  have hbatched : Offered { w with wsClients := order } data (order.filter (· ≠ exceptFd))
      (broadcastWsBinary { w with wsClients := order } exceptFd data) :=
    broadcastWsBinary_offered (hw.permute horder) hdata
  obtain ⟨hm, hi, hp⟩ := hbatched
  have hmem (fd : Fd) : fd ∈ order.filter (· ≠ exceptFd) ↔
      fd ∈ w.wsClients.filter (· ≠ exceptFd) := by
    simp [horder.mem_iff]
  refine Offered.agree (w := w) ⟨fun fd => ?_, fun fd => ?_, fun fd => ?_⟩ hplain
  · exact (hm fd).trans (by simp only [hmem])
  · exact (hi fd).trans (by simp only [hmem])
  · exact (hp fd).trans (by simp only [hmem])

end NetworkInterface

/-! ### Every run -/

namespace Loop

variable {once : Prop} {s s' : Loop} {listenfd fd : Fd} {es : List EpollEvent}

theorem armed_of_coherent {w : NetworkInterface} (hc : w.Coherent fun _ => False) : w.Armed := by
  intro fd h hfd hne hwrite
  obtain ⟨mask, hmask, hm⟩ := hc fd h hfd hne
  rw [hmask, hm id, eventMask, if_pos (by simpa [writePending] using hwrite)]

/-- **Every step keeps the connections with output waited for**, also while one is being flushed. -/
theorem step_armed {i : Input} (hwf : s.WellFormed once) (hc : s.Coherent) (ha : s.worker.Armed)
    (hs : s.step i = some s') : s'.worker.Armed := by
  have hc' := step_coherent hwf hc hs
  -- only the descriptor that is being flushed may be waited for without need
  have hall (hpc : ∀ fd es, s'.pc ≠ .flushing fd es) : s'.worker.Armed := by
    refine armed_of_coherent (hc'.all fun fd hf => ?_)
    obtain ⟨es, hs⟩ := pc_of_phase_flushing hf
    exact hpc fd es hs
  cases step_branch hs with
  | rehash order _ => exact ha
  | dispatch ev es hpc =>
      unfold dispatch at hall ⊢
      split_ifs at hall ⊢
      · exact hall nofun
      · exact hall nofun
      · split at hall
        · exact hall nofun
        · exact hall nofun
      · split
        · exact ha
        · exact ha
      · exact hall nofun
  | readAgain fd es _ =>
      refine hall fun fd' es' he => ?_
      revert he
      unfold afterUpgrade
      split
      all_goals nofun
  | frames fd es _ =>
      refine hall fun fd' es' he => ?_
      revert he
      unfold afterUpgrade
      split
      all_goals nofun
  | sent fd es h n hpc hfd _ _ =>
      intro fd' g hg hne hwrite
      by_cases he : fd' = fd
      · -- what is left to write was there before
        subst he
        obtain rfl : { h with writeBuf := h.writeBuf.drop n } = g := by
          simpa using hg
        refine ha fd' h hfd hne fun hempty => hwrite ?_
        simp [hempty]
      · refine ha fd' g ?_ hne hwrite
        simpa [Function.update_of_ne he] using hg
  | _ => exact hall nofun

theorem armed {ok : Loop → Input → Prop} (hok : Promises ok once) (hr : Reachable ok listenfd s) :
    s.worker.Armed := by
  induction hr with
  | refl =>
      have hinit : (init listenfd).Coherent := coherent hok .refl
      exact armed_of_coherent (hinit.all fun fd => by simp [init, Pc.phase])
  | tail i hreach _ hs ih =>
      exact step_armed (reachable_wellFormed hok hreach) (coherent hok hreach) ih hs

/-- The workers a broadcast may be called on: those between two steps, and, while control is in the
frame loop, the one in which `handle_one_frame` makes the call. -/
inductive Calls (s : Loop) : NetworkInterface → Prop
  | between : Calls s s.worker
  | handling {fd : Fd} {es : List EpollEvent} {h : WebsocketHandler} {request : WebsocketRequest}
      {readBuf out : Bytes} (hpc : s.pc = .frames fd es)
      (hfd : s.worker.websocketHandlerMap fd = some h) (hs : h.status = .handsharked)
      (hframe : h.request.tryConsumeFrame h.readBuf = (.ok, request, readBuf))
      (hpack : WebsocketRespond.packData (some request.getMsg) request.getMsgLength.toNat
        websocketFinMsgEnd websocketTextData websocketNeedNotMask = some out) :
      Calls s (((s.worker.setHandler fd { h with request := request, readBuf := readBuf }).emit
        (.handled h.conn request.frame)).queueSend fd out)

/-- That is where a text frame is relayed. -/
theorem handleOneFrame_calls {h : WebsocketHandler} {request : WebsocketRequest}
    {readBuf out : Bytes} (hpc : s.pc = .frames fd es)
    (hfd : s.worker.websocketHandlerMap fd = some h) (hs : h.status = .handsharked)
    (hframe : h.request.tryConsumeFrame h.readBuf = (.ok, request, readBuf))
    (htext : request.getMsgOpcode = websocketTextData)
    (hpack : WebsocketRespond.packData (some request.getMsg) request.getMsgLength.toNat
      websocketFinMsgEnd websocketTextData websocketNeedNotMask = some out) :
    ∃ w, s.Calls w ∧
      ((s.worker.setHandler fd { h with request := request, readBuf := readBuf }).emit
        (.handled h.conn request.frame)).handleOneFrame fd = w.broadcastWsBinary h.fd out := by
  refine ⟨_, .handling hpc hfd hs hframe hpack, ?_⟩
  unfold NetworkInterface.handleOneFrame
  rw [NetworkInterface.emit_map, NetworkInterface.setHandler_map, Function.update_self]
  simp only [htext, if_true, hpack]

/-- **In every reachable state there is what a broadcast needs.** -/
theorem broadcasts (hr : Reachable AnyBatch listenfd s) {w : NetworkInterface} (hw : s.Calls w) :
    w.Broadcasts := by
  have hwf := reachable_wellFormed promises_anyBatch hr
  have hlistener : s.worker.listenfd ∉ s.worker.wsClients := by
    intro hm
    obtain ⟨h, hfd, hs⟩ := (hwf.worker.mem_wsClients _).1 hm
    obtain ⟨h', hh', hs'⟩ := hwf.worker.listener
    rw [hfd, Option.some.injEq] at hh'
    rw [hh', hs'] at hs
    cases hs
  cases hw with
  | between => exact ⟨hwf.worker.own, hwf.worker.nodup, hlistener, armed promises_anyBatch hr⟩
  | @handling fd es h request readBuf out hpc hfd _ _ _ =>
      have hall : s.worker.Coherent fun _ => False := by
        refine (coherent promises_anyBatch hr).all fun fd' => ?_
        rw [hpc, Pc.phase]
        split_ifs <;> simp
      have hown : ∀ fd' g, (s.worker.setHandler fd
          { h with request := request, readBuf := readBuf }).websocketHandlerMap fd' = some g →
            g.fd = fd' :=
        NetworkInterface.Coherent.own_setHandler hwf.worker.own (hwf.worker.own fd h hfd)
      have hset : NetworkInterface.Coherent (fun _ => False)
          (s.worker.setHandler fd { h with request := request, readBuf := readBuf }) :=
        hall.setHandler_same hfd rfl
      have hemit : NetworkInterface.Coherent (fun _ => False)
          ((s.worker.setHandler fd { h with request := request, readBuf := readBuf }).emit
            (.handled h.conn request.frame)) :=
        hset.of_eq rfl rfl rfl
      refine ⟨?_, ?_, ?_, armed_of_coherent (hemit.queueSend hown out)⟩
      · exact NetworkInterface.own_appendOutgoing true hown
      · simpa [NetworkInterface.queueSend] using hwf.worker.nodup
      · simpa [NetworkInterface.queueSend] using hlistener

end Loop

/-- **The batched broadcast equals the plain one.**  Called in any reachable state, for whichever
client is left out, it ends in the same handlers, interest list and set of descriptors to be closed
as `append_outgoing` with the update on one client after the other, whatever the orders in which the
two go through the clients. -/
theorem batched_eq_plain {listenfd : Fd} {s : Loop} (hr : Loop.Reachable Loop.AnyBatch listenfd s)
    {w : NetworkInterface} (hw : s.Calls w) (exceptFd : Fd) {data : Bytes} (hdata : data ≠ [])
    {order clients : List Fd} (horder : order.Perm w.wsClients)
    (hclients : clients.Perm w.wsClients) :
    let batched := NetworkInterface.broadcastWsBinary { w with wsClients := order } exceptFd data
    let plain := w.plainBroadcast exceptFd data clients
    batched.websocketHandlerMap = plain.websocketHandlerMap ∧ batched.interest = plain.interest ∧
      ∀ fd, fd ∈ batched.pendingCloses ↔ fd ∈ plain.pendingCloses :=
  (Loop.broadcasts hr hw).agree exceptFd (by simpa using hdata) horder hclients

/-- Two clients have been upgraded; one broadcasts a byte to the other. -/
theorem batched_eq_plain_pair : ∃ s, Loop.Reachable Loop.AnyBatch 3 s ∧
    (6 : Fd) ∈ s.worker.wsClients ∧
    (let batched := NetworkInterface.broadcastWsBinary
      { s.worker with wsClients := s.worker.wsClients.reverse } 5 [1]
    let plain := s.worker.plainBroadcast 5 [1] s.worker.wsClients
    batched.websocketHandlerMap = plain.websocketHandlerMap ∧ batched.interest = plain.interest ∧
      ∀ fd, fd ∈ batched.pendingCloses ↔ fd ∈ plain.pendingCloses) := by
  obtain ⟨s, response, hp, _⟩ := exists_pair
  obtain ⟨h, hfd, _, hs, _⟩ := hp.reader
  have hr := Loop.reachable_anyBatch hp.reachable
  have hclient : (6 : Fd) ∈ s.worker.wsClients :=
    ((Loop.reachable_wellFormed Loop.promises_anyBatch hr).worker.mem_wsClients 6).2 ⟨h, hfd, hs⟩
  exact ⟨s, hr, hclient, batched_eq_plain hr .between 5 (by decide) (List.reverse_perm _) (.refl _)⟩

end WebSocketDemo
