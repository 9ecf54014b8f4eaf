/-
**The end of the stream.**

A client may close its sending side right behind its last frames.  When `read` returns 0 in the
event in which those frames were read, the connection is queued for closing and `drive_io` is not
called; when it returns 0 in a later event, the frames have been handled before.  The two runs are
compared here, from any state in which an event of the connection is being read.

Main definitions:

* `HandlesRead` — every frame completely read since a state has been handled.

Main results:

* `dropped_of_feed`, `handled_eof_later_event` — what is handled in either case;
* `eof_loses_nothing_iff` — **nothing is lost exactly when no complete frame has been read**.
-/

import WebSocketDemo.Closing

set_option relaxedAutoImplicit false
set_option autoImplicit false

namespace WebSocketDemo

open PrefixDecoder Rfc6455

variable {once : Prop} {v v' : View} {g : List Frame} {a b : List Obs}

/-! ### Connections of which nothing is handled any more -/

/-- A queued connection that control has left is only offered what others send. -/
theorem Ending.step_idle (he : Ending v) (hi : v.phase = .idle) (h : ConnStep once v g a v') :
    Ending v' ∧ v'.phase = .idle ∧ handledFrames a = [] ∧ readBytes a = [] := by
  have hend := (he.step (b := []) h).1
  have hne {ph : Phase} (hp : v.phase = ph) (h₁ : ph ≠ .idle) : False := h₁ (hp.symm.trans hi)
  have hno (hu : v.upcoming = true) : False := by
    rw [he.upcoming] at hu
    cases hu
  refine ⟨hend, ?_, ?_⟩
  · refine hend.phase.resolve_right fun hf => ?_
    cases h with
    | quiet hm =>
        cases hm with
        | drive hp _ => exact hne hp nofun
        | batch u hp _ _ => exact hne hf nofun
        | stay => exact hne hf nofun
        | skip u _ hu _ => exact hno hu
        | hangup u _ hu _ => exact hno hu
        | _ => cases hf
    | upgrade headerMap rest hp _ _ _ => exact hne hp nofun
    | handle f rest request hp _ _ => exact hne hp nofun
    | received data hp _ _ _ => exact hne hp nofun
    | relay f _ _ _ => exact hne hf nofun
    | overheard f _ _ => exact hne hf nofun
    | sent n hp _ _ => exact hne hp nofun
    | _ => cases hf
  · cases h with
    | handle f rest request hp _ _ => exact (hne hp nofun).elim
    | received data hp _ _ _ => exact (hne hp nofun).elim
    | readRefused data hp _ _ _ => exact (hne hp nofun).elim
    | relay f _ _ _ => exact ⟨handledFrames_offerObs _ _ _, readBytes_offerObs _ _ _⟩
    | _ => exact ⟨rfl, rfl⟩

/-- The frames handled of such a connection are those handled so far, and nothing more is read. -/
theorem handled_of_ending {s t : Loop} {fd : Fd} {h : WebsocketHandler}
    (hwf : s.WellFormed True) (hfd : s.worker.websocketHandlerMap fd = some h)
    (he : Ending (s.view fd h)) (hi : (s.view fd h).phase = .idle)
    (hrun : Transition.Reaches Loop.step Loop.EpollContract s t) :
    handledFrames (about h.conn t.worker.trace) = handledFrames (about h.conn s.worker.trace) ∧
      readBytes (about h.conn t.worker.trace) = readBytes (about h.conn s.worker.trace) := by
  rcases Loop.conn_run
    (R := fun v a => Ending v ∧ v.phase = .idle ∧ handledFrames a = [] ∧ readBytes a = [])
    Loop.promises_epollContract hwf hfd ⟨he, hi, rfl, rfl⟩
    (fun v a g b v' hstep ⟨he, hi, hhandled, hread⟩ => by
      obtain ⟨he', hi', hhandled', hread'⟩ := he.step_idle hi hstep
      refine ⟨he', hi', ?_, ?_⟩
      · rw [handledFrames_append, hhandled, hhandled', List.append_nil]
      · rw [readBytes_append, hread, hread', List.append_nil]) hrun with
    ⟨_, a, _, _, habout, _, _, hhandled, hread⟩ |
      ⟨_, _, v, a, fd', _, ⟨_, _, hhandled, hread⟩, _, _, _, habout⟩
  · rw [habout, handledFrames_append, readBytes_append, hhandled, hread, List.append_nil,
      List.append_nil]
    exact ⟨rfl, rfl⟩
  · rw [habout]
    simp only [handledFrames_append, readBytes_append, hhandled, hread]
    exact ⟨List.append_nil _, List.append_nil _⟩

/-! ### The end of the stream in the event of the last bytes -/

section Runs

variable {s t u t' u' : Loop} {fd : Fd} {es : List EpollEvent} {h : WebsocketHandler}
  {ds : List Bytes}

/-- A connection that is being read. -/
theorem upcoming_of_reading {listenfd : Fd} (hr : Loop.Reachable Loop.EpollContract listenfd s)
    (hpc : s.pc = .reading fd es) (hfd : s.worker.websocketHandlerMap fd = some h) :
    fd ∉ es.map EpollEvent.fd := by
  have hd := Loop.dispatched hr hfd (by simp [Loop.view, hpc, Pc.phase])
  simpa [Loop.view, hpc, Pc.rest] using hd

/-- The connection is queued and left. -/
theorem ending_of_batch {w : NetworkInterface} (hmem : fd ∈ w.pendingCloses)
    (hes : fd ∉ es.map EpollEvent.fd) (h : WebsocketHandler) :
    Ending (Loop.view ⟨w, .batch es⟩ fd h) ∧ (Loop.view ⟨w, .batch es⟩ fd h).phase = .idle := by
  refine ⟨⟨by simpa [Loop.view] using hmem, ?_, Or.inl rfl⟩, rfl⟩
  simpa [Loop.view, Pc.rest] using hes

/-- All frames complete in `buf` followed by what `read` has returned since `s` are handled. -/
def HandlesRead (c : ℕ) (buf : Bytes) (s t : Loop) : Prop :=
  ∃ x, readBytes (about c t.worker.trace) = readBytes (about c s.worker.trace) ++ x ∧
    handledFrames (about c t.worker.trace) =
      handledFrames (about c s.worker.trace) ++ frameDecoder.items (buf ++ x)

/-- Reading is not handling. -/
theorem about_reads (c : ℕ) (ds : List Bytes) :
    handledFrames (about c (ds.map (Obs.received c))) = [] ∧
      readBytes (about c (ds.map (Obs.received c))) = ds.flatten := by
  induction ds with
  | nil => exact ⟨rfl, rfl⟩
  | cons d ds ih =>
      have hown : (Obs.received c d).conn = c := rfl
      rw [List.map_cons, about_cons, if_pos hown, List.flatten_cons, ← ih.2]
      exact ⟨ih.1, rfl⟩

/-- The state an `EPOLLIN` event leaves that ends with the connection queued: `x` is what was read,
and nothing was handled. -/
structure Dropped (s t : Loop) (fd : Fd) (es : List EpollEvent) (h : WebsocketHandler)
    (x : Bytes) : Prop where
  pc : t.pc = .batch es
  map : ∃ h', t.worker.websocketHandlerMap fd = some h' ∧ h'.conn = h.conn
  pending : fd ∈ t.worker.pendingCloses
  handled : handledFrames (about h.conn t.worker.trace) =
    handledFrames (about h.conn s.worker.trace)
  read : readBytes (about h.conn t.worker.trace) = readBytes (about h.conn s.worker.trace) ++ x

/-- Reading and then queueing the connection. -/
theorem dropped_of_reads (hwf : s.WellFormed once) (hpc : s.pc = .reading fd es)
    (hfd : s.worker.websocketHandlerMap fd = some h) (ds : List Bytes) {o : Obs}
    (hconn : o.conn = h.conn) (ho : handledFrames [o] = []) :
    Dropped s ⟨((s.reads fd h ds).worker.emit o).queueClose fd, .batch es⟩ fd es h
      (ds.flatten ++ readBytes [o]) := by
  have hne := (hwf.pc.current fd (by rw [hpc]; rfl)).1
  have hlast : about h.conn [o] = [o] := by rw [about_cons, if_pos hconn]; rfl
  obtain ⟨hnone, hbytes⟩ := about_reads h.conn ds
  refine ⟨rfl, ⟨{ h with readBuf := h.readBuf ++ ds.flatten }, by simp [Loop.reads], rfl⟩, ?_, ?_,
    ?_⟩
  · exact (NetworkInterface.mem_queueClose _ _).2 (Or.inr ⟨rfl, hwf.worker.nonneg fd h hfd hne⟩)
  · simp only [NetworkInterface.queueClose_trace, NetworkInterface.emit_trace, Loop.reads,
      about_append, handledFrames_append, hnone, hlast, ho, List.append_nil]
  · simp only [NetworkInterface.queueClose_trace, NetworkInterface.emit_trace, Loop.reads,
      about_append, readBytes_append, hbytes, hlast, List.append_assoc]

/-- **Of an event that ends with the end of the stream, or with more than the buffer holds, nothing
is handled.**  Either all its bytes were read, or more than any frame can fill. -/
theorem dropped_of_feed {last : Input} (hwf : s.WellFormed once) (hpc : s.pc = .reading fd es)
    (hfd : s.worker.websocketHandlerMap fd = some h) (hread : h.readBuf.length ≤ wsMaxReadBuffer)
    (hds : ∀ d ∈ ds, Loop.IsChunk d)
    (hlast : last = .readEof ∨ wsMaxReadBuffer < h.readBuf.length + ds.flatten.length)
    (ht : s.feed ds last = some t) :
    ∃ x, Dropped s t fd es h x ∧
      (frameDecoder.items (h.readBuf ++ ds.flatten) = [] ↔
        frameDecoder.items (h.readBuf ++ x) = []) := by
  rcases Nat.lt_or_ge wsMaxReadBuffer (h.readBuf.length + ds.flatten.length) with hcap | hcap
  · obtain ⟨ds₁, d, ⟨ds₂, rfl⟩, hlen, hfeed⟩ := Loop.feed_overflow last hpc hfd hds hread hcap
    rw [hfeed, Option.some.injEq] at ht
    subst ht
    refine ⟨_, dropped_of_reads hwf hpc hfd ds₁ rfl rfl, ?_⟩
    have hbytes : readBytes [Obs.readRefused h.conn d] = d := List.append_nil d
    have hsplit : h.readBuf ++ (ds₁ ++ [d] ++ ds₂).flatten =
        h.readBuf ++ (ds₁.flatten ++ d) ++ ds₂.flatten := by simp
    rw [hbytes, hsplit]
    refine items_append_eq_nil_iff _ ?_
    have hmax : 14 + wsMaxPayloadBytes ≤ wsMaxReadBuffer := by decide
    simp only [List.length_append, List.flatten_append, List.flatten_singleton] at hlen ⊢
    omega
  · obtain rfl := hlast.resolve_right (Nat.not_lt.2 hcap)
    rw [Loop.feed_fits .readEof hpc hfd hds hcap] at ht
    simp only [Loop.step, Loop.reads, hpc, Loop.eofStep, Function.update_self,
      Option.some.injEq] at ht
    subst ht
    have hdrop := dropped_of_reads hwf hpc hfd ds (o := .eof h.conn) rfl rfl
    have hnone : readBytes [Obs.eof h.conn] = [] := rfl
    rw [hnone, List.append_nil] at hdrop
    exact ⟨ds.flatten, by simpa [Loop.reads] using hdrop, Iff.rfl⟩

/-- Nothing more is read or handled of a connection that an event has queued. -/
theorem Dropped.of_reaches {listenfd : Fd} {x : Bytes}
    (hr : Loop.Reachable Loop.EpollContract listenfd s) (hpc : s.pc = .reading fd es)
    (hfd : s.worker.websocketHandlerMap fd = some h) (hd : Dropped s t fd es h x)
    (hst : Transition.Reaches Loop.step Loop.EpollContract s t)
    (ht' : Transition.Reaches Loop.step Loop.EpollContract t t') :
    handledFrames (about h.conn t'.worker.trace) = handledFrames (about h.conn s.worker.trace) ∧
      readBytes (about h.conn t'.worker.trace) =
        readBytes (about h.conn s.worker.trace) ++ x := by
  obtain ⟨w, pc⟩ := t
  obtain ⟨rfl, ⟨h', hfd', hconn⟩, hpend, hhandled, hread⟩ := hd
  have hwf := Loop.reaches_wellFormed Loop.promises_epollContract
    (Loop.reachable_wellFormed Loop.promises_epollContract hr) hst
  obtain ⟨hend, hidle⟩ := ending_of_batch hpend (upcoming_of_reading hr hpc hfd) h'
  rw [← hhandled, ← hread, ← hconn]
  exact handled_of_ending hwf hfd' hend hidle ht'

/-- **What is read in such an event is not handled**, then or later: it is lost unless no frame is
complete in it. -/
theorem handlesRead_of_dropped {listenfd : Fd} {last : Input}
    (hr : Loop.Reachable Loop.EpollContract listenfd s) (hpc : s.pc = .reading fd es)
    (hfd : s.worker.websocketHandlerMap fd = some h) (hds : ∀ d ∈ ds, Loop.IsChunk d)
    (hlast : last = .readEof ∨ wsMaxReadBuffer < h.readBuf.length + ds.flatten.length)
    (hok : last = .readEof ∨ last = .readAgain) (ht : s.feed ds last = some t)
    (ht' : Transition.Reaches Loop.step Loop.EpollContract t t') :
    handledFrames (about h.conn t'.worker.trace) = handledFrames (about h.conn s.worker.trace) ∧
      (HandlesRead h.conn h.readBuf s t' ↔ frameDecoder.items (h.readBuf ++ ds.flatten) = []) := by
  have hwf := Loop.reachable_wellFormed Loop.promises_epollContract hr
  have hread := (Loop.bounded Loop.promises_epollContract hr hfd).1
  obtain ⟨x, hd, hitems⟩ := dropped_of_feed hwf hpc hfd hread hds hlast ht
  have hcontract : ∀ s, Loop.EpollContract s last := by
    rcases hok with rfl | rfl
    · exact fun _ => trivial
    · exact fun _ => trivial
  obtain ⟨hhandled, hbytes⟩ :=
    hd.of_reaches hr hpc hfd (Loop.reaches_of_feed (fun _ _ => trivial) hcontract ht) ht'
  refine ⟨hhandled, ?_⟩
  rw [hitems]
  constructor
  · rintro ⟨y, hy, hall⟩
    obtain rfl : x = y := List.append_cancel_left (hbytes.symm.trans hy)
    rw [hhandled, List.self_eq_append_right] at hall
    exact hall
  · intro hnone
    exact ⟨x, hbytes, by rw [hhandled, hnone, List.append_nil]⟩

/-! ### The end of the stream in a later event -/

/-- The frame loop at work on the buffer `buf`, as long as nothing more is read: the frames handled
and those still in the buffer are those `buf` holds. -/
structure Drives (buf : Bytes) (v : View) (a : List Obs) : Prop where
  status : v.handler.status = .handsharked
  quiet : readBytes a = [] →
    handledFrames a ++ frameDecoder.items v.handler.readBuf = frameDecoder.items buf ∧
      (v.phase ≠ .frames → frameDecoder.Stuck v.handler.readBuf)

theorem Drives.step {buf : Bytes} (hd : Drives buf v a) (h : ConnStep once v g b v') :
    Drives buf v' (a ++ b) := by
  obtain ⟨hs, hquiet⟩ := hd
  -- a step in which nothing is read and no frame handled
  have hsilent (hnone : handledFrames b = []) (hrec : readBytes b = [])
      (hstatus : v'.handler.status = v.handler.status)
      (hread : v'.handler.readBuf = v.handler.readBuf)
      (hphase : v'.phase ≠ .frames → v.phase ≠ .frames ∨ frameDecoder.Stuck v.handler.readBuf) :
      Drives buf v' (a ++ b) := by
    refine ⟨hstatus.trans hs, ?_⟩
    intro hr
    rw [readBytes_append, hrec, List.append_nil] at hr
    obtain ⟨hitems, hstuck⟩ := hquiet hr
    rw [handledFrames_append, hnone, List.append_nil, hread]
    exact ⟨hitems, fun hp => (hphase hp).elim hstuck id⟩
  -- a step in which something is read
  have hreads {data : Bytes} {q : Prop} (h0 : data.length ≠ 0) (hb : readBytes b = data)
      (hr : readBytes (a ++ b) = []) : q := by
    rw [readBytes_append, hb] at hr
    exact absurd (congrArg List.length (List.append_eq_nil_iff.1 hr).2) h0
  have hno {q : Prop} (hu : v.handler.status = .unconnect) : q := by
    rw [hs] at hu
    cases hu
  have hleave {ph : Phase} {q : Prop} (hp : v.phase = ph) (hne : ph ≠ .frames) :
      v.phase ≠ .frames ∨ q := Or.inl (by rw [hp]; exact hne)
  cases h with
  | quiet hm =>
      have hh := hm.handler
      refine hsilent rfl rfl (by rw [hh]) (by rw [hh]) ?_
      intro hp
      cases hm with
      | stay => exact Or.inl hp
      | batch u hi _ _ => exact hleave hi nofun
      | skip u hi _ _ => exact hleave hi nofun
      | hangup u hi _ _ => exact hleave hi nofun
      | writable u hi _ _ => exact hleave hi nofun
      | readError hi => exact hleave hi nofun
      | wait hi _ _ => exact hleave hi nofun
      | drive hi _ => exact absurd rfl hp
      | flushed hi => exact hleave hi nofun
      | sendError hi => exact hleave hi nofun
  | readable u hi _ _ => exact hsilent rfl rfl rfl rfl (fun _ => hleave hi nofun)
  | received data _ h0 _ _ => exact ⟨hs, hreads h0 (List.append_nil data)⟩
  | readRefused data _ h0 _ _ => exact ⟨hs, hreads h0 (List.append_nil data)⟩
  | eof hi => exact hsilent rfl rfl rfl rfl (fun _ => hleave hi nofun)
  | reject readBuf headerMap _ hu _ => exact hno hu
  | upgrade headerMap rest _ hu _ _ => exact hno hu
  | more request _ _ hspec =>
      exact hsilent rfl rfl rfl rfl (fun _ => Or.inr (stuck_of_more hspec))
  | bad request _ _ hspec =>
      exact hsilent rfl rfl rfl rfl (fun _ => Or.inr (stuck_of_bad hspec))
  | handle f rest request hf _ hspec =>
      refine ⟨by simpa using hs, ?_⟩
      intro hr
      rw [readBytes_append] at hr
      obtain ⟨hitems, _⟩ := hquiet (List.append_eq_nil_iff.1 hr).1
      rw [handledFrames_append, handledFrames_handled, List.append_assoc]
      have hfirst : frameDecoder.items v.handler.readBuf = f :: frameDecoder.items rest :=
        Decoder.items_of_item hspec
      rw [hfirst] at hitems
      exact ⟨hitems, fun hp => absurd hf hp⟩
  | relay f hi _ _ =>
      refine hsilent (handledFrames_offerObs _ _ _) ?_ (by simp) (by simp)
        (fun _ => hleave hi nofun)
      cases relay f <;> rfl
  | overheard f hi hu => exact hno hu
  | sent n hi _ _ => exact hsilent rfl rfl rfl rfl (fun _ => hleave hi nofun)

/-- **What is read in an event that ends without the end of the stream is handled** before the frame
loop is left, whenever the stream ends afterwards. -/
theorem handled_eof_later_event {listenfd : Fd} (hr : Loop.Reachable Loop.EpollContract listenfd s)
    (hpc : s.pc = .reading fd es) (hfd : s.worker.websocketHandlerMap fd = some h)
    (hs : h.status = .handsharked) (hds : ∀ d ∈ ds, Loop.IsChunk d)
    (hcap : h.readBuf.length + ds.flatten.length ≤ wsMaxReadBuffer)
    (hu : s.feed ds .readAgain = some u)
    (hu' : Transition.Reaches Loop.step Loop.EpollContract u u')
    (hquiet : readBytes (about h.conn u'.worker.trace) = readBytes (about h.conn u.worker.trace))
    (hleft : ∀ h', u'.worker.websocketHandlerMap fd = some h' → h'.conn = h.conn →
      u'.pc.phase fd ≠ .frames) :
    readBytes (about h.conn u'.worker.trace) =
        readBytes (about h.conn s.worker.trace) ++ ds.flatten ∧
      handledFrames (about h.conn u'.worker.trace) =
        handledFrames (about h.conn s.worker.trace) ++
          frameDecoder.items (h.readBuf ++ ds.flatten) := by
  have hok := Loop.promises_epollContract
  have hwf := Loop.reachable_wellFormed hok hr
  have hwfu := Loop.reaches_wellFormed hok hwf (Loop.reaches_of_feed (fun _ _ => trivial)
      (show ∀ s, Loop.EpollContract s .readAgain from fun _ => trivial) hu)
  -- control is at the frame loop
  rw [Loop.feed_fits .readAgain hpc hfd hds hcap] at hu
  set h₁ : WebsocketHandler := { h with readBuf := h.readBuf ++ ds.flatten } with hh₁
  have hmap : (s.reads fd h ds).worker.websocketHandlerMap fd = some h₁ := Loop.reads_map ds
  have hstep : (s.reads fd h ds).step .readAgain =
      some ⟨(s.reads fd h ds).worker, .frames fd es⟩ := by
    have hdrive := NetworkInterface.driveIoUpgrade_handsharked hmap hs
    simp only [Loop.step, show (s.reads fd h ds).pc = .reading fd es from hpc, hdrive,
      Loop.afterUpgrade]
  rw [hstep, Option.some.injEq] at hu
  subst hu
  obtain ⟨hnone, hbytes⟩ := about_reads h.conn ds
  have hbefore : handledFrames (about h.conn (s.reads fd h ds).worker.trace) =
      handledFrames (about h.conn s.worker.trace) := by
    simp only [Loop.reads, about_append, handledFrames_append, hnone, List.append_nil]
  have hread : readBytes (about h.conn (s.reads fd h ds).worker.trace) =
      readBytes (about h.conn s.worker.trace) ++ ds.flatten := by
    simp only [Loop.reads, about_append, readBytes_append, hbytes]
  refine ⟨hquiet.trans hread, ?_⟩
  have hfirst : Drives h₁.readBuf (Loop.view ⟨(s.reads fd h ds).worker, .frames fd es⟩ fd h₁) [] :=
    ⟨hs, fun _ => ⟨rfl, fun hp => absurd (by simp [Loop.view, Pc.phase]) hp⟩⟩
  -- the rest of the run
  have hdone {v : View} {a : List Obs} (hd : Drives h₁.readBuf v a) (ha : readBytes a = [])
      (hp : v.phase ≠ .frames) : handledFrames a = frameDecoder.items h₁.readBuf := by
    obtain ⟨hitems, hstuck⟩ := hd.quiet ha
    rw [Decoder.items_of_stuck (hstuck hp), List.append_nil] at hitems
    exact hitems
  rcases Loop.conn_run (R := Drives h₁.readBuf) hok hwfu hmap hfirst
    (fun v a g b v' hstep hd => hd.step hstep) hu' with
    ⟨h', a, hfd', hconn, habout, hd⟩ | ⟨_, _, v, a, fd', _, hd, hp, _, _, habout⟩
  · have ha : readBytes a = [] := by
      rw [show h.conn = h₁.conn from rfl, habout, readBytes_append] at hquiet
      simpa using hquiet
    rw [show h.conn = h₁.conn from rfl, habout, handledFrames_append,
      hdone hd ha (hleft h' hfd' hconn)]
    exact congrArg (· ++ _) hbefore
  · have ha : readBytes a = [] := by
      rw [show h.conn = h₁.conn from rfl, habout, readBytes_append, readBytes_append] at hquiet
      exact (by simpa using hquiet : readBytes a = [] ∧ _).1
    have hnothing : handledFrames [Obs.closed h₁.conn fd'] = [] := rfl
    rw [show h.conn = h₁.conn from rfl, habout, handledFrames_append, handledFrames_append,
      hnothing, List.append_nil, hdone hd ha (by rw [hp]; decide)]
    exact congrArg (· ++ _) hbefore

/-- **The end of the stream, in the event of the last bytes or in a later one.**  From a state in
which an event of an upgraded connection is read, the same bytes arrive (in chunks `ds` or `ds'`);
in one run the stream ends behind them in the same event, in the other it does not.  In both every
frame completely read is handled, and the same text frames are, exactly when no frame of any kind is
complete in `read_buf_` followed by the bytes. -/
theorem eof_loses_nothing_iff {listenfd : Fd} {ds' : List Bytes}
    (hr : Loop.Reachable Loop.EpollContract listenfd s) (hpc : s.pc = .reading fd es)
    (hfd : s.worker.websocketHandlerMap fd = some h) (hs : h.status = .handsharked)
    (hds : ∀ d ∈ ds, Loop.IsChunk d) (hds' : ∀ d ∈ ds', Loop.IsChunk d)
    (hbytes : ds.flatten = ds'.flatten)
    (ht : s.feed ds .readEof = some t)
    (ht' : Transition.Reaches Loop.step Loop.EpollContract t t')
    (hu : s.feed ds' .readAgain = some u)
    (hu' : Transition.Reaches Loop.step Loop.EpollContract u u')
    (hquiet : readBytes (about h.conn u'.worker.trace) = readBytes (about h.conn u.worker.trace))
    (hleft : ∀ h', u'.worker.websocketHandlerMap fd = some h' → h'.conn = h.conn →
      u'.pc.phase fd ≠ .frames) :
    (handledTexts (about h.conn t'.worker.trace) = handledTexts (about h.conn u'.worker.trace) ∧
        HandlesRead h.conn h.readBuf s t' ∧ HandlesRead h.conn h.readBuf s u') ↔
      frameDecoder.items (h.readBuf ++ ds.flatten) = [] := by
  obtain ⟨hlost, hlostIff⟩ :=
    handlesRead_of_dropped hr hpc hfd hds (Or.inl rfl) (Or.inl rfl) ht ht'
  rcases Nat.lt_or_ge wsMaxReadBuffer (h.readBuf.length + ds.flatten.length) with hcap | hcap
  · -- neither run gets to the end of the stream
    obtain ⟨hlost', hlostIff'⟩ := handlesRead_of_dropped hr hpc hfd hds'
      (Or.inr (by rwa [← hbytes])) (Or.inr rfl) hu hu'
    rw [handledTexts, handledTexts, hlost, hlost', hlostIff, hlostIff', hbytes]
    exact ⟨fun hall => hall.2.1, fun hnone => ⟨rfl, hnone, hnone⟩⟩
  · obtain ⟨hread, hall⟩ :=
      handled_eof_later_event hr hpc hfd hs hds' (by rwa [← hbytes]) hu hu' hquiet hleft
    constructor
    · exact fun hboth => hlostIff.1 hboth.2.1
    · intro hnone
      refine ⟨?_, hlostIff.2 hnone, ds'.flatten, hread, hall⟩
      rw [handledTexts, handledTexts, hlost, hall, ← hbytes, hnone, List.append_nil]

end Runs

/-! ### Two runs -/

/-- Whether `read` has returned 0. -/
def streamEnded (a : List Obs) : Bool :=
  a.any fun
    | .eof _ => true
    | _ => false

/-- A client that says "hi", which is read at once in one run and in two parts in the other. -/
theorem eof_loses_nothing_iff_hi : ∃ s t u u' h, Loop.Reachable Loop.EpollContract 3 s ∧
    s.pc = .reading 5 [] ∧ s.worker.websocketHandlerMap 5 = some h ∧
    s.feed [hiFrame.encode] .readEof = some t ∧
    s.feed [hiFrame.encode.take 3, hiFrame.encode.drop 3] .readAgain = some u ∧
    Transition.Reaches Loop.step Loop.EpollContract u u' ∧
    ((handledTexts (about h.conn t.worker.trace) = handledTexts (about h.conn u'.worker.trace) ∧
        HandlesRead h.conn h.readBuf s t ∧ HandlesRead h.conn h.readBuf s u') ↔
      frameDecoder.items (h.readBuf ++ [hiFrame.encode].flatten) = []) := by
  have hrun : (((Loop.init 3).exec (session [5] ++ [.epollWait [⟨5, epollIn⟩], .tau])).bind fun s =>
      (s.feed [hiFrame.encode] .readEof).bind fun t =>
      (s.feed [hiFrame.encode.take 3, hiFrame.encode.drop 3] .readAgain).bind fun u =>
      (u.exec [.tau, .tau]).map fun u' =>
        (s.pc, u'.pc, (s.worker.websocketHandlerMap 5).map fun h => (h.conn, h.status),
          decide (readBytes (about 1 u'.worker.trace) = readBytes (about 1 u.worker.trace)))) =
      some (.reading 5 [], .batch [], some (1, .handsharked), true) := by
    decide +kernel
  obtain ⟨s, hs, hrun⟩ := Option.bind_eq_some_iff.1 hrun
  obtain ⟨t, ht, hrun⟩ := Option.bind_eq_some_iff.1 hrun
  obtain ⟨u, hu, hrun⟩ := Option.bind_eq_some_iff.1 hrun
  obtain ⟨u', hu', hfacts⟩ := Option.map_eq_some_iff.1 hrun
  injection hfacts with hpc hfacts
  injection hfacts with hpc' hfacts
  injection hfacts with hmap hquiet
  obtain ⟨h, hfd, hh⟩ := Option.map_eq_some_iff.1 hmap
  injection hh with hconn hstatus
  refine ⟨s, t, u, u', h, Transition.reaches_of_runOk hs, hpc, hfd, ht, hu,
    Transition.reaches_of_runOk hu', ?_⟩
  refine eof_loses_nothing_iff (Transition.reaches_of_runOk hs) hpc hfd hstatus ?_ ?_ (by decide) ht
    Transition.Reaches.refl hu (Transition.reaches_of_runOk hu') ?_ ?_
  · unfold Loop.IsChunk
    decide +kernel
  · unfold Loop.IsChunk
    decide +kernel
  · rw [hconn]
    exact of_decide_eq_true hquiet
  · intro h' _ _
    rw [hpc']
    decide

/-- **"hi" is lost when the stream ends in the event in which it is read.**  The same bytes are read
in both runs, the stream ends in both and the connection is closed; the other client is sent "hi" in
one of them only. -/
theorem hi_lost_at_eof : ∃ s t u, Loop.Reachable Loop.EpollContract 3 s ∧ s.pc = .reading 5 [] ∧
    Transition.Reaches Loop.step Loop.EpollContract s t ∧
    Transition.Reaches Loop.step Loop.EpollContract s u ∧
    receivedBytes (about 1 t.worker.trace) = receivedBytes (about 1 u.worker.trace) ∧
    streamEnded (about 1 t.worker.trace) = true ∧ streamEnded (about 1 u.worker.trace) = true ∧
    t.worker.websocketHandlerMap 5 = none ∧ u.worker.websocketHandlerMap 5 = none ∧
    handledTexts (about 1 t.worker.trace) = [] ∧
    handledTexts (about 1 u.worker.trace) = [⟨1, websocketTextData, ascii "hi"⟩] ∧
    (offers (about 2 t.worker.trace)).tail = [] ∧
    (offers (about 2 u.worker.trace)).tail =
      [⟨(serverFrame opText (ascii "hi")).encode, false, true⟩] := by
  have hrun : (((Loop.init 3).exec (session [5, 6] ++ [.epollWait [⟨5, epollIn⟩], .tau])).bind
      fun s =>
      (s.exec [.read hiFrame.encode, .readEof, .tau]).bind fun t =>
      (s.exec [.read hiFrame.encode, .readAgain, .tau, .tau, .tau, .epollWait [⟨5, epollIn⟩], .tau,
        .readEof, .tau]).map fun u =>
        decide (s.pc = .reading 5 [] ∧
          receivedBytes (about 1 t.worker.trace) = receivedBytes (about 1 u.worker.trace) ∧
          streamEnded (about 1 t.worker.trace) = true ∧
          streamEnded (about 1 u.worker.trace) = true ∧
          (t.worker.websocketHandlerMap 5).isNone ∧ (u.worker.websocketHandlerMap 5).isNone ∧
          handledTexts (about 1 t.worker.trace) = [] ∧
          handledTexts (about 1 u.worker.trace) = [⟨1, websocketTextData, ascii "hi"⟩] ∧
          (offers (about 2 t.worker.trace)).tail = [] ∧
          (offers (about 2 u.worker.trace)).tail =
            [⟨(serverFrame opText (ascii "hi")).encode, false, true⟩])) = some true := by
    decide +kernel
  obtain ⟨s, hs, hrun⟩ := Option.bind_eq_some_iff.1 hrun
  obtain ⟨t, ht, hrun⟩ := Option.bind_eq_some_iff.1 hrun
  obtain ⟨u, hu, hfacts⟩ := Option.map_eq_some_iff.1 hrun
  simp only [decide_eq_true_eq, Option.isNone_iff_eq_none] at hfacts
  obtain ⟨hpc, hbytes, hendt, hendu, hnt, hnu, htt, htu, hot, hou⟩ := hfacts
  exact ⟨s, t, u, Transition.reaches_of_runOk hs, hpc, Transition.reaches_of_runOk ht,
    Transition.reaches_of_runOk hu, hbytes, hendt, hendu, hnt, hnu, htt, htu, hot, hou⟩

end WebSocketDemo
