/-
**The life of one connection.**

A run of the worker is projected to one connection: its handler, what control is doing with it,
whether it is queued for closing and whether an event of it is still to come in the batch.
`ConnStep` is what one step of the worker can do to that view; every property of a connection is
proved by induction over these steps alone, whatever the other connections do.

Main definitions:

* `View`, `Moves`, `ConnStep` — a connection and its steps.

Main results:

* `Loop.turn_conn` — **every step of the worker is a step of each connection, or closes it**;
* `Loop.conn_induction_between` — **the induction rule for live connections**;
* `Loop.conn_history_between` — the same carried over the close;
* `Loop.conn_run` — the same from a state on.
-/

import WebSocketDemo.History

set_option relaxedAutoImplicit false
set_option autoImplicit false

namespace WebSocketDemo

open PrefixDecoder

/-! ### One connection -/

/-- What control is doing with a connection. -/
inductive Phase
  | idle
  | reading
  | frames
  | flushing
  deriving DecidableEq, Repr

/-- What control is doing with the connection on `fd`. -/
def Pc.phase (fd : Fd) : Pc → Phase
  | reading fd' _ => if fd' = fd then .reading else .idle
  | frames fd' _ => if fd' = fd then .frames else .idle
  | flushing fd' _ => if fd' = fd then .flushing else .idle
  | _ => .idle

/-- A connection: `pending` says that it is queued for closing, `upcoming` that the batch holds an
event for it that is still to be dispatched. -/
structure View where
  handler : WebsocketHandler
  phase : Phase
  pending : Bool
  upcoming : Bool

/-- The connection on `fd`. -/
def Loop.view (s : Loop) (fd : Fd) (h : WebsocketHandler) : View where
  handler := h
  phase := s.pc.phase fd
  pending := decide (fd ∈ s.worker.pendingCloses)
  upcoming := decide (fd ∈ s.pc.rest.map EpollEvent.fd)

/-- Whether an offer that may not be made is refused. -/
def WebsocketHandler.refuses (h : WebsocketHandler) (data : Option Bytes) : Bool :=
  data.any fun data => !h.accepts data

/-- Steps that leave the handler as it is and are not observed.  Where descriptors are reported once
(`once`), no event of the connection is left when one is dispatched. -/
inductive Moves (once : Prop) : View → View → Prop
  | stay (v : View) : Moves once v v
  | batch {v : View} (u : Bool) : v.phase = .idle → v.pending = false → v.upcoming = false →
      Moves once v { v with upcoming := u }
  | skip {v : View} (u : Bool) : v.phase = .idle → v.upcoming = true → (once → u = false) →
      Moves once v { v with upcoming := u }
  | hangup {v : View} (u : Bool) : v.phase = .idle → v.upcoming = true → (once → u = false) →
      Moves once v { v with pending := true, upcoming := u }
  | writable {v : View} (u : Bool) : v.phase = .idle → v.upcoming = true → (once → u = false) →
      Moves once v { v with phase := .flushing, upcoming := u }
  | readError {v : View} : v.phase = .reading →
      Moves once v { v with phase := .idle, pending := true }
  | wait {v : View} : v.phase = .reading → v.handler.status = .unconnect →
      v.handler.upgrade = .wait → Moves once v { v with phase := .idle }
  | drive {v : View} : v.phase = .reading → v.handler.status = .handsharked →
      Moves once v { v with phase := .frames }
  | flushed {v : View} : v.phase = .flushing → Moves once v { v with phase := .idle }
  | sendError {v : View} : v.phase = .flushing →
      Moves once v { v with phase := .idle, pending := true }

/-- **A step of a connection**, with the text frames the worker handles in it and the operations
observed at the connection. -/
inductive ConnStep (once : Prop) : View → List Frame → List Obs → View → Prop
  | quiet {v v' : View} : Moves once v v' → ConnStep once v [] [] v'
  | readable {v : View} (u : Bool) : v.phase = .idle → v.upcoming = true → (once → u = false) →
      ConnStep once v [] [.readable v.handler.conn] { v with phase := .reading, upcoming := u }
  | received {v : View} (data : Bytes) : v.phase = .reading → data.length ≠ 0 →
      data.length ≤ readChunk → v.handler.readBuf.length + data.length ≤ wsMaxReadBuffer →
      ConnStep once v [] [.received v.handler.conn data]
        { v with handler := { v.handler with readBuf := v.handler.readBuf ++ data } }
  | readRefused {v : View} (data : Bytes) : v.phase = .reading → data.length ≠ 0 →
      data.length ≤ readChunk → wsMaxReadBuffer < v.handler.readBuf.length + data.length →
      ConnStep once v [] [.readRefused v.handler.conn data]
        { v with phase := .idle, pending := true }
  | eof {v : View} : v.phase = .reading →
      ConnStep once v [] [.eof v.handler.conn] { v with phase := .idle, pending := true }
  | reject {v : View} (readBuf : Bytes) (headerMap : HeaderMap) : v.phase = .reading →
      v.handler.status = .unconnect → v.handler.upgrade = .reject readBuf headerMap →
      ConnStep once v [] [.rejected v.handler.conn]
        { v with
          handler := { v.handler with readBuf := readBuf, headerMap := headerMap }
          phase := .idle, pending := true }
  | upgrade {v : View} (headerMap : HeaderMap) (rest : Bytes) : v.phase = .reading →
      v.handler.status = .unconnect → v.handler.writeBuf = [] →
      v.handler.upgrade = .accept headerMap rest →
      ConnStep once v []
        [.upgraded v.handler.conn headerMap rest,
          .offered v.handler.conn (parseStr headerMap).2 true true, .registered v.handler.conn]
        { v with handler := v.handler.upgraded headerMap rest, phase := .frames }
  | more {v : View} (request : WebsocketRequest) : v.phase = .frames →
      v.handler.status = .handsharked → frameSpec v.handler.readBuf = .more →
      ConnStep once v [] []
        { v with handler := { v.handler with request := request }, phase := .idle }
  | bad {v : View} (request : WebsocketRequest) : v.phase = .frames →
      v.handler.status = .handsharked → frameSpec v.handler.readBuf = .bad →
      ConnStep once v [] [.parseError v.handler.conn]
        { v with handler := { v.handler with request := request }, phase := .idle, pending := true }
  | handle {v : View} (f : Frame) (rest : Bytes) (request : WebsocketRequest) :
      v.phase = .frames → v.handler.status = .handsharked →
      frameSpec v.handler.readBuf = .item f rest →
      ConnStep once v (textOf f)
        (.handled v.handler.conn f :: offerObs v.handler true (reply f))
        { v with
          handler :=
            { v.handler.offerOption (reply f) with request := request, readBuf := rest }
          pending := v.pending || decide (f.opcode = websocketConnectClose) ||
            v.handler.refuses (reply f) }
  | relay {v : View} (f : Frame) : v.phase = .idle → v.handler.status = .handsharked →
      f.payload.length ≤ wsMaxPayloadBytes →
      ConnStep once v (textOf f) (offerObs v.handler false (relay f))
        { v with
          handler := v.handler.offerOption (relay f)
          pending := v.pending || v.handler.refuses (relay f) }
  | overheard {v : View} (f : Frame) : v.phase = .idle → v.handler.status = .unconnect →
      ConnStep once v (textOf f) [] v
  | sent {v : View} (n : ℕ) : v.phase = .flushing → n ≠ 0 → n ≤ v.handler.writeBuf.length →
      ConnStep once v [] [.sent v.handler.conn (v.handler.writeBuf.take n)]
        { v with handler := { v.handler with writeBuf := v.handler.writeBuf.drop n } }

namespace ConnStep

variable {once : Prop} {v v' : View} {g : List Frame} {a : List Obs}

/-- A connection keeps its number. -/
theorem conn (h : ConnStep once v g a v') : v'.handler.conn = v.handler.conn := by
  cases h with
  | quiet hm => cases hm <;> rfl
  | handle f rest request _ _ _ => simp
  | relay f _ _ _ => simp
  | upgrade headerMap rest _ _ _ _ => rfl
  | _ => rfl

end ConnStep

/-! ### Every step of the worker is a step of each connection -/

namespace Loop

variable {once : Prop} {s s' : Loop} {fd : Fd} {h : WebsocketHandler}

theorem phase_eq_idle {pc : Pc} (hc : pc.current ≠ some fd) : pc.phase fd = .idle := by
  cases pc with
  | reading fd' es => simpa [Pc.phase, Pc.current] using hc
  | frames fd' es => simpa [Pc.phase, Pc.current] using hc
  | flushing fd' es => simpa [Pc.phase, Pc.current] using hc
  | _ => rfl

/-- Control is at a connection, or it is idle. -/
theorem phase_cases (pc : Pc) (fd : Fd) : pc.phase fd = .idle ∨
    ∃ es, pc = .reading fd es ∨ pc = .frames fd es ∨ pc = .flushing fd es := by
  by_cases hc : pc.current = some fd
  · right
    cases pc with
    | reading fd' es => exact ⟨es, Or.inl (by rw [Option.some.inj hc])⟩
    | frames fd' es => exact ⟨es, Or.inr (Or.inl (by rw [Option.some.inj hc]))⟩
    | flushing fd' es => exact ⟨es, Or.inr (Or.inr (by rw [Option.some.inj hc]))⟩
    | _ => cases hc
  · exact Or.inl (phase_eq_idle hc)

theorem pc_of_phase_reading {pc : Pc} (hp : pc.phase fd = .reading) :
    ∃ es, pc = .reading fd es := by
  rcases phase_cases pc fd with hi | ⟨es, rfl | rfl | rfl⟩
  · cases hp.symm.trans hi
  · exact ⟨es, rfl⟩
  · simp [Pc.phase] at hp
  · simp [Pc.phase] at hp

theorem pc_of_phase_frames {pc : Pc} (hp : pc.phase fd = .frames) :
    ∃ es, pc = .frames fd es := by
  rcases phase_cases pc fd with hi | ⟨es, rfl | rfl | rfl⟩
  · cases hp.symm.trans hi
  · simp [Pc.phase] at hp
  · exact ⟨es, rfl⟩
  · simp [Pc.phase] at hp

theorem pc_of_phase_flushing {pc : Pc} (hp : pc.phase fd = .flushing) :
    ∃ es, pc = .flushing fd es := by
  rcases phase_cases pc fd with hi | ⟨es, rfl | rfl | rfl⟩
  · cases hp.symm.trans hi
  · simp [Pc.phase] at hp
  · simp [Pc.phase] at hp
  · exact ⟨es, rfl⟩

/-- The view of a connection a step does not concern. -/
theorem view_eq (hphase : s'.pc.phase fd = s.pc.phase fd)
    (hpending : fd ∈ s'.worker.pendingCloses ↔ fd ∈ s.worker.pendingCloses)
    (hrest : fd ∈ s'.pc.rest.map EpollEvent.fd ↔ fd ∈ s.pc.rest.map EpollEvent.fd) :
    s'.view fd h = s.view fd h := by
  simp only [view, hphase, hpending, hrest]

/-- A view, field by field. -/
theorem view_mk {phase : Phase} {pending upcoming : Bool} (hphase : s.pc.phase fd = phase)
    (hpending : fd ∈ s.worker.pendingCloses ↔ pending = true)
    (hrest : fd ∈ s.pc.rest.map EpollEvent.fd ↔ upcoming = true) :
    s.view fd h = ⟨h, phase, pending, upcoming⟩ := by
  have hp : decide (fd ∈ s.worker.pendingCloses) = pending := by
    rw [Bool.eq_iff_iff, decide_eq_true_iff, hpending]
  have hu : decide (fd ∈ s.pc.rest.map EpollEvent.fd) = upcoming := by
    rw [Bool.eq_iff_iff, decide_eq_true_iff, hrest]
  rw [view, hphase, hp, hu]

/-- What a turn does to a connection, before its history is projected. -/
structure Grows (once : Prop) (s s' : Loop) (fd : Fd) (h h' : WebsocketHandler) (g : List Frame)
    (a : List Obs) : Prop where
  map : s'.worker.websocketHandlerMap fd = some h'
  trace : ∃ δ, s'.worker.trace = s.worker.trace ++ δ ∧ texts δ = g ∧ about h.conn δ = a
  step : ConnStep once (s.view fd h) g a (s'.view fd h')

/-- A turn that does not concern the connection. -/
theorem grows_other {δ : List Obs}
    (hmap : s'.worker.websocketHandlerMap fd = some h)
    (htrace : s'.worker.trace = s.worker.trace ++ δ) (htexts : texts δ = [])
    (habout : about h.conn δ = []) (hphase : s'.pc.phase fd = s.pc.phase fd)
    (hpending : fd ∈ s'.worker.pendingCloses ↔ fd ∈ s.worker.pendingCloses)
    (hrest : fd ∈ s'.pc.rest.map EpollEvent.fd ↔ fd ∈ s.pc.rest.map EpollEvent.fd) :
    Grows once s s' fd h h [] [] := by
  refine ⟨hmap, ⟨δ, htrace, htexts, habout⟩, ?_⟩
  rw [view_eq hphase hpending hrest]
  exact ConnStep.quiet (Moves.stay _)

/-- The events behind the one dispatched. -/
theorem upcoming_of_pop (hwf : s.WellFormed once) {ev : EpollEvent} {es : List EpollEvent}
    (hpc : s.pc = .batch (ev :: es)) (ho : once) : ev.fd ∉ es.map EpollEvent.fd := by
  have hnd := hwf.pc.nodup ho
  rw [hpc] at hnd
  exact (List.nodup_cons.1 hnd).1

/-- An event of another descriptor is dispatched. -/
theorem mem_rest_of_pop {ev : EpollEvent} {es : List EpollEvent} (hpc : s.pc = .batch (ev :: es))
    (hne : fd ≠ ev.fd) : fd ∈ es.map EpollEvent.fd ↔ fd ∈ s.pc.rest.map EpollEvent.fd := by
  rw [hpc, Pc.rest, List.map_cons, List.mem_cons]
  simp [hne]

/-- Turns that touch no handler. -/
theorem pcTurn_moves (hwf : s.WellFormed once) (hfd : s.worker.websocketHandlerMap fd = some h)
    {q : Option Fd} {w' : NetworkInterface} {pc' : Pc} (ht : PcTurn s q pc')
    (hs : s.worker.Same q w') : Moves once (s.view fd h) (Loop.view ⟨w', pc'⟩ fd h) := by
  have hpending := hs.pending fd
  -- nothing is queued, or another descriptor is
  have hstay (hq : q ≠ some fd) : fd ∈ w'.pendingCloses ↔ fd ∈ s.worker.pendingCloses := by
    rw [hpending]
    simp [hq]
  have hqueued (hq : q = some fd) (hne : fd ≠ s.worker.listenfd) : fd ∈ w'.pendingCloses := by
    rw [hpending]
    exact Or.inr ⟨hq, hwf.worker.nonneg fd h hfd hne⟩
  have hother (hq : q ≠ some fd) (hphase : pc'.phase fd = s.pc.phase fd)
      (hrest : fd ∈ pc'.rest.map EpollEvent.fd ↔ fd ∈ s.pc.rest.map EpollEvent.fd) :
      Moves once (s.view fd h) (Loop.view ⟨w', pc'⟩ fd h) := by
    rw [show Loop.view ⟨w', pc'⟩ fd h = s.view fd h from view_eq hphase (hstay hq) hrest]
    exact Moves.stay _
  have hcurne {fd' : Fd} (hc : s.pc.current = some fd') : fd' ≠ s.worker.listenfd :=
    (hwf.pc.current fd' (by rw [hc]; rfl)).1
  cases ht with
  | rehash => exact hother (by simp) rfl Iff.rfl
  | epollWait es hpc =>
      have hv : Loop.view ⟨w', .batch es⟩ fd h =
          { s.view fd h with upcoming := decide (fd ∈ es.map EpollEvent.fd) } := by
        exact view_mk (by simp [view, hpc, Pc.phase]) (by simpa [view] using hstay (by simp))
          (by simp [Pc.rest])
      rw [hv]
      exact Moves.batch _ (by simp [view, hpc, Pc.phase]) (by simp [view, hwf.waiting hpc])
        (by simp [view, hpc, Pc.rest])
  | listen ev es hpc hev =>
      by_cases he : fd = ev.fd
      · have hv : Loop.view ⟨w', .accepting es⟩ fd h =
            { s.view fd h with upcoming := decide (fd ∈ es.map EpollEvent.fd) } := by
          exact view_mk (by simp [view, hpc, Pc.phase]) (by simpa [view] using hstay (by simp))
            (by simp [Pc.rest])
        rw [hv]
        refine Moves.skip _ (by simp [view, hpc, Pc.phase]) (by simp [view, hpc, Pc.rest, he]) ?_
        intro ho
        simpa [he] using upcoming_of_pop hwf hpc ho
      · exact hother (by simp) (by simp [hpc, Pc.phase]) (mem_rest_of_pop hpc he)
  | acceptFail es hpc => exact hother (by simp) (by simp [hpc, Pc.phase]) (by simp [hpc, Pc.rest])
  | skip ev es hpc hne =>
      by_cases he : fd = ev.fd
      · have hv : Loop.view ⟨w', .batch es⟩ fd h =
            { s.view fd h with upcoming := decide (fd ∈ es.map EpollEvent.fd) } := by
          exact view_mk (by simp [view, hpc, Pc.phase]) (by simpa [view] using hstay (by simp))
            (by simp [Pc.rest])
        rw [hv]
        refine Moves.skip _ (by simp [view, hpc, Pc.phase]) (by simp [view, hpc, Pc.rest, he]) ?_
        intro ho
        simpa [he] using upcoming_of_pop hwf hpc ho
      · exact hother (by simp) (by simp [hpc, Pc.phase]) (mem_rest_of_pop hpc he)
  | hangup ev es hpc hne =>
      by_cases he : fd = ev.fd
      · have hv : Loop.view ⟨w', .batch es⟩ fd h =
            { s.view fd h with
              pending := true, upcoming := decide (fd ∈ es.map EpollEvent.fd) } := by
          exact view_mk (by simp [view, hpc, Pc.phase])
            (by simpa using hqueued (by rw [he]) (by rw [he]; exact hne)) (by simp [Pc.rest])
        rw [hv]
        refine Moves.hangup _ (by simp [view, hpc, Pc.phase]) (by simp [view, hpc, Pc.rest, he]) ?_
        intro ho
        simpa [he] using upcoming_of_pop hwf hpc ho
      · exact hother (by simpa using Ne.symm he) (by simp [hpc, Pc.phase]) (mem_rest_of_pop hpc he)
  | writable ev es h' hpc hne _ =>
      by_cases he : fd = ev.fd
      · have hv : Loop.view ⟨w', .flushing ev.fd es⟩ fd h =
            { s.view fd h with
              phase := .flushing, upcoming := decide (fd ∈ es.map EpollEvent.fd) } := by
          exact view_mk (by simp [Pc.phase, he]) (by simpa [view] using hstay (by simp))
            (by simp [Pc.rest])
        rw [hv]
        refine Moves.writable _ (by simp [view, hpc, Pc.phase])
          (by simp [view, hpc, Pc.rest, he]) ?_
        intro ho
        simpa [he] using upcoming_of_pop hwf hpc ho
      · exact hother (by simp) (by simp [hpc, Pc.phase, Ne.symm he]) (mem_rest_of_pop hpc he)
  | readError fd' es hpc =>
      by_cases he : fd = fd'
      · subst he
        have hv : Loop.view ⟨w', .batch es⟩ fd h =
            { s.view fd h with phase := .idle, pending := true } := by
          exact view_mk rfl (by simpa using hqueued rfl (hcurne (by rw [hpc]; rfl)))
            (by simp [Pc.rest, view, hpc])
        rw [hv]
        exact Moves.readError (by simp [view, hpc, Pc.phase])
      · exact hother (by simpa using Ne.symm he) (by simp [hpc, Pc.phase, Ne.symm he])
          (by simp [hpc, Pc.rest])
  | wait fd' es h' hpc hfd' hst hup =>
      by_cases he : fd = fd'
      · subst he
        obtain rfl : h = h' := by
          rw [hfd] at hfd'
          exact Option.some.inj hfd'
        have hv : Loop.view ⟨w', .batch es⟩ fd h = { s.view fd h with phase := .idle } := by
          exact view_mk (by simp [Pc.phase]) (by simpa [view] using hstay (by simp))
            (by simp [Pc.rest, view, hpc])
        rw [hv]
        exact Moves.wait (by simp [view, hpc, Pc.phase]) hst hup
      · exact hother (by simp) (by simp [hpc, Pc.phase, Ne.symm he]) (by simp [hpc, Pc.rest])
  | drive fd' es h' hpc hfd' hst =>
      by_cases he : fd = fd'
      · subst he
        obtain rfl : h = h' := by
          rw [hfd] at hfd'
          exact Option.some.inj hfd'
        have hv : Loop.view ⟨w', .frames fd es⟩ fd h = { s.view fd h with phase := .frames } := by
          exact view_mk (by simp [Pc.phase]) (by simpa [view] using hstay (by simp))
            (by simp [Pc.rest, view, hpc])
        rw [hv]
        exact Moves.drive (by simp [view, hpc, Pc.phase]) hst
      · exact hother (by simp) (by simp [hpc, Pc.phase, Ne.symm he]) (by simp [hpc, Pc.rest])
  | flushed fd' es hpc =>
      by_cases he : fd = fd'
      · subst he
        have hv : Loop.view ⟨w', .batch es⟩ fd h = { s.view fd h with phase := .idle } := by
          exact view_mk (by simp [Pc.phase]) (by simpa [view] using hstay (by simp))
            (by simp [Pc.rest, view, hpc])
        rw [hv]
        exact Moves.flushed (by simp [view, hpc, Pc.phase])
      · exact hother (by simp) (by simp [hpc, Pc.phase, Ne.symm he]) (by simp [hpc, Pc.rest])
  | sendError fd' es hpc =>
      by_cases he : fd = fd'
      · subst he
        have hv : Loop.view ⟨w', .batch es⟩ fd h =
            { s.view fd h with phase := .idle, pending := true } := by
          exact view_mk rfl (by simpa using hqueued rfl (hcurne (by rw [hpc]; rfl)))
            (by simp [Pc.rest, view, hpc])
        rw [hv]
        exact Moves.sendError (by simp [view, hpc, Pc.phase])
      · exact hother (by simpa using Ne.symm he) (by simp [hpc, Pc.phase, Ne.symm he])
          (by simp [hpc, Pc.rest])

/-- A step of the connection control is at: where it goes and whether it is queued. -/
theorem step_current {v' : View} {h' : WebsocketHandler} {g : List Frame} {a : List Obs}
    (hstep : ConnStep once (s.view fd h) g a v') (hhandler : v'.handler = h')
    (hphase : s'.pc.phase fd = v'.phase)
    (hpending : fd ∈ s'.worker.pendingCloses ↔ v'.pending = true)
    (hrest : fd ∈ s'.pc.rest.map EpollEvent.fd ↔ v'.upcoming = true) :
    ConnStep once (s.view fd h) g a (s'.view fd h') := by
  rw [view_mk hphase hpending hrest, ← hhandler]
  exact hstep

/-- **Handling a frame is a step of each connection**: of the one it came from, of the clients it is
relayed to, and of those that only overhear it. -/
theorem handle_conn {fd' : Fd} {es : List EpollEvent} {h' : WebsocketHandler} {f : Frame}
    {rest : Bytes} {request : WebsocketRequest} {w' : NetworkInterface} (hwf : s.WellFormed once)
    (hfd : s.worker.websocketHandlerMap fd = some h) (hpc : s.pc = .frames fd' es)
    (hfd' : s.worker.websocketHandlerMap fd' = some h') (hst : h'.status = .handsharked)
    (hspec : frameSpec h'.readBuf = .item f rest)
    (hh : s.worker.Handles fd' h' f
      { h'.offerOption (reply f) with request := request, readBuf := rest } w') :
    ∃ g' g a, Grows once s ⟨w', .frames fd' es⟩ fd h g' g a := by
  have hw := hwf.worker
  have hcur : s.pc.current = some fd' := by rw [hpc]; rfl
  have hnonneg : 0 ≤ fd' := by
    obtain ⟨hl, h₁, hh₁⟩ := hwf.pc.current fd' (by rw [hcur]; rfl)
    exact hw.nonneg fd' h₁ hh₁ hl
  have hsame {h₁ : WebsocketHandler} (hh₁ : s.worker.websocketHandlerMap fd = some h₁) :
      h₁ = h := by
    rw [hfd] at hh₁
    exact (Option.some.inj hh₁).symm
  by_cases he : fd = fd'
  · subst he
    obtain rfl := hsame hfd'
    have hself := hh.map fd
    rw [if_pos rfl] at hself
    refine ⟨_, textOf f, _, hself, ⟨_, hh.trace, NetworkInterface.texts_handleObs f,
      NetworkInterface.about_handleObs_self hw hfd f⟩, ?_⟩
    refine step_current (ConnStep.handle f rest request (by simp [view, hpc, Pc.phase]) hst hspec)
      rfl (by simp [view, hpc, Pc.phase]) ?_ (by simp [view, hpc, Pc.rest])
    rw [hh.pending fd]
    simp [view, hnonneg, WebsocketHandler.refuses, Option.any_eq_true, or_assoc]
  · have hsees := NetworkInterface.about_handleObs_other hw hfd' hfd he f
    by_cases hmem : fd ∈ s.worker.wsClients
    · -- a client is offered the relayed frame
      obtain ⟨h₁, hh₁, hst₁⟩ := (hw.mem_wsClients fd).1 hmem
      obtain rfl := hsame hh₁
      rw [if_pos hmem] at hsees
      refine ⟨h₁.offerOption (relay f), textOf f, _, ?_,
        ⟨_, hh.trace, NetworkInterface.texts_handleObs f, hsees⟩, ?_⟩
      · rw [hh.map fd, if_neg he, if_pos hmem, hfd]
        rfl
      · refine step_current (ConnStep.relay f (by simp [view, hpc, Pc.phase, Ne.symm he]) hst₁
          (length_le_of_frameSpec_item hspec)) rfl (by simp [view, hpc, Pc.phase]) ?_
          (by simp [view, hpc, Pc.rest])
        have hne : fd ≠ s.worker.listenfd := by
          rintro rfl
          obtain ⟨h₂, hh₂, hst₂⟩ := hw.listener
          obtain rfl := hsame hh₂
          rw [hst₁] at hst₂
          cases hst₂
        rw [hh.pending fd]
        simp [view, he, hmem, hfd, hw.nonneg fd h₁ hfd hne, WebsocketHandler.refuses,
          Option.any_eq_true]
    · -- a connection whose handshake is not done is offered nothing
      have hst₁ : h.status = .unconnect := by
        cases hst₁ : h.status with
        | unconnect => rfl
        | handsharked => exact absurd ((hw.mem_wsClients fd).2 ⟨h, hfd, hst₁⟩) hmem
      rw [if_neg hmem] at hsees
      refine ⟨h, textOf f, _, by rw [hh.map fd, if_neg he, if_neg hmem]; exact hfd,
        ⟨_, hh.trace, NetworkInterface.texts_handleObs f, hsees⟩, ?_⟩
      refine step_current (ConnStep.overheard f (by simp [view, hpc, Pc.phase, Ne.symm he]) hst₁)
        rfl (by simp [view, hpc, Pc.phase]) ?_ (by simp [view, hpc, Pc.rest])
      rw [hh.pending fd]
      simp [view, he, hmem]

/-- **Every turn is a step of each connection, or closes it.** -/
theorem turn_conn (hwf : s.WellFormed once) (hfd : s.worker.websocketHandlerMap fd = some h)
    (ht : Turn s s') :
    (∃ h' g a, Grows once s s' fd h h' g a) ∨
      s.pc = .batch [] ∧ s'.pc = .waiting ∧ fd ∈ s.worker.pendingCloses ∧
        s'.worker.websocketHandlerMap fd = none ∧
        ∃ δ, s'.worker.trace = s.worker.trace ++ δ ∧ texts δ = [] ∧
          about h.conn δ = [.closed h.conn fd] := by
  have hw := hwf.worker
  -- another connection has another number
  have hconn {fd' : Fd} {h' : WebsocketHandler}
      (hfd' : s.worker.websocketHandlerMap fd' = some h') (hne : fd ≠ fd') : h'.conn ≠ h.conn :=
    fun hc => hne (hw.conn_inj fd' fd h' h hfd' hfd hc).symm
  have hsame {h' : WebsocketHandler} (hfd' : s.worker.websocketHandlerMap fd = some h') :
      h' = h := by
    rw [hfd] at hfd'
    exact (Option.some.inj hfd').symm
  have hcurrent {fd' : Fd} (hc : s.pc.current = some fd') : 0 ≤ fd' := by
    obtain ⟨hl, h', hh'⟩ := hwf.pc.current fd' (by rw [hc]; rfl)
    exact hw.nonneg fd' h' hh' hl
  have hviewPending : fd ∈ s.worker.pendingCloses ↔ (s.view fd h).pending = true := by
    simp [view]
  -- an operation of another connection
  have hskip {fd' : Fd} {h' : WebsocketHandler}
      (hfd' : s.worker.websocketHandlerMap fd' = some h') (hne : fd ≠ fd') {o : Obs}
      (ho : o.conn = h'.conn) : about h.conn [o] = [] :=
    about_of_ne _ (by
      intro o' ho'
      obtain rfl := List.mem_singleton.1 ho'
      rw [ho]
      exact hconn hfd' hne)
  cases ht with
  | quiet hpc hs =>
      left
      exact ⟨h, [], [], by rw [hs.map]; exact hfd,
        ⟨[], by rw [hs.trace, List.append_nil], rfl, rfl⟩,
        ConnStep.quiet (pcTurn_moves hwf hfd hpc hs)⟩
  | @accept fd' es hpc h0 hne hnone =>
      left
      have he : fd ≠ fd' := by
        rintro rfl
        rw [hfd] at hnone
        cases hnone
      refine ⟨h, [], [], grows_other (δ := [.accepted s.worker.nextConn fd']) ?_ rfl rfl ?_ ?_
        Iff.rfl (by rw [hpc])⟩
      · simpa [NetworkInterface.ctlEvent, Function.update_of_ne he] using hfd
      · refine about_of_ne _ ?_
        intro o ho
        obtain rfl := List.mem_singleton.1 ho
        exact (Nat.ne_of_lt (hw.conn_lt fd h hfd)).symm
      · simp [hpc, Pc.phase]
  | @readable ev es h' hpc hne hev =>
      left
      by_cases he : fd = ev.fd
      · subst he
        obtain rfl := hsame hev
        refine ⟨h', [], [.readable h'.conn], hfd, ⟨[.readable h'.conn], rfl, rfl, ?_⟩, ?_⟩
        · simp [about_cons, Obs.conn]
        · refine step_current (ConnStep.readable (decide (ev.fd ∈ es.map EpollEvent.fd))
            (by simp [view, hpc, Pc.phase]) (by simp [view, hpc, Pc.rest]) ?_) rfl
            (by simp [Pc.phase]) hviewPending (by simp [Pc.rest])
          intro ho
          simpa using upcoming_of_pop hwf hpc ho
      · exact ⟨h, [], [], grows_other hfd rfl rfl (hskip hev he rfl)
          (by simp [hpc, Pc.phase, Ne.symm he]) Iff.rfl (mem_rest_of_pop hpc he)⟩
  | @received fd' es h' data hpc hfd' h0 hchunk hcap =>
      left
      by_cases he : fd = fd'
      · subst he
        obtain rfl := hsame hfd'
        refine ⟨{ h' with readBuf := h'.readBuf ++ data }, [], [.received h'.conn data], by simp,
          ⟨[.received h'.conn data], rfl, rfl, by simp [about_cons, Obs.conn]⟩, ?_⟩
        exact step_current (ConnStep.received data (by simp [view, hpc, Pc.phase]) h0 hchunk hcap)
          rfl
          (by simp [view, hpc, Pc.phase]) hviewPending (by simp [view, hpc, Pc.rest])
      · exact ⟨h, [], [], grows_other (by simpa [Function.update_of_ne he] using hfd) rfl rfl
          (hskip hfd' he rfl) (by simp [hpc, Pc.phase]) Iff.rfl
          (by simp [hpc, Pc.rest])⟩
  | @readRefused fd' es h' data hpc hfd' h0 hchunk hcap =>
      left
      have hcur : s.pc.current = some fd' := by rw [hpc]; rfl
      by_cases he : fd = fd'
      · subst he
        obtain rfl := hsame hfd'
        refine ⟨h', [], [.readRefused h'.conn data], by simpa using hfd,
          ⟨[.readRefused h'.conn data], by simp, rfl, by simp [about_cons, Obs.conn]⟩, ?_⟩
        exact step_current (ConnStep.readRefused data
          (by simp [view, hpc, Pc.phase]) h0 hchunk hcap)
          rfl rfl (by simp [hcurrent hcur]) (by simp [view, hpc, Pc.rest])
      · exact ⟨h, [], [], grows_other (δ := [.readRefused h'.conn data]) (by simpa using hfd)
          (by simp) rfl (hskip hfd' he rfl)
          (by simp [hpc, Pc.phase, Ne.symm he]) (by simp [he]) (by simp [hpc, Pc.rest])⟩
  | @eof fd' es h' hpc hfd' =>
      left
      have hcur : s.pc.current = some fd' := by rw [hpc]; rfl
      by_cases he : fd = fd'
      · subst he
        obtain rfl := hsame hfd'
        refine ⟨h', [], [.eof h'.conn], by simpa using hfd,
          ⟨[.eof h'.conn], by simp, rfl, by simp [about_cons, Obs.conn]⟩, ?_⟩
        exact step_current (ConnStep.eof (by simp [view, hpc, Pc.phase])) rfl rfl
          (by simp [hcurrent hcur]) (by simp [view, hpc, Pc.rest])
      · exact ⟨h, [], [], grows_other (δ := [.eof h'.conn]) (by simpa using hfd) (by simp) rfl
          (hskip hfd' he rfl)
          (by simp [hpc, Pc.phase, Ne.symm he]) (by simp [he]) (by simp [hpc, Pc.rest])⟩
  | @reject fd' es h' readBuf headerMap hpc hfd' hst hup =>
      left
      have hcur : s.pc.current = some fd' := by rw [hpc]; rfl
      by_cases he : fd = fd'
      · subst he
        obtain rfl := hsame hfd'
        refine ⟨{ h' with readBuf := readBuf, headerMap := headerMap }, [], [.rejected h'.conn],
          by simp, ⟨[.rejected h'.conn], by simp, rfl, by simp [about_cons, Obs.conn]⟩, ?_⟩
        exact step_current
          (ConnStep.reject readBuf headerMap (by simp [view, hpc, Pc.phase]) hst hup) rfl rfl
          (by simp [hcurrent hcur]) (by simp [view, hpc, Pc.rest])
      · exact ⟨h, [], [], grows_other (δ := [.rejected h'.conn])
          (by simpa [Function.update_of_ne he] using hfd) (by simp) rfl
          (hskip hfd' he rfl) (by simp [hpc, Pc.phase, Ne.symm he]) (by simp [he])
          (by simp [hpc, Pc.rest])⟩
  | @upgrade fd' es h' headerMap rest w' hpc hfd' hst hup hu =>
      left
      have hcur : s.pc.current = some fd' := by rw [hpc]; rfl
      by_cases he : fd = fd'
      · subst he
        obtain rfl := hsame hfd'
        refine ⟨h'.upgraded headerMap rest, [], _, by rw [hu.map, Function.update_self],
          ⟨_, hu.trace, rfl, by simp [about_cons, Obs.conn]; rfl⟩, ?_⟩
        exact step_current (ConnStep.upgrade headerMap rest (by simp [view, hpc, Pc.phase]) hst
          (hw.writeBuf fd h' hfd hst) hup) rfl (by simp [Pc.phase])
          (by rw [hu.pending]; exact hviewPending) (by simp [view, hpc, Pc.rest])
      · refine ⟨h, [], [], grows_other (by rw [hu.map, Function.update_of_ne he]; exact hfd)
          hu.trace rfl ?_ (by simp [hpc, Pc.phase, Ne.symm he]) (by rw [hu.pending])
          (by simp [hpc, Pc.rest])⟩
        refine about_of_ne _ ?_
        intro o ho
        simp only [List.mem_cons, List.not_mem_nil, or_false] at ho
        rcases ho with rfl | rfl | rfl
        · exact hconn hfd' he
        · exact hconn hfd' he
        · exact hconn hfd' he
  | @more fd' es h' request hpc hfd' hst hspec =>
      left
      by_cases he : fd = fd'
      · subst he
        obtain rfl := hsame hfd'
        refine ⟨{ h' with request := request }, [], [], by simp,
          ⟨[], by simp, rfl, rfl⟩, ?_⟩
        exact step_current (ConnStep.more request (by simp [view, hpc, Pc.phase]) hst hspec) rfl rfl
          hviewPending (by simp [view, hpc, Pc.rest])
      · exact ⟨h, [], [], grows_other (δ := []) (by simpa [Function.update_of_ne he] using hfd)
          (by simp) rfl rfl (by simp [hpc, Pc.phase, Ne.symm he]) Iff.rfl (by simp [hpc, Pc.rest])⟩
  | @bad fd' es h' request hpc hfd' hst hspec =>
      left
      have hcur : s.pc.current = some fd' := by rw [hpc]; rfl
      by_cases he : fd = fd'
      · subst he
        obtain rfl := hsame hfd'
        refine ⟨{ h' with request := request }, [], [.parseError h'.conn], by simp,
          ⟨[.parseError h'.conn], by simp, rfl, by simp [about_cons, Obs.conn]⟩, ?_⟩
        exact step_current (ConnStep.bad request (by simp [view, hpc, Pc.phase]) hst hspec) rfl rfl
          (by simp [hcurrent hcur]) (by simp [view, hpc, Pc.rest])
      · exact ⟨h, [], [], grows_other (δ := [.parseError h'.conn])
          (by simpa [Function.update_of_ne he] using hfd) (by simp) rfl
          (hskip hfd' he rfl) (by simp [hpc, Pc.phase, Ne.symm he]) (by simp [he])
          (by simp [hpc, Pc.rest])⟩
  | @sent fd' es h' n hpc hfd' hn hle =>
      left
      by_cases he : fd = fd'
      · subst he
        obtain rfl := hsame hfd'
        refine ⟨{ h' with writeBuf := h'.writeBuf.drop n }, [],
          [.sent h'.conn (h'.writeBuf.take n)],
          by simp, ⟨[.sent h'.conn (h'.writeBuf.take n)], rfl, rfl, by simp [about_cons, Obs.conn]⟩,
          ?_⟩
        exact step_current (ConnStep.sent n (by simp [view, hpc, Pc.phase]) hn hle) rfl
          (by simp [view, hpc, Pc.phase]) hviewPending (by simp [view, hpc, Pc.rest])
      · exact ⟨h, [], [], grows_other (by simpa [Function.update_of_ne he] using hfd) rfl rfl
          (hskip hfd' he rfl) (by simp [hpc, Pc.phase]) Iff.rfl (by simp [hpc, Pc.rest])⟩
  | @handle fd' es h' f rest request w' hpc hfd' hst hspec hh =>
      left
      exact handle_conn hwf hfd hpc hfd' hst hspec hh
  | @close fds w' hpc hnd hmem hc hempty =>
      by_cases hin : fd ∈ fds
      · right
        refine ⟨hpc, rfl, (hmem fd).1 hin, by rw [hc.map, if_pos hin], _, hc.trace,
          NetworkInterface.texts_closeObs fds, ?_⟩
        rw [NetworkInterface.about_closeObs hw hfd hnd, if_pos hin]
      · left
        refine ⟨h, [], [], grows_other (by rw [hc.map, if_neg hin]; exact hfd) hc.trace
          (NetworkInterface.texts_closeObs fds) ?_ (by simp [hpc, Pc.phase]) ?_
          (by simp [hpc, Pc.rest])⟩
        · rw [NetworkInterface.about_closeObs hw hfd hnd, if_neg hin]
        · have hnot : fd ∉ s.worker.pendingCloses := fun hm => hin ((hmem fd).2 hm)
          simp [hempty, hnot]

/-- A turn in which no connection begins: it is about the connections there are. -/
structure Ages (s s' : Loop) : Prop where
  nextConn : s'.worker.nextConn = s.worker.nextConn
  map : ∀ fd, s.worker.websocketHandlerMap fd = none → s'.worker.websocketHandlerMap fd = none
  trace : ∃ δ, s'.worker.trace = s.worker.trace ++ δ ∧
    ∀ o ∈ δ, ∃ fd h, s.worker.websocketHandlerMap fd = some h ∧ o.conn = h.conn

/-- A turn in which the connection on `fd` begins. -/
structure Begins (s s' : Loop) (fd : Fd) : Prop where
  free : s.worker.websocketHandlerMap fd = none
  nextConn : s'.worker.nextConn = s.worker.nextConn + 1
  map : s'.worker.websocketHandlerMap = Function.update s.worker.websocketHandlerMap fd
    (some (WebsocketHandler.new s.worker.nextConn fd))
  trace : s'.worker.trace = s.worker.trace ++ [.accepted s.worker.nextConn fd]
  current : s'.pc.current = none

/-- A turn that changes one handler. -/
theorem ages_update {h' : WebsocketHandler} (hfd : s.worker.websocketHandlerMap fd = some h)
    {δ : List Obs} (hmap : s'.worker.websocketHandlerMap =
      Function.update s.worker.websocketHandlerMap fd (some h'))
    (hnext : s'.worker.nextConn = s.worker.nextConn)
    (htrace : s'.worker.trace = s.worker.trace ++ δ) (hδ : ∀ o ∈ δ, o.conn = h.conn) :
    Ages s s' := by
  refine ⟨hnext, ?_, δ, htrace, fun o ho => ⟨fd, h, hfd, hδ o ho⟩⟩
  intro fd' hnone
  have hne : fd' ≠ fd := by
    rintro rfl
    rw [hfd] at hnone
    cases hnone
  rw [hmap, Function.update_of_ne hne]
  exact hnone

/-- The operations of one handled frame belong to connections there are. -/
theorem handleObs_conn {w : NetworkInterface} {f : Frame}
    (hfd : w.websocketHandlerMap fd = some h) :
    ∀ o ∈ w.handleObs fd h f, ∃ fd h, w.websocketHandlerMap fd = some h ∧ o.conn = h.conn := by
  intro o ho
  rcases NetworkInterface.mem_handleObs hfd ho with rfl | ⟨fd', h', _, _, _, hh', rfl⟩
  · exact ⟨fd, h, hfd, rfl⟩
  · exact ⟨fd', h', hh', rfl⟩

/-- **Connections begin at `accept` and nowhere else.** -/
theorem turn_begins (ht : Turn s s') : Ages s s' ∨ ∃ fd, Begins s s' fd := by
  have hid {w : NetworkInterface} {fd : Fd} {h : WebsocketHandler}
      (hfd : w.websocketHandlerMap fd = some h) :
      w.websocketHandlerMap = Function.update w.websocketHandlerMap fd (some h) := by
    rw [← hfd, Function.update_eq_self]
  have hone {o : Obs} {c : ℕ} (ho : o.conn = c) : ∀ o' ∈ [o], o'.conn = c := by
    intro o' ho'
    obtain rfl := List.mem_singleton.1 ho'
    exact ho
  cases ht with
  | quiet hpc hs =>
      left
      refine ⟨hs.nextConn, ?_, [], by rw [hs.trace, List.append_nil], by simp⟩
      intro fd hnone
      rw [hs.map]
      exact hnone
  | accept hpc h0 hne hnone => exact Or.inr ⟨_, hnone, rfl, rfl, rfl, rfl⟩
  | readable hpc hne hfd => exact Or.inl (ages_update hfd (hid hfd) rfl rfl (hone rfl))
  | received hpc hfd _ _ _ => exact Or.inl (ages_update hfd rfl rfl rfl (hone rfl))
  | @readRefused fd es h data hpc hfd _ _ _ =>
      exact Or.inl (ages_update hfd (by simpa using hid hfd) (by simp) (by simp)
        (hone (o := .readRefused h.conn data) rfl))
  | @eof fd es h hpc hfd =>
      exact Or.inl (ages_update hfd (by simpa using hid hfd) (by simp) (by simp)
        (hone (o := .eof h.conn) rfl))
  | @reject fd es h readBuf headerMap hpc hfd _ _ =>
      exact Or.inl (ages_update hfd (by simp; rfl) (by simp) (by simp)
        (hone (o := .rejected h.conn) rfl))
  | upgrade hpc hfd _ _ hu =>
      refine Or.inl (ages_update hfd hu.map hu.nextConn hu.trace ?_)
      intro o ho
      simp only [List.mem_cons, List.not_mem_nil, or_false] at ho
      rcases ho with rfl | rfl | rfl
      · rfl
      · rfl
      · rfl
  | more hpc hfd _ _ =>
      exact Or.inl (ages_update (δ := []) hfd rfl rfl (by simp) (by simp))
  | @bad fd es h request hpc hfd _ _ =>
      exact Or.inl (ages_update hfd (by simp; rfl) (by simp) (by simp)
        (hone (o := .parseError h.conn) rfl))
  | @handle fd es h f rest request w' hpc hfd _ _ hh =>
      left
      refine ⟨hh.nextConn, ?_, _, hh.trace, handleObs_conn hfd⟩
      intro fd' hnone
      have hne : fd' ≠ fd := by
        rintro rfl
        rw [hfd] at hnone
        cases hnone
      rw [hh.map fd', if_neg hne, hnone]
      simp
  | sent hpc hfd _ _ => exact Or.inl (ages_update hfd rfl rfl rfl (hone rfl))
  | close hpc hnd hmem hc hempty =>
      left
      refine ⟨hc.nextConn, ?_, _, hc.trace, ?_⟩
      · intro fd hnone
        rw [hc.map fd, hnone]
        simp
      · intro o ho
        obtain ⟨fd, _, ho⟩ := List.mem_filterMap.1 ho
        obtain ⟨h, hh, rfl⟩ := Option.map_eq_some_iff.1 ho
        exact ⟨fd, h, hh, rfl⟩

/-- A step only adds to the history. -/
theorem step_keeps_trace {i : Input} (hwf : s.WellFormed once) (hs : step s i = some s') :
    s.worker.trace <+: s'.worker.trace := by
  rcases turn_begins (step_turn hwf hs) with hages | ⟨fd, hb⟩
  · obtain ⟨δ, htrace, _⟩ := hages.trace
    exact ⟨δ, htrace.symm⟩
  · exact ⟨_, hb.trace.symm⟩

/-- **History is only added to.** -/
theorem trace_prefix {ok : Loop → Input → Prop} (hok : Promises ok once) (hwf : s.WellFormed once)
    (h : Transition.Reaches step ok s s') : s.worker.trace <+: s'.worker.trace := by
  have htrans (s t u : Loop) (h : s.worker.trace <+: t.worker.trace)
      (h' : t.worker.trace <+: u.worker.trace) : s.worker.trace <+: u.worker.trace := h.trans h'
  obtain ⟨_, hgrows⟩ := Transition.Reaches.preserves (P := fun s : Loop => s.WellFormed once)
    (R := fun s s' : Loop => s.worker.trace <+: s'.worker.trace) (fun _ => List.prefix_rfl) htrans
    hwf (fun _ _ _ hwf hi hs => ⟨step_wellFormed hok hwf hi hs, step_keeps_trace hwf hs⟩) h
  exact hgrows

/-! ### Induction over the life of a connection -/

section Induction

variable {ok : Loop → Input → Prop} {C P : List Obs → View → Prop} {listenfd : Fd}

/-- **The induction rule for live connections.**  `P` is about the whole history and the view of a
connection; it holds when the connection is accepted and survives each of its steps.  `K` is what is
known of the histories and views around a step, from the environment or from another induction. -/
theorem conn_induction_between {K : List Obs → View → List Obs → View → Prop}
    (hok : Promises ok once)
    (hK : ∀ s i s' fd h h', Reachable ok listenfd s → ok s i → s.step i = some s' →
      s.worker.websocketHandlerMap fd = some h → s'.worker.websocketHandlerMap fd = some h' →
      K s.worker.trace (s.view fd h) s'.worker.trace (s'.view fd h'))
    (hnew : ∀ τ c fd p u, (∀ o ∈ τ, o.conn ≠ c) →
      P (τ ++ [.accepted c fd]) ⟨WebsocketHandler.new c fd, .idle, p, u⟩)
    (hstep : ∀ τ δ v g a v', texts δ = g → about v.handler.conn δ = a → ConnStep once v g a v' →
      K τ v (τ ++ δ) v' → P τ v → P (τ ++ δ) v')
    (hr : Reachable ok listenfd s) :
    ∀ fd h, s.worker.websocketHandlerMap fd = some h → P s.worker.trace (s.view fd h) := by
  induction hr with
  | refl =>
      intro fd h hh
      have hh' : Function.update (fun _ => none) listenfd
          (some (WebsocketHandler.new 0 listenfd)) fd = some h := hh
      by_cases he : fd = listenfd
      · subst he
        rw [Function.update_self, Option.some.injEq] at hh'
        subst hh'
        exact hnew [] 0 fd _ _ (by simp)
      · rw [Function.update_of_ne he] at hh'
        cases hh'
  | @tail t u i hreach hi hs ih =>
      have hwf := reachable_wellFormed hok hreach
      have ht := step_turn hwf hs
      intro fd h' hh'
      cases hfd : t.worker.websocketHandlerMap fd with
      | some h =>
          rcases turn_conn hwf hfd ht with ⟨h₁, g, a, hg⟩ | ⟨_, _, _, hnone, _⟩
          · obtain ⟨δ, htrace, rfl, rfl⟩ := hg.trace
            rw [hg.map, Option.some.injEq] at hh'
            subst hh'
            have hknown := hK t i u fd h h₁ hreach hi hs hfd hg.map
            rw [htrace] at hknown ⊢
            exact hstep _ _ _ _ _ _ rfl rfl hg.step hknown (ih fd h hfd)
          · rw [hnone] at hh'
            cases hh'
      | none =>
          rcases turn_begins ht with hages | ⟨fd', hb⟩
          · rw [hages.map fd hfd] at hh'
            cases hh'
          · have he : fd = fd' := by
              by_contra hne
              rw [hb.map, Function.update_of_ne hne, hfd] at hh'
              cases hh'
            subst he
            rw [hb.map, Function.update_self, Option.some.injEq] at hh'
            subst hh'
            have hphase : u.pc.phase fd = .idle := phase_eq_idle (by rw [hb.current]; simp)
            rw [hb.trace, view, hphase]
            refine hnew _ _ _ _ _ ?_
            intro o ho
            exact Nat.ne_of_lt (hwf.worker.trace_lt o ho)

/-- The same where `C` is known of the connection before a step. -/
theorem conn_induction_of (hok : Promises ok once)
    (hC : ∀ s i fd h, Reachable ok listenfd s → ok s i →
      s.worker.websocketHandlerMap fd = some h → C s.worker.trace (s.view fd h))
    (hnew : ∀ τ c fd p u, (∀ o ∈ τ, o.conn ≠ c) →
      P (τ ++ [.accepted c fd]) ⟨WebsocketHandler.new c fd, .idle, p, u⟩)
    (hstep : ∀ τ δ v g a v', texts δ = g → about v.handler.conn δ = a → ConnStep once v g a v' →
      C τ v → P τ v → P (τ ++ δ) v')
    (hr : Reachable ok listenfd s) :
    ∀ fd h, s.worker.websocketHandlerMap fd = some h → P s.worker.trace (s.view fd h) :=
  conn_induction_between (K := fun τ v _ _ => C τ v) hok
    (fun s i _ fd h _ hr hi _ hfd _ => hC s i fd h hr hi hfd) hnew hstep hr

/-- The rule without a promise. -/
theorem conn_induction (hok : Promises ok once)
    (hnew : ∀ τ c fd p u, (∀ o ∈ τ, o.conn ≠ c) →
      P (τ ++ [.accepted c fd]) ⟨WebsocketHandler.new c fd, .idle, p, u⟩)
    (hstep : ∀ τ δ v g a v', texts δ = g → about v.handler.conn δ = a → ConnStep once v g a v' →
      P τ v → P (τ ++ δ) v')
    (hr : Reachable ok listenfd s) :
    ∀ fd h, s.worker.websocketHandlerMap fd = some h → P s.worker.trace (s.view fd h) :=
  conn_induction_of (C := fun _ _ => True) hok (fun _ _ _ _ _ _ _ => trivial) hnew
    (fun τ δ v g a v' ht ha h _ => hstep τ δ v g a v' ht ha h) hr

/-- **The same, carried over the close.**  `Q` is what is left of `P` when the connection is closed;
nothing happens to the connection afterwards. -/
theorem conn_history_between {K : List Obs → View → List Obs → View → Prop}
    {Q : ℕ → List Obs → Prop} (hok : Promises ok once)
    (hK : ∀ s i s' fd h h', Reachable ok listenfd s → ok s i → s.step i = some s' →
      s.worker.websocketHandlerMap fd = some h → s'.worker.websocketHandlerMap fd = some h' →
      K s.worker.trace (s.view fd h) s'.worker.trace (s'.view fd h'))
    (hnew : ∀ τ c fd p u, (∀ o ∈ τ, o.conn ≠ c) →
      P (τ ++ [.accepted c fd]) ⟨WebsocketHandler.new c fd, .idle, p, u⟩)
    (hstep : ∀ τ δ v g a v', texts δ = g → about v.handler.conn δ = a → ConnStep once v g a v' →
      K τ v (τ ++ δ) v' → P τ v → P (τ ++ δ) v')
    (hclose : ∀ τ δ v fd, P τ v → v.phase = .idle → v.pending = true → v.upcoming = false →
      texts δ = [] → about v.handler.conn δ = [.closed v.handler.conn fd] →
      Q v.handler.conn (τ ++ δ))
    (hrest : ∀ c τ δ, about c δ = [] → Q c τ → Q c (τ ++ δ))
    (hr : Reachable ok listenfd s) :
    ∀ c < s.worker.nextConn, (∃ fd h, s.worker.websocketHandlerMap fd = some h ∧ h.conn = c) ∨
      Q c s.worker.trace := by
  induction hr with
  | refl =>
      intro c hc
      left
      refine ⟨listenfd, WebsocketHandler.new 0 listenfd, ?_, ?_⟩
      · simp [init, NetworkInterface.init, NetworkInterface.ctlEvent]
      · have hc' : c < 1 := hc
        exact (Nat.lt_one_iff.1 hc').symm
  | @tail t u i hreach hi hs ih =>
      have hwf := reachable_wellFormed hok hreach
      have ht := step_turn hwf hs
      have hP := conn_induction_between hok hK hnew hstep hreach
      intro c hc
      -- a connection of the state before
      have hold (hc : c < t.worker.nextConn) {δ : List Obs}
          (htrace : u.worker.trace = t.worker.trace ++ δ)
          (hδ : ∀ o ∈ δ, (∃ fd h, t.worker.websocketHandlerMap fd = some h ∧ o.conn = h.conn) ∨
            o.conn = t.worker.nextConn) :
          (∃ fd h, u.worker.websocketHandlerMap fd = some h ∧ h.conn = c) ∨
            Q c u.worker.trace := by
        by_cases hlive : ∃ fd h, t.worker.websocketHandlerMap fd = some h ∧ h.conn = c
        · obtain ⟨fd, h, hfd, rfl⟩ := hlive
          rcases turn_conn hwf hfd ht with ⟨h₁, g, a, hg⟩ |
            ⟨hpc, _, hpend, _, δ', htrace', htx, hab⟩
          · exact Or.inl ⟨fd, h₁, hg.map, hg.step.conn⟩
          · right
            rw [htrace']
            exact hclose _ _ (t.view fd h) fd (hP fd h hfd) (by simp [view, hpc, Pc.phase])
              (by simpa [view] using hpend) (by simp [view, hpc, Pc.rest]) htx hab
        · right
          have hQ := (ih c hc).resolve_left hlive
          rw [htrace]
          refine hrest c _ _ (about_of_ne _ ?_) hQ
          intro o ho he
          rcases hδ o ho with ⟨fd, h, hfd, hoc⟩ | hnew
          · exact hlive ⟨fd, h, hfd, by rw [← hoc, he]⟩
          · rw [he] at hnew
            exact absurd hc (by rw [hnew]; exact Nat.lt_irrefl _)
      rcases turn_begins ht with hages | ⟨fd', hb⟩
      · obtain ⟨δ, htrace, hδ⟩ := hages.trace
        exact hold (by rw [← hages.nextConn]; exact hc) htrace (fun o ho => Or.inl (hδ o ho))
      · rw [hb.nextConn] at hc
        rcases Nat.lt_succ_iff_lt_or_eq.1 hc with hlt | rfl
        · refine hold hlt hb.trace ?_
          intro o ho
          obtain rfl := List.mem_singleton.1 ho
          exact Or.inr rfl
        · exact Or.inl ⟨fd', _, by rw [hb.map, Function.update_self], rfl⟩

/-- The same where `C` is known of the connection before a step. -/
theorem conn_history_of {Q : ℕ → List Obs → Prop} (hok : Promises ok once)
    (hC : ∀ s i fd h, Reachable ok listenfd s → ok s i →
      s.worker.websocketHandlerMap fd = some h → C s.worker.trace (s.view fd h))
    (hnew : ∀ τ c fd p u, (∀ o ∈ τ, o.conn ≠ c) →
      P (τ ++ [.accepted c fd]) ⟨WebsocketHandler.new c fd, .idle, p, u⟩)
    (hstep : ∀ τ δ v g a v', texts δ = g → about v.handler.conn δ = a → ConnStep once v g a v' →
      C τ v → P τ v → P (τ ++ δ) v')
    (hclose : ∀ τ δ v fd, P τ v → v.phase = .idle → v.pending = true → v.upcoming = false →
      texts δ = [] → about v.handler.conn δ = [.closed v.handler.conn fd] →
      Q v.handler.conn (τ ++ δ))
    (hrest : ∀ c τ δ, about c δ = [] → Q c τ → Q c (τ ++ δ))
    (hr : Reachable ok listenfd s) :
    ∀ c < s.worker.nextConn, (∃ fd h, s.worker.websocketHandlerMap fd = some h ∧ h.conn = c) ∨
      Q c s.worker.trace :=
  conn_history_between (K := fun τ v _ _ => C τ v) hok
    (fun s i _ fd h _ hr hi _ hfd _ => hC s i fd h hr hi hfd) hnew hstep hclose hrest hr

/-- The history of a connection without a promise. -/
theorem conn_history {Q : ℕ → List Obs → Prop} (hok : Promises ok once)
    (hnew : ∀ τ c fd p u, (∀ o ∈ τ, o.conn ≠ c) →
      P (τ ++ [.accepted c fd]) ⟨WebsocketHandler.new c fd, .idle, p, u⟩)
    (hstep : ∀ τ δ v g a v', texts δ = g → about v.handler.conn δ = a → ConnStep once v g a v' →
      P τ v → P (τ ++ δ) v')
    (hclose : ∀ τ δ v fd, P τ v → v.phase = .idle → v.pending = true → v.upcoming = false →
      texts δ = [] → about v.handler.conn δ = [.closed v.handler.conn fd] →
      Q v.handler.conn (τ ++ δ))
    (hrest : ∀ c τ δ, about c δ = [] → Q c τ → Q c (τ ++ δ))
    (hr : Reachable ok listenfd s) :
    ∀ c < s.worker.nextConn, (∃ fd h, s.worker.websocketHandlerMap fd = some h ∧ h.conn = c) ∨
      Q c s.worker.trace :=
  conn_history_of (C := fun _ _ => True) hok (fun _ _ _ _ _ _ _ => trivial) hnew
    (fun τ δ v g a v' ht ha h _ => hstep τ δ v g a v' ht ha h) hclose hrest hr

/-- A live connection was live before, or began. -/
theorem live_before (hwf : s.WellFormed once) (ht : Turn s s') {fd : Fd} {h' : WebsocketHandler}
    (hfd : s'.worker.websocketHandlerMap fd = some h') :
    (∃ h, s.worker.websocketHandlerMap fd = some h ∧ h'.conn = h.conn) ∨
      h'.conn = s.worker.nextConn := by
  cases hold : s.worker.websocketHandlerMap fd with
  | some h =>
      left
      rcases turn_conn hwf hold ht with ⟨h₁, g, a, hg⟩ | ⟨_, _, _, hnone, _⟩
      · rw [hg.map, Option.some.injEq] at hfd
        exact ⟨h, rfl, by rw [← hfd]; exact hg.step.conn⟩
      · rw [hnone] at hfd
        cases hfd
  | none =>
      right
      rcases turn_begins ht with hages | ⟨fd', hb⟩
      · rw [hages.map fd hold] at hfd
        cases hfd
      · rw [hb.map] at hfd
        by_cases he : fd = fd'
        · subst he
          rw [Function.update_self, Option.some.injEq] at hfd
          rw [← hfd]
          rfl
        · rw [Function.update_of_ne he, hold] at hfd
          cases hfd

/-- A connection of which `R` holds, of its view and of what has been observed of it since `s`. -/
structure Lives (R : View → List Obs → Prop) (s t : Loop) (fd : Fd) (c : ℕ) : Prop where
  live : ∃ h a, t.worker.websocketHandlerMap fd = some h ∧ h.conn = c ∧
    about c t.worker.trace = about c s.worker.trace ++ a ∧ R (t.view fd h) a

/-- A connection that has been closed since `s`; `R` held before. -/
structure Closed (R : View → List Obs → Prop) (s t : Loop) (c : ℕ) : Prop where
  gone : ∀ fd h, t.worker.websocketHandlerMap fd = some h → h.conn ≠ c
  conn_lt : c < t.worker.nextConn
  history : ∃ v a fd, v.handler.conn = c ∧ R v a ∧ v.phase = .idle ∧ v.pending = true ∧
    v.upcoming = false ∧
    about c t.worker.trace = about c s.worker.trace ++ (a ++ [.closed c fd])

/-- **The rule for the life of a connection from a state on.** -/
theorem conn_run {R : View → List Obs → Prop} (hok : Promises ok once)
    (hwf : s.WellFormed once) (hfd : s.worker.websocketHandlerMap fd = some h)
    (h0 : R (s.view fd h) [])
    (hstep : ∀ v a g b v', ConnStep once v g b v' → R v a → R v' (a ++ b)) {t : Loop}
    (hrun : Transition.Reaches step ok s t) : Lives R s t fd h.conn ∨ Closed R s t h.conn := by
  induction hrun with
  | refl => exact Or.inl ⟨h, [], hfd, rfl, by rw [List.append_nil], h0⟩
  | @tail t u i hreach hi hs ih =>
      have hwf := reaches_wellFormed hok hwf hreach
      have ht := step_turn hwf hs
      rcases ih with ⟨h₁, a, hh₁, hconn, habout, hR⟩ | ⟨hgone, hlt, hhist⟩
      · rcases turn_conn hwf hh₁ ht with ⟨h₂, g, b, hg⟩ | ⟨hpc, _, hpend, hnone, δ, htrace, _, hab⟩
        · left
          obtain ⟨δ, htrace, _, hab⟩ := hg.trace
          refine ⟨h₂, a ++ b, hg.map, hg.step.conn.trans hconn, ?_, hstep _ _ _ _ _ hg.step hR⟩
          rw [htrace, about_append, habout, ← hconn, hab, List.append_assoc]
        · right
          refine ⟨?_, ?_, ?_⟩
          · intro fd' h' hh' he
            rcases live_before hwf ht hh' with ⟨h₀, hh₀, hc₀⟩ | hc₀
            · have := hwf.worker.conn_inj fd' fd h₀ h₁ hh₀ hh₁ (by rw [← hc₀, he, hconn])
              subst this
              rw [hnone] at hh'
              cases hh'
            · have hlt := hwf.worker.conn_lt fd h₁ hh₁
              rw [hconn, ← he, hc₀] at hlt
              exact Nat.lt_irrefl _ hlt
          · have hlt := hwf.worker.conn_lt fd h₁ hh₁
            rw [hconn] at hlt
            rcases turn_begins ht with hages | ⟨fd', hb⟩
            · rw [hages.nextConn]
              exact hlt
            · rw [hb.nextConn]
              exact Nat.lt_succ_of_lt hlt
          · refine ⟨t.view fd h₁, a, fd, hconn, hR, by simp [view, hpc, Pc.phase],
              by simpa [view] using hpend, by simp [view, hpc, Pc.rest], ?_⟩
            rw [htrace, about_append, habout, ← hconn, hab, List.append_assoc]
      · right
        have hsame {δ : List Obs} (htrace : u.worker.trace = t.worker.trace ++ δ)
            (hδ : ∀ o ∈ δ, o.conn ≠ h.conn) :
            about h.conn u.worker.trace = about h.conn t.worker.trace := by
          rw [htrace, about_append, about_of_ne h.conn hδ, List.append_nil]
        refine ⟨?_, ?_, ?_⟩
        · intro fd' h' hh' he
          rcases live_before hwf ht hh' with ⟨h₀, hh₀, hc₀⟩ | hc₀
          · exact hgone fd' h₀ hh₀ (by rw [← hc₀, he])
          · rw [← he, hc₀] at hlt
            exact Nat.lt_irrefl _ hlt
        · rcases turn_begins ht with hages | ⟨fd', hb⟩
          · rw [hages.nextConn]
            exact hlt
          · rw [hb.nextConn]
            exact Nat.lt_succ_of_lt hlt
        · rcases turn_begins ht with hages | ⟨fd', hb⟩
          · obtain ⟨δ, htrace, hδ⟩ := hages.trace
            rw [hsame htrace]
            · exact hhist
            · intro o ho he
              obtain ⟨fd', h', hh', hoc⟩ := hδ o ho
              exact hgone fd' h' hh' (by rw [← hoc, he])
          · rw [hsame hb.trace]
            · exact hhist
            · intro o ho he
              obtain rfl := List.mem_singleton.1 ho
              exact absurd hlt (by rw [← he]; exact Nat.lt_irrefl _)

end Induction

end Loop

end WebSocketDemo
