/-
**What happens to a connection behind its Close frame.**

`handle_one_frame` answers a Close frame by queueing the descriptor; the descriptor is closed when
the batch ends, and until then the frame loop goes on.  `Ending` is the state of a connection in
between: no event of it is left in the batch, so that nothing is read from it and nothing is sent to
it any more, but what is in its buffer is still handled.

Main definitions:

* `Ending` — a connection that is queued and not dispatched any more;
* `CloseEndsBuffer` — no complete frame stands behind a Close frame about to be handled.

Main results:

* `nothing_handled_behind_close` — **a Close frame is the last frame handled where it ends the
  buffer**; `handled_behind_close` — and nowhere else;
* `close_discards_pending` — **the bytes lost at an orderly close are those in `write_buf_` when the
  Close frame is handled**.
-/

import WebSocketDemo.Outgoing

set_option relaxedAutoImplicit false
set_option autoImplicit false

namespace WebSocketDemo

open PrefixDecoder Rfc6455

/-! ### Connections that are about to be closed -/

/-- Descriptors are reported once, so that no event is left of a connection that is dispatched. -/
def Dispatched (v : View) : Prop := v.phase ≠ .idle → v.upcoming = false

/-- A connection that is queued for closing and of which no event is left. -/
structure Ending (v : View) : Prop where
  pending : v.pending = true
  upcoming : v.upcoming = false
  phase : v.phase = .idle ∨ v.phase = .frames

variable {once : Prop} {v v' : View} {g : List Frame} {a b : List Obs}

theorem ConnStep.dispatched (ho : once) (hd : Dispatched v) (h : ConnStep once v g a v') :
    Dispatched v' := by
  have hkeep (hp : v'.phase ≠ .idle → v.phase ≠ .idle) (hu : v'.upcoming = v.upcoming) :
      Dispatched v' := by
    intro hphase
    rw [hu]
    exact hd (hp hphase)
  cases h with
  | quiet hm =>
      cases hm with
      | stay => exact hd
      | batch u hphase _ _ => exact fun hne => absurd hphase hne
      | skip u hphase _ _ => exact fun hne => absurd hphase hne
      | hangup u hphase _ _ => exact fun hne => absurd hphase hne
      | writable u _ _ hu => exact fun _ => hu ho
      | readError _ => exact fun hne => absurd rfl hne
      | wait _ _ _ => exact fun hne => absurd rfl hne
      | drive hphase _ => exact hkeep (fun _ => by rw [hphase]; nofun) rfl
      | flushed _ => exact fun hne => absurd rfl hne
      | sendError _ => exact fun hne => absurd rfl hne
  | readable u _ _ hu => exact fun _ => hu ho
  | received data hphase _ _ _ => exact hkeep (fun _ => by rw [hphase]; nofun) rfl
  | upgrade headerMap rest hphase _ _ _ => exact hkeep (fun _ => by rw [hphase]; nofun) rfl
  | handle f rest request hphase _ _ => exact hkeep (fun _ => by rw [hphase]; nofun) rfl
  | relay f hphase _ _ => exact fun hne => absurd hphase hne
  | overheard f _ _ => exact hd
  | sent n hphase _ _ => exact hkeep (fun _ => by rw [hphase]; nofun) rfl
  | _ => exact fun hne => absurd rfl hne

/-- A queued connection can only be left alone, be driven to the end of its buffer, and be offered
what other connections send. -/
theorem Ending.step (he : Ending v) (h : ConnStep once v g a v') :
    Ending v' ∧ sentBytes a = [] ∧ inbound (b ++ a) = inbound b := by
  obtain ⟨hpending, hupcoming, hphase⟩ := he
  have hne {ph : Phase} (hp : v.phase = ph) (h₁ : ph ≠ .idle) (h₂ : ph ≠ .frames) : False := by
    rcases hphase with hi | hf
    · exact h₁ (hp.symm.trans hi)
    · exact h₂ (hp.symm.trans hf)
  have hno (hu : v.upcoming = true) : False := by
    rw [hupcoming] at hu
    cases hu
  cases h with
  | quiet hm =>
      refine ⟨?_, rfl, by rw [List.append_nil]⟩
      cases hm with
      | stay => exact ⟨hpending, hupcoming, hphase⟩
      | batch u _ hp _ =>
          rw [hpending] at hp
          cases hp
      | skip u _ hu _ => exact (hno hu).elim
      | hangup u _ hu _ => exact (hno hu).elim
      | writable u _ hu _ => exact (hno hu).elim
      | readError hp => exact (hne hp nofun nofun).elim
      | wait hp _ _ => exact (hne hp nofun nofun).elim
      | drive hp _ => exact (hne hp nofun nofun).elim
      | flushed hp => exact (hne hp nofun nofun).elim
      | sendError hp => exact (hne hp nofun nofun).elim
  | readable u _ hu _ => exact (hno hu).elim
  | received data hp _ _ _ => exact (hne hp nofun nofun).elim
  | readRefused data hp _ _ _ => exact (hne hp nofun nofun).elim
  | eof hp => exact (hne hp nofun nofun).elim
  | reject readBuf headerMap hp _ _ => exact (hne hp nofun nofun).elim
  | upgrade headerMap rest hp _ _ _ => exact (hne hp nofun nofun).elim
  | more request hp _ _ =>
      exact ⟨⟨hpending, hupcoming, Or.inl rfl⟩, rfl, by rw [List.append_nil]⟩
  | bad request hp _ _ => exact ⟨⟨rfl, hupcoming, Or.inl rfl⟩, rfl, by rw [inbound_snoc]; rfl⟩
  | handle f rest request hp _ _ =>
      refine ⟨⟨by simp [hpending], hupcoming, Or.inr hp⟩, ?_, ?_⟩
      · exact sentBytes_offerObs v.handler true (reply f)
      · rw [inbound_append]
        exact foldl_inbound_offerObs v.handler true (reply f) (inbound b)
  | relay f hp _ _ =>
      refine ⟨⟨by simp [hpending], hupcoming, Or.inl hp⟩, ?_, ?_⟩
      · exact sentBytes_offerObs v.handler false (relay f)
      · rw [inbound_append]
        exact foldl_inbound_offerObs v.handler false (relay f) (inbound b)
  | overheard f hp _ => exact ⟨⟨hpending, hupcoming, Or.inl hp⟩, rfl, by rw [List.append_nil]⟩
  | sent n hp _ _ => exact (hne hp nofun nofun).elim

/-! ### Frames behind a Close frame -/

/-- No frame but the last is a Close frame. -/
def CloseLast (fs : List Frame) : Prop := ∀ f ∈ fs.dropLast, f.opcode ≠ websocketConnectClose

instance (fs : List Frame) : Decidable (CloseLast fs) :=
  inferInstanceAs (Decidable (∀ f ∈ fs.dropLast, f.opcode ≠ websocketConnectClose))

/-- When the frame at the front of `read_buf_` is a Close frame, no complete frame follows it. -/
def WebsocketHandler.CloseEndsBuffer (h : WebsocketHandler) : Prop :=
  match frameSpec h.readBuf with
  | .item f rest => f.opcode = websocketConnectClose → frameDecoder.Stuck rest
  | _ => True

/-- The same of the connection `c`, at the point where the frame loop looks at its buffer. -/
def CloseEndsBuffer (c : ℕ) (s : Loop) : Prop :=
  match s.pc with
  | .frames fd _ => ∀ h ∈ s.worker.websocketHandlerMap fd, h.conn = c → h.CloseEndsBuffer
  | _ => True

instance (h : WebsocketHandler) : Decidable h.CloseEndsBuffer := by
  unfold WebsocketHandler.CloseEndsBuffer
  split <;> infer_instance

instance (c : ℕ) (s : Loop) : Decidable (CloseEndsBuffer c s) := by
  unfold CloseEndsBuffer
  split <;> infer_instance

/-- A Close frame ends the frames handled so far, and the connection. -/
structure Orderly (v : View) (fs : List Frame) : Prop where
  dispatched : Dispatched v
  last : CloseLast fs
  ending : (∃ f ∈ fs, f.opcode = websocketConnectClose) →
    Ending v ∧ (v.phase = .frames → frameDecoder.Stuck v.handler.readBuf)

/-- **Every step of a connection keeps its frames orderly**, when no frame is complete behind a
Close frame. -/
theorem Orderly.step {fs : List Frame} (ho : once) (hord : Orderly v fs)
    (hC : v.phase = .frames → v.handler.CloseEndsBuffer) (h : ConnStep once v g a v') :
    Orderly v' (fs ++ handledFrames a) := by
  obtain ⟨hd, hlast, hending⟩ := hord
  have hd' := h.dispatched ho hd
  -- a step in which no frame is handled
  have hquiet (hnone : handledFrames a = []) (hread : v'.phase = .frames → v.phase = .frames →
      frameDecoder.Stuck v.handler.readBuf → frameDecoder.Stuck v'.handler.readBuf)
      (hphase : v'.phase = .frames → v.phase ≠ .idle) : Orderly v' (fs ++ handledFrames a) := by
    rw [hnone, List.append_nil]
    refine ⟨hd', hlast, ?_⟩
    intro hex
    obtain ⟨hend, hstuck⟩ := hending hex
    refine ⟨(hend.step (b := []) h).1, ?_⟩
    intro hp
    have hframes := hend.phase.resolve_left (hphase hp)
    exact hread hp hframes (hstuck hframes)
  have hidle (hi : v'.phase = .idle) {q : Prop} (hp : v'.phase = .frames) : q := by
    rw [hi] at hp
    cases hp
  cases h with
  | quiet hm =>
      refine hquiet rfl (fun _ _ hs => by rw [hm.handler]; exact hs) ?_
      cases hm with
      | stay => intro hp; rw [hp]; decide
      | drive hp _ => intro _; rw [hp]; decide
      | batch u hi _ _ => exact hidle hi
      | skip u hi _ _ => exact hidle hi
      | hangup u hi _ _ => exact hidle hi
      | writable u _ _ _ => intro hp; cases hp
      | _ => exact hidle rfl
  | readable u _ _ _ => exact hquiet rfl (fun hp => by cases hp) (fun hp => by cases hp)
  | received data hr _ _ _ =>
      exact hquiet rfl (fun hp => by rw [hr] at hp; cases hp) (fun hp => by rw [hr] at hp; cases hp)
  | upgrade headerMap rest hr _ _ _ =>
      exact hquiet rfl (fun _ hp => by rw [hr] at hp; cases hp) (fun _ => by rw [hr]; decide)
  | sent n hf _ _ =>
      exact hquiet rfl (fun hp => by rw [hf] at hp; cases hp) (fun hp => by rw [hf] at hp; cases hp)
  | overheard f hi _ => exact hquiet rfl (hidle hi) (hidle hi)
  | relay f hi _ _ => exact hquiet (handledFrames_offerObs _ _ _) (hidle hi) (hidle hi)
  | handle f rest request hf hs hspec =>
      -- no Close frame was handled before: the buffer would be stuck
      have hnone : ∀ f' ∈ fs, f'.opcode ≠ websocketConnectClose := by
        intro f' hf' hclose
        exact (hending ⟨f', hf', hclose⟩).2 hf f rest hspec
      rw [handledFrames_handled]
      refine ⟨hd', ?_, ?_⟩
      · intro f' hf'
        rw [List.dropLast_concat] at hf'
        exact hnone f' hf'
      · rintro ⟨f', hf', hclose⟩
        obtain rfl : f' = f := by
          rcases List.mem_append.1 hf' with hm | hm
          · exact absurd hclose (hnone f' hm)
          · exact List.mem_singleton.1 hm
        refine ⟨⟨by simp [hclose], hd (by rw [hf]; decide), Or.inr hf⟩, ?_⟩
        intro _
        have hbuf := hC hf
        rw [WebsocketHandler.CloseEndsBuffer, hspec] at hbuf
        exact hbuf hclose
  | _ => exact hquiet rfl (hidle rfl) (hidle rfl)

/-- **Nothing is handled behind a Close frame**, in every run in which none is followed by a
complete frame in the buffer when it is handled. -/
theorem nothing_handled_behind_close {listenfd : Fd} {s : Loop} {c : ℕ}
    (hr : Loop.Reachable (fun s i => Loop.EpollContract s i ∧ CloseEndsBuffer c s) listenfd s)
    (hc : c < s.worker.nextConn) : CloseLast (handledFrames (about c s.worker.trace)) := by
  have hok : Loop.Promises (fun s i => Loop.EpollContract s i ∧ CloseEndsBuffer c s) True :=
    fun _ _ h _ => h.1
  have hC : ∀ s i fd h,
      Loop.Reachable (fun s i => Loop.EpollContract s i ∧ CloseEndsBuffer c s) listenfd s →
      Loop.EpollContract s i ∧ CloseEndsBuffer c s →
      s.worker.websocketHandlerMap fd = some h → (s.view fd h).handler.conn = c →
      (s.view fd h).phase = .frames → (s.view fd h).handler.CloseEndsBuffer := by
    rintro s i fd h _ ⟨_, hbuf⟩ hfd hconn hp
    obtain ⟨es, hpc⟩ := Loop.pc_of_phase_frames hp
    rw [CloseEndsBuffer, hpc] at hbuf
    exact hbuf h hfd hconn
  have hnew : ∀ τ c' fd p u, (∀ o ∈ τ, o.conn ≠ c') →
      c' = c → Orderly ⟨WebsocketHandler.new c' fd, .idle, p, u⟩
        (handledFrames (about c' (τ ++ [.accepted c' fd]))) := by
    intro τ c' fd p u hτ _
    have hnone := (Loop.account_new τ c' fd p u hτ).unconnect rfl
    rw [hnone.2.1]
    exact ⟨fun hne => absurd rfl hne, by simp [CloseLast], by simp⟩
  have hstep : ∀ (τ δ : List Obs) (v : View) (g : List Frame) (a : List Obs) (v' : View),
      texts δ = g → about v.handler.conn δ = a → ConnStep True v g a v' →
      (v.handler.conn = c → v.phase = .frames → v.handler.CloseEndsBuffer) →
      (v.handler.conn = c → Orderly v (handledFrames (about v.handler.conn τ))) →
      v'.handler.conn = c → Orderly v' (handledFrames (about v'.handler.conn (τ ++ δ))) := by
    intro τ δ v g a v' _ ha hstep hbuf hord hconn
    rw [hstep.conn] at hconn ⊢
    rw [about_append, ha, handledFrames_append]
    exact (hord hconn).step trivial (hbuf hconn) hstep
  have hP := Loop.conn_induction_of
    (C := fun _ v => v.handler.conn = c → v.phase = .frames → v.handler.CloseEndsBuffer)
    (P := fun τ v => v.handler.conn = c → Orderly v (handledFrames (about v.handler.conn τ)))
    hok hC hnew hstep hr
  rcases Loop.conn_history_of
    (C := fun _ v => v.handler.conn = c → v.phase = .frames → v.handler.CloseEndsBuffer)
    (P := fun τ v => v.handler.conn = c → Orderly v (handledFrames (about v.handler.conn τ)))
    (Q := fun c' τ => c' = c → CloseLast (handledFrames (about c' τ))) hok hC hnew hstep
    (fun τ δ v fd hord _ _ _ _ ha hconn => by
      rw [about_append, ha, handledFrames_append]
      simpa [handledFrames] using (hord hconn).last)
    (fun c' τ δ ha hQ => by
      rw [about_append, ha, List.append_nil]
      exact hQ)
    hr c hc with ⟨fd, h, hfd, hconn⟩ | hQ
  · have hlast := (hP fd h hfd hconn).last
    rwa [show (s.view fd h).handler.conn = c from hconn] at hlast
  · exact hQ rfl

/-- A Close frame. -/
def closeFrame : WireFrame := ⟨true, 0, opClose, some sampleKey, []⟩

/-- A client that says "hi" and closes, in one event. -/
theorem nothing_handled_behind_close_hi : ∃ s,
    Loop.Reachable (fun s i => Loop.EpollContract s i ∧ CloseEndsBuffer 1 s) 3 s ∧
      (handledFrames (about 1 s.worker.trace)).length = 2 ∧
      CloseLast (handledFrames (about 1 s.worker.trace)) := by
  have hrun : (Transition.runOk Loop.step (fun s i => Loop.EpollContract s i ∧ CloseEndsBuffer 1 s)
      (Loop.init 3)
      (session [5] ++ receive 5 (hiFrame.encode ++ closeFrame.encode) ++
        [.tau, .tau, .tau, .tau])).map
        (fun s => ((handledFrames (about 1 s.worker.trace)).length,
          decide (1 < s.worker.nextConn))) = some (2, true) := by
    decide +kernel
  obtain ⟨s, hr, hs⟩ := Loop.reachable_of_runOk _ hrun
  injection hs with hlen hconn
  exact ⟨s, hr, hlen, nothing_handled_behind_close hr (of_decide_eq_true hconn)⟩

/-- **Where a complete frame follows the Close frame in the buffer, it is handled next.** -/
theorem handled_behind_close {s : Loop} {fd : Fd} {es : List EpollEvent} {h : WebsocketHandler}
    {f f' : Frame} {rest rest' : Bytes} (hwf : s.WellFormed once) (hpc : s.pc = .frames fd es)
    (hfd : s.worker.websocketHandlerMap fd = some h) (hspec : frameSpec h.readBuf = .item f rest)
    (hnext : frameSpec rest = .item f' rest') :
    ∃ t u, s.step .tau = some t ∧ t.step .tau = some u ∧
      handledFrames (about h.conn u.worker.trace) =
        handledFrames (about h.conn s.worker.trace) ++ [f, f'] := by
  obtain ⟨t, ht⟩ := Loop.frames_turn hwf hpc hfd hspec
  obtain ⟨h₁, hfd₁, hconn, rfl⟩ := ht.map
  obtain ⟨u, hu⟩ := Loop.frames_turn ht.wellFormed ht.pc hfd₁ hnext
  refine ⟨t, u, ht.step, hu.step, ?_⟩
  have hfirst := NetworkInterface.handledFrames_handleObs hwf.worker hfd f
  have hsecond := NetworkInterface.handledFrames_handleObs ht.wellFormed.worker hfd₁ f'
  rw [hconn] at hsecond
  rw [hu.trace, ht.trace, about_append, about_append, handledFrames_append, handledFrames_append,
    hfirst, hsecond, List.append_assoc]
  rfl

/-- **A text frame behind a Close frame is relayed** when both arrive in one event: the other client
is sent "hi" by a client that has closed. -/
theorem text_behind_close_relayed : ∃ s, Loop.Reachable Loop.EpollContract 3 s ∧
    ¬ CloseLast (handledFrames (about 1 s.worker.trace)) ∧
      ∃ o ∈ offers (about 2 s.worker.trace),
        o.taken = true ∧ o.data = (serverFrame opText (ascii "hi")).encode := by
  have hrun : ((Loop.init 3).exec (session [5, 6] ++
      receive 5 (closeFrame.encode ++ hiFrame.encode) ++ [.tau, .tau])).map
        (fun s => (decide (CloseLast (handledFrames (about 1 s.worker.trace))),
          (offers (about 2 s.worker.trace)).tail)) =
      some (false, [⟨(serverFrame opText (ascii "hi")).encode, false, true⟩]) := by
    decide +kernel
  obtain ⟨s, hr, hs⟩ := Loop.reachable_of_exec _ hrun
  injection hs with hlast hoffers
  refine ⟨s, hr, of_decide_eq_false hlast,
    ⟨(serverFrame opText (ascii "hi")).encode, false, true⟩, List.mem_of_mem_tail ?_, rfl, rfl⟩
  rw [hoffers]
  exact List.mem_singleton_self _

/-! ### What an orderly close discards -/

/-- An event of a dispatched connection is not left in the batch. -/
theorem Loop.dispatched {listenfd : Fd} {s : Loop} (hr : Loop.Reachable EpollContract listenfd s)
    {fd : Fd} {h : WebsocketHandler} (hfd : s.worker.websocketHandlerMap fd = some h) :
    Dispatched (s.view fd h) :=
  conn_induction (P := fun _ v => Dispatched v) promises_epollContract
    (fun _ _ _ _ _ _ hne => absurd rfl hne)
    (fun _ _ _ _ _ _ _ _ hstep hd => hstep.dispatched trivial hd) hr fd h hfd

/-- **What is in `write_buf_` when a Close frame is handled is never sent, and nothing else is
lost.**  From the Close frame on, whatever happens, `send` accepts nothing more of the connection,
so that it has been sent what `append_outgoing` had accepted before exactly when the buffer was
empty. -/
theorem close_discards_pending {listenfd : Fd} {s s' t : Loop} {fd : Fd} {es : List EpollEvent}
    {h : WebsocketHandler} {f : Frame} {rest : Bytes}
    (hr : Loop.Reachable Loop.EpollContract listenfd s) (hpc : s.pc = .frames fd es)
    (hfd : s.worker.websocketHandlerMap fd = some h) (hspec : frameSpec h.readBuf = .item f rest)
    (hclose : f.opcode = websocketConnectClose) (hs : s.step .tau = some s')
    (hrun : Transition.Reaches Loop.step Loop.EpollContract s' t) :
    sentBytes (about h.conn t.worker.trace) ++ h.writeBuf =
        (takenData (offers (about h.conn s.worker.trace))).flatten ∧
      ((takenData (offers (about h.conn s.worker.trace))).flatten <+:
        sentBytes (about h.conn t.worker.trace) ↔ h.writeBuf = []) := by
  have hwf := Loop.reachable_wellFormed Loop.promises_epollContract hr
  have hok := Loop.promises_epollContract
  have hstream := (Loop.account hok hr hfd).stream
  obtain ⟨u, hu⟩ := Loop.frames_turn hwf hpc hfd hspec
  obtain rfl : u = s' := by
    rw [hu.step, Option.some.injEq] at hs
    exact hs
  obtain ⟨h₁, hfd₁, hconn, _⟩ := hu.map
  -- the step in which the Close frame is handled
  have hpend : fd ∈ u.worker.pendingCloses := by
    obtain ⟨request, hh⟩ := hu.handles
    refine (hh.pending fd).2 (Or.inr (Or.inl ⟨rfl, ?_, Or.inl hclose⟩))
    exact hwf.worker.nonneg fd h hfd (hwf.pc.current fd (by rw [hpc]; rfl)).1
  have hupcoming : (s.view fd h).upcoming = false :=
    Loop.dispatched hr hfd (by simp [Loop.view, hpc, Pc.phase])
  have hending : Ending (u.view fd h₁) := by
    refine ⟨by simpa [Loop.view] using hpend, ?_, Or.inr (by simp [Loop.view, hu.pc, Pc.phase])⟩
    simpa [Loop.view, hu.pc, hpc, Pc.rest] using hupcoming
  have hfirst : sentBytes (about h.conn u.worker.trace) =
      sentBytes (about h.conn s.worker.trace) := by
    rw [hu.trace, about_append, NetworkInterface.about_handleObs_self hwf.worker hfd f,
      sentBytes_append]
    simp [sentBytes_handled]
  -- the rest of the run
  have hlater : sentBytes (about h.conn t.worker.trace) =
      sentBytes (about h.conn u.worker.trace) := by
    rw [← hconn]
    rcases Loop.conn_run (R := fun v a => Ending v ∧ sentBytes a = []) hok
      hu.wellFormed hfd₁ ⟨hending, rfl⟩
      (fun v a g b v' hstep hR => by
        obtain ⟨he, hsent, _⟩ := hR.1.step (b := []) hstep
        exact ⟨he, by rw [sentBytes_append, hR.2, hsent]; rfl⟩) hrun with
      ⟨_, a, _, _, habout, _, hsent⟩ | ⟨_, _, v, a, fd', _, ⟨_, hsent⟩, _, _, _, habout⟩
    · rw [habout, sentBytes_append, hsent, List.append_nil]
    · rw [habout, sentBytes_append, sentBytes_append, hsent]
      simp [sentBytes]
  rw [hlater, hfirst]
  refine ⟨hstream, ?_, ?_⟩
  · intro hfront
    have hlen := hfront.length_le
    rw [← hstream, List.length_append] at hlen
    exact List.length_eq_zero_iff.1 (by simpa [Loop.view] using hlen)
  · intro hempty
    rw [← hstream]
    simp [Loop.view, hempty]

/-- An environment in which `send` accepts all it is offered. -/
def SendsAll (s : Loop) : Input → Prop
  | .send n =>
      match s.pc with
      | .flushing fd _ => ∀ h ∈ s.worker.websocketHandlerMap fd, n = h.writeBuf.length
      | _ => True
  | .sendAgain => False
  | .sendError => False
  | _ => True

instance (s : Loop) (i : Input) : Decidable (SendsAll s i) := by
  unfold SendsAll
  split
  · split <;> infer_instance
  all_goals infer_instance

/-- A client is sent its response, and then says "hi" and closes in one event; control is where the
Close frame is handled next. -/
def echoAndClose : List Input :=
  session [5] ++ [.epollWait [⟨5, epollOut⟩], .tau, .send 129, .tau, .tau] ++
    receive 5 (hiFrame.encode ++ closeFrame.encode) ++ [.tau]

/-- The client of `echoAndClose`: its echo is lost. -/
theorem close_discards_pending_echo : ∃ s h f rest s',
    Loop.Reachable Loop.EpollContract 3 s ∧ s.worker.websocketHandlerMap 5 = some h ∧
      s.pc = .frames 5 [] ∧ frameSpec h.readBuf = .item f rest ∧
      f.opcode = websocketConnectClose ∧ s.step .tau = some s' ∧
      ∀ t, Transition.Reaches Loop.step Loop.EpollContract s' t →
        sentBytes (about h.conn t.worker.trace) ++ h.writeBuf =
            (takenData (offers (about h.conn s.worker.trace))).flatten ∧
          ((takenData (offers (about h.conn s.worker.trace))).flatten <+:
            sentBytes (about h.conn t.worker.trace) ↔ h.writeBuf = []) := by
  have hrun : ((Loop.init 3).exec echoAndClose).map (fun s => (s.pc, s.nextFrame)) =
      some (.frames 5 [], some ⟨1, websocketConnectClose, []⟩) := by
    decide +kernel
  obtain ⟨s, hr, hs⟩ := Loop.reachable_of_exec _ hrun
  injection hs with hpc hnext
  obtain ⟨h, rest, hfd, hspec⟩ := Loop.of_nextFrame hpc hnext
  have hwf := Loop.reachable_wellFormed Loop.promises_epollContract hr
  obtain ⟨s', hs'⟩ := Loop.frames_turn hwf hpc hfd hspec
  exact ⟨s, h, _, rest, s', hr, hfd, hpc, hspec, rfl, hs'.step, fun t hrun =>
    close_discards_pending hr hpc hfd hspec rfl hs'.step hrun⟩

/-- **An echo is discarded though `send` accepts all it is offered**: the client of `echoAndClose`
is closed with its echo unsent. -/
theorem echo_discarded_at_close : ∃ s t,
    Loop.Reachable (fun s i => Loop.EpollContract s i ∧ SendsAll s i) 3 s ∧
      Transition.Reaches Loop.step (fun s i => Loop.EpollContract s i ∧ SendsAll s i) s t ∧
      s.pc = .frames 5 [] ∧ s.nextFrame = some ⟨1, websocketConnectClose, []⟩ ∧
      (s.worker.websocketHandlerMap 5).map WebsocketHandler.conn = some 1 ∧
      (t.worker.websocketHandlerMap 5).isNone ∧
      ¬ (takenData (offers (about 1 s.worker.trace))).flatten <+:
        sentBytes (about 1 t.worker.trace) := by
  have hrun : ((Transition.runOk Loop.step (fun s i => Loop.EpollContract s i ∧ SendsAll s i)
      (Loop.init 3) echoAndClose).bind fun s =>
        (Transition.runOk Loop.step (fun s i => Loop.EpollContract s i ∧ SendsAll s i) s
          [.tau, .tau, .tau]).map fun t =>
            ((s.pc, s.nextFrame, (s.worker.websocketHandlerMap 5).map WebsocketHandler.conn,
                (takenData (offers (about 1 s.worker.trace))).flatten.length),
              ((t.worker.websocketHandlerMap 5).isNone,
                (sentBytes (about 1 t.worker.trace)).length))) =
      some ((.frames 5 [], some ⟨1, websocketConnectClose, []⟩, some 1, 133), (true, 129)) := by
    decide +kernel
  obtain ⟨s, t, hr, hst, hs, ht⟩ := Loop.reaches_of_runOk _ _ hrun
  injection hs with hpc hs
  injection hs with hnext hs
  injection hs with hconn htaken
  injection ht with hclosed hsent
  refine ⟨s, t, hr, hst, hpc, hnext, hconn, hclosed, fun hfront => ?_⟩
  have hle := hfront.length_le
  rw [htaken, hsent] at hle
  omega

end WebSocketDemo
