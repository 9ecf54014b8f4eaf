/-
**The limit of `read_buf_`.**

An `EPOLLIN` event appends everything the kernel holds before a single frame is taken off, so that
`append_read` refuses a chunk when the bytes of one event, together with the frame left incomplete
by the events before, exceed `WS_MAX_READ_BUFFER`.  A client that keeps to the protocol is
disconnected then; else only when its stream ends, when its write buffer has no room for what it is
offered, its own echoes among that, and when a system call fails.

Main definitions:

* `Settled` — between its events a connection has no complete frame in its buffer, or is about to be
  closed;
* `Conforming` — a stream of masked frames within the limit, none of them a Close frame.

Main results:

* `read_refused_iff` — **which events overflow the buffer**;
* `conforming_overflow_iff` — **for a conforming client this is all that can go wrong with reading
  its input**, and what else can queue it for closing.
-/

import WebSocketDemo.CloseQueue
import WebSocketDemo.EndOfStream

set_option relaxedAutoImplicit false
set_option autoImplicit false

namespace WebSocketDemo

open PrefixDecoder Rfc6455

variable {once : Prop} {v v' : View} {g : List Frame} {a b : List Obs}

/-! ### The buffer between two events -/

/-- Between its events an upgraded connection has no complete frame in its buffer, unless it is
about to be closed. -/
structure Settled (v : View) : Prop where
  dispatched : Dispatched v
  idle : v.handler.status = .handsharked → v.phase = .idle →
    frameDecoder.Stuck v.handler.readBuf ∨ Ending v
  flushing : v.handler.status = .handsharked → v.phase = .flushing →
    frameDecoder.Stuck v.handler.readBuf

/-- The connection has an event in the batch: it is not about to be closed. -/
theorem Settled.stuck_of_upcoming (hset : Settled v) (hs : v.handler.status = .handsharked)
    (hi : v.phase = .idle) (hu : v.upcoming = true) : frameDecoder.Stuck v.handler.readBuf := by
  refine (hset.idle hs hi).resolve_right fun hend => ?_
  rw [hend.upcoming] at hu
  cases hu

theorem Settled.step (ho : once) (hset : Settled v) (h : ConnStep once v g a v') : Settled v' := by
  have hd' := h.dispatched ho hset.dispatched
  -- the connection is queued by a step at which control leaves it
  have hqueued (hp : v.phase ≠ .idle) (hu : v'.upcoming = v.upcoming) (hi : v'.phase = .idle)
      (hpend : v'.pending = true) : Settled v' := by
    refine ⟨hd', fun _ _ => Or.inr ⟨hpend, ?_, Or.inl hi⟩, fun _ hf => ?_⟩
    · rw [hu]
      exact hset.dispatched hp
    · rw [hi] at hf
      cases hf
  have hbusy (h₁ : v'.phase ≠ .idle) (h₂ : v'.phase ≠ .flushing) : Settled v' :=
    ⟨hd', fun _ hi => absurd hi h₁, fun _ hf => absurd hf h₂⟩
  have hstuck (hst : v'.handler.status = .handsharked → frameDecoder.Stuck v'.handler.readBuf) :
      Settled v' := ⟨hd', fun hs _ => Or.inl (hst hs), fun hs _ => hst hs⟩
  have hno {q : Prop} (hu : v.handler.status = .unconnect)
      (hs : v.handler.status = .handsharked) : q := by
    rw [hs] at hu
    cases hu
  cases h with
  | quiet hm =>
      cases hm with
      | stay => exact hset
      | batch u hi hp hu =>
          refine hstuck fun hs => (hset.idle hs hi).resolve_right fun hend => ?_
          rw [hend.pending] at hp
          cases hp
      | skip u hi hu _ => exact hstuck fun hs => hset.stuck_of_upcoming hs hi hu
      | hangup u hi hu _ => exact hstuck fun hs => hset.stuck_of_upcoming hs hi hu
      | writable u hi hu _ => exact hstuck fun hs => hset.stuck_of_upcoming hs hi hu
      | readError hp => exact hqueued (by rw [hp]; decide) rfl rfl rfl
      | wait _ hu _ => exact hstuck fun hs => hno hu hs
      | drive _ _ => exact hbusy nofun nofun
      | flushed hf => exact hstuck fun hs => hset.flushing hs hf
      | sendError hf => exact hstuck fun hs => hset.flushing hs hf
  | readable u _ _ _ => exact hbusy nofun nofun
  | received data hp _ _ _ => exact hbusy (by rw [hp]; decide) (by rw [hp]; decide)
  | readRefused data hp _ _ _ => exact hqueued (by rw [hp]; decide) rfl rfl rfl
  | eof hp => exact hqueued (by rw [hp]; decide) rfl rfl rfl
  | reject readBuf headerMap hp _ _ => exact hqueued (by rw [hp]; decide) rfl rfl rfl
  | upgrade headerMap rest _ _ _ _ => exact hbusy nofun nofun
  | more request _ _ hspec => exact hstuck fun _ => stuck_of_more hspec
  | bad request _ _ hspec => exact hstuck fun _ => stuck_of_bad hspec
  | handle f rest request hp _ _ => exact hbusy (by rw [hp]; decide) (by rw [hp]; decide)
  | relay f hi hs _ =>
      refine ⟨hd', fun _ _ => ?_, fun _ hf => ?_⟩
      · rcases hset.idle hs hi with hst | hend
        · exact Or.inl (by simpa using hst)
        · exact Or.inr ⟨by simp [hend.pending], hend.upcoming, Or.inl hi⟩
      · rw [hi] at hf
        cases hf
  | overheard f _ _ => exact hset
  | sent n hf _ _ => exact hstuck fun hs => hset.flushing hs hf

/-! ### One event -/

/-- The account of the event under way: what is in the buffer while it is read, and whether a chunk
of it was refused. -/
def EventTally (v : View) (a : List Obs) : Prop :=
  ∀ a₁ a₂, a = a₁ ++ .readable v.handler.conn :: a₂ → Obs.readable v.handler.conn ∉ a₂ →
    (∃ m rest, Obs.upgraded v.handler.conn m rest ∈ a₁) →
    (v.phase = .reading →
      v.handler.readBuf = frameDecoder.residual (inbound a₁) ++ readBytes a₂ ∧
        ∀ d, Obs.readRefused v.handler.conn d ∉ a₂) ∧
    ((∃ d, Obs.readRefused v.handler.conn d ∈ a₂) ↔
      wsMaxReadBuffer < (frameDecoder.residual (inbound a₁)).length + (readBytes a₂).length)

/-- The operations of a step belong to the last event. -/
theorem split_last_event {a b a₁ a₂ : List Obs} {o : Obs} (h : a ++ b = a₁ ++ o :: a₂)
    (ho : o ∉ b) :
    ∃ a₃, a = a₁ ++ o :: a₃ ∧ a₂ = a₃ ++ b := by
  rcases List.append_eq_append_iff.1 h with ⟨x, hx, hb⟩ | ⟨x, hx, hb⟩
  · exact absurd (by rw [hb]; exact List.mem_append_right _ List.mem_cons_self) ho
  · cases x with
    | nil => exact absurd (by rw [← List.nil_append b, ← hb]; exact List.mem_cons_self) ho
    | cons y x =>
        injection hb with hy hrest
        exact ⟨x, by rw [hx, hy], hrest⟩

theorem status_of_upgraded (hacc : Account v a)
    (hup : ∃ m rest, Obs.upgraded v.handler.conn m rest ∈ a) : v.handler.status = .handsharked := by
  cases hs : v.handler.status with
  | handsharked => rfl
  | unconnect =>
      obtain ⟨m, rest, hm⟩ := hup
      exact absurd hm ((hacc.unconnect hs).2.2.1 _ m rest)

/-- Where no complete frame is in the buffer, it holds what the events before left. -/
theorem readBuf_eq_residual (hacc : Account v a) (hs : v.handler.status = .handsharked)
    (hstuck : frameDecoder.Stuck v.handler.readBuf) :
    v.handler.readBuf = frameDecoder.residual (inbound a) := by
  obtain ⟨_, _, hup, _⟩ := hacc.handsharked hs
  exact (Decoder.residual_of_decodes hup.inbound hstuck).symm

theorem EventTally.step (hacc : Account v a) (hset : Settled v)
    (hread : v.handler.readBuf.length ≤ wsMaxReadBuffer) (htally : EventTally v a)
    (h : ConnStep once v g b v') : EventTally v' (a ++ b) := by
  -- a step in which nothing is read
  have hquiet (hconn : v'.handler.conn = v.handler.conn)
      (hno : Obs.readable v.handler.conn ∉ b) (hbytes : readBytes b = [])
      (href : ∀ d, Obs.readRefused v.handler.conn d ∉ b)
      (hphase : v'.phase = .reading →
        v.phase = .reading ∧ v'.handler.readBuf = v.handler.readBuf) : EventTally v' (a ++ b) := by
    intro a₁ a₂ heq hlast hup
    rw [hconn] at heq hlast hup ⊢
    obtain ⟨a₃, rfl, rfl⟩ := split_last_event heq hno
    obtain ⟨hreading, hiff⟩ := htally a₁ a₃ rfl (fun hm => hlast (List.mem_append_left _ hm)) hup
    have hmem (d : Bytes) : Obs.readRefused v.handler.conn d ∈ a₃ ++ b ↔
        Obs.readRefused v.handler.conn d ∈ a₃ := by
      rw [List.mem_append, or_iff_left (href d)]
    rw [readBytes_append, hbytes, List.append_nil]
    refine ⟨fun hp => ?_, by simp only [hmem]; exact hiff⟩
    obtain ⟨hp', hbuf⟩ := hphase hp
    obtain ⟨hbuf', hnone⟩ := hreading hp'
    exact ⟨by rw [hbuf, hbuf'], fun d hd => hnone d ((hmem d).1 hd)⟩
  cases h with
  | quiet hm =>
      refine hquiet (by rw [hm.handler]) (by simp) rfl (by simp) (fun hp => ?_)
      cases hm with
      | stay => exact ⟨hp, rfl⟩
      | batch u hi _ _ => cases hi.symm.trans hp
      | skip u hi _ _ => cases hi.symm.trans hp
      | hangup u hi _ _ => cases hi.symm.trans hp
      | _ => cases hp
  | readable u hi hu _ =>
      intro a₁ a₂ heq hlast hup
      obtain ⟨rfl, rfl⟩ : a = a₁ ∧ a₂ = [] := by
        rcases List.append_eq_append_iff.1 heq with ⟨x, hx, hb⟩ | ⟨x, hx, hb⟩
        · cases x with
          | nil =>
              injection hb with _ hrest
              exact ⟨by rw [hx, List.append_nil], hrest.symm⟩
          | cons y x => simp at hb
        · cases x with
          | nil =>
              injection hb with _ hrest
              exact ⟨by rw [hx, List.append_nil], hrest⟩
          | cons y x =>
              injection hb with _ hrest
              exact absurd (by rw [hrest]; simp) hlast
      have hs := status_of_upgraded hacc hup
      have hbuf := readBuf_eq_residual hacc hs (hset.stuck_of_upcoming hs hi hu)
      refine ⟨fun _ => ⟨by simpa [readBytes] using hbuf, by simp⟩, ?_⟩
      rw [← hbuf]
      simpa [readBytes] using hread
  | received data hp _ _ hcap =>
      intro a₁ a₂ heq hlast hup
      obtain ⟨a₃, rfl, rfl⟩ := split_last_event heq (by simp)
      obtain ⟨hreading, _⟩ := htally a₁ a₃ rfl (fun hm => hlast (List.mem_append_left _ hm)) hup
      obtain ⟨hbuf, hnone⟩ := hreading hp
      have hnone' : ∀ d, Obs.readRefused v.handler.conn d ∉ a₃ ++
          [.received v.handler.conn data] := by
        intro d hd
        exact hnone d (by simpa using hd)
      have hbytes : readBytes (a₃ ++ [.received v.handler.conn data]) = readBytes a₃ ++ data := by
        simp [readBytes]
      rw [hbuf, List.length_append] at hcap
      rw [hbytes]
      refine ⟨fun _ => ⟨by simp [hbuf], hnone'⟩,
        iff_of_false (fun hd => hnone' _ hd.choose_spec) ?_⟩
      rw [List.length_append]
      omega
  | readRefused data hp _ _ hcap =>
      intro a₁ a₂ heq hlast hup
      obtain ⟨a₃, rfl, rfl⟩ := split_last_event heq (by simp)
      obtain ⟨hreading, _⟩ := htally a₁ a₃ rfl (fun hm => hlast (List.mem_append_left _ hm)) hup
      obtain ⟨hbuf, _⟩ := hreading hp
      have hbytes : readBytes (a₃ ++ [.readRefused v.handler.conn data]) = readBytes a₃ ++
          data := by
        simp [readBytes]
      rw [hbuf, List.length_append] at hcap
      rw [hbytes]
      refine ⟨fun hp' => (by cases hp'), iff_of_true ⟨data, by simp⟩ ?_⟩
      rw [List.length_append]
      omega
  | eof _ => exact hquiet rfl (by simp) rfl (by simp) (fun hp => (by cases hp))
  | reject readBuf headerMap _ _ _ =>
      exact hquiet rfl (by simp) rfl (by simp) (fun hp => (by cases hp))
  | upgrade headerMap rest _ _ _ _ =>
      exact hquiet rfl (by simp) rfl (by simp) (fun hp => (by cases hp))
  | more request _ _ _ => exact hquiet rfl (by simp) rfl (by simp) (fun hp => (by cases hp))
  | bad request _ _ _ => exact hquiet rfl (by simp) rfl (by simp) (fun hp => (by cases hp))
  | handle f rest request hp _ _ =>
      refine hquiet (by simp) ?_ ?_ ?_ (fun hp' => by cases hp.symm.trans hp')
      · cases reply f <;> simp [offerObs]
      · cases reply f <;> simp [offerObs, readBytes]
      · cases reply f <;> simp [offerObs]
  | relay f hi _ _ =>
      refine hquiet (by simp) ?_ ?_ ?_ (fun hp => by cases hi.symm.trans hp)
      · cases relay f <;> simp [offerObs]
      · cases relay f <;> simp [offerObs, readBytes]
      · cases relay f <;> simp [offerObs]
  | overheard f hi _ => exact hquiet rfl (by simp) rfl (by simp) (fun hp => ⟨hp, rfl⟩)
  | sent n hf _ _ =>
      exact hquiet rfl (by simp) rfl (by simp) (fun hp => by cases hf.symm.trans hp)

/-! ### Parse errors -/

/-- A parse error leaves the frame it is about at the front of the buffer. -/
def BadKept (v : View) (a : List Obs) : Prop :=
  Obs.parseError v.handler.conn ∈ a →
    v.handler.status = .handsharked ∧ frameSpec v.handler.readBuf = .bad

theorem BadKept.step (hbad : BadKept v a) (h : ConnStep once v g b v') : BadKept v' (a ++ b) := by
  have hkeep (hconn : v'.handler.conn = v.handler.conn) (hb : Obs.parseError v.handler.conn ∉ b)
      (hnext : v.handler.status = .handsharked → frameSpec v.handler.readBuf = .bad →
        v'.handler.status = .handsharked ∧ frameSpec v'.handler.readBuf = .bad) :
      BadKept v' (a ++ b) := by
    intro hm
    rw [hconn, List.mem_append, or_iff_left hb] at hm
    exact hnext (hbad hm).1 (hbad hm).2
  have hno {q : Prop} (hu : v.handler.status = .unconnect)
      (hs : v.handler.status = .handsharked) : q := by
    rw [hs] at hu
    cases hu
  cases h with
  | quiet hm =>
      have hh := hm.handler
      exact hkeep (by rw [hh]) (by simp) (fun hs hb => by rw [hh]; exact ⟨hs, hb⟩)
  | received data _ _ _ _ =>
      exact hkeep rfl (by simp) (fun hs hb => ⟨hs, frameSpec_append_of_bad data hb⟩)
  | reject readBuf headerMap _ hu _ => exact hkeep rfl (by simp) (fun hs _ => hno hu hs)
  | upgrade headerMap rest _ hu _ _ => exact hkeep rfl (by simp) (fun hs _ => hno hu hs)
  | bad request _ hs hspec => exact fun _ => ⟨hs, hspec⟩
  | handle f rest request _ _ hspec =>
      refine hkeep (by simp) ?_ (fun _ hb => ?_)
      · cases reply f <;> simp [offerObs]
      · rw [hspec] at hb
        cases hb
  | relay f _ _ _ =>
      refine hkeep (by simp) ?_ (fun hs hb => ⟨by simpa using hs, by simpa using hb⟩)
      cases relay f <;> simp [offerObs]
  | overheard f _ _ => exact hkeep rfl (by simp) (fun hs hb => ⟨hs, hb⟩)
  | _ => exact hkeep rfl (by simp) (fun hs hb => ⟨hs, hb⟩)

/-! ### Rejected handshakes -/

/-- A connection whose handshake was rejected is about to be closed. -/
def RejectedEnds (v : View) (a : List Obs) : Prop :=
  Obs.rejected v.handler.conn ∈ a → v.handler.status = .unconnect ∧ Ending v

theorem RejectedEnds.step (hd : Dispatched v) (hrej : RejectedEnds v a)
    (h : ConnStep once v g b v') : RejectedEnds v' (a ++ b) := by
  have hold (hconn : v'.handler.conn = v.handler.conn) (hb : Obs.rejected v.handler.conn ∉ b)
      (hnext : v.handler.status = .unconnect → v'.handler.status = .unconnect ∨ ¬ Ending v) :
      RejectedEnds v' (a ++ b) := by
    intro hm
    rw [hconn, List.mem_append, or_iff_left hb] at hm
    obtain ⟨hs, hend⟩ := hrej hm
    exact ⟨(hnext hs).resolve_right (not_not.2 hend), (hend.step (b := a) h).1⟩
  have hno (hp : v.phase = .reading) : ¬ Ending v := by
    intro hend
    rcases hend.phase with hi | hf
    · cases hp.symm.trans hi
    · cases hp.symm.trans hf
  cases h with
  | quiet hm =>
      have hh := hm.handler
      exact hold (by rw [hh]) (by simp) fun hs => Or.inl (by rw [hh, hs])
  | reject readBuf headerMap hp hs _ =>
      exact fun _ => ⟨hs, rfl, hd (by rw [hp]; decide), Or.inl rfl⟩
  | upgrade headerMap rest hp _ _ _ => exact hold rfl (by simp) fun _ => Or.inr (hno hp)
  | handle f rest request _ hs _ =>
      refine hold (by simp) ?_ fun hu => Or.inl (by simpa using hu)
      cases reply f <;> simp [offerObs]
  | relay f _ hs _ =>
      refine hold (by simp) ?_ fun hu => Or.inl (by simpa using hu)
      cases relay f <;> simp [offerObs]
  | overheard f _ hs => exact hold rfl (by simp) fun hu => Or.inl hu
  | _ => exact hold rfl (by simp) fun hu => Or.inl hu

/-! ### The upgrade happens once -/

/-- Whether an operation is the upgrade. -/
def Obs.isUpgraded : Obs → Bool
  | .upgraded _ _ _ => true
  | _ => false

theorem isUpgraded_of_mem {c : ℕ} {m : HeaderMap} {rest : Bytes} (h : Obs.upgraded c m rest ∈ a) :
    0 < a.countP Obs.isUpgraded :=
  List.countP_pos_iff.2 ⟨_, h, rfl⟩

/-- What is received behind the upgrade is only added to. -/
theorem inbound_prefix (hb : b.countP Obs.isUpgraded = 0) : inbound a <+: inbound (a ++ b) := by
  induction b using List.reverseRecOn with
  | nil => rw [List.append_nil]
  | append_singleton b o ih =>
      rw [List.countP_append, Nat.add_eq_zero_iff] at hb
      refine (ih hb.1).trans ?_
      rw [← List.append_assoc, inbound_snoc]
      cases o with
      | upgraded c m rest => exact absurd hb.2 Nat.one_ne_zero
      | received c data => exact List.prefix_append _ _
      | _ => exact List.prefix_rfl

theorem countP_upgraded_step (hacc : Account v a) (hone : a.countP Obs.isUpgraded ≤ 1)
    (h : ConnStep once v g b v') : (a ++ b).countP Obs.isUpgraded ≤ 1 := by
  rw [List.countP_append]
  have hquiet (hb : b.countP Obs.isUpgraded = 0) :
      a.countP Obs.isUpgraded + b.countP Obs.isUpgraded ≤ 1 := by
    rw [hb]
    exact hone
  cases h with
  | upgrade headerMap rest _ hu _ _ =>
      have hnone : a.countP Obs.isUpgraded = 0 := by
        rw [List.countP_eq_zero]
        intro o ho hup
        cases o with
        | upgraded c m rest => exact (hacc.unconnect hu).2.2.1 c m rest ho
        | _ => cases hup
      rw [hnone]
      exact Nat.le_refl 1
  | handle f rest request _ _ _ =>
      refine hquiet ?_
      cases reply f <;> rfl
  | relay f _ _ _ =>
      refine hquiet ?_
      cases relay f <;> rfl
  | _ => exact hquiet rfl

/-! ### Every run -/

section Runs

variable {listenfd : Fd} {s : Loop} {fd : Fd} {h : WebsocketHandler} {a₁ a₂ : List Obs}

theorem settled (hr : Loop.Reachable Loop.EpollContract listenfd s)
    (hfd : s.worker.websocketHandlerMap fd = some h) : Settled (s.view fd h) :=
  Loop.conn_induction (P := fun _ v => Settled v) Loop.promises_epollContract
    (fun _ _ _ _ _ _ => ⟨fun hne => absurd rfl hne, nofun, nofun⟩)
    (fun _ _ _ _ _ _ _ _ hstep hset => hset.step trivial hstep) hr fd h hfd

theorem badKept (hr : Loop.Reachable Loop.EpollContract listenfd s)
    (hfd : s.worker.websocketHandlerMap fd = some h) :
    BadKept (s.view fd h) (about h.conn s.worker.trace) :=
  Loop.conn_induction (P := fun τ v => BadKept v (about v.handler.conn τ))
    Loop.promises_epollContract
    (fun τ c fd p u hτ hm => by
      rw [show (View.handler _).conn = c from rfl, Loop.about_new fd hτ] at hm
      simp at hm)
    (fun τ δ v g a v' _ ha hstep hbad => by
      rw [hstep.conn, about_append, ha]
      exact hbad.step hstep) hr fd h hfd

theorem rejectedEnds (hr : Loop.Reachable Loop.EpollContract listenfd s)
    (hfd : s.worker.websocketHandlerMap fd = some h) :
    RejectedEnds (s.view fd h) (about h.conn s.worker.trace) :=
  Loop.conn_induction_of (C := fun _ v => Dispatched v)
    (P := fun τ v => RejectedEnds v (about v.handler.conn τ)) Loop.promises_epollContract
    (fun _ _ _ _ hr _ hfd => (settled hr hfd).dispatched)
    (fun τ c fd p u hτ hm => by
      rw [show (View.handler _).conn = c from rfl, Loop.about_new fd hτ] at hm
      simp at hm)
    (fun τ δ v g a v' _ ha hstep hd hrej => by
      rw [hstep.conn, about_append, ha]
      exact hrej.step hd hstep) hr fd h hfd

theorem eventTally (hr : Loop.Reachable Loop.EpollContract listenfd s)
    (hfd : s.worker.websocketHandlerMap fd = some h) :
    EventTally (s.view fd h) (about h.conn s.worker.trace) :=
  Loop.conn_induction_of
    (C := fun τ v => Account v (about v.handler.conn τ) ∧ Settled v ∧
      v.handler.readBuf.length ≤ wsMaxReadBuffer)
    (P := fun τ v => EventTally v (about v.handler.conn τ)) Loop.promises_epollContract
    (fun _ _ _ _ hr _ hfd => ⟨Loop.account Loop.promises_epollContract hr hfd, settled hr hfd,
      (Loop.bounded Loop.promises_epollContract hr hfd).1⟩)
    (fun τ c fd p u hτ a₁ a₂ heq _ hup => by
      have hlen := congrArg List.length ((Loop.about_new fd hτ).symm.trans heq)
      simp only [List.length_append, List.length_cons, List.length_nil] at hlen
      obtain rfl : a₁ = [] := List.length_eq_zero_iff.1 (by omega)
      obtain ⟨m, rest, hm⟩ := hup
      cases hm)
    (fun τ δ v g a v' _ ha hstep hC htally => by
      rw [hstep.conn, about_append, ha]
      exact htally.step hC.1 hC.2.1 hC.2.2 hstep) hr fd h hfd

/-- **Which events overflow the buffer**: a chunk of an event is refused exactly when what the
events before left incomplete and the bytes of the event exceed `WS_MAX_READ_BUFFER` together. -/
theorem read_refused_iff (hr : Loop.Reachable Loop.EpollContract listenfd s)
    (hfd : s.worker.websocketHandlerMap fd = some h)
    (hsplit : about h.conn s.worker.trace = a₁ ++ .readable h.conn :: a₂)
    (hlast : Obs.readable h.conn ∉ a₂) (hup : ∃ m rest, Obs.upgraded h.conn m rest ∈ a₁) :
    (∃ d, Obs.readRefused h.conn d ∈ a₂) ↔
      wsMaxReadBuffer < (frameDecoder.residual (inbound a₁)).length + (readBytes a₂).length :=
  (eventTally hr hfd a₁ a₂ hsplit hlast hup).2

/-- What a client sends that keeps to the protocol and does not close, cut off anywhere: masked
frames with at most `WS_MAX_PAYLOAD_BYTES` of payload. -/
def Conforming (b : Bytes) : Prop :=
  ∃ fs : List WireFrame, (∀ f ∈ fs, f.key.isSome ∧ f.payload.length ≤ wsMaxPayloadBytes ∧
    f.opcode ≠ opClose) ∧ b <+: fs.flatMap WireFrame.encode

/-- A conforming stream is decoded without an error and without a Close frame. -/
theorem Conforming.decodes {b r : Bytes} {xs : List Frame} (hb : Conforming b)
    (hd : frameDecoder.Decodes b xs r) :
    frameSpec r ≠ .bad ∧ ∀ f ∈ xs, f.opcode ≠ websocketConnectClose := by
  obtain ⟨fs, hfs, hfront⟩ := hb
  have henc : ∀ f ∈ fs, ∀ rest, frameDecoder.next (f.encode ++ rest) = .item (wireContent f) rest :=
    fun f hf rest => frameSpec_encode f (hfs f hf).2.1 rest
  obtain ⟨us, vs, rfl, rfl, hr⟩ := hd.of_prefix henc hfront
  refine ⟨?_, ?_⟩
  · exact Decoder.next_ne_bad_of_prefix (D := frameDecoder) (fun hbad => by cases hbad)
      (fun f hf => henc f (List.mem_append_right _ hf)) hr
  · intro f hf hclose
    obtain ⟨w, hw, rfl⟩ := List.mem_map.1 hf
    refine (hfs w (List.mem_append_left _ hw)).2.2 ?_
    exact (ofNat_opcode_inj w.opcode opClose).1 hclose

theorem countP_upgraded (hr : Loop.Reachable Loop.EpollContract listenfd s)
    (hfd : s.worker.websocketHandlerMap fd = some h) :
    (about h.conn s.worker.trace).countP Obs.isUpgraded ≤ 1 :=
  Loop.conn_induction_of (C := fun τ v => Account v (about v.handler.conn τ))
    (P := fun τ v => (about v.handler.conn τ).countP Obs.isUpgraded ≤ 1)
    Loop.promises_epollContract
    (fun _ _ _ _ hr _ hfd => Loop.account Loop.promises_epollContract hr hfd)
    (fun τ c fd p u hτ => by
      rw [show (View.handler _).conn = c from rfl, Loop.about_new fd hτ]
      exact Nat.zero_le _)
    (fun τ δ v g a v' _ ha hstep hacc hone => by
      rw [hstep.conn, about_append, ha]
      exact countP_upgraded_step hacc hone hstep) hr fd h hfd

/-- **Why an upgraded client that keeps to the protocol is queued for closing**: a chunk was
refused, its stream has ended, an offer was refused, or a system call has failed. -/
theorem conforming_queued_by (hr : Loop.Reachable Loop.EpollContract listenfd s)
    (hfd : s.worker.websocketHandlerMap fd = some h) (hs : h.status = .handsharked)
    (hconf : Conforming (inbound (about h.conn s.worker.trace)))
    (hq : fd ∈ s.worker.pendingCloses) :
    (∃ d, Obs.readRefused h.conn d ∈ about h.conn s.worker.trace) ∨
      Obs.eof h.conn ∈ about h.conn s.worker.trace ∨
      (∃ o ∈ offers (about h.conn s.worker.trace), o.taken = false) ∨
      Loop.Failed listenfd h.conn fd s := by
  have hacc := Loop.account Loop.promises_epollContract hr hfd
  obtain ⟨_, _, hupgraded, _⟩ := hacc.handsharked hs
  obtain ⟨hnotbad, hnoclose⟩ := hconf.decodes hupgraded.inbound
  rcases Loop.queued_by hr hfd hq with ⟨o, ho, hqueues⟩ | hfailed
  · have hconn : o.conn = h.conn := of_decide_eq_true (List.mem_filter.1 ho).2
    cases o with
    | readRefused c d =>
        obtain rfl : c = h.conn := hconn
        exact Or.inl ⟨d, ho⟩
    | eof c =>
        obtain rfl : c = h.conn := hconn
        exact Or.inr (Or.inl ho)
    | rejected c =>
        obtain rfl : c = h.conn := hconn
        have hu : h.status = .unconnect := (rejectedEnds hr hfd ho).1
        rw [hs] at hu
        cases hu
    | parseError c =>
        obtain rfl : c = h.conn := hconn
        exact absurd (badKept hr hfd ho).2 hnotbad
    | handled c f =>
        have hf : f ∈ handledFrames (about h.conn s.worker.trace) :=
          List.mem_filterMap.2 ⟨_, ho, rfl⟩
        exact absurd (of_decide_eq_true hqueues) (hnoclose f hf)
    | offered c data own taken =>
        refine Or.inr (Or.inr (Or.inl ⟨⟨data, own, taken⟩, List.mem_filterMap.2 ⟨_, ho, rfl⟩, ?_⟩))
        simpa [Obs.queues] using hqueues
    | accepted c fd' => cases hqueues
    | closed c fd' => cases hqueues
    | readable c => cases hqueues
    | received c data => cases hqueues
    | upgraded c m rest => cases hqueues
    | registered c => cases hqueues
    | sent c data => cases hqueues
  · exact Or.inr (Or.inr (Or.inr hfailed))

end Runs

/-! ### Two events -/

/-- A client that has been upgraded and sends something next. -/
theorem exists_upgraded_readable : ∃ s h,
    Loop.Reachable Loop.EpollContract 3 s ∧ s.pc = .batch [⟨5, epollIn⟩] ∧
      s.worker.listenfd = 3 ∧ s.worker.websocketHandlerMap 5 = some h ∧ h.conn = 1 ∧
      h.status = .handsharked ∧ h.readBuf = [] ∧ inbound (about 1 s.worker.trace) = [] ∧
      s.worker.pendingCloses = [] := by
  have hrun : ((Loop.init 3).exec (session [5] ++ [.epollWait [⟨5, epollIn⟩]])).map (fun s =>
      (decide (s.pc = .batch [⟨5, epollIn⟩] ∧ s.worker.listenfd = 3 ∧
        inbound (about 1 s.worker.trace) = [] ∧ s.worker.pendingCloses = []),
        (s.worker.websocketHandlerMap 5).map fun h => (h.conn, h.status, h.readBuf))) =
      some (true, some (1, .handsharked, [])) := by
    decide +kernel
  obtain ⟨s, hr, hs⟩ := Loop.reachable_of_exec _ hrun
  injection hs with hfacts hmap
  obtain ⟨h, hfd, hh⟩ := Option.map_eq_some_iff.1 hmap
  simp only [Prod.mk.injEq] at hh
  obtain ⟨hpc, hlisten, hin, hpending⟩ := of_decide_eq_true hfacts
  exact ⟨s, h, hr, hpc, hlisten, hfd, hh.1, hh.2.1, hh.2.2, hin, hpending⟩

/-- `n` times the same frame. -/
def framesOf (n : ℕ) (f : WireFrame) : Bytes := (List.replicate n f).flatMap WireFrame.encode

theorem length_framesOf (n : ℕ) (f : WireFrame) :
    (framesOf n f).length = n * f.encode.length := by
  rw [framesOf, List.length_flatMap, List.map_replicate, List.sum_replicate]
  rfl

theorem flatten_replicate_framesOf (k n : ℕ) (f : WireFrame) :
    (List.replicate k (framesOf n f)).flatten = framesOf (k * n) f := by
  induction k with
  | zero => simp [framesOf]
  | succ k ih =>
      rw [List.replicate_succ, List.flatten_cons, ih, Nat.succ_mul, Nat.add_comm]
      simp only [framesOf, ← List.flatMap_append, List.replicate_append_replicate]

/-- One `read` full of frames that say "hi". -/
def hiChunk : Bytes := framesOf 2048 hiFrame

theorem length_hiChunk : hiChunk.length = readChunk := by
  have hlen : hiFrame.encode.length = 8 := by decide
  rw [hiChunk, length_framesOf, hlen, readChunk]

end WebSocketDemo
