/-
**What a client receives after it has refused a frame.**

When a frame does not fit into `write_buf_` it is dropped and the descriptor is queued.  Until the
batch ends the connection goes on: a smaller frame may be appended, and an `EPOLLOUT` event of the
batch may still flush it, so that the client receives a sequence of frames with one missing.

Main results:

* `no_gap_unless_flushed` — **what a client receives is made of the frames taken, and there is no
  gap in it unless a frame taken behind the refusal is flushed**;
* `gap_flushed` — a client that receives such a gap.
-/

import WebSocketDemo.Interest
import WebSocketDemo.ReadBuffer

set_option relaxedAutoImplicit false
set_option autoImplicit false

namespace WebSocketDemo

open PrefixDecoder Rfc6455

variable {once : Prop} {v v' : View} {g : List Frame} {a b : List Obs}

/-! ### Only what was taken is sent -/

/-- At every point of its history a connection has been sent the front of what it took. -/
def SentTaken (a : List Obs) : Prop :=
  ∀ p, p <+: a → sentBytes p <+: (takenData (offers p)).flatten

theorem SentTaken.append (h : SentTaken a)
    (hb : ∀ p, p <+: b → p ≠ [] → sentBytes (a ++ p) <+: (takenData (offers (a ++ p))).flatten) :
    SentTaken (a ++ b) := by
  rintro p ⟨q, hq⟩
  rcases List.append_eq_append_iff.1 hq with ⟨x, hx, hb'⟩ | ⟨x, rfl, hx⟩
  · exact h p ⟨x, hx.symm⟩
  · cases x with
    | nil =>
        rw [List.append_nil]
        exact h a List.prefix_rfl
    | cons o x => exact hb (o :: x) ⟨q, hx.symm⟩ (by simp)

/-- Operations behind which nothing more is sent. -/
theorem SentTaken.append_unsent (h : SentTaken a) (hb : sentBytes b = []) : SentTaken (a ++ b) := by
  refine h.append ?_
  rintro p ⟨q, rfl⟩ _
  rw [sentBytes_append] at hb ⊢
  rw [(List.append_eq_nil_iff.1 hb).1, List.append_nil, offers_append, takenData_append,
    List.flatten_append]
  exact (h a List.prefix_rfl).trans (List.prefix_append _ _)

theorem SentTaken.step (hacc : Account v a) (h : SentTaken a) (hs : ConnStep once v g b v') :
    SentTaken (a ++ b) := by
  have hafter := (hacc.step hs).stream
  cases hs with
  | sent n _ _ _ =>
      refine h.append ?_
      rintro p ⟨q, hq⟩ hne
      cases p with
      | nil => exact absurd rfl hne
      | cons o p =>
          injection hq with ho hp
          obtain ⟨rfl, _⟩ := List.append_eq_nil_iff.1 hp
          subst ho
          exact ⟨_, hafter⟩
  | handle f rest request _ _ _ => exact h.append_unsent (sentBytes_handled _ _ _ _ _)
  | relay f _ _ _ => exact h.append_unsent (sentBytes_offerObs _ _ _)
  | _ => exact h.append_unsent rfl

/-- A refusal queues the connection. -/
def RefusedQueued (v : View) (a : List Obs) : Prop :=
  (∃ o ∈ offers a, o.taken = false) → v.pending = true

theorem RefusedQueued.step (h : RefusedQueued v a) (hs : ConnStep once v g b v') :
    RefusedQueued v' (a ++ b) := by
  have hkeep (hb : ∀ o ∈ offers b, o.taken = true) (hp : v.pending = true → v'.pending = true) :
      RefusedQueued v' (a ++ b) := by
    rintro ⟨o, ho, htaken⟩
    rw [offers_append] at ho
    rcases List.mem_append.1 ho with ho | ho
    · exact hp (h ⟨o, ho, htaken⟩)
    · rw [hb o ho] at htaken
      cases htaken
  -- an offer is refused by the handler, and then queues it
  have hoffer (own : Bool) (data : Option Bytes) (hb : offers b = v.handler.offerOf own data)
      (hp : v'.pending = true ↔ v.pending = true ∨ v.handler.refuses data = true ∨
        v'.pending = true) :
      RefusedQueued v' (a ++ b) := by
    rintro ⟨o, ho, htaken⟩
    rw [offers_append, hb] at ho
    rcases List.mem_append.1 ho with ho | ho
    · exact hp.2 (Or.inl (h ⟨o, ho, htaken⟩))
    · cases data with
      | none => simp [WebsocketHandler.offerOf] at ho
      | some d =>
          obtain rfl : o = ⟨d, own, v.handler.accepts d⟩ := by
            simpa [WebsocketHandler.offerOf] using ho
          refine hp.2 (Or.inr (Or.inl ?_))
          have hno : v.handler.accepts d = false := htaken
          simp [WebsocketHandler.refuses, hno]
  cases hs with
  | quiet hm =>
      refine hkeep (by simp [offers]) fun hp => ?_
      cases hm with
      | hangup u _ _ _ => rfl
      | readError _ => rfl
      | sendError _ => rfl
      | _ => exact hp
  | upgrade headerMap rest _ _ _ _ => exact hkeep (by simp [offers]) id
  | handle f rest request _ _ _ =>
      refine hoffer true (reply f) (offers_offerObs _ _ _) ?_
      simp only [Bool.or_eq_true]
      tauto
  | relay f _ _ _ =>
      refine hoffer false (relay f) (offers_offerObs _ _ _) ?_
      simp only [Bool.or_eq_true]
      tauto
  | readRefused data _ _ _ _ => exact hkeep (by simp [offers]) fun _ => rfl
  | eof _ => exact hkeep (by simp [offers]) fun _ => rfl
  | reject readBuf headerMap _ _ _ => exact hkeep (by simp [offers]) fun _ => rfl
  | bad request _ _ _ => exact hkeep (by simp [offers]) fun _ => rfl
  | _ => exact hkeep (by simp [offers]) id

/-! ### No gap -/

/-- Everything a connection has been offered, in order: the whole sequence intended for it. -/
def intended (a : List Obs) : Bytes := ((offers a).map Offer.data).flatten

/-- Nothing is sent once a frame has been taken behind a refusal. -/
def NotFlushed (a : List Obs) : Prop :=
  ∀ a₁ c d own b₁ c' d' own' b₂,
    a = a₁ ++ .offered c d own false :: (b₁ ++ .offered c' d' own' true :: b₂) → sentBytes b₂ = []

/-- The first offer that was taken, or refused. -/
theorem split_first_offer (t : Bool) (a : List Obs) : (∀ o ∈ offers a, o.taken = !t) ∨
    ∃ a₁ c d own a₂, a = a₁ ++ .offered c d own t :: a₂ ∧ ∀ o ∈ offers a₁, o.taken = !t := by
  induction a with
  | nil => exact Or.inl (by simp [offers])
  | cons o a ih =>
      cases o with
      | offered c d own t' =>
          cases Bool.eq_or_eq_not t' t with
          | inl ht =>
              subst ht
              exact Or.inr ⟨[], c, d, own, a, rfl, by simp [offers]⟩
          | inr ht =>
              have hoffers (b : List Obs) : offers (.offered c d own t' :: b) =
                  ⟨d, own, t'⟩ :: offers b := rfl
              rcases ih with hall | ⟨a₁, c', d', own', a₂, rfl, hfirst⟩
              · left
                rw [hoffers]
                exact List.forall_mem_cons.2 ⟨ht, hall⟩
              · refine Or.inr ⟨.offered c d own t' :: a₁, c', d', own', a₂, rfl, ?_⟩
                rw [hoffers]
                exact List.forall_mem_cons.2 ⟨ht, hfirst⟩
      | _ =>
          rcases ih with hall | ⟨a₁, c', d', own', a₂, rfl, hfirst⟩
          · exact Or.inl hall
          · exact Or.inr ⟨_ :: a₁, c', d', own', a₂, rfl, hfirst⟩

theorem takenData_of_taken {os : List Offer} (h : ∀ o ∈ os, o.taken = true) :
    takenData os = os.map Offer.data := by
  rw [takenData, List.filter_eq_self.2 h]

theorem takenData_of_refused {os : List Offer} (h : ∀ o ∈ os, o.taken = false) :
    takenData os = [] := by
  rw [takenData, List.filter_eq_nil_iff.2 fun o ho => by simp [h o ho]]
  rfl

theorem intended_append : intended (a ++ b) = intended a ++ intended b := by
  simp [intended]

theorem intended_of_taken (h : ∀ o ∈ offers a, o.taken = true) :
    intended a = (takenData (offers a)).flatten := by
  rw [intended, takenData_of_taken h]

section Refusal

variable {a₁ a₂ : List Obs} {c : ℕ} {d : Bytes} {own : Bool}

/-- Nothing behind the first refusal is sent. -/
theorem SentTaken.sent_prefix_of_first
    (h : SentTaken (a₁ ++ .offered c d own false :: a₂))
    (hn : NotFlushed (a₁ ++ .offered c d own false :: a₂))
    (htaken : ∀ o ∈ offers a₁, o.taken = true) :
    sentBytes (a₁ ++ .offered c d own false :: a₂) <+: intended a₁ := by
  have hbefore (b₁ b₂ : List Obs) (hb : a₂ = b₁ ++ b₂)
      (hrefused : ∀ o ∈ offers b₁, o.taken = false) :
      sentBytes (a₁ ++ .offered c d own false :: b₁) <+: intended a₁ := by
    have hsent := h (a₁ ++ .offered c d own false :: b₁) ⟨b₂, by rw [hb]; simp⟩
    have hnone : takenData (offers (.offered c d own false :: b₁)) = [] :=
      takenData_of_refused (List.forall_mem_cons.2 ⟨rfl, hrefused⟩)
    rw [offers_append, takenData_append, hnone, List.append_nil] at hsent
    rw [intended_of_taken htaken]
    exact hsent
  rcases split_first_offer true a₂ with hrefused | ⟨b₁, c', d', own', b₂, rfl, hrefused⟩
  · exact hbefore a₂ [] (by simp) hrefused
  · -- what is sent is sent before the first frame taken behind the refusal
    have hnil := hn a₁ c d own b₁ c' d' own' b₂ rfl
    have hsent : sentBytes (a₁ ++ .offered c d own false ::
        (b₁ ++ .offered c' d' own' true :: b₂)) =
        sentBytes (a₁ ++ .offered c d own false :: b₁) ++ sentBytes b₂ := by
      simp [sentBytes]
    rw [hsent, hnil, List.append_nil]
    exact hbefore b₁ _ rfl hrefused

/-- Nothing behind a refusal is sent. -/
theorem SentTaken.sent_prefix_of_refused (h : SentTaken a) (hn : NotFlushed a)
    (ha : a = a₁ ++ .offered c d own false :: a₂) : sentBytes a <+: intended a₁ := by
  subst ha
  rcases split_first_offer false a₁ with htaken | ⟨p, c', d', own', q, rfl, htaken⟩
  · exact h.sent_prefix_of_first hn htaken
  · rw [List.append_assoc, List.cons_append] at h hn ⊢
    refine (h.sent_prefix_of_first hn htaken).trans ?_
    rw [intended_append]
    exact List.prefix_append _ _

/-- **Where nothing taken behind a refusal is flushed, what is sent has no gap.** -/
theorem SentTaken.sent_prefix (h : SentTaken a) (hn : NotFlushed a) :
    sentBytes a <+: intended a := by
  rcases split_first_offer false a with htaken | ⟨a₁, c, d, own, a₂, rfl, htaken⟩
  · rw [intended_of_taken htaken]
    exact h a List.prefix_rfl
  · refine (h.sent_prefix_of_first hn htaken).trans ?_
    rw [intended_append]
    exact List.prefix_append _ _

end Refusal

/-! ### Every run -/

section Runs

variable {listenfd : Fd} {s : Loop} {fd : Fd} {h : WebsocketHandler}

theorem sentTaken_new {τ : List Obs} {c : ℕ} (fd : Fd) (hτ : ∀ o ∈ τ, o.conn ≠ c) :
    SentTaken (about c (τ ++ [.accepted c fd])) := by
  rw [Loop.about_new fd hτ]
  exact SentTaken.append_unsent (a := []) (by rintro p ⟨q, hq⟩; simp_all [sentBytes]) rfl

/-- A connection that has refused a frame is queued for closing. -/
theorem refusedQueued {ok : Loop → Input → Prop} (hok : Loop.Promises ok once)
    (hr : Loop.Reachable ok listenfd s) (hfd : s.worker.websocketHandlerMap fd = some h) :
    RefusedQueued (s.view fd h) (about h.conn s.worker.trace) :=
  Loop.conn_induction (P := fun τ v => RefusedQueued v (about v.handler.conn τ)) hok
    (fun τ c fd p u hτ => by
      rintro ⟨o, ho, _⟩
      rw [show (View.handler _).conn = c from rfl, Loop.about_new fd hτ] at ho
      simp [offers] at ho)
    (fun τ δ v g a v' _ ha hstep hq => by
      rw [hstep.conn, about_append, ha]
      exact hq.step hstep) hr fd h hfd

/-- What any connection of a run has been sent, live or closed. -/
theorem sentTaken {ok : Loop → Input → Prop} (hok : Loop.Promises ok once)
    (hr : Loop.Reachable ok listenfd s) {c : ℕ} (hc : c < s.worker.nextConn) :
    SentTaken (about c s.worker.trace) := by
  have hC (s : Loop) (i : Input) (fd : Fd) (h : WebsocketHandler)
      (hr : Loop.Reachable ok listenfd s)
      (_ : ok s i) (hfd : s.worker.websocketHandlerMap fd = some h) :
      Account (s.view fd h) (about h.conn s.worker.trace) := Loop.account hok hr hfd
  have hstep (τ δ : List Obs) (v : View) (g : List Frame) (a : List Obs) (v' : View)
      (_ : texts δ = g) (ha : about v.handler.conn δ = a) (hs : ConnStep once v g a v')
      (hacc : Account v (about v.handler.conn τ)) (h : SentTaken (about v.handler.conn τ)) :
      SentTaken (about v'.handler.conn (τ ++ δ)) := by
    rw [hs.conn, about_append, ha]
    exact h.step hacc hs
  rcases Loop.conn_history_of (C := fun τ v => Account v (about v.handler.conn τ))
      (P := fun τ v => SentTaken (about v.handler.conn τ)) (Q := fun c τ => SentTaken (about c τ))
      hok hC (fun τ c fd p u hτ => sentTaken_new fd hτ) hstep
      (fun τ δ v fd h _ _ _ _ hab => by
        rw [about_append, hab]
        exact h.append_unsent rfl)
      (fun c τ δ hab h => by
        rw [about_append, hab, List.append_nil]
        exact h) hr c hc with ⟨fd, h, hfd, rfl⟩ | hclosed
  · exact Loop.conn_induction_of (C := fun τ v => Account v (about v.handler.conn τ))
      (P := fun τ v => SentTaken (about v.handler.conn τ)) hok hC
      (fun τ c fd p u hτ => sentTaken_new fd hτ) hstep hr fd h hfd
  · exact hclosed

/-- **No gap unless a frame behind it is flushed.**  A connection that has refused a frame is
queued, so that it is gone before the worker waits again; what a client receives, to the close, is
always the front of what was appended for it, and the front of everything intended for it, nothing
behind a refusal among it, when `send` is not called for it once a frame has been appended behind
one. -/
theorem no_gap_unless_flushed (hr : Loop.Reachable Loop.AnyBatch listenfd s) :
    (∀ fd h, s.worker.websocketHandlerMap fd = some h →
      (∃ o ∈ offers (about h.conn s.worker.trace), o.taken = false) →
      fd ∈ s.worker.pendingCloses ∧ s.pc ≠ .waiting) ∧
    ∀ c < s.worker.nextConn,
      sentBytes (about c s.worker.trace) <+:
        (takenData (offers (about c s.worker.trace))).flatten ∧
      (NotFlushed (about c s.worker.trace) →
        sentBytes (about c s.worker.trace) <+: intended (about c s.worker.trace) ∧
        ∀ a₁ c' d own a₂, about c s.worker.trace = a₁ ++ .offered c' d own false :: a₂ →
          sentBytes (about c s.worker.trace) <+: intended a₁) := by
  constructor
  · intro fd h hfd hrefused
    have hq : (s.view fd h).pending = true :=
      refusedQueued Loop.promises_anyBatch hr hfd hrefused
    have hmem : fd ∈ s.worker.pendingCloses := of_decide_eq_true hq
    refine ⟨hmem, fun hpc => ?_⟩
    rw [(Loop.reachable_wellFormed Loop.promises_anyBatch hr).waiting hpc] at hmem
    cases hmem
  · intro c hc
    have hsent := sentTaken Loop.promises_anyBatch hr hc
    exact ⟨hsent _ List.prefix_rfl, fun hn => ⟨hsent.sent_prefix hn,
      fun _ _ _ _ _ ha => hsent.sent_prefix_of_refused hn ha⟩⟩

end Runs

/-! ### A gap -/

/-- A text frame with the longest payload. -/
def longText : WireFrame := ⟨true, 0, opText, some sampleKey, List.replicate wsMaxPayloadBytes 0⟩

/-- Two clients, on 5 and 6, that have both been offered the data of `os` and been sent nothing; the
one on 5 has received `buf`. -/
structure Pair (s : Loop) (pc : Pc) (buf : Bytes) (os : List Offer) : Prop where
  reachable : Loop.Reachable Loop.EpollContract 3 s
  pc : s.pc = pc
  listenfd : s.worker.listenfd = 3
  clients : ∀ fd ∈ s.worker.wsClients, fd = 5 ∨ fd = 6
  speaker : ∃ h, s.worker.websocketHandlerMap 5 = some h ∧ h.status = .handsharked ∧
    h.readBuf = buf ∧ h.writeBuf.length = (takenData os).flatten.length
  reader : ∃ h, s.worker.websocketHandlerMap 6 = some h ∧ h.conn = 2 ∧ h.status = .handsharked ∧
    h.writeBuf = (takenData os).flatten
  offered : offers (about 2 s.worker.trace) = os
  unsent : sentBytes (about 2 s.worker.trace) = []
  pending : (∀ o ∈ os, o.taken = true) → s.worker.pendingCloses = []

namespace Pair

variable {s : Loop} {pc : Pc} {buf : Bytes} {os : List Offer} {es : List EpollEvent}

theorem wellFormed (hp : Pair s pc buf os) : s.WellFormed True :=
  Loop.reachable_wellFormed Loop.promises_epollContract hp.reachable

/-- The speaker may be reported readable and, when something is waiting, the reader writable. -/
theorem wait (hp : Pair s .waiting buf os)
    (hes : es = [⟨5, epollIn⟩] ∨
      es = [⟨5, epollIn⟩, ⟨6, epollOut⟩] ∧ (takenData os).flatten ≠ []) :
    ∃ t, Pair t (.batch es) buf os := by
  have hstep : s.step (.epollWait es) = some ⟨s.worker, .batch es⟩ := by
    simp only [Loop.step, hp.pc]
  have hcoh : s.worker.Coherent fun _ => False := by
    refine Loop.Coherent.all (Loop.coherent Loop.promises_epollContract hp.reachable) fun fd => ?_
    rw [hp.pc]
    simp [Pc.phase]
  have hmask {fd : Fd} {h : WebsocketHandler} (hfd : s.worker.websocketHandlerMap fd = some h)
      (hne : fd ≠ 3) : s.worker.interest fd = some h.eventMask := by
    obtain ⟨mask, hmask, hm⟩ := hcoh fd h hfd (by rw [hp.listenfd]; exact hne)
    rw [hmask, hm id]
  have hin : ∃ mask ∈ s.worker.interest 5, epollIn &&& ~~~(mask ||| epollErr ||| epollHup) = 0 := by
    obtain ⟨h, hfd, _⟩ := hp.speaker
    refine ⟨_, hmask hfd (by decide), ?_⟩
    unfold WebsocketHandler.eventMask
    split_ifs <;> decide
  have hok : Loop.EpollContract s (.epollWait es) := by
    rcases hes with rfl | ⟨rfl, hne⟩
    · exact ⟨by simp, by simpa using hin⟩
    · refine ⟨by decide, List.forall_mem_cons.2 ⟨hin, List.forall_mem_singleton.2 ?_⟩⟩
      obtain ⟨h, hfd, _, _, hw⟩ := hp.reader
      refine ⟨_, hmask hfd (by decide), ?_⟩
      have hpending : h.writePending = true := by
        rw [WebsocketHandler.writePending, hw]
        simpa using hne
      rw [WebsocketHandler.eventMask, if_pos hpending]
      decide
  exact ⟨_, hp.reachable.tail _ hok hstep, rfl, hp.listenfd, hp.clients, hp.speaker, hp.reader,
    hp.offered, hp.unsent, hp.pending⟩

/-- The speaker is read. -/
theorem read (hp : Pair s (.batch (⟨5, epollIn⟩ :: es)) [] os) (data : Bytes)
    (hlen : data.length ≤ wsMaxReadBuffer) : ∃ t, Pair t (.frames 5 es) data os := by
  obtain ⟨h, hfd, hs, hread, hwrite⟩ := hp.speaker
  obtain ⟨g, hg, hconn, hgs, hgw⟩ := hp.reader
  obtain ⟨ds, hds, rfl⟩ := Loop.exists_chunks data
  have hdisp := Loop.step_readable hp.pc (by rw [hp.listenfd]; decide) hfd
  set s₁ : Loop := ⟨s.worker.emit (.readable h.conn), .reading 5 es⟩ with hs₁
  have hfd₁ : s₁.worker.websocketHandlerMap 5 = some h := hfd
  have hmap : (s₁.reads 5 h ds).worker.websocketHandlerMap 5 =
      some { h with readBuf := h.readBuf ++ ds.flatten } := Loop.reads_map ds
  have hlast : (s₁.reads 5 h ds).step .readAgain =
      some ⟨(s₁.reads 5 h ds).worker, .frames 5 es⟩ := by
    have hdrive := NetworkInterface.driveIoUpgrade_handsharked hmap hs
    simp only [Loop.step, show (s₁.reads 5 h ds).pc = .reading 5 es from rfl, hdrive,
      Loop.afterUpgrade]
  have hfeed : s₁.feed ds .readAgain = some ⟨(s₁.reads 5 h ds).worker, .frames 5 es⟩ := by
    rw [Loop.feed_fits .readAgain rfl hfd₁ hds (by rw [hread]; simpa using hlen), hlast]
  have hr₁ : Loop.Reachable Loop.EpollContract 3 s₁ :=
    Transition.Reaches.tail .tau hp.reachable trivial hdisp
  have hreach := Transition.Reaches.trans hr₁
    (Loop.reaches_of_feed (fun _ _ => trivial)
      (show ∀ s, Loop.EpollContract s .readAgain from fun _ => trivial) hfeed)
  -- the reader sees nothing of it
  have hne : h.conn ≠ 2 := fun hc =>
    absurd (hp.wellFormed.worker.conn_inj 5 6 h g hfd hg (hc.trans hconn.symm)) (by decide)
  have habout : about 2 (s₁.reads 5 h ds).worker.trace = about 2 s.worker.trace := by
    have hreadable : about 2 [Obs.readable h.conn] = [] :=
      about_of_ne 2 (by simpa [Obs.conn] using hne)
    have hreceived : about 2 (ds.map (Obs.received h.conn)) = [] :=
      about_of_ne 2 (by simp [Obs.conn, hne])
    simp only [Loop.reads, hs₁, NetworkInterface.emit, about_append, hreadable, hreceived,
      List.append_nil]
  refine ⟨_, hreach, rfl, hp.listenfd, hp.clients, ⟨_, hmap, hs, ?_, hwrite⟩,
    ⟨g, ?_, hconn, hgs, hgw⟩, ?_, ?_, hp.pending⟩
  · simp [hread]
  · simp only [Loop.reads, hs₁, NetworkInterface.emit]
    rw [Function.update_of_ne (by decide)]
    exact hg
  · rw [habout]
    exact hp.offered
  · rw [habout]
    exact hp.unsent

/-- A text frame of the speaker is handled: both are offered it, and what one takes the other
takes. -/
theorem text {f : WireFrame} {rest : Bytes} (hp : Pair s (.frames 5 es) (f.encode ++ rest) os)
    (hop : f.opcode = opText) (hmax : f.payload.length ≤ wsMaxPayloadBytes) (taken : Bool)
    (htaken : taken = decide ((takenData os).flatten.length +
      (serverFrame opText f.payload).encode.length ≤ wsMaxWriteBuffer)) :
    ∃ t, Pair t (.frames 5 es) rest
      (os ++ [⟨(serverFrame opText f.payload).encode, false, taken⟩]) := by
  obtain ⟨h, hfd, hs, hread, hwrite⟩ := hp.speaker
  obtain ⟨g, hg, hconn, hgs, hgw⟩ := hp.reader
  have hwf := hp.wellFormed
  have hspec : frameSpec h.readBuf = .item (wireContent f) rest := by
    rw [hread]
    exact frameSpec_encode f hmax rest
  have htext : (wireContent f).opcode = websocketTextData := by
    change UInt8.ofNat f.opcode.val = websocketTextData
    rw [hop]
    decide
  have hreply : reply (wireContent f) = some (serverFrame opText f.payload).encode := if_pos htext
  have hrelay : relay (wireContent f) = some (serverFrame opText f.payload).encode := if_pos htext
  have hacc {h' : WebsocketHandler} (hw : h'.writeBuf.length = (takenData os).flatten.length) :
      h'.accepts (serverFrame opText f.payload).encode = taken := by
    rw [WebsocketHandler.accepts, hw, htaken]
  have hgacc := hacc (congrArg List.length hgw)
  obtain ⟨t, ht⟩ := Loop.frames_turn hwf hp.pc hfd hspec
  obtain ⟨request, hh⟩ := ht.handles
  have hmem : (6 : Fd) ∈ s.worker.wsClients := (hwf.worker.mem_wsClients 6).2 ⟨g, hg, hgs⟩
  have habout : about 2 t.worker.trace = about 2 s.worker.trace ++
      [.offered 2 (serverFrame opText f.payload).encode false taken] := by
    have hsees := NetworkInterface.about_handleObs_other hwf.worker hfd hg (by decide)
      (wireContent f)
    rw [if_pos hmem, hrelay, hconn] at hsees
    rw [hh.trace, about_append, hsees]
    simp [offerObs, hconn, hgacc]
  refine ⟨t, hp.reachable.tail .tau trivial ht.step, ht.pc, hh.listenfd.trans hp.listenfd,
    by rw [hh.wsClients]; exact hp.clients, ⟨_, by rw [hh.map 5, if_pos rfl], by simpa using hs,
      rfl, ?_⟩,
    ⟨_, by rw [hh.map 6, if_neg (by decide), if_pos hmem, hg]; rfl, ?_, ?_, ?_⟩, ?_, ?_, ?_⟩
  · rw [hreply, writeBuf_offerOption h false, List.length_append, hwrite, takenData_append,
      List.flatten_append, List.length_append, WebsocketHandler.offerOf, Option.elim_some,
        hacc hwrite]
  · simpa using hconn
  · simpa using hgs
  · rw [hrelay, writeBuf_offerOption g false, hgw, takenData_append, List.flatten_append,
      WebsocketHandler.offerOf, Option.elim_some, hgacc]
  · rw [habout, offers_append, hp.offered]
    rfl
  · rw [habout, sentBytes_append, hp.unsent]
    rfl
  · intro hall
    have ht : taken = true := hall ⟨(serverFrame opText f.payload).encode, false, taken⟩ (by simp)
    have hold := hp.pending fun o ho => hall o (List.mem_append_left _ ho)
    refine List.eq_nil_iff_forall_not_mem.2 fun fd hq => ?_
    rcases (hh.pending fd).1 hq with hq | ⟨_, _, hclose | ⟨d, hd, hno⟩⟩ |
      ⟨hc, hne, _, h', d, hh', hd, hno⟩
    · rw [hold] at hq
      cases hq
    · rw [htext] at hclose
      exact absurd hclose (by decide)
    · rw [hreply] at hd
      obtain rfl := Option.some.inj hd
      rw [hacc hwrite, ht] at hno
      cases hno
    · rcases hp.clients fd hc with rfl | rfl
      · exact absurd rfl hne
      · rw [hg, Option.some.injEq] at hh'
        subst hh'
        rw [hrelay] at hd
        obtain rfl := Option.some.inj hd
        rw [hgacc, ht] at hno
        cases hno

/-- The frame loop has nothing left. -/
theorem done (hp : Pair s (.frames 5 es) [] os) : ∃ t, Pair t (.batch es) [] os := by
  obtain ⟨h, hfd, hs, hread, hwrite⟩ := hp.speaker
  have hmore : frameSpec h.readBuf = .more := by
    rw [hread]
    rfl
  obtain ⟨request, hdrive⟩ := NetworkInterface.driveIoFrame_more hfd hs hmore
  have hstep : s.step .tau =
      some ⟨s.worker.setHandler 5 { h with request := request }, .batch es⟩ := by
    simp only [Loop.step, hp.pc, hdrive, Loop.afterUpgrade]
  refine ⟨_, hp.reachable.tail .tau trivial hstep, rfl, hp.listenfd, hp.clients,
    ⟨{ h with request := request },
      by rw [NetworkInterface.setHandler_map, Function.update_self], hs, hread, hwrite⟩, ?_,
    hp.offered, hp.unsent, hp.pending⟩
  obtain ⟨g, hg, hrest⟩ := hp.reader
  refine ⟨g, ?_, hrest⟩
  rw [NetworkInterface.setHandler_map, Function.update_of_ne (by decide)]
  exact hg

/-- The batch ends. -/
theorem close (hp : Pair s (.batch []) buf os) (htaken : ∀ o ∈ os, o.taken = true) :
    ∃ t, Pair t .waiting buf os := by
  have hstep : s.step .tau = some ⟨s.worker, .waiting⟩ := by
    simp only [Loop.step, hp.pc, NetworkInterface.processCloseQueue, hp.pending htaken,
      if_true]
  exact ⟨_, hp.reachable.tail .tau trivial hstep, rfl, hp.listenfd, hp.clients, hp.speaker,
    hp.reader, hp.offered, hp.unsent, hp.pending⟩

/-- A round in which the speaker sends one text frame, which is taken. -/
theorem round {f : WireFrame} (hp : Pair s .waiting [] os) (htaken : ∀ o ∈ os, o.taken = true)
    (hop : f.opcode = opText) (hmax : f.payload.length ≤ wsMaxPayloadBytes)
    (hlen : f.encode.length ≤ wsMaxReadBuffer)
    (hroom : (takenData os).flatten.length + (serverFrame opText f.payload).encode.length ≤
      wsMaxWriteBuffer) :
    ∃ t, Pair t .waiting [] (os ++ [⟨(serverFrame opText f.payload).encode, false, true⟩]) := by
  obtain ⟨s₁, hp₁⟩ := hp.wait (Or.inl rfl)
  obtain ⟨s₂, hp₂⟩ := hp₁.read f.encode hlen
  rw [← List.append_nil f.encode] at hp₂
  obtain ⟨s₃, hp₃⟩ := hp₂.text hop hmax true (by simpa using hroom)
  obtain ⟨s₄, hp₄⟩ := hp₃.done
  refine hp₄.close fun o ho => ?_
  rcases List.mem_append.1 ho with ho | ho
  · exact htaken o ho
  · rw [List.mem_singleton.1 ho]

/-- The reader is writable, and `send` takes everything. -/
theorem flush (hp : Pair s (.batch (⟨6, epollOut⟩ :: es)) buf os)
    (hne : (takenData os).flatten ≠ []) :
    ∃ t, Loop.Reachable Loop.EpollContract 3 t ∧ t.pc = .flushing 6 es ∧
      (t.worker.websocketHandlerMap 6).map WebsocketHandler.conn = some 2 ∧
      offers (about 2 t.worker.trace) = os ∧
      sentBytes (about 2 t.worker.trace) = (takenData os).flatten := by
  obtain ⟨g, hg, hconn, hgs, hgw⟩ := hp.reader
  have hdisp : s.step .tau = some ⟨s.worker, .flushing 6 es⟩ := by
    have hlisten : (6 : Fd) ≠ s.worker.listenfd := by
      rw [hp.listenfd]
      decide
    have herr : epollOut &&& (epollErr ||| epollHup) = 0 := by decide
    have hin : epollOut &&& epollIn = 0 := by decide
    have hout : epollOut &&& epollOut ≠ 0 := by decide
    simp only [Loop.step, hp.pc, Loop.dispatch, if_neg hlisten, herr, hin, ne_eq,
      not_true_eq_false, if_false, if_pos hout, hg]
  have hr₁ : Loop.Reachable Loop.EpollContract 3 ⟨s.worker, .flushing 6 es⟩ :=
    Transition.Reaches.tail .tau hp.reachable trivial hdisp
  have hlen : ¬ (g.writeBuf.length = 0 ∨ g.writeBuf.length < g.writeBuf.length) := by
    rw [← hgw] at hne
    simpa using hne
  have hsend : Loop.step ⟨s.worker, .flushing 6 es⟩ (.send g.writeBuf.length) =
      some ⟨(s.worker.setHandler 6 { g with writeBuf := [] }).emit (.sent 2 g.writeBuf),
        .flushing 6 es⟩ := by
    simp only [Loop.step, Loop.sendStep, hg, if_neg hlen, hconn, List.take_length,
      List.drop_length]
  have hsent : about 2 [Obs.sent 2 g.writeBuf] = [.sent 2 g.writeBuf] := rfl
  have hdata : sentBytes [.sent 2 g.writeBuf] = g.writeBuf := by simp [sentBytes]
  refine ⟨_, Transition.Reaches.tail (.send g.writeBuf.length) hr₁ trivial hsend, rfl, ?_, ?_, ?_⟩
  · simpa using hconn
  · rw [NetworkInterface.emit, about_append, hsent, offers_append]
    exact (List.append_nil _).trans hp.offered
  · rw [NetworkInterface.emit, about_append, hsent, sentBytes_append, hdata, ← hgw]
    exact congrArg (· ++ g.writeBuf) hp.unsent

end Pair

theorem length_longText : longText.payload.length = wsMaxPayloadBytes := List.length_replicate

theorem length_encode_longText : longText.encode.length = 1048590 := by
  have hext : (WireFrame.extendedLength wsMaxPayloadBytes).length = 8 := by decide
  rw [WireFrame.length_encode, length_longText, hext]
  rfl

theorem length_relay_longText : (serverFrame opText longText.payload).encode.length = 1048586 := by
  have hext : (WireFrame.extendedLength wsMaxPayloadBytes).length = 8 := by decide
  have hlen : (serverFrame opText longText.payload).payload.length = wsMaxPayloadBytes :=
    length_longText
  rw [WireFrame.length_encode, hlen, hext]
  rfl

/-- Two clients that have just been upgraded. -/
theorem exists_pair : ∃ s response, Pair s .waiting [] [⟨response, true, true⟩] ∧
    response.length = 129 := by
  have hrun : ((Loop.init 3).exec (session [5, 6])).map (fun s =>
      decide (s.pc = .waiting ∧ s.worker.listenfd = 3 ∧
        (∀ fd ∈ s.worker.wsClients, fd = 5 ∨ fd = 6) ∧ s.worker.pendingCloses = [] ∧
        (s.worker.websocketHandlerMap 5).map (fun h => (h.conn, h.status, h.readBuf)) =
          some (1, .handsharked, []) ∧
        (s.worker.websocketHandlerMap 6).map (fun h => (h.conn, h.status)) =
          some (2, .handsharked) ∧
        ∀ c ∈ [1, 2], (offers (about c s.worker.trace)).length = 1 ∧
          sentBytes (about c s.worker.trace) = [])) = some true := by
    decide +kernel
  obtain ⟨s, hr, hs⟩ := Loop.reachable_of_exec _ hrun
  obtain ⟨hpc, hlisten, hclients, hpending, h5, h6, hfresh⟩ := of_decide_eq_true hs
  obtain ⟨h, hfd, hh⟩ := Option.map_eq_some_iff.1 h5
  obtain ⟨g, hg, hgg⟩ := Option.map_eq_some_iff.1 h6
  simp only [Prod.mk.injEq] at hh hgg
  obtain ⟨hconn, hs, hread⟩ := hh
  obtain ⟨hconn', hs'⟩ := hgg
  -- the account says what is in a write buffer that holds the response alone
  have hresponse {fd : Fd} {h : WebsocketHandler} {c : ℕ}
      (hfd : s.worker.websocketHandlerMap fd = some h) (hc : h.conn = c)
      (hs : h.status = .handsharked) (hone : (offers (about c s.worker.trace)).length = 1)
      (hsent : sentBytes (about c s.worker.trace) = []) : ∃ response : Bytes,
      offers (about c s.worker.trace) = [⟨response, true, true⟩] ∧ response.length = 129 ∧
        h.writeBuf = response := by
    subst hc
    have hacc := Loop.account Loop.promises_epollContract hr hfd
    obtain ⟨headerMap, os, hup, _⟩ := hacc.handsharked hs
    have hoffers := hup.offers
    rw [hoffers, List.length_cons, Nat.add_eq_right, List.length_eq_zero_iff] at hone
    rw [hone] at hoffers
    have hstream : sentBytes (about h.conn s.worker.trace) ++ h.writeBuf =
        (takenData (offers (about h.conn s.worker.trace))).flatten := hacc.stream
    rw [hsent, hoffers] at hstream
    exact ⟨_, hoffers, length_parseStr headerMap, by simpa [takenData] using hstream⟩
  obtain ⟨response, _, hlen, hwrite⟩ := hresponse hfd hconn hs (hfresh 1 (by simp)).1
    (hfresh 1 (by simp)).2
  obtain ⟨response', hoffers, hlen', hwrite'⟩ := hresponse hg hconn' hs' (hfresh 2 (by simp)).1
    (hfresh 2 (by simp)).2
  refine ⟨s, response', ⟨hr, hpc, hlisten, hclients, ⟨h, hfd, hs, hread, ?_⟩,
    ⟨g, hg, hconn', hs', ?_⟩, hoffers, (hfresh 2 (by simp)).2, fun _ => hpending⟩, hlen'⟩
  · simp [takenData, hwrite, hlen, hlen']
  · simp [takenData, hwrite']

/-- What the reader takes: the response and three long frames. -/
def fullOffers (response : Bytes) : List Offer :=
  ⟨response, true, true⟩ ::
    List.replicate 3 ⟨(serverFrame opText longText.payload).encode, false, true⟩

theorem taken_of_mem_fullOffers (response : Bytes) : ∀ o ∈ fullOffers response, o.taken = true := by
  simp [fullOffers]

/-- What it is offered when a fourth long frame is refused. -/
def refusedOffers (response : Bytes) : List Offer :=
  fullOffers response ++ [⟨(serverFrame opText longText.payload).encode, false, false⟩]

/-- What it is offered when a frame that says "hi" is taken behind that. -/
def gapOffers (response : Bytes) : List Offer :=
  refusedOffers response ++ [⟨(serverFrame opText hiFrame.payload).encode, false, true⟩]

theorem exists_refused (response : Bytes) : ∃ o ∈ refusedOffers response, o.taken = false :=
  ⟨⟨(serverFrame opText longText.payload).encode, false, false⟩, by simp [refusedOffers], rfl⟩

/-- The length of the data in a buffer that a fourth long frame does not fit into. -/
theorem length_fullOffers {response : Bytes} (hresp : response.length = 129) :
    (takenData (fullOffers response)).flatten.length = 3145887 ∧
      (takenData (fullOffers response)).flatten ≠ [] := by
  have hlong := length_relay_longText
  have hlen : (takenData (fullOffers response)).flatten.length = 3145887 := by
    simp [fullOffers, takenData, hresp, hlong]
  exact ⟨hlen, fun hnil => by rw [hnil] at hlen; cases hlen⟩

/-- Three rounds fill the buffers; then the speaker is reported readable and the reader writable. -/
theorem exists_full : ∃ s response,
    Pair s (.batch [⟨5, epollIn⟩, ⟨6, epollOut⟩]) [] (fullOffers response) ∧
      response.length = 129 := by
  obtain ⟨s₀, response, hp₀, hresp⟩ := exists_pair
  have hlong := length_relay_longText
  have hfit : longText.encode.length ≤ wsMaxReadBuffer := by
    rw [length_encode_longText]
    decide
  have hmax : longText.payload.length ≤ wsMaxPayloadBytes := length_longText.le
  obtain ⟨s₁, hp₁⟩ := hp₀.round (by simp) rfl hmax hfit
    (by simp [takenData, hresp, hlong, wsMaxWriteBuffer])
  obtain ⟨s₂, hp₂⟩ := hp₁.round (by simp) rfl hmax hfit
    (by simp [takenData, hresp, hlong, wsMaxWriteBuffer])
  obtain ⟨s₃, hp₃⟩ := hp₂.round (by simp) rfl hmax hfit
    (by simp [takenData, hresp, hlong, wsMaxWriteBuffer])
  obtain ⟨s₄, hp₄⟩ := hp₃.wait (Or.inr ⟨rfl, (length_fullOffers hresp).2⟩)
  exact ⟨s₄, response, hp₄, hresp⟩

/-- A long frame that does not fit any more. -/
theorem refused_text {s : Loop} {response rest : Bytes} {es : List EpollEvent}
    (hresp : response.length = 129)
    (hp : Pair s (.frames 5 es) (longText.encode ++ rest) (fullOffers response)) :
    ∃ t, Pair t (.frames 5 es) rest (refusedOffers response) :=
  hp.text rfl length_longText.le false
    (by rw [(length_fullOffers hresp).1, length_relay_longText]; decide)

/-- What the reader has taken does not grow by what it refuses. -/
theorem takenData_refusedOffers (response : Bytes) :
    takenData (refusedOffers response) = takenData (fullOffers response) := by
  rw [refusedOffers, takenData_append]
  exact List.append_nil _

/-- A run in which the reader refuses a long frame and is then sent what it has taken. -/
theorem exists_sent_refused : ∃ s response, Loop.Reachable Loop.EpollContract 3 s ∧
    s.pc = .flushing 6 [] ∧
    (s.worker.websocketHandlerMap 6).map WebsocketHandler.conn = some 2 ∧
    offers (about 2 s.worker.trace) = refusedOffers response ∧
    sentBytes (about 2 s.worker.trace) = (takenData (refusedOffers response)).flatten := by
  obtain ⟨s₄, response, hp₄, hresp⟩ := exists_full
  obtain ⟨s₅, hp₅⟩ := hp₄.read (longText.encode ++ []) (by
    rw [List.append_nil, length_encode_longText]
    decide)
  obtain ⟨s₆, hp₆⟩ := refused_text hresp hp₅
  obtain ⟨s₇, hp₇⟩ := hp₆.done
  obtain ⟨s₈, hr, hpc, hconn, hoffers, hsent⟩ := hp₇.flush (by
    rw [takenData_refusedOffers]
    exact (length_fullOffers hresp).2)
  exact ⟨s₈, response, hr, hpc, hconn, hoffers, hsent⟩

/-- A run in which it takes "hi" behind the long frame, and is sent everything it has taken. -/
theorem exists_gap : ∃ s response, Loop.Reachable Loop.EpollContract 3 s ∧
    offers (about 2 s.worker.trace) = gapOffers response ∧
    sentBytes (about 2 s.worker.trace) = (takenData (gapOffers response)).flatten := by
  obtain ⟨s₄, response, hp₄, hresp⟩ := exists_full
  have hhi : (serverFrame opText hiFrame.payload).encode.length = 4 := by decide
  obtain ⟨s₅, hp₅⟩ := hp₄.read (longText.encode ++ (hiFrame.encode ++ [])) (by
    rw [List.length_append, length_encode_longText]
    decide)
  obtain ⟨s₆, hp₆⟩ := refused_text hresp hp₅
  obtain ⟨s₇, hp₇⟩ := hp₆.text rfl (by decide) true
    (by rw [takenData_refusedOffers, (length_fullOffers hresp).1, hhi]; decide)
  obtain ⟨s₈, hp₈⟩ := hp₇.done
  obtain ⟨s₉, hr, _, _, hoffers, hsent⟩ := hp₈.flush (by
    rw [takenData_append, List.flatten_append, takenData_refusedOffers]
    exact fun hnil => (length_fullOffers hresp).2 (List.append_eq_nil_iff.1 hnil).1)
  exact ⟨s₉, response, hr, hoffers, hsent⟩

/-- The reader has been sent something else than the front of what it was offered. -/
theorem gapOffers_gap (response : Bytes) :
    ¬ (takenData (gapOffers response)).flatten <+:
      ((gapOffers response).map Offer.data).flatten := by
  have h₁ : (takenData (gapOffers response)).flatten =
      (response ++ (List.replicate 3 (serverFrame opText longText.payload).encode).flatten) ++
        (serverFrame opText hiFrame.payload).encode := by
    simp [gapOffers, refusedOffers, fullOffers, takenData]
  have h₂ : ((gapOffers response).map Offer.data).flatten =
      (response ++ (List.replicate 3 (serverFrame opText longText.payload).encode).flatten) ++
        ((serverFrame opText longText.payload).encode ++
          (serverFrame opText hiFrame.payload).encode) := by
    simp [gapOffers, refusedOffers, fullOffers]
  -- the second byte of the refused frame is 127, that of the frame behind it 2
  rw [h₁, h₂, List.prefix_append_right_inj]
  rintro ⟨rest, hrest⟩
  have hsnd : some (serverFrame opText hiFrame.payload).byte1 =
      some (serverFrame opText longText.payload).byte1 :=
    congrArg (fun b : Bytes => b[1]?) hrest
  have hlen : (serverFrame opText longText.payload).payload.length = wsMaxPayloadBytes :=
    length_longText
  rw [Option.some.injEq, WireFrame.byte1, WireFrame.byte1, hlen] at hsnd
  exact absurd hsnd (by decide)

/-- **A gap**: a client refuses a frame, takes a later one, and is sent it. -/
theorem gap_flushed : ∃ s response, Loop.Reachable Loop.EpollContract 3 s ∧
    offers (about 2 s.worker.trace) = gapOffers response ∧
    sentBytes (about 2 s.worker.trace) = (takenData (gapOffers response)).flatten ∧
    ¬ sentBytes (about 2 s.worker.trace) <+: intended (about 2 s.worker.trace) := by
  obtain ⟨s, response, hr, hoffers, hsent⟩ := exists_gap
  refine ⟨s, response, hr, hoffers, hsent, ?_⟩
  rw [hsent, intended, hoffers]
  exact gapOffers_gap response

/-- Nothing is taken behind the frame that is refused last. -/
theorem notFlushed_of_refusedOffers {a : List Obs} {response : Bytes}
    (h : offers a = refusedOffers response) : NotFlushed a := by
  intro a₁ c d own b₁ c' d' own' b₂ ha
  exfalso
  have hsplit : refusedOffers response =
      offers a₁ ++ ⟨d, own, false⟩ :: (offers b₁ ++ ⟨d', own', true⟩ :: offers b₂) := by
    rw [← h, ha]
    simp [offers]
  -- in front of the last offer there are only taken ones
  have hfront := congrArg List.dropLast hsplit
  rw [refusedOffers, List.dropLast_concat, List.dropLast_append_of_ne_nil (List.cons_ne_nil _ _),
    List.dropLast_cons_of_ne_nil (by simp)] at hfront
  have hmem : (⟨d, own, false⟩ : Offer) ∈ fullOffers response := by
    rw [hfront]
    simp
  exact Bool.false_ne_true (taken_of_mem_fullOffers response _ hmem)

/-- A client that refuses a frame and is sent what it has taken: it is queued, and what it was sent
is the front of everything intended for it. -/
theorem no_gap_unless_flushed_reader : ∃ s response, Loop.Reachable Loop.AnyBatch 3 s ∧
    offers (about 2 s.worker.trace) = refusedOffers response ∧ (6 : Fd) ∈ s.worker.pendingCloses ∧
    s.pc ≠ .waiting ∧
    sentBytes (about 2 s.worker.trace) = (takenData (refusedOffers response)).flatten ∧
    NotFlushed (about 2 s.worker.trace) ∧
    sentBytes (about 2 s.worker.trace) <+: intended (about 2 s.worker.trace) := by
  obtain ⟨s, response, hr, _, hconn, hoffers, hsent⟩ := exists_sent_refused
  obtain ⟨h, hfd, hc⟩ := Option.map_eq_some_iff.1 hconn
  obtain ⟨hqueued, hsends⟩ := no_gap_unless_flushed (Loop.reachable_anyBatch hr)
  have hlt : 2 < s.worker.nextConn := by
    rw [← hc]
    exact (Loop.reachable_wellFormed Loop.promises_epollContract hr).worker.conn_lt 6 h hfd
  obtain ⟨_, hgap⟩ := hsends 2 hlt
  obtain ⟨hmem, hpc⟩ := hqueued 6 h hfd (by
    rw [hc, hoffers]
    exact exists_refused response)
  have hn := notFlushed_of_refusedOffers hoffers
  exact ⟨s, response, Loop.reachable_anyBatch hr, hoffers, hmem, hpc, hsent, hn, (hgap hn).1⟩

end WebSocketDemo
