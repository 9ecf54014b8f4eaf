/-
**The upgrade and the grouping of the bytes.**

The same bytes may reach a connection in one `EPOLLIN` event or in many.  The frame loop does not
see the difference, but the upgrade does: `drive_io` compares the whole of `read_buf_` with
`WS_MAX_HANDSHAKE_BYTES` before it looks for the header block, so that what counts is everything
that has come in by the end of the event in which the block is completed, the bytes pipelined behind
it included.

Main definitions:

* `events`, `arrived` — what the events of a connection brought, and how much of it had come in when
  the header block was complete;
* `Loop.Serves`, `Loop.Delivered` — every event of a connection is read to its end;
* `Loop.Welcomed` — what an upgrade comes to.

Main results:

* `Verdict.step` — **the decision is made at the end of the event that completes the block**;
* `upgrade_grouping` — **which groupings are upgraded, and that these do not differ otherwise**;
* `pipelined_rejected` — a grouping that is not.
-/

import WebSocketDemo.Admission
import WebSocketDemo.ReadBuffer

set_option relaxedAutoImplicit false
set_option autoImplicit false

namespace WebSocketDemo

open PrefixDecoder

/-! ### Events -/

/-- An event begins, or brings more. -/
def eventStep (es : List Bytes) : Obs → List Bytes
  | .readable _ => es ++ [[]]
  | .received _ data => es.dropLast ++ [es.getLastD [] ++ data]
  | _ => es

/-- What each `EPOLLIN` event has brought. -/
def events (a : List Obs) : List Bytes := a.foldl eventStep []

/-- What has been received behind `b` at the end of the event that completes the header block. -/
def arrived (b : Bytes) : List Bytes → Option Bytes
  | [] => none
  | e :: es => if headerBlock (b ++ e) = none then arrived (b ++ e) es else some (b ++ e)

section Events

variable {a : List Obs} {b g : Bytes} {es : List Bytes}

theorem events_append (a a' : List Obs) : events (a ++ a') = a'.foldl eventStep (events a) :=
  List.foldl_append

theorem events_snoc (a : List Obs) (o : Obs) : events (a ++ [o]) = eventStep (events a) o :=
  events_append a [o]

theorem foldl_eventStep_offerObs (h : WebsocketHandler) (own : Bool) (data : Option Bytes)
    (es : List Bytes) : (offerObs h own data).foldl eventStep es = es := by
  cases data <;> rfl

theorem dropLast_append_getLastD (es : List Bytes) :
    (es.dropLast ++ [es.getLastD []]).flatten = es.flatten := by
  cases es using List.reverseRecOn with
  | nil => rfl
  | append_singleton es e => simp

/-- The events bring what is received. -/
theorem flatten_events (a : List Obs) : (events a).flatten = receivedBytes a := by
  induction a using List.reverseRecOn with
  | nil => rfl
  | append_singleton a o ih =>
      rw [events_snoc, receivedBytes_append, ← ih]
      cases o with
      | received c data =>
          rw [← dropLast_append_getLastD (events a)]
          simp [eventStep, receivedBytes]
      | _ => simp [eventStep, receivedBytes]

theorem headerBlock_of_append (b t : Bytes) (h : headerBlock (b ++ t) = none) :
    headerBlock b = none := by
  cases hb : headerBlock b with
  | none => rfl
  | some block =>
      rw [headerBlock_append hb] at h
      cases h

/-- Later events change nothing. -/
theorem arrived_append (h : arrived b es = some g) (fs : List Bytes) :
    arrived b (es ++ fs) = some g := by
  induction es generalizing b with
  | nil => cases h
  | cons e es ih =>
      rw [arrived] at h
      rw [List.cons_append, arrived]
      split_ifs at h ⊢
      · exact ih h
      · exact h

theorem arrived_of_dropLast (h : arrived b es.dropLast = some g) : arrived b es = some g := by
  cases es using List.reverseRecOn with
  | nil => exact h
  | append_singleton es e =>
      rw [List.dropLast_concat] at h
      exact arrived_append h [e]

/-- No event completes the header block. -/
theorem arrived_eq_none (h : headerBlock (b ++ es.flatten) = none) : arrived b es = none := by
  induction es generalizing b with
  | nil => rfl
  | cons e es ih =>
      rw [List.flatten_cons, ← List.append_assoc] at h
      rw [arrived, if_pos (headerBlock_of_append _ _ h)]
      exact ih h

/-- The last event completes the header block. -/
theorem arrived_last (hbefore : headerBlock (b ++ es.dropLast.flatten) = none)
    (h : headerBlock (b ++ es.flatten) ≠ none) (hb : headerBlock b = none) :
    arrived b es = some (b ++ es.flatten) := by
  induction es generalizing b with
  | nil => exact absurd (by simpa using hb) h
  | cons e es ih =>
      rw [arrived]
      cases es with
      | nil =>
          rw [List.flatten_cons, List.flatten_nil, List.append_nil] at h ⊢
          rw [if_neg h]
      | cons e' es =>
          rw [List.dropLast_cons_cons, List.flatten_cons, ← List.append_assoc] at hbefore
          rw [List.flatten_cons, ← List.append_assoc] at h ⊢
          have hnone := headerBlock_of_append _ _ hbefore
          rw [if_pos hnone]
          exact ih hbefore h hnone

/-- Some event completes the header block. -/
theorem exists_arrived {block : Bytes} (h : headerBlock (b ++ es.flatten) = some block)
    (hb : headerBlock b = none) :
    ∃ g, arrived b es = some g ∧ headerBlock g = some block := by
  induction es generalizing b with
  | nil =>
      rw [List.flatten_nil, List.append_nil, hb] at h
      cases h
  | cons e es ih =>
      rw [List.flatten_cons, ← List.append_assoc] at h
      rw [arrived]
      split_ifs with hnone
      · exact ih h hnone
      · obtain ⟨block', hblock'⟩ := Option.ne_none_iff_exists'.1 hnone
        refine ⟨b ++ e, rfl, ?_⟩
        rw [headerBlock_append hblock'] at h
        rw [hblock', h]

end Events

/-! ### The decision -/

/-- What the environment promises a connection: every `EPOLLIN` event of it is read until there is
no more, and `append_read` is never refused. -/
def Loop.Serves (c : ℕ) (s : Loop) (i : Input) : Prop :=
  match s.pc, i with
  | .reading fd _, .read data => ∀ h ∈ s.worker.websocketHandlerMap fd, h.conn = c →
      h.readBuf.length + data.length ≤ wsMaxReadBuffer
  | .reading fd _, .readEof => ∀ h ∈ s.worker.websocketHandlerMap fd, h.conn ≠ c
  | .reading fd _, .readError => ∀ h ∈ s.worker.websocketHandlerMap fd, h.conn ≠ c
  | _, _ => True

variable {once : Prop} {v v' : View} {g : List Frame} {a b : List Obs}

/-- The events of a connection that are over. -/
def View.past (v : View) (a : List Obs) : List Bytes :=
  if v.phase = .reading then (events a).dropLast else events a

/-- What an event must have brought for the connection to be upgraded at its end. -/
def Welcome (es : List Bytes) : Prop :=
  ∃ b, arrived [] es = some b ∧ b.length ≤ wsMaxHandshakeBytes ∧ Admissible b

/-- The decision, which is taken when the event that completes the header block is over. -/
structure Verdict (v : View) (a : List Obs) : Prop where
  reading : v.handler.status = .unconnect → v.phase = .reading →
    headerBlock (v.past a).flatten = none
  left : v.handler.status = .unconnect → v.phase ≠ .reading → ¬ Welcome (events a)
  handsharked : v.handler.status = .handsharked → Welcome (v.past a) ∧
    ∃ m rest, Obs.upgraded v.handler.conn m rest ∈ a ∧ v.handler.headerMap = (parseStr m).1
  settled : v.handler.status = .handsharked → v.phase = .idle ∨ v.phase = .flushing →
    frameDecoder.Stuck v.handler.readBuf

theorem not_welcome_of_none {es : List Bytes} (h : headerBlock es.flatten = none) :
    ¬ Welcome es := by
  rintro ⟨b, harrived, _⟩
  rw [arrived_eq_none (b := []) h] at harrived
  cases harrived

theorem Welcome.of_dropLast {es : List Bytes} (h : Welcome es.dropLast) : Welcome es := by
  obtain ⟨b, harrived, hrest⟩ := h
  exact ⟨b, arrived_of_dropLast harrived, hrest⟩

theorem WebsocketHandler.upgrade_reject {h : WebsocketHandler} {readBuf : Bytes}
    {headerMap : HeaderMap} (hup : h.upgrade = .reject readBuf headerMap) :
    wsMaxHandshakeBytes < h.readBuf.length ∨ ¬ Admissible h.readBuf := by
  unfold WebsocketHandler.upgrade at hup
  split_ifs at hup with hlen
  · exact Or.inl hlen
  · cases hfind : Text.find NetworkInterface.crlfCrlf h.readBuf with
    | none =>
        rw [hfind] at hup
        cases hup
    | some pos =>
        rw [hfind] at hup
        dsimp only at hup
        split_ifs at hup with hret
        refine Or.inr ?_
        rintro ⟨block, hblock, hline⟩
        rw [headerBlock, hfind] at hblock
        obtain rfl := Option.some.inj hblock
        exact hret ((fetchHttpInfo_eq_zero_iff _ _).2 hline)

/-- Control neither comes to read the connection nor has read it. -/
theorem Verdict.keep (hv : Verdict v a) (hev : events (a ++ b) = events a)
    (hconn : v'.handler.conn = v.handler.conn) (hstatus : v'.handler.status = v.handler.status)
    (hmap : v'.handler.headerMap = v.handler.headerMap)
    (hphase : v'.phase = .reading ↔ v.phase = .reading)
    (hstuck : v.handler.status = .handsharked → v'.phase = .idle ∨ v'.phase = .flushing →
      frameDecoder.Stuck v'.handler.readBuf) : Verdict v' (a ++ b) := by
  have hpast : v'.past (a ++ b) = v.past a := by simp only [View.past, hev, hphase]
  refine ⟨?_, ?_, ?_, ?_⟩
  · intro hu hp
    rw [hpast]
    exact hv.reading (hstatus.symm.trans hu) (hphase.1 hp)
  · intro hu hp
    rw [hev]
    exact hv.left (hstatus.symm.trans hu) fun hp' => hp (hphase.2 hp')
  · intro hs
    obtain ⟨hw, m, rest, hmem, hm⟩ := hv.handsharked (hstatus.symm.trans hs)
    refine ⟨by rw [hpast]; exact hw, m, rest, ?_, hmap.trans hm⟩
    rw [hconn]
    exact List.mem_append_left b hmem
  · intro hs
    exact hstuck (hstatus.symm.trans hs)

/-- While an unconnected connection is read, its buffer holds what has come. -/
theorem Greeting.readBuf_eq (hg : Greeting v a) (hu : v.handler.status = .unconnect)
    (hp : v.phase = .reading) : v.handler.readBuf = (events a).flatten := by
  rw [flatten_events]
  cases hg.unconnect hu with
  | reading _ hbuf => exact hbuf
  | waiting hi _ _ => rcases hi with hi | hi <;> cases hp.symm.trans hi
  | ending _ hi => cases hp.symm.trans hi

/-- Control leaves the connection without a decision: there is no header block yet. -/
theorem Verdict.leave (hg : Greeting v a) (hev : events (a ++ b) = events a)
    (hstatus : v'.handler.status = v.handler.status) (hp : v.phase = .reading)
    (hi : v'.phase = .idle) (hu : v.handler.status = .unconnect)
    (hwait : v.handler.upgrade = .wait) : Verdict v' (a ++ b) := by
  have hnone := WebsocketHandler.upgrade_wait hwait
  rw [hg.readBuf_eq hu hp] at hnone
  have hu' := hstatus.trans hu
  refine ⟨fun _ hp' => (by cases hi.symm.trans hp'), fun _ _ => ?_,
    fun hs => (by cases hu'.symm.trans hs), fun hs => (by cases hu'.symm.trans hs)⟩
  rw [hev]
  exact not_welcome_of_none hnone

/-- **The decision is taken at the end of the event that completes the block**, and never again.
The last hypothesis is what `Loop.Serves` comes to. -/
theorem Verdict.step (hg : Greeting v a) (hv : Verdict v a) (h : ConnStep once v g b v')
    (hk : v.phase = .reading → v'.phase = .idle → v.handler.status = .unconnect ∧
      (Obs.rejected v.handler.conn ∈ b ∨ v.handler.upgrade = .wait)) : Verdict v' (a ++ b) := by
  have hleave (hev : events (a ++ b) = events a)
      (hstatus : v'.handler.status = v.handler.status) (hp : v.phase = .reading)
      (hi : v'.phase = .idle) (hno : Obs.rejected v.handler.conn ∉ b) : Verdict v' (a ++ b) := by
    obtain ⟨hu, hwait⟩ := hk hp hi
    exact Verdict.leave hg hev hstatus hp hi hu (hwait.resolve_left hno)
  -- the block is complete at the end of the event
  have hcomplete (hu : v.handler.status = .unconnect) (hp : v.phase = .reading)
      (hblock : headerBlock (events a).flatten ≠ none) :
      arrived [] (events a) = some (events a).flatten := by
    have hbefore := hv.reading hu hp
    rw [View.past, if_pos hp] at hbefore
    exact arrived_last hbefore hblock rfl
  have hidle (hi : v.phase = .idle) : v.phase ≠ .reading := by rw [hi]; decide
  have hno {q : Prop} (hu : v.handler.status = .unconnect)
      (hs : v.handler.status = .handsharked) : q := by
    rw [hs] at hu
    cases hu
  cases h with
  | quiet hm =>
      have hev : events (a ++ []) = events a := by rw [List.append_nil]
      cases hm with
      | stay => exact hv.keep hev rfl rfl rfl Iff.rfl hv.settled
      | batch u hi _ _ =>
          exact hv.keep hev rfl rfl rfl Iff.rfl fun hs _ => hv.settled hs (Or.inl hi)
      | skip u hi _ _ => exact hv.keep hev rfl rfl rfl Iff.rfl fun hs _ => hv.settled hs (Or.inl hi)
      | hangup u hi _ _ =>
          exact hv.keep hev rfl rfl rfl Iff.rfl fun hs _ => hv.settled hs (Or.inl hi)
      | writable u hi _ _ =>
          exact hv.keep hev rfl rfl rfl (iff_of_false (fun hq => by cases hq) (hidle hi))
            fun hs _ => hv.settled hs (Or.inl hi)
      | readError hp => exact hleave hev rfl hp rfl (by simp)
      | wait hp _ _ => exact hleave hev rfl hp rfl (by simp)
      | drive hp hs =>
          obtain ⟨hw, hrest⟩ := hv.handsharked hs
          rw [View.past, if_pos hp] at hw
          rw [List.append_nil]
          refine ⟨fun hu => hno hu hs, fun hu => hno hu hs, fun _ => ⟨hw.of_dropLast, hrest⟩, ?_⟩
          rintro _ (hq | hq) <;> cases hq
      | flushed hf =>
          exact hv.keep hev rfl rfl rfl (iff_of_false (fun hq => by cases hq) (by rw [hf]; decide))
            fun hs _ => hv.settled hs (Or.inr hf)
      | sendError hf =>
          exact hv.keep hev rfl rfl rfl (iff_of_false (fun hq => by cases hq) (by rw [hf]; decide))
            fun hs _ => hv.settled hs (Or.inr hf)
  | readable u hi hup _ =>
      have hpast : View.past ⟨v.handler, .reading, v.pending, u⟩ (a ++ [.readable v.handler.conn]) =
          events a := by
        rw [View.past, if_pos rfl, events_snoc]
        exact List.dropLast_concat
      refine ⟨fun hu _ => ?_, fun _ hp => absurd rfl hp, fun hs => ?_, ?_⟩
      · rw [hpast, flatten_events]
        cases hg.unconnect hu with
        | reading hp _ => exact absurd hp (hidle hi)
        | waiting _ _ hnone => exact hnone
        | ending he _ => cases he.upcoming.symm.trans hup
      · obtain ⟨hw, m, rest, hmem, hm⟩ := hv.handsharked hs
        rw [View.past, if_neg (hidle hi)] at hw
        exact ⟨by rw [hpast]; exact hw, m, rest, List.mem_append_left _ hmem, hm⟩
      · rintro _ (hq | hq) <;> cases hq
  | received data hp _ _ _ =>
      have hpast : (events (a ++ [.received v.handler.conn data])).dropLast =
          (events a).dropLast := by
        rw [events_snoc]
        exact List.dropLast_concat
      have hnot {q : Prop} (hq : v.phase = .idle ∨ v.phase = .flushing) : q := by
        rw [hp] at hq
        rcases hq with hq | hq <;> cases hq
      refine ⟨fun hu _ => ?_, fun _ hp' => absurd hp hp', fun hs => ?_, fun _ hq => hnot hq⟩
      · have hbefore := hv.reading hu hp
        rw [View.past, if_pos hp] at hbefore ⊢
        rw [hpast]
        exact hbefore
      · obtain ⟨hw, m, rest, hmem, hm⟩ := hv.handsharked hs
        rw [View.past, if_pos hp] at hw ⊢
        rw [hpast]
        exact ⟨hw, m, rest, List.mem_append_left _ hmem, hm⟩
  | readRefused data hp _ _ _ => exact hleave (events_snoc _ _) rfl hp rfl (by simp)
  | eof hp => exact hleave (events_snoc _ _) rfl hp rfl (by simp)
  | reject readBuf headerMap hp hu hup =>
      refine ⟨fun _ hq => (by cases hq), fun _ _ => ?_, fun hs => hno hu hs, fun hs => hno hu hs⟩
      rw [show events (a ++ [.rejected v.handler.conn]) = events a from events_snoc _ _]
      have hwhy := WebsocketHandler.upgrade_reject hup
      rw [hg.readBuf_eq hu hp] at hwhy
      by_cases hblock : headerBlock (events a).flatten = none
      · exact not_welcome_of_none hblock
      · rintro ⟨b, harrived, hlen, hadm⟩
        rw [hcomplete hu hp hblock, Option.some.injEq] at harrived
        subst harrived
        rcases hwhy with hlong | hnot
        · exact absurd hlen (Nat.not_le.2 hlong)
        · exact hnot hadm
  | upgrade headerMap rest hp hu _ hup =>
      obtain ⟨hlen, block, hblock, hfetch, _⟩ := WebsocketHandler.upgrade_accept hup
      rw [hg.readBuf_eq hu hp] at hlen hblock
      refine ⟨fun _ hq => (by cases hq), fun hq => (by cases hq),
        fun _ => ⟨?_, headerMap, rest, ?_, rfl⟩, ?_⟩
      · have hev : View.past ⟨v.handler.upgraded headerMap rest, .frames, v.pending, v.upcoming⟩
            (a ++ [.upgraded v.handler.conn headerMap rest,
              .offered v.handler.conn (parseStr headerMap).2 true true,
              .registered v.handler.conn]) = events a := by
          simp [View.past, events, eventStep]
        rw [hev]
        refine ⟨_, hcomplete hu hp (by rw [hblock]; simp), hlen, block, hblock, ?_⟩
        exact (fetchHttpInfo_eq_zero_iff v.handler.headerMap block).1 (by rw [hfetch])
      · simp [WebsocketHandler.upgraded]
      · rintro _ (hq | hq) <;> cases hq
  | more request hf _ hspec =>
      exact hv.keep (by rw [List.append_nil]) rfl rfl rfl
        (iff_of_false (fun hq => by cases hq) (by rw [hf]; decide))
        fun _ _ => stuck_of_more hspec
  | bad request hf _ hspec =>
      exact hv.keep (events_snoc _ _) rfl rfl rfl
        (iff_of_false (fun hq => by cases hq) (by rw [hf]; decide))
        fun _ _ => stuck_of_bad hspec
  | handle f rest request hf _ _ =>
      refine hv.keep ?_ (by simp) (by simp) (by simp) Iff.rfl ?_
      · rw [events_append]
        exact foldl_eventStep_offerObs v.handler true (reply f) (events a)
      · rw [hf]
        rintro _ (hq | hq) <;> cases hq
  | relay f hi _ _ =>
      refine hv.keep ?_ (by simp) (by simp) (by simp) Iff.rfl fun hs _ => ?_
      · rw [events_append]
        exact foldl_eventStep_offerObs v.handler false (relay f) (events a)
      · have hstuck := hv.settled hs (Or.inl hi)
        simpa using hstuck
  | overheard f hi _ => exact hv.keep (by rw [List.append_nil]) rfl rfl rfl Iff.rfl hv.settled
  | sent n hf _ _ =>
      exact hv.keep (events_snoc _ _) rfl rfl rfl Iff.rfl hv.settled

/-! ### The outcome -/

/-- All that is known of a connection whose events are read to their end. -/
structure Guest (v : View) (a : List Obs) : Prop where
  account : Account v a
  greeting : Greeting v a
  once : a.countP Obs.isUpgraded ≤ 1
  verdict : Verdict v a

/-- What has become of the connection `c`; `done` says that no frame is left to be handled. -/
structure Outcome (done : Prop) (c : ℕ) (a : List Obs) : Prop where
  upgraded_iff : (∃ m rest, Obs.upgraded c m rest ∈ a) ↔ Welcome (events a)
  admitted : ∀ m rest, Obs.upgraded c m rest ∈ a → Admitted a c m rest
  once : a.countP Obs.isUpgraded ≤ 1
  response : ∀ m rest, Obs.upgraded c m rest ∈ a →
    (offers a).head? = some ⟨(parseStr m).2, true, true⟩
  frames : done → ∀ m rest, Obs.upgraded c m rest ∈ a →
    handledFrames a = frameDecoder.items (inbound a)

/-- The headers are those of the first block of all that was received. -/
theorem Admitted.headers {c : ℕ} {m : HeaderMap} {rest : Bytes} (h : Admitted a c m rest) :
    ∃ block, headerBlock (receivedBytes a) = some block ∧
      fetchHttpInfo (fun _ => none) block = (0, m) := by
  obtain ⟨a₁, a₂, block, rfl, _, hblock, hfetch, _⟩ := h
  refine ⟨block, ?_, hfetch⟩
  rw [receivedBytes_append]
  exact headerBlock_append hblock _

/-- Without another upgrade the bytes received are appended. -/
theorem foldl_inboundStep (b : Bytes) (ha : a.countP Obs.isUpgraded = 0) :
    a.foldl inboundStep b = b ++ receivedBytes a := by
  induction a generalizing b with
  | nil => exact (List.append_nil b).symm
  | cons o a ih =>
      rw [List.countP_cons, Nat.add_eq_zero_iff] at ha
      rw [List.foldl_cons, ih (inboundStep b o) ha.1]
      cases o with
      | upgraded c m rest => exact absurd ha.2 (by simp [Obs.isUpgraded])
      | received c data => exact List.append_assoc b data _
      | _ => rfl

/-- The frame loop is given what stands behind the header block. -/
theorem Admitted.inbound {c : ℕ} {m : HeaderMap} {rest block : Bytes} (h : Admitted a c m rest)
    (hone : a.countP Obs.isUpgraded ≤ 1) (hblock : headerBlock (receivedBytes a) = some block) :
    inbound a = (receivedBytes a).drop block.length := by
  obtain ⟨a₁, a₂, block', rfl, _, hblock', _, rfl⟩ := h
  rw [receivedBytes_append, headerBlock_append hblock'] at hblock
  obtain rfl := Option.some.inj hblock
  have hnone : a₂.countP Obs.isUpgraded = 0 := by
    rw [List.countP_append, List.countP_cons_of_pos rfl] at hone
    omega
  have hle : block'.length ≤ (receivedBytes a₁).length := by
    obtain ⟨pos, _, rfl⟩ := Option.map_eq_some_iff.1 hblock'
    exact List.length_take_le' _ _
  have hrest : receivedBytes (.upgraded c m ((receivedBytes a₁).drop block'.length) :: a₂) =
      receivedBytes a₂ := rfl
  rw [inbound_append, receivedBytes_append, List.drop_append_of_le_length hle, hrest]
  exact foldl_inboundStep _ hnone

theorem Guest.step (ho : once) (hd : Dispatched v) (hn : NoHeaders v) (hg : Guest v a)
    (h : ConnStep once v g b v')
    (hk : v.phase = .reading → v'.phase = .idle → v.handler.status = .unconnect ∧
      (Obs.rejected v.handler.conn ∈ b ∨ v.handler.upgrade = .wait)) : Guest v' (a ++ b) :=
  ⟨hg.account.step h, hg.greeting.step ho hd hn h, countP_upgraded_step hg.account hg.once h,
    hg.verdict.step hg.greeting h hk⟩

/-- The outcome, where no event is being read. -/
theorem Guest.outcome (hg : Guest v a) (hp : v.phase ≠ .reading) :
    Outcome (v.phase ≠ .frames) v.handler.conn a := by
  have hpast : v.past a = events a := if_neg hp
  cases hs : v.handler.status with
  | unconnect =>
      have hno (m : HeaderMap) (rest : Bytes) : Obs.upgraded v.handler.conn m rest ∉ a :=
        (hg.account.unconnect hs).2.2.1 _ m rest
      exact ⟨iff_of_false (fun ⟨m, rest, hm⟩ => hno m rest hm) (hg.verdict.left hs hp),
        hg.greeting.upgraded _, hg.once, fun m rest hm => absurd hm (hno m rest),
        fun _ m rest hm => absurd hm (hno m rest)⟩
  | handsharked =>
      obtain ⟨hw, m, rest, hmem, _⟩ := hg.verdict.handsharked hs
      rw [hpast] at hw
      obtain ⟨m₀, os, hup, ⟨rest₀, hmem₀⟩, _⟩ := hg.account.handsharked hs
      refine ⟨iff_of_true ⟨m, rest, hmem⟩ hw, hg.greeting.upgraded _, hg.once, ?_, ?_⟩
      · intro m' rest' hm'
        obtain ⟨block, hblock, hfetch⟩ := (hg.greeting.upgraded _ _ _ hm').headers
        obtain ⟨block₀, hblock₀, hfetch₀⟩ := (hg.greeting.upgraded _ _ _ hmem₀).headers
        rw [hblock, Option.some.injEq] at hblock₀
        subst hblock₀
        rw [hfetch, Prod.mk.injEq] at hfetch₀
        rw [hup.offers, hfetch₀.2]
        rfl
      · intro hdone m' rest' _
        have hquiet : v.phase = .idle ∨ v.phase = .flushing := by
          cases hphase : v.phase with
          | idle => exact Or.inl rfl
          | flushing => exact Or.inr rfl
          | reading => exact absurd hphase hp
          | frames => exact absurd hphase hdone
        exact (Decoder.items_of_decodes hup.inbound (hg.verdict.settled hs hquiet)).symm

theorem Outcome.closed {c : ℕ} (h : Outcome True c a) (fd : Fd) :
    Outcome True c (a ++ [.closed c fd]) := by
  have hmem (m : HeaderMap) (rest : Bytes) :
      Obs.upgraded c m rest ∈ a ++ [.closed c fd] ↔ Obs.upgraded c m rest ∈ a := by simp
  refine ⟨?_, ?_, ?_, ?_, ?_⟩
  · simp only [hmem]
    rw [events_snoc]
    exact h.upgraded_iff
  · exact fun m rest hm => (h.admitted m rest ((hmem m rest).1 hm)).append _
  · rw [List.countP_append]
    exact h.once
  · intro m rest hm
    rw [offers_append]
    simpa [offers] using h.response m rest ((hmem m rest).1 hm)
  · intro _ m rest hm
    rw [inbound_snoc, handledFrames_append]
    simpa [handledFrames, inboundStep] using h.frames trivial m rest ((hmem m rest).1 hm)

namespace Loop

variable {listenfd : Fd} {s t : Loop} {c : ℕ} {fd : Fd} {h h' : WebsocketHandler}

/-- An environment that keeps to the contract and serves the connection `c`. -/
def Serving (c : ℕ) (s : Loop) (i : Input) : Prop := EpollContract s i ∧ Serves c s i

theorem promises_serving (c : ℕ) : Promises (Serving c) True := fun _ _ h _ => h.1

/-- **An event that is read to its end ends in `drive_io`.** -/
theorem serves_step {i : Input} (hwf : s.WellFormed once) (hi : Serves c s i)
    (hstep : s.step i = some t) (hfd : s.worker.websocketHandlerMap fd = some h) (hc : h.conn = c)
    (hread : (s.view fd h).phase = .reading) (hidle : (t.view fd h').phase = .idle) :
    h.status = .unconnect ∧
      ((∃ δ, t.worker.trace = s.worker.trace ++ δ ∧ .rejected h.conn ∈ δ) ∨ h.upgrade = .wait) := by
  obtain ⟨es, hpc⟩ := pc_of_phase_reading hread
  have hbusy {q : Prop} (hpc' : t.pc = .reading fd es ∨ t.pc = .frames fd es) : q := by
    rcases hpc' with hpc' | hpc'
    · simp [view, hpc', Pc.phase] at hidle
    · simp [view, hpc', Pc.phase] at hidle
  cases i with
  | read data =>
      simp only [Serves, hpc] at hi
      have hfits := hi h hfd hc
      simp only [step, hpc, readStep, hfd, WebsocketHandler.appendRead] at hstep
      split_ifs at hstep with hlen hzero
      · exact absurd (Or.inl hzero) hlen
      · exact absurd hfits (by omega)
      · obtain rfl := Option.some.inj hstep
        exact hbusy (Or.inl rfl)
  | readEof =>
      simp only [Serves, hpc] at hi
      exact absurd hc (hi h hfd)
  | readError =>
      simp only [Serves, hpc] at hi
      exact absurd hc (hi h hfd)
  | readAgain =>
      simp only [step, hpc] at hstep
      obtain ⟨hlisten, _⟩ := hwf.pc.current fd (by rw [hpc]; rfl)
      have hown := hwf.worker.own fd h hfd
      cases hs : h.status with
      | handsharked =>
          rw [NetworkInterface.driveIoUpgrade_handsharked hfd hs] at hstep
          obtain rfl := Option.some.inj hstep
          exact hbusy (Or.inr rfl)
      | unconnect =>
          refine ⟨rfl, ?_⟩
          cases hup : h.upgrade with
          | wait => exact Or.inr rfl
          | reject readBuf headerMap =>
              rw [NetworkInterface.driveIoUpgrade_reject hfd hs hown hup] at hstep
              obtain rfl := Option.some.inj hstep
              exact Or.inl ⟨[.rejected h.conn], by simp [afterUpgrade], List.mem_singleton_self _⟩
          | accept headerMap rest =>
              obtain ⟨w', hdrive, _⟩ := NetworkInterface.driveIoUpgrade_accept hfd hs hown hlisten
                (hwf.worker.nonneg fd h hfd hlisten) (hwf.worker.writeBuf fd h hfd hs) hup
              rw [hdrive] at hstep
              obtain rfl := Option.some.inj hstep
              exact hbusy (Or.inr rfl)
  | rehash order =>
      simp only [step] at hstep
      split_ifs at hstep
      obtain rfl := Option.some.inj hstep
      exact hbusy (Or.inl hpc)
  | _ => simp [step, hpc] at hstep

/-- The connection `c` is being read, or its frames are being handled. -/
def At (s : Loop) (c : ℕ) (phase : Phase) : Prop :=
  ∃ fd h, s.worker.websocketHandlerMap fd = some h ∧ h.conn = c ∧ s.pc.phase fd = phase

/-- **A connection whose events are all read to their end.**  `es` is what they brought. -/
structure Delivered (listenfd : Fd) (c : ℕ) (es : List Bytes) (s : Loop) : Prop where
  reached : Reachable (Serving c) listenfd s
  accepted : c < s.worker.nextConn
  events : events (about c s.worker.trace) = es
  ended : ¬ s.At c .reading

/-- The connection `c` has been upgraded. -/
def HasUpgraded (s : Loop) (c : ℕ) : Prop := ∃ m rest, .upgraded c m rest ∈ s.worker.trace

/-- What an upgrade comes to: the headers, the response, and the frames behind the header block. -/
structure Welcomed (s : Loop) (c : ℕ) (m : HeaderMap) (rest : Bytes) : Prop where
  headerMap : ∀ fd h, s.worker.websocketHandlerMap fd = some h → h.conn = c →
    h.status = .handsharked ∧ h.headerMap = (parseStr m).1
  response : (offers (about c s.worker.trace)).head? = some ⟨(parseStr m).2, true, true⟩
  inbound : inbound (about c s.worker.trace) = rest
  frames : ¬ s.At c .frames → handledFrames (about c s.worker.trace) = frameDecoder.items rest

/-- What is known around a step of the connection. -/
structure Around (c : ℕ) (τ : List Obs) (v : View) (τ' : List Obs) (v' : View) : Prop where
  dispatched : Dispatched v
  noHeaders : NoHeaders v
  served : v.handler.conn = c → v.phase = .reading → v'.phase = .idle →
    v.handler.status = .unconnect ∧
      ((∃ δ, τ' = τ ++ δ ∧ .rejected v.handler.conn ∈ δ) ∨ v.handler.upgrade = .wait)

theorem around {i : Input} (hr : Reachable (Serving c) listenfd s)
    (hi : Serving c s i) (hstep : s.step i = some t)
    (hfd : s.worker.websocketHandlerMap fd = some h) :
    Around c s.worker.trace (s.view fd h) t.worker.trace (t.view fd h') := by
  have hr' : Reachable EpollContract listenfd s := hr.mono fun _ _ h => h.1
  obtain ⟨hd, hn⟩ := before_step hr' hfd
  refine ⟨hd, hn, fun hc hread hidle => ?_⟩
  exact serves_step (reachable_wellFormed promises_epollContract hr') hi.2 hstep hfd hc hread hidle

/-- A connection that has just been accepted. -/
theorem guest_new (τ : List Obs) (c : ℕ) (fd : Fd) (p u : Bool) (hτ : ∀ o ∈ τ, o.conn ≠ c) :
    Guest ⟨WebsocketHandler.new c fd, .idle, p, u⟩ (about c (τ ++ [.accepted c fd])) := by
  refine ⟨account_new τ c fd p u hτ, greeting_new τ c fd p u hτ, ?_, nofun, fun _ _ => ?_, nofun,
    nofun⟩
  · rw [about_new fd hτ]
    exact Nat.zero_le _
  · rw [about_new fd hτ]
    exact not_welcome_of_none rfl

theorem guest_step {τ δ : List Obs} {v v' : View} {g : List Frame} {a : List Obs}
    (ha : about v.handler.conn δ = a) (hstep : ConnStep True v g a v')
    (hk : Around c τ v (τ ++ δ) v')
    (hg : v.handler.conn = c → Guest v (about v.handler.conn τ)) :
    v'.handler.conn = c → Guest v' (about v'.handler.conn (τ ++ δ)) := by
  intro hc
  rw [hstep.conn] at hc ⊢
  rw [about_append, ha]
  refine (hg hc).step trivial hk.dispatched hk.noHeaders hstep fun hread hidle => ?_
  obtain ⟨hu, hwhy⟩ := hk.served hc hread hidle
  refine ⟨hu, hwhy.imp_left ?_⟩
  rintro ⟨δ', heq, hmem⟩
  obtain rfl := List.append_cancel_left heq
  rw [← ha]
  exact List.mem_filter.2 ⟨hmem, decide_eq_true rfl⟩

/-- A live connection whose events are read to their end. -/
theorem guest (hr : Reachable (Serving c) listenfd s)
    (hfd : s.worker.websocketHandlerMap fd = some h) (hc : h.conn = c) :
    Guest (s.view fd h) (about h.conn s.worker.trace) :=
  conn_induction_between (K := Around c)
    (P := fun τ v => v.handler.conn = c → Guest v (about v.handler.conn τ)) (promises_serving c)
    (fun _ _ _ _ _ _ hr hi hstep hfd _ => around hr hi hstep hfd)
    (fun τ c fd p u hτ _ => guest_new τ c fd p u hτ)
    (fun _ _ _ _ _ _ _ ha hstep hk hg => guest_step ha hstep hk hg) hr fd h hfd hc

/-- **The outcome of a connection whose events are all read to their end.** -/
theorem Delivered.outcome {es : List Bytes} (hd : Delivered listenfd c es s) :
    Outcome (¬ s.At c .frames) c (about c s.worker.trace) := by
  obtain ⟨hr, hlt, _, hpast⟩ := hd
  rcases conn_history_between (K := Around c)
    (P := fun τ v => v.handler.conn = c → Guest v (about v.handler.conn τ))
    (Q := fun c' τ => c' = c → Outcome True c' (about c' τ)) (promises_serving c)
    (fun _ _ _ _ _ _ hr hi hstep hfd _ => around hr hi hstep hfd)
    (fun τ c fd p u hτ _ => guest_new τ c fd p u hτ)
    (fun _ _ _ _ _ _ _ ha hstep hk hg => guest_step ha hstep hk hg)
    (fun τ δ v fd hg hi _ _ _ hab hc => by
      have hout := (hg hc).outcome (by rw [hi]; nofun)
      rw [about_append, hab]
      refine Outcome.closed ⟨hout.upgraded_iff, hout.admitted, hout.once, hout.response, ?_⟩ fd
      exact fun _ => hout.frames (by rw [hi]; nofun))
    (fun c' τ δ hδ hQ hc => by
      rw [about_append, hδ, List.append_nil]
      exact hQ hc) hr c hlt with ⟨fd, h, hfd, rfl⟩ | hclosed
  · have hout := (guest hr hfd rfl).outcome fun hp => hpast ⟨fd, h, hfd, rfl, hp⟩
    refine ⟨hout.upgraded_iff, hout.admitted, hout.once, hout.response, fun hdone => ?_⟩
    exact hout.frames fun hp => hdone ⟨fd, h, hfd, rfl, hp⟩
  · have hout := hclosed rfl
    exact ⟨hout.upgraded_iff, hout.admitted, hout.once, hout.response, fun _ => hout.frames trivial⟩

/-- One grouping. -/
theorem Delivered.welcomed {es : List Bytes} {block : Bytes} {m : HeaderMap}
    (hd : Delivered listenfd c es s) (hblock : headerBlock es.flatten = some block)
    (hfetch : fetchHttpInfo (fun _ => none) block = (0, m)) :
    ∃ b, arrived [] es = some b ∧ (s.HasUpgraded c ↔ b.length ≤ wsMaxHandshakeBytes) ∧
      (b.length ≤ wsMaxHandshakeBytes → s.Welcomed c m (es.flatten.drop block.length)) := by
  have hout := hd.outcome
  obtain ⟨hr, hlt, rfl, _⟩ := hd
  obtain ⟨b, harrived, hb⟩ := exists_arrived (b := []) hblock rfl
  have hadm : Admissible b :=
    ⟨block, hb, (fetchHttpInfo_eq_zero_iff (fun _ => none) block).1 (by rw [hfetch])⟩
  have hiff : Welcome (WebSocketDemo.events (about c s.worker.trace)) ↔
      b.length ≤ wsMaxHandshakeBytes := by
    constructor
    · rintro ⟨b', harrived', hlen, _⟩
      rw [harrived, Option.some.injEq] at harrived'
      rw [harrived']
      exact hlen
    · exact fun hlen => ⟨b, harrived, hlen, hadm⟩
  have hmem (m : HeaderMap) (rest : Bytes) :
      Obs.upgraded c m rest ∈ about c s.worker.trace ↔ .upgraded c m rest ∈ s.worker.trace := by
    simp [about, Obs.conn]
  rw [flatten_events] at hblock ⊢
  refine ⟨b, harrived, ?_, fun hlen => ?_⟩
  · rw [← hiff, ← hout.upgraded_iff]
    simp only [hmem, HasUpgraded]
  · obtain ⟨m', rest, hup⟩ := hout.upgraded_iff.2 (hiff.2 hlen)
    -- the headers are those of the block
    have hheaders {m' : HeaderMap} {rest : Bytes}
        (hup : Obs.upgraded c m' rest ∈ about c s.worker.trace) : m' = m := by
      obtain ⟨block', hblock', hfetch'⟩ := (hout.admitted m' rest hup).headers
      rw [hblock, Option.some.injEq] at hblock'
      subst hblock'
      rw [hfetch, Prod.mk.injEq] at hfetch'
      exact hfetch'.2.symm
    obtain rfl := hheaders hup
    have hin := (hout.admitted m' rest hup).inbound hout.once hblock
    refine ⟨?_, hout.response m' rest hup, hin, fun hdone => ?_⟩
    · rintro fd h hfd rfl
      have hg := guest hr hfd rfl
      have hs := status_of_upgraded hg.account ⟨m', rest, hup⟩
      obtain ⟨_, m₁, rest₁, hup₁, hmap⟩ := hg.verdict.handsharked hs
      obtain rfl := hheaders hup₁
      exact ⟨hs, hmap⟩
    · rw [← hin]
      exact hout.frames hdone m' rest hup

end Loop

/-- **The grouping of the bytes decides on the upgrade, and on nothing else.**  The same bytes, with
a first header block that `fetch_http_info` accepts, are delivered to two connections in any events.
Either of them is upgraded exactly when what had been received at the end of the event that
completes the header block is within `WS_MAX_HANDSHAKE_BYTES`; those that are upgraded have the same
headers and are sent the same response, and the same frames of them are handled. -/
theorem upgrade_grouping {listenfd₁ listenfd₂ : Fd} {c₁ c₂ : ℕ} {es₁ es₂ : List Bytes}
    {s₁ s₂ : Loop} (hd₁ : s₁.Delivered listenfd₁ c₁ es₁) (hd₂ : s₂.Delivered listenfd₂ c₂ es₂)
    (hsame : es₁.flatten = es₂.flatten) {block : Bytes} {m : HeaderMap}
    (hblock : headerBlock es₁.flatten = some block)
    (hfetch : fetchHttpInfo (fun _ => none) block = (0, m)) :
    ∃ b₁ b₂, arrived [] es₁ = some b₁ ∧ arrived [] es₂ = some b₂ ∧
      (s₁.HasUpgraded c₁ ↔ b₁.length ≤ wsMaxHandshakeBytes) ∧
      (s₂.HasUpgraded c₂ ↔ b₂.length ≤ wsMaxHandshakeBytes) ∧
      (b₁.length ≤ wsMaxHandshakeBytes → b₂.length ≤ wsMaxHandshakeBytes →
        s₁.Welcomed c₁ m (es₁.flatten.drop block.length) ∧
          s₂.Welcomed c₂ m (es₁.flatten.drop block.length)) := by
  obtain ⟨b₁, harrived₁, hiff₁, hw₁⟩ := hd₁.welcomed hblock hfetch
  obtain ⟨b₂, harrived₂, hiff₂, hw₂⟩ := hd₂.welcomed (by rw [← hsame]; exact hblock) hfetch
  refine ⟨b₁, b₂, harrived₁, harrived₂, hiff₁, hiff₂, fun h₁ h₂ => ⟨hw₁ h₁, ?_⟩⟩
  rw [hsame]
  exact hw₂ h₂

/-! ### Two groupings -/

section Groupings

open Loop

instance (c : ℕ) (s : Loop) (i : Input) : Decidable (Serves c s i) := by
  unfold Serves
  cases s with
  | mk worker pc =>
      dsimp only
      split <;> infer_instance

instance (c : ℕ) (s : Loop) (i : Input) : Decidable (Serving c s i) :=
  inferInstanceAs (Decidable (EpollContract s i ∧ Serves c s i))

variable {listenfd : Fd} {s : Loop} {c : ℕ} {fd : Fd} {h : WebsocketHandler} {es : List EpollEvent}

/-- Reading what fits serves the connection. -/
theorem reachable_reads (hr : Reachable (Serving c) listenfd s) (hpc : s.pc = .reading fd es)
    (hfd : s.worker.websocketHandlerMap fd = some h) {ds : List Bytes} (hds : ∀ d ∈ ds, IsChunk d)
    (hcap : h.readBuf.length + ds.flatten.length ≤ wsMaxReadBuffer) :
    Reachable (Serving c) listenfd (s.reads fd h ds) := by
  induction ds generalizing s h with
  | nil =>
      rw [reads_nil hfd]
      exact hr
  | cons d ds ih =>
      rw [List.flatten_cons, List.length_append] at hcap
      have hfits : h.readBuf.length + d.length ≤ wsMaxReadBuffer := by omega
      have hserves : Serving c s (.read d) := by
        refine ⟨trivial, ?_⟩
        simp only [Serves, hpc, hfd]
        rintro h' hh' _
        obtain rfl := Option.some.inj hh'
        exact hfits
      have hnext : Reachable (Serving c) listenfd (s.reads fd h [d]) :=
        hr.tail _ hserves (step_read_fits hpc hfd (hds d List.mem_cons_self) hfits)
      rw [← reads_cons d ds]
      refine ih hnext hpc ?_ (fun d' hd' => hds d' (List.mem_cons_of_mem _ hd')) ?_
      · rw [reads_map]
        simp
      · rw [List.length_append]
        omega

/-- The event under way grows. -/
theorem foldl_eventStep_received (ds fs : List Bytes) (b : Bytes) :
    (ds.map (Obs.received c)).foldl eventStep (fs ++ [b]) = fs ++ [b ++ ds.flatten] := by
  induction ds generalizing b with
  | nil => simp
  | cons d ds ih =>
      have hstep : eventStep (fs ++ [b]) (.received c d) = fs ++ [b ++ d] := by simp [eventStep]
      rw [List.map_cons, List.foldl_cons, hstep, ih, List.flatten_cons, List.append_assoc]

/-- A client whose socket is readable: `es` is what its events have brought, the last of which has
just begun. -/
structure Readable (s : Loop) (h : WebsocketHandler) (es : List Bytes) (status : WebsocketStatus) :
    Prop where
  reachable : Reachable (Serving 1) 3 s
  pc : s.pc = .reading 5 []
  map : s.worker.websocketHandlerMap 5 = some h
  conn : h.conn = 1
  status : h.status = status
  readBuf : h.readBuf = []
  brought : events (about 1 s.worker.trace) = es ++ [[]]

/-- A new client, and one whose request was answered. -/
theorem exists_readable (is : List Input) {es : List Bytes} {status : WebsocketStatus}
    (hrun : (Transition.runOk step (Serving 1) (Loop.init 3) is).map (fun s =>
      (decide (s.pc = .reading 5 [] ∧ events (about 1 s.worker.trace) = es ++ [[]]),
        (s.worker.websocketHandlerMap 5).map fun h => (h.conn, h.status, h.readBuf))) =
      some (true, some (1, status, []))) : ∃ s h, Readable s h es status := by
  obtain ⟨s, hr, hs⟩ := reachable_of_runOk _ hrun
  injection hs with hfacts hmap
  obtain ⟨h, hfd, hh⟩ := Option.map_eq_some_iff.1 hmap
  simp only [Prod.mk.injEq] at hh
  obtain ⟨hpc, hevents⟩ := of_decide_eq_true hfacts
  exact ⟨s, h, hr, hpc, hfd, hh.1, hh.2.1, hh.2.2, hevents⟩

theorem exists_readable_new : ∃ s h, Readable s h [] .unconnect :=
  exists_readable [.epollWait [⟨3, epollIn⟩], .tau, .accept 5, .acceptFail, .tau,
    .epollWait [⟨5, epollIn⟩], .tau] (by decide +kernel)

theorem exists_readable_upgraded : ∃ s h, Readable s h [upgradeRequest] .handsharked :=
  exists_readable (session [5] ++ [.epollWait [⟨5, epollIn⟩], .tau]) (by decide +kernel)

/-- The event brings the chunks `ds` and is read to its end. -/
theorem Readable.delivered {es ds : List Bytes} {status : WebsocketStatus} {t : Loop} {δ : List Obs}
    (hs : Readable s h es status) (hds : ∀ d ∈ ds, IsChunk d)
    (hcap : ds.flatten.length ≤ wsMaxReadBuffer) (ht : (s.reads 5 h ds).step .readAgain = some t)
    (hpc : ∀ fd, t.pc.phase fd ≠ .reading)
    (hlive : (t.worker.websocketHandlerMap 5).map WebsocketHandler.conn = some 1)
    (htrace : t.worker.trace = (s.reads 5 h ds).worker.trace ++ δ)
    (hδ : ∀ fs, (about 1 δ).foldl eventStep fs = fs) : t.Delivered 3 1 (es ++ [ds.flatten]) := by
  obtain ⟨hr, hread, hfd, hconn, _, hbuf, hbrought⟩ := hs
  have hr₁ : Reachable (Serving 1) 3 (s.reads 5 h ds) :=
    reachable_reads hr hread hfd hds (by rw [hbuf, List.length_nil, Nat.zero_add]; exact hcap)
  have hserves : Serving 1 (s.reads 5 h ds) .readAgain := by
    refine ⟨trivial, ?_⟩
    simp only [Serves, reads, hread]
  have hr₂ : Reachable (Serving 1) 3 t := hr₁.tail .readAgain hserves ht
  have hbegun : 1 < t.worker.nextConn := by
    obtain ⟨h', hfd', hc⟩ := Option.map_eq_some_iff.1 hlive
    rw [← hc]
    exact (reachable_wellFormed (promises_serving 1) hr₂).worker.conn_lt 5 h' hfd'
  refine ⟨hr₂, hbegun, ?_, ?_⟩
  · have hsome : about 1 (ds.map (Obs.received h.conn)) = ds.map (Obs.received 1) := by
      rw [hconn]
      simp [about, Obs.conn]
    rw [htrace, about_append, events_append, hδ, reads, about_append, hsome, events_append,
      hbrought, foldl_eventStep_received, List.nil_append]
  · rintro ⟨fd, _, _, _, hp⟩
    exact hpc fd hp

/-- Frames that a client sends behind its request without waiting for the response. -/
def pipelined : List Bytes := List.replicate 4 hiChunk

theorem isChunk_pipelined : ∀ d ∈ pipelined, IsChunk d := by
  intro d hd
  obtain rfl := List.eq_of_mem_replicate hd
  rw [IsChunk, length_hiChunk]
  decide

theorem length_pipelined : pipelined.flatten.length = wsMaxHandshakeBytes := by
  simp [pipelined, length_hiChunk, readChunk, wsMaxHandshakeBytes]

theorem isChunk_upgradeRequest : IsChunk upgradeRequest := by
  unfold IsChunk
  decide +kernel

/-- They come in an event of their own. -/
theorem exists_second_event : ∃ s : Loop,
    s.Delivered 3 1 [upgradeRequest, pipelined.flatten] ∧ s.HasUpgraded 1 := by
  obtain ⟨s, h, hs⟩ := exists_readable_upgraded
  have hmap : (s.reads 5 h pipelined).worker.websocketHandlerMap 5 =
      some { h with readBuf := h.readBuf ++ pipelined.flatten } := reads_map pipelined
  have hstep : (s.reads 5 h pipelined).step .readAgain =
      some ⟨(s.reads 5 h pipelined).worker, .frames 5 []⟩ := by
    have hpc : (s.reads 5 h pipelined).pc = .reading 5 [] := hs.pc
    simp only [step, hpc, NetworkInterface.driveIoUpgrade_handsharked hmap hs.status, afterUpgrade]
  have hd := hs.delivered (δ := []) isChunk_pipelined
    (by rw [length_pipelined]; decide) hstep
    (fun fd hp => by simp only [Pc.phase] at hp; split_ifs at hp)
    (by rw [hmap, Option.map_some]; exact congrArg some hs.conn) (List.append_nil _).symm
    (fun _ => rfl)
  refine ⟨_, hd, ?_⟩
  obtain ⟨_, _, _, ⟨rest, hmem⟩, _⟩ :=
    (account promises_epollContract (hd.reached.mono fun _ _ h => h.1) hmap).handsharked hs.status
  exact ⟨_, rest, hs.conn ▸ (List.mem_filter.1 hmem).1⟩

/-- They come in the event of the request. -/
theorem exists_one_event : ∃ s : Loop, s.Delivered 3 1 [upgradeRequest ++ pipelined.flatten] ∧
    ¬ s.HasUpgraded 1 ∧ .rejected 1 ∈ s.worker.trace := by
  obtain ⟨s, h, hs⟩ := exists_readable_new
  set ds := upgradeRequest :: pipelined with hds
  set h₁ : WebsocketHandler := { h with readBuf := h.readBuf ++ ds.flatten } with hh₁
  set s₁ := s.reads 5 h ds with hs₁
  have hmap : s₁.worker.websocketHandlerMap 5 = some h₁ := s.reads_map ds
  have hpc : s₁.pc = .reading 5 [] := hs.pc
  have hflat : ds.flatten = upgradeRequest ++ pipelined.flatten := List.flatten_cons
  have hlen : ds.flatten.length = upgradeRequest.length + wsMaxHandshakeBytes := by
    rw [hflat, List.length_append, length_pipelined]
  obtain ⟨hsome, hfits⟩ := isChunk_upgradeRequest
  have hbuf : h₁.readBuf = ds.flatten := by rw [hh₁, hs.readBuf]; exact List.nil_append _
  have hup : h₁.upgrade = .reject h₁.readBuf h₁.headerMap := by
    rw [WebsocketHandler.upgrade, if_pos]
    rw [hbuf, hlen]
    exact Nat.lt_add_of_pos_left (Nat.pos_of_ne_zero hsome)
  have hown : h₁.fd = 5 :=
    (reachable_wellFormed (promises_serving 1) hs.reachable).worker.own 5 h hs.map
  have hdrive := NetworkInterface.driveIoUpgrade_reject hmap hs.status hown hup
  have hconn : h₁.conn = 1 := hs.conn
  have hchunks : ∀ d ∈ ds, IsChunk d := by
    rw [hds]
    exact List.forall_mem_cons.2 ⟨isChunk_upgradeRequest, isChunk_pipelined⟩
  set w := ((s₁.worker.setHandler 5
    { h₁ with readBuf := h₁.readBuf, headerMap := h₁.headerMap }).emit
      (.rejected h₁.conn)).queueClose 5
    with hw
  have hleft : w.websocketHandlerMap 5 = some h₁ := by
    rw [hw, NetworkInterface.queueClose_map, NetworkInterface.emit_map,
      NetworkInterface.setHandler_map, Function.update_self]
  have htrace : w.trace = s₁.worker.trace ++ [.rejected h₁.conn] := by
    rw [hw, NetworkInterface.queueClose_trace, NetworkInterface.emit_trace,
      NetworkInterface.setHandler_trace]
  have hd := hs.delivered (δ := [.rejected h₁.conn]) (t := ⟨w, .batch []⟩) hchunks
    (by rw [hlen]; exact (Nat.add_le_add_right hfits _).trans (by decide))
    (by simp only [← hs₁, step, hpc, hdrive, afterUpgrade])
    (fun fd hp => by cases hp)
    (by rw [hleft, Option.map_some, hconn]) htrace
    (by rw [hconn]; exact fun _ => rfl)
  rw [hflat] at hd
  refine ⟨_, hd, ?_, ?_⟩
  · rintro ⟨m, rest, hmem⟩
    have hacc := account promises_epollContract (hd.reached.mono fun _ _ h => h.1) hleft
    refine (hacc.unconnect hs.status).2.2.1 1 m rest (List.mem_filter.2 ⟨hmem, ?_⟩)
    rw [hconn]
    exact decide_eq_true rfl
  · rw [htrace, hconn]
    exact List.mem_append_right _ (List.mem_singleton_self _)

end Groupings

theorem headerBlock_upgradeRequest : headerBlock upgradeRequest = some upgradeRequest ∧
    (fetchHttpInfo (fun _ => none) upgradeRequest).1 = 0 := by
  decide +kernel

/-- **Pipelined frames cause the handshake to be rejected.**  The same request and the same frames
are read without a refusal; where the frames come in an event of their own the connection is
upgraded, where they come in the event of the request it is given up. -/
theorem pipelined_rejected : ∃ (es₁ es₂ : List Bytes) (s₁ s₂ : Loop),
    s₁.Delivered 3 1 es₁ ∧ s₂.Delivered 3 1 es₂ ∧ es₁.flatten = es₂.flatten ∧
    (∃ block, headerBlock es₁.flatten = some block ∧ block.length ≤ wsMaxHandshakeBytes ∧
      (fetchHttpInfo (fun _ => none) block).1 = 0 ∧
      es₁.flatten.drop block.length = framesOf 8192 hiFrame) ∧
    s₁.HasUpgraded 1 ∧ ¬ s₂.HasUpgraded 1 ∧ .rejected 1 ∈ s₂.worker.trace := by
  obtain ⟨s₁, hd₁, hup⟩ := exists_second_event
  obtain ⟨s₂, hd₂, hnot, hrej⟩ := exists_one_event
  obtain ⟨hblock, hret⟩ := headerBlock_upgradeRequest
  have hlen := length_le_of_isChunk isChunk_upgradeRequest
  have hflat : [upgradeRequest, pipelined.flatten].flatten = upgradeRequest ++
      pipelined.flatten := by
    rw [List.flatten_cons, List.flatten_singleton]
  refine ⟨_, _, s₁, s₂, hd₁, hd₂, by rw [hflat, List.flatten_singleton],
    ⟨upgradeRequest, ?_, hlen, hret, ?_⟩, hup, hnot, hrej⟩
  · rw [hflat]
    exact headerBlock_append hblock _
  · rw [hflat, List.drop_left, pipelined, hiChunk, flatten_replicate_framesOf]

/-- A request that comes in one event or in two. -/
theorem upgrade_grouping_split : ∃ (s₁ s₂ : Loop) (m : HeaderMap),
    s₁.Delivered 3 1 [upgradeRequest] ∧
    s₂.Delivered 3 1 [upgradeRequest.take 10, upgradeRequest.drop 10] ∧
    s₁.Welcomed 1 m [] ∧ s₂.Welcomed 1 m [] := by
  have hdelivered (es : List Bytes) (is : List Input)
      (hrun : (Transition.runOk Loop.step (Loop.Serving 1) (Loop.init 3) is).map (fun s =>
        decide (s.pc = .batch [] ∧ 1 < s.worker.nextConn ∧
          events (about 1 s.worker.trace) = es)) = some true) : ∃ s : Loop, s.Delivered 3 1 es := by
    obtain ⟨s, hr, hs⟩ := Loop.reachable_of_runOk _ hrun
    obtain ⟨hpc, hlt, hev⟩ := of_decide_eq_true hs
    refine ⟨s, hr, hlt, hev, ?_⟩
    rintro ⟨fd, _, _, _, hp⟩
    rw [hpc] at hp
    cases hp
  obtain ⟨s₁, hd₁⟩ := hdelivered [upgradeRequest] [.epollWait [⟨3, epollIn⟩], .tau,
    .accept 5, .acceptFail, .tau, .epollWait [⟨5, epollIn⟩], .tau, .read upgradeRequest, .readAgain,
    .tau] (by decide +kernel)
  obtain ⟨s₂, hd₂⟩ := hdelivered [upgradeRequest.take 10, upgradeRequest.drop 10]
    [.epollWait [⟨3, epollIn⟩], .tau, .accept 5, .acceptFail, .tau,
      .epollWait [⟨5, epollIn⟩], .tau, .read (upgradeRequest.take 10), .readAgain, .tau,
      .epollWait [⟨5, epollIn⟩], .tau, .read (upgradeRequest.drop 10), .readAgain, .tau]
    (by decide +kernel)
  obtain ⟨hblock, hret⟩ := headerBlock_upgradeRequest
  have hlen := length_le_of_isChunk isChunk_upgradeRequest
  have hflat : [upgradeRequest].flatten = upgradeRequest := List.flatten_singleton
  have hsplit : [upgradeRequest.take 10, upgradeRequest.drop 10].flatten = upgradeRequest := by
    rw [List.flatten_cons, List.flatten_singleton, List.take_append_drop]
  obtain ⟨m, hfetch⟩ : ∃ m, fetchHttpInfo (fun _ => none) upgradeRequest = (0, m) :=
    ⟨_, Prod.eq_iff_fst_eq_snd_eq.2 ⟨hret, rfl⟩⟩
  rw [← hflat] at hblock
  obtain ⟨b₁, b₂, h₁, h₂, _, _, hw⟩ := upgrade_grouping hd₁ hd₂
    (hflat.trans hsplit.symm) hblock hfetch
  have hb₁ : b₁ = upgradeRequest := by
    have harrived : arrived [] [upgradeRequest] = some upgradeRequest := by decide +kernel
    exact (Option.some.inj (harrived.symm.trans h₁)).symm
  have hb₂ : b₂ = upgradeRequest := by
    have harrived : arrived [] [upgradeRequest.take 10, upgradeRequest.drop 10] =
        some upgradeRequest := by decide +kernel
    exact (Option.some.inj (harrived.symm.trans h₂)).symm
  obtain ⟨hw₁, hw₂⟩ := hw (by rw [hb₁]; exact hlen) (by rw [hb₂]; exact hlen)
  rw [hflat, List.drop_length] at hw₁ hw₂
  exact ⟨s₁, s₂, m, hd₁, hd₂, hw₁, hw₂⟩

end WebSocketDemo
