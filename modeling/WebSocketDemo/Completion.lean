/-
**What has been said can still be heard.**

No run leads into a state from which a message can no longer arrive.  Where the worker waits, the
clients whose connections are open are served one after the other, byte by byte: all write buffers
are emptied, one byte of what is on the way is read and, if that completes a frame, the frame is
handled; its echo fits in every empty buffer, so that no connection is closed.  When nothing is left
on the way up, the clients read what is on the way down.

Main definitions:

* `System.Hushed` — nobody says anything;
* `System.Tends` — such a run that closes no connection, and where it has got to.

Main results:

* `System.Consistent.next_frame` — **the frame loop finds frames the client has sent**;
* `System.Tends.round` — **one more byte is served**;
* `deliverable` — **whatever is on the way can still arrive**.
-/

import WebSocketDemo.Delivery

set_option relaxedAutoImplicit false
set_option autoImplicit false

namespace WebSocketDemo

open PrefixDecoder Rfc6455

/-- The echo of a frame fits in an empty write buffer. -/
theorem length_textFrame_le {payload : Bytes} (h : payload.length ≤ wsMaxPayloadBytes) :
    (textFrame payload).length ≤ wsMaxWriteBuffer := by
  have hext : (WireFrame.extendedLength payload.length).length ≤ 8 := by
    unfold WireFrame.extendedLength
    split_ifs <;> simp
  have hmax : wsMaxPayloadBytes + 10 ≤ wsMaxWriteBuffer := by decide
  rw [textFrame, WireFrame.length_encode]
  simp only [serverFrame, WireFrame.keyBytes, List.length_nil]
  omega

/-- The system calls that move bytes. -/
def Input.isTransfer : Input → Bool
  | .read _ => true
  | .send _ => true
  | _ => false

/-- What is said, and by whom. -/
def Action.token : Action → Option (ℕ × Bytes)
  | .sendTextBytes c u => some (c, u.payload)
  | _ => none

namespace System

/-- Nobody says anything. -/
def Hushed (s : System) (a : Action) : Prop := s.Punctual a ∧ a.token = none

instance (s : System) (a : Action) : Decidable (s.Hushed a) :=
  inferInstanceAs (Decidable (s.Punctual a ∧ a.token = none))

/-- What `send_text_bytes` does. -/
def say (s : System) (c : ℕ) (u : Utterance) : System :=
  { s with
    up := Function.update s.up c (s.up c ++ ScriptClient.buildTextFrame u.mask u.payload)
    said := Function.update s.said c (s.said c ++ [u]) }

theorem step_say {host : Bytes} {port : ℕ} {s : System} {c : ℕ} {u : Utterance}
    (h : (s.client c).isOpen = true) : s.step host port (.sendTextBytes c u) = some (s.say c u) :=
  if_pos h

theorem said_say (s : System) (c : ℕ) (u : Utterance) : (s.say c u).said c = s.said c ++ [u] :=
  Function.update_self _ _ _

/-! ### Runs of the worker -/

section Runs

variable {host : Bytes} {port : ℕ} {listenfd : Fd} {s t : System} {fd : Fd} {h : WebsocketHandler}

/-- What the worker does in the system it does alone. -/
theorem reaches_worker (hr : Reachable Contract host port listenfd s)
    (hst : Transition.Reaches (step host port) Contract s t) :
    Transition.Reaches Loop.step Loop.EpollContract s.worker t.worker := by
  have hstep : ∀ v a w, (Consistent host port listenfd v ∧
      Transition.Reaches Loop.step Loop.EpollContract s.worker v.worker) → v.Contract a →
      v.step host port a = some w → Consistent host port listenfd w ∧
        Transition.Reaches Loop.step Loop.EpollContract s.worker w.worker := by
    rintro v a w ⟨hc, hrun⟩ hok hs
    refine ⟨hc.step hok hs, ?_⟩
    cases a with
    | worker i =>
        have hwf := Loop.reachable_wellFormed Loop.promises_epollContract hc.worker
        exact hrun.tail i hok (workerStep_moves hwf hs).worker
    | handshake c nonce =>
        simp only [step] at hs
        split_ifs at hs
        obtain rfl := Option.some.inj hs
        exact hrun
    | sendTextBytes c u =>
        simp only [step] at hs
        split_ifs at hs
        obtain rfl := Option.some.inj hs
        exact hrun
    | read c n =>
        simp only [step] at hs
        split_ifs at hs
        obtain rfl := Option.some.inj hs
        exact hrun
    | readEof c =>
        obtain ⟨_, _, rfl⟩ := step_ends (Or.inl rfl) hs
        exact hrun
    | connectionLost c =>
        obtain ⟨_, _, rfl⟩ := step_ends (Or.inr rfl) hs
        exact hrun
  exact (hst.invariant (P := fun v => Consistent host port listenfd v ∧
    Transition.Reaches Loop.step Loop.EpollContract s.worker v.worker)
    ⟨consistent hr, Transition.Reaches.refl⟩ hstep).2

/-- The log grows at its end. -/
theorem log_mono (hr : Reachable Contract host port listenfd s)
    (hst : Transition.Reaches (step host port) Contract s t) (c : ℕ) : s.log c <+: t.log c := by
  have hwf := Loop.reachable_wellFormed Loop.promises_epollContract (consistent hr).worker
  obtain ⟨δ, hδ⟩ := Loop.trace_prefix Loop.promises_epollContract hwf (reaches_worker hr hst)
  rw [log, log, ← hδ]
  exact (logSince_mono c s.worker.worker.trace δ).map Frame.payload

/-- Who has said what. -/
theorem said_step {a : Action} (hc : Consistent host port listenfd s)
    (hs : s.step host port a = some t) :
    t.said = s.said ∨ ∃ d u, a = .sendTextBytes d u ∧ t.client = s.client ∧
      t.said = Function.update s.said d (s.said d ++ [u]) := by
  cases a with
  | worker i =>
      have hwf := Loop.reachable_wellFormed Loop.promises_epollContract hc.worker
      exact Or.inl (workerStep_moves hwf hs).said
  | handshake d nonce =>
      simp only [step] at hs
      split_ifs at hs
      obtain rfl := Option.some.inj hs
      exact Or.inl rfl
  | sendTextBytes d u =>
      simp only [step] at hs
      split_ifs at hs
      obtain rfl := Option.some.inj hs
      exact Or.inr ⟨d, u, rfl, rfl, rfl⟩
  | read d n =>
      simp only [step] at hs
      split_ifs at hs
      obtain rfl := Option.some.inj hs
      exact Or.inl rfl
  | readEof d =>
      obtain ⟨_, _, rfl⟩ := step_ends (Or.inl rfl) hs
      exact Or.inl rfl
  | connectionLost d =>
      obtain ⟨_, _, rfl⟩ := step_ends (Or.inr rfl) hs
      exact Or.inl rfl

/-- In such a run nobody has said anything. -/
theorem said_of_hushed (hr : Reachable Hushed host port listenfd s) (d : ℕ) : s.said d = [] := by
  have hstep : ∀ v a w, (Consistent host port listenfd v ∧ v.said d = []) → v.Hushed a →
      v.step host port a = some w → Consistent host port listenfd w ∧ w.said d = [] := by
    rintro v a w ⟨hc, hsaid⟩ ⟨hok, hquiet⟩ hs
    refine ⟨hc.step hok.1 hs, ?_⟩
    rcases said_step hc hs with hsame | ⟨d', u, rfl, _, _⟩
    · rw [hsame, hsaid]
    · cases hquiet
  exact (hr.invariant (P := fun v => Consistent host port listenfd v ∧ v.said d = [])
    ⟨consistent Transition.Reaches.refl, rfl⟩ hstep).2

/-- **What the frame loop finds**: part of a frame, or a whole frame the client has sent. -/
theorem Consistent.next_frame (hhost : IsHost host) (hc : Consistent host port listenfd s)
    (hfd : s.worker.worker.websocketHandlerMap fd = some h) (hs : h.status = .handsharked) :
    frameSpec h.readBuf = .more ∨
      ∃ u ∈ s.said h.conn, ∃ rest, h.readBuf = u.frame.encode ++ rest := by
  obtain ⟨m, os, hup, ⟨b, hm'⟩, _⟩ := (Loop.kept hc.worker hfd).account.handsharked hs
  have hm : Obs.upgraded h.conn m b ∈ s.history h.conn := hm'
  obtain ⟨us, vs, hsplit, _, hfront⟩ := hup.inbound.of_prefix (next_of_mem (hc.short_frames h.conn))
    (hc.inbound_prefix hhost hm)
  cases vs with
  | nil =>
      have hempty : h.readBuf = [] := List.prefix_nil.1 hfront
      rw [hempty]
      exact Or.inl rfl
  | cons f vs =>
      have hmem : f ∈ (s.said h.conn).map Utterance.frame := by
        rw [hsplit]
        exact List.mem_append_right _ List.mem_cons_self
      obtain ⟨u, hu, rfl⟩ := List.mem_map.1 hmem
      rw [List.flatMap_cons] at hfront
      by_cases hwhole : u.frame.encode <+: h.readBuf
      · obtain ⟨rest, hrest⟩ := hwhole
        exact Or.inr ⟨u, hu, rest, hrest.symm⟩
      · have hpart : h.readBuf <+: u.frame.encode :=
          (List.prefix_or_prefix_of_prefix hfront (List.prefix_append _ _)).resolve_right hwhole
        exact Or.inl (more_of_part (hc.short_frames h.conn _ hmem) hpart
          fun he => hwhole (by rw [he]))

end Runs

/-! ### Open connections -/

/-- The same connections are open. -/
structure Kept (M₀ M : Fd → Option WebsocketHandler) : Prop where
  stays : ∀ fd h₀, M₀ fd = some h₀ → h₀.status = .handsharked →
    ∃ h, M fd = some h ∧ h.status = .handsharked ∧ h.conn = h₀.conn
  known : ∀ fd h, M fd = some h → h.status = .handsharked →
    ∃ h₀, M₀ fd = some h₀ ∧ h₀.status = .handsharked ∧ h.conn = h₀.conn

namespace Kept

variable {M₀ M M' : Fd → Option WebsocketHandler} {fd : Fd} {h h' : WebsocketHandler}

theorem refl (M : Fd → Option WebsocketHandler) : Kept M M :=
  ⟨fun _ h hfd hs => ⟨h, hfd, hs, rfl⟩, fun _ h hfd hs => ⟨h, hfd, hs, rfl⟩⟩

theorem trans (hk : Kept M₀ M) (hk' : Kept M M') : Kept M₀ M' := by
  refine ⟨fun fd h₀ hfd hs => ?_, fun fd h hfd hs => ?_⟩
  · obtain ⟨h₁, hfd₁, hs₁, hc₁⟩ := hk.stays fd h₀ hfd hs
    obtain ⟨h₂, hfd₂, hs₂, hc₂⟩ := hk'.stays fd h₁ hfd₁ hs₁
    exact ⟨h₂, hfd₂, hs₂, hc₂.trans hc₁⟩
  · obtain ⟨h₁, hfd₁, hs₁, hc₁⟩ := hk'.known fd h hfd hs
    obtain ⟨h₂, hfd₂, hs₂, hc₂⟩ := hk.known fd h₁ hfd₁ hs₁
    exact ⟨h₂, hfd₂, hs₂, hc₁.trans hc₂⟩

/-- An open connection goes on. -/
theorem update (hfd : M fd = some h) (hs : h.status = .handsharked) (hconn : h'.conn = h.conn)
    (hs' : h'.status = .handsharked) : Kept M (Function.update M fd (some h')) := by
  refine ⟨fun fd' g hg hst => ?_, fun fd' g hg hst => ?_⟩
  · by_cases he : fd' = fd
    · subst he
      rw [hfd, Option.some.injEq] at hg
      exact ⟨h', Function.update_self _ _ _, hs', by rw [hconn, hg]⟩
    · exact ⟨g, by rw [Function.update_of_ne he, hg], hst, rfl⟩
  · by_cases he : fd' = fd
    · subst he
      rw [Function.update_self, Option.some.injEq] at hg
      exact ⟨h, hfd, hs, by rw [← hg, hconn]⟩
    · rw [Function.update_of_ne he] at hg
      exact ⟨g, hg, hst, rfl⟩

/-- A frame is handled and passed on. -/
theorem of_handles {w w' : NetworkInterface} {f : Frame} (hh : w.Handles fd h f h' w')
    (hfd : w.websocketHandlerMap fd = some h) (hs : h.status = .handsharked)
    (hconn : h'.conn = h.conn) (hs' : h'.status = .handsharked) :
    Kept w.websocketHandlerMap w'.websocketHandlerMap := by
  -- the others are offered something, or not touched at all
  have hother {fd' : Fd} (he : fd' ≠ fd) : w'.websocketHandlerMap fd' = w.websocketHandlerMap fd' ∨
      w'.websocketHandlerMap fd' = (w.websocketHandlerMap fd').map (·.offerOption (relay f)) := by
    rw [hh.map fd', if_neg he]
    by_cases hmem : fd' ∈ w.wsClients
    · exact Or.inr (if_pos hmem)
    · exact Or.inl (if_neg hmem)
  have hself : w'.websocketHandlerMap fd = some h' := by rw [hh.map fd, if_pos rfl]
  refine ⟨fun fd' g hg hst => ?_, fun fd' g hg hst => ?_⟩
  · by_cases he : fd' = fd
    · subst he
      rw [hfd, Option.some.injEq] at hg
      exact ⟨h', hself, hs', by rw [hconn, hg]⟩
    · rcases hother he with hsame | hoffer
      · exact ⟨g, by rw [hsame, hg], hst, rfl⟩
      · exact ⟨g.offerOption (relay f), by rw [hoffer, hg]; rfl, by simpa using hst, by simp⟩
  · by_cases he : fd' = fd
    · subst he
      rw [hself, Option.some.injEq] at hg
      exact ⟨h, hfd, hs, by rw [← hg, hconn]⟩
    · rcases hother he with hsame | hoffer
      · rw [hsame] at hg
        exact ⟨g, hg, hst, rfl⟩
      · rw [hoffer, Option.map_eq_some_iff] at hg
        obtain ⟨g₀, hg₀, rfl⟩ := hg
        exact ⟨g₀, hg₀, by simpa using hst, by simp⟩

end Kept

/-- A run from `s₀` to `s` in which nobody says anything and no connection is closed.  Control is at
`pc`, the handlers are `M`, and `U` is on the way to the worker. -/
structure Tends (host : Bytes) (port : ℕ) (listenfd : Fd) (s₀ s : System) (pc : Pc)
    (M : Fd → Option WebsocketHandler) (U : ℕ → Bytes) : Prop where
  start : Reachable Punctual host port listenfd s₀
  run : Transition.Reaches (step host port) Punctual s₀ s
  said : s.said = s₀.said
  pc : s.worker.pc = pc
  map : s.worker.worker.websocketHandlerMap = M
  pending : s.worker.worker.pendingCloses = []
  up : s.up = U
  kept : Kept s₀.worker.worker.websocketHandlerMap M

namespace Tends

variable {host : Bytes} {port : ℕ} {listenfd : Fd} {s₀ s : System} {fd : Fd} {c : ℕ} {pc : Pc}
  {M : Fd → Option WebsocketHandler} {U : ℕ → Bytes} {h h₀ : WebsocketHandler} {u : Bytes}
  {es : List EpollEvent}

theorem reachable (ht : Tends host port listenfd s₀ s pc M U) :
    Reachable Punctual host port listenfd s :=
  ht.start.trans ht.run

theorem consistent (ht : Tends host port listenfd s₀ s pc M U) : Consistent host port listenfd s :=
  System.consistent (ht.reachable.mono fun _ _ hok => hok.1)

theorem wellFormed (ht : Tends host port listenfd s₀ s pc M U) : s.worker.WellFormed True :=
  Loop.reachable_wellFormed Loop.promises_epollContract ht.consistent.worker

theorem handler (ht : Tends host port listenfd s₀ s pc M U) (hfd : M fd = some h) :
    s.worker.worker.websocketHandlerMap fd = some h := by
  rw [ht.map]
  exact hfd

theorem not_listen (ht : Tends host port listenfd s₀ s pc M U) (hfd : M fd = some h)
    (hs : h.status = .handsharked) : fd ≠ s.worker.worker.listenfd := by
  rintro rfl
  obtain ⟨h', hh', hs'⟩ := ht.wellFormed.worker.listener
  rw [ht.handler hfd, Option.some.injEq] at hh'
  rw [← hh', hs] at hs'
  cases hs'

/-! ### Steps -/

/-- A step of the worker that moves no bytes. -/
theorem worker {i : Input} {w : Loop} {pc' : Pc} {M' : Fd → Option WebsocketHandler}
    (ht : Tends host port listenfd s₀ s pc M U) (hi : i.isTransfer = false)
    (hok : Loop.EpollContract s.worker i) (hw : s.worker.step i = some w) (hpc : w.pc = pc')
    (hmap : w.worker.websocketHandlerMap = M') (hpending : w.worker.pendingCloses = [])
    (hkept : Kept M M') : ∃ t, Tends host port listenfd s₀ t pc' M' U := by
  have hstep : s.workerStep i = some { s with worker := w } := by
    cases i with
    | read data => cases hi
    | send n => cases hi
    | _ => exact congrArg (Option.map _) hw
  exact ⟨{ s with worker := w }, ht.start, ht.run.tail (.worker i) ⟨hok, trivial⟩ hstep, ht.said,
    hpc, hmap, hpending, ht.up, ht.kept.trans hkept⟩

/-- A connection is reported readable, or writable when something is waiting to be sent. -/
theorem wait {events : UInt32} (ht : Tends host port listenfd s₀ s .waiting M U)
    (hfd : M fd = some h) (hs : h.status = .handsharked)
    (he : events = epollIn ∨ events = epollOut ∧ h.writeBuf ≠ []) :
    ∃ t, Tends host port listenfd s₀ t (.batch [⟨fd, events⟩]) M U := by
  have hcoh : s.worker.worker.Coherent fun _ => False := by
    refine Loop.Coherent.all (Loop.coherent Loop.promises_epollContract ht.consistent.worker)
      fun fd => ?_
    rw [ht.pc]
    simp [Pc.phase]
  obtain ⟨mask, hmask, hm⟩ := hcoh fd h (ht.handler hfd) (ht.not_listen hfd hs)
  have hevents : events &&& ~~~(mask ||| epollErr ||| epollHup) = 0 := by
    rw [hm id, WebsocketHandler.eventMask, WebsocketHandler.writePending]
    rcases he with rfl | ⟨rfl, hne⟩
    · split_ifs <;> decide
    · rw [if_pos (decide_eq_true hne)]
      decide
  have hok : Loop.EpollContract s.worker (.epollWait [⟨fd, events⟩]) :=
    ⟨List.nodup_singleton _, List.forall_mem_singleton.2 ⟨mask, hmask, hevents⟩⟩
  have hstep := Loop.step_of_branch (Loop.Branch.epollWait [⟨fd, events⟩] ht.pc)
  exact ht.worker rfl hok hstep rfl ht.map ht.pending (Kept.refl M)

/-- It is dispatched. -/
theorem dispatch_in (ht : Tends host port listenfd s₀ s (.batch [⟨fd, epollIn⟩]) M U)
    (hfd : M fd = some h) (hs : h.status = .handsharked) :
    ∃ t, Tends host port listenfd s₀ t (.reading fd []) M U :=
  ht.worker (i := .tau) rfl trivial (Loop.step_readable ht.pc (ht.not_listen hfd hs)
    (ht.handler hfd)) rfl
    ht.map ht.pending (Kept.refl M)

theorem dispatch_out (ht : Tends host port listenfd s₀ s (.batch [⟨fd, epollOut⟩]) M U)
    (hfd : M fd = some h) (hs : h.status = .handsharked) :
    ∃ t, Tends host port listenfd s₀ t (.flushing fd []) M U := by
  have hdisp : Loop.dispatch s.worker.worker ⟨fd, epollOut⟩ [] =
      ⟨s.worker.worker, .flushing fd []⟩ := by
    have herr : epollOut &&& (epollErr ||| epollHup) = 0 := by decide
    have hin : epollOut &&& epollIn = 0 := by decide
    have hout : epollOut &&& epollOut ≠ 0 := by decide
    simp only [Loop.dispatch, if_neg (ht.not_listen hfd hs), herr, hin, ne_eq, not_true_eq_false,
      if_false, if_pos hout, ht.handler hfd]
  have hstep := Loop.step_of_branch (Loop.Branch.dispatch ⟨fd, epollOut⟩ [] ht.pc)
  rw [hdisp] at hstep
  exact ht.worker (i := .tau) rfl trivial hstep rfl ht.map ht.pending (Kept.refl M)

/-- One byte is read. -/
theorem read {x : UInt8} (ht : Tends host port listenfd s₀ s (.reading fd es) M U)
    (hfd : M fd = some h) (hs : h.status = .handsharked) (hu : U h.conn = x :: u)
    (hroom : h.readBuf.length < wsMaxReadBuffer) : ∃ t, Tends host port listenfd s₀ t
      (.reading fd es) (Function.update M fd (some { h with readBuf := h.readBuf ++ [x] }))
      (Function.update U h.conn u) := by
  have hw := Loop.step_of_branch (Loop.Branch.received fd es h [x] ht.pc (ht.handler hfd) (by simp)
    (by simp [readChunk]) (by simpa using Nat.succ_le_of_lt hroom))
  have hcur : s.worker.current = some h := by
    rw [Loop.current, ht.pc]
    exact ht.handler hfd
  have hpre : [x] <+: s.up h.conn := by
    rw [ht.up, hu]
    exact ⟨u, rfl⟩
  have hstep : s.workerStep (.read [x]) = some { s with
      worker := ⟨(s.worker.worker.setHandler fd { h with readBuf := h.readBuf ++ [x] }).emit
        (.received h.conn [x]), .reading fd es⟩
      up := Function.update s.up h.conn ((s.up h.conn).drop [x].length) } := by
    simp only [workerStep, hcur, if_pos hpre, hw, Option.map_some]
  refine ⟨_, ht.start, ht.run.tail (.worker (.read [x])) ⟨trivial, trivial⟩ hstep, ht.said, rfl, ?_,
    ht.pending, ?_, ht.kept.trans (Kept.update hfd hs rfl hs)⟩
  · rw [NetworkInterface.emit_map, NetworkInterface.setHandler_map, ht.map]
  · dsimp only
    rw [ht.up, hu]
    rfl

/-- The frame loop is entered. -/
theorem again (ht : Tends host port listenfd s₀ s (.reading fd es) M U) (hfd : M fd = some h)
    (hs : h.status = .handsharked) : ∃ t, Tends host port listenfd s₀ t (.frames fd es) M U := by
  have hstep := Loop.step_of_branch (Loop.Branch.readAgain fd es ht.pc)
  rw [NetworkInterface.driveIoUpgrade_handsharked (ht.handler hfd) hs] at hstep
  exact ht.worker (i := .readAgain) rfl trivial hstep rfl ht.map ht.pending (Kept.refl M)

/-- A text frame is handled when its echo fits everywhere. -/
theorem text {f : Frame} {rest : Bytes} (ht : Tends host port listenfd s₀ s (.frames fd es) M U)
    (hfd : M fd = some h) (hs : h.status = .handsharked)
    (hspec : frameSpec h.readBuf = .item f rest) (htext : f.opcode = websocketTextData)
    (hroom : ∀ fd' g, M fd' = some g → g.status = .handsharked →
      g.accepts (textFrame f.payload) = true) :
    ∃ t M' h', Tends host port listenfd s₀ t (.frames fd es) M' U ∧ M' fd = some h' ∧
      h'.status = .handsharked ∧ h'.readBuf = rest := by
  obtain ⟨w, hw⟩ := Loop.frames_turn ht.wellFormed ht.pc (ht.handler hfd) hspec
  obtain ⟨request, hh⟩ := hw.handles
  have hreply : reply f = some (textFrame f.payload) := if_pos htext
  have hrelay : relay f = some (textFrame f.payload) := if_pos htext
  have hpending : w.worker.pendingCloses = [] := by
    rw [List.eq_nil_iff_forall_not_mem]
    intro fd' hp
    rcases (hh.pending fd').1 hp with hp | ⟨_, _, hclose | ⟨data, hdata, hno⟩⟩ |
      ⟨hmem, _, _, g, data, hg, hdata, hno⟩
    · rw [ht.pending] at hp
      cases hp
    · rw [htext] at hclose
      exact absurd hclose (by decide)
    · rw [hreply, Option.mem_some] at hdata
      rw [← hdata, hroom fd h hfd hs] at hno
      cases hno
    · rw [hrelay, Option.mem_some] at hdata
      obtain ⟨g', hg', hst⟩ := (ht.wellFormed.worker.mem_wsClients fd').1 hmem
      rw [hg, Option.some.injEq] at hg'
      rw [ht.map] at hg
      rw [← hdata, hroom fd' g hg (by rw [hg', hst])] at hno
      cases hno
  have hkept := Kept.of_handles hh (ht.handler hfd) hs (WebsocketHandler.offerOption_conn _ _)
    (by simpa using hs)
  rw [ht.map] at hkept
  obtain ⟨t, ht'⟩ := ht.worker (i := .tau) rfl trivial hw.step hw.pc rfl hpending hkept
  have hmap := hh.map fd
  rw [if_pos rfl] at hmap
  exact ⟨t, _, _, ht', hmap, by simpa using hs, rfl⟩

/-- No frame is complete. -/
theorem more (ht : Tends host port listenfd s₀ s (.frames fd es) M U) (hfd : M fd = some h)
    (hs : h.status = .handsharked) (hspec : frameSpec h.readBuf = .more) :
    ∃ t M', Tends host port listenfd s₀ t (.batch es) M' U := by
  have hstep := Loop.step_of_branch (Loop.Branch.frames fd es ht.pc)
  obtain ⟨request, hdrive⟩ := NetworkInterface.driveIoFrame_more (ht.handler hfd) hs hspec
  rw [hdrive] at hstep
  have hmap : (s.worker.worker.setHandler fd { h with request := request }).websocketHandlerMap =
      Function.update M fd (some { h with request := request }) := by
    rw [NetworkInterface.setHandler_map, ht.map]
  obtain ⟨t, ht'⟩ := ht.worker (i := .tau) rfl trivial hstep rfl hmap ht.pending
    (Kept.update hfd hs rfl hs)
  exact ⟨t, _, ht'⟩

/-- The batch is over, and nothing is closed. -/
theorem close (ht : Tends host port listenfd s₀ s (.batch []) M U) :
    ∃ t, Tends host port listenfd s₀ t .waiting M U := by
  have hstep := Loop.step_of_branch (Loop.Branch.close ht.pc)
  have hsame : s.worker.worker.processCloseQueue = s.worker.worker := if_pos ht.pending
  rw [hsame] at hstep
  exact ht.worker (i := .tau) rfl trivial hstep rfl ht.map ht.pending (Kept.refl M)

/-- `send` accepts all there is. -/
theorem send (ht : Tends host port listenfd s₀ s (.flushing fd es) M U) (hfd : M fd = some h)
    (hs : h.status = .handsharked) (hne : h.writeBuf ≠ []) : ∃ t, Tends host port listenfd s₀ t
      (.flushing fd es) (Function.update M fd (some { h with writeBuf := [] })) U := by
  have hw := Loop.step_of_branch (Loop.Branch.sent fd es h h.writeBuf.length ht.pc (ht.handler hfd)
    (List.length_pos_of_ne_nil hne).ne' (Nat.le_refl _))
  rw [List.drop_length, List.take_length] at hw
  have hcur : s.worker.current = some h := by
    rw [Loop.current, ht.pc]
    exact ht.handler hfd
  have hstep : s.workerStep (.send h.writeBuf.length) = some { s with
      worker := ⟨(s.worker.worker.setHandler fd { h with writeBuf := [] }).emit
        (.sent h.conn h.writeBuf), .flushing fd es⟩
      down := Function.update s.down h.conn (s.down h.conn ++ h.writeBuf) } := by
    simp only [workerStep, hcur, hw, Option.map_some, List.take_length]
  refine ⟨_, ht.start, ht.run.tail (.worker (.send h.writeBuf.length)) ⟨trivial, trivial⟩ hstep,
    ht.said, rfl, ?_, ht.pending, ht.up, ht.kept.trans (Kept.update hfd hs rfl hs)⟩
  rw [NetworkInterface.emit_map, NetworkInterface.setHandler_map, ht.map]

/-- Nothing is left to send. -/
theorem sent (ht : Tends host port listenfd s₀ s (.flushing fd es) M U) (hfd : M fd = some h)
    (hempty : h.writeBuf = []) : ∃ t, Tends host port listenfd s₀ t (.batch es) M U := by
  have hno : s.worker.worker.writePendingAt fd = false := by
    rw [NetworkInterface.writePendingAt, ht.handler hfd]
    exact decide_eq_false (not_not.2 hempty)
  have hstep := Loop.step_of_branch (Loop.Branch.flushed fd es ht.pc hno)
  exact ht.worker (i := .tau) rfl trivial hstep rfl (by simpa using ht.map)
    (by simpa using ht.pending)
    (Kept.refl M)

/-! ### Rounds -/

/-- **What the frame loop finds.** -/
theorem next_frame (hhost : IsHost host) (ht : Tends host port listenfd s₀ s pc M U)
    (hfd : M fd = some h) (hs : h.status = .handsharked) : frameSpec h.readBuf = .more ∨
      ∃ v ∈ s.said h.conn, ∃ rest, h.readBuf = v.frame.encode ++ rest :=
  ht.consistent.next_frame hhost (ht.handler hfd) hs

/-- Where the worker waits it is part of a frame. -/
theorem more_of_waiting (hhost : IsHost host) (ht : Tends host port listenfd s₀ s .waiting M U)
    (hfd : M fd = some h) (hs : h.status = .handsharked) : frameSpec h.readBuf = .more := by
  have hidle : (s.worker.view fd h).phase = .idle := by simp [Loop.view, ht.pc, Pc.phase]
  have hopen : ¬ Ending (s.worker.view fd h) := by
    intro he
    have hpending := he.pending
    rw [ht.consistent.not_pending ht.pc] at hpending
    cases hpending
  have hstuck := ((settled ht.consistent.worker (ht.handler hfd)).idle hs hidle).resolve_right hopen
  refine (ht.next_frame hhost hfd hs).resolve_right ?_
  rintro ⟨v, hv, rest, hrest⟩
  have hshort : v.frame.payload.length ≤ wsMaxPayloadBytes :=
    ht.consistent.short_frames h.conn _ (List.mem_map_of_mem hv)
  refine hstuck (wireContent v.frame) rest ?_
  change frameSpec h.readBuf = _
  rw [hrest]
  exact frameSpec_encode v.frame hshort rest

/-- **A write buffer is emptied.** -/
theorem flush (ht : Tends host port listenfd s₀ s .waiting M U) (hfd : M fd = some h)
    (hs : h.status = .handsharked) : ∃ t, Tends host port listenfd s₀ t .waiting
      (Function.update M fd (some { h with writeBuf := [] })) U := by
  by_cases hne : h.writeBuf = []
  · have hsame : Function.update M fd (some { h with writeBuf := [] }) = M := by
      rw [← hne, ← hfd]
      exact Function.update_eq_self fd M
    rw [hsame]
    exact ⟨s, ht⟩
  · obtain ⟨s₁, h₁⟩ := ht.wait hfd hs (Or.inr ⟨rfl, hne⟩)
    obtain ⟨s₂, h₂⟩ := h₁.dispatch_out hfd hs
    obtain ⟨s₃, h₃⟩ := h₂.send hfd hs hne
    obtain ⟨s₄, h₄⟩ := h₃.sent (Function.update_self _ _ _) rfl
    exact h₄.close

/-- The write buffers of some connections are emptied. -/
theorem flush_list (l : List Fd) (ht : Tends host port listenfd s₀ s .waiting M U) :
    ∃ t M', Tends host port listenfd s₀ t .waiting M' U ∧
      ∀ fd ∈ l, ∀ h, M' fd = some h → h.status = .handsharked → h.writeBuf = [] := by
  induction l with
  | nil => exact ⟨s, M, ht, fun _ hm => absurd hm List.not_mem_nil⟩
  | cons fd l ih =>
      obtain ⟨s₁, M₁, h₁, hall⟩ := ih
      by_cases hopen : ∃ h, M₁ fd = some h ∧ h.status = .handsharked
      · obtain ⟨h, hfd, hs⟩ := hopen
        obtain ⟨s₂, h₂⟩ := h₁.flush hfd hs
        refine ⟨s₂, _, h₂, fun fd' hm g hg hst => ?_⟩
        by_cases he : fd' = fd
        · subst he
          rw [Function.update_self, Option.some.injEq] at hg
          rw [← hg]
        · rw [Function.update_of_ne he] at hg
          exact hall fd' ((List.mem_cons.1 hm).resolve_left he) g hg hst
      · refine ⟨s₁, M₁, h₁, fun fd' hm g hg hst => ?_⟩
        rcases List.mem_cons.1 hm with rfl | hm
        · exact absurd ⟨g, hg, hst⟩ hopen
        · exact hall fd' hm g hg hst

/-- The open connections are among those of the start. -/
theorem mem_clients (ht : Tends host port listenfd s₀ s pc M U) (hfd : M fd = some h)
    (hs : h.status = .handsharked) : fd ∈ s₀.worker.worker.wsClients := by
  obtain ⟨h₀, hfd₀, hs₀, _⟩ := ht.kept.known fd h hfd hs
  have hwf := Loop.reachable_wellFormed Loop.promises_epollContract
    (System.consistent (ht.start.mono fun _ _ hok => hok.1)).worker
  exact (hwf.worker.mem_wsClients fd).2 ⟨h₀, hfd₀, hs₀⟩

/-- **All write buffers are emptied.** -/
theorem flush_all (ht : Tends host port listenfd s₀ s .waiting M U) :
    ∃ t M', Tends host port listenfd s₀ t .waiting M' U ∧
      ∀ fd h, M' fd = some h → h.status = .handsharked → h.writeBuf = [] := by
  obtain ⟨t, M', ht', hall⟩ := ht.flush_list s₀.worker.worker.wsClients
  exact ⟨t, M', ht', fun fd h hfd hs => hall fd (ht'.mem_clients hfd hs) h hfd hs⟩

/-- **One more byte is served.** -/
theorem round {x : UInt8} (hhost : IsHost host) (ht : Tends host port listenfd s₀ s .waiting M U)
    (hfd : M fd = some h) (hs : h.status = .handsharked) (hu : U h.conn = x :: u)
    (hempty : ∀ fd' g, M fd' = some g → g.status = .handsharked → g.writeBuf = []) :
    ∃ t M', Tends host port listenfd s₀ t .waiting M' (Function.update U h.conn u) := by
  have hmore := ht.more_of_waiting hhost hfd hs
  have hroom : h.readBuf.length < wsMaxReadBuffer :=
    (length_lt_of_frameSpec_more hmore).trans_le (by decide)
  obtain ⟨s₁, h₁⟩ := ht.wait hfd hs (Or.inl rfl)
  obtain ⟨s₂, h₂⟩ := h₁.dispatch_in hfd hs
  obtain ⟨s₃, h₃⟩ := h₂.read hfd hs hu hroom
  let h' : WebsocketHandler := { h with readBuf := h.readBuf ++ [x] }
  have hfd' : Function.update M fd (some h') fd = some h' := Function.update_self _ _ _
  have hs' : h'.status = .handsharked := hs
  obtain ⟨s₄, h₄⟩ := h₃.again hfd' hs'
  rcases h₄.next_frame hhost hfd' hs' with hspec | ⟨v, hv, rest, hrest⟩
  · obtain ⟨s₅, M₅, h₅⟩ := h₄.more hfd' hs' hspec
    obtain ⟨s₆, h₆⟩ := h₅.close
    exact ⟨s₆, M₅, h₆⟩
  · have hshort : v.payload.length ≤ ScriptClient.maxPayload := h₄.consistent.short h'.conn v hv
    have hlimit : v.frame.payload.length ≤ wsMaxPayloadBytes := hshort.trans (by decide)
    -- the byte read is the last one of the frame
    have hlast : rest = [] := by
      by_contra hne
      obtain ⟨rest', y, rfl⟩ := (List.eq_nil_or_concat rest).resolve_left hne
      rw [List.concat_eq_append, ← List.append_assoc] at hrest
      obtain ⟨hbuf, _⟩ := List.append_inj' hrest rfl
      rw [hbuf, frameSpec_encode v.frame hlimit] at hmore
      cases hmore
    have hspec : frameSpec h'.readBuf = .item (wireContent v.frame) [] := by
      rw [hrest, hlast]
      exact frameSpec_encode v.frame hlimit []
    have htext : (wireContent v.frame).opcode = websocketTextData :=
      show UInt8.ofNat opText.val = websocketTextData by decide
    have hfits : ∀ fd' g, Function.update M fd (some h') fd' = some g → g.status = .handsharked →
        g.accepts (textFrame (wireContent v.frame).payload) = true := by
      intro fd' g hg hst
      have hnone : g.writeBuf = [] := by
        by_cases he : fd' = fd
        · subst he
          rw [hfd', Option.some.injEq] at hg
          rw [← hg]
          exact hempty fd' h hfd hs
        · rw [Function.update_of_ne he] at hg
          exact hempty fd' g hg hst
      refine decide_eq_true ?_
      rw [hnone, List.length_nil, Nat.zero_add]
      exact length_textFrame_le hlimit
    obtain ⟨s₅, M₅, h'', h₅, hfd'', hs'', hread⟩ := h₄.text hfd' hs' hspec htext hfits
    obtain ⟨s₆, M₆, h₆⟩ := h₅.more hfd'' hs'' (by rw [hread]; rfl)
    obtain ⟨s₇, h₇⟩ := h₆.close
    exact ⟨s₇, M₆, h₇⟩

/-- All that a client has on the way up is served. -/
theorem drain (hhost : IsHost host) (ht : Tends host port listenfd s₀ s .waiting M U)
    (hfd : s₀.worker.worker.websocketHandlerMap fd = some h₀) (hs : h₀.status = .handsharked) :
    ∃ t M', Tends host port listenfd s₀ t .waiting M' (Function.update U h₀.conn []) := by
  induction hu : U h₀.conn generalizing s M U with
  | nil =>
      have hsame : Function.update U h₀.conn [] = U := by
        rw [← hu]
        exact Function.update_eq_self _ _
      rw [hsame]
      exact ⟨s, M, ht⟩
  | cons x u ih =>
      obtain ⟨s₁, M₁, h₁, hempty⟩ := ht.flush_all
      obtain ⟨h, hfd₁, hs₁, hconn⟩ := h₁.kept.stays fd h₀ hfd hs
      rw [← hconn] at hu
      obtain ⟨s₂, M₂, h₂⟩ := h₁.round hhost hfd₁ hs₁ hu hempty
      rw [hconn] at h₂
      obtain ⟨t, M', ht'⟩ := ih h₂ (Function.update_self _ _ _)
      rw [Function.update_idem] at ht'
      exact ⟨t, M', ht'⟩

/-- **All that is on the way up is served.** -/
theorem drain_all (hhost : IsHost host) (l : List Fd)
    (ht : Tends host port listenfd s₀ s .waiting M U) :
    ∃ t M' U', Tends host port listenfd s₀ t .waiting M' U' ∧ ∀ fd ∈ l, ∀ h₀,
      s₀.worker.worker.websocketHandlerMap fd = some h₀ → h₀.status = .handsharked →
        U' h₀.conn = [] := by
  induction l with
  | nil => exact ⟨s, M, U, ht, fun _ hm => absurd hm List.not_mem_nil⟩
  | cons fd l ih =>
      obtain ⟨s₁, M₁, U₁, h₁, hall⟩ := ih
      by_cases hopen : ∃ h₀, s₀.worker.worker.websocketHandlerMap fd = some h₀ ∧
          h₀.status = .handsharked
      · obtain ⟨h₀, hfd, hs⟩ := hopen
        obtain ⟨s₂, M₂, h₂⟩ := h₁.drain hhost hfd hs
        refine ⟨s₂, M₂, _, h₂, fun fd' hm g hg hst => ?_⟩
        by_cases he : g.conn = h₀.conn
        · rw [he, Function.update_self]
        · rw [Function.update_of_ne he]
          rcases List.mem_cons.1 hm with rfl | hm
          · rw [hfd, Option.some.injEq] at hg
            exact absurd (by rw [hg]) he
          · exact hall fd' hm g hg hst
      · refine ⟨s₁, M₁, U₁, h₁, fun fd' hm g hg hst => ?_⟩
        rcases List.mem_cons.1 hm with rfl | hm
        · exact absurd ⟨g, hg, hst⟩ hopen
        · exact hall fd' hm g hg hst

/-- The clients are where the bytes they have read have brought them. -/
theorem attentive (hhost : IsHost host) (ht : Tends host port listenfd s₀ s pc M U) : s.Attentive :=
  (System.attentive hhost ht.reachable).2

/-- A client whose connection is open has begun. -/
theorem begun (hhost : IsHost host) (ht : Tends host port listenfd s₀ s pc M U)
    (hfd : M fd = some h) (hs : h.status = .handsharked) : (s.client h.conn).pc ≠ .start := by
  obtain ⟨m, os, _, ⟨b, hm'⟩, _⟩ :=
    (Loop.kept ht.consistent.worker (ht.handler hfd)).account.handsharked hs
  have hm : Obs.upgraded h.conn m b ∈ s.history h.conn := hm'
  exact (ht.consistent.greeted hhost hm).begun

/-- **A client whose connection is open reads one byte.** -/
theorem hear (hhost : IsHost host) (ht : Tends host port listenfd s₀ s pc M U) (hfd : M fd = some h)
    (hs : h.status = .handsharked) (hne : s.down h.conn ≠ []) :
    ∃ t, Tends host port listenfd s₀ t pc M U ∧
      t.down = Function.update s.down h.conn ((s.down h.conn).drop 1) := by
  have hopen := ht.consistent.not_closed (ht.handler hfd)
  have hbegun := ht.begun hhost hfd hs
  obtain ⟨nonce, hattends⟩ := ht.attentive hhost h.conn hbegun
  have hclient := hattends.of_open hopen
  have hraised : (s.client h.conn).pc ≠ .raised := by
    obtain ⟨_, hraised, _⟩ := ht.consistent.session hhost (ht.attentive hhost) h.conn
    exact fun he => hopen (hraised he)
  have hasks : 0 < (s.client h.conn).asks := by
    have hasking : (s.client h.conn).Asking := by
      rw [hclient]
      exact ScriptClient.asking_feed (ScriptClient.asking_headers rfl)
    exact hasking hbegun hraised
  have hlen : 0 < (s.down h.conn).length := List.length_pos_of_ne_nil hne
  have hready : 0 < 1 ∧ 1 ≤ (s.client h.conn).asks ∧ 1 ≤ (s.down h.conn).length :=
    ⟨Nat.one_pos, hasks, hlen⟩
  have hsurplus : s.NoSurplus (.read h.conn 1) := by
    cases hpc : (s.client h.conn).pc with
    | headers buf =>
        obtain ⟨x, d, hd⟩ := List.exists_cons_of_ne_nil hne
        simp only [NoSurplus, hpc, hd, List.take_succ_cons, List.take_zero, List.dropLast_concat]
        rw [hclient] at hpc
        exact ScriptClient.not_blank_of_headers rfl hpc
    | start => simp only [NoSurplus, hpc]
    | exact n await buf => simp only [NoSurplus, hpc]
    | raised => simp only [NoSurplus, hpc]
  have hstep : s.step host port (.read h.conn 1) = some { s with
      client := Function.update s.client h.conn
        ((s.client h.conn).resume ((s.down h.conn).take 1))
      down := Function.update s.down h.conn ((s.down h.conn).drop 1)
      heard := Function.update s.heard h.conn (s.heard h.conn ++ (s.down h.conn).take 1) } :=
    if_pos hready
  exact ⟨_, ⟨ht.start, ht.run.tail (.read h.conn 1) ⟨trivial, hsurplus⟩ hstep, ht.said, ht.pc,
    ht.map, ht.pending, ht.up, ht.kept⟩, rfl⟩

/-- Such a client reads all that is on the way down. -/
theorem hear_all (hhost : IsHost host) (ht : Tends host port listenfd s₀ s pc M U)
    (hfd : M fd = some h) (hs : h.status = .handsharked) :
    ∃ t, Tends host port listenfd s₀ t pc M U ∧ t.down = Function.update s.down h.conn [] := by
  induction hd : s.down h.conn generalizing s with
  | nil =>
      refine ⟨s, ht, ?_⟩
      rw [← hd]
      exact (Function.update_eq_self _ _).symm
  | cons x d ih =>
      obtain ⟨s₁, h₁, hdown⟩ := ht.hear hhost hfd hs (by rw [hd]; exact List.cons_ne_nil x d)
      rw [hd, List.drop_one, List.tail_cons] at hdown
      obtain ⟨t, ht', hdown'⟩ := ih h₁ (by rw [hdown, Function.update_self])
      exact ⟨t, ht', by rw [hdown', hdown, Function.update_idem]⟩

/-- **All that is on the way down is heard.** -/
theorem hear_list (hhost : IsHost host) (l : List Fd) (ht : Tends host port listenfd s₀ s pc M U) :
    ∃ t, Tends host port listenfd s₀ t pc M U ∧ ∀ fd ∈ l, ∀ h, M fd = some h →
      h.status = .handsharked → t.down h.conn = [] := by
  induction l with
  | nil => exact ⟨s, ht, fun _ hm => absurd hm List.not_mem_nil⟩
  | cons fd l ih =>
      obtain ⟨s₁, h₁, hall⟩ := ih
      by_cases hopen : ∃ h, M fd = some h ∧ h.status = .handsharked
      · obtain ⟨h, hfd, hs⟩ := hopen
        obtain ⟨s₂, h₂, hdown⟩ := h₁.hear_all hhost hfd hs
        refine ⟨s₂, h₂, fun fd' hm g hg hst => ?_⟩
        rw [hdown]
        by_cases he : g.conn = h.conn
        · rw [he, Function.update_self]
        · rw [Function.update_of_ne he]
          rcases List.mem_cons.1 hm with rfl | hm
          · rw [hfd, Option.some.injEq] at hg
            exact absurd (by rw [hg]) he
          · exact hall fd' hm g hg hst
      · refine ⟨s₁, h₁, fun fd' hm g hg hst => ?_⟩
        rcases List.mem_cons.1 hm with rfl | hm
        · exact absurd ⟨g, hg, hst⟩ hopen
        · exact hall fd' hm g hg hst

end Tends

/-- `t` is reached from `s` by a run in which nobody says anything more, that leaves every open
connection open, and at whose end nothing is left to handle or to hear. -/
structure Delivers (host : Bytes) (port : ℕ) (s t : System) : Prop where
  run : Transition.Reaches (step host port) Punctual s t
  said : t.said = s.said
  stays : ∀ fd h, s.worker.worker.websocketHandlerMap fd = some h → h.status = .handsharked →
    ∃ h', t.worker.worker.websocketHandlerMap fd = some h' ∧ h'.status = .handsharked ∧
      h'.conn = h.conn
  handled : ∀ fd h, s.worker.worker.websocketHandlerMap fd = some h → h.status = .handsharked →
    (handledTexts (t.history h.conn)).map Frame.payload = (s.said h.conn).map Utterance.payload
  heard : ∀ fd h, s.worker.worker.websocketHandlerMap fd = some h → h.status = .handsharked →
    (t.client h.conn).received = t.log h.conn

/-- There is such a run. -/
theorem exists_delivers {host : Bytes} {port : ℕ} {listenfd : Fd} {s : System} (hhost : IsHost host)
    (hr : Reachable Punctual host port listenfd s) (hwait : s.worker.pc = .waiting) :
    ∃ t, Delivers host port s t := by
  have hcontract := (attentive hhost hr).1
  have hwf := Loop.reachable_wellFormed Loop.promises_epollContract hcontract.worker
  have hstart : Tends host port listenfd s s .waiting s.worker.worker.websocketHandlerMap s.up :=
    ⟨hr, Transition.Reaches.refl, rfl, hwait, rfl, hwf.waiting hwait, rfl, Kept.refl _⟩
  obtain ⟨t₁, M₁, U, h₁, hup⟩ := hstart.drain_all hhost s.worker.worker.wsClients
  obtain ⟨t₂, M, h₂, hempty⟩ := h₁.flush_all
  obtain ⟨t, ht, hdown⟩ := h₂.hear_list hhost s.worker.worker.wsClients
  have hmem : ∀ fd h, s.worker.worker.websocketHandlerMap fd = some h → h.status = .handsharked →
      fd ∈ s.worker.worker.wsClients := fun fd h hfd hs => (hwf.worker.mem_wsClients fd).2
        ⟨h, hfd, hs⟩
  refine ⟨t, ht.run, ht.said, fun fd h hfd hs => ?_, fun fd h hfd hs => ?_, fun fd h hfd hs => ?_⟩
  · obtain ⟨h', hfd', hs', hconn⟩ := ht.kept.stays fd h hfd hs
    exact ⟨h', ht.handler hfd', hs', hconn⟩
  · obtain ⟨h', hfd', hs', hconn⟩ := ht.kept.stays fd h hfd hs
    have hquiet : t.up h'.conn = [] := by
      rw [hconn, ht.up]
      exact hup fd (hmem fd h hfd hs) h hfd hs
    have hhandled := ht.consistent.all_handled hhost ht.pc (ht.handler hfd') hs' hquiet
    rwa [hconn, ht.said] at hhandled
  · obtain ⟨h', hfd', hs', hconn⟩ := ht.kept.stays fd h hfd hs
    have hheard := ht.consistent.all_heard hhost (ht.attentive hhost) ht.pc (ht.handler hfd') hs'
      (hempty fd h' hfd' hs') (hdown fd (hmem fd h hfd hs) h' hfd' hs')
    rwa [hconn] at hheard

end System

/-- **Whatever is on the way can still arrive.**  As long as no client reads behind the header
section with it, there is, from every state in which the worker waits, a run in which nobody says
anything more, that leaves every open connection open, and at whose end of every client whose
connection is open all it has said is handled, and it has received the whole log behind its
registration. -/
theorem deliverable {host : Bytes} {port : ℕ} {listenfd : Fd} {s : System} (hhost : IsHost host)
    (hr : System.Reachable System.Punctual host port listenfd s) (hwait : s.worker.pc = .waiting) :
    ∃ t, Transition.Reaches (System.step host port) System.Punctual s t ∧ t.said = s.said ∧
      ∀ fd h, s.worker.worker.websocketHandlerMap fd = some h → h.status = .handsharked →
        (∃ h', t.worker.worker.websocketHandlerMap fd = some h' ∧ h'.status = .handsharked ∧
          h'.conn = h.conn) ∧
        (handledTexts (t.history h.conn)).map Frame.payload =
          (s.said h.conn).map Utterance.payload ∧
        s.log h.conn <+: t.log h.conn ∧ (t.client h.conn).received = t.log h.conn := by
  obtain ⟨t, ht⟩ := System.exists_delivers hhost hr hwait
  refine ⟨t, ht.run, ht.said, fun fd h hfd hs => ⟨ht.stays fd h hfd hs, ht.handled fd h hfd hs, ?_,
    ht.heard fd h hfd hs⟩⟩
  exact System.log_mono (hr.mono fun _ _ hok => hok.1) (ht.run.mono fun _ _ hok => hok.1) h.conn

/-- Two clients are there, both have had their answers, and nobody has said anything. -/
theorem exists_greeted : ∃ s, System.Reachable System.Punctual localhost 9000 3 s ∧
    (∀ d, s.said d = []) ∧ s.worker.pc = .waiting ∧
    (∃ h, s.worker.worker.websocketHandlerMap 5 = some h ∧ h.status = .handsharked ∧ h.conn = 1) ∧
    (∃ h, s.worker.worker.websocketHandlerMap 6 = some h ∧ h.status = .handsharked ∧ h.conn = 2) ∧
    ∀ c, c = 1 ∨ c = 2 → (s.client c).isOpen = true ∧ (s.client c).received = [] ∧
      s.log c = [] := by
  let ready (s : System) (c : ℕ) : Bool :=
    decide ((s.client c).pc = .headers [] ∧ s.heard c = [] ∧ (s.down c).length = 129)
  let isAt (s : System) (fd : Fd) (c : ℕ) : Bool :=
    decide ((s.worker.worker.websocketHandlerMap fd).map (fun h => (h.status, h.conn)) =
      some (.handsharked, c) ∧ (s.client c).isOpen = true ∧ (s.client c).received = [] ∧
        s.log c = [])
  have hrun : (Transition.runOk (System.step localhost 9000) System.Hushed (System.init 3)
      opening).map (fun s => ready s 1 && ready (s.greet 1) 2 &&
        (decide (((s.greet 1).greet 2).worker.pc = .waiting) && (isAt ((s.greet 1).greet 2) 5 1 &&
          isAt ((s.greet 1).greet 2) 6 2))) = some true := by
    decide +kernel
  obtain ⟨s, hs, hfacts⟩ := Option.map_eq_some_iff.1 hrun
  simp only [Bool.and_eq_true] at hfacts
  obtain ⟨⟨h₁, h₂⟩, hwait, hat₁, hat₂⟩ := hfacts
  obtain ⟨hpc₁, hheard₁, hlen₁⟩ := of_decide_eq_true h₁
  obtain ⟨hpc₂, hheard₂, hlen₂⟩ := of_decide_eq_true h₂
  have hr : System.Reachable System.Hushed localhost 9000 3 s := Transition.reaches_of_runOk hs
  have hr₁ := System.reaches_greet isHost_localhost
    (hr.mono fun _ _ hok => hok.1) hpc₁ hheard₁ hlen₁
  have hr₂ := System.reaches_greet isHost_localhost hr₁ hpc₂ hheard₂ hlen₂
  have hsaid (d : ℕ) : ((s.greet 1).greet 2).said d = [] := System.said_of_hushed hr d
  obtain ⟨hmap₁, hclient₁⟩ := of_decide_eq_true hat₁
  obtain ⟨hmap₂, hclient₂⟩ := of_decide_eq_true hat₂
  obtain ⟨g₁, hg₁, hstat₁⟩ := Option.map_eq_some_iff.1 hmap₁
  obtain ⟨g₂, hg₂, hstat₂⟩ := Option.map_eq_some_iff.1 hmap₂
  refine ⟨(s.greet 1).greet 2, hr₂, hsaid, of_decide_eq_true hwait,
    ⟨g₁, hg₁, (Prod.mk.inj hstat₁).1, (Prod.mk.inj hstat₁).2⟩,
    ⟨g₂, hg₂, (Prod.mk.inj hstat₂).1, (Prod.mk.inj hstat₂).2⟩, ?_⟩
  rintro c (rfl | rfl)
  · exact hclient₁
  · exact hclient₂

/-- What the first client says first. -/
def hi : Utterance := ⟨sampleKey, ascii "hi"⟩

/-- It says "hi". -/
theorem reaches_say_hi {s : System} (hopen : (s.client 1).isOpen = true) :
    Transition.Reaches (System.step localhost 9000) System.Punctual s (s.say 1 hi) := by
  have hshort : hi.payload.length ≤ ScriptClient.maxPayload := by decide
  exact Transition.Reaches.refl.tail (.sendTextBytes 1 hi) ⟨hshort, trivial⟩ (System.step_say hopen)

/-- "hi" can still be handled and heard. -/
theorem deliverable_hi : ∃ s t, System.Reachable System.Punctual localhost 9000 3 s ∧
    (s.client 1).received = [] ∧
    Transition.Reaches (System.step localhost 9000) System.Punctual s t ∧
    (handledTexts (t.history 1)).map Frame.payload = [ascii "hi"] ∧
    (t.client 2).received = t.log 2 := by
  obtain ⟨s, hr, hsaid, hwait, ⟨h₁, hfd₁, hs₁, hconn₁⟩, ⟨h₂, hfd₂, hs₂, hconn₂⟩, hclients⟩ :=
    exists_greeted
  obtain ⟨hopen, hreceived, _⟩ := hclients 1 (Or.inl rfl)
  have hr' := hr.trans (reaches_say_hi hopen)
  obtain ⟨t, hst, _, hall⟩ := deliverable isHost_localhost hr' hwait
  have htexts := (hall 5 h₁ hfd₁ hs₁).2.1
  have hheard := (hall 6 h₂ hfd₂ hs₂).2.2.2
  rw [hconn₁, System.said_say, hsaid] at htexts
  rw [hconn₂] at hheard
  exact ⟨s.say 1 hi, t, hr', hreceived, hst, htexts, hheard⟩

end WebSocketDemo
