/-
**Clients that do not speak are not noticed.**

A text frame of one client is what the others are sent.  Nothing else a client does reaches them:
the run from which a connection that handles no text frame is erased, with everything the
environment answers about it, is a run in which every other connection is at every point in the
state it was in.

The connection shares with the others the client set a broadcast iterates, the list of descriptors
it refreshes, the close queue and the handler map, and it may overflow or be closed in the middle of
what another one does.  The comparison goes over all of a worker at once (`NetworkInterface.erase`):
each step of the run either is control's at the erased connection, and leaves no trace in what is
kept, or is a step of what is kept.

Main definitions:

* `Loop.erase`, `eraseInput`, `eraseInputs` — the run without a connection;
* `NetworkInterface.Unaffected` — the others are as they were.

Main results:

* `Loop.step_eraseInput` — **one step**;
* `silent_client_unnoticed` — **every run**.
-/

import WebSocketDemo.Erasure

set_option relaxedAutoImplicit false
set_option autoImplicit false

namespace WebSocketDemo

open PrefixDecoder Rfc6455

/-! ### A run without a connection -/

/-- Whether a descriptor is on the connection `c`. -/
def NetworkInterface.isConn (c : ℕ) (w : NetworkInterface) (fd : Fd) : Bool :=
  decide (w.connAt fd = some c)

namespace Pc

/-- Whether control is at a descriptor that `p` marks, or about to dispatch an event for it. -/
def isAt (p : Fd → Bool) : Pc → Bool
  | batch (ev :: _) => p ev.fd
  | reading fd _ => p fd
  | frames fd _ => p fd
  | flushing fd _ => p fd
  | _ => false

/-- The events of a batch that are not for a descriptor `p` marks. -/
def eraseEvents (p : Fd → Bool) (es : List EpollEvent) : List EpollEvent :=
  es.filter fun ev => !p ev.fd

/-- Where control is when the marked descriptors are left out. -/
def erase (p : Fd → Bool) : Pc → Pc
  | waiting => waiting
  | batch es => batch (eraseEvents p es)
  | accepting es => accepting (eraseEvents p es)
  | reading fd es => if p fd then batch (eraseEvents p es) else reading fd (eraseEvents p es)
  | frames fd es => if p fd then batch (eraseEvents p es) else frames fd (eraseEvents p es)
  | flushing fd es => if p fd then batch (eraseEvents p es) else flushing fd (eraseEvents p es)

end Pc

namespace Loop

/-- The loop without the connection `c`, whose descriptor `p` marks. -/
def eraseAt (p : Fd → Bool) (c : ℕ) (s : Loop) : Loop := ⟨s.worker.erase p c, s.pc.erase p⟩

/-- The loop without the connection `c`. -/
def erase (c : ℕ) (s : Loop) : Loop := s.eraseAt (s.worker.isConn c) c

end Loop

/-- What the environment answers when the connection `c` is left out: `c` is not accepted, no event
is reported for it, and while control is at it nothing is asked. -/
def eraseInput (c : ℕ) (s : Loop) : Input → Option Input
  | .rehash order => some (.rehash (order.filter fun fd => !s.worker.isConn c fd))
  | .epollWait es => some (.epollWait (Pc.eraseEvents (s.worker.isConn c) es))
  | .accept fd => if s.worker.nextConn = c then none else some (.accept fd)
  | i => if s.pc.isAt (s.worker.isConn c) then none else some i

/-- The answers of a run from `s` without those about the connection `c`. -/
def eraseInputs (c : ℕ) (s : Loop) (is : List Input) : List Input :=
  Transition.transport Loop.step (eraseInput c) s is

/-! ### One step -/

namespace Loop

variable {p : Fd → Bool} {c : ℕ} {s s' : Loop} {w : NetworkInterface} {fd : Fd}
  {es : List EpollEvent} {i : Input}

section Dispatch

variable {ev : EpollEvent}

theorem eraseEvents_cons (hp : p ev.fd = false) :
    Pc.eraseEvents p (ev :: es) = ev :: Pc.eraseEvents p es :=
  List.filter_cons_of_pos (by simp [hp])

theorem eraseEvents_cons_self (hp : p ev.fd = true) :
    Pc.eraseEvents p (ev :: es) = Pc.eraseEvents p es :=
  List.filter_cons_of_neg (by simp [hp])

/-- An event of another connection. -/
theorem eraseAt_dispatch (hf : w.Fits p c) (hp : p ev.fd = false) :
    (dispatch w ev es).eraseAt p c = dispatch (w.erase p c) ev (Pc.eraseEvents p es) := by
  unfold dispatch
  rw [NetworkInterface.erase_map hp, show (w.erase p c).listenfd = w.listenfd from rfl]
  split_ifs
  · rfl
  · rw [← NetworkInterface.erase_queueClose hp]
    rfl
  · cases hfd : w.websocketHandlerMap ev.fd with
    | none => rfl
    | some h =>
        have hemit : (w.emit (.readable h.conn)).erase p c =
            (w.erase p c).emit (.readable (squeeze c h.conn)) :=
          NetworkInterface.erase_emit (.readable h.conn) (hf.conn_ne hfd hp)
        simp [eraseAt, Pc.erase, hp, hemit, WebsocketHandler.renumber]
  · cases hfd : w.websocketHandlerMap ev.fd with
    | none => rfl
    | some h => simp [eraseAt, Pc.erase, hp]
  · rfl

/-- An event of the connection that is left out. -/
theorem eraseAt_dispatch_self (hf : w.Fits p c) (hp : p ev.fd = true)
    (hlisten : p w.listenfd = false) :
    (dispatch w ev es).eraseAt p c = ⟨w.erase p c, .batch (Pc.eraseEvents p es)⟩ := by
  have hne : ev.fd ≠ w.listenfd := by
    intro he
    rw [he, hlisten] at hp
    cases hp
  unfold dispatch
  rw [if_neg hne]
  split_ifs
  · rw [← NetworkInterface.erase_queueClose_self (w := w) (c := c) hp]
    rfl
  · cases hfd : w.websocketHandlerMap ev.fd with
    | none => rfl
    | some h =>
        have hemit : (w.emit (.readable h.conn)).erase p c = w.erase p c :=
          NetworkInterface.erase_emit_self (.readable h.conn) ((hf.conn ev.fd h hfd).1 hp)
        simp [eraseAt, Pc.erase, hp, hemit]
  · cases hfd : w.websocketHandlerMap ev.fd with
    | none => rfl
    | some h => simp [eraseAt, Pc.erase, hp]
  · rfl

end Dispatch

/-- Where `drive_io` goes on for another connection. -/
theorem eraseAt_afterUpgrade (hp : p fd = false) (out : NetworkInterface × Bool) :
    (afterUpgrade fd es out).eraseAt p c =
      afterUpgrade fd (Pc.eraseEvents p es) (out.1.erase p c, out.2) := by
  obtain ⟨w, goesOn⟩ := out
  cases goesOn with
  | true => simp [afterUpgrade, eraseAt, Pc.erase, hp]
  | false => rfl

/-- Where `drive_io` goes on for the connection that is left out. -/
theorem eraseAt_afterUpgrade_self (hp : p fd = true) (out : NetworkInterface × Bool) :
    (afterUpgrade fd es out).eraseAt p c = ⟨out.1.erase p c, .batch (Pc.eraseEvents p es)⟩ := by
  obtain ⟨w, goesOn⟩ := out
  cases goesOn with
  | true => simp [afterUpgrade, eraseAt, Pc.erase, hp]
  | false => rfl

theorem erase_reading (hp : p fd = false) :
    Pc.erase p (.reading fd es) = .reading fd (Pc.eraseEvents p es) :=
  if_neg (by simp [hp])

theorem erase_reading_self (hp : p fd = true) :
    Pc.erase p (.reading fd es) = .batch (Pc.eraseEvents p es) := if_pos hp

theorem erase_frames (hp : p fd = false) :
    Pc.erase p (.frames fd es) = .frames fd (Pc.eraseEvents p es) :=
  if_neg (by simp [hp])

theorem erase_frames_self (hp : p fd = true) :
    Pc.erase p (.frames fd es) = .batch (Pc.eraseEvents p es) := if_pos hp

theorem erase_flushing (hp : p fd = false) :
    Pc.erase p (.flushing fd es) = .flushing fd (Pc.eraseEvents p es) :=
  if_neg (by simp [hp])

theorem erase_flushing_self (hp : p fd = true) :
    Pc.erase p (.flushing fd es) = .batch (Pc.eraseEvents p es) := if_pos hp

/-- **A step that is not about the connection that is left out is a step of what is kept.** -/
theorem step_eraseAt (hf : s.worker.Fits p c) (hat : s.pc.isAt p = false)
    (haccept : ∀ fd, i ≠ .accept fd) (hwait : ∀ es, i ≠ .epollWait es)
    (hi : ∀ order, i ≠ .rehash order) (hs : s.step i = some s') :
    (s.eraseAt p c).step i = some (s'.eraseAt p c) := by
  set u := s.eraseAt p c with hu
  -- the place of control and the handler there are kept
  have hplace {pc : Pc} (hpc : s.pc = pc) : u.pc = pc.erase p := by rw [hu, eraseAt, hpc]
  have hreading {fd : Fd} {es : List EpollEvent} (hpc : s.pc = .reading fd es) :
      p fd = false ∧ u.pc = .reading fd (Pc.eraseEvents p es) := by
    rw [hpc] at hat
    exact ⟨hat, (hplace hpc).trans (erase_reading hat)⟩
  have hflushing {fd : Fd} {es : List EpollEvent} (hpc : s.pc = .flushing fd es) :
      p fd = false ∧ u.pc = .flushing fd (Pc.eraseEvents p es) := by
    rw [hpc] at hat
    exact ⟨hat, (hplace hpc).trans (erase_flushing hat)⟩
  have hmap {fd : Fd} {h : WebsocketHandler} (hp : p fd = false)
      (hfd : s.worker.websocketHandlerMap fd = some h) :
      u.worker.websocketHandlerMap fd = some (h.renumber (squeeze c)) := by
    rw [hu, eraseAt, NetworkInterface.erase_map hp, hfd, Option.map_some]
  have hpending {fd : Fd} (hp : p fd = false) :
      u.worker.writePendingAt fd = s.worker.writePendingAt fd :=
    NetworkInterface.writePendingAt_erase hp
  have hemit {fd : Fd} {h : WebsocketHandler} (hp : p fd = false)
      (hfd : s.worker.websocketHandlerMap fd = some h) {o : Obs} (ho : o.conn = h.conn)
      (w : NetworkInterface) :
      (w.emit o).erase p c = (w.erase p c).emit (o.renumber (squeeze c)) :=
    NetworkInterface.erase_emit o (by rw [ho]; exact hf.conn_ne hfd hp)
  cases step_branch hs with
  | rehash order _ => exact absurd rfl (hi order)
  | epollWait es _ => exact absurd rfl (hwait es)
  | accept fd es _ _ _ _ => exact absurd rfl (haccept fd)
  | close hpc =>
      rw [eraseAt, NetworkInterface.erase_processCloseQueue hf]
      exact step_of_branch (Branch.close (hplace hpc))
  | dispatch ev es hpc =>
      rw [hpc] at hat
      rw [eraseAt_dispatch hf hat]
      exact step_of_branch (Branch.dispatch ev _ ((hplace hpc).trans
        (congrArg Pc.batch (eraseEvents_cons hat))))
  | acceptFail es hpc => exact step_of_branch (Branch.acceptFail _ (hplace hpc))
  | received fd es h data hpc hfd h0 hchunk hcap =>
      obtain ⟨hp, hpc'⟩ := hreading hpc
      have hnext := Branch.received fd _ _ data hpc' (hmap hp hfd) h0 hchunk hcap
      rw [eraseAt, hemit hp hfd rfl, NetworkInterface.erase_setHandler hp, erase_reading hp]
      exact step_of_branch hnext
  | readRefused fd es h data hpc hfd h0 hchunk hcap =>
      obtain ⟨hp, hpc'⟩ := hreading hpc
      have hnext := Branch.readRefused fd _ _ data hpc' (hmap hp hfd) h0 hchunk hcap
      rw [eraseAt, NetworkInterface.erase_queueClose hp, hemit hp hfd rfl]
      exact step_of_branch hnext
  | readEof fd es h hpc hfd =>
      obtain ⟨hp, hpc'⟩ := hreading hpc
      have hnext := Branch.readEof fd _ _ hpc' (hmap hp hfd)
      rw [eraseAt, NetworkInterface.erase_queueClose hp, hemit hp hfd rfl]
      exact step_of_branch hnext
  | readError fd es hpc =>
      obtain ⟨hp, hpc'⟩ := hreading hpc
      rw [eraseAt, NetworkInterface.erase_queueClose hp]
      exact step_of_branch (Branch.readError fd _ hpc')
  | readAgain fd es hpc =>
      obtain ⟨hp, hpc'⟩ := hreading hpc
      rw [eraseAt_afterUpgrade hp, ← NetworkInterface.erase_driveIoUpgrade hf hp]
      exact step_of_branch (Branch.readAgain fd _ hpc')
  | frames fd es hpc =>
      rw [hpc] at hat
      rw [eraseAt_afterUpgrade hat, ← NetworkInterface.erase_driveIoFrame hf hat]
      exact step_of_branch (Branch.frames fd _ ((hplace hpc).trans (erase_frames hat)))
  | flushed fd es hpc hempty =>
      obtain ⟨hp, hpc'⟩ := hflushing hpc
      rw [eraseAt, NetworkInterface.erase_updateHandlerEvents hp]
      exact step_of_branch (Branch.flushed fd _ hpc' ((hpending hp).trans hempty))
  | sent fd es h n hpc hfd h0 hle =>
      obtain ⟨hp, hpc'⟩ := hflushing hpc
      have hnext := Branch.sent fd _ _ n hpc' (hmap hp hfd) h0 hle
      rw [eraseAt, hemit hp hfd rfl, NetworkInterface.erase_setHandler hp, erase_flushing hp]
      exact step_of_branch hnext
  | sendAgain fd es hpc hwrite =>
      obtain ⟨hp, hpc'⟩ := hflushing hpc
      rw [eraseAt, NetworkInterface.erase_updateHandlerEvents hp]
      exact step_of_branch (Branch.sendAgain fd _ hpc' ((hpending hp).trans hwrite))
  | sendError fd es hpc hwrite =>
      obtain ⟨hp, hpc'⟩ := hflushing hpc
      rw [eraseAt, NetworkInterface.erase_updateHandlerEvents hp,
        NetworkInterface.erase_queueClose hp]
      exact step_of_branch (Branch.sendError fd _ hpc' ((hpending hp).trans hwrite))

/-- **A step at the connection that is left out leaves what is kept as it is**, when it handles no
text frame. -/
theorem step_eraseAt_self (hf : s.worker.Fits p c) (hlisten : p s.worker.listenfd = false)
    (hat : s.pc.isAt p = true) (hi : ∀ order, i ≠ .rehash order)
    (hsilent : ∀ fd es, s.pc = .frames fd es → ∀ h f rest,
      s.worker.websocketHandlerMap fd = some h → frameSpec h.readBuf = .item f rest →
        f.opcode ≠ websocketTextData)
    (hs : s.step i = some s') : s'.eraseAt p c = s.eraseAt p c := by
  have hemit {fd : Fd} {h : WebsocketHandler} (hp : p fd = true)
      (hfd : s.worker.websocketHandlerMap fd = some h) {o : Obs} (ho : o.conn = h.conn)
      (w : NetworkInterface) : (w.emit o).erase p c = w.erase p c :=
    NetworkInterface.erase_emit_self o (ho.trans ((hf.conn fd h hfd).1 hp))
  cases step_branch hs with
  | rehash order _ => exact absurd rfl (hi order)
  | dispatch ev es hpc =>
      rw [hpc] at hat
      rw [eraseAt_dispatch_self hf hat hlisten, eraseAt, hpc, Pc.erase, eraseEvents_cons_self hat]
  | received fd es h data hpc hfd _ _ _ =>
      rw [hpc] at hat
      rw [eraseAt, eraseAt, hemit hat hfd rfl, NetworkInterface.erase_setHandler_self hat, hpc]
  | readRefused fd es h data hpc hfd _ _ _ =>
      rw [hpc] at hat
      rw [eraseAt, eraseAt, NetworkInterface.erase_queueClose_self hat, hemit hat hfd rfl, hpc,
        erase_reading_self hat, Pc.erase]
  | readEof fd es h hpc hfd =>
      rw [hpc] at hat
      rw [eraseAt, eraseAt, NetworkInterface.erase_queueClose_self hat, hemit hat hfd rfl, hpc,
        erase_reading_self hat, Pc.erase]
  | readError fd es hpc =>
      rw [hpc] at hat
      rw [eraseAt, eraseAt, NetworkInterface.erase_queueClose_self hat, hpc, erase_reading_self hat,
        Pc.erase]
  | readAgain fd es hpc =>
      rw [hpc] at hat
      rw [eraseAt_afterUpgrade_self hat, NetworkInterface.erase_driveIoUpgrade_self hf hat, eraseAt,
        hpc, erase_reading_self hat]
  | frames fd es hpc =>
      rw [hpc] at hat
      rw [eraseAt_afterUpgrade_self hat,
        NetworkInterface.erase_driveIoFrame_self hf hat (hsilent fd es hpc), eraseAt, hpc,
        erase_frames_self hat]
  | flushed fd es hpc _ =>
      rw [hpc] at hat
      rw [eraseAt, eraseAt, NetworkInterface.erase_updateHandlerEvents_self hat, hpc,
        erase_flushing_self hat, Pc.erase]
  | sent fd es h n hpc hfd _ _ =>
      rw [hpc] at hat
      rw [eraseAt, eraseAt, hemit hat hfd rfl, NetworkInterface.erase_setHandler_self hat, hpc]
  | sendAgain fd es hpc _ =>
      rw [hpc] at hat
      rw [eraseAt, eraseAt, NetworkInterface.erase_updateHandlerEvents_self hat, hpc,
        erase_flushing_self hat, Pc.erase]
  | sendError fd es hpc _ =>
      rw [hpc] at hat
      rw [eraseAt, eraseAt, NetworkInterface.erase_updateHandlerEvents_self hat,
        NetworkInterface.erase_queueClose_self hat, hpc, erase_flushing_self hat, Pc.erase]
  | epollWait es hpc =>
      rw [hpc] at hat
      cases hat
  | close hpc =>
      rw [hpc] at hat
      cases hat
  | accept fd es hpc _ _ _ =>
      rw [hpc] at hat
      cases hat
  | acceptFail es hpc =>
      rw [hpc] at hat
      cases hat

/-! ### The descriptor of the connection -/

variable {once : Prop} {listenfd : Fd}

theorem isConn_eq_true : w.isConn c fd = true ↔ w.connAt fd = some c := decide_eq_true_iff

theorem isConn_congr {w' : NetworkInterface} (h : ∀ fd, w'.connAt fd = w.connAt fd) :
    w'.isConn c = w.isConn c := by
  funext fd
  rw [NetworkInterface.isConn, NetworkInterface.isConn, h]

/-- In a well-formed worker the descriptor of `c` is the one its handler is mapped under. -/
theorem fits_isConn (hwf : w.WellFormed) : w.Fits (w.isConn c) c where
  own := hwf.own
  conn fd h hfd := by
    rw [isConn_eq_true, NetworkInterface.connAt_of_map hfd, Option.some.injEq]

/-- It makes no difference which of the descriptors that are not open are marked. -/
theorem eraseAt_congr {q : Fd → Bool} (hwf : s.WellFormed once) (hb : s.Bound)
    (hpq : ∀ fd, q fd ≠ p fd → s.worker.connAt fd = none) : s.eraseAt q c = s.eraseAt p c := by
  have hopen {fd : Fd} (h : (s.worker.connAt fd).isSome) : q fd = p fd := by
    by_contra hne
    rw [hpq fd hne] at h
    cases h
  have hworker : s.worker.erase q c = s.worker.erase p c := by
    refine NetworkInterface.erase_congr fun fd hne => ?_
    have hnone := hpq fd hne
    refine ⟨NetworkInterface.connAt_eq_none.1 hnone, ?_, ?_, ?_⟩
    · intro hm
      obtain ⟨h, hfd, _⟩ := (hwf.worker.mem_wsClients fd).1 hm
      rw [NetworkInterface.connAt_of_map hfd] at hnone
      cases hnone
    · intro hm
      have hsome := hb.pending fd hm
      rw [hnone] at hsome
      cases hsome
    · by_contra hinterest
      have hsome := hb.watched fd (Option.isSome_iff_ne_none.2 hinterest)
      rw [hnone] at hsome
      cases hsome
  have hrest (es : List EpollEvent) (h : es = s.pc.rest) :
      Pc.eraseEvents q es = Pc.eraseEvents p es := by
    subst h
    refine List.filter_congr fun ev hev => ?_
    rw [hopen (hb.rest ev.fd (List.mem_map_of_mem hev))]
  have hcurrent (fd : Fd) (h : s.pc.current = some fd) : q fd = p fd := by
    obtain ⟨_, h₁, hfd⟩ := hwf.pc.current fd h
    exact hopen (by rw [NetworkInterface.connAt_of_map hfd]; rfl)
  have hpc : s.pc.erase q = s.pc.erase p := by
    cases hpc : s.pc with
    | waiting => rfl
    | batch es =>
        rw [hpc] at hrest
        exact congrArg Pc.batch (hrest es rfl)
    | accepting es =>
        rw [hpc] at hrest
        exact congrArg Pc.accepting (hrest es rfl)
    | reading fd es =>
        rw [hpc] at hrest hcurrent
        rw [Pc.erase, Pc.erase, hrest es rfl, hcurrent fd rfl]
    | frames fd es =>
        rw [hpc] at hrest hcurrent
        rw [Pc.erase, Pc.erase, hrest es rfl, hcurrent fd rfl]
    | flushing fd es =>
        rw [hpc] at hrest hcurrent
        rw [Pc.erase, Pc.erase, hrest es rfl, hcurrent fd rfl]
  rw [eraseAt, eraseAt, hworker, hpc]

/-- The descriptor of `c` does not change, unless `c` is accepted. -/
theorem erase_eq_eraseAt (hwf : s.WellFormed once) (hwf' : s'.WellFormed once) (hb' : s'.Bound)
    (haccept : ∀ fd, i ≠ .accept fd) (hs : s.step i = some s') :
    s'.erase c = s'.eraseAt (s.worker.isConn c) c := by
  rcases turn_descriptors hwf (step_turn hwf hs) with hst | ⟨fd, ha⟩ | ⟨fds, hd⟩
  · rw [erase, isConn_congr hst.connAt]
  · -- only `accept` adds a connection
    obtain ⟨es, hpc, hpc'⟩ := ha.pc
    have hnext : s'.worker.nextConn = s.worker.nextConn + 1 := by
      rw [ha.worker]
      rfl
    cases i with
    | accept fd => exact absurd rfl (haccept fd)
    | acceptFail =>
        simp only [step, hpc] at hs
        obtain rfl := Option.some.inj hs
        cases hpc'
    | rehash order =>
        rw [step_rehash] at hs
        split_ifs at hs
        obtain rfl := Option.some.inj hs
        exact absurd hnext (Nat.succ_ne_self _).symm
    | _ => simp [step, hpc] at hs
  · refine eraseAt_congr hwf' hb' fun fd hne => ?_
    have hconn := hd.connAt fd
    split_ifs at hconn
    · exact hconn
    · rw [NetworkInterface.isConn, NetworkInterface.isConn, hconn] at hne
      exact absurd rfl hne

/-! ### A silent connection -/

/-- No text frame of the connection `c` has been handled. -/
def Silent (c : ℕ) (s : Loop) : Prop :=
  ∀ f, .handled c f ∈ s.worker.trace → f.opcode ≠ websocketTextData

/-- The frame the loop takes off next is handled. -/
theorem handled_of_frames {h : WebsocketHandler} {f : Frame} {rest : Bytes}
    (hwf : s.WellFormed once) (hpc : s.pc = .frames fd es)
    (hfd : s.worker.websocketHandlerMap fd = some h) (hspec : frameSpec h.readBuf = .item f rest)
    (hi : ∀ order, i ≠ .rehash order) (hs : s.step i = some s') :
    .handled h.conn f ∈ s'.worker.trace := by
  obtain ⟨h₁, hfd₁, hstatus⟩ := hwf.pc.frames fd es hpc
  obtain rfl : h = h₁ := Option.some.inj (hfd.symm.trans hfd₁)
  cases i with
  | tau =>
      obtain ⟨request, w', hdrive, hh⟩ := NetworkInterface.driveIoFrame_item hfd hstatus
        hwf.worker.own hwf.worker.nodup hspec
      simp only [step, hpc, hdrive, afterUpgrade] at hs
      obtain rfl := Option.some.inj hs
      rw [hh.trace]
      exact List.mem_append_right _ List.mem_cons_self
  | rehash order => exact absurd rfl (hi order)
  | _ => simp [step, hpc] at hs

/-- The order in which a broadcast goes over the other clients. -/
theorem step_erase_rehash {order : List Fd} (hs : s.step (.rehash order) = some s') :
    (s.erase c).step (.rehash (order.filter fun fd => !s.worker.isConn c fd)) =
      some (s'.erase c) := by
  rw [step_rehash] at hs
  split_ifs at hs with hperm
  obtain rfl := Option.some.inj hs
  have hperm' : (order.filter fun fd => !s.worker.isConn c fd).Perm (s.erase c).worker.wsClients :=
    hperm.filter _
  rw [step_rehash, if_pos hperm']
  rfl

/-- The events of the other connections. -/
theorem step_erase_epollWait (hs : s.step (.epollWait es) = some s') :
    (s.erase c).step (.epollWait (Pc.eraseEvents (s.worker.isConn c) es)) = some (s'.erase c) := by
  cases step_branch hs with
  | epollWait _ hpc =>
      have hpc' : (s.erase c).pc = .waiting := by
        rw [erase, eraseAt, hpc]
        rfl
      exact step_of_branch (Branch.epollWait _ hpc')

/-- They keep the contract. -/
theorem epollContract_erase (hok : EpollContract s (.epollWait es)) :
    EpollContract (s.erase c) (.epollWait (Pc.eraseEvents (s.worker.isConn c) es)) := by
  obtain ⟨hnd, hevents⟩ := hok
  constructor
  · exact hnd.sublist (List.filter_sublist.map EpollEvent.fd)
  · intro ev hev
    obtain ⟨hmem, hp⟩ := List.mem_filter.1 hev
    obtain ⟨mask, hmask, hbits⟩ := hevents ev hmem
    refine ⟨mask, ?_, hbits⟩
    have hp' : s.worker.isConn c ev.fd = false := by simpa using hp
    have hinterest : (s.erase c).worker.interest ev.fd = s.worker.interest ev.fd := by
      simp [erase, eraseAt, NetworkInterface.erase, hp']
    rw [hinterest]
    exact hmask

theorem connAt_ctlEvent_true (w : NetworkInterface) (fd fd' : Fd) :
    (w.ctlEvent fd true).connAt fd' = if fd' = fd then some w.nextConn else w.connAt fd' := by
  by_cases he : fd' = fd
  · subst he
    simp [NetworkInterface.connAt, NetworkInterface.ctlEvent, WebsocketHandler.new]
  · simp [NetworkInterface.connAt, NetworkInterface.ctlEvent, he]

/-- Another connection is accepted. -/
theorem step_erase_accept (hc : s.worker.nextConn ≠ c) (hs : s.step (.accept fd) = some s') :
    (s.erase c).step (.accept fd) = some (s'.erase c) := by
  cases step_branch hs with
  | accept _ es hpc h0 hne hnone =>
      have hnone' : s.worker.connAt fd = none := NetworkInterface.connAt_eq_none.2 hnone
      have hp : s.worker.isConn c fd = false := by simp [NetworkInterface.isConn, hnone']
      have hsame : (s.worker.ctlEvent fd true).isConn c = s.worker.isConn c := by
        funext fd'
        by_cases he : fd' = fd
        · subst he
          simp [NetworkInterface.isConn, connAt_ctlEvent_true, hc, hnone']
        · simp [NetworkInterface.isConn, connAt_ctlEvent_true, he]
      have hpc' : (s.erase c).pc = .accepting (Pc.eraseEvents (s.worker.isConn c) es) := by
        rw [erase, eraseAt, hpc]
        rfl
      have hfree : (s.erase c).worker.websocketHandlerMap fd = none := by
        simp [erase, eraseAt, NetworkInterface.erase, hnone]
      have hnext : Loop.erase c ⟨s.worker.ctlEvent fd true, .accepting es⟩ =
          ⟨(s.erase c).worker.ctlEvent fd true,
            .accepting (Pc.eraseEvents (s.worker.isConn c) es)⟩ := by
        rw [erase, hsame, eraseAt, NetworkInterface.erase_ctlEvent_true hp hc]
        rfl
      rw [hnext]
      exact step_of_branch (Branch.accept fd _ hpc' h0 hne hfree)

/-- The connection `c` is accepted. -/
theorem erase_accept_self (hwf : s.WellFormed once) (hb : s.Bound)
    (hs : s.step (.accept fd) = some s') :
    s'.erase s.worker.nextConn = s.erase s.worker.nextConn := by
  cases step_branch hs with
  | accept _ es hpc _ _ hnone =>
      have hp : (s.worker.ctlEvent fd true).isConn s.worker.nextConn fd = true := by
        rw [isConn_eq_true, connAt_ctlEvent_true, if_pos rfl]
      calc Loop.erase s.worker.nextConn ⟨s.worker.ctlEvent fd true, .accepting es⟩
          = s.eraseAt ((s.worker.ctlEvent fd true).isConn s.worker.nextConn) s.worker.nextConn := by
            rw [erase, eraseAt, NetworkInterface.erase_ctlEvent_true_self hp, eraseAt, hpc]
        _ = s.erase s.worker.nextConn := by
            refine eraseAt_congr hwf hb fun fd' hne => ?_
            by_cases he : fd' = fd
            · subst he
              exact NetworkInterface.connAt_eq_none.2 hnone
            · rw [NetworkInterface.isConn, NetworkInterface.isConn, connAt_ctlEvent_true,
                if_neg he] at hne
              exact absurd rfl hne

/-- **A step of a run in which `c` is silent.** -/
theorem step_eraseInput (hr : Reachable EpollContract listenfd s) (hc : c ≠ 0)
    (hok : EpollContract s i) (hs : s.step i = some s') (hsilent : Silent c s') :
    Transition.Follows step EpollContract (s.erase c) (eraseInput c s i) (s'.erase c) := by
  have hwf := reachable_wellFormed promises_epollContract hr
  have hb := bound hr
  have hr' : Reachable EpollContract listenfd s' := hr.tail i hok hs
  have hwf' := reachable_wellFormed promises_epollContract hr'
  have hf : s.worker.Fits (s.worker.isConn c) c := fits_isConn hwf.worker
  have hlisten : s.worker.isConn c s.worker.listenfd = false := by
    obtain ⟨hfd, hzero, _⟩ := listener promises_epollContract hr
    simp [NetworkInterface.isConn, hfd, hzero, hc.symm]
  -- the steps of the loop itself
  have hother (haccept : ∀ fd, i ≠ .accept fd) (hwait : ∀ es, i ≠ .epollWait es)
      (hi : ∀ order, i ≠ .rehash order) :
      Transition.Follows step EpollContract (s.erase c)
        (if s.pc.isAt (s.worker.isConn c) then none else some i) (s'.erase c) := by
    rw [erase_eq_eraseAt hwf hwf' (bound hr') haccept hs]
    cases hat : s.pc.isAt (s.worker.isConn c) with
    | true =>
        refine step_eraseAt_self hf hlisten hat hi ?_ hs
        intro fd es hpc h f rest hfd hspec
        have hconn : h.conn = c := by
          rw [hpc] at hat
          exact (hf.conn fd h hfd).1 hat
        have hhandled := handled_of_frames hwf hpc hfd hspec hi hs
        rw [hconn] at hhandled
        exact hsilent f hhandled
    | false =>
        refine ⟨?_, step_eraseAt hf hat haccept hwait hi hs⟩
        cases i with
        | epollWait es => exact absurd rfl (hwait es)
        | _ => trivial
  cases i with
  | rehash order => exact ⟨trivial, step_erase_rehash hs⟩
  | epollWait es => exact ⟨epollContract_erase hok, step_erase_epollWait hs⟩
  | accept fd =>
      by_cases hnext : s.worker.nextConn = c
      · subst hnext
        rw [eraseInput, if_pos rfl]
        exact erase_accept_self hwf hb hs
      · simp only [eraseInput, if_neg hnext]
        exact ⟨trivial, step_erase_accept hnext hs⟩
  | _ => exact hother nofun nofun nofun

/-! ### Every run -/

theorem connAt_init (fd : Fd) :
    (NetworkInterface.init listenfd).connAt fd = if fd = listenfd then some 0 else none := by
  rw [NetworkInterface.init, connAt_ctlEvent_true]
  rfl

/-- The loop is entered with the listener only. -/
theorem erase_init (hc : c ≠ 0) : (init listenfd).erase c = init listenfd := by
  have hp : (init listenfd).worker.isConn c = fun _ => false := by
    funext fd
    rw [NetworkInterface.isConn, decide_eq_false_iff_not, init, connAt_init]
    split_ifs
    · exact fun h => hc (Option.some.inj h).symm
    · simp
  rw [erase, hp, eraseAt, init, NetworkInterface.init,
    NetworkInterface.erase_ctlEvent_true rfl hc.symm]
  rfl

/-- **The run without a silent connection is a run, and what it reaches is what is kept of the state
reached.** -/
theorem exec_eraseInputs {is : List Input} (hc : c ≠ 0) (hs : (init listenfd).exec is = some s)
    (hsilent : Silent c s) :
    (init listenfd).exec (eraseInputs c (init listenfd) is) = some (s.erase c) := by
  have hback (s : Loop) (i : Input) (t : Loop) (hr : Reachable EpollContract listenfd s)
      (hs : s.step i = some t) (ht : Silent c t) : Silent c s := by
    intro f hf
    exact ht f ((step_keeps_trace (reachable_wellFormed promises_epollContract hr) hs).subset hf)
  obtain ⟨_, hrun⟩ := Transition.runOk_transport (P := Reachable EpollContract listenfd)
    (fun _ i _ hr hok hs => hr.tail i hok hs) hback
    (fun _ _ _ hr hok hs ht => step_eraseInput hr hc hok hs ht) Transition.Reaches.refl hs hsilent
  rw [erase_init hc] at hrun
  exact hrun

end Loop

/-- `w'` is as `w`, but that the connection `c` has never been accepted. -/
structure NetworkInterface.Unaffected (c : ℕ) (w w' : NetworkInterface) : Prop where
  /-- Another connection is on the descriptor it was on; those accepted behind `c` have moved up. -/
  connAt : ∀ fd, w'.connAt fd = if w.connAt fd = some c then none else (w.connAt fd).map (squeeze c)
  /-- Its buffers, its status and all else its handler holds are the same. -/
  handler : ∀ fd h, w.websocketHandlerMap fd = some h → h.conn ≠ c →
    w'.websocketHandlerMap fd = some { h with conn := squeeze c h.conn }
  /-- It is a client, it is queued for closing, and it is watched for the same events. -/
  wsClients : ∀ fd, w.connAt fd ≠ some c → (fd ∈ w'.wsClients ↔ fd ∈ w.wsClients)
  pendingCloses : ∀ fd, w.connAt fd ≠ some c → (fd ∈ w'.pendingCloses ↔ fd ∈ w.pendingCloses)
  interest : ∀ fd, w.connAt fd ≠ some c → w'.interest fd = w.interest fd
  /-- The same has happened to it. -/
  history : ∀ d, d ≠ c →
    about (squeeze c d) w'.trace = (about d w.trace).map (Obs.renumber (squeeze c))
  /-- It has been offered and sent the same. -/
  outgoing : ∀ d, d ≠ c → offers (about (squeeze c d) w'.trace) = offers (about d w.trace) ∧
    sentBytes (about (squeeze c d) w'.trace) = sentBytes (about d w.trace)

section Unaffected

variable {c d : ℕ} {w : NetworkInterface}

/-- The connections that are kept keep different numbers. -/
theorem squeeze_inj {m n : ℕ} (hm : m ≠ c) (hn : n ≠ c) (h : squeeze c m = squeeze c n) :
    m = n := by
  unfold squeeze at h
  split_ifs at h <;> omega

theorem conn_renumber (f : ℕ → ℕ) (o : Obs) : (o.renumber f).conn = f o.conn := by
  cases o <;> rfl

/-- The history of a connection that is kept is kept. -/
theorem about_eraseObs (hd : d ≠ c) (τ : List Obs) :
    about (squeeze c d) (eraseObs c τ) = (about d τ).map (Obs.renumber (squeeze c)) := by
  induction τ with
  | nil => rfl
  | cons o τ ih =>
      rw [← List.singleton_append, eraseObs_append, about_append, about_append, List.map_append, ih]
      congr 1
      by_cases ho : o.conn = c
      · rw [eraseObs_self ho, about_of_ne d (by simpa [ho] using hd.symm)]
        rfl
      · have hsame : squeeze c o.conn = squeeze c d ↔ o.conn = d :=
          ⟨squeeze_inj ho hd, fun h => by rw [h]⟩
        rw [eraseObs_other ho, about_cons, about_cons, conn_renumber]
        by_cases he : o.conn = d
        · rw [if_pos (hsame.2 he), if_pos he]
          rfl
        · rw [if_neg (mt hsame.1 he), if_neg he]
          rfl

theorem offers_renumber (f : ℕ → ℕ) (τ : List Obs) :
    offers (τ.map (Obs.renumber f)) = offers τ := by
  rw [offers, offers, List.filterMap_map]
  refine List.filterMap_congr fun o _ => ?_
  cases o <;> rfl

theorem sentBytes_renumber (f : ℕ → ℕ) (τ : List Obs) :
    sentBytes (τ.map (Obs.renumber f)) = sentBytes τ := by
  rw [sentBytes, sentBytes, List.flatMap_map]
  refine List.flatMap_congr fun o _ => ?_
  cases o <;> rfl

/-- **What is kept of a worker is as it was.** -/
theorem unaffected_erase : w.Unaffected c (w.erase (w.isConn c) c) := by
  have hp {fd : Fd} (h : w.connAt fd ≠ some c) : w.isConn c fd = false :=
    decide_eq_false_iff_not.2 h
  constructor
  · intro fd
    split_ifs with h
    · rw [NetworkInterface.connAt_eq_none]
      simp [NetworkInterface.erase, NetworkInterface.isConn, h]
    · rw [NetworkInterface.connAt, NetworkInterface.erase_map (hp h), Option.map_map,
        NetworkInterface.connAt, Option.map_map]
      rfl
  · intro fd h hfd hconn
    have hne : w.connAt fd ≠ some c := by
      rw [NetworkInterface.connAt_of_map hfd]
      exact fun he => hconn (Option.some.inj he)
    rw [NetworkInterface.erase_map (hp hne), hfd]
    rfl
  · intro fd h
    simp [NetworkInterface.erase, hp h]
  · intro fd h
    simp [NetworkInterface.erase, hp h]
  · intro fd h
    simp [NetworkInterface.erase, hp h]
  · intro d hd
    exact about_eraseObs hd w.trace
  · intro d hd
    have habout : about (squeeze c d) (w.erase (w.isConn c) c).trace =
        (about d w.trace).map (Obs.renumber (squeeze c)) := about_eraseObs hd w.trace
    rw [habout]
    exact ⟨offers_renumber _ _, sentBytes_renumber _ _⟩

end Unaffected

/-- **A client that does not speak is not noticed.**  Whatever the connection `c` does short of a
text frame, the run without it is a run, and at every point the others are in it as they were. -/
theorem silent_client_unnoticed {c : ℕ} {listenfd : Fd} {is : List Input} {s : Loop} (hc : c ≠ 0)
    (hs : (Loop.init listenfd).exec is = some s) (hsilent : s.Silent c) {js : List Input}
    (hjs : js <+: is) :
    eraseInputs c (Loop.init listenfd) js <+: eraseInputs c (Loop.init listenfd) is ∧
      ∃ t t', (Loop.init listenfd).exec js = some t ∧
        (Loop.init listenfd).exec (eraseInputs c (Loop.init listenfd) js) = some t' ∧
        t'.pc = t.pc.erase (t.worker.isConn c) ∧ t.worker.Unaffected c t'.worker := by
  obtain ⟨ks, rfl⟩ := hjs
  refine ⟨Transition.transport_prefix js ks, ?_⟩
  rw [Loop.exec, Transition.runOk_append] at hs
  obtain ⟨t, ht, hrest⟩ := Option.bind_eq_some_iff.1 hs
  have hwf := Loop.reachable_wellFormed Loop.promises_epollContract (Transition.reaches_of_runOk ht)
  have hsilent' : t.Silent c := by
    intro f hf
    have hgrows := Loop.trace_prefix Loop.promises_epollContract hwf
      (Transition.reaches_of_runOk hrest)
    exact hsilent f (hgrows.subset hf)
  exact ⟨t, t.erase c, ht, Loop.exec_eraseInputs hc ht hsilent', rfl, unaffected_erase⟩

/-- One client pings, another says "hi", and the first hangs up. -/
def pingAndHangUp : List Input :=
  session [5, 6] ++ receive 5 [0x89, 0x80, 1, 2, 3, 4] ++ [.tau, .tau, .tau] ++
    receive 6 hiFrame.encode ++ [.tau, .tau, .tau] ++
    [.epollWait [⟨5, epollIn⟩], .tau, .readEof, .tau]

/-- The run without the client that pings. -/
theorem silent_client_unnoticed_ping : ∃ t t', (Loop.init 3).exec pingAndHangUp = some t ∧
    handledFrames (about 1 t.worker.trace) = [⟨1, websocketPingPack, []⟩] ∧
    texts t.worker.trace = [⟨1, websocketTextData, ascii "hi"⟩] ∧
    (Loop.init 3).exec (eraseInputs 1 (Loop.init 3) pingAndHangUp) = some t' ∧
    t'.pc = t.pc.erase (t.worker.isConn 1) ∧ t.worker.Unaffected 1 t'.worker := by
  have hrun : ((Loop.init 3).exec pingAndHangUp).map (fun s =>
      (handledFrames (about 1 s.worker.trace), texts s.worker.trace)) =
        some ([⟨1, websocketPingPack, []⟩], [⟨1, websocketTextData, ascii "hi"⟩]) := by
    decide +kernel
  obtain ⟨s, hs, hobs⟩ := Option.map_eq_some_iff.1 hrun
  injection hobs with hhandled htexts
  have hsilent : s.Silent 1 := by
    intro f hf
    have hmem : f ∈ handledFrames (about 1 s.worker.trace) :=
      List.mem_filterMap.2 ⟨_, List.mem_filter.2 ⟨hf, by simp [Obs.conn]⟩, rfl⟩
    rw [hhandled] at hmem
    obtain rfl := List.mem_singleton.1 hmem
    decide
  obtain ⟨_, t, t', ht, ht', hpc, hsame⟩ :=
    silent_client_unnoticed Nat.one_ne_zero hs hsilent List.prefix_rfl
  obtain rfl : s = t := Option.some.inj (hs.symm.trans ht)
  exact ⟨s, t', hs, hhandled, htexts, ht', hpc, hsame⟩

end WebSocketDemo
