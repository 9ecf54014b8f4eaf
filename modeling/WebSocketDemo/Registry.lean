/-
**The registry invariant.**

Every turn keeps a state well formed, so that every reachable state is.  The turns that change no
identity and no status are covered by one lemma; the three that do (`accept`, the upgrade, the close
queue) have one each.

Main definitions:

* `WebsocketHandler.Keeps` — a handler keeps its identity and its status;
* `Loop.Promises` — what an environment promises about batches.

Main results:

* `Loop.turn_wellFormed` — **every turn keeps the invariant**;
* `Loop.reachable_wellFormed` — **every reachable state is well formed**.
-/

import WebSocketDemo.Turn

set_option relaxedAutoImplicit false
set_option autoImplicit false

namespace WebSocketDemo

/-! ### Handlers keep their identity -/

/-- The handler keeps its identity and its status. -/
structure WebsocketHandler.Keeps (h h' : WebsocketHandler) : Prop where
  conn : h'.conn = h.conn
  fd : h'.fd = h.fd
  status : h'.status = h.status
  writeBuf : h.status = .unconnect → h'.writeBuf = h.writeBuf

namespace NetworkInterface

variable {w w' : NetworkInterface}

theorem keeps_refl (o : Option WebsocketHandler) : Option.Rel WebsocketHandler.Keeps o o := by
  cases o with
  | none => exact Option.Rel.none
  | some h => exact Option.Rel.some ⟨rfl, rfl, rfl, fun _ => rfl⟩

theorem keeps_update {fd : Fd} {h h' : WebsocketHandler} (hfd : w.websocketHandlerMap fd = some h)
    (hmap : w'.websocketHandlerMap = Function.update w.websocketHandlerMap fd (some h'))
    (hk : h.Keeps h') (fd' : Fd) :
    Option.Rel WebsocketHandler.Keeps (w.websocketHandlerMap fd') (w'.websocketHandlerMap fd') := by
  by_cases hne : fd' = fd
  · rw [hne, hfd, hmap, Function.update_self]
    exact Option.Rel.some hk
  · rw [hmap, Function.update_of_ne hne]
    exact keeps_refl _

theorem keeps_some_left {o o' : Option WebsocketHandler} {h : WebsocketHandler}
    (hr : Option.Rel WebsocketHandler.Keeps o o') (ho : o = some h) :
    ∃ h', o' = some h' ∧ h.Keeps h' := by
  cases hr with
  | none => cases ho
  | some hk =>
      obtain rfl := Option.some.inj ho
      exact ⟨_, rfl, hk⟩

theorem keeps_some_right {o o' : Option WebsocketHandler} {h' : WebsocketHandler}
    (hr : Option.Rel WebsocketHandler.Keeps o o') (ho : o' = some h') :
    ∃ h, o = some h ∧ h.Keeps h' := by
  cases hr with
  | none => cases ho
  | some hk =>
      obtain rfl := Option.some.inj ho
      exact ⟨_, rfl, hk⟩

/-- Where no handler changes its identity or its status, the registry stays consistent. -/
theorem WellFormed.of_keeps (hwf : w.WellFormed)
    (hkeep : ∀ fd, Option.Rel WebsocketHandler.Keeps (w.websocketHandlerMap fd)
      (w'.websocketHandlerMap fd))
    (hclients : w'.wsClients.Perm w.wsClients) (hlisten : w'.listenfd = w.listenfd)
    (hnext : w'.nextConn = w.nextConn)
    (htrace : ∀ o ∈ w'.trace, o ∈ w.trace ∨ o.conn < w.nextConn)
    (hpending : w.listenfd ∉ w'.pendingCloses) : w'.WellFormed where
  own fd h' hh' := by
    obtain ⟨h, hh, hk⟩ := keeps_some_right (hkeep fd) hh'
    rw [hk.fd]
    exact hwf.own fd h hh
  nonneg fd h' hh' hne := by
    obtain ⟨h, hh, _⟩ := keeps_some_right (hkeep fd) hh'
    exact hwf.nonneg fd h hh (by rw [← hlisten]; exact hne)
  conn_lt fd h' hh' := by
    obtain ⟨h, hh, hk⟩ := keeps_some_right (hkeep fd) hh'
    rw [hk.conn, hnext]
    exact hwf.conn_lt fd h hh
  conn_inj fd₁ fd₂ h₁' h₂' hh₁ hh₂ heq := by
    obtain ⟨h₁, hh₁, hk₁⟩ := keeps_some_right (hkeep fd₁) hh₁
    obtain ⟨h₂, hh₂, hk₂⟩ := keeps_some_right (hkeep fd₂) hh₂
    exact hwf.conn_inj fd₁ fd₂ h₁ h₂ hh₁ hh₂ (by rw [← hk₁.conn, ← hk₂.conn, heq])
  trace_lt o ho := by
    rw [hnext]
    rcases htrace o ho with hold | hnew
    · exact hwf.trace_lt o hold
    · exact hnew
  nodup := hclients.nodup_iff.2 hwf.nodup
  mem_wsClients fd := by
    rw [hclients.mem_iff, hwf.mem_wsClients fd]
    constructor
    · rintro ⟨h, hh, hs⟩
      obtain ⟨h', hh', hk⟩ := keeps_some_left (hkeep fd) hh
      exact ⟨h', hh', by rw [hk.status, hs]⟩
    · rintro ⟨h', hh', hs⟩
      obtain ⟨h, hh, hk⟩ := keeps_some_right (hkeep fd) hh'
      exact ⟨h, hh, by rw [← hk.status, hs]⟩
  listener := by
    obtain ⟨h, hh, hs⟩ := hwf.listener
    obtain ⟨h', hh', hk⟩ := keeps_some_left (hkeep _) hh
    exact ⟨h', by rw [hlisten]; exact hh', by rw [hk.status, hs]⟩
  listener_pending := by
    rw [hlisten]
    exact hpending
  writeBuf fd h' hh' hs := by
    obtain ⟨h, hh, hk⟩ := keeps_some_right (hkeep fd) hh'
    rw [hk.status] at hs
    rw [hk.writeBuf hs]
    exact hwf.writeBuf fd h hh hs

/-- A frame handled: every client keeps its identity. -/
theorem Handles.keeps {fd : Fd} {h h' : WebsocketHandler} {f : Frame} (hwf : w.WellFormed)
    (hh : w.Handles fd h f h' w') (hfd : w.websocketHandlerMap fd = some h) (hk : h.Keeps h')
    (fd' : Fd) :
    Option.Rel WebsocketHandler.Keeps (w.websocketHandlerMap fd') (w'.websocketHandlerMap fd') := by
  rw [hh.map fd']
  split_ifs with hne hmem
  · rw [hne, hfd]
    exact Option.Rel.some hk
  · obtain ⟨h₁, hh₁, hs⟩ := (hwf.mem_wsClients fd').1 hmem
    rw [hh₁]
    refine Option.Rel.some ⟨by simp, by simp, by simp, ?_⟩
    intro hu
    rw [hs] at hu
    cases hu
  · exact keeps_refl _

/-- The operations a handled frame records belong to mapped connections. -/
theorem Handles.trace_lt {fd : Fd} {h h' : WebsocketHandler} {f : Frame} (hwf : w.WellFormed)
    (hh : w.Handles fd h f h' w') (hfd : w.websocketHandlerMap fd = some h) :
    ∀ o ∈ w'.trace, o ∈ w.trace ∨ o.conn < w.nextConn := by
  intro o ho
  rw [hh.trace] at ho
  rcases List.mem_append.1 ho with hold | hnew
  · exact Or.inl hold
  · refine Or.inr ?_
    rcases mem_handleObs hfd hnew with rfl | ⟨fd', h', _, _, _, hh', rfl⟩
    · exact hwf.conn_lt fd h hfd
    · exact hwf.conn_lt fd' h' hh'

/-- `accept` maps a descriptor that was free to a connection that is new. -/
theorem WellFormed.accept (hwf : w.WellFormed) {fd : Fd} (h0 : 0 ≤ fd) (hne : fd ≠ w.listenfd)
    (hfd : w.websocketHandlerMap fd = none) : (w.ctlEvent fd true).WellFormed := by
  have hmap : (w.ctlEvent fd true).websocketHandlerMap =
      Function.update w.websocketHandlerMap fd (some (WebsocketHandler.new w.nextConn fd)) := rfl
  have hold (fd' : Fd) (h' : WebsocketHandler)
      (hh' : (w.ctlEvent fd true).websocketHandlerMap fd' = some h') :
      fd' = fd ∧ h' = WebsocketHandler.new w.nextConn fd ∨
        fd' ≠ fd ∧ w.websocketHandlerMap fd' = some h' := by
    by_cases he : fd' = fd
    · rw [hmap, he, Function.update_self] at hh'
      exact Or.inl ⟨he, (Option.some.inj hh').symm⟩
    · rw [hmap, Function.update_of_ne he] at hh'
      exact Or.inr ⟨he, hh'⟩
  have hkeep (fd' : Fd) (h' : WebsocketHandler) (hh' : w.websocketHandlerMap fd' = some h') :
      (w.ctlEvent fd true).websocketHandlerMap fd' = some h' := by
    have he : fd' ≠ fd := by
      rintro rfl
      rw [hfd] at hh'
      cases hh'
    rw [hmap, Function.update_of_ne he]
    exact hh'
  refine ⟨?_, ?_, ?_, ?_, ?_, hwf.nodup, ?_, ?_, hwf.listener_pending, ?_⟩
  · intro fd' h' hh'
    rcases hold fd' h' hh' with ⟨rfl, rfl⟩ | ⟨_, hh'⟩
    · rfl
    · exact hwf.own fd' h' hh'
  · intro fd' h' hh' hl
    rcases hold fd' h' hh' with ⟨rfl, _⟩ | ⟨_, hh'⟩
    · exact h0
    · exact hwf.nonneg fd' h' hh' hl
  · intro fd' h' hh'
    rcases hold fd' h' hh' with ⟨_, rfl⟩ | ⟨_, hh'⟩
    · exact Nat.lt_succ_self _
    · exact Nat.lt_succ_of_lt (hwf.conn_lt fd' h' hh')
  · intro fd₁ fd₂ h₁ h₂ hh₁ hh₂ heq
    rcases hold fd₁ h₁ hh₁ with ⟨he₁, hn₁⟩ | ⟨_, hm₁⟩
    · rcases hold fd₂ h₂ hh₂ with ⟨he₂, _⟩ | ⟨_, hm₂⟩
      · rw [he₁, he₂]
      · have hlt := hwf.conn_lt fd₂ h₂ hm₂
        rw [← heq, hn₁] at hlt
        exact absurd hlt (Nat.lt_irrefl _)
    · rcases hold fd₂ h₂ hh₂ with ⟨_, hn₂⟩ | ⟨_, hm₂⟩
      · have hlt := hwf.conn_lt fd₁ h₁ hm₁
        rw [heq, hn₂] at hlt
        exact absurd hlt (Nat.lt_irrefl _)
      · exact hwf.conn_inj fd₁ fd₂ h₁ h₂ hm₁ hm₂ heq
  · intro o ho
    have ho' : o ∈ w.trace ++ [.accepted w.nextConn fd] := ho
    rcases List.mem_append.1 ho' with hold | hnew
    · exact Nat.lt_succ_of_lt (hwf.trace_lt o hold)
    · obtain rfl := List.mem_singleton.1 hnew
      exact Nat.lt_succ_self _
  · intro fd'
    have hclients : fd' ∈ (w.ctlEvent fd true).wsClients ↔ fd' ∈ w.wsClients := Iff.rfl
    rw [hclients, hwf.mem_wsClients fd']
    constructor
    · rintro ⟨h', hh', hs⟩
      exact ⟨h', hkeep fd' h' hh', hs⟩
    · rintro ⟨h', hh', hs⟩
      rcases hold fd' h' hh' with ⟨_, rfl⟩ | ⟨_, hh'⟩
      · cases hs
      · exact ⟨h', hh', hs⟩
  · obtain ⟨h', hh', hs⟩ := hwf.listener
    exact ⟨h', hkeep _ h' hh', hs⟩
  · intro fd' h' hh' hs
    rcases hold fd' h' hh' with ⟨_, rfl⟩ | ⟨_, hh'⟩
    · rfl
    · exact hwf.writeBuf fd' h' hh' hs

/-- The upgrade makes a client of the descriptor. -/
theorem WellFormed.upgrade (hwf : w.WellFormed) {fd : Fd} {h : WebsocketHandler}
    {headerMap : HeaderMap} {rest : Bytes} (hu : w.Upgrades fd h headerMap rest w')
    (hfd : w.websocketHandlerMap fd = some h) (hne : fd ≠ w.listenfd) : w'.WellFormed := by
  have hold (fd' : Fd) (h' : WebsocketHandler) (hh' : w'.websocketHandlerMap fd' = some h') :
      fd' = fd ∧ h' = h.upgraded headerMap rest ∨
        fd' ≠ fd ∧ w.websocketHandlerMap fd' = some h' := by
    by_cases he : fd' = fd
    · rw [hu.map, he, Function.update_self] at hh'
      exact Or.inl ⟨he, (Option.some.inj hh').symm⟩
    · rw [hu.map, Function.update_of_ne he] at hh'
      exact Or.inr ⟨he, hh'⟩
  -- the handler keeps its number and its descriptor
  have hbefore (fd' : Fd) (h' : WebsocketHandler) (hh' : w'.websocketHandlerMap fd' = some h') :
      ∃ h₀, w.websocketHandlerMap fd' = some h₀ ∧ h'.conn = h₀.conn ∧ h'.fd = h₀.fd := by
    rcases hold fd' h' hh' with ⟨rfl, rfl⟩ | ⟨_, hh'⟩
    · exact ⟨h, hfd, rfl, rfl⟩
    · exact ⟨h', hh', rfl, rfl⟩
  have hlisten (fd' : Fd) (he : fd' ≠ fd) :
      w'.websocketHandlerMap fd' = w.websocketHandlerMap fd' := by
    rw [hu.map, Function.update_of_ne he]
  refine ⟨?_, ?_, ?_, ?_, ?_, ?_, ?_, ?_, ?_, ?_⟩
  · intro fd' h' hh'
    obtain ⟨h₀, hh₀, _, hf⟩ := hbefore fd' h' hh'
    rw [hf]
    exact hwf.own fd' h₀ hh₀
  · intro fd' h' hh' hl
    obtain ⟨h₀, hh₀, _⟩ := hbefore fd' h' hh'
    exact hwf.nonneg fd' h₀ hh₀ (by rw [← hu.listenfd]; exact hl)
  · intro fd' h' hh'
    obtain ⟨h₀, hh₀, hc, _⟩ := hbefore fd' h' hh'
    rw [hc, hu.nextConn]
    exact hwf.conn_lt fd' h₀ hh₀
  · intro fd₁ fd₂ h₁ h₂ hh₁ hh₂ heq
    obtain ⟨h₁', hh₁', hc₁, _⟩ := hbefore fd₁ h₁ hh₁
    obtain ⟨h₂', hh₂', hc₂, _⟩ := hbefore fd₂ h₂ hh₂
    exact hwf.conn_inj fd₁ fd₂ h₁' h₂' hh₁' hh₂' (by rw [← hc₁, ← hc₂, heq])
  · intro o ho
    rw [hu.nextConn]
    rw [hu.trace] at ho
    rcases List.mem_append.1 ho with hold | hnew
    · exact hwf.trace_lt o hold
    · have hc : o.conn = h.conn := by
        simp only [List.mem_cons, List.not_mem_nil, or_false] at hnew
        rcases hnew with rfl | rfl | rfl
        · rfl
        · rfl
        · rfl
      rw [hc]
      exact hwf.conn_lt fd h hfd
  · rw [hu.wsClients]
    exact hwf.nodup.insert
  · intro fd'
    rw [hu.wsClients, List.mem_insert_iff, hwf.mem_wsClients fd']
    by_cases he : fd' = fd
    · rw [hu.map, he, Function.update_self]
      simp [WebsocketHandler.upgraded]
    · rw [hlisten fd' he]
      simp [he]
  · obtain ⟨h', hh', hs⟩ := hwf.listener
    refine ⟨h', ?_, hs⟩
    rw [hu.listenfd, hlisten _ (Ne.symm hne)]
    exact hh'
  · rw [hu.listenfd, hu.pending]
    exact hwf.listener_pending
  · intro fd' h' hh' hs
    rcases hold fd' h' hh' with ⟨_, rfl⟩ | ⟨_, hh'⟩
    · cases hs
    · exact hwf.writeBuf fd' h' hh' hs

/-- Closing forgets connections and changes none. -/
theorem WellFormed.close (hwf : w.WellFormed) {fds : List Fd}
    (hmem : ∀ fd, fd ∈ fds ↔ fd ∈ w.pendingCloses) (hc : w.Closes fds w')
    (hempty : w'.pendingCloses = []) : w'.WellFormed := by
  have hbefore (fd : Fd) (h : WebsocketHandler) (hh : w'.websocketHandlerMap fd = some h) :
      fd ∉ fds ∧ w.websocketHandlerMap fd = some h := by
    rw [hc.map fd] at hh
    split_ifs at hh with hin
    exact ⟨hin, hh⟩
  refine ⟨?_, ?_, ?_, ?_, ?_, ?_, ?_, ?_, ?_, ?_⟩
  · intro fd h hh
    exact hwf.own fd h (hbefore fd h hh).2
  · intro fd h hh hl
    exact hwf.nonneg fd h (hbefore fd h hh).2 (by rw [← hc.listenfd]; exact hl)
  · intro fd h hh
    rw [hc.nextConn]
    exact hwf.conn_lt fd h (hbefore fd h hh).2
  · intro fd₁ fd₂ h₁ h₂ hh₁ hh₂ heq
    exact hwf.conn_inj fd₁ fd₂ h₁ h₂ (hbefore fd₁ h₁ hh₁).2 (hbefore fd₂ h₂ hh₂).2 heq
  · intro o ho
    rw [hc.nextConn]
    rw [hc.trace] at ho
    rcases List.mem_append.1 ho with hold | hnew
    · exact hwf.trace_lt o hold
    · obtain ⟨fd, _, ho⟩ := List.mem_filterMap.1 hnew
      obtain ⟨h, hh, rfl⟩ := Option.map_eq_some_iff.1 ho
      exact hwf.conn_lt fd h hh
  · exact hwf.nodup.sublist hc.sublist
  · intro fd
    rw [hc.mem_wsClients fd, hwf.mem_wsClients fd, hc.map fd]
    by_cases hin : fd ∈ fds
    · simp only [hin, if_true, true_and]
      constructor
      · rintro ⟨⟨h, hh, _⟩, hnone⟩
        exact absurd (by simp [hh]) hnone
      · rintro ⟨h, hh, _⟩
        cases hh
    · simp [hin]
  · obtain ⟨h, hh, hs⟩ := hwf.listener
    have hnot : w.listenfd ∉ fds := by
      rw [hmem]
      exact hwf.listener_pending
    exact ⟨h, by rw [hc.listenfd, hc.map, if_neg hnot]; exact hh, hs⟩
  · rw [hempty]
    exact List.not_mem_nil
  · intro fd h hh hs
    exact hwf.writeBuf fd h (hbefore fd h hh).2 hs

end NetworkInterface

namespace Pc

variable {once : Prop} {w w' : NetworkInterface} {pc : Pc} {fd : Fd} {es : List EpollEvent}

/-- Where control is at no connection. -/
theorem WellFormed.of_none (hcur : pc.current = none)
    (hnd : once → (pc.rest.map EpollEvent.fd).Nodup) : pc.WellFormed once w := by
  refine ⟨?_, ?_, hnd, ?_⟩
  · intro fd hfd
    rw [hcur] at hfd
    cases hfd
  · rintro fd es rfl
    cases hcur
  · intro _ fd hfd
    rw [hcur] at hfd
    cases hfd

theorem WellFormed.batch (hwf : pc.WellFormed once w) (hrest : pc.rest = es) :
    (Pc.batch es).WellFormed once w' :=
  WellFormed.of_none rfl (by rw [← hrest]; exact hwf.nodup)

/-- Where control is at a connection that is not in the frame loop. -/
theorem WellFormed.of_some {h : WebsocketHandler} (hcur : pc.current = some fd)
    (hframes : ∀ fd es, pc = .frames fd es →
      ∃ h, w.websocketHandlerMap fd = some h ∧ h.status = .handsharked)
    (hl : fd ≠ w.listenfd) (hfd : w.websocketHandlerMap fd = some h)
    (hnd : once → (fd :: pc.rest.map EpollEvent.fd).Nodup) : pc.WellFormed once w := by
  refine ⟨?_, hframes, fun ho => (hnd ho).of_cons, ?_⟩
  · intro fd' hfd'
    rw [hcur, Option.mem_some_iff] at hfd'
    subst hfd'
    exact ⟨hl, h, hfd⟩
  · intro ho fd' hfd'
    rw [hcur, Option.mem_some_iff] at hfd'
    subst hfd'
    exact (List.nodup_cons.1 (hnd ho)).1

/-- The connection control is at, and the events behind it. -/
theorem WellFormed.nodup_cons (hwf : pc.WellFormed once w) (hcur : pc.current = some fd) :
    once → (fd :: pc.rest.map EpollEvent.fd).Nodup := fun ho =>
  List.nodup_cons.2 ⟨hwf.current_rest ho fd (by rw [hcur]; rfl), hwf.nodup ho⟩

end Pc

namespace Loop

variable {once : Prop} {s s' : Loop}

/-- Turns that touch no handler. -/
theorem pcTurn_wellFormed {q : Option Fd} {w' : NetworkInterface} {pc' : Pc}
    (hwf : s.WellFormed once)
    (hbatch : once → s.pc = .waiting → (pc'.rest.map EpollEvent.fd).Nodup)
    (ht : PcTurn s q pc') (hmap : w'.websocketHandlerMap = s.worker.websocketHandlerMap)
    (hlisten : w'.listenfd = s.worker.listenfd) :
    pc'.WellFormed once w' ∧ q ≠ some s.worker.listenfd := by
  have hcur {fd : Fd} (hc : s.pc.current = some fd) :
      fd ≠ s.worker.listenfd ∧ ∃ h, s.worker.websocketHandlerMap fd = some h :=
    hwf.pc.current fd (by rw [hc]; rfl)
  have hcurne {fd : Fd} (hc : s.pc.current = some fd) : some fd ≠ some s.worker.listenfd := by
    intro he
    exact (hcur hc).1 (Option.some.inj he)
  cases ht with
  | rehash =>
      refine ⟨⟨?_, ?_, hwf.pc.nodup, hwf.pc.current_rest⟩, by simp⟩
      · rw [hmap, hlisten]
        exact hwf.pc.current
      · rw [hmap]
        exact hwf.pc.frames
  | epollWait es hpc => exact ⟨Pc.WellFormed.of_none rfl (fun ho => hbatch ho hpc), by simp⟩
  | listen ev es hpc _ =>
      have hnd := hwf.pc.nodup
      rw [hpc] at hnd
      exact ⟨Pc.WellFormed.of_none rfl (fun ho => (hnd ho).of_cons), by simp⟩
  | acceptFail es hpc => exact ⟨hwf.pc.batch (by rw [hpc]; rfl), by simp⟩
  | skip ev es hpc _ =>
      have hnd := hwf.pc.nodup
      rw [hpc] at hnd
      exact ⟨Pc.WellFormed.of_none rfl (fun ho => (hnd ho).of_cons), by simp⟩
  | hangup ev es hpc hne =>
      have hnd := hwf.pc.nodup
      rw [hpc] at hnd
      exact ⟨Pc.WellFormed.of_none rfl (fun ho => (hnd ho).of_cons), by simpa using hne⟩
  | writable ev es h hpc hne hfd =>
      have hnd := hwf.pc.nodup
      rw [hpc] at hnd
      exact ⟨Pc.WellFormed.of_some rfl (by simp) (by rw [hlisten]; exact hne)
        (by rw [hmap]; exact hfd) hnd, by simp⟩
  | readError fd es hpc =>
      exact ⟨hwf.pc.batch (by rw [hpc]; rfl), hcurne (by rw [hpc]; rfl)⟩
  | wait fd es h hpc _ _ _ => exact ⟨hwf.pc.batch (by rw [hpc]; rfl), by simp⟩
  | drive fd es h hpc hfd hs =>
      have hc : s.pc.current = some fd := by rw [hpc]; rfl
      have hnd := hwf.pc.nodup_cons hc
      have hl := (hcur hc).1
      rw [hpc] at hnd
      refine ⟨Pc.WellFormed.of_some rfl ?_ (by rw [hlisten]; exact hl)
        (by rw [hmap]; exact hfd) hnd, by simp⟩
      intro fd' es' he
      injection he with he _
      subst he
      exact ⟨h, by rw [hmap]; exact hfd, hs⟩
  | flushed fd es hpc => exact ⟨hwf.pc.batch (by rw [hpc]; rfl), by simp⟩
  | sendError fd es hpc =>
      exact ⟨hwf.pc.batch (by rw [hpc]; rfl), hcurne (by rw [hpc]; rfl)⟩

/-- The loop stays at a connection. -/
theorem stay_wellFormed (hwf : s.WellFormed once) {w' : NetworkInterface} {pc' : Pc} {fd : Fd}
    {h' : WebsocketHandler} (hcur : s.pc.current = some fd) (hcur' : pc'.current = some fd)
    (hrest : pc'.rest = s.pc.rest) (hfd : w'.websocketHandlerMap fd = some h')
    (hlisten : w'.listenfd = s.worker.listenfd)
    (hframes : ∀ es, pc' = .frames fd es → h'.status = .handsharked) :
    pc'.WellFormed once w' := by
  have hl := (hwf.pc.current fd (by rw [hcur]; rfl)).1
  refine Pc.WellFormed.of_some hcur' ?_ (by rw [hlisten]; exact hl) hfd ?_
  · intro fd' es he
    have he' : fd' = fd := by
      rw [he] at hcur'
      exact Option.some.inj hcur'
    subst he'
    exact ⟨h', hfd, hframes es he⟩
  · rw [hrest]
    exact hwf.pc.nodup_cons hcur

/-- The registry and the place where control is. -/
theorem turn_registry (hwf : s.WellFormed once)
    (hbatch : once → s.pc = .waiting → (s'.pc.rest.map EpollEvent.fd).Nodup)
    (ht : Turn s s') : s'.worker.WellFormed ∧ s'.pc.WellFormed once s'.worker := by
  have hw := hwf.worker
  have hl {fd : Fd} (hc : s.pc.current = some fd) : fd ≠ s.worker.listenfd :=
    (hwf.pc.current fd (by rw [hc]; rfl)).1
  -- a connection control is at may be queued for closing, the listener not
  have hpend {fd : Fd} (hc : s.pc.current = some fd) :
      ¬ (s.worker.listenfd ∈ s.worker.pendingCloses ∨ s.worker.listenfd = fd ∧ 0 ≤ fd) := by
    rintro (hm | ⟨he, _⟩)
    · exact hw.listener_pending hm
    · exact hl hc he.symm
  -- the trace grows by operations of the connection control is at
  have hnew {fd : Fd} {h : WebsocketHandler} (hfd : s.worker.websocketHandlerMap fd = some h)
      {o : Obs} (ho : o.conn = h.conn) :
      ∀ o' ∈ s.worker.trace ++ [o], o' ∈ s.worker.trace ∨ o'.conn < s.worker.nextConn := by
    intro o' ho'
    rcases List.mem_append.1 ho' with hold | hnew
    · exact Or.inl hold
    · obtain rfl := List.mem_singleton.1 hnew
      rw [ho]
      exact Or.inr (hw.conn_lt fd h hfd)
  cases ht with
  | quiet hpc hs =>
      obtain ⟨hpc', hq⟩ := pcTurn_wellFormed hwf hbatch hpc hs.map hs.listenfd
      refine ⟨hw.of_keeps ?_ hs.perm hs.listenfd hs.nextConn ?_ ?_, hpc'⟩
      · intro fd
        rw [hs.map]
        exact NetworkInterface.keeps_refl _
      · intro o ho
        rw [hs.trace] at ho
        exact Or.inl ho
      · rw [hs.pending]
        rintro (hm | ⟨he, _⟩)
        · exact hw.listener_pending hm
        · exact hq he
  | accept hpc h0 hne hfd =>
      exact ⟨hw.accept h0 hne hfd, Pc.WellFormed.of_none rfl (by
        have hnd := hwf.pc.nodup
        rw [hpc] at hnd
        exact hnd)⟩
  | @readable ev es h hpc hne hfd =>
      refine ⟨hw.of_keeps (fun _ => NetworkInterface.keeps_refl _) (List.Perm.refl _) rfl rfl
        (hnew hfd rfl) hw.listener_pending, ?_⟩
      have hnd := hwf.pc.nodup
      rw [hpc] at hnd
      exact Pc.WellFormed.of_some rfl (by simp) hne hfd hnd
  | @received fd es h data hpc hfd _ _ _ =>
      have hc : s.pc.current = some fd := by rw [hpc]; rfl
      refine ⟨hw.of_keeps (NetworkInterface.keeps_update hfd rfl ⟨rfl, rfl, rfl, fun _ => rfl⟩)
        (List.Perm.refl _) rfl rfl (hnew hfd rfl) hw.listener_pending, ?_⟩
      exact stay_wellFormed hwf hc rfl (by rw [hpc]) (Function.update_self _ _ _) rfl
        (fun _ he => by cases he)
  | @readRefused fd es h data hpc hfd _ _ _ =>
      have hc : s.pc.current = some fd := by rw [hpc]; rfl
      refine ⟨hw.of_keeps ?_ (by simp) (by simp) (by simp) ?_ (by simpa using hpend hc),
        hwf.pc.batch (by rw [hpc]; rfl)⟩
      · intro fd'
        simpa using NetworkInterface.keeps_refl _
      · simpa using hnew hfd rfl
  | @eof fd es h hpc hfd =>
      have hc : s.pc.current = some fd := by rw [hpc]; rfl
      refine ⟨hw.of_keeps ?_ (by simp) (by simp) (by simp) ?_ (by simpa using hpend hc),
        hwf.pc.batch (by rw [hpc]; rfl)⟩
      · intro fd'
        simpa using NetworkInterface.keeps_refl _
      · simpa using hnew hfd rfl
  | @reject fd es h readBuf headerMap hpc hfd _ _ =>
      have hc : s.pc.current = some fd := by rw [hpc]; rfl
      refine ⟨hw.of_keeps ?_ (by simp) (by simp) (by simp) ?_ (by simpa using hpend hc),
        hwf.pc.batch (by rw [hpc]; rfl)⟩
      · have hk : h.Keeps { h with readBuf := readBuf, headerMap := headerMap } :=
          ⟨rfl, rfl, rfl, fun _ => rfl⟩
        exact NetworkInterface.keeps_update hfd (by simp) hk
      · simpa using hnew hfd rfl
  | @upgrade fd es h headerMap rest w' hpc hfd hs hup hu =>
      have hc : s.pc.current = some fd := by rw [hpc]; rfl
      refine ⟨hw.upgrade hu hfd (hl hc), ?_⟩
      exact stay_wellFormed hwf hc rfl (by rw [hpc]; rfl) (by rw [hu.map, Function.update_self])
        hu.listenfd (fun _ _ => rfl)
  | @more fd es h request hpc hfd hs _ =>
      have hc : s.pc.current = some fd := by rw [hpc]; rfl
      exact ⟨hw.of_keeps (NetworkInterface.keeps_update hfd rfl ⟨rfl, rfl, rfl, fun _ => rfl⟩)
        (List.Perm.refl _) rfl rfl (fun _ ho => Or.inl ho) hw.listener_pending,
        hwf.pc.batch (by rw [hpc]; rfl)⟩
  | @bad fd es h request hpc hfd hs _ =>
      have hc : s.pc.current = some fd := by rw [hpc]; rfl
      refine ⟨hw.of_keeps ?_ (by simp) (by simp) (by simp) ?_ (by simpa using hpend hc),
        hwf.pc.batch (by rw [hpc]; rfl)⟩
      · have hk : h.Keeps { h with request := request } := ⟨rfl, rfl, rfl, fun _ => rfl⟩
        exact NetworkInterface.keeps_update hfd (by simp) hk
      · simpa using hnew hfd rfl
  | @handle fd es h f rest request w' hpc hfd hs hspec hh =>
      have hc : s.pc.current = some fd := by rw [hpc]; rfl
      have hself := hh.map fd
      rw [if_pos rfl] at hself
      refine ⟨hw.of_keeps ?_ (by rw [hh.wsClients]) hh.listenfd hh.nextConn (hh.trace_lt hw hfd) ?_,
        ?_⟩
      · refine hh.keeps hw hfd ⟨by simp, by simp, by simp, ?_⟩
        intro hu
        rw [hs] at hu
        cases hu
      · rw [hh.pending]
        rintro (hm | ⟨he, _⟩ | ⟨hm, _⟩)
        · exact hw.listener_pending hm
        · exact hl hc he.symm
        · obtain ⟨h₁, hh₁, hs₁⟩ := (hw.mem_wsClients _).1 hm
          obtain ⟨h₂, hh₂, hs₂⟩ := hw.listener
          rw [hh₁, Option.some.injEq] at hh₂
          rw [hh₂, hs₂] at hs₁
          cases hs₁
      · exact stay_wellFormed hwf hc rfl (by rw [hpc]) hself hh.listenfd
          (fun _ _ => by simp [hs])
  | @sent fd es h n hpc hfd _ _ =>
      have hc : s.pc.current = some fd := by rw [hpc]; rfl
      refine ⟨hw.of_keeps (NetworkInterface.keeps_update hfd rfl ⟨rfl, rfl, rfl, ?_⟩)
        (List.Perm.refl _) rfl rfl (hnew hfd rfl) hw.listener_pending, ?_⟩
      · intro hs
        simp [hw.writeBuf fd h hfd hs]
      · exact stay_wellFormed hwf hc rfl (by rw [hpc]) (Function.update_self _ _ _) rfl
          (fun _ he => by cases he)
  | close hpc hnd hmem hcl hempty =>
      exact ⟨hw.close hmem hcl hempty, Pc.WellFormed.of_none rfl (fun _ => List.nodup_nil)⟩

/-- The loop waits again only when the close queue has been drained. -/
theorem turn_waiting (hwf : s.WellFormed once) (ht : Turn s s') (hpc' : s'.pc = .waiting) :
    s'.worker.pendingCloses = [] := by
  cases ht with
  | @quiet q w' pc' hpc hs =>
      dsimp only at hpc'
      subst hpc'
      generalize hw : Pc.waiting = pc at hpc
      cases hpc with
      | rehash =>
          have hempty := hwf.waiting hw.symm
          refine List.eq_nil_iff_forall_not_mem.2 ?_
          intro fd hm
          rw [hs.pending, hempty] at hm
          simp at hm
      | _ => cases hw
  | close _ _ _ _ hempty => exact hempty
  | _ => cases hpc'

/-- **Every turn keeps the invariant.** -/
theorem turn_wellFormed (hwf : s.WellFormed once)
    (hbatch : once → s.pc = .waiting → (s'.pc.rest.map EpollEvent.fd).Nodup)
    (ht : Turn s s') : s'.WellFormed once := by
  obtain ⟨hworker, hpc⟩ := turn_registry hwf hbatch ht
  exact ⟨hworker, hpc, turn_waiting hwf ht⟩

/-- The worker is well formed when the loop is entered. -/
theorem init_wellFormed (listenfd : Fd) : (init listenfd).WellFormed once := by
  have hmap (fd : Fd) (h : WebsocketHandler)
      (hh : (init listenfd).worker.websocketHandlerMap fd = some h) :
      fd = listenfd ∧ h = WebsocketHandler.new 0 listenfd := by
    have hh' : Function.update (fun _ => none) listenfd
        (some (WebsocketHandler.new 0 listenfd)) fd = some h := hh
    by_cases he : fd = listenfd
    · rw [he, Function.update_self] at hh'
      exact ⟨he, (Option.some.inj hh').symm⟩
    · rw [Function.update_of_ne he] at hh'
      cases hh'
  have hself : (init listenfd).worker.websocketHandlerMap listenfd =
      some (WebsocketHandler.new 0 listenfd) := by
    simp [init, NetworkInterface.init, NetworkInterface.ctlEvent]
  refine ⟨⟨?_, ?_, ?_, ?_, ?_, List.nodup_nil, ?_, ⟨_, hself, rfl⟩, List.not_mem_nil, ?_⟩,
    Pc.WellFormed.of_none rfl (fun _ => List.nodup_nil), fun _ => rfl⟩
  · intro fd h hh
    obtain ⟨rfl, rfl⟩ := hmap fd h hh
    rfl
  · intro fd h hh hne
    exact absurd (hmap fd h hh).1 hne
  · intro fd h hh
    obtain ⟨_, rfl⟩ := hmap fd h hh
    exact Nat.zero_lt_one
  · intro fd₁ fd₂ h₁ h₂ hh₁ hh₂ _
    rw [(hmap fd₁ h₁ hh₁).1, (hmap fd₂ h₂ hh₂).1]
  · intro o ho
    have ho' : o ∈ [Obs.accepted 0 listenfd] := ho
    obtain rfl := List.mem_singleton.1 ho'
    exact Nat.zero_lt_one
  · intro fd
    constructor
    · intro hm
      cases hm
    · rintro ⟨h, hh, hs⟩
      obtain ⟨_, rfl⟩ := hmap fd h hh
      cases hs
  · intro fd h hh _
    obtain ⟨_, rfl⟩ := hmap fd h hh
    rfl

/-- A batch names each descriptor once where `epoll_wait` keeps its contract. -/
theorem nodup_of_contract {i : Input} (hc : EpollContract s i) (hstep : step s i = some s')
    (hpc : s.pc = .waiting) : (s'.pc.rest.map EpollEvent.fd).Nodup := by
  rcases step_waiting hpc hstep with ⟨es, rfl, rfl⟩ | ⟨order, rfl, hpc'⟩
  · exact hc.1
  · rw [hpc']
    exact List.nodup_nil

/-- What an environment promises about the descriptors of a batch. -/
def Promises (ok : Loop → Input → Prop) (once : Prop) : Prop :=
  ∀ s i, ok s i → once → EpollContract s i

theorem promises_anyBatch : Promises AnyBatch False := fun _ _ _ h => h.elim

theorem promises_epollContract : Promises EpollContract True := fun _ _ h _ => h

/-- A step from a well-formed state. -/
theorem step_wellFormed {ok : Loop → Input → Prop} (hok : Promises ok once) {i : Input}
    (hwf : s.WellFormed once) (hi : ok s i) (hstep : step s i = some s') : s'.WellFormed once :=
  turn_wellFormed hwf (fun ho hpc => nodup_of_contract (hok s i hi ho) hstep hpc)
    (step_turn hwf hstep)

/-- A run from a well-formed state. -/
theorem reaches_wellFormed {ok : Loop → Input → Prop} (hok : Promises ok once)
    (hwf : s.WellFormed once) (h : Transition.Reaches step ok s s') : s'.WellFormed once :=
  Transition.Reaches.invariant hwf
    (fun _ _ _ hwf hi hstep => step_wellFormed hok hwf hi hstep) h

/-- **Every reachable state is well formed.** -/
theorem reachable_wellFormed {ok : Loop → Input → Prop} (hok : Promises ok once) {listenfd : Fd}
    (h : Reachable ok listenfd s) : s.WellFormed once :=
  reaches_wellFormed hok (init_wellFormed listenfd) h

end Loop

end WebSocketDemo
