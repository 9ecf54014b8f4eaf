/-
**What a worker has done for a connection**, live or closed.

The account of a live connection adds up, and a connection is closed with the account it has.
`Served` collects what is left of it for ever: what was taken of what was read, what the header
block led to, which frames were handled and what was sent in return.  All of it is read off the
history, so that it can be put together with the other end of the connection.

Main definitions:

* `Served` — what the history says of a connection.

Main results:

* `Refusals.step` — **nothing is taken behind a chunk that was refused**;
* `Loop.served` — **the history of every connection there has been**.
-/

import WebSocketDemo.Broadcast
import WebSocketDemo.Fragments
import WebSocketDemo.Grouping

set_option relaxedAutoImplicit false
set_option autoImplicit false

namespace WebSocketDemo

open PrefixDecoder Rfc6455

/-! ### What is read -/

section Refusals

variable {once : Prop} {v v' : View} {g : List Frame} {a b : List Obs}

/-- All that was read has been taken, or the connection is about to be closed. -/
structure Refusals (v : View) (a : List Obs) : Prop where
  taken : receivedBytes a <+: readBytes a
  all : receivedBytes a = readBytes a ∨ Ending v

/-- **Nothing is taken behind a chunk that was refused.** -/
theorem Refusals.step (hd : Dispatched v) (hr : Refusals v a) (h : ConnStep once v g b v') :
    Refusals v' (a ++ b) := by
  -- a step in which nothing is read
  have hquiet (h₁ : receivedBytes b = []) (h₂ : readBytes b = []) : Refusals v' (a ++ b) := by
    have htaken : receivedBytes (a ++ b) = receivedBytes a := by
      rw [receivedBytes_append, h₁, List.append_nil]
    have hread : readBytes (a ++ b) = readBytes a := by rw [readBytes_append, h₂, List.append_nil]
    refine ⟨by rw [htaken, hread]; exact hr.taken, ?_⟩
    rw [htaken, hread]
    exact hr.all.imp_right fun he => (he.step (b := []) h).1
  -- something can only be read while nothing has been refused
  have hall (hp : v.phase = .reading) : receivedBytes a = readBytes a := by
    refine hr.all.resolve_right fun he => ?_
    rcases he.phase with hi | hf
    · cases hp.symm.trans hi
    · cases hp.symm.trans hf
  cases h with
  | quiet hm => exact hquiet rfl rfl
  | received data hp _ _ _ =>
      have hsame : receivedBytes (a ++ [.received v.handler.conn data]) =
          readBytes (a ++ [.received v.handler.conn data]) := by
        rw [receivedBytes_append, readBytes_append, hall hp]
        rfl
      exact ⟨by rw [hsame], Or.inl hsame⟩
  | readRefused data hp _ _ _ =>
      refine ⟨?_, Or.inr ⟨rfl, hd (by rw [hp]; decide), Or.inl rfl⟩⟩
      rw [receivedBytes_append, readBytes_append, hall hp]
      exact (List.prefix_append_right_inj _).2 List.nil_prefix
  | handle f rest request _ _ _ =>
      exact hquiet (receivedBytes_offerObs v.handler true (reply f))
        (readBytes_offerObs v.handler true (reply f))
  | relay f _ _ _ =>
      exact hquiet (receivedBytes_offerObs v.handler false (relay f))
        (readBytes_offerObs v.handler false (relay f))
  | _ => exact hquiet rfl rfl

end Refusals

/-! ### What is left for ever -/

/-- What the history `a` of the connection `c` says, where `log` are the text frames handled since
it was registered. -/
structure Served (c : ℕ) (a : List Obs) (log : List Frame) : Prop where
  taken : receivedBytes a <+: readBytes a
  once : a.countP Obs.isUpgraded ≤ 1
  admitted : ∀ m rest, Obs.upgraded c m rest ∈ a → Admitted a c m rest
  frames : ∃ readBuf, frameDecoder.Decodes (inbound a) (handledFrames a) readBuf
  sent : sentBytes a <+: (takenData (offers a)).flatten
  texts : offeredTexts a <+: log.filterMap relay
  /-- Without an upgrade nothing is handled and nothing is offered. -/
  outside : (∀ m rest, Obs.upgraded c m rest ∉ a) → offers a = [] ∧ handledFrames a = []
  /-- The response is offered first. -/
  inside : ∀ m rest, Obs.upgraded c m rest ∈ a → ∃ os,
    offers a = ⟨(parseStr m).2, true, true⟩ :: os ∧ ∀ o ∈ os, Justified (handledFrames a) o

section Life

variable {v : View} {c : ℕ} {a : List Obs} {log log' : List Frame}

/-- What is known of a live connection. -/
theorem Account.served (hacc : Account v a) (hg : Greeting v a) (hone : a.countP Obs.isUpgraded ≤ 1)
    (hr : Refusals v a) (htexts : offeredTexts a <+: log.filterMap relay) :
    Served v.handler.conn a log := by
  have hsent : sentBytes a <+: (takenData (offers a)).flatten := ⟨_, hacc.stream⟩
  cases hs : v.handler.status with
  | unconnect =>
      obtain ⟨hoffers, hhandled, hup, _⟩ := hacc.unconnect hs
      refine ⟨hr.taken, hone, hg.upgraded _, ⟨inbound a, ?_⟩, hsent, htexts,
        fun _ => ⟨hoffers, hhandled⟩, fun m rest hm => absurd hm (hup _ m rest)⟩
      rw [hhandled]
      exact Decoder.Decodes.nil _
  | handsharked =>
      obtain ⟨m₀, os, hup, ⟨rest₀, hmem₀⟩, _⟩ := hacc.handsharked hs
      refine ⟨hr.taken, hone, hg.upgraded _, ⟨_, hup.inbound⟩, hsent, htexts,
        fun hno => absurd hmem₀ (hno m₀ rest₀), fun m rest hm => ⟨os, ?_, hup.justified⟩⟩
      -- all upgrades read the same header block
      obtain ⟨block, hblock, hfetch⟩ := (hg.upgraded _ _ _ hm).headers
      obtain ⟨block₀, hblock₀, hfetch₀⟩ := (hg.upgraded _ _ _ hmem₀).headers
      rw [hblock, Option.some.injEq] at hblock₀
      subst hblock₀
      rw [hfetch, Prod.mk.injEq] at hfetch₀
      rw [hup.offers, hfetch₀.2]

theorem Served.closed (h : Served c a log) (fd : Fd) : Served c (a ++ [.closed c fd]) log := by
  have hmem (m : HeaderMap) (rest : Bytes) :
      Obs.upgraded c m rest ∈ a ++ [.closed c fd] ↔ Obs.upgraded c m rest ∈ a := by simp
  have hreceived : receivedBytes (a ++ [.closed c fd]) = receivedBytes a := by simp [receivedBytes]
  have hread : readBytes (a ++ [.closed c fd]) = readBytes a := by simp [readBytes]
  have hoffers : offers (a ++ [.closed c fd]) = offers a := by simp [offers]
  have hhandled : handledFrames (a ++ [.closed c fd]) = handledFrames a := by simp [handledFrames]
  have hsent : sentBytes (a ++ [.closed c fd]) = sentBytes a := by simp [sentBytes]
  have hinbound : inbound (a ++ [.closed c fd]) = inbound a := inbound_snoc a _
  refine ⟨by rw [hreceived, hread]; exact h.taken, ?_,
    ?_, by rw [hinbound, hhandled]; exact h.frames,
    by rw [hsent, hoffers]; exact h.sent, ?_, ?_, ?_⟩
  · rw [List.countP_append]
    exact h.once
  · exact fun m rest hm => (h.admitted m rest ((hmem m rest).1 hm)).append _
  · rw [offeredTexts, hoffers]
    exact h.texts
  · simp only [hmem, hoffers, hhandled]
    exact h.outside
  · simp only [hmem, hoffers, hhandled]
    exact h.inside

/-- The log goes on. -/
theorem Served.mono (h : Served c a log) (hlog : log <+: log') : Served c a log' :=
  { h with texts := h.texts.trans (hlog.filterMap relay) }

/-- Nothing is known of a connection there has not been yet. -/
theorem served_nil : Served c [] [] where
  taken := List.prefix_rfl
  once := Nat.zero_le _
  admitted := fun _ _ hm => absurd hm List.not_mem_nil
  frames := ⟨[], Decoder.Decodes.nil _⟩
  sent := List.prefix_rfl
  texts := List.prefix_rfl
  outside := fun _ => ⟨rfl, rfl⟩
  inside := fun _ _ hm => absurd hm List.not_mem_nil

theorem logSince_mono (c : ℕ) (τ δ : List Obs) : logSince c τ <+: logSince c (τ ++ δ) := by
  by_cases hm : .registered c ∈ τ
  · rw [logSince_append_of_mem hm]
    exact List.prefix_append _ _
  · rw [logSince_of_not_mem hm]
    exact List.nil_prefix

end Life

namespace Loop

variable {listenfd : Fd} {s : Loop}

/-- What is known around a step of a connection. -/
structure Known (v : View) (τ' : List Obs) (v' : View) : Prop where
  dispatched : Dispatched v
  noHeaders : NoHeaders v
  follows : Follows τ' v'

/-- All that is kept of a live connection. -/
structure Kept (τ : List Obs) (v : View) : Prop where
  account : Account v (about v.handler.conn τ)
  greeting : Greeting v (about v.handler.conn τ)
  once : (about v.handler.conn τ).countP Obs.isUpgraded ≤ 1
  refusals : Refusals v (about v.handler.conn τ)
  texts : offeredTexts (about v.handler.conn τ) <+: (logSince v.handler.conn τ).filterMap relay

theorem kept_new (τ : List Obs) (c : ℕ) (fd : Fd) (p u : Bool) (hτ : ∀ o ∈ τ, o.conn ≠ c) :
    Kept (τ ++ [.accepted c fd]) ⟨WebsocketHandler.new c fd, .idle, p, u⟩ := by
  have habout : about c (τ ++ [.accepted c fd]) = [.accepted c fd] := about_new fd hτ
  refine ⟨account_new τ c fd p u hτ, greeting_new τ c fd p u hτ, ?_, ?_, ?_⟩
  · change (about c (τ ++ [.accepted c fd])).countP Obs.isUpgraded ≤ 1
    rw [habout]
    exact Nat.zero_le _
  · change Refusals _ (about c (τ ++ [.accepted c fd]))
    rw [habout]
    exact ⟨List.prefix_rfl, Or.inl rfl⟩
  · change offeredTexts (about c (τ ++ [.accepted c fd])) <+: _
    rw [habout]
    exact List.nil_prefix

theorem kept_step {τ δ : List Obs} {v v' : View} {g : List Frame} {a : List Obs}
    (ha : about v.handler.conn δ = a) (hstep : ConnStep True v g a v') (hK : Known v (τ ++ δ) v')
    (h : Kept τ v) : Kept (τ ++ δ) v' := by
  have htexts := hK.follows.texts
  rw [hstep.conn, about_append, ha] at htexts
  refine ⟨?_, ?_, ?_, ?_, ?_⟩
  · rw [hstep.conn, about_append, ha]
    exact h.account.step hstep
  · rw [hstep.conn, about_append, ha]
    exact h.greeting.step trivial hK.dispatched hK.noHeaders hstep
  · rw [hstep.conn, about_append, ha]
    exact countP_upgraded_step h.account h.once hstep
  · rw [hstep.conn, about_append, ha]
    exact h.refusals.step hK.dispatched hstep
  · rw [hstep.conn, about_append, ha, htexts]

theorem known {t u : Loop} {i : Input} {fd : Fd} {h h' : WebsocketHandler}
    (ht : Reachable EpollContract listenfd t) (hi : EpollContract t i) (hs : t.step i = some u)
    (hfd : t.worker.websocketHandlerMap fd = some h)
    (hfd' : u.worker.websocketHandlerMap fd = some h') :
    Known (t.view fd h) u.worker.trace (u.view fd h') := by
  obtain ⟨hd, hn⟩ := before_step ht hfd
  exact ⟨hd, hn, Loop.follows promises_epollContract (ht.tail i hi hs) hfd'⟩

theorem kept (hr : Reachable EpollContract listenfd s) {fd : Fd} {h : WebsocketHandler}
    (hfd : s.worker.websocketHandlerMap fd = some h) : Kept s.worker.trace (s.view fd h) :=
  conn_induction_between (K := fun _ v τ' v' => Known v τ' v') (P := Kept) promises_epollContract
    (fun _ _ _ _ _ _ ht hi hs hfd hfd' => known ht hi hs hfd hfd') kept_new
    (fun _ _ _ _ _ _ _ ha hstep hK h => kept_step ha hstep hK h) hr fd h hfd

/-- **The history of every connection there has been.** -/
theorem served (hr : Reachable EpollContract listenfd s) (c : ℕ) :
    Served c (about c s.worker.trace) (logSince c s.worker.trace) := by
  have hwf := reachable_wellFormed promises_epollContract hr
  by_cases hc : c < s.worker.nextConn
  · rcases conn_history_between (K := fun _ v τ' v' => Known v τ' v') (P := Kept)
      (Q := fun c τ => Served c (about c τ) (logSince c τ)) promises_epollContract
      (fun _ _ _ _ _ _ ht hi hs hfd hfd' => known ht hi hs hfd hfd') kept_new
      (fun τ δ v g a v' _ ha hstep hK h => kept_step ha hstep hK h)
      (fun τ δ v fd h _ _ _ htexts hab => by
        rw [about_append, hab, logSince_append_of_texts htexts]
        exact (h.account.served h.greeting h.once h.refusals h.texts).closed fd)
      (fun c τ δ hδ hQ => by
        rw [about_append, hδ, List.append_nil]
        exact hQ.mono (logSince_mono c τ δ)) hr c hc with ⟨fd, h, hfd, rfl⟩ | hclosed
    · have hkept := kept hr hfd
      exact hkept.account.served hkept.greeting hkept.once hkept.refusals hkept.texts
    · exact hclosed
  · have hnone : about c s.worker.trace = [] := by
      refine about_of_ne c fun o ho he => hc ?_
      rw [← he]
      exact hwf.worker.trace_lt o ho
    have hlog : logSince c s.worker.trace = [] := by
      refine logSince_of_not_mem fun hm => hc ?_
      exact hwf.worker.trace_lt _ hm
    rw [hnone, hlog]
    exact served_nil

/-! ### Which steps move bytes -/

end Loop

/-- Bytes have come from the kernel or gone to it. -/
def Obs.isTransfer : Obs → Bool
  | received _ _ => true
  | readRefused _ _ => true
  | sent _ _ => true
  | _ => false

/-- A worker has gone on without moving bytes. -/
def NetworkInterface.Quiet (w w' : NetworkInterface) : Prop :=
  ∃ δ, w'.trace = w.trace ++ δ ∧ ∀ o ∈ δ, o.isTransfer = false

section Quiet

variable {w w' : NetworkInterface}

theorem quiet_of_trace (h : w'.trace = w.trace) : w.Quiet w' :=
  ⟨[], by rw [h, List.append_nil], fun _ ho => absurd ho List.not_mem_nil⟩

theorem quiet_of_emit {o : Obs} (h : w'.trace = w.trace ++ [o]) (ho : o.isTransfer = false) :
    w.Quiet w' :=
  ⟨[o], h, fun _ ho' => by rw [List.mem_singleton.1 ho']; exact ho⟩

/-- Nothing is read and nothing is sent. -/
theorem bytes_of_quiet (h : w.Quiet w') (c : ℕ) :
    readBytes (about c w'.trace) = readBytes (about c w.trace) ∧
      sentBytes (about c w'.trace) = sentBytes (about c w.trace) := by
  obtain ⟨δ, htrace, hδ⟩ := h
  have hnone : ∀ o ∈ about c δ, o.isTransfer = false := fun o ho => hδ o (List.mem_of_mem_filter ho)
  have hread : readBytes (about c δ) = [] := by
    refine List.flatMap_eq_nil_iff.2 fun o ho => ?_
    have := hnone o ho
    cases o <;> first | rfl | cases this
  have hsent : sentBytes (about c δ) = [] := by
    refine List.flatMap_eq_nil_iff.2 fun o ho => ?_
    have := hnone o ho
    cases o <;> first | rfl | cases this
  rw [htrace, about_append, readBytes_append, sentBytes_append, hread, hsent, List.append_nil,
    List.append_nil]
  exact ⟨rfl, rfl⟩

end Quiet

namespace Loop

variable {once : Prop} {s t : Loop} {i : Input} {fd : Fd} {es : List EpollEvent}

theorem quiet_dispatch (w : NetworkInterface) (ev : EpollEvent) (es : List EpollEvent) :
    w.Quiet (dispatch w ev es).worker := by
  unfold dispatch
  split_ifs
  · exact quiet_of_trace rfl
  · exact quiet_of_trace (by simp)
  · cases w.websocketHandlerMap ev.fd with
    | none => exact quiet_of_trace rfl
    | some h => exact quiet_of_emit (o := .readable h.conn) (by simp) rfl
  · cases w.websocketHandlerMap ev.fd with
    | none => exact quiet_of_trace rfl
    | some h => exact quiet_of_trace rfl
  · exact quiet_of_trace rfl

theorem quiet_driveIoUpgrade (hwf : s.WellFormed once) (hpc : s.pc = .reading fd es) :
    s.worker.Quiet (afterUpgrade fd es (s.worker.driveIoUpgrade fd)).worker := by
  obtain ⟨hlisten, h, hfd⟩ := hwf.pc.current fd (by rw [hpc]; rfl)
  have hown := hwf.worker.own fd h hfd
  cases hs : h.status with
  | handsharked =>
      rw [NetworkInterface.driveIoUpgrade_handsharked hfd hs]
      exact quiet_of_trace rfl
  | unconnect =>
      cases hup : h.upgrade with
      | wait =>
          rw [NetworkInterface.driveIoUpgrade_wait hfd hs hup]
          exact quiet_of_trace rfl
      | reject readBuf headerMap =>
          rw [NetworkInterface.driveIoUpgrade_reject hfd hs hown hup]
          exact quiet_of_emit (o := .rejected h.conn) (by simp [afterUpgrade]) rfl
      | accept headerMap rest =>
          obtain ⟨w', hdrive, hu⟩ := NetworkInterface.driveIoUpgrade_accept hfd hs hown hlisten
            (hwf.worker.nonneg fd h hfd hlisten) (hwf.worker.writeBuf fd h hfd hs) hup
          rw [hdrive]
          exact ⟨_, hu.trace, by simp [Obs.isTransfer]⟩

theorem quiet_driveIoFrame (hwf : s.WellFormed once) (hpc : s.pc = .frames fd es) :
    s.worker.Quiet (afterUpgrade fd es (s.worker.driveIoFrame fd)).worker := by
  obtain ⟨h, hfd, hs⟩ := hwf.pc.frames fd es hpc
  cases hspec : frameSpec h.readBuf with
  | more =>
      obtain ⟨request, hdrive⟩ := NetworkInterface.driveIoFrame_more hfd hs hspec
      rw [hdrive]
      exact quiet_of_trace rfl
  | bad =>
      obtain ⟨request, hdrive⟩ :=
        NetworkInterface.driveIoFrame_bad hfd hs (hwf.worker.own fd h hfd) hspec
      rw [hdrive]
      exact quiet_of_emit (o := .parseError h.conn) (by simp [afterUpgrade]) rfl
  | item f rest =>
      obtain ⟨request, w', hdrive, hh⟩ := NetworkInterface.driveIoFrame_item hfd hs hwf.worker.own
        hwf.worker.nodup hspec
      rw [hdrive]
      refine ⟨_, hh.trace, fun o ho => ?_⟩
      rcases NetworkInterface.mem_handleObs hfd ho with rfl | ⟨_, _, _, _, _, _, rfl⟩
      · rfl
      · rfl

/-- **Bytes move in `read` and in `send` and nowhere else.** -/
theorem step_quiet (hwf : s.WellFormed once) (h : s.step i = some t)
    (hread : ∀ data, i ≠ .read data) (hsend : ∀ n, i ≠ .send n) : s.worker.Quiet t.worker := by
  cases step_branch h with
  | rehash order _ => exact quiet_of_trace rfl
  | epollWait es _ => exact quiet_of_trace rfl
  | close _ =>
      obtain ⟨fds, _, _, hc, _⟩ :=
        NetworkInterface.processCloseQueue_closes hwf.worker.own hwf.worker.nodup
      refine ⟨_, hc.trace, fun o ho => ?_⟩
      obtain ⟨fd, _, ho⟩ := List.mem_filterMap.1 ho
      obtain ⟨h, _, rfl⟩ := Option.map_eq_some_iff.1 ho
      rfl
  | dispatch ev es _ => exact quiet_dispatch _ _ _
  | accept fd es _ _ _ _ => exact quiet_of_emit (o := .accepted s.worker.nextConn fd) rfl rfl
  | acceptFail es _ => exact quiet_of_trace rfl
  | received fd es hd data _ _ _ _ _ => exact absurd rfl (hread data)
  | readRefused fd es hd data _ _ _ _ _ => exact absurd rfl (hread data)
  | readEof fd es hd _ _ => exact quiet_of_emit (o := .eof hd.conn) (by simp) rfl
  | readError fd es _ => exact quiet_of_trace (by simp)
  | readAgain fd es hpc => exact quiet_driveIoUpgrade hwf hpc
  | frames fd es hpc => exact quiet_driveIoFrame hwf hpc
  | flushed fd es _ _ => exact quiet_of_trace (by simp)
  | sent fd es hd n _ _ _ _ => exact absurd rfl (hsend n)
  | sendAgain fd es _ _ => exact quiet_of_trace (by simp)
  | sendError fd es _ _ => exact quiet_of_trace (by simp)

/-- The handler of the connection control is at. -/
def current (s : Loop) : Option WebsocketHandler := s.pc.current.bind s.worker.websocketHandlerMap

/-- What `read` returned has been read from the connection control is at. -/
theorem step_read {data : Bytes} (h : s.step (.read data) = some t) :
    ∃ hd, s.current = some hd ∧ ∀ c, readBytes (about c t.worker.trace) =
        readBytes (about c s.worker.trace) ++ (if c = hd.conn then data else []) ∧
      sentBytes (about c t.worker.trace) = sentBytes (about c s.worker.trace) := by
  have hone (o : Obs) (hd : WebsocketHandler) (ho : o.conn = hd.conn) (hr : readBytes [o] = data)
      (hs : sentBytes [o] = []) (htrace : t.worker.trace = s.worker.trace ++ [o]) (c : ℕ) :
      readBytes (about c t.worker.trace) =
          readBytes (about c s.worker.trace) ++ (if c = hd.conn then data else []) ∧
        sentBytes (about c t.worker.trace) = sentBytes (about c s.worker.trace) := by
    rw [htrace, about_append, readBytes_append, sentBytes_append, about_cons, ho]
    by_cases hc : hd.conn = c
    · rw [if_pos hc, if_pos hc.symm, about_nil, hr, hs, List.append_nil]
      exact ⟨rfl, rfl⟩
    · rw [if_neg hc, if_neg (Ne.symm hc), about_nil]
      exact ⟨rfl, List.append_nil _⟩
  cases step_branch h with
  | received fd es hd data hpc hfd _ _ _ =>
      exact ⟨hd, by rw [current, hpc]; exact hfd,
        hone (.received hd.conn data) hd rfl (List.append_nil _) rfl rfl⟩
  | readRefused fd es hd data hpc hfd _ _ _ =>
      exact ⟨hd, by rw [current, hpc]; exact hfd,
        hone (.readRefused hd.conn data) hd rfl (List.append_nil _) rfl (by simp)⟩

/-- What `send` accepted has been sent on the connection control is at. -/
theorem step_send {n : ℕ} (h : s.step (.send n) = some t) :
    ∃ hd, s.current = some hd ∧ ∀ c, readBytes (about c t.worker.trace) =
        readBytes (about c s.worker.trace) ∧
      sentBytes (about c t.worker.trace) = sentBytes (about c s.worker.trace) ++
        (if c = hd.conn then hd.writeBuf.take n else []) := by
  cases step_branch h with
  | sent fd es hd n hpc hfd _ _ =>
      refine ⟨hd, by rw [current, hpc]; exact hfd, fun c => ?_⟩
      have htrace : Obs.conn (.sent hd.conn (hd.writeBuf.take n)) = hd.conn := rfl
      simp only [NetworkInterface.emit_trace, NetworkInterface.setHandler_trace, about_append,
        readBytes_append, sentBytes_append, about_cons, htrace]
      by_cases hc : hd.conn = c
      · rw [if_pos hc, if_pos hc.symm]
        exact ⟨List.append_nil _, congrArg _ (List.append_nil _)⟩
      · rw [if_neg hc, if_neg (Ne.symm hc)]
        exact ⟨List.append_nil _, rfl⟩

end Loop

end WebSocketDemo
