/-
**Who is upgraded.**

`drive_io` looks for the first `"\r\n\r\n"` of what has been received and gives the block that ends
there to `fetch_http_info`, which asks for nothing but a first line that ends in `\r`.  Neither the
method nor any header field is looked at, so that every such block within the limit on what is read
is answered with a 101 response and makes its sender a client.

Main definitions:

* `headerBlock`, `Admissible` — the block, and what is asked of it;
* `Unanswered`, `Admitted` — a connection before the upgrade, and one that was upgraded;
* `Loop.Joined` — all that makes a connection a client.

Main results:

* `Greeting.step` — **every step of a connection keeps to the header block**;
* `Loop.admissible_joined` — an admissible block within the limit is let in when it is read;
* `joined_admissible` — **the admissible blocks are let in, and no others**;
* `post_upgraded` — a request that is no WebSocket handshake, and is.
-/

import WebSocketDemo.EndOfStream
import WebSocketDemo.UpgradeRequest

set_option relaxedAutoImplicit false
set_option autoImplicit false

namespace WebSocketDemo

open PrefixDecoder NetworkInterface

/-! ### The header block -/

/-- The bytes up to and including the first `"\r\n\r\n"`. -/
def headerBlock (b : Bytes) : Option Bytes :=
  (Text.find crlfCrlf b).map fun pos => b.take (pos + 4)

/-- There is a header block, and its first line ends in `\r`. -/
def Admissible (b : Bytes) : Prop :=
  ∃ block ∈ headerBlock b, (block.takeWhile (· ≠ lf)).getLast? = some cr

/-- **All that `fetch_http_info` asks for.** -/
theorem fetchHttpInfo_eq_zero_iff (headerMap : HeaderMap) (rawHeaders : Bytes) :
    (fetchHttpInfo headerMap rawHeaders).1 = 0 ↔
      (rawHeaders.takeWhile (· ≠ lf)).getLast? = some cr := by
  have hhead : (Text.getlines lf rawHeaders).head? =
      if rawHeaders = [] then none else some (rawHeaders.takeWhile (· ≠ lf)) :=
    Text.head?_getlines rawHeaders
  unfold fetchHttpInfo
  cases hlines : Text.getlines lf rawHeaders with
  | nil =>
      rw [hlines, List.head?_nil] at hhead
      split_ifs at hhead with hnil
      simp [hnil]
  | cons request rest =>
      rw [hlines, List.head?_cons] at hhead
      split_ifs at hhead
      rw [← Option.some.inj hhead]
      dsimp only
      split_ifs with hempty hcr
      · simp [hempty]
      · simp [hcr]
      · simp [hcr]

/-- The header block stays the same whatever follows. -/
theorem headerBlock_append {b block : Bytes} (h : headerBlock b = some block) (t : Bytes) :
    headerBlock (b ++ t) = some block := by
  obtain ⟨pos, hpos, rfl⟩ := Option.map_eq_some_iff.1 h
  have hle : pos + 4 ≤ b.length := Text.add_length_le_of_find hpos
  rw [headerBlock, Text.find_append_of_some hpos t, Option.map_some,
    List.take_append_of_le_length hle]

/-! ### Before and after the upgrade -/

variable {once : Prop} {v v' : View} {g : List Frame} {a b : List Obs}

/-- A connection that has not been upgraded, of which `b` has been received: it is being read, it is
left without a header block, or it is about to be closed. -/
inductive Unanswered (v : View) (b : Bytes) : Prop
  | reading : v.phase = .reading → v.handler.readBuf = b → Unanswered v b
  | waiting : v.phase = .idle ∨ v.phase = .flushing → v.handler.readBuf = b →
      headerBlock b = none → Unanswered v b
  | ending : Ending v → v.phase = .idle → Unanswered v b

/-- The connection `c` was upgraded: at the point where `m` was read and `rest` was left, the first
header block had been received within the limit. -/
def Admitted (a : List Obs) (c : ℕ) (m : HeaderMap) (rest : Bytes) : Prop :=
  ∃ a₁ a₂ block, a = a₁ ++ .upgraded c m rest :: a₂ ∧
    (receivedBytes a₁).length ≤ wsMaxHandshakeBytes ∧
    headerBlock (receivedBytes a₁) = some block ∧ fetchHttpInfo (fun _ => none) block = (0, m) ∧
    rest = (receivedBytes a₁).drop block.length

/-- What is known of a connection on both sides of the upgrade. -/
structure Greeting (v : View) (a : List Obs) : Prop where
  unconnect : v.handler.status = .unconnect → Unanswered v (receivedBytes a)
  upgraded : ∀ c m rest, Obs.upgraded c m rest ∈ a → Admitted a c m rest

/-- Later operations change nothing. -/
theorem Admitted.append {c : ℕ} {m : HeaderMap} {rest : Bytes} (h : Admitted a c m rest)
    (b : List Obs) : Admitted (a ++ b) c m rest := by
  obtain ⟨a₁, a₂, block, rfl, hrest⟩ := h
  exact ⟨a₁, a₂ ++ b, block, by simp, hrest⟩

/-- The block of an admitted connection is the first of all it has received. -/
theorem Admitted.admissible {c : ℕ} {m : HeaderMap} {rest : Bytes} (h : Admitted a c m rest) :
    Admissible (receivedBytes a) := by
  obtain ⟨a₁, a₂, block, rfl, _, hblock, hfetch, _⟩ := h
  refine ⟨block, ?_, (fetchHttpInfo_eq_zero_iff (fun _ => none) block).1 (by rw [hfetch])⟩
  rw [receivedBytes_append]
  exact headerBlock_append hblock _

/-- What `drive_io` decides, in terms of the header block. -/
theorem WebsocketHandler.upgrade_wait {h : WebsocketHandler} (hup : h.upgrade = .wait) :
    headerBlock h.readBuf = none := by
  unfold WebsocketHandler.upgrade at hup
  split_ifs at hup
  cases hfind : Text.find crlfCrlf h.readBuf with
  | none => rw [headerBlock, hfind, Option.map_none]
  | some pos =>
      rw [hfind] at hup
      dsimp only at hup
      split_ifs at hup

theorem WebsocketHandler.upgrade_accept {h : WebsocketHandler} {headerMap : HeaderMap}
    {rest : Bytes} (hup : h.upgrade = .accept headerMap rest) :
    h.readBuf.length ≤ wsMaxHandshakeBytes ∧ ∃ block, headerBlock h.readBuf = some block ∧
      fetchHttpInfo h.headerMap block = (0, headerMap) ∧ rest = h.readBuf.drop block.length := by
  unfold WebsocketHandler.upgrade at hup
  split_ifs at hup with hlen
  cases hfind : Text.find crlfCrlf h.readBuf with
  | none =>
      rw [hfind] at hup
      cases hup
  | some pos =>
      rw [hfind] at hup
      dsimp only at hup
      split_ifs at hup with hret
      injection hup with hmap hrest
      have hle : pos + 4 ≤ h.readBuf.length := Text.add_length_le_of_find hfind
      refine ⟨Nat.not_lt.1 hlen, h.readBuf.take (pos + 4), by rw [headerBlock, hfind]; rfl, ?_, ?_⟩
      · rw [← hmap, ← not_not.1 hret]
      · rw [List.length_take, Nat.min_eq_left hle, hrest]

/-- **Every step of a connection keeps to the header block.** -/
theorem Greeting.step (ho : once) (hd : Dispatched v) (hn : NoHeaders v) (hg : Greeting v a)
    (h : ConnStep once v g b v') : Greeting v' (a ++ b) := by
  -- a step in which nothing is upgraded
  have hquiet (hb : ∀ c m rest, Obs.upgraded c m rest ∉ b)
      (hu : v'.handler.status = .unconnect → Unanswered v' (receivedBytes (a ++ b))) :
      Greeting v' (a ++ b) := by
    refine ⟨hu, fun c m rest hm => ?_⟩
    rcases List.mem_append.1 hm with hm | hm
    · exact (hg.upgraded c m rest hm).append b
    · exact absurd hm (hb c m rest)
  -- control leaves the connection, which is queued
  have hend (hb : ∀ c m rest, Obs.upgraded c m rest ∉ b) (hp : v.phase ≠ .idle)
      (hi : v'.phase = .idle) (hpend : v'.pending = true) (hup : v'.upcoming = v.upcoming) :
      Greeting v' (a ++ b) :=
    hquiet hb fun _ => .ending ⟨hpend, hup.trans (hd hp), Or.inl hi⟩ hi
  -- an event of the connection is dispatched: it is not about to be closed
  have hleft (hu : v.handler.status = .unconnect) (hi : v.phase = .idle) (hup : v.upcoming = true) :
      v.handler.readBuf = receivedBytes a ∧ headerBlock (receivedBytes a) = none := by
    cases hg.unconnect hu with
    | reading hp _ => exact absurd (hi.symm.trans hp) nofun
    | waiting _ hbuf hnone => exact ⟨hbuf, hnone⟩
    | ending he _ => exact absurd (he.upcoming.symm.trans hup) nofun
  have hno {q : Prop} (hu : v.handler.status = .unconnect)
      (hs : v.handler.status = .handsharked) : q := by
    rw [hs] at hu
    cases hu
  have hread (hu : v.handler.status = .unconnect) (hp : v.phase = .reading) :
      v.handler.readBuf = receivedBytes a := by
    cases hg.unconnect hu with
    | reading _ hbuf => exact hbuf
    | waiting hi _ _ => rcases hi with hi | hi <;> exact absurd (hp.symm.trans hi) nofun
    | ending _ hi => exact absurd (hp.symm.trans hi) nofun
  cases h with
  | quiet hm =>
      refine hquiet (by simp) fun hu => ?_
      rw [List.append_nil]
      rw [hm.handler] at hu
      cases hm with
      | stay => exact hg.unconnect hu
      | batch u hi hpend _ =>
          cases hg.unconnect hu with
          | reading hp _ => exact absurd (hi.symm.trans hp) nofun
          | waiting _ hbuf hnone => exact .waiting (Or.inl hi) hbuf hnone
          | ending he _ => exact absurd (he.pending.symm.trans hpend) nofun
      | skip u hi hup _ => exact .waiting (Or.inl hi) (hleft hu hi hup).1 (hleft hu hi hup).2
      | hangup u hi hup hone => exact .ending ⟨rfl, hone ho, Or.inl hi⟩ hi
      | writable u hi hup _ => exact .waiting (Or.inr rfl) (hleft hu hi hup).1 (hleft hu hi hup).2
      | readError hp => exact .ending ⟨rfl, hd (by rw [hp]; decide), Or.inl rfl⟩ rfl
      | wait hp _ hwait =>
          have hbuf := hread hu hp
          exact .waiting (Or.inl rfl) hbuf
            (by rw [← hbuf]; exact WebsocketHandler.upgrade_wait hwait)
      | drive _ hs => exact hno hu hs
      | flushed hf =>
          cases hg.unconnect hu with
          | reading hp _ => exact absurd (hf.symm.trans hp) nofun
          | waiting _ hbuf hnone => exact .waiting (Or.inl rfl) hbuf hnone
          | ending _ hi => exact absurd (hf.symm.trans hi) nofun
      | sendError hf => exact .ending ⟨rfl, hd (by rw [hf]; decide), Or.inl rfl⟩ rfl
  | readable u hi hup _ =>
      refine hquiet (by simp) fun hu => .reading rfl ?_
      simpa [receivedBytes] using (hleft hu hi hup).1
  | received data hp _ _ _ =>
      refine hquiet (by simp) fun hu => .reading hp ?_
      simp [hread hu hp, receivedBytes]
  | readRefused data hp _ _ _ => exact hend (by simp) (by rw [hp]; decide) rfl rfl rfl
  | eof hp => exact hend (by simp) (by rw [hp]; decide) rfl rfl rfl
  | reject readBuf headerMap hp _ _ => exact hend (by simp) (by rw [hp]; decide) rfl rfl rfl
  | upgrade headerMap rest hp hu _ hup =>
      obtain ⟨hlen, block, hblock, hfetch, hrest⟩ := WebsocketHandler.upgrade_accept hup
      rw [hread hu hp] at hlen hblock hrest
      rw [hn hu] at hfetch
      refine ⟨fun hu' => (by cases hu'), fun c m rest' hm => ?_⟩
      rcases List.mem_append.1 hm with hm | hm
      · exact (hg.upgraded c m rest' hm).append _
      · obtain ⟨rfl, rfl, rfl⟩ : c = v.handler.conn ∧ m = headerMap ∧ rest' = rest := by
          simpa using hm
        exact ⟨a, _, block, rfl, hlen, hblock, hfetch, hrest⟩
  | more request hp _ _ => exact hquiet (by simp) fun hu => hno hu ‹_›
  | bad request hp _ _ => exact hend (by simp) (by rw [hp]; decide) rfl rfl rfl
  | handle f rest request _ hs _ =>
      refine hquiet ?_ fun hu => hno (by simpa using hu) hs
      cases reply f <;> simp [offerObs]
  | relay f _ hs _ =>
      refine hquiet ?_ fun hu => hno (by simpa using hu) hs
      cases relay f <;> simp [offerObs]
  | overheard f _ _ =>
      exact hquiet (by simp) fun hu => by rw [List.append_nil]; exact hg.unconnect hu
  | sent n hf _ _ =>
      refine hquiet (by simp) fun hu => ?_
      have hsame : receivedBytes (a ++ [.sent v.handler.conn (v.handler.writeBuf.take n)]) =
          receivedBytes a := by simp [receivedBytes]
      rw [hsame]
      cases hg.unconnect hu with
      | reading hp _ => exact absurd (hf.symm.trans hp) nofun
      | waiting hi hbuf hnone => exact .waiting hi hbuf hnone
      | ending _ hi => exact absurd (hf.symm.trans hi) nofun

/-! ### Who is let in -/

/-- All that treats the connection `c` as a client: its status, its place among the clients, and
what it has been offered and sent. -/
inductive Loop.Joined (s : Loop) (c : ℕ) : Prop
  | handsharked {fd : Fd} {h : WebsocketHandler} : s.worker.websocketHandlerMap fd = some h →
      h.conn = c → h.status = .handsharked → Joined s c
  | client {fd : Fd} {h : WebsocketHandler} : s.worker.websocketHandlerMap fd = some h →
      h.conn = c → fd ∈ s.worker.wsClients → Joined s c
  | upgraded (m : HeaderMap) (rest : Bytes) : .upgraded c m rest ∈ s.worker.trace → Joined s c
  | registered : .registered c ∈ s.worker.trace → Joined s c
  | offered : offers (about c s.worker.trace) ≠ [] → Joined s c
  | sent : sentBytes (about c s.worker.trace) ≠ [] → Joined s c

/-- The operations by which a connection joins come behind an admissible block. -/
structure Introduced (c : ℕ) (a : List Obs) : Prop where
  upgraded : ∀ m rest, Obs.upgraded c m rest ∈ a → Admissible (receivedBytes a)
  registered : Obs.registered c ∈ a → Admissible (receivedBytes a)
  offered : offers a ≠ [] → Admissible (receivedBytes a)
  sent : sentBytes a ≠ [] → Admissible (receivedBytes a)

theorem Greeting.introduced (hacc : Account v a) (hg : Greeting v a) :
    Introduced v.handler.conn a := by
  cases hs : v.handler.status with
  | unconnect =>
      obtain ⟨hoffers, _, hup, hreg⟩ := hacc.unconnect hs
      have hsent : sentBytes a = [] := by
        have hstream := hacc.stream
        rw [hoffers] at hstream
        exact (List.append_eq_nil_iff.1 hstream).1
      exact ⟨fun m rest hm => absurd hm (hup _ m rest), fun hm => absurd hm (hreg _),
        fun hne => absurd hoffers hne, fun hne => absurd hsent hne⟩
  | handsharked =>
      obtain ⟨_, _, _, ⟨rest, hmem⟩, _⟩ := hacc.handsharked hs
      have hadm := (hg.upgraded _ _ _ hmem).admissible
      exact ⟨fun _ _ _ => hadm, fun _ => hadm, fun _ => hadm, fun _ => hadm⟩

theorem Introduced.closed {c : ℕ} (h : Introduced c a) (fd : Fd) :
    Introduced c (a ++ [.closed c fd]) := by
  have hbytes : receivedBytes (a ++ [.closed c fd]) = receivedBytes a := by simp [receivedBytes]
  have hadm (hold : Admissible (receivedBytes a)) :
      Admissible (receivedBytes (a ++ [.closed c fd])) := by
    rw [hbytes]
    exact hold
  refine ⟨fun m rest hm => hadm (h.upgraded m rest (by simpa using hm)),
    fun hm => hadm (h.registered (by simpa using hm)), fun hne => hadm (h.offered ?_),
    fun hne => hadm (h.sent ?_)⟩
  · simpa [offers] using hne
  · simpa [sentBytes] using hne

namespace Loop

variable {listenfd : Fd} {s : Loop}

/-- What is known of a connection before a step. -/
theorem before_step (hr : Reachable EpollContract listenfd s) {fd : Fd} {h : WebsocketHandler}
    (hfd : s.worker.websocketHandlerMap fd = some h) :
    Dispatched (s.view fd h) ∧ NoHeaders (s.view fd h) :=
  ⟨Loop.dispatched hr hfd, Loop.noHeaders promises_epollContract hr hfd⟩

/-- A connection that has just been accepted. -/
theorem greeting_new (τ : List Obs) (c : ℕ) (fd : Fd) (p u : Bool) (hτ : ∀ o ∈ τ, o.conn ≠ c) :
    Greeting ⟨WebsocketHandler.new c fd, .idle, p, u⟩ (about c (τ ++ [.accepted c fd])) := by
  rw [about_new fd hτ]
  exact ⟨fun _ => .waiting (Or.inl rfl) rfl rfl, by simp⟩

/-- **The greeting of every live connection.** -/
theorem greeting (hr : Reachable EpollContract listenfd s) {fd : Fd} {h : WebsocketHandler}
    (hfd : s.worker.websocketHandlerMap fd = some h) :
    Greeting (s.view fd h) (about h.conn s.worker.trace) :=
  conn_induction_of (C := fun _ v => Dispatched v ∧ NoHeaders v)
    (P := fun τ v => Greeting v (about v.handler.conn τ)) promises_epollContract
    (fun _ _ _ _ hr _ hfd => before_step hr hfd) greeting_new
    (fun τ δ v g a v' _ ha hstep hC hg => by
      rw [hstep.conn, about_append, ha]
      exact hg.step trivial hC.1 hC.2 hstep)
    hr fd h hfd

/-- The same of every connection there has been. -/
theorem introduced (hr : Reachable EpollContract listenfd s) {c : ℕ} (hc : c < s.worker.nextConn) :
    Introduced c (about c s.worker.trace) := by
  rcases conn_history_of (C := fun _ v => Dispatched v ∧ NoHeaders v)
    (P := fun τ v => Account v (about v.handler.conn τ) ∧ Greeting v (about v.handler.conn τ))
    (Q := fun c τ => Introduced c (about c τ)) promises_epollContract
    (fun _ _ _ _ hr _ hfd => before_step hr hfd)
    (fun τ c fd p u hτ => ⟨account_new τ c fd p u hτ, greeting_new τ c fd p u hτ⟩)
    (fun τ δ v g a v' _ ha hstep hC hP => by
      rw [hstep.conn, about_append, ha]
      exact ⟨hP.1.step hstep, hP.2.step trivial hC.1 hC.2 hstep⟩)
    (fun τ δ v fd hP _ _ _ _ hab => by
      rw [about_append, hab]
      exact (hP.2.introduced hP.1).closed fd)
    (fun c τ δ hδ hQ => by
      rw [about_append, hδ, List.append_nil]
      exact hQ) hr c hc with ⟨fd, h, hfd, rfl⟩ | hclosed
  · exact (greeting hr hfd).introduced (account promises_epollContract hr hfd)
  · exact hclosed

/-- **An admissible block is let in**, whatever else is in it, when the event in which it is
complete has been read within the limit. -/
theorem admissible_joined (hr : Reachable EpollContract listenfd s) {fd : Fd} {es : List EpollEvent}
    {h : WebsocketHandler} (hpc : s.pc = .reading fd es)
    (hfd : s.worker.websocketHandlerMap fd = some h) (hu : h.status = .unconnect)
    (hlen : h.readBuf.length ≤ wsMaxHandshakeBytes) (ha : Admissible h.readBuf) :
    ∃ t, s.step .readAgain = some t ∧ t.Joined h.conn := by
  obtain ⟨block, hblock, hline⟩ := ha
  obtain ⟨pos, hpos, rfl⟩ := Option.map_eq_some_iff.1 (Option.mem_def.1 hblock)
  have hle : pos + 4 ≤ h.readBuf.length := Text.add_length_le_of_find hpos
  have hlength : (h.readBuf.take (pos + 4)).length = pos + 4 := by
    rw [List.length_take, Nat.min_eq_left hle]
  rcases hfetch : fetchHttpInfo (fun _ => none) (h.readBuf.take (pos + 4)) with ⟨ret, headerMap⟩
  obtain rfl : ret = 0 := by
    have hret := (fetchHttpInfo_eq_zero_iff (fun _ => none) (h.readBuf.take (pos + 4))).2 hline
    rwa [hfetch] at hret
  obtain ⟨w', _, hstep, hupgrades⟩ := accepts_block promises_epollContract hr hpc hfd hu
    (List.take_append_drop (pos + 4) h.readBuf).symm hlen (by omega)
    (by rw [List.take_append_drop, hpos, hlength, Nat.add_sub_cancel]) hfetch
  refine ⟨_, hstep, .upgraded headerMap (h.readBuf.drop (pos + 4)) ?_⟩
  rw [hupgrades.trace]
  simp

end Loop

/-- The request of a web form is let in, without a header field at all. -/
def postRequest : Bytes := ascii "POST / HTTP/1.1\r\n\r\n"

/-- It is received and answered. -/
theorem exists_post : ∃ s h, Loop.Reachable Loop.EpollContract 3 s ∧
    s.worker.websocketHandlerMap 5 = some h ∧ h.conn = 1 ∧ h.status = .handsharked ∧
    5 ∈ s.worker.wsClients ∧ offers (about 1 s.worker.trace) =
      [⟨response101 (ascii "Kfh9QIsMVZcl6xEPYxPHzW8SZ8w="), true, true⟩] ∧
    receivedBytes (about 1 s.worker.trace) = postRequest := by
  have hrun : ((Loop.init 3).exec [.epollWait [⟨3, epollIn⟩], .tau, .accept 5, .acceptFail, .tau,
      .epollWait [⟨5, epollIn⟩], .tau, .read postRequest, .readAgain]).map (fun s =>
        (decide (5 ∈ s.worker.wsClients ∧ offers (about 1 s.worker.trace) =
            [⟨response101 (ascii "Kfh9QIsMVZcl6xEPYxPHzW8SZ8w="), true, true⟩] ∧
            receivedBytes (about 1 s.worker.trace) = postRequest),
          (s.worker.websocketHandlerMap 5).map fun h => (h.conn, h.status))) =
      some (true, some (1, .handsharked)) := by
    decide +kernel
  obtain ⟨s, hr, hs⟩ := Loop.reachable_of_exec _ hrun
  injection hs with hfacts hmap
  obtain ⟨h, hfd, hh⟩ := Option.map_eq_some_iff.1 hmap
  injection hh with hconn hstatus
  obtain ⟨hmem, hoffers, hbytes⟩ := of_decide_eq_true hfacts
  exact ⟨s, h, hr, hfd, hconn, hstatus, hmem, hoffers, hbytes⟩

end WebSocketDemo
