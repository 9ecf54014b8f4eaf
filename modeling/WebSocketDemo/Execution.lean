/-
**Executions, and one event as a whole.**

A property of all runs is proved by induction over steps; to exhibit a run, or to compare two, steps
are put together here.  `exec` executes a list of answers of the environment.  `feed` is the read
loop of one `EPOLLIN` event for given contents of the socket, `drain` the frame loop behind it; both
are computed in closed form.

Main definitions:

* `Loop.exec` — a run under `EpollContract`, from a list of answers;
* `Loop.feed`, `Loop.drain` — the two loops of an `EPOLLIN` event.

Main results:

* `Loop.bounded` — the buffers keep their bounds;
* `Loop.feed_fits`, `Loop.feed_overflow` — **reading either takes every chunk or stops at the first
  one that does not fit**;
* `Loop.drain_frames` — **the frame loop handles every complete frame of the buffer**.
-/

import WebSocketDemo.Account

set_option relaxedAutoImplicit false
set_option autoImplicit false

namespace WebSocketDemo

open PrefixDecoder Rfc6455

namespace Loop

/-! ### Runs from lists of answers -/

/-- Execute the answers in order; `none` when one is impossible or breaks the contract. -/
def exec (s : Loop) (is : List Input) : Option Loop := Transition.runOk step EpollContract s is

variable {once : Prop} {s t : Loop} {fd listenfd : Fd} {h : WebsocketHandler} {es : List EpollEvent}

theorem reachable_anyBatch (hr : Reachable EpollContract listenfd s) :
    Reachable AnyBatch listenfd s :=
  hr.mono fun _ _ _ => trivial

/-- What is observed of an execution is observed of a reachable state. -/
theorem reachable_of_runOk {ok : Loop → Input → Prop} [∀ s i, Decidable (ok s i)] {β : Type}
    {is : List Input} (f : Loop → β) {y : β}
    (h : (Transition.runOk step ok (init listenfd) is).map f = some y) :
    ∃ s, Reachable ok listenfd s ∧ f s = y := by
  obtain ⟨s, hs, hf⟩ := Option.map_eq_some_iff.1 h
  exact ⟨s, Transition.reaches_of_runOk hs, hf⟩

/-- The same of two states of one execution. -/
theorem reaches_of_runOk {ok : Loop → Input → Prop} [∀ s i, Decidable (ok s i)] {β γ : Type}
    {is js : List Input} (f : Loop → β) (g : Loop → γ) {y : β} {z : γ}
    (h : ((Transition.runOk step ok (init listenfd) is).bind fun s =>
      (Transition.runOk step ok s js).map fun t => (f s, g t)) = some (y, z)) :
    ∃ s t, Reachable ok listenfd s ∧ Transition.Reaches step ok s t ∧ f s = y ∧ g t = z := by
  obtain ⟨s, hs, hrest⟩ := Option.bind_eq_some_iff.1 h
  obtain ⟨t, ht, hfg⟩ := Option.map_eq_some_iff.1 hrest
  injection hfg with hf hg
  exact ⟨s, t, Transition.reaches_of_runOk hs, Transition.reaches_of_runOk ht, hf, hg⟩

theorem reachable_of_exec {β : Type} {is : List Input} (f : Loop → β) {y : β}
    (h : ((init listenfd).exec is).map f = some y) :
    ∃ s, Reachable EpollContract listenfd s ∧ f s = y :=
  reachable_of_runOk f h

/-! ### The bounds of the buffers -/

/-- **The buffers of a live connection keep their bounds.** -/
theorem bounded {ok : Loop → Input → Prop} (hok : Promises ok once)
    (hr : Reachable ok listenfd s) (hfd : s.worker.websocketHandlerMap fd = some h) :
    h.readBuf.length ≤ wsMaxReadBuffer ∧ h.writeBuf.length ≤ wsMaxWriteBuffer := by
  have hoffer {h : WebsocketHandler} {data : Option Bytes}
      (hw : h.writeBuf.length ≤ wsMaxWriteBuffer) :
      (h.offerOption data).writeBuf.length ≤ wsMaxWriteBuffer := by
    cases data with
    | none => exact hw
    | some d =>
        rw [WebsocketHandler.offerOption_some, WebsocketHandler.offer]
        split_ifs with hacc
        · simpa [WebsocketHandler.accepts] using hacc
        · exact hw
  refine conn_induction (P := fun _ v => v.handler.readBuf.length ≤ wsMaxReadBuffer ∧
    v.handler.writeBuf.length ≤ wsMaxWriteBuffer) hok ?_ ?_ hr fd h hfd
  · intro τ c fd p u _
    exact ⟨Nat.zero_le _, Nat.zero_le _⟩
  · rintro τ δ v g a v' _ _ hstep ⟨hread, hwrite⟩
    cases hstep with
    | quiet hm =>
        rw [hm.handler]
        exact ⟨hread, hwrite⟩
    | received data _ _ _ hcap => exact ⟨by simpa using hcap, hwrite⟩
    | reject readBuf headerMap _ _ hup =>
        refine ⟨?_, hwrite⟩
        unfold WebsocketHandler.upgrade at hup
        split_ifs at hup
        · injection hup with hb
          rw [← hb]
          exact hread
        · split at hup
          · cases hup
          · dsimp only at hup
            split_ifs at hup
            injection hup with hb
            rw [← hb]
            simp
            omega
    | upgrade headerMap rest _ _ hempty hup =>
        refine ⟨?_, by simp [WebsocketHandler.upgraded, length_parseStr, wsMaxWriteBuffer]⟩
        unfold WebsocketHandler.upgrade at hup
        split_ifs at hup
        split at hup
        · cases hup
        · dsimp only at hup
          split_ifs at hup
          injection hup with _ hb
          simp [WebsocketHandler.upgraded, ← hb]
          omega
    | handle f rest request _ _ hspec =>
        have hlt := length_lt_of_frameSpec_item hspec
        exact ⟨by dsimp only; omega, hoffer hwrite⟩
    | relay f _ _ _ => exact ⟨by simpa using hread, hoffer hwrite⟩
    | sent n _ _ _ =>
        refine ⟨hread, ?_⟩
        simp
        omega
    | _ => exact ⟨hread, hwrite⟩

/-- An `EPOLLIN` event is dispatched. -/
theorem step_readable (hpc : s.pc = .batch (⟨fd, epollIn⟩ :: es)) (hne : fd ≠ s.worker.listenfd)
    (hfd : s.worker.websocketHandlerMap fd = some h) :
    s.step .tau = some ⟨s.worker.emit (.readable h.conn), .reading fd es⟩ := by
  have herr : epollIn &&& (epollErr ||| epollHup) = 0 := by decide
  have hin : epollIn &&& epollIn ≠ 0 := by decide
  simp only [step, hpc, dispatch, if_neg hne, herr, ne_eq, not_true_eq_false, if_false, hin,
    not_false_eq_true, if_true, hfd]

/-! ### The read loop -/

/-- The read loop of the event control is at, when the socket holds the chunks `ds` and the kernel
answers `last` behind them; a chunk that is refused ends it. -/
def feed (s : Loop) : List Bytes → Input → Option Loop
  | [], last => s.step last
  | d :: ds, last =>
      (s.step (.read d)).bind fun t => if t.pc.current = none then some t else feed t ds last

/-- What one `read` can return. -/
def IsChunk (d : Bytes) : Prop := d.length ≠ 0 ∧ d.length ≤ readChunk

/-- Whatever the socket holds can be read in chunks. -/
theorem exists_chunks (b : Bytes) : ∃ ds : List Bytes, (∀ d ∈ ds, IsChunk d) ∧ ds.flatten = b := by
  induction b with
  | nil => exact ⟨[], by simp, rfl⟩
  | cons x b ih =>
      obtain ⟨ds, hds, hb⟩ := ih
      have hone : 1 ≤ readChunk := by decide
      exact ⟨[x] :: ds, List.forall_mem_cons.2 ⟨⟨Nat.one_ne_zero, hone⟩, hds⟩, by simp [hb]⟩

/-- The state after reading the chunks `ds`. -/
def reads (s : Loop) (fd : Fd) (h : WebsocketHandler) (ds : List Bytes) : Loop where
  worker := { s.worker with
    websocketHandlerMap := Function.update s.worker.websocketHandlerMap fd
      (some { h with readBuf := h.readBuf ++ ds.flatten })
    trace := s.worker.trace ++ ds.map (Obs.received h.conn) }
  pc := s.pc

theorem reads_map (ds : List Bytes) : (s.reads fd h ds).worker.websocketHandlerMap fd =
    some { h with readBuf := h.readBuf ++ ds.flatten } := by
  simp [reads]

theorem reads_nil (hfd : s.worker.websocketHandlerMap fd = some h) : s.reads fd h [] = s := by
  simp only [reads, List.flatten_nil, List.append_nil, List.map_nil]
  rw [← hfd, Function.update_eq_self]

theorem reads_cons (d : Bytes) (ds : List Bytes) :
    (s.reads fd h [d]).reads fd { h with readBuf := h.readBuf ++ d } ds =
      s.reads fd h (d :: ds) := by
  simp [reads]

/-- A chunk that fits. -/
theorem step_read_fits {d : Bytes} (hpc : s.pc = .reading fd es)
    (hfd : s.worker.websocketHandlerMap fd = some h) (hd : IsChunk d)
    (hcap : h.readBuf.length + d.length ≤ wsMaxReadBuffer) :
    s.step (.read d) = some (s.reads fd h [d]) := by
  obtain ⟨h0, hchunk⟩ := hd
  have hcap' : ¬ h.readBuf.length + d.length > wsMaxReadBuffer := by omega
  have hlen : ¬ (d.length = 0 ∨ readChunk < d.length) := by omega
  simp only [step, hpc, readStep, hfd]
  rw [if_neg hlen]
  simp only [WebsocketHandler.appendRead, h0, hcap', if_false]
  simp [reads, hpc, NetworkInterface.setHandler, NetworkInterface.emit]

/-- A chunk that does not. -/
theorem step_read_overflow {d : Bytes} (hpc : s.pc = .reading fd es)
    (hfd : s.worker.websocketHandlerMap fd = some h) (hd : IsChunk d)
    (hcap : wsMaxReadBuffer < h.readBuf.length + d.length) :
    s.step (.read d) =
      some ⟨(s.worker.emit (.readRefused h.conn d)).queueClose fd, .batch es⟩ := by
  obtain ⟨h0, hchunk⟩ := hd
  have hlen : ¬ (d.length = 0 ∨ readChunk < d.length) := by omega
  simp only [step, hpc, readStep, hfd]
  rw [if_neg hlen]
  simp only [WebsocketHandler.appendRead, h0, gt_iff_lt, hcap, if_false, if_true]

/-- **Everything fits**: all chunks are appended, and the kernel's last answer is handled. -/
theorem feed_fits {ds : List Bytes} (last : Input) (hpc : s.pc = .reading fd es)
    (hfd : s.worker.websocketHandlerMap fd = some h) (hds : ∀ d ∈ ds, IsChunk d)
    (hcap : h.readBuf.length + ds.flatten.length ≤ wsMaxReadBuffer) :
    s.feed ds last = (s.reads fd h ds).step last := by
  induction ds generalizing s h with
  | nil => rw [reads_nil hfd, feed]
  | cons d ds ih =>
      rw [List.flatten_cons, List.length_append] at hcap
      have hstep := step_read_fits hpc hfd (hds d List.mem_cons_self) (by omega)
      have hcur : (s.reads fd h [d]).pc.current ≠ none := by simp [reads, hpc, Pc.current]
      have hmap : (s.reads fd h [d]).worker.websocketHandlerMap fd =
          some { h with readBuf := h.readBuf ++ d } := by
        rw [reads_map]
        simp
      rw [feed, hstep, Option.bind_some, if_neg hcur, ← reads_cons d ds]
      exact ih (s := s.reads fd h [d]) (by simp [reads, hpc]) hmap
        (fun d' hd' => hds d' (List.mem_cons_of_mem _ hd'))
        (by simp only [List.length_append]; omega)

/-- **Something does not fit**: the chunks before it are appended, it is dropped, and nothing more
is read. -/
theorem feed_overflow {ds : List Bytes} (last : Input) (hpc : s.pc = .reading fd es)
    (hfd : s.worker.websocketHandlerMap fd = some h) (hds : ∀ d ∈ ds, IsChunk d)
    (hread : h.readBuf.length ≤ wsMaxReadBuffer)
    (hcap : wsMaxReadBuffer < h.readBuf.length + ds.flatten.length) :
    ∃ ds₁ d, ds₁ ++ [d] <+: ds ∧
      wsMaxReadBuffer < h.readBuf.length + (ds₁ ++ [d]).flatten.length ∧ s.feed ds last =
      some ⟨((s.reads fd h ds₁).worker.emit (.readRefused h.conn d)).queueClose fd, .batch es⟩ := by
  induction ds generalizing s h with
  | nil =>
      simp only [List.flatten_nil, List.length_nil] at hcap
      omega
  | cons d ds ih =>
      by_cases hd : h.readBuf.length + d.length ≤ wsMaxReadBuffer
      · have hstep := step_read_fits hpc hfd (hds d List.mem_cons_self) hd
        have hcur : (s.reads fd h [d]).pc.current ≠ none := by simp [reads, hpc, Pc.current]
        have hmap : (s.reads fd h [d]).worker.websocketHandlerMap fd =
            some { h with readBuf := h.readBuf ++ d } := by
          rw [reads_map]
          simp
        obtain ⟨ds₁, d', hpre, hlen, heq⟩ := ih (s := s.reads fd h [d]) (by simp [reads, hpc]) hmap
          (fun d' hd' => hds d' (List.mem_cons_of_mem _ hd')) (by simpa using hd)
          (by simp only [List.flatten_cons, List.length_append] at hcap ⊢; omega)
        refine ⟨d :: ds₁, d', (List.prefix_cons_inj d).2 hpre, ?_, ?_⟩
        · simp only [List.cons_append, List.flatten_cons, List.length_append] at hlen ⊢
          omega
        · rw [feed, hstep, Option.bind_some, if_neg hcur, heq, reads_cons]
      · refine ⟨[], d, ⟨ds, rfl⟩, by simpa using hd, ?_⟩
        rw [feed, step_read_overflow hpc hfd (hds d List.mem_cons_self) (by omega), reads_nil hfd]
        rfl

/-- Reading is a run. -/
theorem reaches_of_feed {ok : Loop → Input → Prop} {last : Input} (hread : ∀ s d, ok s (.read d))
    (hlast : ∀ s, ok s last) {ds : List Bytes} (h : s.feed ds last = some t) :
    Transition.Reaches step ok s t := by
  induction ds generalizing s with
  | nil => exact Transition.Reaches.single (hlast s) h
  | cons d ds ih =>
      obtain ⟨u, hu, hrest⟩ := Option.bind_eq_some_iff.1 h
      have hfirst := Transition.Reaches.single (hread s d) hu
      split_ifs at hrest
      · obtain rfl := Option.some.inj hrest
        exact hfirst
      · exact hfirst.trans (ih hrest)

/-! ### The frame loop -/

/-- At most `n` turns of the frame loop. -/
def drain : ℕ → Loop → Loop
  | 0, s => s
  | n + 1, s =>
      match s.pc with
      | .frames _ _ => (s.step .tau).elim s (drain n)
      | _ => s

theorem drain_batch (n : ℕ) (hpc : s.pc = .batch es) : s.drain n = s := by
  cases n with
  | zero => rfl
  | succ n => simp [drain, hpc]

/-- A turn of the frame loop in closed form. -/
theorem drain_succ (n : ℕ) (hpc : s.pc = .frames fd es) :
    s.drain (n + 1) = (afterUpgrade fd es (s.worker.driveIoFrame fd)).drain n := by
  simp [drain, hpc, step]

/-- The frame at the front of the buffer the frame loop is at. -/
def nextFrame (s : Loop) : Option Frame :=
  match s.pc with
  | .frames fd _ =>
      (s.worker.websocketHandlerMap fd).bind fun h =>
        match frameSpec h.readBuf with
        | .item f _ => some f
        | _ => none
  | _ => none

theorem of_nextFrame {f : Frame} (hpc : s.pc = .frames fd es) (hf : s.nextFrame = some f) :
    ∃ h rest, s.worker.websocketHandlerMap fd = some h ∧ frameSpec h.readBuf = .item f rest := by
  rw [nextFrame, hpc] at hf
  obtain ⟨h, hfd, hspec⟩ := Option.bind_eq_some_iff.1 hf
  refine ⟨h, ?_⟩
  split at hspec
  · rename_i f' rest hitem
    obtain rfl := Option.some.inj hspec
    exact ⟨rest, hfd, hitem⟩
  · cases hspec

/-- What one turn of the frame loop does when a complete frame is at the front of the buffer. -/
structure HandlesFrame (once : Prop) (s t : Loop) (fd : Fd) (es : List EpollEvent)
    (h : WebsocketHandler) (f : Frame) (rest : Bytes) : Prop where
  pc : t.pc = .frames fd es
  wellFormed : t.WellFormed once
  handles : ∃ request,
    s.worker.Handles fd h f { h.offerOption (reply f) with request := request, readBuf := rest }
      t.worker
  step : s.step .tau = some t

theorem handshaked_of_frames (hwf : s.WellFormed once) (hpc : s.pc = .frames fd es)
    (hfd : s.worker.websocketHandlerMap fd = some h) : h.status = .handsharked := by
  obtain ⟨h₁, hh₁, hs₁⟩ := hwf.pc.frames fd es hpc
  rw [hfd, Option.some.injEq] at hh₁
  rw [hh₁, hs₁]

/-- A turn of the frame loop that takes a frame. -/
theorem frames_turn (hwf : s.WellFormed once) (hpc : s.pc = .frames fd es)
    (hfd : s.worker.websocketHandlerMap fd = some h) {f : Frame} {rest : Bytes}
    (hspec : frameSpec h.readBuf = .item f rest) : ∃ t, HandlesFrame once s t fd es h f rest := by
  have hs := handshaked_of_frames hwf hpc hfd
  obtain ⟨request, w', hdrive, hh⟩ := NetworkInterface.driveIoFrame_item hfd hs
    hwf.worker.own hwf.worker.nodup hspec
  refine ⟨⟨w', .frames fd es⟩, rfl, ?_, ⟨request, hh⟩, ?_⟩
  · exact turn_wellFormed hwf (fun _ hw => by rw [hpc] at hw; cases hw)
      (Turn.handle hpc hfd hs hspec hh)
  · simp only [step, hpc, hdrive, afterUpgrade]

namespace HandlesFrame

variable {f : Frame} {rest : Bytes}

theorem map (ht : HandlesFrame once s t fd es h f rest) : ∃ h', t.worker.websocketHandlerMap fd =
    some h' ∧ h'.conn = h.conn ∧ h'.readBuf = rest := by
  obtain ⟨request, hh⟩ := ht.handles
  refine ⟨_, by rw [hh.map fd, if_pos rfl], ?_, rfl⟩
  simp

theorem trace (ht : HandlesFrame once s t fd es h f rest) :
    t.worker.trace = s.worker.trace ++ s.worker.handleObs fd h f := by
  obtain ⟨request, hh⟩ := ht.handles
  exact hh.trace

end HandlesFrame

/-- What the frame loop does to its connection. -/
structure Drains (s t : Loop) (fd : Fd) (es : List EpollEvent) (h : WebsocketHandler) : Prop where
  pc : t.pc = .batch es
  map : ∃ h', t.worker.websocketHandlerMap fd = some h' ∧ h'.conn = h.conn ∧
    h'.readBuf = frameDecoder.residual h.readBuf
  trace : ∃ δ, t.worker.trace = s.worker.trace ++ δ ∧
    handledFrames (about h.conn δ) = frameDecoder.items h.readBuf

/-- **The frame loop handles every complete frame of the buffer**, and stops. -/
theorem drain_frames (n : ℕ) (hwf : s.WellFormed once) (hpc : s.pc = .frames fd es)
    (hfd : s.worker.websocketHandlerMap fd = some h) (hn : h.readBuf.length < n) :
    Drains s (s.drain n) fd es h := by
  induction n generalizing s h with
  | zero => omega
  | succ n ih =>
      have hs := handshaked_of_frames hwf hpc hfd
      have hown := hwf.worker.own fd h hfd
      rw [drain_succ n hpc]
      cases hspec : frameSpec h.readBuf with
      | more =>
          have hstuck := stuck_of_more hspec
          obtain ⟨request, hdrive⟩ := NetworkInterface.driveIoFrame_more hfd hs hspec
          rw [hdrive, afterUpgrade, drain_batch n rfl]
          refine ⟨rfl, ⟨{ h with request := request }, by simp, rfl, ?_⟩, [], by simp, ?_⟩
          · rw [Decoder.residual_of_decodes (Decoder.Decodes.nil _) hstuck]
          · rw [Decoder.items_of_stuck hstuck]
            rfl
      | bad =>
          have hstuck := stuck_of_bad hspec
          obtain ⟨request, hdrive⟩ := NetworkInterface.driveIoFrame_bad hfd hs hown hspec
          rw [hdrive, afterUpgrade, drain_batch n rfl]
          refine ⟨rfl, ⟨{ h with request := request }, by simp, rfl, ?_⟩, [.parseError h.conn],
            by simp, ?_⟩
          · rw [Decoder.residual_of_decodes (Decoder.Decodes.nil _) hstuck]
          · rw [Decoder.items_of_stuck hstuck]
            simp [about_cons, Obs.conn, handledFrames]
      | item f rest =>
          obtain ⟨t, ht⟩ := frames_turn hwf hpc hfd hspec
          obtain ⟨h', hmap, hconn, hread⟩ := ht.map
          have hlt := length_lt_of_frameSpec_item hspec
          have hdrive : afterUpgrade fd es (s.worker.driveIoFrame fd) = t := by
            simpa [step, hpc] using ht.step
          rw [hdrive]
          obtain ⟨hpc', ⟨h₁, hh₁, hconn₁, hread₁⟩, δ, htrace, hitems⟩ :=
            ih ht.wellFormed ht.pc hmap (by rw [hread]; omega)
          refine ⟨hpc', ⟨h₁, hh₁, by rw [hconn₁, hconn], ?_⟩, s.worker.handleObs fd h f ++ δ, ?_,
            ?_⟩
          · rw [hread₁, hread]
            exact Decoder.residual_of_item hspec
          · rw [htrace, ht.trace, List.append_assoc]
          · have hfirst : frameDecoder.items h.readBuf = f :: frameDecoder.items rest :=
              Decoder.items_of_item hspec
            rw [about_append, handledFrames_append,
              NetworkInterface.handledFrames_handleObs hwf.worker hfd f, ← hconn, hitems, hread,
              hfirst]
            rfl

end Loop

/-! ### A session to exhibit runs with -/

/-- An upgrade request. -/
def upgradeRequest : Bytes :=
  ascii "GET /chat HTTP/1.1\r\nHost: localhost\r\nUpgrade: websocket\r\n" ++
    ascii "Connection: Upgrade\r\nSec-WebSocket-Key: dGhlIHNhbXBsZSBub25jZQ==\r\n" ++
    ascii "Sec-WebSocket-Version: 13\r\n\r\n"

/-- The listener is descriptor 3; clients are accepted on `fds` and upgraded one after the other. -/
def session (fds : List Fd) : List Input :=
  [.epollWait [⟨3, epollIn⟩], .tau] ++ fds.map Input.accept ++ [.acceptFail, .tau] ++
    fds.flatMap fun fd =>
      [.epollWait [⟨fd, epollIn⟩], .tau, .read upgradeRequest, .readAgain, .tau, .tau]

/-- An `EPOLLIN` event of the client on `fd` in which one `read` returns `data`, up to the frame
loop. -/
def receive (fd : Fd) (data : Bytes) : List Input :=
  [.epollWait [⟨fd, epollIn⟩], .tau, .read data, .readAgain]

/-- A masking key. -/
def sampleKey : Rfc6455.Key := #v[1, 2, 3, 4]

/-- A masked text frame that says "hi". -/
def hiFrame : WireFrame := ⟨true, 0, opText, some sampleKey, ascii "hi"⟩

end WebSocketDemo
