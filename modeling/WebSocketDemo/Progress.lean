/-
**The event loop comes back to `epoll_wait`.**

Between two calls of `epoll_wait` the loop takes the events of a batch one after the other.  An
event is over after a bounded number of system calls: `read` fills a buffer that is bounded, every
frame that is handled makes it shorter, and `send` empties one that is bounded.  Only `accept` may
succeed as often as it likes.

Main definitions:

* `Input.isWork` — the steps that are counted;
* `Loop.cost` — how many of them there can still be.

Main results:

* `Loop.step_cost` — **every counted step makes the cost smaller, and no other step makes it
  larger**;
* `loop_returns` — **a batch is over after a bounded number of steps, and can always be ended**.
-/

import WebSocketDemo.Execution

set_option relaxedAutoImplicit false
set_option autoImplicit false

namespace WebSocketDemo

open PrefixDecoder

/-- Steps within a batch, but for those that may be taken any number of times. -/
def Input.isWork : Input → Bool
  | .epollWait _ => false
  | .accept _ => false
  | .rehash _ => false
  | _ => true

theorem Input.ne_epollWait {i : Input} (hi : i.isWork = true) (es : List EpollEvent) :
    i ≠ .epollWait es := by
  rintro rfl
  cases hi

/-- What is behind the header section is not longer than the buffer. -/
theorem WebsocketHandler.length_rest_le {h : WebsocketHandler} {headerMap : HeaderMap}
    {rest : Bytes} (hup : h.upgrade = .accept headerMap rest) : rest.length ≤ h.readBuf.length := by
  unfold WebsocketHandler.upgrade at hup
  split_ifs at hup
  split at hup
  · cases hup
  · dsimp only at hup
    split_ifs at hup
    injection hup with _ hrest
    rw [← hrest, List.length_drop]
    exact Nat.sub_le _ _

namespace NetworkInterface

/-- The length of `read_buf_` of the handler mapped under `fd`. -/
def readLength (w : NetworkInterface) (fd : Fd) : ℕ :=
  (w.websocketHandlerMap fd).elim 0 fun h => h.readBuf.length

/-- The length of `write_buf_`. -/
def writeLength (w : NetworkInterface) (fd : Fd) : ℕ :=
  (w.websocketHandlerMap fd).elim 0 fun h => h.writeBuf.length

section Lengths

variable {w : NetworkInterface} {fd : Fd} {h : WebsocketHandler}

theorem readLength_of_map (hfd : w.websocketHandlerMap fd = some h) :
    w.readLength fd = h.readBuf.length := by
  rw [readLength, hfd, Option.elim_some]

theorem writeLength_of_map (hfd : w.websocketHandlerMap fd = some h) :
    w.writeLength fd = h.writeBuf.length := by
  rw [writeLength, hfd, Option.elim_some]

end Lengths

end NetworkInterface

/-- The most steps one event can take, the dispatch among them. -/
def eventCost : ℕ := wsMaxWriteBuffer + 2

namespace Loop

variable {once : Prop} {s t : Loop} {i : Input} {fd listenfd : Fd} {h : WebsocketHandler}

/-- **How many steps the batch can still take.**  A byte that is read may be a frame later. -/
def cost (s : Loop) : ℕ :=
  match s.pc with
  | .waiting => 0
  | .batch es => eventCost * es.length + 1
  | .accepting es => eventCost * es.length + 2
  | .reading fd es => eventCost * es.length + 3 + (2 * wsMaxReadBuffer - s.worker.readLength fd)
  | .frames fd es => eventCost * es.length + 2 + s.worker.readLength fd
  | .flushing fd es => eventCost * es.length + 2 + s.worker.writeLength fd

/-- The buffers are within their bounds. -/
def Bounded (s : Loop) : Prop := ∀ fd h, s.worker.websocketHandlerMap fd = some h →
  h.readBuf.length ≤ wsMaxReadBuffer ∧ h.writeBuf.length ≤ wsMaxWriteBuffer

theorem Bounded.readLength_le (hb : s.Bounded) (fd : Fd) :
    s.worker.readLength fd ≤ wsMaxReadBuffer := by
  cases hfd : s.worker.websocketHandlerMap fd with
  | none =>
      rw [NetworkInterface.readLength, hfd]
      exact Nat.zero_le _
  | some h =>
      rw [NetworkInterface.readLength_of_map hfd]
      exact (hb fd h hfd).1

theorem Bounded.writeLength_le (hb : s.Bounded) (fd : Fd) :
    s.worker.writeLength fd ≤ wsMaxWriteBuffer := by
  cases hfd : s.worker.websocketHandlerMap fd with
  | none =>
      rw [NetworkInterface.writeLength, hfd]
      exact Nat.zero_le _
  | some h =>
      rw [NetworkInterface.writeLength_of_map hfd]
      exact (hb fd h hfd).2

/-- What an event costs is enough for the two buffers. -/
theorem le_eventCost : 2 * wsMaxReadBuffer + 3 ≤ eventCost ∧ wsMaxWriteBuffer + 2 = eventCost := by
  decide

/-- The cost is bounded by the events there are. -/
theorem Bounded.cost_le (hb : s.Bounded) : s.cost ≤ eventCost * (s.pc.rest.length + 1) := by
  obtain ⟨hread, hwrite⟩ := le_eventCost
  rw [Nat.mul_succ]
  cases hpc : s.pc with
  | waiting => simp only [cost, hpc, Nat.zero_le]
  | batch es =>
      simp only [cost, hpc, Pc.rest]
      omega
  | accepting es =>
      simp only [cost, hpc, Pc.rest]
      omega
  | reading fd es =>
      simp only [cost, hpc, Pc.rest]
      omega
  | frames fd es =>
      have hlen := hb.readLength_le fd
      simp only [cost, hpc, Pc.rest]
      omega
  | flushing fd es =>
      have hlen := hb.writeLength_le fd
      simp only [cost, hpc, Pc.rest]
      omega

/-- The next event of the batch is taken up. -/
theorem cost_dispatch (hb : s.Bounded) {ev : EpollEvent} {es : List EpollEvent}
    (hpc : s.pc = .batch (ev :: es)) : 1 + (dispatch s.worker ev es).cost ≤ s.cost := by
  obtain ⟨hread, hwrite⟩ := le_eventCost
  have hs : s.cost = eventCost * es.length + eventCost + 1 := by
    simp only [cost, hpc, List.length_cons, Nat.mul_succ]
  rw [hs]
  unfold dispatch
  split_ifs
  · simp only [cost]
    omega
  · simp only [cost]
    omega
  · cases hfd : s.worker.websocketHandlerMap ev.fd with
    | none =>
        simp only [cost]
        omega
    | some h =>
        simp only [cost]
        omega
  · have hlen := hb.writeLength_le ev.fd
    cases hfd : s.worker.websocketHandlerMap ev.fd with
    | none =>
        simp only [cost]
        omega
    | some h =>
        simp only [cost]
        omega
  · simp only [cost]
    omega

/-- `drive_io` gets to the frame loop with a buffer that has not grown, or the event is over. -/
theorem cost_readAgain (hwf : s.WellFormed once) (hb : s.Bounded) {es : List EpollEvent}
    (hpc : s.pc = .reading fd es) :
    1 + (afterUpgrade fd es (s.worker.driveIoUpgrade fd)).cost ≤ s.cost := by
  obtain ⟨hlisten, h, hfd⟩ := hwf.pc.current fd (by rw [hpc]; rfl)
  have hown := hwf.worker.own fd h hfd
  have hlen := (hb fd h hfd).1
  have hs : s.cost = eventCost * es.length + 3 + (2 * wsMaxReadBuffer - h.readBuf.length) := by
    simp only [cost, hpc, NetworkInterface.readLength_of_map hfd]
  rw [hs]
  cases hstatus : h.status with
  | handsharked =>
      rw [NetworkInterface.driveIoUpgrade_handsharked hfd hstatus]
      simp only [afterUpgrade, cost, NetworkInterface.readLength_of_map hfd]
      omega
  | unconnect =>
      cases hup : h.upgrade with
      | wait =>
          rw [NetworkInterface.driveIoUpgrade_wait hfd hstatus hup]
          simp only [afterUpgrade, cost]
          omega
      | reject readBuf headerMap =>
          rw [NetworkInterface.driveIoUpgrade_reject hfd hstatus hown hup]
          simp only [afterUpgrade, cost]
          omega
      | accept headerMap rest =>
          obtain ⟨w', hdrive, hu⟩ := NetworkInterface.driveIoUpgrade_accept hfd hstatus hown hlisten
            (hwf.worker.nonneg fd h hfd hlisten) (hwf.worker.writeBuf fd h hfd hstatus) hup
          have hmap : w'.websocketHandlerMap fd = some (h.upgraded headerMap rest) := by
            rw [hu.map, Function.update_self]
          have hrest := h.length_rest_le hup
          rw [hdrive]
          simp only [afterUpgrade, cost, NetworkInterface.readLength_of_map hmap,
            WebsocketHandler.upgraded]
          omega

/-- A turn of the frame loop takes a frame off the buffer, or it is the last. -/
theorem cost_frames (hwf : s.WellFormed once) {es : List EpollEvent} (hpc : s.pc = .frames fd es) :
    1 + (afterUpgrade fd es (s.worker.driveIoFrame fd)).cost ≤ s.cost := by
  obtain ⟨h, hfd, hstatus⟩ := hwf.pc.frames fd es hpc
  have hs : s.cost = eventCost * es.length + 2 + h.readBuf.length := by
    simp only [cost, hpc, NetworkInterface.readLength_of_map hfd]
  rw [hs]
  cases hspec : frameSpec h.readBuf with
  | more =>
      obtain ⟨request, hdrive⟩ := NetworkInterface.driveIoFrame_more hfd hstatus hspec
      rw [hdrive]
      simp only [afterUpgrade, cost]
      omega
  | bad =>
      obtain ⟨request, hdrive⟩ :=
        NetworkInterface.driveIoFrame_bad hfd hstatus (hwf.worker.own fd h hfd) hspec
      rw [hdrive]
      simp only [afterUpgrade, cost]
      omega
  | item f rest =>
      obtain ⟨request, w', hdrive, hh⟩ := NetworkInterface.driveIoFrame_item hfd hstatus
        hwf.worker.own hwf.worker.nodup hspec
      have hlt := length_lt_of_frameSpec_item hspec
      have hmap := hh.map fd
      rw [if_pos rfl] at hmap
      rw [hdrive]
      simp only [afterUpgrade, cost, NetworkInterface.readLength_of_map hmap]
      omega

/-- **A step that is counted makes the cost smaller, and no step makes it larger.** -/
theorem step_cost (hwf : s.WellFormed once) (hb : s.Bounded) (hi : ∀ es, i ≠ .epollWait es)
    (hs : s.step i = some t) : (if i.isWork then 1 else 0) + t.cost ≤ s.cost := by
  cases step_branch hs with
  | rehash order hperm => exact Nat.le_of_eq (Nat.zero_add _)
  | epollWait es hpc => exact absurd rfl (hi es)
  | close hpc =>
      simp only [cost, hpc, Input.isWork, if_true]
      omega
  | dispatch ev es hpc => exact cost_dispatch hb hpc
  | accept fd es hpc h0 hne hfd =>
      simp only [cost, hpc, Input.isWork]
      exact Nat.le_of_eq (Nat.zero_add _)
  | acceptFail es hpc =>
      simp only [cost, hpc, Input.isWork, if_true]
      omega
  | received fd es h data hpc hfd h0 hchunk hcap =>
      have hmap : ((s.worker.setHandler fd { h with readBuf := h.readBuf ++ data }).emit
          (.received h.conn data)).websocketHandlerMap fd =
            some { h with readBuf := h.readBuf ++ data } := by
        simp
      simp only [cost, hpc, Input.isWork, if_true, NetworkInterface.readLength_of_map hfd,
        NetworkInterface.readLength_of_map hmap, List.length_append]
      omega
  | readRefused fd es h data hpc hfd h0 hchunk hcap =>
      simp only [cost, hpc, Input.isWork, if_true]
      omega
  | readEof fd es h hpc hfd =>
      simp only [cost, hpc, Input.isWork, if_true]
      omega
  | readError fd es hpc =>
      simp only [cost, hpc, Input.isWork, if_true]
      omega
  | readAgain fd es hpc => exact cost_readAgain hwf hb hpc
  | frames fd es hpc => exact cost_frames hwf hpc
  | flushed fd es hpc hno =>
      simp only [cost, hpc, Input.isWork, if_true]
      omega
  | sent fd es h n hpc hfd h0 hle =>
      have hmap : ((s.worker.setHandler fd { h with writeBuf := h.writeBuf.drop n }).emit
          (.sent h.conn (h.writeBuf.take n))).websocketHandlerMap fd =
            some { h with writeBuf := h.writeBuf.drop n } := by
        simp
      simp only [cost, hpc, Input.isWork, if_true, NetworkInterface.writeLength_of_map hfd,
        NetworkInterface.writeLength_of_map hmap, List.length_drop]
      omega
  | sendAgain fd es hpc hyes =>
      simp only [cost, hpc, Input.isWork, if_true]
      omega
  | sendError fd es hpc hyes =>
      simp only [cost, hpc, Input.isWork, if_true]
      omega

/-- **The loop never gets stuck**: wherever it does not wait, a step that counts is possible. -/
theorem exists_work (hpc : s.pc ≠ .waiting) : ∃ i t, i.isWork = true ∧ s.step i = some t := by
  cases hs : s.pc with
  | waiting => exact absurd hs hpc
  | batch es =>
      cases es with
      | nil => exact ⟨.tau, _, rfl, step_of_branch (Branch.close hs)⟩
      | cons ev es => exact ⟨.tau, _, rfl, step_of_branch (Branch.dispatch ev es hs)⟩
  | accepting es => exact ⟨.acceptFail, _, rfl, step_of_branch (Branch.acceptFail es hs)⟩
  | reading fd es => exact ⟨.readAgain, _, rfl, step_of_branch (Branch.readAgain fd es hs)⟩
  | frames fd es => exact ⟨.tau, _, rfl, step_of_branch (Branch.frames fd es hs)⟩
  | flushing fd es =>
      -- `EAGAIN` while something is pending, and otherwise the event is over
      cases hp : s.worker.writePendingAt fd with
      | true => exact ⟨.sendAgain, _, rfl, step_of_branch (Branch.sendAgain fd es hs hp)⟩
      | false => exact ⟨.tau, _, rfl, step_of_branch (Branch.flushed fd es hs hp)⟩

instance (s : Loop) (i : Input) : Decidable (AnyBatch s i) := inferInstanceAs (Decidable True)

end Loop

/-- **The event loop comes back.**  Whatever happened before and whatever the system calls answer, a
batch is over after a number of steps that its events bound, the calls of `accept` that succeed
not counted; and from wherever the loop is, it can get there without accepting anybody. -/
theorem loop_returns {s : Loop} {listenfd : Fd} (hr : Loop.Reachable Loop.AnyBatch listenfd s) :
    (∀ is t, Transition.runOk Loop.step Loop.AnyBatch s is = some t →
      (∀ i ∈ is, ∀ es, i ≠ .epollWait es) →
        is.countP Input.isWork ≤ eventCost * (s.pc.rest.length + 1)) ∧
    ∃ is t, Transition.runOk Loop.step Loop.AnyBatch s is = some t ∧ t.pc = .waiting ∧
      ∀ i ∈ is, i.isWork = true := by
  have hbounded (t : Loop) (ht : Loop.Reachable Loop.AnyBatch listenfd t) : t.Bounded :=
    fun fd h hfd => Loop.bounded Loop.promises_anyBatch ht hfd
  have hwf (t : Loop) (ht : Loop.Reachable Loop.AnyBatch listenfd t) :=
    Loop.reachable_wellFormed Loop.promises_anyBatch ht
  have hP : ∀ s i t, Loop.Reachable Loop.AnyBatch listenfd s → Loop.AnyBatch s i →
      s.step i = some t → Loop.Reachable Loop.AnyBatch listenfd t :=
    fun s i t hs hok ht => hs.tail i hok ht
  constructor
  · intro is t ht his
    have hcount := Transition.countP_add_rank_le Input.isWork Loop.cost hP
      (fun s i t hs hi ht => Loop.step_cost (hwf s hs) (hbounded s hs) hi ht) hr his ht
    have hcost := (hbounded s hr).cost_le
    omega
  · have hgo (s : Loop) (hs : Loop.Reachable Loop.AnyBatch listenfd s) (hpc : s.pc ≠ .waiting) :
        ∃ i t, i.isWork = true ∧ Loop.AnyBatch s i ∧ s.step i = some t ∧ t.cost < s.cost := by
      obtain ⟨i, t, hi, ht⟩ := Loop.exists_work hpc
      have hcost := Loop.step_cost (hwf s hs) (hbounded s hs) (Input.ne_epollWait hi) ht
      rw [if_pos hi] at hcost
      exact ⟨i, t, hi, trivial, ht, by omega⟩
    obtain ⟨is, t, his, ht, hstop⟩ := Transition.exists_run_to (fun s : Loop => s.pc = .waiting)
      Loop.cost hP hgo hr
    exact ⟨is, t, ht, hstop, his⟩

/-- A batch of two events: somebody connects while a client has sent something. -/
theorem loop_returns_pair : ∃ s, Loop.Reachable Loop.AnyBatch 3 s ∧ s.pc.rest.length = 2 ∧
    ∃ is t, Transition.runOk Loop.step Loop.AnyBatch s is = some t ∧ t.pc = .waiting ∧
      is.countP Input.isWork ≤ 3 * eventCost := by
  have hrun : ((Loop.init 3).exec (session [5] ++ [.epollWait [⟨3, epollIn⟩, ⟨5, epollIn⟩]])).map
      (fun s => s.pc.rest.length) = some 2 := by
    decide +kernel
  obtain ⟨s, hr, hlen⟩ := Loop.reachable_of_exec _ hrun
  obtain ⟨hbound, is, t, ht, hwait, his⟩ := loop_returns (Loop.reachable_anyBatch hr)
  have hcount := hbound is t ht fun i hi => Input.ne_epollWait (his i hi)
  rw [hlen, Nat.mul_comm] at hcount
  exact ⟨s, Loop.reachable_anyBatch hr, hlen, is, t, ht, hwait, hcount⟩

end WebSocketDemo
