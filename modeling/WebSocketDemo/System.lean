/-
**The server and the script clients** as one transition system.

A worker and its clients are joined by connections that lose, reorder and invent nothing: of the
bytes written at one end some have been read at the other and the rest is on the way.  A step is a
step of the worker or something a client does; `read` at either end returns any first part of what
is on the way, so that every grouping of the bytes and every interleaving of the parties is a run.

Clients are numbered as the worker will number their connections, in the order of `accept`; the
listener has number 0.  A connection may end at any time, as far as the worker is concerned; a
client that stops is one that takes no more steps.  For a client its connection ends when the worker
has closed it: the client reads what is on the way and then the end of the stream, or finds the
connection lost.

Main definitions:

* `System`, `System.step` — the state, and what the parties do;
* `System.Closed` — the worker has closed a connection;
* `System.Contract`, `System.NoSurplus` — what is promised by the system calls and the scripts;
* `System.Consistent` — the invariant: both ends of every connection agree.

Main results:

* `System.Consistent.step`, `System.consistent` — **nothing is lost on the way, in any run**.
-/

import WebSocketDemo.ClientHandshake
import WebSocketDemo.Descriptors
import WebSocketDemo.Service

set_option relaxedAutoImplicit false
set_option autoImplicit false

namespace WebSocketDemo

open PrefixDecoder Rfc6455

/-- A call of `send_text_bytes`, with the four random bytes of its frame. -/
structure Utterance where
  mask : Key
  payload : Bytes
  deriving DecidableEq

namespace Utterance

/-- The frame that is written. -/
def frame (u : Utterance) : WireFrame := ⟨true, 0, opText, some u.mask, u.payload⟩

end Utterance

/-- The worker, its clients, and what is on the way between them.  `said` and `heard` are history:
what a client has sent, and the bytes it has read. -/
structure System where
  worker : Loop
  client : ℕ → ScriptClient
  up : ℕ → Bytes
  down : ℕ → Bytes
  said : ℕ → List Utterance
  heard : ℕ → Bytes

/-- What can happen. -/
inductive Action
  /-- A step of the worker. -/
  | worker (i : Input)
  /-- `handshake`, with the sixteen random bytes of the key. -/
  | handshake (c : ℕ) (nonce : Vector UInt8 16)
  /-- `send_text_bytes`. -/
  | sendTextBytes (c : ℕ) (u : Utterance)
  /-- `reader.read` returns `n` bytes. -/
  | read (c : ℕ) (n : ℕ)
  /-- `reader.read` returns nothing, at the end of the stream. -/
  | readEof (c : ℕ)
  /-- `reader.read` or `writer.drain` finds the connection lost. -/
  | connectionLost (c : ℕ)
  deriving DecidableEq

namespace ScriptClient

/-- A client that has not called `handshake`. -/
def idle : ScriptClient := ⟨[], [], .start, []⟩

/-- The handshake is done. -/
def isOpen (c : ScriptClient) : Bool :=
  match c.pc with
  | .exact _ _ _ => true
  | _ => false

end ScriptClient

namespace System

/-! ### Steps -/

/-- The worker waits and no client has begun. -/
def init (listenfd : Fd) : System where
  worker := Loop.init listenfd
  client := fun _ => ScriptClient.idle
  up := fun _ => []
  down := fun _ => []
  said := fun _ => []
  heard := fun _ => []

/-- A step of the worker.  What `read` returns has been on the way to it, and what `send` accepts is
on the way from then on. -/
def workerStep (s : System) : Input → Option System
  | .read data =>
      match s.worker.current with
      | none => none
      | some h =>
          if data <+: s.up h.conn then
            (s.worker.step (.read data)).map fun t =>
              { s with
                worker := t
                up := Function.update s.up h.conn ((s.up h.conn).drop data.length) }
          else none
  | .send n =>
      match s.worker.current with
      | none => none
      | some h =>
          (s.worker.step (.send n)).map fun t =>
            { s with
              worker := t
              down := Function.update s.down h.conn (s.down h.conn ++ h.writeBuf.take n) }
  | i => (s.worker.step i).map fun t => { s with worker := t }

/-- The worker has closed the connection of `c`. -/
def Closed (s : System) (c : ℕ) : Prop := 0 < closings c s.worker.worker.trace

instance (s : System) (c : ℕ) : Decidable (s.Closed c) :=
  inferInstanceAs (Decidable (0 < closings c s.worker.worker.trace))

/-- **A step of the system.** -/
def step (host : Bytes) (port : ℕ) (s : System) : Action → Option System
  | .worker i => s.workerStep i
  | .handshake c nonce =>
      let key := Rfc4648.encode nonce.toList
      if c ≠ 0 ∧ (s.client c).pc = .start then
        some { s with
          client := Function.update s.client c (ScriptClient.new nonce.toList).connect
          up := Function.update s.up c (s.up c ++ ScriptClient.request host port key) }
      else none
  | .sendTextBytes c u =>
      if (s.client c).isOpen then
        some { s with
          up := Function.update s.up c (s.up c ++ ScriptClient.buildTextFrame u.mask u.payload)
          said := Function.update s.said c (s.said c ++ [u]) }
      else none
  | .read c n =>
      if 0 < n ∧ n ≤ (s.client c).asks ∧ n ≤ (s.down c).length then
        some { s with
          client := Function.update s.client c ((s.client c).resume ((s.down c).take n))
          down := Function.update s.down c ((s.down c).drop n)
          heard := Function.update s.heard c (s.heard c ++ (s.down c).take n) }
      else none
  | .readEof c =>
      if s.Closed c ∧ s.down c = [] ∧ 0 < (s.client c).asks then
        some { s with client := Function.update s.client c ((s.client c).resume []) }
      else none
  | .connectionLost c =>
      if s.Closed c ∧ 0 < (s.client c).asks then
        some { s with client := Function.update s.client c (s.client c).raise }
      else none

/-- What the system calls promise, and the limit the scripts keep. -/
def Contract (s : System) : Action → Prop
  | .worker i => Loop.EpollContract s.worker i
  | .sendTextBytes _ u => u.payload.length ≤ ScriptClient.maxPayload
  | _ => True

instance (s : System) (a : Action) : Decidable (s.Contract a) := by
  unfold Contract
  split <;> infer_instance

/-- A client that waits for the header section reads nothing that stands behind it. -/
def NoSurplus (s : System) : Action → Prop
  | .read c n =>
      match (s.client c).pc with
      | .headers buf => ¬ Http.crlf ++ Http.crlf <:+: (buf ++ (s.down c).take n).dropLast
      | _ => True
  | _ => True

instance (s : System) (a : Action) : Decidable (s.NoSurplus a) := by
  unfold NoSurplus
  split
  · split <;> infer_instance
  · infer_instance

/-- The states the system reaches. -/
def Reachable (ok : System → Action → Prop) (host : Bytes) (port : ℕ) (listenfd : Fd) (s : System) :
    Prop :=
  Transition.Reaches (step host port) ok (init listenfd) s

/-! ### The end of a connection -/

/-- The client `c` raises an exception. -/
def raise (s : System) (c : ℕ) : System :=
  { s with client := Function.update s.client c (s.client c).raise }

theorem raise_client_self (s : System) (c : ℕ) : (s.raise c).client c = (s.client c).raise :=
  Function.update_self _ _ _

theorem raise_client_of_ne {s : System} {c d : ℕ} (h : d ≠ c) :
    (s.raise c).client d = s.client d :=
  Function.update_of_ne h _ _

/-- **What the end of a connection does**: it ends the client, and nothing else. -/
theorem step_ends {host : Bytes} {port : ℕ} {s t : System} {c : ℕ} {a : Action}
    (ha : a = .readEof c ∨ a = .connectionLost c) (hs : s.step host port a = some t) :
    s.Closed c ∧ 0 < (s.client c).asks ∧ t = s.raise c := by
  rcases ha with rfl | rfl
  · simp only [step] at hs
    split_ifs at hs with hends
    obtain ⟨hclosed, _, hasks⟩ := hends
    rw [ScriptClient.resume_nil hasks] at hs
    exact ⟨hclosed, hasks, (Option.some.inj hs).symm⟩
  · simp only [step] at hs
    split_ifs at hs with hends
    exact ⟨hends.1, hends.2, (Option.some.inj hs).symm⟩

/-! ### Both ends of a connection -/

/-- The trace of the worker, as far as it concerns `c`. -/
def history (s : System) (c : ℕ) : List Obs := about c s.worker.worker.trace

/-- All that the client `c` has written. -/
def written (host : Bytes) (port : ℕ) (s : System) (c : ℕ) : Bytes :=
  if (s.client c).pc = .start then []
  else
    ScriptClient.request host port (s.client c).key ++
      (s.said c).flatMap fun u => ScriptClient.buildTextFrame u.mask u.payload

/-- **Both ends of every connection agree**: what is on the way is what was written and has not been
read. -/
structure Consistent (host : Bytes) (port : ℕ) (listenfd : Fd) (s : System) : Prop where
  worker : Loop.Reachable Loop.EpollContract listenfd s.worker
  up : ∀ c, readBytes (s.history c) ++ s.up c = s.written host port c
  down : ∀ c, sentBytes (s.history c) = s.heard c ++ s.down c
  start : ∀ c, (s.client c).pc = .start →
    s.client c = ScriptClient.idle ∧ s.said c = [] ∧ s.heard c = []
  key : ∀ c, (s.client c).pc ≠ .start →
    ∃ nonce : Vector UInt8 16, (s.client c).key = Rfc4648.encode nonce.toList
  short : ∀ c, ∀ u ∈ s.said c, u.payload.length ≤ ScriptClient.maxPayload

/-- What a step of the worker does to the connections. -/
structure WorkerStep (s : System) (i : Input) (t : System) : Prop where
  worker : s.worker.step i = some t.worker
  client : t.client = s.client
  said : t.said = s.said
  heard : t.heard = s.heard
  up : ∀ c, readBytes (t.history c) ++ t.up c = readBytes (s.history c) ++ s.up c
  down : ∀ c, ∃ b, sentBytes (t.history c) = sentBytes (s.history c) ++ b ∧ t.down c = s.down c ++ b

section Steps

variable {host : Bytes} {port : ℕ} {listenfd : Fd} {s t : System} {c : ℕ} {i : Input} {a : Action}

/-- **A step of the worker moves bytes from one place to another.** -/
theorem workerStep_moves {once : Prop} (hwf : s.worker.WellFormed once)
    (h : s.workerStep i = some t) :
    WorkerStep s i t := by
  -- neither `read` nor `send`
  have hquiet (hread : ∀ data, i ≠ .read data) (hsend : ∀ n, i ≠ .send n)
      (h : (s.worker.step i).map (fun t => { s with worker := t }) = some t) :
      WorkerStep s i t := by
    obtain ⟨w, hw, rfl⟩ := Option.map_eq_some_iff.1 h
    have hbytes := bytes_of_quiet (Loop.step_quiet hwf hw hread hsend)
    refine ⟨hw, rfl, rfl, rfl, fun c => ?_, fun c => ⟨[], ?_, (List.append_nil _).symm⟩⟩
    · exact congrArg (· ++ s.up c) (hbytes c).1
    · exact (hbytes c).2.trans (List.append_nil _).symm
  cases i with
  | read data =>
      simp only [workerStep] at h
      cases hcur : s.worker.current with
      | none => simp [hcur] at h
      | some hd =>
          simp only [hcur] at h
          split_ifs at h with hpre
          obtain ⟨w, hw, rfl⟩ := Option.map_eq_some_iff.1 h
          obtain ⟨hd', hcur', hbytes⟩ := Loop.step_read hw
          obtain rfl : hd' = hd := by
            rw [hcur] at hcur'
            exact (Option.some.inj hcur').symm
          refine ⟨hw, rfl, rfl, rfl, fun c => ?_, fun c => ⟨[], ?_, (List.append_nil _).symm⟩⟩
          · change readBytes (about c w.worker.trace) ++ Function.update s.up hd'.conn _ c = _
            rw [(hbytes c).1]
            by_cases hc : c = hd'.conn
            · subst hc
              obtain ⟨rest, hrest⟩ := hpre
              rw [if_pos rfl, Function.update_self, ← hrest, List.drop_left, List.append_assoc]
              rfl
            · rw [if_neg hc, Function.update_of_ne hc, List.append_nil]
              rfl
          · exact (hbytes c).2.trans (List.append_nil _).symm
  | send n =>
      simp only [workerStep] at h
      cases hcur : s.worker.current with
      | none => simp [hcur] at h
      | some hd =>
          simp only [hcur] at h
          obtain ⟨w, hw, rfl⟩ := Option.map_eq_some_iff.1 h
          obtain ⟨hd', hcur', hbytes⟩ := Loop.step_send hw
          obtain rfl : hd' = hd := by
            rw [hcur] at hcur'
            exact (Option.some.inj hcur').symm
          refine ⟨hw, rfl, rfl, rfl, fun c => ?_,
            fun c => ⟨if c = hd'.conn then hd'.writeBuf.take n else [], (hbytes c).2, ?_⟩⟩
          · exact congrArg (· ++ s.up c) (hbytes c).1
          · by_cases hc : c = hd'.conn
            · subst hc
              rw [if_pos rfl]
              exact Function.update_self _ _ _
            · rw [if_neg hc, List.append_nil]
              exact Function.update_of_ne hc _ _
  | _ => exact hquiet nofun nofun h

/-- A client that asks for something has begun. -/
theorem begun_of_asks (h : 0 < (s.client c).asks) : (s.client c).pc ≠ .start := by
  intro he
  rw [ScriptClient.asks, he] at h
  exact absurd h (Nat.lt_irrefl 0)

/-- A client that asks for something has raised no exception. -/
theorem not_raised_of_asks (h : 0 < (s.client c).asks) : (s.client c).pc ≠ .raised := by
  intro he
  rw [ScriptClient.asks, he] at h
  exact absurd h (Nat.lt_irrefl 0)

/-- A client that raises an exception has written what it had before. -/
theorem written_raise (hne : (s.client c).pc ≠ .start) (d : ℕ) :
    (s.raise c).written host port d = s.written host port d := by
  by_cases hdc : d = c
  · subst hdc
    rw [written, written, raise_client_self, if_neg (by simp), if_neg hne]
    rfl
  · rw [written, written, raise_client_of_ne hdc]
    rfl

theorem Consistent.raise (h : Consistent host port listenfd s) (hasks : 0 < (s.client c).asks) :
    Consistent host port listenfd (s.raise c) := by
  have hne := begun_of_asks hasks
  refine ⟨h.worker, fun d => ?_, h.down, fun d hd => ?_, fun d hd => ?_, h.short⟩
  · rw [written_raise hne]
    exact h.up d
  · by_cases hdc : d = c
    · subst hdc
      rw [raise_client_self] at hd
      cases hd
    · rw [raise_client_of_ne hdc] at hd ⊢
      exact h.start d hd
  · by_cases hdc : d = c
    · subst hdc
      rw [raise_client_self]
      exact h.key d hne
    · rw [raise_client_of_ne hdc] at hd ⊢
      exact h.key d hd

/-- **Every step keeps both ends of every connection in agreement.** -/
theorem Consistent.step (h : Consistent host port listenfd s) (hok : s.Contract a)
    (hs : s.step host port a = some t) : Consistent host port listenfd t := by
  have hwf := Loop.reachable_wellFormed Loop.promises_epollContract h.worker
  cases a with
  | worker i =>
      obtain ⟨hw, hclient, hsaid, hheard, hup, hdown⟩ := workerStep_moves hwf hs
      have hwritten (c : ℕ) : t.written host port c = s.written host port c := by
        rw [written, written, hclient, hsaid]
      refine ⟨h.worker.tail i hok hw, fun c => ?_, fun c => ?_, ?_, ?_, ?_⟩
      · rw [hup, hwritten]
        exact h.up c
      · obtain ⟨b, hsent, hb⟩ := hdown c
        rw [hsent, hb, hheard, h.down c, List.append_assoc]
      · rw [hclient, hsaid, hheard]
        exact h.start
      · rw [hclient]
        exact h.key
      · rw [hsaid]
        exact h.short
  | handshake c nonce =>
      simp only [System.step] at hs
      split_ifs at hs with hc
      obtain rfl := Option.some.inj hs
      obtain ⟨hidle, hsaid, hheard⟩ := h.start c hc.2
      have hne := ScriptClient.connect_begun (ScriptClient.new nonce.toList)
      refine ⟨h.worker, fun d => ?_, h.down, fun d hd => ?_, fun d hd => ?_, h.short⟩
      · have hold := h.up d
        simp only [written] at hold ⊢
        by_cases hdc : d = c
        · subst hdc
          rw [if_pos hc.2] at hold
          rw [Function.update_self, Function.update_self, if_neg hne, hsaid, List.flatMap_nil,
            List.append_nil, ← List.append_assoc]
          exact congrArg (· ++ ScriptClient.request host port (Rfc4648.encode nonce.toList)) hold
        · rw [Function.update_of_ne hdc, Function.update_of_ne hdc]
          exact hold
      · dsimp only at hd ⊢
        by_cases hdc : d = c
        · subst hdc
          rw [Function.update_self] at hd
          exact absurd hd hne
        · rw [Function.update_of_ne hdc] at hd ⊢
          exact h.start d hd
      · dsimp only at hd ⊢
        by_cases hdc : d = c
        · subst hdc
          rw [Function.update_self]
          exact ⟨nonce, rfl⟩
        · rw [Function.update_of_ne hdc] at hd ⊢
          exact h.key d hd
  | sendTextBytes c u =>
      simp only [System.step] at hs
      split_ifs at hs with hopen
      obtain rfl := Option.some.inj hs
      have hne : (s.client c).pc ≠ .start := by
        intro he
        simp [ScriptClient.isOpen, he] at hopen
      refine ⟨h.worker, fun d => ?_, h.down, fun d hd => ?_, h.key, fun d => ?_⟩
      · have hold := h.up d
        simp only [written] at hold ⊢
        by_cases hdc : d = c
        · subst hdc
          rw [if_neg hne] at hold
          rw [Function.update_self, Function.update_self, if_neg hne, List.flatMap_append,
            ← List.append_assoc, ← List.append_assoc, ← hold]
          simp [history]
        · rw [Function.update_of_ne hdc, Function.update_of_ne hdc]
          exact hold
      · have hdc : d ≠ c := by
          rintro rfl
          exact hne hd
        dsimp only
        rw [Function.update_of_ne hdc]
        exact h.start d hd
      · dsimp only
        by_cases hdc : d = c
        · subst hdc
          rw [Function.update_self]
          intro u' hu'
          rcases List.mem_append.1 hu' with hu' | hu'
          · exact h.short d u' hu'
          · rw [List.mem_singleton.1 hu']
            exact hok
        · rw [Function.update_of_ne hdc]
          exact h.short d
  | read c n =>
      simp only [System.step] at hs
      split_ifs at hs with hn
      obtain rfl := Option.some.inj hs
      obtain ⟨hpos, hasks, hlen⟩ := hn
      have hne := begun_of_asks (hpos.trans_le hasks)
      obtain ⟨hkey, hbegun⟩ := ScriptClient.key_resume (b := (s.down c).take n) hne
      refine ⟨h.worker, fun d => ?_, fun d => ?_, fun d hd => ?_, fun d hd => ?_, h.short⟩
      · have hold := h.up d
        simp only [written] at hold ⊢
        by_cases hdc : d = c
        · subst hdc
          rw [if_neg hne] at hold
          rw [Function.update_self, if_neg hbegun, hkey]
          exact hold
        · rw [Function.update_of_ne hdc]
          exact hold
      · have hold := h.down d
        dsimp only at hold ⊢
        by_cases hdc : d = c
        · subst hdc
          rw [Function.update_self, Function.update_self, List.append_assoc, List.take_append_drop]
          exact hold
        · rw [Function.update_of_ne hdc, Function.update_of_ne hdc]
          exact hold
      · dsimp only at hd ⊢
        by_cases hdc : d = c
        · subst hdc
          rw [Function.update_self] at hd
          exact absurd hd hbegun
        · rw [Function.update_of_ne hdc] at hd ⊢
          rw [Function.update_of_ne hdc]
          exact h.start d hd
      · dsimp only at hd ⊢
        by_cases hdc : d = c
        · subst hdc
          rw [Function.update_self, hkey]
          exact h.key d hne
        · rw [Function.update_of_ne hdc] at hd ⊢
          exact h.key d hd
  | readEof c =>
      obtain ⟨_, hasks, rfl⟩ := step_ends (Or.inl rfl) hs
      exact h.raise hasks
  | connectionLost c =>
      obtain ⟨_, hasks, rfl⟩ := step_ends (Or.inr rfl) hs
      exact h.raise hasks

/-- **Nothing is lost on the way, in any run.** -/
theorem consistent (hr : Reachable Contract host port listenfd s) :
    Consistent host port listenfd s := by
  refine hr.invariant (P := Consistent host port listenfd) ?_ fun t a u h hok hs => h.step hok hs
  refine ⟨Transition.Reaches.refl, fun c => ?_, fun c => ?_, fun _ _ => ⟨rfl, rfl, rfl⟩,
    fun _ hne => absurd rfl hne, fun _ _ hu => absurd hu List.not_mem_nil⟩
  · have hnone : readBytes ((init listenfd).history c) = [] := by
      simp only [history, init, Loop.init, NetworkInterface.init, NetworkInterface.ctlEvent,
        if_true, List.nil_append, about_cons]
      split_ifs <;> rfl
    rw [hnone]
    rfl
  · have hnone : sentBytes ((init listenfd).history c) = [] := by
      simp only [history, init, Loop.init, NetworkInterface.init, NetworkInterface.ctlEvent,
        if_true, List.nil_append, about_cons]
      split_ifs <;> rfl
    rw [hnone]
    rfl

/-! ### Closed connections -/

/-- A closed connection stays closed. -/
theorem Closed.mono (h : s.Closed c) (ht : s.worker.worker.trace <+: t.worker.worker.trace) :
    t.Closed c := by
  obtain ⟨δ, hδ⟩ := ht
  rw [Closed, ← hδ, closings_append]
  exact Nat.add_pos_left h _

/-- **A connection is closed when it has been accepted and is mapped no more.** -/
theorem Consistent.closed_iff (h : Consistent host port listenfd s) :
    s.Closed c ↔ c < s.worker.worker.nextConn ∧ ∀ fd, s.worker.worker.connAt fd ≠ some c := by
  have hwf := Loop.reachable_wellFormed Loop.promises_epollContract h.worker
  have hcount (hlt : c < s.worker.worker.nextConn) :=
    Loop.closings_eq Loop.promises_epollContract h.worker hlt
  constructor
  · intro hclosed
    have hlt : c < s.worker.worker.nextConn := by
      obtain ⟨o, ho, _⟩ := List.countP_pos_iff.1 hclosed
      obtain ⟨hmem, hconn⟩ := List.mem_filter.1 ho
      rw [← of_decide_eq_true hconn]
      exact hwf.worker.trace_lt o hmem
    refine ⟨hlt, ((hcount hlt).resolve_left fun hopen => ?_).1⟩
    rw [Closed, hopen.2] at hclosed
    exact absurd hclosed (Nat.lt_irrefl 0)
  · rintro ⟨hlt, hgone⟩
    have hone := ((hcount hlt).resolve_left fun hopen => hopen.1.elim fun fd => hgone fd).2
    rw [Closed, hone]
    exact Nat.one_pos

/-- A mapped connection is open. -/
theorem Consistent.not_closed (h : Consistent host port listenfd s) {fd : Fd}
    {hd : WebsocketHandler}
    (hfd : s.worker.worker.websocketHandlerMap fd = some hd) : ¬ s.Closed hd.conn := fun hclosed =>
  (h.closed_iff.1 hclosed).2 fd (NetworkInterface.connAt_of_map hfd)

end Steps

end System

end WebSocketDemo
