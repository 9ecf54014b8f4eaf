/-
**A worker without one of its connections.**

`erase p c` is what a worker would be had the connection `c` never been accepted: its handler, its
place among the clients, in the close queue and in the interest list and its history are left out,
and the connections accepted behind it move up by one number.  `p` marks the descriptor the
connection is on, if it is on one.

Each operation is compared with the same operation on the erased worker.  On a descriptor of another
connection the two agree; on the descriptor of `c` nothing is left of it.  An operation that
concerns several connections, the broadcast and the draining of the close queue, is the same
operation on the connections that are kept.

Main definitions:

* `squeeze`, `Obs.renumber`, `eraseObs`, `NetworkInterface.erase` — the worker without `c`;
* `NetworkInterface.Fits` — `p` marks the descriptor of `c`.

Main results:

* `NetworkInterface.erase_broadcastWsBinary` — **a broadcast**: what `c` is offered, and whether it
  overflows, makes no difference to the others;
* `NetworkInterface.erase_handleOneFrame`, `NetworkInterface.erase_handleOneFrame_self` — a frame;
* `NetworkInterface.erase_processCloseQueue` — **the close queue**.
-/

import WebSocketDemo.Descriptors

set_option relaxedAutoImplicit false
set_option autoImplicit false

namespace WebSocketDemo

/-! ### What is left out -/

/-- The number of a connection when the connection `c` is left out. -/
def squeeze (c n : ℕ) : ℕ := if c < n then n - 1 else n

/-- An operation with the number of its connection changed. -/
def Obs.renumber (f : ℕ → ℕ) : Obs → Obs
  | accepted c fd => accepted (f c) fd
  | closed c fd => closed (f c) fd
  | readable c => readable (f c)
  | received c data => received (f c) data
  | readRefused c data => readRefused (f c) data
  | eof c => eof (f c)
  | rejected c => rejected (f c)
  | upgraded c headerMap rest => upgraded (f c) headerMap rest
  | registered c => registered (f c)
  | handled c frame => handled (f c) frame
  | parseError c => parseError (f c)
  | offered c data own taken => offered (f c) data own taken
  | sent c data => sent (f c) data

/-- A handler with the number of its connection changed. -/
def WebsocketHandler.renumber (f : ℕ → ℕ) (h : WebsocketHandler) : WebsocketHandler :=
  { h with conn := f h.conn }

/-- A history without the operations of the connection `c`. -/
def eraseObs (c : ℕ) (τ : List Obs) : List Obs :=
  (τ.filter fun o => decide (o.conn ≠ c)).map (Obs.renumber (squeeze c))

theorem eraseObs_append (c : ℕ) (τ τ' : List Obs) :
    eraseObs c (τ ++ τ') = eraseObs c τ ++ eraseObs c τ' := by
  rw [eraseObs, List.filter_append, List.map_append]
  rfl

theorem eraseObs_self {c : ℕ} {o : Obs} (h : o.conn = c) : eraseObs c [o] = [] := by
  simp [eraseObs, h]

theorem eraseObs_other {c : ℕ} {o : Obs} (h : o.conn ≠ c) :
    eraseObs c [o] = [o.renumber (squeeze c)] := by
  simp [eraseObs, h]

namespace NetworkInterface

attribute [ext] NetworkInterface

/-- The worker without the connection `c`, whose descriptor `p` marks. -/
def erase (p : Fd → Bool) (c : ℕ) (w : NetworkInterface) : NetworkInterface where
  listenfd := w.listenfd
  websocketHandlerMap := fun fd =>
    if p fd then none else (w.websocketHandlerMap fd).map (WebsocketHandler.renumber (squeeze c))
  wsClients := w.wsClients.filter fun fd => !p fd
  pendingCloses := w.pendingCloses.filter fun fd => !p fd
  interest := fun fd => if p fd then none else w.interest fd
  nextConn := squeeze c w.nextConn
  trace := eraseObs c w.trace

/-- `p` marks the descriptor of the connection `c`. -/
structure Fits (p : Fd → Bool) (c : ℕ) (w : NetworkInterface) : Prop where
  own : ∀ fd h, w.websocketHandlerMap fd = some h → h.fd = fd
  conn : ∀ fd h, w.websocketHandlerMap fd = some h → (p fd = true ↔ h.conn = c)

variable {p : Fd → Bool} {c : ℕ} {w w' : NetworkInterface} {fd : Fd} {h : WebsocketHandler}

namespace Fits

theorem of_map (hf : Fits p c w) (hmap : w'.websocketHandlerMap = w.websocketHandlerMap) :
    Fits p c w' := by
  constructor
  · rw [hmap]
    exact hf.own
  · rw [hmap]
    exact hf.conn

theorem conn_ne (hf : Fits p c w) (hfd : w.websocketHandlerMap fd = some h) (hp : p fd = false) :
    h.conn ≠ c := by
  intro hc
  rw [(hf.conn fd h hfd).2 hc] at hp
  cases hp

/-- A handler keeps its descriptor and its number. -/
theorem setHandler {h' : WebsocketHandler} (hf : Fits p c w)
    (hfd : w.websocketHandlerMap fd = some h) (hown : h'.fd = h.fd) (hconn : h'.conn = h.conn) :
    Fits p c (w.setHandler fd h') := by
  have hmap (fd' : Fd) (h₁ : WebsocketHandler)
      (hh : (w.setHandler fd h').websocketHandlerMap fd' = some h₁) :
      ∃ h₀, w.websocketHandlerMap fd' = some h₀ ∧ h₁.fd = h₀.fd ∧ h₁.conn = h₀.conn := by
    by_cases he : fd' = fd
    · subst he
      rw [setHandler_map, Function.update_self, Option.some.injEq] at hh
      subst hh
      exact ⟨h, hfd, hown, hconn⟩
    · rw [setHandler_map, Function.update_of_ne he] at hh
      exact ⟨h₁, hh, rfl, rfl⟩
  constructor
  · intro fd' h₁ hh
    obtain ⟨h₀, hh₀, hfd₀, _⟩ := hmap fd' h₁ hh
    rw [hfd₀]
    exact hf.own fd' h₀ hh₀
  · intro fd' h₁ hh
    obtain ⟨h₀, hh₀, _, hconn₀⟩ := hmap fd' h₁ hh
    rw [hconn₀]
    exact hf.conn fd' h₀ hh₀

theorem appendOutgoing (hf : Fits p c w) (fd : Fd) (data : Bytes) (updateEpoll : Bool) :
    Fits p c (w.appendOutgoing fd data updateEpoll) := by
  cases hfd : w.websocketHandlerMap fd with
  | none =>
      rw [appendOutgoing_of_none updateEpoll hfd]
      exact hf
  | some h =>
      by_cases hdata : data.length = 0
      · have hsame : w.appendOutgoing fd data updateEpoll = w := by
          simp [NetworkInterface.appendOutgoing, hfd, hdata]
        rw [hsame]
        exact hf
      · refine (hf.setHandler hfd (h.offer_fd data) (h.offer_conn data)).of_map ?_
        rw [appendOutgoing_map updateEpoll hfd hdata, setHandler_map]

end Fits

/-! ### One descriptor -/

section Operations

theorem erase_map (hp : p fd = false) : (w.erase p c).websocketHandlerMap fd =
    (w.websocketHandlerMap fd).map (WebsocketHandler.renumber (squeeze c)) := by
  simp [erase, hp]

theorem erase_emit (o : Obs) (hc : o.conn ≠ c) :
    (w.emit o).erase p c = (w.erase p c).emit (o.renumber (squeeze c)) := by
  simp only [erase, emit, eraseObs_append, eraseObs_other hc]

theorem erase_emit_self (o : Obs) (hc : o.conn = c) : (w.emit o).erase p c = w.erase p c := by
  simp only [erase, emit, eraseObs_append, eraseObs_self hc, List.append_nil]

theorem erase_setHandler (hp : p fd = false) : (w.setHandler fd h).erase p c =
    (w.erase p c).setHandler fd (h.renumber (squeeze c)) := by
  ext1
  case websocketHandlerMap =>
    funext fd'
    by_cases he : fd' = fd
    · subst he
      simp [erase, setHandler, hp]
    · simp [erase, setHandler, Function.update_of_ne he]
  all_goals rfl

theorem erase_setHandler_self (hp : p fd = true) :
    (w.setHandler fd h).erase p c = w.erase p c := by
  ext1
  case websocketHandlerMap =>
    funext fd'
    by_cases he : fd' = fd
    · subst he
      simp [erase, hp]
    · simp [erase, setHandler, Function.update_of_ne he]
  all_goals rfl

theorem erase_modEvents (events : UInt32) (hp : p fd = false) :
    (w.modEvents fd events).erase p c = (w.erase p c).modEvents fd events := by
  ext1
  case interest =>
    funext fd'
    by_cases he : fd' = fd
    · subst he
      simp [erase, modEvents, hp]
    · simp [erase, modEvents, Function.update_of_ne he]
  all_goals rfl

theorem erase_modEvents_self (events : UInt32) (hp : p fd = true) :
    (w.modEvents fd events).erase p c = w.erase p c := by
  ext1
  case interest =>
    funext fd'
    by_cases he : fd' = fd
    · subst he
      simp [erase, hp]
    · simp [erase, modEvents, Function.update_of_ne he]
  all_goals rfl

theorem erase_updateHandlerEvents (hp : p fd = false) :
    (w.updateHandlerEvents fd).erase p c = (w.erase p c).updateHandlerEvents fd := by
  unfold updateHandlerEvents
  rw [erase_map hp]
  by_cases hl : fd = w.listenfd
  · rw [if_pos hl, if_pos (show fd = (w.erase p c).listenfd from hl)]
  · rw [if_neg hl, if_neg (show fd ≠ (w.erase p c).listenfd from hl)]
    cases w.websocketHandlerMap fd with
    | none => rfl
    | some h => exact erase_modEvents _ hp

theorem erase_updateHandlerEvents_self (hp : p fd = true) :
    (w.updateHandlerEvents fd).erase p c = w.erase p c := by
  unfold updateHandlerEvents
  split_ifs
  · rfl
  · cases w.websocketHandlerMap fd with
    | none => rfl
    | some h => exact erase_modEvents_self _ hp

theorem erase_queueClose (hp : p fd = false) :
    (w.queueClose fd).erase p c = (w.erase p c).queueClose fd := by
  unfold queueClose
  split_ifs
  · rfl
  · simp [erase, hp]

theorem erase_queueClose_self (hp : p fd = true) :
    (w.queueClose fd).erase p c = w.erase p c := by
  unfold queueClose
  split_ifs
  · rfl
  · simp [erase, hp]

theorem erase_registerWsClient (hp : p fd = false) :
    (w.registerWsClient fd).erase p c = (w.erase p c).registerWsClient fd := by
  have hmem : fd ∈ w.wsClients.filter (fun fd => !p fd) ↔ fd ∈ w.wsClients := by
    simp [hp]
  unfold registerWsClient
  by_cases hl : fd = w.listenfd ∨ fd < 0
  · rw [if_pos hl, if_pos (show fd = (w.erase p c).listenfd ∨ fd < 0 from hl)]
  · rw [if_neg hl, if_neg (show ¬ (fd = (w.erase p c).listenfd ∨ fd < 0) from hl)]
    ext1
    case wsClients =>
      by_cases hin : fd ∈ w.wsClients
      · simp [erase, List.insert_of_mem hin, List.insert_of_mem (hmem.2 hin)]
      · simp [erase, List.insert_of_not_mem hin, List.insert_of_not_mem (mt hmem.1 hin), hp]
    all_goals rfl

theorem erase_registerWsClient_self (hp : p fd = true) :
    (w.registerWsClient fd).erase p c = w.erase p c := by
  unfold registerWsClient
  split_ifs
  · rfl
  · ext1
    case wsClients =>
      by_cases hin : fd ∈ w.wsClients
      · simp [erase, List.insert_of_mem hin]
      · simp [erase, List.insert_of_not_mem hin, hp]
    all_goals rfl

end Operations

/-! ### Output -/

section Output

variable {data : Bytes}

/-- An offer to another connection. -/
theorem erase_appendOutgoing (hf : Fits p c w) (hp : p fd = false) (updateEpoll : Bool) :
    (w.appendOutgoing fd data updateEpoll).erase p c =
      (w.erase p c).appendOutgoing fd data updateEpoll := by
  unfold appendOutgoing
  rw [erase_map hp]
  cases hfd : w.websocketHandlerMap fd with
  | none => rfl
  | some h =>
      have hemit (w : NetworkInterface) (taken : Bool) :
          (w.emit (.offered h.conn data updateEpoll taken)).erase p c =
            (w.erase p c).emit (.offered (squeeze c h.conn) data updateEpoll taken) :=
        erase_emit (.offered h.conn data updateEpoll taken) (hf.conn_ne hfd hp)
      rw [Option.map_some]
      dsimp only [WebsocketHandler.renumber]
      rw [hf.own fd h hfd]
      split_ifs
      · rfl
      · rw [erase_queueClose hp, hemit]
      · rw [erase_updateHandlerEvents hp, hemit, erase_setHandler hp]
        rfl
      · rw [hemit, erase_setHandler hp]
        rfl

/-- An offer to the connection that is left out. -/
theorem erase_appendOutgoing_self (hf : Fits p c w) (hp : p fd = true) (updateEpoll : Bool) :
    (w.appendOutgoing fd data updateEpoll).erase p c = w.erase p c := by
  unfold appendOutgoing
  cases hfd : w.websocketHandlerMap fd with
  | none => rfl
  | some h =>
      have hemit (w : NetworkInterface) (taken : Bool) :
          (w.emit (.offered h.conn data updateEpoll taken)).erase p c = w.erase p c :=
        erase_emit_self (.offered h.conn data updateEpoll taken) ((hf.conn fd h hfd).1 hp)
      dsimp only
      rw [hf.own fd h hfd]
      split_ifs
      · rfl
      · rw [erase_queueClose_self hp, hemit]
      · rw [erase_updateHandlerEvents_self hp, hemit, erase_setHandler_self hp]
      · rw [hemit, erase_setHandler_self hp]

theorem writePendingAt_erase (hp : p fd = false) :
    (w.erase p c).writePendingAt fd = w.writePendingAt fd := by
  unfold writePendingAt
  rw [erase_map hp]
  cases w.websocketHandlerMap fd <;> rfl

/-- **The first loop of a broadcast**, by induction on the clients that are left. -/
theorem erase_broadcastAppend (exceptFd : Fd) (data : Bytes) (fds toRefresh : List Fd)
    (hf : Fits p c w) :
    ((broadcastAppend exceptFd data fds (w, toRefresh)).1.erase p c,
        (broadcastAppend exceptFd data fds (w, toRefresh)).2.filter fun fd => !p fd) =
      broadcastAppend exceptFd data (fds.filter fun fd => !p fd)
        (w.erase p c, toRefresh.filter fun fd => !p fd) ∧
      Fits p c (broadcastAppend exceptFd data fds (w, toRefresh)).1 := by
  induction fds generalizing w toRefresh with
  | nil => exact ⟨rfl, hf⟩
  | cons cfd rest ih =>
      have hf' := hf.appendOutgoing cfd data false
      cases hp : p cfd with
      | true =>
          -- the connection that is left out is offered the data, or is queued for closing
          rw [List.filter_cons_of_neg (by simp [hp]), broadcastAppend]
          split_ifs
          · exact ih toRefresh hf
          · cases hcfd : w.websocketHandlerMap cfd with
            | none => exact ih toRefresh hf
            | some h =>
                have hself : (w.appendOutgoing cfd data false).erase p c = w.erase p c :=
                  erase_appendOutgoing_self hf hp false
                dsimp only
                rw [← hself]
                split_ifs
                · have hnext := ih (toRefresh ++ [cfd]) hf'
                  rw [List.filter_append, List.filter_cons_of_neg (by simp [hp]), List.filter_nil,
                    List.append_nil] at hnext
                  exact hnext
                · exact ih toRefresh hf'
      | false =>
          rw [List.filter_cons_of_pos (by simp [hp]), broadcastAppend, broadcastAppend]
          split_ifs
          · exact ih toRefresh hf
          · rw [erase_map hp]
            cases hcfd : w.websocketHandlerMap cfd with
            | none => exact ih toRefresh hf
            | some h =>
                dsimp only [Option.map_some]
                rw [← erase_appendOutgoing hf hp, writePendingAt_erase hp,
                  show (h.renumber (squeeze c)).writePending = h.writePending from rfl]
                split_ifs
                · have hnext := ih (toRefresh ++ [cfd]) hf'
                  rw [List.filter_append, List.filter_cons_of_pos (by simp [hp]),
                    List.filter_nil] at hnext
                  exact hnext
                · exact ih toRefresh hf'

/-- The refresh pass of a broadcast. -/
theorem erase_foldl_updateHandlerEvents (fds : List Fd) :
    (fds.foldl updateHandlerEvents w).erase p c =
      (fds.filter fun fd => !p fd).foldl updateHandlerEvents (w.erase p c) := by
  induction fds generalizing w with
  | nil => rfl
  | cons fd fds ih =>
      rw [List.foldl_cons, ih]
      cases hp : p fd with
      | true =>
          rw [List.filter_cons_of_neg (by simp [hp]), erase_updateHandlerEvents_self hp]
      | false =>
          rw [List.filter_cons_of_pos (by simp [hp]), List.foldl_cons, erase_updateHandlerEvents hp]

/-- **A broadcast.**  What the connection that is left out is offered, and whether it overflows,
makes no difference to the others. -/
theorem erase_broadcastWsBinary (hf : Fits p c w) (exceptFd : Fd) :
    (w.broadcastWsBinary exceptFd data).erase p c =
      (w.erase p c).broadcastWsBinary exceptFd data := by
  unfold broadcastWsBinary
  by_cases hdata : data.length = 0
  · rw [if_pos hdata, if_pos hdata]
  · rw [if_neg hdata, if_neg hdata]
    obtain ⟨hsame, _⟩ := erase_broadcastAppend exceptFd data w.wsClients [] hf
    dsimp only
    rw [erase_foldl_updateHandlerEvents, show (w.erase p c).wsClients =
      w.wsClients.filter fun fd => !p fd from rfl]
    rw [List.filter_nil] at hsame
    rw [← hsame]

end Output

/-! ### Input -/

section Input

theorem Fits.queueSend (hf : Fits p c w) (fd : Fd) (data : Bytes) :
    Fits p c (w.queueSend fd data) :=
  hf.appendOutgoing fd data true

/-- **A frame of another connection.** -/
theorem erase_handleOneFrame (hf : Fits p c w) (hp : p fd = false) :
    (w.handleOneFrame fd).erase p c = (w.erase p c).handleOneFrame fd := by
  unfold handleOneFrame
  rw [erase_map hp]
  cases hfd : w.websocketHandlerMap fd with
  | none => rfl
  | some h =>
      rw [Option.map_some]
      dsimp only [WebsocketHandler.renumber]
      rw [hf.own fd h hfd]
      split_ifs
      · split
        · rfl
        · rename_i out _
          rw [erase_broadcastWsBinary (hf.queueSend fd out), queueSend, queueSend,
            erase_appendOutgoing hf hp]
      · exact erase_queueClose hp
      · split
        · rfl
        · exact erase_appendOutgoing hf hp true
      · rfl

/-- A frame of the connection that is left out, when it is no text frame. -/
theorem erase_handleOneFrame_self (hf : Fits p c w) (hp : p fd = true)
    (hfd : w.websocketHandlerMap fd = some h) (hop : h.request.getMsgOpcode ≠ websocketTextData) :
    (w.handleOneFrame fd).erase p c = w.erase p c := by
  unfold handleOneFrame
  rw [hfd]
  dsimp only
  rw [hf.own fd h hfd, if_neg hop]
  split_ifs
  · rw [erase_queueClose_self hp]
  · split
    · rfl
    · rw [queueSend, erase_appendOutgoing_self hf hp]
  · rfl

theorem erase_resetRequest (hp : p fd = false) :
    (w.resetRequest fd).erase p c = (w.erase p c).resetRequest fd := by
  unfold resetRequest
  rw [erase_map hp]
  cases w.websocketHandlerMap fd with
  | none => rfl
  | some h => exact erase_setHandler hp

theorem erase_resetRequest_self (hp : p fd = true) :
    (w.resetRequest fd).erase p c = w.erase p c := by
  unfold resetRequest
  cases w.websocketHandlerMap fd with
  | none => rfl
  | some h => exact erase_setHandler_self hp

/-- The upgrade of another connection. -/
theorem erase_driveIoUpgrade (hf : Fits p c w) (hp : p fd = false) :
    (w.erase p c).driveIoUpgrade fd =
      ((w.driveIoUpgrade fd).1.erase p c, (w.driveIoUpgrade fd).2) := by
  unfold driveIoUpgrade
  rw [erase_map hp]
  cases hfd : w.websocketHandlerMap fd with
  | none => rfl
  | some h =>
      obtain rfl := hf.own fd h hfd
      have hne := hf.conn_ne hfd hp
      have hreject (w : NetworkInterface) : (w.emit (.rejected h.conn)).erase p c =
          (w.erase p c).emit (.rejected (squeeze c h.conn)) := erase_emit (.rejected h.conn) hne
      rw [Option.map_some]
      dsimp only [WebsocketHandler.renumber]
      split_ifs
      · rfl
      · rw [erase_queueClose hp, hreject]
      · cases Text.find crlfCrlf h.readBuf with
        | none => rfl
        | some pos =>
            dsimp only
            rcases fetchHttpInfo h.headerMap (h.readBuf.take (pos + 4)) with ⟨ret, headerMap⟩
            dsimp only
            by_cases hret : ret ≠ 0
            · rw [if_pos hret, if_pos hret, erase_queueClose hp, hreject, erase_setHandler hp]
              rfl
            · rw [if_neg hret, if_neg hret]
              -- what is sent and registered comes behind the change of the handler
              set h₁ : WebsocketHandler := { h with
                readBuf := h.readBuf.drop (pos + 4), status := .handsharked
                headerMap := (parseStr headerMap).1 } with hh₁
              set w₁ := (w.setHandler h.fd h₁).emit
                (.upgraded h.conn headerMap (h.readBuf.drop (pos + 4))) with hw₁
              set w₂ := w₁.queueSend h.fd (parseStr headerMap).2 with hw₂
              have hset : Fits p c (w.setHandler h.fd h₁) := hf.setHandler hfd rfl rfl
              have hf₁ : Fits p c w₁ := hset.of_map rfl
              have he₂ : w₂.erase p c = (((w.erase p c).setHandler h.fd
                  (h₁.renumber (squeeze c))).emit (.upgraded (squeeze c h.conn) headerMap
                    (h.readBuf.drop (pos + 4)))).queueSend h.fd (parseStr headerMap).2 := by
                rw [hw₂, queueSend, erase_appendOutgoing hf₁ hp, hw₁, erase_emit _ (by exact hne),
                  erase_setHandler hp]
                rfl
              have hregistered (w : NetworkInterface) : (w.emit (.registered h.conn)).erase p c =
                  (w.erase p c).emit (.registered (squeeze c h.conn)) :=
                erase_emit (.registered h.conn) hne
              dsimp only [WebsocketHandler.renumber, hh₁] at he₂
              rw [← he₂, show (w₂.erase p c).isListenFd h.fd = w₂.isListenFd h.fd from rfl]
              split_ifs
              · rfl
              · rw [hregistered, erase_registerWsClient hp]

/-- The upgrade of the connection that is left out. -/
theorem erase_driveIoUpgrade_self (hf : Fits p c w) (hp : p fd = true) :
    (w.driveIoUpgrade fd).1.erase p c = w.erase p c := by
  unfold driveIoUpgrade
  cases hfd : w.websocketHandlerMap fd with
  | none => rfl
  | some h =>
      obtain rfl := hf.own fd h hfd
      have hc : h.conn = c := (hf.conn h.fd h hfd).1 hp
      have hemit (w : NetworkInterface) {o : Obs} (ho : o.conn = h.conn) :
          (w.emit o).erase p c = w.erase p c := erase_emit_self o (ho.trans hc)
      dsimp only
      split_ifs
      · rfl
      · rw [erase_queueClose_self hp, hemit w rfl]
      · cases Text.find crlfCrlf h.readBuf with
        | none => rfl
        | some pos =>
            dsimp only
            rcases fetchHttpInfo h.headerMap (h.readBuf.take (pos + 4)) with ⟨ret, headerMap⟩
            dsimp only
            have hsent (h₁ : WebsocketHandler) (o : Obs) (response : Bytes) (hown : h₁.fd = h.fd)
                (hconn : h₁.conn = h.conn) (ho : o.conn = h.conn) :
                (((w.setHandler h.fd h₁).emit o).queueSend h.fd response).erase p c =
                  w.erase p c := by
              have hset : Fits p c (w.setHandler h.fd h₁) := hf.setHandler hfd hown hconn
              have hf₁ : Fits p c ((w.setHandler h.fd h₁).emit o) := hset.of_map rfl
              rw [queueSend, erase_appendOutgoing_self hf₁ hp, hemit _ ho, erase_setHandler_self hp]
            split_ifs
            · rw [erase_queueClose_self hp, hemit _ rfl, erase_setHandler_self hp]
            · exact hsent _ _ _ rfl rfl rfl
            · rw [hemit _ rfl, erase_registerWsClient_self hp]
              exact hsent _ _ _ rfl rfl rfl

/-- **A turn of the frame loop for another connection.** -/
theorem erase_driveIoFrame (hf : Fits p c w) (hp : p fd = false) :
    (w.erase p c).driveIoFrame fd =
      ((w.driveIoFrame fd).1.erase p c, (w.driveIoFrame fd).2) := by
  unfold driveIoFrame
  rw [erase_map hp]
  cases hfd : w.websocketHandlerMap fd with
  | none => rfl
  | some h =>
      have hne := hf.conn_ne hfd hp
      rw [Option.map_some]
      dsimp only [WebsocketHandler.renumber]
      by_cases hstatus : h.status ≠ .handsharked
      · rw [if_pos hstatus, if_pos hstatus]
      · rw [if_neg hstatus, if_neg hstatus]
        rcases h.request.tryConsumeFrame h.readBuf with ⟨ret, request, readBuf⟩
        set h₁ : WebsocketHandler := { h with request := request, readBuf := readBuf } with hh₁
        have hset : (w.setHandler fd h₁).erase p c =
            (w.erase p c).setHandler fd (h₁.renumber (squeeze c)) := erase_setHandler hp
        have hf₁ : Fits p c (w.setHandler fd h₁) := hf.setHandler hfd rfl rfl
        dsimp only [WebsocketHandler.renumber, hh₁] at hset
        cases ret with
        | needMore =>
            dsimp only
            rw [← hset]
        | error =>
            have hemit : ((w.setHandler fd h₁).emit (.parseError h.conn)).erase p c =
                ((w.setHandler fd h₁).erase p c).emit (.parseError (squeeze c h.conn)) :=
              erase_emit (.parseError h.conn) hne
            dsimp only
            rw [← hset, erase_queueClose (by rw [hf.own fd h hfd]; exact hp), hemit]
        | ok =>
            have hemit : ((w.setHandler fd h₁).emit (.handled h.conn request.frame)).erase p c =
                ((w.setHandler fd h₁).erase p c).emit (.handled (squeeze c h.conn) request.frame) :=
              erase_emit (.handled h.conn request.frame) hne
            have hf₂ : Fits p c ((w.setHandler fd h₁).emit (.handled h.conn request.frame)) :=
              hf₁.of_map rfl
            dsimp only
            rw [← hset, erase_resetRequest hp, erase_handleOneFrame hf₂ hp, hemit]

/-- **A turn of the frame loop for the connection that is left out**, when it takes no text frame
off. -/
theorem erase_driveIoFrame_self (hf : Fits p c w) (hp : p fd = true)
    (hsilent : ∀ h f rest, w.websocketHandlerMap fd = some h → frameSpec h.readBuf = .item f rest →
      f.opcode ≠ websocketTextData) :
    (w.driveIoFrame fd).1.erase p c = w.erase p c := by
  unfold driveIoFrame
  cases hfd : w.websocketHandlerMap fd with
  | none => rfl
  | some h =>
      dsimp only
      split_ifs
      · rfl
      · have hans := h.request.tryConsumeFrame_answers h.readBuf
        rcases hout : h.request.tryConsumeFrame h.readBuf with ⟨ret, request, readBuf⟩
        rw [hout] at hans
        set h₁ : WebsocketHandler := { h with request := request, readBuf := readBuf } with hh₁
        have hf₁ : Fits p c (w.setHandler fd h₁) := hf.setHandler hfd rfl rfl
        cases ret with
        | needMore => exact erase_setHandler_self hp
        | error =>
            have hemit : ((w.setHandler fd h₁).emit (.parseError h.conn)).erase p c =
                (w.setHandler fd h₁).erase p c :=
              erase_emit_self (.parseError h.conn) ((hf.conn fd h hfd).1 hp)
            dsimp only
            rw [erase_queueClose_self (by rw [hf.own fd h hfd]; exact hp), hemit,
              erase_setHandler_self hp]
        | ok =>
            cases hspec : frameSpec h.readBuf with
            | more =>
                rw [hspec] at hans
                cases hans.1
            | bad =>
                rw [hspec] at hans
                cases hans.1
            | item f rest =>
                rw [hspec] at hans
                have hop : h₁.request.getMsgOpcode ≠ websocketTextData := by
                  rw [show h₁.request.getMsgOpcode = f.opcode from
                    congrArg Frame.opcode hans.2.1]
                  exact hsilent h f rest hfd hspec
                set w₁ := (w.setHandler fd h₁).emit (.handled h.conn request.frame) with hw₁
                have hemit : w₁.erase p c = (w.setHandler fd h₁).erase p c :=
                  erase_emit_self (.handled h.conn request.frame) ((hf.conn fd h hfd).1 hp)
                have hf₂ : Fits p c w₁ := hf₁.of_map rfl
                have hfd₁ : w₁.websocketHandlerMap fd = some h₁ := by
                  rw [hw₁, emit_map, setHandler_map, Function.update_self]
                dsimp only
                rw [erase_resetRequest_self hp, erase_handleOneFrame_self hf₂ hp hfd₁ hop, hemit,
                  erase_setHandler_self hp]

end Input

/-! ### The life of a connection -/

section Life

/-- Marking other descriptors makes no difference where they are not in use. -/
theorem erase_congr {q : Fd → Bool} (hpq : ∀ fd, q fd ≠ p fd →
      w.websocketHandlerMap fd = none ∧ fd ∉ w.wsClients ∧ fd ∉ w.pendingCloses ∧
        w.interest fd = none) :
    w.erase q c = w.erase p c := by
  ext1
  case websocketHandlerMap =>
    funext fd
    by_cases he : q fd = p fd
    · simp [erase, he]
    · simp [erase, (hpq fd he).1]
  case wsClients =>
    refine List.filter_congr fun fd hfd => ?_
    by_cases he : q fd = p fd
    · rw [he]
    · exact absurd hfd (hpq fd he).2.1
  case pendingCloses =>
    refine List.filter_congr fun fd hfd => ?_
    by_cases he : q fd = p fd
    · rw [he]
    · exact absurd hfd (hpq fd he).2.2.1
  case interest =>
    funext fd
    by_cases he : q fd = p fd
    · simp [erase, he]
    · simp [erase, (hpq fd he).2.2.2]
  all_goals rfl

theorem squeeze_succ {n : ℕ} (hn : n ≠ c) : squeeze c (n + 1) = squeeze c n + 1 := by
  unfold squeeze
  split_ifs <;> omega

theorem squeeze_self : squeeze c c = c := if_neg (lt_irrefl c)

theorem squeeze_self_succ : squeeze c (c + 1) = c := if_pos (Nat.lt_succ_self c)

/-- Another connection is accepted. -/
theorem erase_ctlEvent_true (hp : p fd = false) (hc : w.nextConn ≠ c) :
    (w.ctlEvent fd true).erase p c = (w.erase p c).ctlEvent fd true := by
  have htrace : eraseObs c (w.trace ++ [.accepted w.nextConn fd]) =
      eraseObs c w.trace ++ [.accepted (squeeze c w.nextConn) fd] := by
    have hone : eraseObs c [.accepted w.nextConn fd] = [.accepted (squeeze c w.nextConn) fd] :=
      eraseObs_other hc
    rw [eraseObs_append, hone]
  ext1
  case websocketHandlerMap =>
    funext fd'
    by_cases he : fd' = fd
    · subst he
      simp [erase, ctlEvent, hp, WebsocketHandler.renumber, WebsocketHandler.new]
    · simp [erase, ctlEvent, Function.update_of_ne he]
  case interest =>
    funext fd'
    by_cases he : fd' = fd
    · subst he
      simp [erase, ctlEvent, hp]
    · simp [erase, ctlEvent, Function.update_of_ne he]
  case nextConn => exact squeeze_succ hc
  case trace => exact htrace
  all_goals rfl

/-- The connection that is left out is accepted. -/
theorem erase_ctlEvent_true_self (hp : p fd = true) :
    (w.ctlEvent fd true).erase p w.nextConn = w.erase p w.nextConn := by
  have htrace : eraseObs w.nextConn (w.trace ++ [.accepted w.nextConn fd]) =
      eraseObs w.nextConn w.trace := by
    have hone : eraseObs w.nextConn [.accepted w.nextConn fd] = [] := eraseObs_self rfl
    rw [eraseObs_append, hone, List.append_nil]
  ext1
  case websocketHandlerMap =>
    funext fd'
    by_cases he : fd' = fd
    · subst he
      simp [erase, hp]
    · simp [erase, ctlEvent, Function.update_of_ne he]
  case interest =>
    funext fd'
    by_cases he : fd' = fd
    · subst he
      simp [erase, hp]
    · simp [erase, ctlEvent, Function.update_of_ne he]
  case nextConn => exact squeeze_self_succ.trans squeeze_self.symm
  case trace => exact htrace
  all_goals rfl

theorem erase_unregisterWsClient :
    (w.unregisterWsClient fd).erase p c = (w.erase p c).unregisterWsClient fd := by
  ext1
  case wsClients => exact List.erase_filter.symm
  all_goals rfl

theorem erase_unregisterWsClient_self (hp : p fd = true) :
    (w.unregisterWsClient fd).erase p c = w.erase p c := by
  rw [erase_unregisterWsClient]
  ext1
  case wsClients => exact List.erase_of_not_mem (by simp [erase, hp])
  all_goals rfl

theorem Fits.ctlEvent_false (hf : Fits p c w) (fd : Fd) : Fits p c (w.ctlEvent fd false) := by
  have hmap (fd' : Fd) (h : WebsocketHandler)
      (hh : (w.ctlEvent fd false).websocketHandlerMap fd' = some h) :
      w.websocketHandlerMap fd' = some h := by
    unfold NetworkInterface.ctlEvent at hh
    cases hfd : w.websocketHandlerMap fd with
    | none => simpa [hfd] using hh
    | some h₀ =>
        by_cases he : fd' = fd
        · subst he
          simp [hfd] at hh
        · simpa [hfd, Function.update_of_ne he, unregisterWsClient, emit] using hh
  exact ⟨fun fd' h hh => hf.own fd' h (hmap fd' h hh),
    fun fd' h hh => hf.conn fd' h (hmap fd' h hh)⟩

/-- Another connection is closed. -/
theorem erase_ctlEvent_false (hf : Fits p c w) (hp : p fd = false) :
    (w.ctlEvent fd false).erase p c = (w.erase p c).ctlEvent fd false := by
  unfold ctlEvent
  rw [if_neg Bool.false_ne_true, if_neg Bool.false_ne_true, erase_map hp]
  cases hfd : w.websocketHandlerMap fd with
  | none => rfl
  | some h =>
      have hone : eraseObs c [.closed h.conn fd] = [.closed (squeeze c h.conn) fd] :=
        eraseObs_other (hf.conn_ne hfd hp)
      dsimp only [Option.map_some, WebsocketHandler.renumber]
      rw [hf.own fd h hfd]
      ext1
      case websocketHandlerMap =>
        funext fd'
        by_cases he : fd' = fd
        · subst he
          simp [erase]
        · simp [erase, unregisterWsClient, emit, Function.update_of_ne he]
      case wsClients =>
        simp only [erase, unregisterWsClient, emit, List.erase_filter]
      case interest =>
        funext fd'
        by_cases he : fd' = fd
        · subst he
          simp [erase, unregisterWsClient, emit]
        · simp [erase, unregisterWsClient, emit, Function.update_of_ne he]
      case trace =>
        simp only [erase, unregisterWsClient, emit, eraseObs_append, hone]
      all_goals rfl

/-- The connection that is left out is closed. -/
theorem erase_ctlEvent_false_self (hf : Fits p c w) (hp : p fd = true) :
    (w.ctlEvent fd false).erase p c = w.erase p c := by
  unfold ctlEvent
  rw [if_neg Bool.false_ne_true]
  cases hfd : w.websocketHandlerMap fd with
  | none => rfl
  | some h =>
      have hone : eraseObs c [.closed h.conn fd] = [] := eraseObs_self ((hf.conn fd h hfd).1 hp)
      dsimp only
      rw [hf.own fd h hfd]
      ext1
      case websocketHandlerMap =>
        funext fd'
        by_cases he : fd' = fd
        · subst he
          simp [erase, hp]
        · simp [erase, unregisterWsClient, emit, Function.update_of_ne he]
      case wsClients =>
        have hself := congrArg wsClients (erase_unregisterWsClient_self (w := w) (c := c) hp)
        have htwice := congrArg wsClients
          (erase_unregisterWsClient_self (w := w.unregisterWsClient fd) (c := c) hp)
        exact htwice.trans hself
      case interest =>
        funext fd'
        by_cases he : fd' = fd
        · subst he
          simp [erase, hp]
        · simp [erase, unregisterWsClient, emit, Function.update_of_ne he]
      case trace =>
        simp only [erase, unregisterWsClient, emit, eraseObs_append, hone, List.append_nil]
      all_goals rfl

/-- The loop over the close queue. -/
theorem erase_foldl_ctlEvent (fds : List Fd) (hf : Fits p c w) :
    (fds.foldl (fun w fd => w.ctlEvent fd false) w).erase p c =
      (fds.filter fun fd => !p fd).foldl (fun w fd => w.ctlEvent fd false) (w.erase p c) := by
  induction fds generalizing w with
  | nil => rfl
  | cons fd fds ih =>
      rw [List.foldl_cons, ih (hf.ctlEvent_false fd)]
      cases hp : p fd with
      | true =>
          rw [List.filter_cons_of_neg (by simp [hp]), erase_ctlEvent_false_self hf hp]
      | false =>
          rw [List.filter_cons_of_pos (by simp [hp]), List.foldl_cons, erase_ctlEvent_false hf hp]

/-- Sorting and `std::unique` commute with leaving values out. -/
theorem filter_sort_unique (q : Fd → Bool) (l : List Fd) :
    ((l.insertionSort (· ≤ ·)).destutter (· ≠ ·)).filter q =
      ((l.filter q).insertionSort (· ≤ ·)).destutter (· ≠ ·) := by
  have hsorted (l : List Fd) :
      ((l.insertionSort (· ≤ ·)).destutter (· ≠ ·)).Pairwise (· ≤ ·) :=
    (List.pairwise_insertionSort (· ≤ ·) l).sublist (List.destutter_sublist _ _)
  have hperm : (((l.insertionSort (· ≤ ·)).destutter (· ≠ ·)).filter q).Perm
      (((l.filter q).insertionSort (· ≤ ·)).destutter (· ≠ ·)) := by
    refine (List.perm_ext_iff_of_nodup ((nodup_sort_unique l).filter q)
      (nodup_sort_unique (l.filter q))).2 fun fd => ?_
    rw [List.mem_filter, mem_destutter_ne, mem_destutter_ne, List.mem_insertionSort,
      List.mem_insertionSort, List.mem_filter]
  exact hperm.eq_of_pairwise (fun a b _ _ hab hba => le_antisymm hab hba)
    ((hsorted l).sublist List.filter_sublist) (hsorted (l.filter q))

/-- The test for an empty queue changes nothing. -/
theorem processCloseQueue_eq (w : NetworkInterface) :
    w.processCloseQueue =
      { ((w.pendingCloses.insertionSort (· ≤ ·)).destutter (· ≠ ·)).foldl
        (fun w fd => w.ctlEvent fd false) w with pendingCloses := [] } := by
  unfold processCloseQueue
  split_ifs with hempty
  · rw [hempty]
    ext1
    case pendingCloses => exact hempty
    all_goals rfl
  · rfl

/-- **The close queue.**  That the connection that is left out is closed makes no difference to the
others. -/
theorem erase_processCloseQueue (hf : Fits p c w) :
    w.processCloseQueue.erase p c = (w.erase p c).processCloseQueue := by
  rw [processCloseQueue_eq, processCloseQueue_eq]
  have hfold := erase_foldl_ctlEvent ((w.pendingCloses.insertionSort (· ≤ ·)).destutter (· ≠ ·)) hf
  rw [filter_sort_unique] at hfold
  rw [show (w.erase p c).pendingCloses = w.pendingCloses.filter fun fd => !p fd from rfl, ← hfold]
  rfl

end Life

end NetworkInterface

end WebSocketDemo
