/-
**The history, projected.**

The trace of a worker interleaves the operations of all connections.  This module projects it to one
connection and to the process-wide log of text frames, and computes both projections for the three
operations that concern several connections at once: a broadcast, a handled frame, and the draining
of the close queue.

Main definitions:

* `about` — the operations that concern a connection;
* `texts` — the log of text frames.

Main results:

* `NetworkInterface.about_handleObs_self`, `NetworkInterface.about_handleObs_other` — **a handled
  frame is seen once by its sender and, when it is relayed, once by every other client**.
-/

import WebSocketDemo.Registry

set_option relaxedAutoImplicit false
set_option autoImplicit false

namespace WebSocketDemo

/-! ### Projections of the history -/

/-- The operations that concern the connection `c`. -/
def about (c : ℕ) (τ : List Obs) : List Obs := τ.filter fun o => decide (o.conn = c)

/-- The frame itself when it is a text frame. -/
def textOf (f : Frame) : List Frame := if f.opcode = websocketTextData then [f] else []

/-- The process-wide log: the text frames in the order in which they are handled. -/
def texts (τ : List Obs) : List Frame :=
  τ.flatMap fun
    | .handled _ f => textOf f
    | _ => []

section Projections

variable (c : ℕ) (τ τ' : List Obs)

@[simp] theorem about_nil : about c [] = [] := rfl

@[simp] theorem about_append : about c (τ ++ τ') = about c τ ++ about c τ' :=
  List.filter_append _ _

theorem about_cons (o : Obs) : about c (o :: τ) =
    if o.conn = c then o :: about c τ else about c τ := by
  simp [about, List.filter_cons]

theorem about_of_ne {τ : List Obs} (h : ∀ o ∈ τ, o.conn ≠ c) : about c τ = [] := by
  simpa [about] using h

@[simp] theorem texts_nil : texts [] = [] := rfl

@[simp] theorem texts_append : texts (τ ++ τ') = texts τ ++ texts τ' := List.flatMap_append

theorem texts_cons (o : Obs) : texts (o :: τ) = texts [o] ++ texts τ := by
  simp [texts]

@[simp] theorem texts_handled (f : Frame) : texts [.handled c f] = textOf f := by
  simp [texts]

@[simp] theorem texts_offerObs (h : WebsocketHandler) (own : Bool) (data : Option Bytes) :
    texts (offerObs h own data) = [] := by
  cases data <;> rfl

theorem about_offerObs (h : WebsocketHandler) (own : Bool) (data : Option Bytes) :
    about c (offerObs h own data) = if h.conn = c then offerObs h own data else [] := by
  cases data with
  | none => simp [offerObs]
  | some data =>
      by_cases hc : h.conn = c
      · simp [offerObs, about_cons, Obs.conn, hc]
      · simp [offerObs, about_cons, Obs.conn, hc]

end Projections

namespace NetworkInterface

variable {w : NetworkInterface} {fd : Fd} {h : WebsocketHandler}

theorem texts_broadcastObs (exceptFd : Fd) (data : Bytes) (fds : List Fd) :
    texts (w.broadcastObs exceptFd data fds) = [] := by
  induction fds with
  | nil => rfl
  | cons fd fds ih =>
      simp only [broadcastObs, List.filterMap_cons]
      split
      · exact ih
      · rename_i o ho
        split_ifs at ho
        obtain ⟨h, _, rfl⟩ := Option.map_eq_some_iff.1 ho
        rw [texts_cons]
        exact ih

/-- A broadcast offers its data once to each connection in the set. -/
theorem about_broadcastObs (hwf : w.WellFormed) (hfd : w.websocketHandlerMap fd = some h)
    (exceptFd : Fd) (data : Bytes) {fds : List Fd} (hnd : fds.Nodup) :
    about h.conn (w.broadcastObs exceptFd data fds) =
      if fd ∈ fds ∧ fd ≠ exceptFd then [.offered h.conn data false (h.accepts data)] else [] := by
  induction fds with
  | nil => simp [broadcastObs]
  | cons cfd fds ih =>
      have hnotin := (List.nodup_cons.1 hnd).1
      have hcons : w.broadcastObs exceptFd data (cfd :: fds) =
          w.broadcastObs exceptFd data [cfd] ++ w.broadcastObs exceptFd data fds := by
        simp only [broadcastObs, ← List.filterMap_append, List.singleton_append]
      rw [hcons, about_append, ih hnd.of_cons]
      by_cases hex : cfd = exceptFd
      · subst hex
        by_cases he : fd = cfd
        · simp [broadcastObs, he]
        · simp [broadcastObs, he]
      · cases hc : w.websocketHandlerMap cfd with
        | none =>
            have he : fd ≠ cfd := by
              rintro rfl
              rw [hfd] at hc
              cases hc
            simp [broadcastObs, hex, hc, he]
        | some h' =>
            by_cases he : fd = cfd
            · subst he
              obtain rfl : h' = h := by
                rw [hfd] at hc
                exact (Option.some.inj hc).symm
              simp [broadcastObs, hex, hc, hnotin, about_cons, Obs.conn]
            · have hne : h'.conn ≠ h.conn := fun hce =>
                he (hwf.conn_inj cfd fd h' h hc hfd hce).symm
              simp [broadcastObs, hex, hc, he, about_cons, Obs.conn, hne]

/-- One handled frame is one entry of the log when it is a text frame. -/
theorem texts_handleObs (f : Frame) : texts (w.handleObs fd h f) = textOf f := by
  have hrelay : texts ((relay f).elim [] fun data => w.broadcastObs fd data w.wsClients) = [] := by
    cases relay f with
    | none => rfl
    | some data => exact texts_broadcastObs fd data w.wsClients
  rw [handleObs, List.cons_append, texts_cons, texts_handled, texts_append, texts_offerObs, hrelay,
    List.append_nil, List.append_nil]

/-- The sender sees its frame handled and the reply; the broadcast leaves it out. -/
theorem about_handleObs_self (hwf : w.WellFormed) (hfd : w.websocketHandlerMap fd = some h)
    (f : Frame) : about h.conn (w.handleObs fd h f) =
      .handled h.conn f :: offerObs h true (reply f) := by
  have hrelay : about h.conn
      ((relay f).elim [] fun data => w.broadcastObs fd data w.wsClients) = [] := by
    cases relay f with
    | none => rfl
    | some data =>
        rw [Option.elim_some, about_broadcastObs hwf hfd fd data hwf.nodup]
        simp
  rw [handleObs, about_append, hrelay, List.append_nil, about_cons, about_offerObs]
  simp [Obs.conn]

/-- Another connection sees the relayed frame if it is a client, and else nothing. -/
theorem about_handleObs_other (hwf : w.WellFormed) {fd' : Fd} {h' : WebsocketHandler}
    (hfd : w.websocketHandlerMap fd = some h) (hfd' : w.websocketHandlerMap fd' = some h')
    (hne : fd' ≠ fd) (f : Frame) :
    about h'.conn (w.handleObs fd h f) =
      if fd' ∈ w.wsClients then offerObs h' false (relay f) else [] := by
  have hconn : h.conn ≠ h'.conn := fun hc => hne (hwf.conn_inj fd fd' h h' hfd hfd' hc).symm
  have hown : about h'.conn (.handled h.conn f :: offerObs h true (reply f)) = [] := by
    rw [about_cons, about_offerObs]
    simp [Obs.conn, hconn]
  rw [handleObs, about_append, hown, List.nil_append]
  cases relay f with
  | none => simp [offerObs]
  | some data =>
      rw [Option.elim_some, about_broadcastObs hwf hfd' fd data hwf.nodup]
      simp [hne, offerObs]

theorem texts_closeObs (fds : List Fd) : texts (w.closeObs fds) = [] := by
  induction fds with
  | nil => rfl
  | cons fd fds ih =>
      simp only [closeObs, List.filterMap_cons]
      split
      · exact ih
      · rename_i o ho
        obtain ⟨h, _, rfl⟩ := Option.map_eq_some_iff.1 ho
        rw [texts_cons]
        exact ih

/-- Draining the queue closes each connection in it once. -/
theorem about_closeObs (hwf : w.WellFormed) (hfd : w.websocketHandlerMap fd = some h)
    {fds : List Fd} (hnd : fds.Nodup) :
    about h.conn (w.closeObs fds) = if fd ∈ fds then [.closed h.conn fd] else [] := by
  induction fds with
  | nil => simp [closeObs]
  | cons cfd fds ih =>
      have hnotin := (List.nodup_cons.1 hnd).1
      have hcons : w.closeObs (cfd :: fds) = w.closeObs [cfd] ++ w.closeObs fds := by
        simp only [closeObs, ← List.filterMap_append, List.singleton_append]
      rw [hcons, about_append, ih hnd.of_cons]
      cases hc : w.websocketHandlerMap cfd with
      | none =>
          have he : fd ≠ cfd := by
            rintro rfl
            rw [hfd] at hc
            cases hc
          simp [closeObs, hc, he]
      | some h' =>
          by_cases he : fd = cfd
          · subst he
            obtain rfl : h' = h := by
              rw [hfd] at hc
              exact (Option.some.inj hc).symm
            simp [closeObs, hc, hnotin, about_cons, Obs.conn]
          · have hne : h'.conn ≠ h.conn := fun hce =>
              he (hwf.conn_inj cfd fd h' h hc hfd hce).symm
            simp [closeObs, hc, he, about_cons, Obs.conn, hne]

end NetworkInterface

end WebSocketDemo
