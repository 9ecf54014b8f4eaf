/-
**What a connection has been given and what it has been sent.**

The operations observed at one connection are read as two streams.  Inbound: the bytes behind the
handshake, of which the frame loop has taken some frames and left the rest in `read_buf_`.
Outbound: the offers made to `append_outgoing`, of which some were taken, and of these some bytes
have been accepted by `send` and the rest is in `write_buf_`.  `Account` says that both add up.

Main definitions:

* `Offer`, `offers`, `sentBytes`, `handledFrames`, `handledTexts`, `readBytes`, `receivedBytes`,
  `inbound` — the streams;
* `Account` — the invariant.

Main results:

* `Account.step` — **every step of a connection keeps the account**;
* `Loop.account` — so that it holds of every live connection in every reachable state.
-/

import WebSocketDemo.Connection

set_option relaxedAutoImplicit false
set_option autoImplicit false

namespace WebSocketDemo

open PrefixDecoder Rfc6455

/-! ### The streams -/

/-- One call of `append_outgoing`: whose it is, and whether the bytes were appended. -/
structure Offer where
  data : Bytes
  own : Bool
  taken : Bool
  deriving DecidableEq, Repr

/-- The offers made to a connection. -/
def offers (a : List Obs) : List Offer :=
  a.filterMap fun
    | .offered _ data own taken => some ⟨data, own, taken⟩
    | _ => none

/-- The data that were appended. -/
def takenData (os : List Offer) : List Bytes := (os.filter Offer.taken).map Offer.data

/-- The data the connection was offered in answer to its own frames. -/
def ownData (os : List Offer) : List Bytes := (os.filter Offer.own).map Offer.data

/-- The bytes `send` accepted. -/
def sentBytes (a : List Obs) : Bytes :=
  a.flatMap fun
    | .sent _ data => data
    | _ => []

/-- The frames handled. -/
def handledFrames (a : List Obs) : List Frame :=
  a.filterMap fun
    | .handled _ f => some f
    | _ => none

/-- The text frames handled. -/
def handledTexts (a : List Obs) : List Frame := (handledFrames a).flatMap textOf

/-- The bytes `read` returned, taken or not. -/
def readBytes (a : List Obs) : Bytes :=
  a.flatMap fun
    | .received _ data => data
    | .readRefused _ data => data
    | _ => []

/-- The bytes that were taken. -/
def receivedBytes (a : List Obs) : Bytes :=
  a.flatMap fun
    | .received _ data => data
    | _ => []

/-- The bytes given to the frame loop: the upgrade drops the header block. -/
def inboundStep (b : Bytes) : Obs → Bytes
  | .upgraded _ _ rest => rest
  | .received _ data => b ++ data
  | _ => b

/-- The bytes received behind the handshake. -/
def inbound (a : List Obs) : Bytes := a.foldl inboundStep []

section Streams

variable (a b : List Obs)

@[simp] theorem offers_append : offers (a ++ b) = offers a ++ offers b := List.filterMap_append

@[simp] theorem sentBytes_append : sentBytes (a ++ b) = sentBytes a ++ sentBytes b :=
  List.flatMap_append

@[simp] theorem handledFrames_append :
    handledFrames (a ++ b) = handledFrames a ++ handledFrames b :=
  List.filterMap_append

@[simp] theorem readBytes_append : readBytes (a ++ b) = readBytes a ++ readBytes b :=
  List.flatMap_append

@[simp] theorem receivedBytes_append :
    receivedBytes (a ++ b) = receivedBytes a ++ receivedBytes b := List.flatMap_append

@[simp] theorem takenData_append (os ps : List Offer) :
    takenData (os ++ ps) = takenData os ++ takenData ps := by
  simp [takenData]

@[simp] theorem ownData_append (os ps : List Offer) :
    ownData (os ++ ps) = ownData os ++ ownData ps := by
  simp [ownData]

theorem inbound_append : inbound (a ++ b) = b.foldl inboundStep (inbound a) := List.foldl_append

@[simp] theorem inbound_snoc (o : Obs) : inbound (a ++ [o]) = inboundStep (inbound a) o := by
  rw [inbound_append]
  rfl

variable (h : WebsocketHandler) (own : Bool) (data : Option Bytes)

/-- The offer behind `offerObs`. -/
def WebsocketHandler.offerOf (h : WebsocketHandler) (own : Bool) (data : Option Bytes) :
    List Offer :=
  data.elim [] fun data => [⟨data, own, h.accepts data⟩]

@[simp] theorem offers_offerObs : offers (offerObs h own data) = h.offerOf own data := by
  cases data <;> rfl

@[simp] theorem sentBytes_offerObs : sentBytes (offerObs h own data) = [] := by
  cases data <;> rfl

@[simp] theorem readBytes_offerObs : readBytes (offerObs h own data) = [] := by
  cases data <;> rfl

@[simp] theorem receivedBytes_offerObs : receivedBytes (offerObs h own data) = [] := by
  cases data <;> rfl

@[simp] theorem handledFrames_offerObs : handledFrames (offerObs h own data) = [] := by
  cases data <;> rfl

/-- A handled frame and its answer. -/
@[simp] theorem handledFrames_handled (c : ℕ) (f : Frame) :
    handledFrames (.handled c f :: offerObs h own data) = [f] := by
  change f :: handledFrames (offerObs h own data) = [f]
  rw [handledFrames_offerObs]

@[simp] theorem sentBytes_handled (c : ℕ) (f : Frame) :
    sentBytes (.handled c f :: offerObs h own data) = [] :=
  sentBytes_offerObs h own data

@[simp] theorem foldl_inbound_offerObs (b : Bytes) :
    (offerObs h own data).foldl inboundStep b = b := by
  cases data <;> rfl

/-- What an offer adds to the buffer is what it adds to the data taken. -/
theorem writeBuf_offerOption :
    (h.offerOption data).writeBuf = h.writeBuf ++ (takenData (h.offerOf own data)).flatten := by
  cases data with
  | none => simp [takenData, WebsocketHandler.offerOf]
  | some d =>
      cases hd : h.accepts d with
      | false => simp [takenData, WebsocketHandler.offerOf, WebsocketHandler.offer, hd]
      | true => simp [takenData, WebsocketHandler.offerOf, WebsocketHandler.offer, hd]

@[simp] theorem ownData_offerOf_true : ownData (h.offerOf true data) = data.toList := by
  cases data <;> rfl

@[simp] theorem ownData_offerOf_false : ownData (h.offerOf false data) = [] := by
  cases data <;> rfl

end Streams

/-- The sender of a frame sees that it is handled, and no other. -/
theorem NetworkInterface.handledFrames_handleObs {w : NetworkInterface} (hwf : w.WellFormed)
    {fd : Fd} {h : WebsocketHandler} (hfd : w.websocketHandlerMap fd = some h) (f : Frame) :
    handledFrames (about h.conn (w.handleObs fd h f)) = [f] := by
  rw [about_handleObs_self hwf hfd f, handledFrames_handled]

/-! ### The account -/

/-- What a connection is offered behind the response: answers to frames of its own that were
handled, and text frames relayed from others. -/
def Justified (fs : List Frame) (o : Offer) : Prop :=
  if o.own then ∃ f ∈ fs, f.payload.length ≤ wsMaxPayloadBytes ∧ reply f = some o.data
  else ∃ f, f.payload.length ≤ wsMaxPayloadBytes ∧ relay f = some o.data

/-- The account of an upgraded connection, whose headers were `headerMap`. -/
structure Upgraded (a : List Obs) (readBuf : Bytes) (headerMap : HeaderMap) (os : List Offer) :
    Prop where
  /-- The response is the first offer, and it was taken. -/
  offers : offers a = ⟨(parseStr headerMap).2, true, true⟩ :: os
  justified : ∀ o ∈ os, Justified (handledFrames a) o
  /-- One answer for each text frame and each Ping, in the order of the frames. -/
  own : ownData os = (handledFrames a).filterMap reply
  /-- The frames handled are those at the front of what was received. -/
  inbound : frameDecoder.Decodes (inbound a) (handledFrames a) readBuf

/-- Both streams of a connection add up. -/
structure Account (v : View) (a : List Obs) : Prop where
  stream : sentBytes a ++ v.handler.writeBuf = (takenData (offers a)).flatten
  unconnect : v.handler.status = .unconnect →
    offers a = [] ∧ handledFrames a = [] ∧ (∀ c m rest, Obs.upgraded c m rest ∉ a) ∧
      ∀ c, Obs.registered c ∉ a
  handsharked : v.handler.status = .handsharked →
    ∃ headerMap os, Upgraded a v.handler.readBuf headerMap os ∧
      (∃ rest, Obs.upgraded v.handler.conn headerMap rest ∈ a) ∧
      Obs.registered v.handler.conn ∈ a

/-- Operations that are not part of either stream. -/
structure Silent (b : List Obs) : Prop where
  offers : offers b = []
  handled : handledFrames b = []
  upgraded : ∀ c m rest, Obs.upgraded c m rest ∉ b
  registered : ∀ c, Obs.registered c ∉ b

theorem silent_nil : Silent [] := ⟨rfl, rfl, by simp, by simp⟩

theorem Moves.handler {once : Prop} {v v' : View} (h : Moves once v v') :
    v'.handler = v.handler := by
  cases h <;> rfl

namespace Account

variable {once : Prop} {v v' : View} {a b : List Obs} {g : List Frame}

/-- A step in which nothing is offered and no frame is handled: what is left is to follow the bytes
sent and the bytes received. -/
theorem of_silent (hacc : Account v a) (hb : Silent b) (hconn : v'.handler.conn = v.handler.conn)
    (hstatus : v'.handler.status = v.handler.status)
    (hstream : sentBytes b ++ v'.handler.writeBuf = v.handler.writeBuf)
    (hinbound : v.handler.status = .handsharked →
      frameDecoder.Decodes (inbound a) (handledFrames a) v.handler.readBuf →
      frameDecoder.Decodes (inbound (a ++ b)) (handledFrames a) v'.handler.readBuf) :
    Account v' (a ++ b) := by
  refine ⟨?_, ?_, ?_⟩
  · rw [sentBytes_append, List.append_assoc, hstream, hacc.stream, offers_append, hb.offers,
      List.append_nil]
  · intro hu
    rw [hstatus] at hu
    obtain ⟨h₁, h₂, h₃, h₄⟩ := hacc.unconnect hu
    refine ⟨by simp [h₁, hb.offers], by simp [h₂, hb.handled], ?_, ?_⟩
    · intro c m rest hm
      rcases List.mem_append.1 hm with hm | hm
      · exact h₃ c m rest hm
      · exact hb.upgraded c m rest hm
    · intro c hm
      rcases List.mem_append.1 hm with hm | hm
      · exact h₄ c hm
      · exact hb.registered c hm
  · intro hs
    rw [hstatus] at hs
    obtain ⟨headerMap, os, hup, ⟨rest, hmem⟩, hreg⟩ := hacc.handsharked hs
    have hhandled : handledFrames (a ++ b) = handledFrames a := by simp [hb.handled]
    refine ⟨headerMap, os, ⟨?_, ?_, ?_, ?_⟩, ⟨rest, ?_⟩, ?_⟩
    · rw [offers_append, hb.offers, List.append_nil]
      exact hup.offers
    · rw [hhandled]
      exact hup.justified
    · rw [hhandled]
      exact hup.own
    · rw [hhandled]
      exact hinbound hs hup.inbound
    · rw [hconn]
      exact List.mem_append_left _ hmem
    · rw [hconn]
      exact List.mem_append_left _ hreg

/-- The same where the buffers do not change. -/
theorem of_same (hacc : Account v a) (hb : Silent b) (hconn : v'.handler.conn = v.handler.conn)
    (hstatus : v'.handler.status = v.handler.status)
    (hwrite : v'.handler.writeBuf = v.handler.writeBuf) (hsent : sentBytes b = [])
    (hread : v.handler.status = .handsharked →
      v'.handler.readBuf = v.handler.readBuf ∧ inbound (a ++ b) = inbound a) :
    Account v' (a ++ b) := by
  refine hacc.of_silent hb hconn hstatus (by rw [hsent, hwrite, List.nil_append]) ?_
  intro hs hd
  obtain ⟨h₁, h₂⟩ := hread hs
  rw [h₁, h₂]
  exact hd

/-- The upgrade opens the account. -/
theorem upgrade {headerMap : HeaderMap} {rest : Bytes} (hacc : Account v a)
    (hu : v.handler.status = .unconnect) (hempty : v.handler.writeBuf = [])
    (hv' : v'.handler = v.handler.upgraded headerMap rest) :
    Account v' (a ++ [.upgraded v.handler.conn headerMap rest,
      .offered v.handler.conn (parseStr headerMap).2 true true, .registered v.handler.conn]) := by
  obtain ⟨hoffers, hhandled, _, _⟩ := hacc.unconnect hu
  have hsent : sentBytes a = [] := by
    have hstream := hacc.stream
    rw [hoffers, hempty, List.append_nil] at hstream
    exact hstream
  refine ⟨?_, ?_, ?_⟩
  · rw [hv', offers_append, hoffers, sentBytes_append, hsent]
    simp [WebsocketHandler.upgraded, offers, sentBytes, takenData]
  · intro hs
    rw [hv'] at hs
    cases hs
  · intro _
    refine ⟨headerMap, [], ⟨?_, by simp, ?_, ?_⟩, ⟨rest, ?_⟩, ?_⟩
    · rw [offers_append, hoffers]
      rfl
    · rw [handledFrames_append, hhandled]
      rfl
    · rw [handledFrames_append, hhandled, inbound_append, hv']
      exact Decoder.Decodes.nil rest
    · rw [hv']
      simp [WebsocketHandler.upgraded]
    · rw [hv']
      simp [WebsocketHandler.upgraded]

/-- An offer, in answer to a frame `fs` of the connection itself or from elsewhere. -/
theorem offer (hacc : Account v a) (fs : List Frame) (own : Bool) (data : Option Bytes)
    {readBuf : Bytes} (hs : v.handler.status = .handsharked) (hoffers : offers b =
      v.handler.offerOf own data)
    (hhandled : handledFrames b = fs) (hsent : sentBytes b = [])
    (hconn : v'.handler.conn = v.handler.conn) (hstatus : v'.handler.status = v.handler.status)
    (hwrite : v'.handler.writeBuf = (v.handler.offerOption data).writeBuf)
    (hread : v'.handler.readBuf = readBuf) (hinbound : inbound (a ++ b) = inbound a)
    (hdecodes : frameDecoder.Decodes v.handler.readBuf fs readBuf)
    (hjust : ∀ o ∈ v.handler.offerOf own data, Justified fs o)
    (hown : ownData (v.handler.offerOf own data) = fs.filterMap reply) : Account v' (a ++ b) := by
  obtain ⟨headerMap, os, hup, ⟨rest, hmem⟩, hreg⟩ := hacc.handsharked hs
  refine ⟨?_, ?_, ?_⟩
  · rw [sentBytes_append, hsent, List.append_nil, hwrite,
      writeBuf_offerOption v.handler own data, ← List.append_assoc, hacc.stream, offers_append,
      hoffers, takenData_append, List.flatten_append]
  · intro hu
    rw [hstatus, hs] at hu
    cases hu
  · intro _
    have hmono {o : Offer} {fs₁ fs₂ : List Frame} (hsub : ∀ f ∈ fs₁, f ∈ fs₂)
        (ho : Justified fs₁ o) : Justified fs₂ o := by
      unfold Justified at *
      split_ifs with hb
      · rw [if_pos hb] at ho
        obtain ⟨f, hf, hr⟩ := ho
        exact ⟨f, hsub f hf, hr⟩
      · rw [if_neg hb] at ho
        exact ho
    refine ⟨headerMap, os ++ v.handler.offerOf own data, ⟨?_, ?_, ?_, ?_⟩, ⟨rest, ?_⟩, ?_⟩
    · rw [offers_append, hup.offers, hoffers, List.cons_append]
    · intro o ho
      rw [handledFrames_append, hhandled]
      rcases List.mem_append.1 ho with ho | ho
      · exact hmono (fun f hf => List.mem_append_left _ hf) (hup.justified o ho)
      · exact hmono (fun f hf => List.mem_append_right _ hf) (hjust o ho)
    · rw [ownData_append, hup.own, hown, handledFrames_append, hhandled, List.filterMap_append]
    · rw [hinbound, handledFrames_append, hhandled, hread]
      exact hup.inbound.trans hdecodes
    · rw [hconn]
      exact List.mem_append_left _ hmem
    · rw [hconn]
      exact List.mem_append_left _ hreg

/-- **Every step of a connection keeps the account.** -/
theorem step (hacc : Account v a) (h : ConnStep once v g b v') : Account v' (a ++ b) := by
  cases h with
  | quiet hm =>
      have hh := hm.handler
      exact hacc.of_same silent_nil (by rw [hh]) (by rw [hh]) (by rw [hh]) rfl
        (fun _ => ⟨by rw [hh], by rw [List.append_nil]⟩)
  | readable u _ _ _ =>
      exact hacc.of_same ⟨rfl, rfl, by simp, by simp⟩ rfl rfl rfl rfl (fun _ => ⟨rfl, by simp; rfl⟩)
  | received data _ _ _ _ =>
      refine hacc.of_silent ⟨rfl, rfl, by simp, by simp⟩ rfl rfl rfl ?_
      intro _ hd
      rw [inbound_snoc]
      exact hd.append data
  | readRefused data _ _ _ _ =>
      exact hacc.of_same ⟨rfl, rfl, by simp, by simp⟩ rfl rfl rfl rfl (fun _ => ⟨rfl, by simp; rfl⟩)
  | eof _ =>
      exact hacc.of_same ⟨rfl, rfl, by simp, by simp⟩ rfl rfl rfl rfl (fun _ => ⟨rfl, by simp; rfl⟩)
  | reject readBuf headerMap _ hu _ =>
      refine hacc.of_same ⟨rfl, rfl, by simp, by simp⟩ rfl rfl rfl rfl ?_
      intro hs
      rw [hs] at hu
      cases hu
  | upgrade headerMap rest _ hu hempty _ => exact hacc.upgrade hu hempty rfl
  | more request _ _ _ =>
      exact hacc.of_same silent_nil rfl rfl rfl rfl (fun _ => ⟨rfl, by rw [List.append_nil]⟩)
  | bad request _ _ _ =>
      exact hacc.of_same ⟨rfl, rfl, by simp, by simp⟩ rfl rfl rfl rfl (fun _ => ⟨rfl, by simp; rfl⟩)
  | handle f rest request _ hs hspec =>
      refine hacc.offer [f] true (reply f) hs ?_ ?_ ?_ (by simp) (by simp) rfl rfl ?_
        (Decoder.Decodes.cons hspec (Decoder.Decodes.nil rest)) ?_ ?_
      · exact offers_offerObs v.handler true (reply f)
      · exact handledFrames_handled v.handler true (reply f) v.handler.conn f
      · exact sentBytes_offerObs v.handler true (reply f)
      · rw [inbound_append]
        exact foldl_inbound_offerObs v.handler true (reply f) (inbound a)
      · intro o ho
        cases hr : reply f with
        | none => simp [hr, WebsocketHandler.offerOf] at ho
        | some d =>
            obtain rfl : o = ⟨d, true, v.handler.accepts d⟩ := by
              simpa [hr, WebsocketHandler.offerOf] using ho
            exact ⟨f, List.mem_singleton_self f, length_le_of_frameSpec_item hspec, hr⟩
      · rw [ownData_offerOf_true]
        cases hr : reply f with
        | none => simp [hr]
        | some d => simp [hr]
  | relay f _ hs hlength =>
      refine hacc.offer [] false (relay f) hs (by simp) (by simp) (by simp) (by simp) (by simp) rfl
        rfl ?_ (by simpa using Decoder.Decodes.nil v.handler.readBuf) ?_ (by simp)
      · rw [inbound_append]
        exact foldl_inbound_offerObs v.handler false (relay f) (inbound a)
      · intro o ho
        cases hr : relay f with
        | none => simp [hr, WebsocketHandler.offerOf] at ho
        | some d =>
            obtain rfl : o = ⟨d, false, v.handler.accepts d⟩ := by
              simpa [hr, WebsocketHandler.offerOf] using ho
            exact ⟨f, hlength, hr⟩
  | overheard f _ _ =>
      exact hacc.of_same silent_nil rfl rfl rfl rfl (fun _ => ⟨rfl, by rw [List.append_nil]⟩)
  | sent n _ hn hle =>
      refine hacc.of_silent ⟨rfl, rfl, by simp, by simp⟩ rfl rfl ?_ ?_
      · simp [sentBytes]
      · intro _ hd
        rw [inbound_snoc]
        exact hd

end Account

namespace Loop

variable {once : Prop} {ok : Loop → Input → Prop} {listenfd : Fd} {s : Loop}

/-- All that is known of a connection that has just been accepted. -/
theorem about_new {τ : List Obs} {c : ℕ} (fd : Fd) (hτ : ∀ o ∈ τ, o.conn ≠ c) :
    about c (τ ++ [.accepted c fd]) = [.accepted c fd] := by
  rw [about_append, about_of_ne c hτ, List.nil_append]
  simp [about_cons, Obs.conn]

/-- A connection that has just been accepted. -/
theorem account_new (τ : List Obs) (c : ℕ) (fd : Fd) (p u : Bool) (hτ : ∀ o ∈ τ, o.conn ≠ c) :
    Account ⟨WebsocketHandler.new c fd, .idle, p, u⟩ (about c (τ ++ [.accepted c fd])) := by
  rw [about_new fd hτ]
  refine ⟨rfl, fun _ => ⟨rfl, rfl, by simp, by simp⟩, ?_⟩
  intro hs
  cases hs

/-- **The account of every live connection adds up.** -/
theorem account (hok : Promises ok once) (hr : Reachable ok listenfd s) {fd : Fd}
    {h : WebsocketHandler} (hfd : s.worker.websocketHandlerMap fd = some h) :
    Account (s.view fd h) (about h.conn s.worker.trace) :=
  conn_induction (P := fun τ v => Account v (about v.handler.conn τ)) hok
    (fun τ c fd p u hτ => account_new τ c fd p u hτ)
    (fun τ δ v g a v' _ ha hstep hacc => by
      rw [hstep.conn, about_append, ha]
      exact hacc.step hstep)
    hr fd h hfd

end Loop

end WebSocketDemo
