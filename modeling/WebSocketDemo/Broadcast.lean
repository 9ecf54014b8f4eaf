/-
**The broadcast is a total order.**

One log orders the text frames of a worker: the order in which they are handled.  A client that has
refused nothing has been given exactly the part of the log behind its registration, one frame for
each entry, whether it sent the entry itself or not.  Two such clients have therefore been given two
suffixes of one list.

Main definitions:

* `logSince` — the log from the registration of a connection on;
* `outgoingTexts`, `offeredTexts` — the text frames in an outgoing stream, and those offered to it;
* `Follows` — a connection follows the log.

Main results:

* `outgoing_texts_total_order` — **every client is given the log from its registration on, in log
  order, each entry once**.
-/

import WebSocketDemo.Outgoing
import Mathlib.Data.List.TakeWhile

set_option relaxedAutoImplicit false
set_option autoImplicit false

namespace WebSocketDemo

open PrefixDecoder Rfc6455

/-! ### The log behind a registration -/

/-- The operation is the registration of `c`. -/
def Obs.isRegistered (c : ℕ) : Obs → Bool
  | registered c' => decide (c' = c)
  | _ => false

/-- The text frames handled since `c` was registered. -/
def logSince (c : ℕ) (τ : List Obs) : List Frame :=
  texts (τ.dropWhile fun o => !o.isRegistered c)

section LogSince

variable {c : ℕ} {τ δ : List Obs}

theorem Obs.isRegistered_iff {o : Obs} : o.isRegistered c = true ↔ o = .registered c := by
  cases o <;> simp [Obs.isRegistered]

theorem texts_eq_nil_of_suffix {τ' : List Obs} (h : texts τ = []) (hs : τ' <:+ τ) :
    texts τ' = [] := by
  obtain ⟨p, rfl⟩ := hs
  rw [texts_append] at h
  exact (List.append_eq_nil_iff.1 h).2

/-- Behind the registration the log grows by what is handled. -/
theorem logSince_append_of_mem (h : .registered c ∈ τ) :
    logSince c (τ ++ δ) = logSince c τ ++ texts δ := by
  have hne : τ.dropWhile (fun o => !o.isRegistered c) ≠ [] := by
    intro hnil
    rw [List.dropWhile_eq_nil_iff] at hnil
    simpa [Obs.isRegistered] using hnil _ h
  rw [logSince, List.dropWhile_append, if_neg (by simpa using hne), texts_append]
  rfl

/-- Before the registration there is none. -/
theorem logSince_of_not_mem (h : .registered c ∉ τ) : logSince c τ = [] := by
  have hnil : τ.dropWhile (fun o => !o.isRegistered c) = [] := by
    rw [List.dropWhile_eq_nil_iff]
    intro o ho
    have hne : o.isRegistered c ≠ true := by
      rw [ne_eq, Obs.isRegistered_iff]
      rintro rfl
      exact h ho
    simpa using hne
  rw [logSince, hnil, texts_nil]

/-- A step that handles no text frame adds nothing. -/
theorem logSince_append_of_texts (h : texts δ = []) : logSince c (τ ++ δ) = logSince c τ := by
  by_cases hm : .registered c ∈ τ
  · rw [logSince_append_of_mem hm, h, List.append_nil]
  · rw [logSince_of_not_mem hm, logSince, List.dropWhile_append]
    split_ifs with hd
    · exact texts_eq_nil_of_suffix h (List.dropWhile_suffix _)
    · have hnil : τ.dropWhile (fun o => !o.isRegistered c) = [] := by
        rw [List.dropWhile_eq_nil_iff]
        intro o ho
        have hne : o.isRegistered c ≠ true := by
          rw [ne_eq, Obs.isRegistered_iff]
          rintro rfl
          exact hm ho
        simpa using hne
      exact absurd (by simp [hnil]) hd

/-- The log behind a registration is the end of the log. -/
theorem logSince_suffix : logSince c τ <:+ texts τ := by
  obtain ⟨p, hp⟩ := List.dropWhile_suffix (l := τ) fun o => !o.isRegistered c
  refine ⟨texts p, ?_⟩
  rw [logSince, ← texts_append, hp]

theorem mem_registered_append {a : List Obs} (ha : about c δ = a) :
    .registered c ∈ τ ++ δ ↔ .registered c ∈ τ ∨ .registered c ∈ a := by
  rw [List.mem_append, ← ha, about, List.mem_filter]
  simp [Obs.conn]

end LogSince

/-! ### The text frames of a stream -/

/-- The data are a frame with the opcode of text. -/
def isText : Bytes → Bool
  | b :: _ => decide (b &&& 0x0f = websocketTextData)
  | [] => false

/-- The text frames placed in the stream of a connection. -/
def outgoingTexts (a : List Obs) : List Bytes := (takenData (offers a)).filter isText

/-- The text frames a connection is offered, taken or refused. -/
def offeredTexts (a : List Obs) : List Bytes := ((offers a).map Offer.data).filter isText

theorem isText_serverFrame (opcode : Fin 16) (payload : Bytes) :
    isText (serverFrame opcode payload).encode = decide (opcode = opText) := by
  have hbyte : ∀ opcode : Fin 16,
      decide (UInt8.ofNat (128 + 16 * 0 + opcode.val) &&& 0x0f = websocketTextData) =
        decide (opcode = opText) := by
    decide
  exact hbyte opcode

/-- The response is not a frame. -/
theorem isText_parseStr (headerMap : HeaderMap) : isText (parseStr headerMap).2 = false := by
  have h72 : ∃ rest, (parseStr headerMap).2 = 72 :: rest := ⟨_, rfl⟩
  obtain ⟨rest, hr⟩ := h72
  rw [hr, isText]
  decide

/-- Where nothing is refused, what is offered is what is taken. -/
theorem outgoingTexts_of_taken {a : List Obs} (h : ∀ o ∈ offers a, o.taken = true) :
    outgoingTexts a = offeredTexts a := by
  rw [outgoingTexts, offeredTexts, takenData, List.filter_eq_self.2 h]

theorem offeredTexts_append {a b : List Obs} :
    offeredTexts (a ++ b) = offeredTexts a ++ offeredTexts b := by
  simp [offeredTexts]

/-- The text frame of an offer. -/
theorem offeredTexts_offerObs {h : WebsocketHandler} {own : Bool} {data : Option Bytes} :
    offeredTexts (offerObs h own data) = data.toList.filter isText := by
  cases data <;> rfl

/-- The echo of a text frame is its relay; a Pong is no text frame. -/
theorem filter_isText_reply (f : Frame) :
    (reply f).toList.filter isText = (relay f).toList := by
  by_cases h₁ : f.opcode = websocketTextData
  · simp [reply, relay, h₁, isText_serverFrame]
  · by_cases h₂ : f.opcode = websocketPingPack
    · have hpong : isText (serverFrame opPong f.payload).encode = false := by
        rw [isText_serverFrame]
        decide
      rw [reply, if_neg h₁, if_pos h₂, relay, if_neg h₁]
      simp [hpong]
    · simp [reply, relay, h₁, h₂]

theorem filter_isText_relay (f : Frame) :
    (relay f).toList.filter isText = (relay f).toList := by
  by_cases h₁ : f.opcode = websocketTextData
  · simp [relay, h₁, isText_serverFrame]
  · simp [relay, h₁]

/-- The relays of one frame. -/
theorem filterMap_relay_textOf (f : Frame) : (textOf f).filterMap relay = (relay f).toList := by
  by_cases h₁ : f.opcode = websocketTextData
  · simp [textOf, relay, h₁]
  · simp [textOf, relay, h₁]

/-! ### A connection follows the log -/

/-- The connection is registered when its handshake is done, and it has been offered the log behind
its registration. -/
structure Follows (τ : List Obs) (v : View) : Prop where
  registered : .registered v.handler.conn ∈ τ ↔ v.handler.status = .handsharked
  texts : offeredTexts (about v.handler.conn τ) = (logSince v.handler.conn τ).filterMap relay
  length_le : ∀ f ∈ logSince v.handler.conn τ,
    f.opcode = websocketTextData ∧ f.payload.length ≤ wsMaxPayloadBytes

namespace Follows

variable {once : Prop} {v v' : View} {τ δ : List Obs} {a : List Obs} {g : List Frame}

/-- A step in which no text frame is handled and nothing is offered. -/
theorem of_quiet (hf : Follows τ v) (hconn : v'.handler.conn = v.handler.conn)
    (hstatus : v'.handler.status = v.handler.status) (hg : WebSocketDemo.texts δ = [])
    (ha : about v.handler.conn δ = a) (hoffers : offers a = [])
    (hregistered : .registered v.handler.conn ∉ a) : Follows (τ ++ δ) v' := by
  refine ⟨?_, ?_, ?_⟩
  · rw [hconn, hstatus, mem_registered_append ha, ← hf.registered]
    simp [hregistered]
  · have hnil : offeredTexts a = [] := by simp [offeredTexts, hoffers]
    rw [hconn, about_append, ha, offeredTexts_append, hnil, List.append_nil,
      logSince_append_of_texts hg]
    exact hf.texts
  · rw [hconn, logSince_append_of_texts hg]
    exact hf.length_le

/-- A frame is handled and the client is offered its share, as the sender or as another client. -/
theorem of_text {f : Frame} (hf : Follows τ v) (hs : v.handler.status = .handsharked)
    (hconn : v'.handler.conn = v.handler.conn) (hstatus : v'.handler.status = v.handler.status)
    (hg : WebSocketDemo.texts δ = textOf f) (ha : about v.handler.conn δ = a)
    (htexts : offeredTexts a = (relay f).toList) (hlength : f.payload.length ≤ wsMaxPayloadBytes) :
    Follows (τ ++ δ) v' := by
  have hmem := hf.registered.2 hs
  refine ⟨?_, ?_, ?_⟩
  · rw [hconn, hstatus, hs]
    simp [hmem]
  · rw [hconn, about_append, ha, logSince_append_of_mem hmem, hg, offeredTexts_append,
      List.filterMap_append, filterMap_relay_textOf, hf.texts, htexts]
  · rw [hconn, logSince_append_of_mem hmem, hg]
    intro f' hf'
    rcases List.mem_append.1 hf' with hold | hnew
    · exact hf.length_le f' hold
    · unfold textOf at hnew
      split_ifs at hnew with htext
      · obtain rfl := List.mem_singleton.1 hnew
        exact ⟨htext, hlength⟩
      · cases hnew

/-- The upgrade: the log behind the registration is still empty. -/
theorem upgrade {headerMap : HeaderMap} {rest : Bytes} (hf : Follows τ v)
    (hacc : Account v (about v.handler.conn τ)) (hu : v.handler.status = .unconnect)
    (hv' : v'.handler = v.handler.upgraded headerMap rest) (hg : WebSocketDemo.texts δ = [])
    (ha : about v.handler.conn δ = [.upgraded v.handler.conn headerMap rest,
      .offered v.handler.conn (parseStr headerMap).2 true true, .registered v.handler.conn]) :
    Follows (τ ++ δ) v' := by
  have hconn : v'.handler.conn = v.handler.conn := by rw [hv']; rfl
  have hnot : .registered v.handler.conn ∉ τ := by
    rw [hf.registered, hu]
    simp
  have hlog : logSince v.handler.conn (τ ++ δ) = [] := by
    rw [logSince_append_of_texts hg, logSince_of_not_mem hnot]
  refine ⟨?_, ?_, ?_⟩
  · rw [hconn, mem_registered_append ha, hv']
    simp [WebsocketHandler.upgraded]
  · rw [hconn, hlog, about_append, ha, offeredTexts_append, offeredTexts, (hacc.unconnect hu).1]
    simp [offeredTexts, offers, isText_parseStr]
  · rw [hconn, hlog]
    intro f hmem
    cases hmem

/-- A connection whose handshake is not done is not registered. -/
theorem overheard (hf : Follows τ v) (hu : v.handler.status = .unconnect)
    (ha : about v.handler.conn δ = []) : Follows (τ ++ δ) v := by
  have hnot : .registered v.handler.conn ∉ τ := by
    rw [hf.registered, hu]
    simp
  have hnot' : .registered v.handler.conn ∉ τ ++ δ := by
    rw [mem_registered_append ha]
    simp [hnot]
  refine ⟨?_, ?_, ?_⟩
  · simp [hnot', hu]
  · rw [about_append, ha, List.append_nil, logSince_of_not_mem hnot', hf.texts,
      logSince_of_not_mem hnot]
  · rw [logSince_of_not_mem hnot']
    intro f hmem
    cases hmem

/-- **Every step of a connection keeps it on the log.** -/
theorem step (hf : Follows τ v) (hacc : Account v (about v.handler.conn τ))
    (hg : WebSocketDemo.texts δ = g)
    (ha : about v.handler.conn δ = a) (h : ConnStep once v g a v') : Follows (τ ++ δ) v' := by
  cases h with
  | quiet hm =>
      have hh := hm.handler
      exact hf.of_quiet (by rw [hh]) (by rw [hh]) hg ha rfl (by simp)
  | upgrade headerMap rest _ hu _ _ => exact hf.upgrade hacc hu rfl hg ha
  | handle f rest request _ hs hspec =>
      refine hf.of_text hs (by simp) (by simp) hg ha ?_ (length_le_of_frameSpec_item hspec)
      change offeredTexts (offerObs v.handler true (reply f)) = _
      rw [offeredTexts_offerObs, filter_isText_reply]
  | relay f _ hs hlength =>
      refine hf.of_text hs (by simp) (by simp) hg ha ?_ hlength
      rw [offeredTexts_offerObs, filter_isText_relay]
  | overheard f _ hu => exact hf.overheard hu ha
  | _ => exact hf.of_quiet rfl rfl hg ha rfl (by simp)

end Follows

/-- **Every live connection follows the log.** -/
theorem Loop.follows {once : Prop} {ok : Loop → Input → Prop} (hok : Promises ok once)
    {listenfd : Fd} {s : Loop} (hr : Reachable ok listenfd s) {fd : Fd} {h : WebsocketHandler}
    (hfd : s.worker.websocketHandlerMap fd = some h) : Follows s.worker.trace (s.view fd h) := by
  refine conn_induction_of (C := fun τ v => Account v (about v.handler.conn τ)) (P := Follows) hok
    (fun _ _ _ _ hr _ hfd => account hok hr hfd) ?_ ?_ hr fd h hfd
  · intro τ c fd p u hτ
    have hnot : .registered c ∉ τ ++ [.accepted c fd] := by
      intro hm
      rcases List.mem_append.1 hm with hm | hm
      · exact hτ _ hm rfl
      · simp at hm
    have hlog : logSince c (τ ++ [.accepted c fd]) = [] := logSince_of_not_mem hnot
    refine ⟨⟨fun hm => absurd hm hnot, fun hs => by cases hs⟩, ?_, ?_⟩
    · change offeredTexts (about c (τ ++ [.accepted c fd])) =
        (logSince c (τ ++ [.accepted c fd])).filterMap relay
      rw [hlog, about_new fd hτ]
      rfl
    · change ∀ f ∈ logSince c (τ ++ [.accepted c fd]), _
      rw [hlog]
      intro f hm
      cases hm
  · intro τ δ v g a v' hg ha hstep hacc hf
    exact hf.step hacc hg ha hstep

/-- **Exactly-once, totally ordered broadcast.**  What `send` has accepted for a live connection and
what is in its `write_buf_` are the data it has taken, one behind the other.  The text frames among
them are, if it has refused nothing, the encodings of the log behind its registration, in log order;
of any two such connections one has been given the end of what the other has been given. -/
theorem outgoing_texts_total_order {listenfd : Fd} {s : Loop}
    (hr : Loop.Reachable Loop.AnyBatch listenfd s) :
    (∀ fd h, s.worker.websocketHandlerMap fd = some h →
      sentBytes (about h.conn s.worker.trace) ++ h.writeBuf =
        (takenData (offers (about h.conn s.worker.trace))).flatten) ∧
    (∀ fd h, s.worker.websocketHandlerMap fd = some h →
      (∀ o ∈ offers (about h.conn s.worker.trace), o.taken = true) →
      (outgoingTexts (about h.conn s.worker.trace)).map some =
        (logSince h.conn s.worker.trace).map fun f =>
          WebsocketRespond.packData (some f.payload) f.payload.length websocketFinMsgEnd
            websocketTextData websocketNeedNotMask) ∧
    (∀ fd h fd' h', s.worker.websocketHandlerMap fd = some h →
      s.worker.websocketHandlerMap fd' = some h' →
      (∀ o ∈ offers (about h.conn s.worker.trace), o.taken = true) →
      (∀ o ∈ offers (about h'.conn s.worker.trace), o.taken = true) →
      outgoingTexts (about h.conn s.worker.trace) <:+ outgoingTexts (about h'.conn s.worker.trace) ∨
        outgoingTexts (about h'.conn s.worker.trace) <:+
          outgoingTexts (about h.conn s.worker.trace)) := by
  have hgiven (fd : Fd) (h : WebsocketHandler) (hfd : s.worker.websocketHandlerMap fd = some h)
      (ht : ∀ o ∈ offers (about h.conn s.worker.trace), o.taken = true) :
      outgoingTexts (about h.conn s.worker.trace) =
        (logSince h.conn s.worker.trace).filterMap relay := by
    rw [outgoingTexts_of_taken ht]
    exact (Loop.follows Loop.promises_anyBatch hr hfd).texts
  refine ⟨?_, ?_, ?_⟩
  · intro fd h hfd
    exact (Loop.account Loop.promises_anyBatch hr hfd).stream
  · intro fd h hfd ht
    rw [hgiven fd h hfd ht, List.map_filterMap]
    have hlog := (Loop.follows Loop.promises_anyBatch hr hfd).length_le
    rw [← List.filterMap_eq_map]
    refine List.filterMap_congr ?_
    intro f hf
    obtain ⟨hop, hlen⟩ := hlog f hf
    have hpack := packData_serverFrame opText hlen
    have htext : UInt8.ofNat opText.val = websocketTextData := by decide
    rw [htext] at hpack
    simp [relay, hop, hpack]
  · intro fd h fd' h' hfd hfd' ht ht'
    rw [hgiven fd h hfd ht, hgiven fd' h' hfd' ht']
    have hsuffix (c : ℕ) : (logSince c s.worker.trace).filterMap relay <:+
        (texts s.worker.trace).filterMap relay := by
      obtain ⟨p, hp⟩ := logSince_suffix (c := c) (τ := s.worker.trace)
      exact ⟨p.filterMap relay, by rw [← List.filterMap_append, hp]⟩
    exact List.suffix_or_suffix_of_suffix (hsuffix h.conn) (hsuffix h'.conn)

/-- Of two clients one says "hi"; the other one is given it. -/
theorem outgoing_texts_total_order_hi : ∃ s h, Loop.Reachable Loop.AnyBatch 3 s ∧
    s.worker.websocketHandlerMap 6 = some h ∧
      logSince h.conn s.worker.trace = [⟨1, 1, ascii "hi"⟩] ∧
    sentBytes (about h.conn s.worker.trace) ++ h.writeBuf =
      (takenData (offers (about h.conn s.worker.trace))).flatten ∧
    (outgoingTexts (about h.conn s.worker.trace)).map some =
      (logSince h.conn s.worker.trace).map fun f =>
        WebsocketRespond.packData (some f.payload) f.payload.length websocketFinMsgEnd
          websocketTextData websocketNeedNotMask := by
  have hrun : ((Loop.init 3).exec (session [5, 6] ++ receive 5 hiFrame.encode ++ [.tau])).map
      (fun s => ((s.worker.websocketHandlerMap 6).map WebsocketHandler.conn,
        (offers (about 2 s.worker.trace)).all Offer.taken, logSince 2 s.worker.trace)) =
      some (some 2, true, [⟨1, 1, ascii "hi"⟩]) := by
    decide +kernel
  obtain ⟨s, hr, hs⟩ := Loop.reachable_of_exec _ hrun
  simp only [Prod.mk.injEq] at hs
  obtain ⟨hconn, htaken, hlog⟩ := hs
  obtain ⟨h, hfd, hc⟩ := Option.map_eq_some_iff.1 hconn
  obtain ⟨hstream, hgiven, _⟩ := outgoing_texts_total_order (Loop.reachable_anyBatch hr)
  refine ⟨s, h, Loop.reachable_anyBatch hr, hfd, by rw [hc]; exact hlog, hstream 6 h hfd, ?_⟩
  refine hgiven 6 h hfd ?_
  rw [hc]
  exact List.all_eq_true.1 htaken

end WebSocketDemo
