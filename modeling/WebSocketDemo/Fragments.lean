/-
**Fragmented messages.**

`handle_one_frame` looks at the opcode of a frame and at nothing else: a text frame is answered and
relayed with FIN set, a continuation is dropped.  Of a message in several frames every client is
given the first fragment as a message of its own.

Main definitions:

* `textLog` — the log of text frames, with their senders.

Main results:

* `fragments_relayed` — **what the clients are given of a fragmented message**, and when it is the
  whole.
-/

import WebSocketDemo.Broadcast
import WebSocketDemo.EndOfStream

set_option relaxedAutoImplicit false
set_option autoImplicit false

namespace WebSocketDemo

open PrefixDecoder Rfc6455

/-! ### The log and its senders -/

/-- The text frames in the order in which they are handled, each with the number of the connection
it came from. -/
def textLog (τ : List Obs) : List (ℕ × Frame) :=
  τ.flatMap fun
    | .handled c f => (textOf f).map fun f => (c, f)
    | _ => []

theorem map_snd_textLog (τ : List Obs) : (textLog τ).map Prod.snd = texts τ := by
  induction τ with
  | nil => rfl
  | cons o τ ih =>
      rw [textLog, List.flatMap_cons, List.map_append, texts, List.flatMap_cons]
      refine congrArg₂ (· ++ ·) ?_ ih
      cases o with
      | handled c f => simp [Function.comp_def]
      | _ => rfl

/-- Only text frames are logged. -/
theorem opcode_of_mem_textLog {τ : List Obs} {e : ℕ × Frame} (he : e ∈ textLog τ) :
    e.2.opcode = websocketTextData := by
  obtain ⟨o, _, ho⟩ := List.mem_flatMap.1 he
  cases o with
  | handled c f =>
      obtain ⟨f', hf', rfl⟩ := List.mem_map.1 ho
      unfold textOf at hf'
      split_ifs at hf' with htext
      · obtain rfl := List.mem_singleton.1 hf'
        exact htext
      · cases hf'
  | _ => cases ho

/-- The entries of one sender. -/
theorem filter_textLog (c : ℕ) (τ : List Obs) :
    (textLog τ).filter (fun e => decide (e.1 = c)) =
      (handledTexts (about c τ)).map fun f => (c, f) := by
  induction τ with
  | nil => rfl
  | cons o τ ih =>
      have hhead : textLog (o :: τ) = textLog [o] ++ textLog τ := by
        simp [textLog]
      have habout : handledTexts (about c (o :: τ)) =
          handledTexts (about c [o]) ++ handledTexts (about c τ) := by
        rw [show o :: τ = [o] ++ τ from rfl, about_append, handledTexts, handledFrames_append,
          List.flatMap_append]
        rfl
      rw [hhead, List.filter_append, ih, habout, List.map_append]
      refine congrArg (· ++ _) ?_
      rw [about_cons]
      cases o with
      | handled c' f =>
          by_cases hc : c' = c
          · subst hc
            simp [textLog, handledTexts, handledFrames, Obs.conn]
          · simp [textLog, handledTexts, handledFrames, Obs.conn, hc]
      | _ =>
          split_ifs
          · rfl
          · rfl

/-- A log with a single entry of a sender. -/
theorem split_textLog {c : ℕ} {f : Frame} {τ : List Obs}
    (h : handledTexts (about c τ) = [f]) :
    ∃ pre post, textLog τ = pre ++ (c, f) :: post ∧ ∀ e ∈ pre ++ post, e.1 ≠ c := by
  have hfilter := filter_textLog c τ
  rw [h, List.map_singleton] at hfilter
  obtain ⟨pre, post, hlog, hpre, _, hpost⟩ := List.filter_eq_cons_iff.1 hfilter
  refine ⟨pre, post, hlog, ?_⟩
  intro e he
  rcases List.mem_append.1 he with hm | hm
  · simpa using hpre e hm
  · simpa using List.filter_eq_nil_iff.1 hpost e hm

/-! ### What is handled and what is offered -/

/-- Continuations and control frames are not logged. -/
theorem flatMap_textOf_wireContent (fs : List WireFrame) :
    (fs.map wireContent).flatMap textOf = (withOpcode opText fs).map wireContent := by
  induction fs with
  | nil => rfl
  | cons f fs ih =>
      rw [List.map_cons, List.flatMap_cons, ih]
      by_cases hop : f.opcode = opText
      · have htext : (wireContent f).opcode = websocketTextData :=
          (ofNat_opcode_inj f.opcode opText).2 hop
        rw [withOpcode_cons_of_eq hop, textOf, if_pos htext]
        rfl
      · have htext : (wireContent f).opcode ≠ websocketTextData :=
          fun he => hop ((ofNat_opcode_inj f.opcode opText).1 he)
        rw [withOpcode_cons_of_ne hop, textOf, if_neg htext]
        rfl

section Runs

variable {listenfd : Fd} {s t : Loop} {fd fd' : Fd} {h h' : WebsocketHandler} {δ : List Obs}
  {new : Bytes} {fs : List WireFrame} {m : Message}

/-- **The frames consumed between two states are handled**, however their bytes are cut into reads
and whatever else is read with them. -/
theorem handled_between (hr : Loop.Reachable Loop.AnyBatch listenfd s)
    (hst : Transition.Reaches Loop.step Loop.AnyBatch s t)
    (hfd : s.worker.websocketHandlerMap fd = some h)
    (hfd' : t.worker.websocketHandlerMap fd' = some h') (hconn : h'.conn = h.conn)
    (hs : h.status = .handsharked) (hs' : h'.status = .handsharked)
    (hlen : ∀ f ∈ fs, f.payload.length ≤ wsMaxPayloadBytes)
    (hnew : inbound (about h.conn t.worker.trace) = inbound (about h.conn s.worker.trace) ++ new)
    (hbytes : h.readBuf ++ new = fs.flatMap WireFrame.encode ++ h'.readBuf)
    (hδ : t.worker.trace = s.worker.trace ++ δ) :
    handledFrames (about h.conn δ) = fs.map wireContent := by
  obtain ⟨_, _, hup, _⟩ := (Loop.account Loop.promises_anyBatch hr hfd).handsharked hs
  obtain ⟨_, _, hup', _⟩ :=
    (Loop.account Loop.promises_anyBatch (Transition.Reaches.trans hr hst) hfd').handsharked hs'
  have hall : frameDecoder.Decodes (fs.flatMap WireFrame.encode) (fs.map wireContent) [] :=
    Decoder.decodes_flatMap fun f hf rest => frameSpec_encode f (hlen f hf) rest
  have hdec : frameDecoder.Decodes (inbound (about h.conn t.worker.trace))
      (handledFrames (about h.conn s.worker.trace) ++ fs.map wireContent) h'.readBuf := by
    have hrest : frameDecoder.Decodes (inbound (about h.conn s.worker.trace) ++ new)
        (handledFrames (about h.conn s.worker.trace)) (h.readBuf ++ new) := hup.inbound.append new
    rw [hbytes, ← hnew] at hrest
    exact hrest.trans (hall.append h'.readBuf)
  have hdec' : frameDecoder.Decodes (inbound (about h.conn t.worker.trace))
      (handledFrames (about h.conn s.worker.trace) ++ handledFrames (about h.conn δ))
      h'.readBuf := by
    rw [← handledFrames_append, ← about_append, ← hδ, ← hconn]
    exact hup'.inbound
  exact List.append_cancel_left (hdec'.items_unique hdec)

/-- **A registered client is offered one text frame for each entry of the log**, all of them final.
-/
theorem offered_between (hr : Loop.Reachable Loop.AnyBatch listenfd s)
    (hst : Transition.Reaches Loop.step Loop.AnyBatch s t)
    (hfd : s.worker.websocketHandlerMap fd = some h)
    (hfd' : t.worker.websocketHandlerMap fd' = some h') (hconn : h'.conn = h.conn)
    (hs : h.status = .handsharked) (hδ : t.worker.trace = s.worker.trace ++ δ) :
    offeredTexts (about h.conn δ) =
      ((textLog δ).map fun e => serverFrame opText e.2.payload).map WireFrame.encode := by
  have hf := Loop.follows Loop.promises_anyBatch hr hfd
  have hf' := Loop.follows Loop.promises_anyBatch (Transition.Reaches.trans hr hst) hfd'
  have hmem : .registered h.conn ∈ s.worker.trace := hf.registered.2 hs
  have hold : offeredTexts (about h.conn s.worker.trace) =
      (logSince h.conn s.worker.trace).filterMap relay := hf.texts
  have htexts := hf'.texts
  rw [show (t.view fd' h').handler.conn = h.conn from hconn, hδ, about_append, offeredTexts_append,
    logSince_append_of_mem hmem, List.filterMap_append, hold] at htexts
  rw [List.append_cancel_left htexts, ← map_snd_textLog, List.filterMap_map, List.map_map,
    ← List.filterMap_eq_map]
  refine List.filterMap_congr ?_
  intro e he
  simp [relay, opcode_of_mem_textLog he]

/-- **What becomes of a message in fragments.**  Between two states of a run the frames `fs` of one
text message of a connection are consumed, with control frames in between: what was in its buffer
and what has been read since are their encodings and what is left in the buffer, in which other
frames may follow.  Of them the worker logs the first fragment alone.  Every client is offered one
final text frame for each entry of the log, so that what the sender and the other clients are given
for the message is one message with the payload of the first fragment.  It is the message that was
sent exactly when the other fragments are empty. -/
theorem fragments_relayed (hr : Loop.Reachable Loop.AnyBatch listenfd s)
    (hst : Transition.Reaches Loop.step Loop.AnyBatch s t)
    (hfd : s.worker.websocketHandlerMap fd = some h)
    (hfd' : t.worker.websocketHandlerMap fd' = some h') (hconn : h'.conn = h.conn)
    (hs : h.status = .handsharked)
    (hmsg : reassemble none fs = some [m]) (hop : m.opcode = opText)
    (hlen : ∀ f ∈ fs, f.payload.length ≤ wsMaxPayloadBytes)
    (hnew : inbound (about h.conn t.worker.trace) = inbound (about h.conn s.worker.trace) ++ new)
    (hbytes : h.readBuf ++ new = fs.flatMap WireFrame.encode ++ h'.readBuf) :
    ∃ f δ, withOpcode opText fs = [f] ∧ t.worker.trace = s.worker.trace ++ δ ∧
      (∃ pre post, textLog δ = pre ++ (h.conn, wireContent f) :: post ∧
        ∀ e ∈ pre ++ post, e.1 ≠ h.conn) ∧
      (∀ gd g gd' g', s.worker.websocketHandlerMap gd = some g →
        t.worker.websocketHandlerMap gd' = some g' → g'.conn = g.conn → g.status = .handsharked →
        ∃ given, offeredTexts (about g.conn δ) = given.map WireFrame.encode ∧
          reassemble none given = some ((textLog δ).map fun e => ⟨opText, e.2.payload⟩)) ∧
      (f.payload = m.payload ↔ ∀ f' ∈ withOpcode opContinuation fs, f'.payload = []) := by
  have hwf := Loop.reachable_wellFormed Loop.promises_anyBatch hr
  obtain ⟨δ, hδ⟩ := Loop.trace_prefix Loop.promises_anyBatch hwf hst
  obtain ⟨f, hfirst, hpayload⟩ := fragments_of_reassemble hmsg hop
  refine ⟨f, δ, hfirst, hδ.symm, ?_, ?_, ?_⟩
  · refine split_textLog ?_
    have hf := Loop.follows Loop.promises_anyBatch hr hfd
    have hf' := Loop.follows Loop.promises_anyBatch (Transition.Reaches.trans hr hst) hfd'
    have hs' : h'.status = .handsharked := by
      refine hf'.registered.1 ?_
      rw [show (t.view fd' h').handler.conn = h.conn from hconn, ← hδ]
      exact List.mem_append_left _ (hf.registered.2 hs)
    rw [handledTexts,
      handled_between hr hst hfd hfd' hconn hs hs' hlen hnew hbytes hδ.symm,
      flatMap_textOf_wireContent, hfirst]
    rfl
  · intro gd g gd' g' hg hg' hgconn hgs
    refine ⟨_, offered_between hr hst hg hg' hgconn hgs hδ.symm, ?_⟩
    rw [reassemble_of_final]
    · rw [List.map_map]
      rfl
    · intro wf hwf
      obtain ⟨e, _, rfl⟩ := List.mem_map.1 hwf
      exact ⟨show ¬ 8 ≤ opText.val by decide, show opText ≠ opContinuation by decide, rfl⟩
  · rw [hpayload, List.self_eq_append_right, List.flatMap_eq_nil_iff]

end Runs

/-! ### A message in two fragments -/

/-- "hello" in two fragments, with a Ping in between. -/
def helloFragments : List WireFrame :=
  [⟨false, 0, opText, some sampleKey, ascii "hel"⟩,
    ⟨true, 0, opPing, some #v[5, 6, 7, 8], []⟩,
    ⟨true, 0, opContinuation, some #v[9, 1, 2, 3], ascii "lo"⟩]

/-- One of two clients sends `helloFragments`, which are read in two events. -/
theorem exists_hello_run : ∃ s t, Loop.Reachable Loop.EpollContract 3 s ∧
    Transition.Reaches Loop.step Loop.EpollContract s t ∧
    (s.worker.websocketHandlerMap 5).map (fun h => (h.conn, h.status, h.readBuf)) =
      some (1, .handsharked, []) ∧
    (t.worker.websocketHandlerMap 5).map (fun h => (h.conn, h.readBuf)) = some (1, []) ∧
    inbound (about 1 t.worker.trace) =
      inbound (about 1 s.worker.trace) ++ helloFragments.flatMap WireFrame.encode ∧
    (offeredTexts (about 1 s.worker.trace) = [] ∧ offeredTexts (about 2 s.worker.trace) = []) ∧
    offeredTexts (about 1 t.worker.trace) = [(serverFrame opText (ascii "hel")).encode] ∧
    offeredTexts (about 2 t.worker.trace) = [(serverFrame opText (ascii "hel")).encode] := by
  have hrun : (((Loop.init 3).exec (session [5, 6])).bind fun s =>
      (s.exec (receive 5 ((helloFragments.flatMap WireFrame.encode).take 11) ++
          [.tau, .tau, .tau] ++
        receive 5 ((helloFragments.flatMap WireFrame.encode).drop 11) ++
          [.tau, .tau, .tau])).map fun t =>
        decide ((s.worker.websocketHandlerMap 5).map (fun h => (h.conn, h.status, h.readBuf)) =
            some (1, .handsharked, []) ∧
          (t.worker.websocketHandlerMap 5).map (fun h => (h.conn, h.readBuf)) = some (1, []) ∧
          inbound (about 1 t.worker.trace) =
            inbound (about 1 s.worker.trace) ++ helloFragments.flatMap WireFrame.encode ∧
          (offeredTexts (about 1 s.worker.trace) = [] ∧
            offeredTexts (about 2 s.worker.trace) = []) ∧
          offeredTexts (about 1 t.worker.trace) = [(serverFrame opText (ascii "hel")).encode] ∧
          offeredTexts (about 2 t.worker.trace) = [(serverFrame opText (ascii "hel")).encode])) =
      some true := by
    decide +kernel
  obtain ⟨s, hs, hrun⟩ := Option.bind_eq_some_iff.1 hrun
  obtain ⟨t, ht, hfacts⟩ := Option.map_eq_some_iff.1 hrun
  exact ⟨s, t, Transition.reaches_of_runOk hs, Transition.reaches_of_runOk ht,
    of_decide_eq_true hfacts⟩

/-- What becomes of "hello" when it is read together with the frame before and the frame behind it.
-/
theorem fragments_relayed_hello : ∃ s t h f δ, Loop.Reachable Loop.AnyBatch 3 s ∧
    Transition.Reaches Loop.step Loop.AnyBatch s t ∧ s.worker.websocketHandlerMap 5 = some h ∧
    withOpcode opText helloFragments = [f] ∧ t.worker.trace = s.worker.trace ++ δ ∧
    (∃ pre post, textLog δ = pre ++ (h.conn, wireContent f) :: post ∧
      ∀ e ∈ pre ++ post, e.1 ≠ h.conn) ∧
    (∀ gd g gd' g', s.worker.websocketHandlerMap gd = some g →
      t.worker.websocketHandlerMap gd' = some g' → g'.conn = g.conn → g.status = .handsharked →
      ∃ given, offeredTexts (about g.conn δ) = given.map WireFrame.encode ∧
        reassemble none given = some ((textLog δ).map fun e => ⟨opText, e.2.payload⟩)) ∧
    (f.payload = ascii "hello" ↔
      ∀ f' ∈ withOpcode opContinuation helloFragments, f'.payload = []) := by
  have hrun : (((Loop.init 3).exec (session [5, 6] ++ receive 5 (hiFrame.encode ++
      helloFragments.flatMap WireFrame.encode ++ hiFrame.encode) ++ [.tau])).bind fun s =>
      (s.exec [.tau, .tau, .tau]).map fun t =>
        decide ((s.worker.websocketHandlerMap 5).map (fun h => (h.conn, h.status, h.readBuf)) =
            some (1, .handsharked,
              helloFragments.flatMap WireFrame.encode ++ hiFrame.encode) ∧
          (t.worker.websocketHandlerMap 5).map (fun h => (h.conn, h.readBuf)) =
            some (1, hiFrame.encode) ∧
          inbound (about 1 t.worker.trace) = inbound (about 1 s.worker.trace))) = some true := by
    decide +kernel
  obtain ⟨s, hs, hrun⟩ := Option.bind_eq_some_iff.1 hrun
  obtain ⟨t, ht, hfacts⟩ := Option.map_eq_some_iff.1 hrun
  obtain ⟨hmap, hmap', hbytes⟩ := of_decide_eq_true hfacts
  have hr : Loop.Reachable Loop.EpollContract 3 s := Transition.reaches_of_runOk hs
  have hst : Transition.Reaches Loop.step Loop.EpollContract s t := Transition.reaches_of_runOk ht
  obtain ⟨h, hfd, hh⟩ := Option.map_eq_some_iff.1 hmap
  obtain ⟨h', hfd', hh'⟩ := Option.map_eq_some_iff.1 hmap'
  simp only [Prod.mk.injEq] at hh hh'
  obtain ⟨hc, hstatus, hbefore⟩ := hh
  obtain ⟨hc', hafter⟩ := hh'
  have hst' : Transition.Reaches Loop.step Loop.AnyBatch s t := hst.mono fun _ _ _ => trivial
  have hmsg : reassemble none helloFragments = some [⟨opText, ascii "hello"⟩] := by decide
  obtain ⟨f, δ, hrest⟩ := fragments_relayed (Loop.reachable_anyBatch hr) hst' hfd hfd'
    (hc'.trans hc.symm) hstatus hmsg rfl (by decide)
    (by rw [hc, List.append_nil]; exact hbytes) (by rw [hbefore, hafter, List.append_nil])
  exact ⟨s, t, h, f, δ, Loop.reachable_anyBatch hr, hst', hfd, hrest⟩

/-- **"hello" in two fragments is given to both clients as "hel".** -/
theorem hello_relayed_as_hel : ∃ s t, Loop.Reachable Loop.EpollContract 3 s ∧
    Transition.Reaches Loop.step Loop.EpollContract s t ∧
    reassemble none helloFragments = some [⟨opText, ascii "hello"⟩] ∧
    inbound (about 1 t.worker.trace) =
      inbound (about 1 s.worker.trace) ++ helloFragments.flatMap WireFrame.encode ∧
    (offeredTexts (about 1 s.worker.trace) = [] ∧ offeredTexts (about 2 s.worker.trace) = []) ∧
    offeredTexts (about 1 t.worker.trace) = [(serverFrame opText (ascii "hel")).encode] ∧
    offeredTexts (about 2 t.worker.trace) = [(serverFrame opText (ascii "hel")).encode] ∧
    reassemble none [serverFrame opText (ascii "hel")] ≠ some [⟨opText, ascii "hello"⟩] := by
  obtain ⟨s, t, hr, hst, _, _, hbytes, hnone, h₁, h₂⟩ := exists_hello_run
  exact ⟨s, t, hr, hst, by decide, hbytes, hnone, h₁, h₂, by decide⟩

end WebSocketDemo
