/-
**What the clients say is what the clients hear.**

The worker and its clients are put together.  Upstream the worker handles, of every client, the
frames the client has written, in order and each once.  Downstream a client reads the response to
its own key and then the frames of the one log of the worker; whatever is refused on the way is
missing from what it hears, and nothing else is.

Main definitions:

* `textFrame` — a text frame of the server;
* `System.Attentive` — a client is where the bytes it has read have brought it.

Main results:

* `handled_is_said` — **the worker handles a first part of what every client has said**;
* `received_is_logged` — **every client hears the log of the worker, from its registration on**;
* `quiet_is_delivered` — **what is said is handled, and what is handled is heard, once nothing is on
  the way**.
-/

import WebSocketDemo.Overflow
import WebSocketDemo.ReadBuffer
import WebSocketDemo.Residual
import WebSocketDemo.System

set_option relaxedAutoImplicit false
set_option autoImplicit false

namespace WebSocketDemo

open PrefixDecoder Rfc6455

/-- The bytes of a text frame of the server. -/
def textFrame (payload : Bytes) : Bytes := (serverFrame opText payload).encode

/-! ### Frames of text -/

/-- What the parser makes of a frame of a client. -/
theorem textOf_frame (u : Utterance) : textOf (wireContent u.frame) = [wireContent u.frame] := by
  have htext : (wireContent u.frame).opcode = websocketTextData :=
    show UInt8.ofNat opText.val = websocketTextData by decide
  rw [textOf, if_pos htext]

theorem flatMap_textOf_frame (us : List Utterance) :
    (us.map fun u => wireContent u.frame).flatMap textOf = us.map fun u => wireContent u.frame := by
  induction us with
  | nil => rfl
  | cons u us ih => rw [List.map_cons, List.flatMap_cons, textOf_frame, ih, List.singleton_append]

/-- The log holds text frames only. -/
theorem opcode_of_mem_texts {τ : List Obs} {f : Frame} (hf : f ∈ texts τ) :
    f.opcode = websocketTextData := by
  rw [← map_snd_textLog] at hf
  obtain ⟨e, he, rfl⟩ := List.mem_map.1 hf
  exact opcode_of_mem_textLog he

/-- Its relays. -/
theorem filterMap_relay_log {log : List Frame} (h : ∀ f ∈ log, f.opcode = websocketTextData) :
    log.filterMap relay = (log.map Frame.payload).map textFrame := by
  induction log with
  | nil => rfl
  | cons f log ih =>
      obtain ⟨hf, hlog⟩ := List.forall_mem_cons.1 h
      have hrelay : relay f = some (textFrame f.payload) := if_pos hf
      rw [List.filterMap_cons_some hrelay, ih hlog, List.map_cons, List.map_cons]

/-- A header section is its own first block. -/
theorem headerBlock_message (m : Http.Message) (t : Bytes) :
    headerBlock (m.encode ++ t) = some m.encode := by
  have hfind : Text.find NetworkInterface.crlfCrlf (m.encode ++ t) = some (m.encode.length - 4) :=
    m.find_blank t
  rw [headerBlock, hfind, Option.map_some, Nat.sub_add_cancel m.four_le_length, List.take_left]

namespace System

variable {host : Bytes} {port : ℕ} {listenfd : Fd} {s t : System} {c : ℕ} {a : Action}
  {m : HeaderMap} {rest : Bytes}

/-- The payloads of the log behind the registration of `c`. -/
def log (s : System) (c : ℕ) : List Bytes := (logSince c s.worker.worker.trace).map Frame.payload

/-! ### Upstream -/

/-- What the worker has taken begins with the request. -/
theorem Consistent.received_prefix (h : Consistent host port listenfd s) (c : ℕ) :
    receivedBytes (s.history c) <+: s.written host port c :=
  (Loop.served h.worker c).taken.trans ⟨s.up c, h.up c⟩

/-- What the upgrade of `c` with the headers `m` comes from. -/
structure Greeted (host : Bytes) (port : ℕ) (s : System) (c : ℕ) (m : HeaderMap) : Prop where
  begun : (s.client c).pc ≠ .start
  response : (parseStr m).2 = response101 (ScriptClient.expected (s.client c).key)
  /-- The frame loop is given what stands behind the request. -/
  inbound : ∃ request, s.written host port c =
      request ++ ((s.said c).map Utterance.frame).flatMap WireFrame.encode ∧
    inbound (s.history c) = (receivedBytes (s.history c)).drop request.length

/-- **The request that is answered is the one the client has written.** -/
theorem Consistent.greeted (hhost : IsHost host) (h : Consistent host port listenfd s)
    (hm : Obs.upgraded c m rest ∈ s.history c) : Greeted host port s c m := by
  have hserved := Loop.served h.worker c
  have hadm := hserved.admitted m rest hm
  obtain ⟨block, hblock, hfetch⟩ := hadm.headers
  obtain ⟨b, hb⟩ := h.received_prefix c
  have hwhole : headerBlock (receivedBytes (s.history c) ++ b) = some block :=
    headerBlock_append hblock b
  rw [hb] at hwhole
  have hne : (s.client c).pc ≠ .start := by
    intro he
    rw [written, if_pos he] at hwhole
    cases hwhole
  obtain ⟨nonce, hkey⟩ := h.key c hne
  have hframes : ((s.said c).flatMap fun u => ScriptClient.buildTextFrame u.mask u.payload) =
      ((s.said c).map Utterance.frame).flatMap WireFrame.encode := by
    rw [List.flatMap_map]
    exact List.flatMap_congr fun u _ => ScriptClient.buildTextFrame_eq_encode u.mask u.payload
  have hwritten : s.written host port c = (clientRequest hhost port nonce.toList).encode ++
      ((s.said c).map Utterance.frame).flatMap WireFrame.encode := by
    rw [written, if_neg hne, hframes, hkey, encode_clientRequest]
  rw [hwritten, headerBlock_message, Option.some.injEq] at hwhole
  subst hwhole
  obtain ⟨headerMap, hfetch', hresponse⟩ :=
    answer_request hhost port nonce.toList Vector.length_toList
  rw [hfetch, Prod.mk.injEq] at hfetch'
  exact ⟨hne, by rw [hfetch'.2, hresponse, hkey], _, hwritten, hadm.inbound hserved.once hblock⟩

/-- The frames that stand behind the request are those the client has sent. -/
theorem Consistent.inbound_prefix (hhost : IsHost host) (h : Consistent host port listenfd s)
    (hm : Obs.upgraded c m rest ∈ s.history c) :
    inbound (s.history c) <+: ((s.said c).map Utterance.frame).flatMap WireFrame.encode := by
  obtain ⟨request, hwritten, hinbound⟩ := (h.greeted hhost hm).inbound
  have hpre := (h.received_prefix c).drop request.length
  rwa [hwritten, List.drop_left, ← hinbound] at hpre

theorem Consistent.short_frames (h : Consistent host port listenfd s) (c : ℕ) :
    ∀ f ∈ (s.said c).map Utterance.frame, f.payload.length ≤ wsMaxPayloadBytes := by
  intro f hf
  obtain ⟨u, hu, rfl⟩ := List.mem_map.1 hf
  exact (h.short c u hu).trans (by decide)

/-- **The frames handled are those at the front of what the client has sent.** -/
theorem Consistent.handled (hhost : IsHost host) (h : Consistent host port listenfd s) (c : ℕ) :
    ∃ us, us <+: s.said c ∧ handledFrames (s.history c) = us.map fun u => wireContent u.frame := by
  have hserved := Loop.served h.worker c
  by_cases hup : ∃ m rest, Obs.upgraded c m rest ∈ s.history c
  · obtain ⟨m, rest, hm⟩ := hup
    obtain ⟨readBuf, hdecodes⟩ := hserved.frames
    obtain ⟨ws, vs, hsplit, hhandled, _⟩ :=
      hdecodes.of_prefix (next_of_mem (h.short_frames c)) (h.inbound_prefix hhost hm)
    obtain ⟨us, us', hus, rfl, rfl⟩ := List.map_eq_append_iff.1 hsplit
    exact ⟨us, ⟨us', hus.symm⟩, by rw [history, hhandled, List.map_map]; rfl⟩
  · refine ⟨[], List.nil_prefix, (hserved.outside fun m rest hm => hup ⟨m, rest, hm⟩).2⟩

/-- The texts handled, all of them. -/
theorem Consistent.handledTexts (hhost : IsHost host) (h : Consistent host port listenfd s)
    (c : ℕ) :
    ∃ us, us <+: s.said c ∧ (handledTexts (s.history c)).map Frame.payload =
      us.map Utterance.payload := by
  obtain ⟨us, hus, hhandled⟩ := h.handled hhost c
  refine ⟨us, hus, ?_⟩
  rw [WebSocketDemo.handledTexts, hhandled, flatMap_textOf_frame, List.map_map]
  rfl

/-- **Whatever is logged has been said.** -/
theorem Consistent.logged_said (hhost : IsHost host) (h : Consistent host port listenfd s)
    {f : Frame}
    (hf : f ∈ texts s.worker.worker.trace) : ∃ d, ∃ u ∈ s.said d, u.payload = f.payload := by
  rw [← map_snd_textLog] at hf
  obtain ⟨e, he, rfl⟩ := List.mem_map.1 hf
  have hsender : e ∈ (textLog s.worker.worker.trace).filter fun e' => decide (e'.1 = e.1) :=
    List.mem_filter.2 ⟨he, decide_eq_true rfl⟩
  rw [filter_textLog] at hsender
  obtain ⟨f, hf, hef⟩ := List.mem_map.1 hsender
  obtain ⟨us, hus, htexts⟩ := h.handledTexts hhost e.1
  have hmem : f.payload ∈ us.map Utterance.payload := by
    rw [← htexts]
    exact List.mem_map_of_mem hf
  obtain ⟨u, hu, hpayload⟩ := List.mem_map.1 hmem
  exact ⟨e.1, u, hus.subset hu, by rw [hpayload, ← hef]⟩

/-! ### Downstream -/

/-- The payloads of the log are short. -/
theorem Consistent.log_short (hhost : IsHost host) (h : Consistent host port listenfd s) :
    ∀ p ∈ s.log c, p.length < 2 ^ 64 := by
  intro p hp
  obtain ⟨f, hf, rfl⟩ := List.mem_map.1 hp
  obtain ⟨d, u, hu, hpayload⟩ := h.logged_said hhost (logSince_suffix.subset hf)
  have hshort := h.short d u hu
  rw [hpayload, ScriptClient.maxPayload] at hshort
  omega

/-- The relays of the log behind a registration. -/
theorem filterMap_relay (s : System) (c : ℕ) :
    (logSince c s.worker.worker.trace).filterMap relay = (s.log c).map textFrame :=
  filterMap_relay_log fun _ hf => opcode_of_mem_texts (logSince_suffix.subset hf)

/-- **What a client is offered**: the response to its key, and then text frames. -/
theorem Consistent.offers (hhost : IsHost host) (h : Consistent host port listenfd s)
    (hm : Obs.upgraded c m rest ∈ s.history c) : ∃ os,
    offers (s.history c) =
      ⟨response101 (ScriptClient.expected (s.client c).key), true, true⟩ :: os ∧
    os.map Offer.data = offeredTexts (s.history c) := by
  have hserved := Loop.served h.worker c
  obtain ⟨os, hoffers, hjust⟩ := hserved.inside m rest hm
  refine ⟨os, by rw [history, hoffers, (h.greeted hhost hm).response], ?_⟩
  -- the client has sent no Ping, so that it is offered text frames only
  have htext : ∀ d ∈ os.map Offer.data, isText d = true := by
    intro d hd
    obtain ⟨o, ho, rfl⟩ := List.mem_map.1 hd
    obtain ⟨wf, hdata, hfin, hrsv, hkey, _, hop⟩ := (hjust o ho).exists_frame
    have hframe : wf = serverFrame wf.opcode wf.payload := by
      obtain ⟨fin, rsv, opcode, key, payload⟩ := wf
      simp only at hfin hrsv hkey
      rw [hfin, hrsv, hkey, serverFrame]
    rcases hop with hop | ⟨_, f, hf, hping, _⟩
    · rw [hdata, hframe, isText_serverFrame, hop]
      decide
    · obtain ⟨us, _, hhandled⟩ := h.handled hhost c
      rw [← history, hhandled] at hf
      obtain ⟨u, _, rfl⟩ := List.mem_map.1 hf
      exact absurd hping (show UInt8.ofNat opText.val ≠ websocketPingPack by decide)
  rw [offeredTexts, history, hoffers, List.map_cons,
    List.filter_cons_of_neg (by simp [isText_parseStr]), List.filter_eq_self.2 htext]

/-- **What a client has been sent**: a first part of the response and of the entries of the log that
were not refused. -/
theorem Consistent.sent (hhost : IsHost host) (h : Consistent host port listenfd s) (c : ℕ) :
    ∃ ps, ps.Sublist (s.log c) ∧
      ((∀ o ∈ WebSocketDemo.offers (s.history c), o.taken = true) → ps <+: s.log c) ∧
      sentBytes (s.history c) <+:
        response101 (ScriptClient.expected (s.client c).key) ++ ps.flatMap textFrame := by
  have hserved := Loop.served h.worker c
  by_cases hup : ∃ m rest, Obs.upgraded c m rest ∈ s.history c
  · obtain ⟨m, rest, hm⟩ := hup
    obtain ⟨os, hoffers, hdata⟩ := h.offers hhost hm
    have hlog : os.map Offer.data <+: (s.log c).map textFrame := by
      rw [hdata, ← filterMap_relay]
      exact hserved.texts
    have hsent : sentBytes (s.history c) <+:
        response101 (ScriptClient.expected (s.client c).key) ++ (takenData os).flatten := by
      have hsent := hserved.sent
      rw [← history, hoffers] at hsent
      exact hsent
    by_cases hall : ∀ o ∈ WebSocketDemo.offers (s.history c), o.taken = true
    · -- nothing is missing
      rw [hoffers] at hall
      have htaken := takenData_of_taken fun o ho => hall o (List.mem_cons_of_mem _ ho)
      obtain ⟨ps, hps, heq⟩ := List.prefix_map_iff.1 hlog
      rw [htaken, heq, ← List.flatMap_def] at hsent
      exact ⟨ps, hps.sublist, fun _ => hps, hsent⟩
    · have hsub : (takenData os).Sublist ((s.log c).map textFrame) :=
        ((List.filter_sublist).map Offer.data).trans hlog.sublist
      obtain ⟨ps, hps, heq⟩ := List.sublist_map_iff.1 hsub
      rw [heq, ← List.flatMap_def] at hsent
      exact ⟨ps, hps, fun h => absurd h hall, hsent⟩
  · refine ⟨[], List.nil_sublist _, fun _ => List.nil_prefix, ?_⟩
    have hsent := hserved.sent
    rw [(hserved.outside fun m rest hm => hup ⟨m, rest, hm⟩).1] at hsent
    rw [history, List.prefix_nil.1 hsent]
    exact List.nil_prefix

/-! ### The clients -/

/-- The client `c` is where the bytes it has read have brought it, one at a time, or has found its
connection closed there. -/
def Attends (s : System) (c : ℕ) (nonce : Vector UInt8 16) : Prop :=
  s.client c = (ScriptClient.new nonce.toList).connect.feed (s.heard c) ∨
    s.Closed c ∧ s.client c = ((ScriptClient.new nonce.toList).connect.feed (s.heard c)).raise

/-- So is every client that has begun. -/
def Attentive (s : System) : Prop :=
  ∀ c, (s.client c).pc ≠ .start → ∃ nonce : Vector UInt8 16, s.Attends c nonce

section Attends

variable {nonce : Vector UInt8 16}

theorem Attends.key (h : s.Attends c nonce) : (s.client c).key = Rfc4648.encode nonce.toList := by
  have hbegun := ScriptClient.connect_begun (ScriptClient.new nonce.toList)
  have hkey := (ScriptClient.key_feed (b := s.heard c) hbegun).1
  rcases h with h | ⟨_, h⟩
  · rw [h]
    exact hkey
  · rw [h, ScriptClient.raise_key]
    exact hkey

/-- A client that has found its connection closed keeps what it has received. -/
theorem Attends.received (h : s.Attends c nonce) : (s.client c).received =
    ((ScriptClient.new nonce.toList).connect.feed (s.heard c)).received := by
  rcases h with h | ⟨_, h⟩
  · rw [h]
  · rw [h, ScriptClient.raise_received]

/-- A client that goes on has not found its connection closed. -/
theorem Attends.of_not_raised (h : s.Attends c nonce) (hpc : (s.client c).pc ≠ .raised) :
    s.client c = (ScriptClient.new nonce.toList).connect.feed (s.heard c) := by
  refine h.resolve_right fun hend => hpc ?_
  rw [hend.2, ScriptClient.raise_pc]

theorem Attends.of_open (h : s.Attends c nonce) (hopen : ¬ s.Closed c) :
    s.client c = (ScriptClient.new nonce.toList).connect.feed (s.heard c) :=
  h.resolve_right fun hend => hopen hend.1

/-- Nothing changes for a client that takes no step. -/
theorem Attends.mono (h : s.Attends c nonce) (hclient : t.client c = s.client c)
    (hheard : t.heard c = s.heard c) (hclosed : s.Closed c → t.Closed c) : t.Attends c nonce := by
  rw [Attends, hclient, hheard]
  exact h.imp_right fun hend => ⟨hclosed hend.1, hend.2⟩

end Attends

/-- A client finds its connection closed. -/
theorem Attentive.raise (ha : s.Attentive) (hclosed : s.Closed c) (hasks : 0 < (s.client c).asks) :
    (s.raise c).Attentive := by
  intro d hd
  by_cases hdc : d = c
  · subst hdc
    obtain ⟨nonce, hattends⟩ := ha d (begun_of_asks hasks)
    refine ⟨nonce, Or.inr ⟨hclosed, ?_⟩⟩
    rw [raise_client_self, hattends.of_not_raised (not_raised_of_asks hasks)]
    rfl
  · rw [raise_client_of_ne hdc] at hd
    obtain ⟨nonce, hattends⟩ := ha d hd
    exact ⟨nonce, hattends.mono (raise_client_of_ne hdc) rfl id⟩

/-- **Where nothing is read behind the header section, the grouping of the bytes makes no
difference.** -/
theorem Attentive.step (hhost : IsHost host) (h : Consistent host port listenfd s)
    (ha : s.Attentive)
    (hsurplus : s.NoSurplus a) (hs : s.step host port a = some t) : t.Attentive := by
  cases a with
  | worker i =>
      have hwf := Loop.reachable_wellFormed Loop.promises_epollContract h.worker
      obtain ⟨hw, hclient, _, hheard, _, _⟩ := workerStep_moves hwf hs
      have hgrows := Loop.step_keeps_trace hwf hw
      intro c hc
      rw [hclient] at hc
      obtain ⟨nonce, hattends⟩ := ha c hc
      exact ⟨nonce, hattends.mono (by rw [hclient]) (by rw [hheard]) fun hcl => hcl.mono hgrows⟩
  | handshake c nonce =>
      simp only [System.step] at hs
      split_ifs at hs with hc
      obtain rfl := Option.some.inj hs
      intro d hd
      dsimp only at hd
      by_cases hdc : d = c
      · subst hdc
        refine ⟨nonce, Or.inl ?_⟩
        dsimp only
        rw [Function.update_self, (h.start d hc.2).2.2]
        rfl
      · rw [Function.update_of_ne hdc] at hd
        obtain ⟨nonce', hattends⟩ := ha d hd
        exact ⟨nonce', hattends.mono (Function.update_of_ne hdc _ _) rfl id⟩
  | sendTextBytes c u =>
      simp only [System.step] at hs
      split_ifs at hs with hopen
      obtain rfl := Option.some.inj hs
      exact ha
  | read c n =>
      simp only [System.step] at hs
      split_ifs at hs with hn
      obtain rfl := Option.some.inj hs
      obtain ⟨hpos, hasks, hlen⟩ := hn
      intro d hd
      dsimp only at hd
      by_cases hdc : d = c
      · subst hdc
        have hwaits : 0 < (s.client d).asks := hpos.trans_le hasks
        have hne := begun_of_asks hwaits
        obtain ⟨nonce, hattends⟩ := ha d hne
        refine ⟨nonce, Or.inl ?_⟩
        have hlength : ((s.down d).take n).length = n := List.length_take_of_le hlen
        have hchunk : (s.down d).take n ≠ [] :=
          List.ne_nil_of_length_pos (by rw [hlength]; exact hpos)
        have hpc' := not_raised_of_asks hwaits
        have hclient := hattends.of_not_raised hpc'
        dsimp only
        rw [Function.update_self, Function.update_self, ScriptClient.feed_append, ← hclient]
        cases hpc : (s.client d).pc with
        | start => exact absurd hpc hne
        | raised => exact absurd hpc hpc'
        | exact m await buf =>
            simp only [ScriptClient.asks, hpc] at hasks
            exact ScriptClient.resume_eq_feed hpc hchunk (by rw [hlength]; omega)
        | headers buf =>
            have hbuf : buf = s.heard d := by
              rw [hclient] at hpc
              exact ScriptClient.headers_feed rfl hpc
            simp only [NoSurplus, hpc] at hsurplus
            refine ScriptClient.resume_headers hpc hchunk ?_ hsurplus
            -- what has been read is not longer than the response
            by_contra hlong
            obtain ⟨ps, _, _, hsent⟩ := h.sent hhost d
            have hread : buf ++ (s.down d).take n <+: sentBytes (s.history d) := by
              rw [hbuf, h.down d]
              exact (List.prefix_append_right_inj _).2 (List.take_prefix _ _)
            have hresponse := ScriptClient.length_response (s.client d).key
            refine hsurplus ((ScriptClient.blank_response (s.client d).key).trans ?_)
            refine (List.prefix_of_prefix_length_le (List.prefix_append _ _)
              ((List.dropLast_prefix _).trans (hread.trans hsent)) ?_).isInfix
            rw [hresponse, List.length_dropLast]
            omega
      · rw [Function.update_of_ne hdc] at hd
        obtain ⟨nonce, hattends⟩ := ha d hd
        exact ⟨nonce, hattends.mono (Function.update_of_ne hdc _ _)
          (Function.update_of_ne hdc _ _) id⟩
  | readEof c =>
      obtain ⟨hclosed, hasks, rfl⟩ := step_ends (Or.inl rfl) hs
      exact ha.raise hclosed hasks
  | connectionLost c =>
      obtain ⟨hclosed, hasks, rfl⟩ := step_ends (Or.inr rfl) hs
      exact ha.raise hclosed hasks

/-- What the scripts and the system calls promise, and that no client reads behind the header
section with it. -/
def Punctual (s : System) (a : Action) : Prop := s.Contract a ∧ s.NoSurplus a

instance (s : System) (a : Action) : Decidable (s.Punctual a) :=
  inferInstanceAs (Decidable (s.Contract a ∧ s.NoSurplus a))

theorem attentive (hhost : IsHost host) (hr : Reachable Punctual host port listenfd s) :
    Consistent host port listenfd s ∧ s.Attentive := by
  have hstep : ∀ t a u, Consistent host port listenfd t ∧ t.Attentive → t.Punctual a →
      t.step host port a = some u → Consistent host port listenfd u ∧ u.Attentive := by
    rintro t a u ⟨hc, ha⟩ ⟨hok, hsurplus⟩ hs
    exact ⟨hc.step hok hs, ha.step hhost hc hsurplus hs⟩
  exact hr.invariant (P := fun s => Consistent host port listenfd s ∧ s.Attentive)
    ⟨consistent Transition.Reaches.refl, fun c hne => absurd rfl hne⟩ hstep

/-- **What a client has heard**: a first part of the entries it has been sent.  It raises an
exception only when its connection has been closed. -/
theorem Consistent.session (hhost : IsHost host) (h : Consistent host port listenfd s)
    (ha : s.Attentive) (c : ℕ) : ∃ ps, ((s.client c).pc = .raised → s.Closed c) ∧
      (s.client c).received <+: ps ∧ ps.Sublist (s.log c) ∧
      ((∀ o ∈ WebSocketDemo.offers (s.history c), o.taken = true) → ps <+: s.log c) := by
  by_cases hpc : (s.client c).pc = .start
  · refine ⟨[], fun he => ?_, ?_, List.nil_sublist _, fun _ => List.nil_prefix⟩
    · rw [hpc] at he
      cases he
    · rw [(h.start c hpc).1]
      exact List.prefix_rfl
  · obtain ⟨ps, hps, hall, hsent⟩ := h.sent hhost c
    obtain ⟨nonce, hattends⟩ := ha c hpc
    have hheard : s.heard c <+: response101 (ScriptClient.expected (Rfc4648.encode nonce.toList)) ++
        ps.flatMap textFrame := by
      rw [h.down c, hattends.key] at hsent
      exact (List.prefix_append _ _).trans hsent
    obtain ⟨hraised, hreceived⟩ := ScriptClient.feed_session_front
      (c := (ScriptClient.new nonce.toList).connect) rfl
      (fun p hp => h.log_short hhost p (hps.subset hp)) hheard
    refine ⟨ps, fun he => ?_, ?_, hps, hall⟩
    · by_contra hopen
      rw [hattends.of_open hopen] at he
      exact hraised he
    · rw [hattends.received]
      exact hreceived

/-! ### At rest -/

section Rest

variable {fd : Fd} {h : WebsocketHandler}

/-- A client raises an exception only when its connection has been closed, and what it has received
is in the log, and has been said. -/
theorem Consistent.received_said (hhost : IsHost host) (h : Consistent host port listenfd s)
    (ha : s.Attentive) (c : ℕ) : ((s.client c).pc = .raised → s.Closed c) ∧
      (s.client c).received.Sublist (s.log c) ∧ ∀ p ∈ (s.client c).received, ∃ d, ∃ u ∈ s.said d,
        u.payload = p := by
  obtain ⟨ps, hraised, hreceived, hps, _⟩ := h.session hhost ha c
  refine ⟨hraised, hreceived.sublist.trans hps, fun p hp => ?_⟩
  obtain ⟨f, hf, rfl⟩ := List.mem_map.1 (hps.subset (hreceived.subset hp))
  exact h.logged_said hhost (logSince_suffix.subset hf)

/-- Where the worker waits, no connection is about to be closed. -/
theorem Consistent.not_pending (hc : Consistent host port listenfd s)
    (hwait : s.worker.pc = .waiting) : (s.worker.view fd h).pending = false := by
  have hwf := Loop.reachable_wellFormed Loop.promises_epollContract hc.worker
  simp [Loop.view, hwf.waiting hwait]

/-- **All that has arrived is handled.** -/
theorem Consistent.all_handled (hhost : IsHost host) (hc : Consistent host port listenfd s)
    (hwait : s.worker.pc = .waiting) (hfd : s.worker.worker.websocketHandlerMap fd = some h)
    (hs : h.status = .handsharked) (hquiet : s.up h.conn = []) :
    (WebSocketDemo.handledTexts (s.history h.conn)).map Frame.payload =
      (s.said h.conn).map Utterance.payload := by
  have hkept := Loop.kept hc.worker hfd
  have hopen : ¬ Ending (s.worker.view fd h) := by
    intro he
    have hpending := he.pending
    rw [hc.not_pending hwait] at hpending
    cases hpending
  have hidle : (s.worker.view fd h).phase = .idle := by simp [Loop.view, hwait, Pc.phase]
  obtain ⟨m, os, hup, ⟨rest, hm'⟩, _⟩ := hkept.account.handsharked hs
  have hm : Obs.upgraded h.conn m rest ∈ s.history h.conn := hm'
  have hgreeted := hc.greeted hhost hm
  -- all that was written has been taken, and no frame is left in the buffer
  have hread : receivedBytes (s.history h.conn) = s.written host port h.conn := by
    have hall := hkept.refusals.all.resolve_right hopen
    have hwritten := hc.up h.conn
    rw [hquiet, List.append_nil] at hwritten
    exact hall.trans hwritten
  obtain ⟨request, hwritten, hinbound⟩ := hgreeted.inbound
  rw [hread, hwritten, List.drop_left] at hinbound
  have hstuck := ((settled hc.worker hfd).idle hs hidle).resolve_right hopen
  have hitems := Decoder.items_of_decodes hup.inbound hstuck
  change frameDecoder.items (inbound (s.history h.conn)) = handledFrames (s.history h.conn)
    at hitems
  rw [hinbound, Decoder.items_of_decodes
    (Decoder.decodes_flatMap (next_of_mem (hc.short_frames h.conn))) Decoder.stuck_nil,
    List.map_map] at hitems
  have hframes : handledFrames (s.history h.conn) =
      (s.said h.conn).map fun u => wireContent u.frame := hitems.symm
  rw [WebSocketDemo.handledTexts, hframes, flatMap_textOf_frame, List.map_map]
  rfl

/-- **All that is logged has been heard.** -/
theorem Consistent.all_heard (hhost : IsHost host) (hc : Consistent host port listenfd s)
    (ha : s.Attentive) (hwait : s.worker.pc = .waiting)
    (hfd : s.worker.worker.websocketHandlerMap fd = some h) (hs : h.status = .handsharked)
    (hempty : h.writeBuf = []) (hquiet : s.down h.conn = []) :
    (s.client h.conn).received = s.log h.conn := by
  have hkept := Loop.kept hc.worker hfd
  obtain ⟨m, os, hup, ⟨rest, hm'⟩, _⟩ := hkept.account.handsharked hs
  have hm : Obs.upgraded h.conn m rest ∈ s.history h.conn := hm'
  have hgreeted := hc.greeted hhost hm
  -- nothing was refused, or the connection would be closed
  have hall : ∀ o ∈ WebSocketDemo.offers (s.history h.conn), o.taken = true := by
    intro o ho
    by_contra hno
    have hpend := refusedQueued Loop.promises_epollContract hc.worker hfd
      ⟨o, ho, Bool.eq_false_of_not_eq_true hno⟩
    rw [hc.not_pending hwait] at hpend
    cases hpend
  obtain ⟨os', hoffers, hdata⟩ := hc.offers hhost hm
  have htexts : os'.map Offer.data = (s.log h.conn).map textFrame := by
    refine hdata.trans ?_
    rw [← System.filterMap_relay]
    exact (Loop.follows Loop.promises_epollContract hc.worker hfd).texts
  have hheard : s.heard h.conn =
      response101 (ScriptClient.expected (s.client h.conn).key) ++
        (s.log h.conn).flatMap textFrame := by
    have hsent := hc.down h.conn
    have hstream : sentBytes (s.history h.conn) ++ h.writeBuf =
        (takenData (WebSocketDemo.offers (s.history h.conn))).flatten := hkept.account.stream
    rw [hquiet, List.append_nil] at hsent
    rw [hempty, List.append_nil, takenData_of_taken hall, hoffers, List.map_cons, htexts,
      List.flatten_cons, ← List.flatMap_def] at hstream
    exact hsent.symm.trans hstream
  obtain ⟨nonce, hattends⟩ := ha h.conn hgreeted.begun
  rw [hattends.received, hheard, hattends.key]
  exact congrArg ScriptClient.received
    (ScriptClient.feed_session (c := (ScriptClient.new nonce.toList).connect) rfl
      (hc.log_short hhost))

end Rest

/-! ### A conversation to exhibit runs with -/

/-- The client `c` reads all that is on the way to it, and takes it for the answer. -/
def greet (s : System) (c : ℕ) : System :=
  { s with
    client := Function.update s.client c
      { s.client c with headers := s.down c, pc := .exact 2 .hdr [] }
    down := Function.update s.down c []
    heard := Function.update s.heard c (s.heard c ++ s.down c) }

/-- A client reads the answer in one piece. -/
theorem reaches_greet (hhost : IsHost host) (hr : Reachable Punctual host port listenfd s)
    (hpc : (s.client c).pc = .headers []) (hheard : s.heard c = [])
    (hlen : (s.down c).length = 129) :
    Reachable Punctual host port listenfd (s.greet c) := by
  have hresponse := ScriptClient.length_response (s.client c).key
  have hdown : s.down c = response101 (ScriptClient.expected (s.client c).key) := by
    have h := (attentive hhost hr).1
    obtain ⟨ps, _, _, hsent⟩ := h.sent hhost c
    rw [h.down c, hheard, List.nil_append] at hsent
    exact (List.prefix_of_prefix_length_le hsent (List.prefix_append _ _)
      (by rw [hlen, hresponse])).eq_of_length (by rw [hlen, hresponse])
  have htake : (s.down c).take 129 = s.down c :=
    List.take_of_length_le (by rw [hdown, hresponse])
  have hno : ¬ Http.crlf ++ Http.crlf <:+: ([] ++ s.down c).dropLast := by
    rw [List.nil_append, hdown]
    exact ScriptClient.not_blank_dropLast _
  have hresume : (s.client c).resume (s.down c) =
      { s.client c with headers := s.down c, pc := .exact 2 .hdr [] } := by
    rw [ScriptClient.resume_headers hpc (b := s.down c) ?_ ?_ hno, hdown,
      ScriptClient.feed_response hpc]
    · exact List.ne_nil_of_length_pos (by rw [hdown, hresponse]; decide)
    · rw [List.nil_append, hdown, hresponse]
      decide
  have hsurplus : s.NoSurplus (.read c 129) := by
    simp only [NoSurplus, hpc, htake]
    exact hno
  refine Transition.Reaches.tail (.read c 129) hr ⟨trivial, hsurplus⟩ ?_
  have hready : 0 < 129 ∧ 129 ≤ (s.client c).asks ∧ 129 ≤ (s.down c).length := by
    rw [hdown, hresponse, ScriptClient.asks, hpc]
    decide
  simp only [step, if_pos hready, htake, hresume]
  rw [List.drop_eq_nil_of_le (by rw [hdown, hresponse])]
  rfl

end System

/-- The server listens here. -/
def localhost : Bytes := ascii "127.0.0.1"

theorem isHost_localhost : IsHost localhost := by decide

/-- Random bytes for a key. -/
def sampleNonce : Vector UInt8 16 := #v[0, 1, 2, 3, 4, 5, 6, 7, 8, 9, 10, 11, 12, 13, 14, 15]

/-- An `EPOLLOUT` event of the client on `fd` in which one `send` accepts `n` bytes, the last ones.
-/
def flush (fd : Fd) (n : ℕ) : List Input := [.epollWait [⟨fd, epollOut⟩], .tau, .send n, .tau, .tau]

/-- Two clients are accepted, on 5 and 6; their requests are answered. -/
def opening : List Action :=
  let request := ScriptClient.request localhost 9000 (Rfc4648.encode sampleNonce.toList)
  [.handshake 1 sampleNonce, .handshake 2 sampleNonce] ++
    ([.epollWait [⟨3, epollIn⟩], .tau, .accept 5, .accept 6, .acceptFail, .tau] ++
      receive 5 request ++ [.tau, .tau] ++ flush 5 129 ++
      receive 6 request ++ [.tau, .tau] ++ flush 6 129 : List Input).map Action.worker

/-- The first one says "hi", and both hear it. -/
def conversation : List Action :=
  [.sendTextBytes 1 ⟨sampleKey, ascii "hi"⟩] ++
    (receive 5 hiFrame.encode ++ [.tau, .tau, .tau] ++ flush 5 4 ++ flush 6 4 : List Input).map
      Action.worker ++
    [.read 1 1, .read 1 1, .read 1 2, .read 2 2, .read 2 2]

/-- The second one's connection breaks down, and it reads the end of the stream. -/
def ending : List Action :=
  ([.epollWait [⟨6, epollHup⟩], .tau, .tau] : List Input).map Action.worker ++ [.readEof 2]

/-- **What comes after the opening.** -/
theorem exists_after_opening (as : List Action) (P : System → Prop) [DecidablePred P]
    (hrun : ((Transition.runOk (System.step localhost 9000) System.Punctual (System.init 3)
      opening).bind fun s => (Transition.runOk (System.step localhost 9000) System.Punctual
        ((s.greet 1).greet 2) as).map fun t => decide (((s.client 1).pc = .headers [] ∧
          s.heard 1 = [] ∧ (s.down 1).length = 129) ∧ (((s.greet 1).client 2).pc = .headers [] ∧
          (s.greet 1).heard 2 = [] ∧ ((s.greet 1).down 2).length = 129) ∧ P t)) = some true) :
    ∃ s, System.Reachable System.Punctual localhost 9000 3 s ∧ P s := by
  obtain ⟨s, hs, hrun⟩ := Option.bind_eq_some_iff.1 hrun
  obtain ⟨t, ht, hfacts⟩ := Option.map_eq_some_iff.1 hrun
  obtain ⟨⟨hpc₁, hheard₁, hlen₁⟩, ⟨hpc₂, hheard₂, hlen₂⟩, hP⟩ := of_decide_eq_true hfacts
  have hr₁ := System.reaches_greet isHost_localhost
    (Transition.reaches_of_runOk hs) hpc₁ hheard₁ hlen₁
  have hr₂ := System.reaches_greet isHost_localhost hr₁ hpc₂ hheard₂ hlen₂
  exact ⟨t, hr₂.trans (Transition.reaches_of_runOk ht), hP⟩

/-- **A conversation.** -/
theorem exists_conversation : ∃ s, System.Reachable System.Punctual localhost 9000 3 s ∧
    s.worker.pc = .waiting ∧
    (s.worker.worker.websocketHandlerMap 6).map (fun h => (h.conn, h.status, h.writeBuf)) =
      some (2, .handsharked, []) ∧
    (handledTexts (s.history 1)).map Frame.payload = [ascii "hi"] ∧
    s.up 2 = [] ∧ s.down 2 = [] ∧ (s.client 2).received = [ascii "hi"] :=
  exists_after_opening conversation (fun s => s.worker.pc = .waiting ∧
    (s.worker.worker.websocketHandlerMap 6).map (fun h => (h.conn, h.status, h.writeBuf)) =
      some (2, .handsharked, []) ∧
    (handledTexts (s.history 1)).map Frame.payload = [ascii "hi"] ∧
    s.up 2 = [] ∧ s.down 2 = [] ∧ (s.client 2).received = [ascii "hi"]) (by decide +kernel)

/-- A conversation that ends for one of the two. -/
theorem exists_ending : ∃ s, System.Reachable System.Punctual localhost 9000 3 s ∧
    (s.client 2).pc = .raised ∧ (s.client 2).received = [ascii "hi"] ∧
    ∀ o ∈ offers (s.history 2), o.taken = true :=
  exists_after_opening (conversation ++ ending) (fun s => (s.client 2).pc = .raised ∧
    (s.client 2).received = [ascii "hi"] ∧ ∀ o ∈ offers (s.history 2), o.taken = true)
    (by decide +kernel)

/-- **The worker handles what its clients say**: in every run, whatever is read when and in whatever
pieces, the texts handled of a client are those at the front of what it has sent, in order, each
once. -/
theorem handled_is_said {host : Bytes} {port : ℕ} {listenfd : Fd} {s : System} (hhost : IsHost host)
    (hr : System.Reachable System.Contract host port listenfd s) (c : ℕ) :
    (handledTexts (s.history c)).map Frame.payload <+: (s.said c).map Utterance.payload := by
  obtain ⟨us, hus, htexts⟩ := (System.consistent hr).handledTexts hhost c
  rw [htexts]
  exact hus.map _

/-- What the first client has said is handled. -/
theorem handled_is_said_conversation : ∃ s, System.Reachable System.Contract localhost 9000 3 s ∧
    (handledTexts (s.history 1)).map Frame.payload = [ascii "hi"] ∧
    [ascii "hi"] <+: (s.said 1).map Utterance.payload := by
  obtain ⟨s, hr, _, _, hhandled, _⟩ := exists_conversation
  have hcontract : System.Reachable System.Contract localhost 9000 3 s :=
    hr.mono fun _ _ hok => hok.1
  refine ⟨s, hcontract, hhandled, ?_⟩
  rw [← hhandled]
  exact handled_is_said isHost_localhost hcontract 1

/-- **The clients hear one log.**  In every run in which no client reads behind the header section
with it, a client raises an exception only when the worker has closed its connection, whatever it
has received are entries of the log behind its registration, in log order, and all of them have been
said; it is a first part of that log when nothing was refused. -/
theorem received_is_logged {host : Bytes} {port : ℕ} {listenfd : Fd} {s : System}
    (hhost : IsHost host) (hr : System.Reachable System.Punctual host port listenfd s) (c : ℕ) :
    ((s.client c).pc = .raised → s.Closed c) ∧ (s.client c).received.Sublist (s.log c) ∧
      (∀ p ∈ (s.client c).received, ∃ d, ∃ u ∈ s.said d, u.payload = p) ∧
      ((∀ o ∈ offers (s.history c), o.taken = true) → (s.client c).received <+: s.log c) := by
  obtain ⟨h, ha⟩ := System.attentive hhost hr
  obtain ⟨hraised, hsub, hsaid⟩ := h.received_said hhost ha c
  obtain ⟨ps, _, hreceived, _, hall⟩ := h.session hhost ha c
  exact ⟨hraised, hsub, hsaid, fun hno => hreceived.trans (hall hno)⟩

/-- The second client has heard "hi" before its connection was closed. -/
theorem received_is_logged_conversation : ∃ s, System.Reachable System.Punctual localhost 9000 3 s ∧
    (s.client 2).pc = .raised ∧ s.Closed 2 ∧ (s.client 2).received = [ascii "hi"] ∧
    [ascii "hi"] <+: s.log 2 ∧ ∃ d, ∃ u ∈ s.said d, u.payload = ascii "hi" := by
  obtain ⟨s, hr, hraised, hreceived, htaken⟩ := exists_ending
  obtain ⟨hclosed, _, hsaid, hpre⟩ := received_is_logged isHost_localhost hr 2
  rw [hreceived] at hsaid hpre
  exact ⟨s, hr, hraised, hclosed hraised, hreceived, hpre htaken,
    hsaid _ (List.mem_singleton_self _)⟩

/-- **Nothing is lost.**  In every run in which no client reads behind the header section with it:
when the worker waits, of every client whose connection is open all that has arrived is handled, so
that all it has said is once nothing is on the way to the worker; and it has received the whole log
behind its registration once nothing is on the way to the client. -/
theorem quiet_is_delivered {host : Bytes} {port : ℕ} {listenfd : Fd} {s : System}
    (hhost : IsHost host)
    (hr : System.Reachable System.Punctual host port listenfd s) (hwait : s.worker.pc = .waiting)
    {fd : Fd} {h : WebsocketHandler} (hfd : s.worker.worker.websocketHandlerMap fd = some h)
    (hs : h.status = .handsharked) :
    (s.up h.conn = [] →
      (handledTexts (s.history h.conn)).map Frame.payload = (s.said h.conn).map Utterance.payload) ∧
    (h.writeBuf = [] → s.down h.conn = [] → (s.client h.conn).received = s.log h.conn) := by
  obtain ⟨hc, ha⟩ := System.attentive hhost hr
  exact ⟨hc.all_handled hhost hwait hfd hs, hc.all_heard hhost ha hwait hfd hs⟩

/-- The whole log is "hi". -/
theorem quiet_is_delivered_conversation : ∃ s, System.Reachable System.Punctual localhost 9000 3 s ∧
    (s.client 2).received = [ascii "hi"] ∧ s.log 2 = [ascii "hi"] := by
  obtain ⟨s, hr, hwait, hfd, _, _, hdown, hreceived⟩ := exists_conversation
  obtain ⟨h, hfd, hh⟩ := Option.map_eq_some_iff.1 hfd
  obtain ⟨hconn, hrest⟩ := Prod.mk.inj hh
  obtain ⟨hstatus, hempty⟩ := Prod.mk.inj hrest
  have hdelivered := (quiet_is_delivered isHost_localhost hr hwait hfd hstatus).2 hempty
  rw [hconn] at hdelivered
  exact ⟨s, hr, hreceived, (hdelivered hdown).symm.trans hreceived⟩

end WebSocketDemo
