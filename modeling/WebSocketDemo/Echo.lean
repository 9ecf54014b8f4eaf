/-
**The clients hear themselves, and each other.**

The test scripts say something and compare what is heard with it.  Whatever a client says is handled
behind its registration, so that its own texts are part of the log it hears.  Where some clients
take turns, and nobody says anything before all of them have heard all that was said, there is never
more than one text that is not logged yet; the order in which things are said is then the order of
the log, and every client hears exactly what has been said.

Main definitions:

* `System.Calm`, `System.InTurn` — where such rounds begin, and their rule;
* `tokens` — what has been said, in order;
* `System.Rounds` — the invariant.

Main results:

* `Loop.own_since` — **a client is registered before anything of it is handled**;
* `own_echo` — **what a client has said it hears**;
* `System.Rounds.speak`, `System.Rounds.quiet` — **every step keeps the rounds**;
* `rounds_heard` — **the comparisons of the scripts never fail**.
-/

import WebSocketDemo.Completion
import WebSocketDemo.Fragments
import Mathlib.Algebra.BigOperators.Group.Finset.Piecewise

set_option relaxedAutoImplicit false
set_option autoImplicit false

namespace WebSocketDemo

open PrefixDecoder Rfc6455

/-! ### Behind the registration -/

section Own

variable {c : ℕ} {τ δ : List Obs}

/-- Before a registration the whole trace is before it. -/
theorem logSince_append_of_not_mem (h : .registered c ∉ τ) :
    logSince c (τ ++ δ) = logSince c δ := by
  have hnil : τ.dropWhile (fun o => !o.isRegistered c) = [] := by
    rw [List.dropWhile_eq_nil_iff]
    intro o ho
    have hne : o.isRegistered c ≠ true := by
      rw [ne_eq, Obs.isRegistered_iff]
      rintro rfl
      exact h ho
    simpa using hne
  rw [logSince, List.dropWhile_append, hnil]
  rfl

/-- What is added to an empty log is new. -/
theorem logSince_suffix_of_nil (h : logSince c τ = []) : logSince c (τ ++ δ) <:+ texts δ := by
  by_cases hm : .registered c ∈ τ
  · rw [logSince_append_of_mem hm, h, List.nil_append]
  · rw [logSince_append_of_not_mem hm]
    exact logSince_suffix

theorem handledTexts_append (a b : List Obs) :
    handledTexts (a ++ b) = handledTexts a ++ handledTexts b := by
  rw [handledTexts, handledFrames_append, List.flatMap_append]
  rfl

theorem textLog_append (τ δ : List Obs) : textLog (τ ++ δ) = textLog τ ++ textLog δ :=
  List.flatMap_append

/-- **A client is registered before anything of it is handled.** -/
theorem Loop.own_since {once : Prop} {ok : Loop → Input → Prop} (hok : Promises ok once)
    {listenfd : Fd} {s : Loop} (hr : Reachable ok listenfd s) {fd : Fd} {h : WebsocketHandler}
    (hfd : s.worker.websocketHandlerMap fd = some h) :
    handledTexts (about h.conn (s.worker.trace.dropWhile fun o => !o.isRegistered h.conn)) =
      handledTexts (about h.conn s.worker.trace) := by
  -- before the upgrade nothing is handled at all
  have hnone {v : View} {τ τ' : List Obs} (hacc : Account v (about v.handler.conn τ))
      (hs : v.handler.status = .unconnect) (hτ : τ' <:+ τ) :
      handledTexts (about v.handler.conn τ') = [] := by
    obtain ⟨p, rfl⟩ := hτ
    have hall := (hacc.unconnect hs).2.1
    rw [about_append, handledFrames_append] at hall
    rw [handledTexts, (List.append_eq_nil_iff.1 hall).2]
    rfl
  refine conn_induction_of (C := fun τ v => Account v (about v.handler.conn τ))
    (P := fun τ v => handledTexts (about v.handler.conn
      (τ.dropWhile fun o => !o.isRegistered v.handler.conn)) =
        handledTexts (about v.handler.conn τ)) hok
    (fun _ _ _ _ hr _ hfd => account hok hr hfd) ?_ ?_ hr fd h hfd
  · intro τ c fd p u hτ
    have hacc := account_new τ c fd p u hτ
    have hall := hnone hacc rfl List.suffix_rfl
    have hsome := hnone hacc rfl (List.dropWhile_suffix fun o => !o.isRegistered c)
    exact hsome.trans hall.symm
  · intro τ δ v g a v' _ ha hstep hacc hown
    rw [hstep.conn]
    cases hs : v.handler.status with
    | handsharked =>
        have hm : .registered v.handler.conn ∈ τ := by
          obtain ⟨_, _, _, _, hmem⟩ := hacc.handsharked hs
          exact (List.mem_filter.1 hmem).1
        have hne : τ.dropWhile (fun o => !o.isRegistered v.handler.conn) ≠ [] := by
          intro hnil
          rw [List.dropWhile_eq_nil_iff] at hnil
          simpa [Obs.isRegistered] using hnil _ hm
        rw [List.dropWhile_append, if_neg (by simpa using hne), about_append, about_append,
          handledTexts_append, handledTexts_append, hown]
    | unconnect =>
        have hquiet : handledTexts (about v.handler.conn (τ ++ δ)) = [] := by
          rw [about_append, handledTexts_append, hnone hacc hs List.suffix_rfl, List.nil_append, ha]
          cases hstep with
          | handle f rest request _ hs' _ =>
              rw [hs] at hs'
              cases hs'
          | relay f _ hs' _ =>
              rw [hs] at hs'
              cases hs'
          | _ => rfl
        obtain ⟨p, hp⟩ := List.dropWhile_suffix (l := τ ++ δ)
          fun o => !o.isRegistered v.handler.conn
        have hpart := hquiet
        rw [← hp, about_append, handledTexts_append] at hpart
        rw [hquiet]
        exact (List.append_eq_nil_iff.1 hpart).2

/-- An upgraded client is registered. -/
theorem Loop.registered_of_upgraded {listenfd : Fd} {s : Loop}
    (hr : Reachable EpollContract listenfd s) {m : HeaderMap} {rest : Bytes}
    (hm : Obs.upgraded c m rest ∈ about c s.worker.trace) :
    Obs.registered c ∈ about c s.worker.trace := by
  have hwf := reachable_wellFormed promises_epollContract hr
  have hlt : c < s.worker.nextConn := hwf.worker.trace_lt _ (List.mem_filter.1 hm).1
  have hlive {v : View} {a : List Obs} {m : HeaderMap} {rest : Bytes} (hacc : Account v a)
      (hm : Obs.upgraded v.handler.conn m rest ∈ a) : Obs.registered v.handler.conn ∈ a := by
    cases hs : v.handler.status with
    | unconnect => exact absurd hm ((hacc.unconnect hs).2.2.1 _ m rest)
    | handsharked =>
        obtain ⟨_, _, _, _, hreg⟩ := hacc.handsharked hs
        exact hreg
  rcases conn_history (P := fun τ v => Account v (about v.handler.conn τ))
    (Q := fun c τ => ∀ m rest, Obs.upgraded c m rest ∈ about c τ → Obs.registered c ∈ about c τ)
    promises_epollContract (fun τ c fd p u hτ => account_new τ c fd p u hτ)
    (fun τ δ v g a v' _ ha hstep hacc => by
      rw [hstep.conn, about_append, ha]
      exact hacc.step hstep)
    (fun τ δ v fd hacc _ _ _ _ hδ m rest hm => by
      rw [about_append, hδ] at hm ⊢
      exact List.mem_append_left _ (hlive hacc (by simpa using hm)))
    (fun c τ δ hδ hQ => by
      rw [about_append, hδ, List.append_nil]
      exact hQ) hr c hlt with ⟨fd, h, hfd, rfl⟩ | hclosed
  · exact hlive (account promises_epollContract hr hfd) hm
  · exact hclosed m rest hm

end Own

namespace System

variable {host : Bytes} {port : ℕ} {listenfd : Fd} {s₀ s t : System} {fd : Fd}
    {h : WebsocketHandler}
  {c : ℕ}

/-- What is handled of a client is in its log. -/
theorem Consistent.own_log (hc : Consistent host port listenfd s)
    (hfd : s.worker.worker.websocketHandlerMap fd = some h) :
    ((WebSocketDemo.handledTexts (s.history h.conn)).map Frame.payload).Sublist (s.log h.conn) := by
  have hown := Loop.own_since Loop.promises_epollContract hc.worker hfd
  have hfilter := filter_textLog h.conn
    (s.worker.worker.trace.dropWhile fun o => !o.isRegistered h.conn)
  rw [hown] at hfilter
  have hsub := (List.filter_sublist (p := fun e : ℕ × Frame => decide (e.1 = h.conn))
    (l := textLog (s.worker.worker.trace.dropWhile fun o => !o.isRegistered h.conn))).map Prod.snd
  rw [hfilter, List.map_map, map_snd_textLog] at hsub
  have hsame : Prod.snd ∘ (fun f : Frame => (h.conn, f)) = id := rfl
  rw [hsame, List.map_id] at hsub
  exact hsub.map Frame.payload

/-! ### What has been logged since -/

/-- What was handled since `s₀`: the senders and the payloads. -/
def since (s s₀ : System) : List (ℕ × Bytes) :=
  (textLog (s.worker.worker.trace.drop s₀.worker.worker.trace.length)).map
    fun e => (e.1, e.2.payload)

theorem map_snd_since : (s.since s₀).map Prod.snd =
    (texts (s.worker.worker.trace.drop s₀.worker.worker.trace.length)).map Frame.payload := by
  rw [since, List.map_map, ← map_snd_textLog, List.map_map]
  rfl

/-- The entries of one sender. -/
theorem filter_since (d : ℕ) : (s.since s₀).filter (fun e => decide (e.1 = d)) =
    ((WebSocketDemo.handledTexts (about d (s.worker.worker.trace.drop
      s₀.worker.worker.trace.length))).map Frame.payload).map fun p => (d, p) := by
  have hfilter := filter_textLog d (s.worker.worker.trace.drop s₀.worker.worker.trace.length)
  rw [since, List.filter_map]
  change List.map _ ((textLog _).filter fun e => decide (e.1 = d)) = _
  rw [hfilter, List.map_map, List.map_map]
  rfl

/-- The trace since then. -/
theorem append_drop_trace (hr : Reachable Contract host port listenfd s₀)
    (hst : Transition.Reaches (step host port) Contract s₀ s) :
    s₀.worker.worker.trace ++ s.worker.worker.trace.drop s₀.worker.worker.trace.length =
      s.worker.worker.trace := by
  have hwf := Loop.reachable_wellFormed Loop.promises_epollContract (consistent hr).worker
  obtain ⟨δ, hδ⟩ := Loop.trace_prefix Loop.promises_epollContract hwf (reaches_worker hr hst)
  rw [← hδ, List.drop_left]

/-- It grows at its end. -/
theorem since_mono (hr : Reachable Contract host port listenfd s₀)
    (hst : Transition.Reaches (step host port) Contract s₀ s)
    (hst' : Transition.Reaches (step host port) Contract s t) : s.since s₀ <+: t.since s₀ := by
  have hs := append_drop_trace hr hst
  have ht := append_drop_trace (hr.trans hst) hst'
  rw [since, since, ← ht, ← hs, List.append_assoc, List.drop_left, List.drop_left, textLog_append,
    List.map_append]
  exact List.prefix_append _ _

/-- What a client has received it keeps. -/
theorem received_raise (s : System) (c d : ℕ) :
    (s.client c).received <+: ((s.raise d).client c).received := by
  by_cases hcd : c = d
  · subst hcd
    rw [raise_client_self, ScriptClient.raise_received]
  · rw [raise_client_of_ne hcd]

theorem received_step {a : Action} (hc : Consistent host port listenfd s)
    (hs : s.step host port a = some t) (c : ℕ) :
    (s.client c).received <+: (t.client c).received := by
  cases a with
  | worker i =>
      have hwf := Loop.reachable_wellFormed Loop.promises_epollContract hc.worker
      rw [(workerStep_moves hwf hs).client]
  | handshake d nonce =>
      simp only [step] at hs
      split_ifs at hs with hd
      obtain rfl := Option.some.inj hs
      dsimp only
      by_cases hcd : c = d
      · subst hcd
        rw [(hc.start c hd.2).1]
        exact List.nil_prefix
      · rw [Function.update_of_ne hcd]
  | sendTextBytes d u =>
      simp only [step] at hs
      split_ifs at hs
      obtain rfl := Option.some.inj hs
      exact List.prefix_rfl
  | read d n =>
      simp only [step] at hs
      split_ifs at hs
      obtain rfl := Option.some.inj hs
      dsimp only
      by_cases hcd : c = d
      · subst hcd
        rw [Function.update_self]
        exact ScriptClient.received_resume
      · rw [Function.update_of_ne hcd]
  | readEof d =>
      obtain ⟨_, _, rfl⟩ := step_ends (Or.inl rfl) hs
      exact received_raise s c d
  | connectionLost d =>
      obtain ⟨_, _, rfl⟩ := step_ends (Or.inr rfl) hs
      exact received_raise s c d

theorem received_mono (hr : Reachable Contract host port listenfd s)
    (hst : Transition.Reaches (step host port) Contract s t) (c : ℕ) :
    (s.client c).received <+: (t.client c).received :=
  (hst.preserves (P := Consistent host port listenfd)
    (R := fun s t : System => (s.client c).received <+: (t.client c).received)
    (fun _ => List.prefix_rfl) (fun _ _ _ h h' => h.trans h') (consistent hr)
    fun _ _ _ h hok hs => ⟨h.step hok hs, received_step h hs c⟩).2

/-- A client that has done its handshake is registered. -/
theorem registered_of_isOpen {c : ℕ} (hhost : IsHost host)
    (hr : Reachable Punctual host port listenfd s) (hopen : (s.client c).isOpen = true) :
    .registered c ∈ s.worker.worker.trace := by
  obtain ⟨hc, ha⟩ := attentive hhost hr
  have hbegun : (s.client c).pc ≠ .start := by
    intro he
    simp [ScriptClient.isOpen, he] at hopen
  have hraised : (s.client c).pc ≠ .raised := by
    intro he
    simp [ScriptClient.isOpen, he] at hopen
  obtain ⟨nonce, hattends⟩ := ha c hbegun
  have hheard : s.heard c ≠ [] := by
    intro he
    rw [hattends.of_not_raised hraised, he] at hopen
    cases hopen
  -- it has read something, so that it was sent something
  have hsent : sentBytes (s.history c) ≠ [] := by
    rw [hc.down c]
    exact List.append_ne_nil_of_left_ne_nil hheard _
  have hup : ∃ m rest, Obs.upgraded c m rest ∈ s.history c := by
    by_contra hno
    have hserved := Loop.served hc.worker c
    have hnone := (hserved.outside fun m rest hm => hno ⟨m, rest, hm⟩).1
    have hpre := hserved.sent
    rw [hnone] at hpre
    exact hsent (List.prefix_nil.1 hpre)
  obtain ⟨m, rest, hm⟩ := hup
  exact (List.mem_filter.1 (Loop.registered_of_upgraded hc.worker hm)).1

/-! ### Two merges of the same parts -/

section Merge

variable {α β : Type} [DecidableEq α] {L L' T : List (α × β)}

/-- A merge that is one entry behind, and then goes on with entries of the other. -/
theorem prefix_of_filter (hL : L <+: T) (hL' : L <+: L') (hdue : T.length ≤ L.length + 1)
    (hparts : ∀ a, L'.filter (fun e => decide (e.1 = a)) <+: T.filter fun e => decide (e.1 = a)) :
    L' <+: T := by
  obtain ⟨r, rfl⟩ := hL
  obtain ⟨r', rfl⟩ := hL'
  have hpart (a : α) : r'.filter (fun e => decide (e.1 = a)) <+:
      r.filter fun e => decide (e.1 = a) := by
    have h := hparts a
    rw [List.filter_append, List.filter_append] at h
    exact (List.prefix_append_right_inj _).1 h
  rw [List.length_append] at hdue
  refine (List.prefix_append_right_inj _).2 ?_
  cases r' with
  | nil => exact List.nil_prefix
  | cons e es =>
      -- its next entry is the one that is missing
      have hnext := hpart e.1
      rw [List.filter_cons_of_pos (by simp)] at hnext
      cases r with
      | nil => cases List.prefix_nil.1 hnext
      | cons p ps =>
          have hps : ps = [] := List.length_eq_zero_iff.1 (by rw [List.length_cons] at hdue; omega)
          subst hps
          have hp : p.1 = e.1 := by
            by_contra hne
            rw [List.filter_cons_of_neg (by simpa using hne)] at hnext
            cases List.prefix_nil.1 hnext
          rw [List.filter_cons_of_pos (by simpa using hp), List.filter_nil, List.cons_prefix_cons]
            at hnext
          obtain ⟨rfl, hrest⟩ := hnext
          cases es with
          | nil => exact List.prefix_rfl
          | cons e' es =>
              exfalso
              have hmore := hpart e'.1
              by_cases he : e'.1 = e.1
              · rw [List.filter_cons_of_pos (by simpa using he)] at hrest
                cases List.prefix_nil.1 hrest
              · rw [List.filter_cons_of_neg (by simpa using Ne.symm he),
                  List.filter_cons_of_pos (by simp),
                    List.filter_cons_of_neg (by simpa using Ne.symm he)]
                  at hmore
                cases List.prefix_nil.1 hmore

/-- A merge with nothing missing. -/
theorem eq_of_filter (hL : L <+: T)
    (hparts : ∀ a, L.filter (fun e => decide (e.1 = a)) = T.filter fun e => decide (e.1 = a)) :
    L = T := by
  obtain ⟨r, rfl⟩ := hL
  cases r with
  | nil => exact (List.append_nil L).symm
  | cons e r =>
      have h := congrArg List.length (hparts e.1)
      rw [List.filter_append, List.filter_cons_of_pos (by simp), List.length_append,
        List.length_cons] at h
      omega

end Merge

/-! ### Taking turns -/

/-- Where rounds of the clients `C` begin: they have all done their handshake and have neither said
nor been told anything, and of what the others have said nothing is left to be handled. -/
structure Calm (C : Finset ℕ) (s : System) : Prop where
  ready : ∀ c ∈ C, (s.client c).isOpen = true
  said : ∀ c ∈ C, s.said c = []
  log : ∀ c ∈ C, s.log c = []
  others : ∀ d ∉ C, (handledTexts (s.history d)).length = (s.said d).length

/-- Only clients of `C` speak, and only when all of them have heard as much as has been said. -/
def InTurn (C : Finset ℕ) (s : System) (a : Action) : Prop :=
  s.Punctual a ∧ ∀ e ∈ a.token, e.1 ∈ C ∧
    ∀ c ∈ C, (s.client c).received.length = ∑ d ∈ C, (s.said d).length

instance (C : Finset ℕ) (s : System) (a : Action) : Decidable (s.InTurn C a) :=
  inferInstanceAs (Decidable (s.Punctual a ∧ ∀ e ∈ a.token, e.1 ∈ C ∧
    ∀ c ∈ C, (s.client c).received.length = ∑ d ∈ C, (s.said d).length))

section Turns

variable {C : Finset ℕ}

/-- **What is logged of a client it has said.** -/
theorem Calm.logged_said (hhost : IsHost host) (hr : Reachable Contract host port listenfd s₀)
    (hcalm : s₀.Calm C) (hst : Transition.Reaches (step host port) Contract s₀ s)
    (hothers : ∀ d ∉ C, s.said d = s₀.said d) (d : ℕ) :
    (s.since s₀).filter (fun e => decide (e.1 = d)) <+:
      if d ∈ C then (s.said d).map fun u => (d, u.payload) else [] := by
  have hc₀ := consistent hr
  have hc := consistent (hr.trans hst)
  have hhandled : handledTexts (s.history d) = handledTexts (s₀.history d) ++
      handledTexts (about d (s.worker.worker.trace.drop s₀.worker.worker.trace.length)) := by
    rw [history, ← append_drop_trace hr hst, about_append, handledTexts_append]
    simp [history]
  obtain ⟨us, hus, htexts⟩ := hc.handledTexts hhost d
  rw [filter_since]
  by_cases hd : d ∈ C
  · have hnone : handledTexts (s₀.history d) = [] := by
      obtain ⟨us₀, hus₀, htexts₀⟩ := hc₀.handledTexts hhost d
      rw [hcalm.said d hd, List.prefix_nil] at hus₀
      rw [hus₀, List.map_nil, List.map_eq_nil_iff] at htexts₀
      exact htexts₀
    rw [hnone, List.nil_append] at hhandled
    rw [if_pos hd, ← hhandled, htexts, List.map_map]
    exact hus.map _
  · -- the others have nothing left to be handled
    have hle := hus.length_le
    have hlen := congrArg List.length htexts
    rw [List.length_map, List.length_map, hhandled, List.length_append, hcalm.others d hd] at hlen
    rw [hothers d hd] at hle
    have hnone : handledTexts (about d (s.worker.worker.trace.drop
        s₀.worker.worker.trace.length)) = [] := List.length_eq_zero_iff.1 (by omega)
    rw [hnone]
    exact List.nil_prefix

/-- **What such a client hears has been logged since.** -/
theorem Calm.heard_logged {c : ℕ} (hhost : IsHost host)
    (hr : Reachable Punctual host port listenfd s₀) (hcalm : s₀.Calm C)
    (hst : Transition.Reaches (step host port) Punctual s₀ s) (hcC : c ∈ C) :
    (s.client c).received.Sublist ((s.since s₀).map Prod.snd) := by
  obtain ⟨hc, ha⟩ := attentive hhost (hr.trans hst)
  obtain ⟨ps, _, hps, hlog, _⟩ := hc.session hhost ha c
  have htrace := append_drop_trace (hr.mono fun _ _ hok => hok.1) (hst.mono fun _ _ hok => hok.1)
  have hsuffix := logSince_suffix_of_nil (List.map_eq_nil_iff.1 (hcalm.log c hcC))
    (δ := s.worker.worker.trace.drop s₀.worker.worker.trace.length)
  rw [htrace] at hsuffix
  rw [map_snd_since]
  exact (hps.sublist.trans hlog).trans (hsuffix.sublist.map Frame.payload)

/-- A client says one thing more. -/
theorem sum_said {said : ℕ → List Utterance} {d : ℕ} (u : Utterance) (hd : d ∈ C) :
    ∑ c ∈ C, (Function.update said d (said d ++ [u]) c).length =
      (∑ c ∈ C, (said c).length) + 1 := by
  have hlen (c : ℕ) : (Function.update said d (said d ++ [u]) c).length =
      (said c).length + if c = d then 1 else 0 := by
    by_cases hc : c = d
    · subst hc
      rw [Function.update_self, if_pos rfl, List.length_append, List.length_singleton]
    · rw [Function.update_of_ne hc, if_neg hc, Nat.add_zero]
  simp only [hlen, Finset.sum_add_distrib, Finset.sum_ite_eq', if_pos hd]

/-- **The rounds so far.**  `T` has been said, in this order; at most the last text is not logged
yet, and every client has heard all but at most the last text. -/
structure Rounds (host : Bytes) (port : ℕ) (C : Finset ℕ) (s₀ s : System) (T : List (ℕ × Bytes)) :
    Prop where
  run : Transition.Reaches (System.step host port) Punctual s₀ s
  others : ∀ d ∉ C, s.said d = s₀.said d
  spoken : ∀ d, T.filter (fun e => decide (e.1 = d)) =
    if d ∈ C then (s.said d).map (fun u => (d, u.payload)) else []
  count : T.length = ∑ d ∈ C, (s.said d).length
  logged : s.since s₀ <+: T
  due : T.length ≤ (s.since s₀).length + 1
  heard : ∀ c ∈ C, (s.client c).received <+: T.map Prod.snd
  last : ∀ c ∈ C, T.length ≤ (s.client c).received.length + 1

variable {T : List (ℕ × Bytes)}

/-- The rounds begin. -/
theorem Calm.rounds (hhost : IsHost host) (hr : Reachable Punctual host port listenfd s₀)
    (hcalm : s₀.Calm C) : Rounds host port C s₀ s₀ [] := by
  have hnone : s₀.since s₀ = [] := by
    rw [since, List.drop_length]
    rfl
  refine ⟨Transition.Reaches.refl, fun _ _ => rfl, fun d => ?_, ?_, ?_, Nat.zero_le _,
    fun c hc => ?_, fun _ _ => Nat.zero_le _⟩
  · split_ifs with hd
    · rw [hcalm.said d hd]
      rfl
    · rfl
  · rw [Finset.sum_eq_zero fun d hd => by rw [hcalm.said d hd]; rfl]
    rfl
  · rw [hnone]
  · have hsub := hcalm.heard_logged hhost hr Transition.Reaches.refl hc
    rw [hnone, List.map_nil, List.sublist_nil] at hsub
    rw [hsub]
    exact List.nil_prefix

/-- **Where nobody speaks the rounds go on.** -/
theorem Rounds.quiet (hhost : IsHost host) (hr : Reachable Punctual host port listenfd s₀)
    (hcalm : s₀.Calm C) (h : Rounds host port C s₀ s T)
    (hst : Transition.Reaches (System.step host port) Punctual s t) (hsaid : t.said = s.said)
    (hmono : ∀ c, (s.client c).received <+: (t.client c).received) : Rounds host port C s₀ t T := by
  have hr' : Reachable Contract host port listenfd s₀ := hr.mono fun _ _ hok => hok.1
  have hrun' := h.run.mono fun _ _ hok => And.left hok
  have hrun := h.run.trans hst
  have hothers : ∀ d ∉ C, t.said d = s₀.said d := by
    rw [hsaid]
    exact h.others
  have hgrows : s.since s₀ <+: t.since s₀ := since_mono hr' hrun' (hst.mono fun _ _ hok => hok.1)
  have hlogged : t.since s₀ <+: T := by
    refine prefix_of_filter h.logged hgrows h.due fun d => ?_
    rw [h.spoken d, ← hsaid]
    exact hcalm.logged_said hhost hr' (hrun.mono fun _ _ hok => hok.1) hothers d
  have hdue := h.due
  refine ⟨hrun, hothers, by rw [hsaid]; exact h.spoken, by rw [hsaid]; exact h.count, hlogged,
    hdue.trans (Nat.succ_le_succ hgrows.length_le), fun c hc => ?_,
    fun c hc => (h.last c hc).trans (Nat.succ_le_succ (hmono c).length_le)⟩
  have hsub := (hcalm.heard_logged hhost hr hrun hc).trans (hlogged.sublist.map Prod.snd)
  have hlen := hsub.length_le
  have hlast := h.last c hc
  have hmore := (hmono c).length_le
  rw [List.length_map] at hlen
  rcases Nat.lt_or_eq_of_le hlen with hlt | heq
  · -- nothing new has been heard
    rw [← (hmono c).eq_of_length (by omega)]
    exact h.heard c hc
  · rw [hsub.eq_of_length (by rw [List.length_map]; exact heq)]

/-- **The next turn is taken.** -/
theorem Rounds.speak {d : ℕ} {u : Utterance} (hhost : IsHost host)
    (hr : Reachable Punctual host port listenfd s₀) (hcalm : s₀.Calm C)
    (h : Rounds host port C s₀ s T) (hok : s.InTurn C (.sendTextBytes d u))
    (hs : s.step host port (.sendTextBytes d u) = some t) :
    Rounds host port C s₀ t (T ++ [(d, u.payload)]) := by
  obtain ⟨hpunctual, hturn⟩ := hok
  obtain ⟨hd, hall⟩ := hturn (d, u.payload) rfl
  have hrun := h.run.tail (.sendTextBytes d u) hpunctual hs
  simp only [System.step] at hs
  split_ifs at hs
  obtain rfl := Option.some.inj hs
  -- all that was said has been heard, so that it has been logged
  have hfull : (s.since s₀).length = T.length := by
    have hsub := (hcalm.heard_logged hhost hr h.run hd).length_le
    rw [List.length_map, hall d hd, ← h.count] at hsub
    exact Nat.le_antisymm h.logged.length_le hsub
  refine ⟨hrun, fun e he => ?_, fun e => ?_, ?_, h.logged.trans (List.prefix_append _ _), ?_,
    fun c hc => ?_, fun c hc => ?_⟩
  · have hne : e ≠ d := by
      rintro rfl
      exact he hd
    dsimp only
    rw [Function.update_of_ne hne]
    exact h.others e he
  · dsimp only
    rw [List.filter_append, h.spoken e]
    by_cases he : e = d
    · subst he
      rw [if_pos hd, if_pos hd, Function.update_self, List.map_append,
        List.filter_cons_of_pos (by simp)]
      rfl
    · rw [Function.update_of_ne he, List.filter_cons_of_neg (by simpa using Ne.symm he),
        List.filter_nil, List.append_nil]
  · rw [List.length_append, List.length_singleton, h.count]
    exact (sum_said u hd).symm
  · change _ ≤ (s.since s₀).length + 1
    rw [List.length_append, List.length_singleton, hfull]
  · rw [List.map_append]
    exact (h.heard c hc).trans (List.prefix_append _ _)
  · rw [List.length_append, List.length_singleton, h.count, ← hall c hc]

/-- **When everything has been handled, everything that was said is in the log of every client.** -/
theorem Rounds.complete (hhost : IsHost host) (hr : Reachable Punctual host port listenfd s₀)
    (hcalm : s₀.Calm C) (h : Rounds host port C s₀ s T)
    (hall : ∀ d ∈ C, (handledTexts (s.history d)).map Frame.payload =
      (s.said d).map Utterance.payload) {c : ℕ} (hc : c ∈ C) : s.log c = T.map Prod.snd := by
  have hr' : Reachable Contract host port listenfd s₀ := hr.mono fun _ _ hok => hok.1
  have hrun := h.run.mono fun _ _ hok => And.left hok
  have htrace := append_drop_trace hr' hrun
  have hsince : s.since s₀ = T := by
    refine eq_of_filter h.logged fun d => ?_
    by_cases hd : d ∈ C
    · have hnone : handledTexts (s₀.history d) = [] := by
        obtain ⟨us₀, hus₀, htexts₀⟩ := (consistent hr').handledTexts hhost d
        rw [hcalm.said d hd, List.prefix_nil] at hus₀
        rw [hus₀, List.map_nil, List.map_eq_nil_iff] at htexts₀
        exact htexts₀
      have hhandled := hall d hd
      rw [history, ← htrace, about_append, handledTexts_append] at hhandled
      change (handledTexts (s₀.history d) ++ _).map _ = _ at hhandled
      rw [hnone, List.nil_append] at hhandled
      rw [filter_since, hhandled, h.spoken d, if_pos hd, List.map_map]
      rfl
    · have hspoken := h.spoken d
      have hpart := h.logged.sublist.filter fun e => decide (e.1 = d)
      rw [if_neg hd] at hspoken
      rw [hspoken, List.sublist_nil] at hpart
      rw [hspoken, hpart]
  have hreg := registered_of_isOpen hhost hr (hcalm.ready c hc)
  rw [log, ← htrace, logSince_append_of_mem hreg, List.map_eq_nil_iff.1 (hcalm.log c hc),
    List.nil_append, ← hsince, map_snd_since]

end Turns

end System

/-- What has been said in a run, in order. -/
def tokens (as : List Action) : List Bytes := (as.filterMap Action.token).map Prod.snd

/-- **Every run in which the clients take turns goes in rounds.** -/
theorem System.rounds {host : Bytes} {port : ℕ} {listenfd : Fd} {s₀ s : System} {C : Finset ℕ}
    {as : List Action} (hhost : IsHost host)
    (hr : System.Reachable System.Punctual host port listenfd s₀) (hcalm : s₀.Calm C)
    (hrun : Transition.runOk (System.step host port) (System.InTurn C) s₀ as = some s) :
    System.Rounds host port C s₀ s (as.filterMap Action.token) := by
  refine Transition.runOk_invariant
    (P := fun as s => System.Rounds host port C s₀ s (as.filterMap Action.token))
    (hcalm.rounds hhost hr) ?_ hrun
  intro js t a u h hok hs
  have hquiet (htoken : a.token = none) (hsaid : u.said = t.said) :
      System.Rounds host port C s₀ u ((js ++ [a]).filterMap Action.token) := by
    have hstep := Transition.Reaches.refl.tail a hok.1 hs
    have hreach : System.Reachable System.Contract host port listenfd t :=
      (hr.trans h.run).mono fun _ _ hok => hok.1
    rw [List.filterMap_append, List.filterMap_cons_none htoken, List.filterMap_nil, List.append_nil]
    exact h.quiet hhost hr hcalm hstep hsaid
      (System.received_mono hreach (hstep.mono fun _ _ hok => hok.1))
  have hc := (System.attentive hhost (hr.trans h.run)).1
  cases a with
  | sendTextBytes d v =>
      rw [List.filterMap_append]
      exact h.speak hhost hr hcalm hok hs
  | _ =>
      refine hquiet rfl ((System.said_step hc hs).resolve_right ?_)
      rintro ⟨_, _, he, _⟩
      cases he

/-- **What a client has said it hears.**  In every run in which no client reads behind the header
section with it: when the worker waits and nothing is on the way to or from a client whose
connection is open, what the client has said is among what it has received, in order; and from every
state in which the worker waits that can still come about, with nobody saying anything more. -/
theorem own_echo {host : Bytes} {port : ℕ} {listenfd : Fd} {s : System} (hhost : IsHost host)
    (hr : System.Reachable System.Punctual host port listenfd s) (hwait : s.worker.pc = .waiting)
    {fd : Fd} {h : WebsocketHandler} (hfd : s.worker.worker.websocketHandlerMap fd = some h)
    (hs : h.status = .handsharked) :
    (s.up h.conn = [] → h.writeBuf = [] → s.down h.conn = [] →
      ((s.said h.conn).map Utterance.payload).Sublist (s.client h.conn).received) ∧
    ∃ t, Transition.Reaches (System.step host port) System.Punctual s t ∧ t.said = s.said ∧
      ((s.said h.conn).map Utterance.payload).Sublist (t.client h.conn).received := by
  obtain ⟨hc, ha⟩ := System.attentive hhost hr
  constructor
  · intro hup hempty hdown
    rw [← hc.all_handled hhost hwait hfd hs hup, hc.all_heard hhost ha hwait hfd hs hempty hdown]
    exact hc.own_log hfd
  · obtain ⟨t, ht⟩ := System.exists_delivers hhost hr hwait
    obtain ⟨h', hfd', _, hconn⟩ := ht.stays fd h hfd hs
    have hown := (System.attentive hhost (hr.trans ht.run)).1.own_log hfd'
    rw [hconn, ht.handled fd h hfd hs, ← ht.heard fd h hfd hs] at hown
    exact ⟨t, ht.run, ht.said, hown⟩

/-- The first client hears its "hi". -/
theorem own_echo_hi : ∃ s t, System.Reachable System.Punctual localhost 9000 3 s ∧
    (s.client 1).received = [] ∧
    Transition.Reaches (System.step localhost 9000) System.Punctual s t ∧
    [ascii "hi"].Sublist (t.client 1).received := by
  obtain ⟨s, hr, hsaid, hwait, ⟨h₁, hfd₁, hs₁, hconn₁⟩, _, hclients⟩ := exists_greeted
  obtain ⟨hopen, hreceived, _⟩ := hclients 1 (Or.inl rfl)
  have hr' := hr.trans (reaches_say_hi hopen)
  obtain ⟨t, hst, _, hown⟩ := (own_echo isHost_localhost hr' hwait hfd₁ hs₁).2
  rw [hconn₁, System.said_say, hsaid] at hown
  exact ⟨s.say 1 hi, t, hr', hreceived, hst, hown⟩

/-- **The comparisons of the scripts never fail.**  Some clients have done their handshake and have
neither said nor been told anything, and of what the others have said nothing is left to be handled;
from then on only these clients speak, and only when all of them have heard as many texts as they
have said.  Then, in every run in which no client reads behind the header section with it, each of
them has heard exactly what has been said, in the order in which it was said, but for at most the
last text, and only those have raised an exception whose connection the worker has closed; and from
every state in which the worker waits and their connections are open, all of them can still hear all
of it. -/
theorem rounds_heard {host : Bytes} {port : ℕ} {listenfd : Fd} {s₀ s : System} {C : Finset ℕ}
    {as : List Action} (hhost : IsHost host)
    (hr : System.Reachable System.Punctual host port listenfd s₀) (hcalm : s₀.Calm C)
    (hrun : Transition.runOk (System.step host port) (System.InTurn C) s₀ as = some s) :
    (∀ c ∈ C, ((s.client c).pc = .raised → s.Closed c) ∧ (s.client c).received <+: tokens as ∧
      (tokens as).length ≤ (s.client c).received.length + 1) ∧
    (s.worker.pc = .waiting →
      (∀ c ∈ C, ∃ fd h, s.worker.worker.websocketHandlerMap fd = some h ∧ h.status = .handsharked ∧
        h.conn = c) →
      ∃ t, Transition.Reaches (System.step host port) System.Punctual s t ∧ t.said = s.said ∧
        ∀ c ∈ C, (t.client c).received = tokens as) := by
  have hrounds := System.rounds hhost hr hcalm hrun
  have hreach := hr.trans hrounds.run
  obtain ⟨hc, ha⟩ := System.attentive hhost hreach
  constructor
  · intro c hcC
    obtain ⟨_, hraised, _⟩ := hc.session hhost ha c
    refine ⟨hraised, hrounds.heard c hcC, ?_⟩
    rw [tokens, List.length_map]
    exact hrounds.last c hcC
  · intro hwait hopen
    obtain ⟨t, ht⟩ := System.exists_delivers hhost hreach hwait
    have hquiet := hrounds.quiet hhost hr hcalm ht.run ht.said
      (System.received_mono (hreach.mono fun _ _ hok => hok.1) (ht.run.mono fun _ _ hok => hok.1))
    have hhandled : ∀ d ∈ C, (handledTexts (t.history d)).map Frame.payload =
        (t.said d).map Utterance.payload := by
      intro d hd
      obtain ⟨fd, h, hfd, hs, rfl⟩ := hopen d hd
      rw [ht.said]
      exact ht.handled fd h hfd hs
    refine ⟨t, ht.run, ht.said, fun c hcC => ?_⟩
    obtain ⟨fd, h, hfd, hs, rfl⟩ := hopen c hcC
    rw [ht.heard fd h hfd hs]
    exact hquiet.complete hhost hr hcalm hhandled hcC

/-- A round of two clients. -/
theorem rounds_heard_hi : ∃ s t, System.Reachable System.Punctual localhost 9000 3 s ∧
    (∀ c ∈ ({1, 2} : Finset ℕ), (s.client c).received = []) ∧
    Transition.Reaches (System.step localhost 9000) System.Punctual s t ∧
    ∀ c ∈ ({1, 2} : Finset ℕ), (t.client c).received = [ascii "hi"] := by
  obtain ⟨s, hr, hsaid, hwait, ⟨h₁, hfd₁, hs₁, hconn₁⟩, ⟨h₂, hfd₂, hs₂, hconn₂⟩, hclients⟩ :=
    exists_greeted
  have hmem {c : ℕ} (hc : c ∈ ({1, 2} : Finset ℕ)) : c = 1 ∨ c = 2 := by simpa using hc
  have hcalm : s.Calm {1, 2} := by
    refine ⟨fun c hc => (hclients c (hmem hc)).1, fun c _ => hsaid c,
      fun c hc => (hclients c (hmem hc)).2.2, fun d _ => ?_⟩
    obtain ⟨us, hus, htexts⟩ := (System.attentive isHost_localhost hr).1.handledTexts
      isHost_localhost d
    rw [hsaid, List.prefix_nil] at hus
    rw [hus, List.map_nil, List.map_eq_nil_iff] at htexts
    rw [htexts, hsaid]
    rfl
  have hshort : hi.payload.length ≤ ScriptClient.maxPayload := by decide
  have hturn : s.InTurn {1, 2} (.sendTextBytes 1 hi) := by
    refine ⟨⟨hshort, trivial⟩, fun e he => ?_⟩
    obtain rfl := Option.some.inj he
    refine ⟨by simp, fun c hc => ?_⟩
    rw [(hclients c (hmem hc)).2.1, Finset.sum_eq_zero fun d _ => by rw [hsaid d]; rfl]
    rfl
  have hrun : Transition.runOk (System.step localhost 9000) (System.InTurn {1, 2}) s
      [.sendTextBytes 1 hi] = some (s.say 1 hi) := by
    rw [Transition.runOk, if_pos hturn, System.step_say (hclients 1 (Or.inl rfl)).1]
    rfl
  have hopen : ∀ c ∈ ({1, 2} : Finset ℕ), ∃ fd h,
      (s.say 1 hi).worker.worker.websocketHandlerMap fd = some h ∧ h.status = .handsharked ∧
        h.conn = c := by
    intro c hc
    rcases hmem hc with rfl | rfl
    · exact ⟨5, h₁, hfd₁, hs₁, hconn₁⟩
    · exact ⟨6, h₂, hfd₂, hs₂, hconn₂⟩
  obtain ⟨t, hst, _, hall⟩ := (rounds_heard isHost_localhost hr hcalm hrun).2 hwait hopen
  have hsay := reaches_say_hi (hclients 1 (Or.inl rfl)).1
  exact ⟨s, t, hr, fun c hc => (hclients c (hmem hc)).2.1, hsay.trans hst, hall⟩

end WebSocketDemo
