/-
**Runs of a partial step function under an assumption on the environment.**

A reactive program is modelled by a step function `σ → ι → Option σ`: the label says what the
environment answered, `none` says that the program makes no such step.  What is proved about it
is proved for every sequence of answers, and often only for environments that keep a contract
(`ok`).  This module gives the two views of such runs and the rules that connect them.  It
depends on no program.

Main definitions:

* `Transition.Reaches` — a state is reached by steps that each keep the contract `ok`;
* `Transition.runOk` — execute a list of labels, refusing those that break the contract;
* `Transition.transport` — the labels of a run, some of them left out.

Main results:

* `Transition.Reaches.invariant` — **the invariant rule**: what holds initially and survives every
  step holds in every reached state;
* `Transition.Reaches.preserves` — the same for a relation between the first state and the last;
* `Transition.reaches_of_runOk` — an execution is a run, which is how concrete runs are built;
* `Transition.runOk_invariant` — the invariant rule with the labels executed so far;
* `Transition.countP_add_rank_le`, `Transition.exists_run_to` — **the rules for a ranking
  function**: it bounds the work of every run, and leads some run to where the work ends;
* `Transition.runOk_transport` — **the rule for a simulation that leaves steps out**.
-/

import Mathlib.Logic.Basic

set_option relaxedAutoImplicit false
set_option autoImplicit false

namespace Transition

variable {σ ι : Type}

/-- `Reaches step ok s t`: from `s`, steps whose labels keep the contract `ok` lead to `t`. -/
inductive Reaches (step : σ → ι → Option σ) (ok : σ → ι → Prop) (s : σ) : σ → Prop
  | refl : Reaches step ok s s
  | tail {t u : σ} (i : ι) :
      Reaches step ok s t → ok t i → step t i = some u → Reaches step ok s u

/-- Execute the labels in order, refusing a label that breaks the contract. -/
def runOk (step : σ → ι → Option σ) (ok : σ → ι → Prop) [∀ s i, Decidable (ok s i)] :
    σ → List ι → Option σ
  | s, [] => some s
  | s, i :: is => if ok s i then (step s i).bind fun t => runOk step ok t is else none

variable {step : σ → ι → Option σ} {ok ok' : σ → ι → Prop} {s t u : σ}

namespace Reaches

theorem single {i : ι} (hok : ok s i) (h : step s i = some t) : Reaches step ok s t :=
  Reaches.tail i Reaches.refl hok h

theorem trans (h : Reaches step ok s t) (h' : Reaches step ok t u) : Reaches step ok s u := by
  induction h' with
  | refl => exact h
  | tail i _ hok hs ih => exact ih.tail i hok hs

/-- A run that keeps a contract keeps every weaker one. -/
theorem mono (himp : ∀ s i, ok s i → ok' s i) (h : Reaches step ok s t) :
    Reaches step ok' s t := by
  induction h with
  | refl => exact refl
  | tail i _ hok hs ih => exact ih.tail i (himp _ _ hok) hs

/-- **The invariant rule.** -/
theorem invariant {P : σ → Prop} (hinit : P s)
    (hstep : ∀ t i u, P t → ok t i → step t i = some u → P u) (h : Reaches step ok s t) : P t := by
  induction h with
  | refl => exact hinit
  | tail i _ hok hs ih => exact hstep _ i _ ih hok hs

/-- **The invariant rule for relations**: what every step from a state satisfying `P` does to an
observable, a run does, when the relation composes. -/
theorem preserves {P : σ → Prop} {R : σ → σ → Prop} (hrefl : ∀ s, R s s)
    (htrans : ∀ s t u, R s t → R t u → R s u) (hinit : P s)
    (hstep : ∀ t i u, P t → ok t i → step t i = some u → P u ∧ R t u)
    (h : Reaches step ok s t) : P t ∧ R s t := by
  induction h with
  | refl => exact ⟨hinit, hrefl _⟩
  | tail i _ hok hs ih =>
      obtain ⟨hP, hR⟩ := hstep _ i _ ih.1 hok hs
      exact ⟨hP, htrans _ _ _ ih.2 hR⟩

end Reaches

/-- An execution of allowed labels is a run. -/
theorem reaches_of_runOk [∀ s i, Decidable (ok s i)] {is : List ι}
    (h : runOk step ok s is = some t) : Reaches step ok s t := by
  induction is generalizing s with
  | nil =>
      obtain rfl : s = t := by simpa [runOk] using h
      exact Reaches.refl
  | cons i is ih =>
      simp only [runOk] at h
      split at h
      · rename_i hok
        obtain ⟨u, hu, hrest⟩ := Option.bind_eq_some_iff.1 h
        exact (Reaches.single hok hu).trans (ih hrest)
      · exact absurd h (by simp)

/-- Executing two lists of labels one after the other. -/
theorem runOk_append [∀ s i, Decidable (ok s i)] (is js : List ι) :
    runOk step ok s (is ++ js) = (runOk step ok s is).bind fun t => runOk step ok t js := by
  induction is generalizing s with
  | nil => rfl
  | cons i is ih =>
      simp only [List.cons_append, runOk]
      split
      · cases step s i with
        | none => rfl
        | some t => exact ih
      · rfl

/-- **The invariant rule with the labels executed so far.** -/
theorem runOk_invariant [∀ s i, Decidable (ok s i)] {P : List ι → σ → Prop} {is : List ι}
    (hinit : P [] s)
    (hstep : ∀ js t i u, P js t → ok t i → step t i = some u → P (js ++ [i]) u)
    (h : runOk step ok s is = some t) : P is t := by
  -- the labels executed already are carried along
  have hgo : ∀ (is js : List ι) (s : σ), P js s → runOk step ok s is = some t → P (js ++ is) t := by
    intro is
    induction is with
    | nil =>
        intro js s hs h
        obtain rfl : s = t := by simpa [runOk] using h
        rw [List.append_nil]
        exact hs
    | cons i is ih =>
        intro js s hs h
        simp only [runOk] at h
        split at h
        · rename_i hok
          obtain ⟨u, hu, hrest⟩ := Option.bind_eq_some_iff.1 h
          have hthen := ih (js ++ [i]) u (hstep js s i u hs hok hu) hrest
          rw [List.append_assoc] at hthen
          exact hthen
        · cases h
  exact hgo is [] s hinit h

/-! ### Ranking functions -/

section Rank

variable [∀ s i, Decidable (ok s i)] {P : σ → Prop} {allowed : ι → Prop} (work : ι → Bool)
  (stop : σ → Prop) (rank : σ → Nat)

/-- **How much work a run can do.**  `rank` never grows, and gets smaller with every label that is
work. -/
theorem countP_add_rank_le (hP : ∀ s i t, P s → ok s i → step s i = some t → P t)
    (hrank : ∀ s i t, P s → allowed i → step s i = some t →
      (if work i then 1 else 0) + rank t ≤ rank s)
    {is : List ι} (hs : P s) (his : ∀ i ∈ is, allowed i) (h : runOk step ok s is = some t) :
    is.countP work + rank t ≤ rank s := by
  induction is generalizing s with
  | nil =>
      obtain rfl : s = t := by simpa [runOk] using h
      exact Nat.le_of_eq (Nat.zero_add _)
  | cons i is ih =>
      simp only [runOk] at h
      split at h
      · rename_i hok
        obtain ⟨u, hu, hrest⟩ := Option.bind_eq_some_iff.1 h
        obtain ⟨hi, his⟩ := List.forall_mem_cons.1 his
        have hfirst := hrank s i u hs hi hu
        have hothers := ih (hP s i u hs hok hu) his hrest
        rw [List.countP_cons]
        omega
      · cases h

/-- **Some run ends the work**, when there is a way on wherever it has not ended. -/
theorem exists_run_to (hP : ∀ s i t, P s → ok s i → step s i = some t → P t)
    (hgo : ∀ s, P s → ¬ stop s →
      ∃ i t, allowed i ∧ ok s i ∧ step s i = some t ∧ rank t < rank s)
    (hs : P s) : ∃ is t, (∀ i ∈ is, allowed i) ∧ runOk step ok s is = some t ∧ stop t := by
  induction hn : rank s using Nat.strongRecOn generalizing s with
  | _ n ih =>
      subst hn
      by_cases hstop : stop s
      · exact ⟨[], s, List.forall_mem_nil _, rfl, hstop⟩
      · obtain ⟨i, u, hi, hok, hu, hlt⟩ := hgo s hs hstop
        obtain ⟨is, t, his, ht, hend⟩ := ih _ hlt (hP s i u hs hok hu) rfl
        refine ⟨i :: is, t, List.forall_mem_cons.2 ⟨hi, his⟩, ?_, hend⟩
        simp only [runOk, if_pos hok, hu, Option.bind_some]
        exact ht

end Rank

/-! ### Leaving labels out -/

section Transport

variable {κ τ : Type} {step' : τ → κ → Option τ} {ok'' : τ → κ → Prop} {f : σ → τ}
  {label : σ → ι → Option κ}

/-- The labels of a run, each translated in the state it is met in, or left out. -/
def transport (step : σ → ι → Option σ) (label : σ → ι → Option κ) : σ → List ι → List κ
  | _, [] => []
  | s, i :: is =>
      match step s i with
      | none => []
      | some t => (label s i).toList ++ transport step label t is

/-- What becomes of `x` in a step with the label `l`; nothing, when it is left out. -/
def Follows (step' : τ → κ → Option τ) (ok'' : τ → κ → Prop) (x : τ) (l : Option κ)
    (y : τ) : Prop :=
  match l with
  | none => y = x
  | some j => ok'' x j ∧ step' x j = some y

/-- The labels of a longer run begin with those of a shorter one. -/
theorem transport_prefix (is js : List ι) :
    transport step label s is <+: transport step label s (is ++ js) := by
  induction is generalizing s with
  | nil => exact List.nil_prefix
  | cons i is ih =>
      simp only [List.cons_append, transport]
      cases step s i with
      | none => exact List.prefix_rfl
      | some t => exact (List.prefix_append_right_inj _).2 ih

/-- **The rule for a simulation that leaves steps out.**  `f` is what is kept of a state.  A step
whose label is left out changes nothing of it, any other is a step of what is kept.  `P` is an
invariant, and `Q` holds in a state when it holds in a later one. -/
theorem runOk_transport [∀ s i, Decidable (ok s i)] [∀ s i, Decidable (ok'' s i)] {P Q : σ → Prop}
    (hP : ∀ s i t, P s → ok s i → step s i = some t → P t)
    (hQ : ∀ s i t, P s → step s i = some t → Q t → Q s)
    (hstep : ∀ s i t, P s → ok s i → step s i = some t → Q t →
      Follows step' ok'' (f s) (label s i) (f t))
    {is : List ι} (hs : P s) (h : runOk step ok s is = some t) (ht : Q t) :
    Q s ∧ runOk step' ok'' (f s) (transport step label s is) = some (f t) := by
  induction is generalizing s with
  | nil =>
      obtain rfl : s = t := by simpa [runOk] using h
      exact ⟨ht, rfl⟩
  | cons i is ih =>
      simp only [runOk] at h
      split at h
      · rename_i hi
        obtain ⟨u, hu, hrest⟩ := Option.bind_eq_some_iff.1 h
        obtain ⟨hQu, hrun⟩ := ih (hP s i u hs hi hu) hrest
        refine ⟨hQ s i u hs hu hQu, ?_⟩
        have hmatch := hstep s i u hs hi hu hQu
        simp only [transport, hu]
        cases hl : label s i with
        | none =>
            rw [hl] at hmatch
            have hsame : f u = f s := hmatch
            rw [← hsame]
            exact hrun
        | some j =>
            rw [hl] at hmatch
            obtain ⟨hj, hstep'⟩ := hmatch
            simp only [Option.toList_some, List.singleton_append, runOk, if_pos hj, hstep',
              Option.bind_some]
            exact hrun
      · cases h

end Transport

end Transition
