import Mathlib.Data.List.Forall2
import Mathlib.Data.List.Induction

/-! # Runs of a labelled transition system

A system is an executable partial step function: `step s a` is `some (s', o)` when the
action `a` is enabled in `s`, with `s'` the next state and `o` what an observer sees.  All
nondeterminism sits in the action, so `replay` runs a given list of actions and proofs
quantify over `Run`.

A run records every step it took as an `Entry`, oldest first.  The rules proved here are
the induction over a run (`Run.invariant`), the decomposition at one entry (`Run.split`),
and the persistence of a predicate along the rest of a run (`Run.stable`), which is how
statements of the form "once this happened, never again that" are proved. -/

namespace Transition

/-- A deterministic system driven by actions, with an observation on every step. -/
structure Lts (σ α ο : Type) where
  step : σ → α → Option (σ × ο)

/-- One step of a run. -/
structure Entry (σ α ο : Type) where
  before : σ
  act : α
  out : ο
  after : σ

/-- The states of two steps are related, before and after, and what is observed. -/
structure Entry.Rel {σ α ο τ α' ο' : Type} (R : σ → τ → Prop) (O : ο → ο' → Prop)
    (e : Entry σ α ο) (e' : Entry τ α' ο') : Prop where
  before : R e.before e'.before
  out : O e.out e'.out
  after : R e.after e'.after

namespace Lts

variable {σ α ο : Type} (L : Lts σ α ο)

/-- The entry is a step of the system. -/
def Took (e : Entry σ α ο) : Prop := L.step e.before e.act = some (e.after, e.out)

/-- `Run L s₀ tr s`: the steps `tr` lead from `s₀` to `s`. -/
inductive Run (s₀ : σ) : List (Entry σ α ο) → σ → Prop
  | nil : Run s₀ [] s₀
  | snoc {tr : List (Entry σ α ο)} {e : Entry σ α ο} :
      Run s₀ tr e.before → L.Took e → Run s₀ (tr ++ [e]) e.after

variable {L}

/-- A run goes on after a run. -/
theorem Run.append {s₀ s s' : σ} {tr more : List (Entry σ α ο)} (h : L.Run s₀ tr s)
    (hmore : L.Run s more s') : L.Run s₀ (tr ++ more) s' := by
  induction hmore with
  | nil => rwa [List.append_nil]
  | snoc _ ht ih =>
      rw [← List.append_assoc]
      exact ih.snoc ht

/-- A state predicate kept by every step holds at the end of every run. -/
theorem Run.invariant {s₀ s : σ} {tr : List (Entry σ α ο)} (I : σ → Prop) (h₀ : I s₀)
    (hstep : ∀ e : Entry σ α ο, I e.before → L.Took e → I e.after) (h : L.Run s₀ tr s) : I s := by
  induction h with
  | nil => exact h₀
  | snoc _ ht ih => exact hstep _ ih ht

/-- A run ends at the state its last entry names. -/
theorem Run.split_last {s₀ s : σ} {tr : List (Entry σ α ο)} {e : Entry σ α ο}
    (h : L.Run s₀ (tr ++ [e]) s) : L.Run s₀ tr e.before ∧ L.Took e ∧ s = e.after := by
  generalize htr : tr ++ [e] = tr' at h
  cases h with
  | nil => simp at htr
  | snoc hr ht =>
      obtain ⟨rfl, he⟩ := List.append_inj' htr rfl
      cases List.singleton_inj.mp he
      exact ⟨hr, ht, rfl⟩

/-- Every entry of a run splits it into the run before and the run after. -/
theorem Run.split {s₀ s : σ} {pre post : List (Entry σ α ο)} {e : Entry σ α ο}
    (h : L.Run s₀ (pre ++ e :: post) s) :
    L.Run s₀ pre e.before ∧ L.Took e ∧ L.Run e.after post s := by
  induction post using List.reverseRecOn generalizing s with
  | nil =>
      obtain ⟨hr, ht, rfl⟩ := Run.split_last h
      exact ⟨hr, ht, Run.nil⟩
  | append_singleton post e' ih =>
      rw [← List.cons_append, ← List.append_assoc] at h
      obtain ⟨hr, ht, rfl⟩ := Run.split_last h
      obtain ⟨h₁, h₂, h₃⟩ := ih hr
      exact ⟨h₁, h₂, Run.snoc h₃ ht⟩

/-- The entries of a run are steps of the system, taken in states the run reached. -/
theorem Run.entry {s₀ s : σ} {tr : List (Entry σ α ο)} (h : L.Run s₀ tr s)
    {e : Entry σ α ο} (he : e ∈ tr) : ∃ pre, L.Run s₀ pre e.before ∧ L.Took e := by
  obtain ⟨pre, post, rfl⟩ := List.append_of_mem he
  exact ⟨pre, (Run.split h).1, (Run.split h).2.1⟩

/-- A predicate kept by the entries of a run holds in every state of the run. -/
theorem Run.stable {s₀ s : σ} {tr : List (Entry σ α ο)} (Q : σ → Prop) (h₀ : Q s₀)
    (h : L.Run s₀ tr s)
    (hstep : ∀ e ∈ tr, Q e.before → L.Took e → Q e.after) :
    Q s ∧ ∀ e ∈ tr, Q e.before ∧ Q e.after := by
  induction h with
  | nil => exact ⟨h₀, by simp⟩
  | @snoc tr e _ ht ih =>
      obtain ⟨hq, hall⟩ := ih (fun e he => hstep e (List.mem_append_left _ he))
      have hq' := hstep e (List.mem_append_right _ List.mem_cons_self) hq ht
      refine ⟨hq', fun e' he' => ?_⟩
      obtain he' | he' := List.mem_append.mp he'
      · exact hall e' he'
      · rw [List.mem_singleton.mp he']
        exact ⟨hq, hq'⟩

/-- The same step, seen in another state space. -/
def mapEntry {τ : Type} (f : τ → σ) (e : Entry τ α ο) : Entry σ α ο :=
  ⟨f e.before, e.act, e.out, f e.after⟩

/-- When the steps of `L` from the states `f t` are the images of the steps of `M`, the runs
of `L` from such a state are the images of the runs of `M`. -/
theorem Run.lift {τ : Type} {M : Lts τ α ο} {f : τ → σ} {t₀ : τ}
    (hstep : ∀ t a, L.step (f t) a = (M.step t a).map fun r => (f r.1, r.2))
    {tr : List (Entry σ α ο)} {s : σ} (h : L.Run (f t₀) tr s) :
    ∃ tr' t, M.Run t₀ tr' t ∧ tr = tr'.map (mapEntry f) ∧ s = f t := by
  induction h with
  | nil => exact ⟨[], t₀, Run.nil, rfl, rfl⟩
  | @snoc tr e _ ht ih =>
      obtain ⟨tr', t, hr, rfl, hbefore⟩ := ih
      obtain ⟨before, act, out, after⟩ := e
      cases hbefore
      have ht' : L.step (f t) act = some (after, out) := ht
      rw [hstep, Option.map_eq_some_iff] at ht'
      obtain ⟨⟨t', o⟩, hM, heq⟩ := ht'
      cases heq
      exact ⟨tr' ++ [⟨t, act, o, t'⟩], t', Run.snoc (e := ⟨t, act, o, t'⟩) hr hM,
        by rw [List.map_append]; rfl, rfl⟩

/-- A map that sends steps of `M` to steps of `L` sends runs to runs. -/
theorem Run.map {τ : Type} {M : Lts τ α ο} {f : τ → σ} {t₀ t : τ} {tr : List (Entry τ α ο)}
    (hstep : ∀ e, M.Took e → L.Took (mapEntry f e)) (h : M.Run t₀ tr t) :
    L.Run (f t₀) (tr.map (mapEntry f)) (f t) := by
  induction h with
  | nil => exact Run.nil
  | @snoc tr e _ ht ih =>
      rw [List.map_append]
      exact Run.snoc (e := mapEntry f e) ih (hstep e ht)

/-! ### Simulation under other actions -/

/-- When `M` can answer every step of `L` by a step for another action, and the states stay
related, it can answer every run by a run for the other actions. -/
theorem Run.simulate {τ α' ο' : Type} {M : Lts τ α' ο'} {R : σ → τ → Prop} {O : ο → ο' → Prop}
    {H : Entry σ α ο → α' → Prop}
    (hstep : ∀ e t a, L.Took e → R e.before t → H e a →
      ∃ o t', M.step t a = some (t', o) ∧ O e.out o ∧ R e.after t')
    {s₀ s : σ} {t₀ : τ} (h₀ : R s₀ t₀) {tr : List (Entry σ α ο)} (h : L.Run s₀ tr s)
    {acts : List α'} (hacts : List.Forall₂ H tr acts) :
    ∃ tr' t, M.Run t₀ tr' t ∧ tr'.map (·.act) = acts ∧ R s t ∧
      List.Forall₂ (Entry.Rel R O) tr tr' := by
  induction h generalizing acts with
  | nil =>
      cases hacts
      exact ⟨[], t₀, .nil, rfl, h₀, .nil⟩
  | @snoc tr e hr ht ih =>
      obtain ⟨acts₁, a, rfl, hacts₁, ha⟩ : ∃ acts₁ a, acts = acts₁ ++ [a] ∧
          List.Forall₂ H tr acts₁ ∧ H e a := by
        have hflip : List.Forall₂ (flip H) acts (tr ++ [e]) := List.Forall₂.flip hacts
        have htake := List.forall₂_take_append _ _ _ hflip
        have hdrop := List.forall₂_drop_append _ _ _ hflip
        obtain ⟨a, rest, ha, hrest, heq⟩ := List.forall₂_cons_right_iff.mp hdrop
        cases hrest
        exact ⟨_, a, by rw [← heq, List.take_append_drop], List.Forall₂.flip htake, ha⟩
      obtain ⟨tr', t, hrun, rfl, hst, hall⟩ := ih hacts₁
      obtain ⟨o, t', hM, ho, hst'⟩ := hstep e t a ht hst ha
      refine ⟨tr' ++ [⟨t, a, o, t'⟩], t', hrun.snoc (e := ⟨t, a, o, t'⟩) hM, ?_, hst', ?_⟩
      · rw [List.map_append]
        rfl
      · exact List.rel_append hall (.cons ⟨hst, ho, hst'⟩ .nil)

/-! ### Replaying a list of actions -/

/-- Run the actions in order; `none` when one of them is not enabled. -/
def replay (L : Lts σ α ο) : σ → List α → Option (List (Entry σ α ο) × σ)
  | s, [] => some ([], s)
  | s, a :: as =>
      match L.step s a with
      | none => none
      | some (s', o) => (L.replay s' as).map (fun r => (⟨s, a, o, s'⟩ :: r.1, r.2))

theorem Run.cons {s : σ} {e : Entry σ α ο} {tr : List (Entry σ α ο)} (ht : L.Took e)
    (h : L.Run e.after tr s) : L.Run e.before (e :: tr) s := by
  induction h with
  | nil => exact Run.nil.snoc ht
  | snoc _ ht' ih => exact Run.snoc ih ht'

theorem replay_run {as : List α} : ∀ {s s' : σ} {tr : List (Entry σ α ο)},
    L.replay s as = some (tr, s') → L.Run s tr s' := by
  induction as with
  | nil =>
      intro s s' tr h
      cases h
      exact Run.nil
  | cons a as ih =>
      intro s s' tr h
      unfold replay at h
      cases hs : L.step s a with
      | none => rw [hs] at h; cases h
      | some p =>
          rw [hs] at h
          obtain ⟨⟨tr', s''⟩, hr, heq⟩ := Option.map_eq_some_iff.mp h
          cases heq
          exact Run.cons (e := ⟨s, a, p.2, p.1⟩) hs (ih hr)

/-- A replay takes the actions it was given. -/
theorem replay_acts {as : List α} : ∀ {s s' : σ} {tr : List (Entry σ α ο)},
    L.replay s as = some (tr, s') → tr.map (·.act) = as := by
  induction as with
  | nil =>
      intro s s' tr h
      cases h
      rfl
  | cons a as ih =>
      intro s s' tr h
      unfold replay at h
      cases hs : L.step s a with
      | none => rw [hs] at h; cases h
      | some p =>
          rw [hs] at h
          obtain ⟨⟨tr', s''⟩, hr, heq⟩ := Option.map_eq_some_iff.mp h
          cases heq
          exact congrArg (a :: ·) (ih hr)

/-- The run of the actions up to the end, or none at all when one of them is not enabled. -/
def play (L : Lts σ α ο) (s : σ) (as : List α) : List (Entry σ α ο) × σ :=
  (L.replay s as).getD ([], s)

theorem run_play (L : Lts σ α ο) (s : σ) (as : List α) :
    L.Run s (L.play s as).1 (L.play s as).2 := by
  unfold play
  cases h : L.replay s as with
  | none => exact Run.nil
  | some r => exact replay_run h

theorem act_mem_of_mem_play {s : σ} {as : List α} {e : Entry σ α ο} (he : e ∈ (L.play s as).1) :
    e.act ∈ as := by
  unfold play at he
  cases h : L.replay s as with
  | none => rw [h] at he; cases he
  | some r =>
      rw [h] at he
      rw [← replay_acts h]
      exact List.mem_map_of_mem he

/-- A run as long as the list of its actions took all of them. -/
theorem play_acts {s : σ} {as : List α} (h : (L.play s as).1.length = as.length) :
    (L.play s as).1.map (·.act) = as := by
  unfold play at h ⊢
  cases hr : L.replay s as with
  | none =>
      rw [hr] at h
      exact (List.eq_nil_of_length_eq_zero h.symm).symm
  | some r => exact replay_acts hr

/-- A list splits at its element number `n`. -/
theorem take_cons_drop {β : Type} {l : List β} {n : ℕ} {x : β} (h : l[n]? = some x) :
    l.take n ++ x :: l.drop (n + 1) = l := by
  obtain ⟨hn, rfl⟩ := List.getElem?_eq_some_iff.mp h
  rw [← List.drop_eq_getElem_cons hn, List.take_append_drop]

/-- A run splits at its entry number `n`. -/
theorem play_split {s : σ} {as : List α} {n : ℕ} {e : Entry σ α ο}
    (h : (L.play s as).1[n]? = some e) :
    (L.play s as).1.take n ++ e :: (L.play s as).1.drop (n + 1) = (L.play s as).1 := take_cons_drop h

theorem run_play_split (L : Lts σ α ο) (s : σ) (as : List α) {n : ℕ} {e : Entry σ α ο}
    (h : (L.play s as).1[n]? = some e) :
    L.Run s ((L.play s as).1.take n ++ e :: (L.play s as).1.drop (n + 1)) (L.play s as).2 := by
  rw [play_split h]
  exact L.run_play s as

end Lts

end Transition
