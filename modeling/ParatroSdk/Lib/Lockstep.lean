import ParatroSdk.Lib.Guards
import ParatroSdk.Lib.Lifting

/-! # Two systems in lockstep

Two systems of tasks whose programs are related go through the same states, up to what the
tasks are about to do, when the replies that they get to their requests are related: the lock,
the cell and the clock are the same, the same tasks wait for the same (`State.Rel`), and they
end with related results (`step_rel`). -/

namespace SharedCell

open Interaction

variable {σ Q R κ α β : Type}

/-- Replies are related by `A`; the lock, the cell and the clock answer the same. -/
def SameAnswer (A : Q → R → R → Prop) :
    (o : Op σ Q) → (effects σ Q R).Answer o → (effects σ Q R).Answer o → Prop
  | .request q => A q
  | .acquire _ | .release | .load | .store _ | .clock => Eq

/-- The programs put the same requests, on replies related by `A`, and return results related
by `T`. -/
abbrev Code.Rel (A : Q → R → R → Prop) (T : α → β → Prop) (p : Code σ Q R α) (q : Code σ Q R β) :
    Prop :=
  Program.Rel (SameAnswer A) T p q

inductive Suspended.Rel (A : Q → R → R → Prop) (T : α → β → Prop) :
    Suspended σ Q R α → Suspended σ Q R β → Prop
  | ended {r : Option α} {r' : Option β} (h : Option.Rel T r r') : Rel A T (.ended r) (.ended r')
  | waiting (m : Mode) {p : Code σ Q R α} {p' : Code σ Q R β} (h : Code.Rel A T p p') :
      Rel A T (.waiting m p) (.waiting m p')
  | asked (since : ℕ) (q : Q) {k : R → Code σ Q R α} {k' : R → Code σ Q R β}
      (h : ∀ x y, A q x y → Code.Rel A T (k x) (k' y)) : Rel A T (.asked since q k) (.asked since q k')

/-- A task of the one system and the same task of the other. -/
inductive TaskRel (A : Q → R → R → Prop) (T : α → β → Prop) :
    κ × Suspended σ Q R α → κ × Suspended σ Q R β → Prop
  | mk (c : κ) {w : Suspended σ Q R α} {w' : Suspended σ Q R β} (h : w.Rel A T w') :
      TaskRel A T (c, w) (c, w')

structure State.Rel (A : Q → R → R → Prop) (T : α → β → Prop) (st : State σ Q R κ α)
    (st' : State σ Q R κ β) : Prop where
  shared : st.shared = st'.shared
  tasks : ∀ t, Option.Rel (TaskRel A T) (st.tasks t) (st'.tasks t)

/-- The same call of the same task ends, with related results. -/
inductive Finish.Rel (T : α → β → Prop) : Finish κ α → Finish κ β → Prop
  | mk (t : ℕ) (c : κ) {r : Option α} {r' : Option β} (h : Option.Rel T r r') :
      Finish.Rel T ⟨t, c, r⟩ ⟨t, c, r'⟩

/-- The same move, but for the reply to the request that the task waits for. -/
inductive Move.Rel (A : Q → R → R → Prop) (st : State σ Q R κ α) : Move R κ → Move R κ → Prop
  | tick (d : ℕ) : Rel A st (.tick d) (.tick d)
  | start (t : ℕ) (c : κ) : Rel A st (.start t c) (.start t c)
  | grant (t : ℕ) : Rel A st (.grant t) (.grant t)
  | reply (t : ℕ) {x y : R}
      (h : ∀ c since q k, st.tasks t = some (c, .asked since q k) → A q x y) :
      Rel A st (.reply t x) (.reply t y)
  | drop (t : ℕ) : Rel A st (.drop t) (.drop t)

section lockstep
variable {A : Q → R → R → Prop} {T : α → β → Prop} {st : State σ Q R κ α} {st' : State σ Q R κ β}
  {t : ℕ} {c : κ}

theorem State.Rel.absent (h : st.Rel A T st') (ht : st.tasks t = none) : st'.tasks t = none := by
  have hrel := h.tasks t
  rw [ht] at hrel
  cases hst : st'.tasks t with
  | none => rfl
  | some x =>
      rw [hst] at hrel
      cases hrel

theorem State.Rel.present {w : Suspended σ Q R α} (h : st.Rel A T st')
    (ht : st.tasks t = some (c, w)) : ∃ w', st'.tasks t = some (c, w') ∧ w.Rel A T w' := by
  have hrel := h.tasks t
  rw [ht] at hrel
  cases hst : st'.tasks t with
  | none =>
      rw [hst] at hrel
      cases hrel
  | some x =>
      rw [hst] at hrel
      obtain ⟨hx⟩ := hrel
      obtain ⟨-, hw⟩ := hx
      exact ⟨_, rfl, hw⟩

/-- Related programs stop at the same wait, having done the same. -/
theorem advance_rel {p : Code σ Q R α} {q : Code σ Q R β} (h : Code.Rel A T p q) (s : Shared σ) :
    (advance t p s).1.Rel A T (advance t q s).1 ∧ (advance t p s).2 = (advance t q s).2 := by
  induction h generalizing s with
  | ret hab => exact ⟨.ended (.some hab), rfl⟩
  | halt => exact ⟨.ended .none, rfl⟩
  | @ask o k k' hk ih =>
      cases o with
      | acquire m => exact ⟨.waiting m (hk () () rfl), rfl⟩
      | request q => exact ⟨.asked s.clock q hk, rfl⟩
      | release => exact ih () () rfl _
      | load => exact ih s.cell s.cell rfl s
      | store v => exact ih () () rfl _
      | clock => exact ih s.clock s.clock rfl s

theorem update_rel (h : ∀ u, Option.Rel (TaskRel A T) (st.tasks u) (st'.tasks u))
    {x : Option (κ × Suspended σ Q R α)} {x' : Option (κ × Suspended σ Q R β)}
    (hx : Option.Rel (TaskRel A T) x x') (t u : ℕ) :
    Option.Rel (TaskRel A T) (Function.update st.tasks t x u) (Function.update st'.tasks t x' u) := by
  by_cases hu : u = t
  · subst hu
    rw [Function.update_self, Function.update_self]
    exact hx
  · rw [Function.update_of_ne hu, Function.update_of_ne hu]
    exact h u

theorem settle_rel (h : st.Rel A T st') {w : Suspended σ Q R α} {w' : Suspended σ Q R β}
    (hw : w.Rel A T w') (s : Shared σ) :
    (st.settle t c (w, s)).1.Rel A T (st'.settle t c (w', s)).1 ∧
      Option.Rel (Finish.Rel T) (st.settle t c (w, s)).2 (st'.settle t c (w', s)).2 := by
  rw [settle_eq, settle_eq]
  have hleft : Option.Rel (TaskRel A T) (w.left c) (w'.left c) := by
    cases hw with
    | ended h => exact .none
    | waiting m h => exact .some (.mk c (.waiting m h))
    | asked since q h => exact .some (.mk c (.asked since q h))
  refine ⟨⟨rfl, update_rel h.tasks hleft t⟩, ?_⟩
  cases hw with
  | ended h => exact .some (.mk t c h)
  | waiting m h => exact .none
  | asked since q h => exact .none

/-- A task that goes on with related programs. -/
theorem settle_advance_rel (h : st.Rel A T st') {p : Code σ Q R α} {q : Code σ Q R β}
    (hpq : Code.Rel A T p q) (s : Shared σ) :
    (st.settle t c (advance t p s)).1.Rel A T (st'.settle t c (advance t q s)).1 ∧
      Option.Rel (Finish.Rel T) (st.settle t c (advance t p s)).2
        (st'.settle t c (advance t q s)).2 := by
  obtain ⟨hw, hs⟩ := advance_rel (t := t) hpq s
  generalize advance t p s = ws at hw hs ⊢
  generalize advance t q s = ws' at hw hs ⊢
  obtain ⟨w, s₁⟩ := ws
  obtain ⟨w', s₂⟩ := ws'
  cases hs
  exact settle_rel h hw s₁

/-- **Systems with related programs move in lockstep under related replies.** -/
theorem step_rel {code : κ → Code σ Q R α} {code' : κ → Code σ Q R β}
    (hcode : ∀ c, Code.Rel A T (code c) (code' c)) (h : st.Rel A T st') {m m' : Move R κ}
    (hm : m.Rel A st m') {r : State σ Q R κ α × Option (Finish κ α)} (hstep : step code st m = some r) :
    ∃ r', step code' st' m' = some r' ∧ r.1.Rel A T r'.1 ∧ Option.Rel (Finish.Rel T) r.2 r'.2 := by
  have hshared := h.shared
  cases step_iff.mp hstep with
  | tick d =>
      cases hm
      refine ⟨_, step_iff.mpr (.tick d), ⟨?_, h.tasks⟩, .none⟩
      dsimp only
      rw [hshared]
  | start ht =>
      cases hm
      refine ⟨_, step_iff.mpr (.start (h.absent ht)), ?_⟩
      rw [← hshared]
      exact settle_advance_rel h (hcode _) _
  | grant ht hl =>
      cases hm
      obtain ⟨w', ht', hw⟩ := h.present ht
      cases hw with
      | waiting m hp =>
          rw [hshared] at hl
          refine ⟨_, step_iff.mpr (.grant ht' hl), ?_⟩
          rw [← hshared]
          exact settle_advance_rel h hp _
  | reply ht x =>
      cases hm with
      | reply t hxy =>
          obtain ⟨w', ht', hw⟩ := h.present ht
          cases hw with
          | asked since q hk =>
              refine ⟨_, step_iff.mpr (.reply ht' _), ?_⟩
              rw [← hshared]
              exact settle_advance_rel h (hk _ _ (hxy _ _ _ _ ht)) _
  | drop ht =>
      cases hm with
      | drop t =>
          obtain ⟨w', ht', -⟩ := h.present ht
          refine ⟨_, step_iff.mpr (.drop ht'), ⟨?_, update_rel h.tasks .none _⟩, .none⟩
          dsimp only
          rw [hshared]

end lockstep

end SharedCell
