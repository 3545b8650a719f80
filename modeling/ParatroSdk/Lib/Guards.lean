import ParatroSdk.Lib.SharedCell

/-! # Guards are given back

`Code.Balanced post held p` is a typestate: with a guard in hand exactly when `held`, the
program `p` asks for the lock only while it has no guard, and returns with a guard in hand
exactly when `post`.  When the programs of all calls are balanced from `false` to `false`,
the states that a run reaches are `Guarded`: a task that waits for the lock holds nothing,
and neither does a task that is gone (`State.Guarded.step`): only a task that waits for a reply
holds a guard. -/

namespace SharedCell

open Interaction

variable {σ Q R κ α β : Type}

/-! ### Who holds a guard -/

namespace Lock

/-- Task `t` holds no guard. -/
def Without (l : Lock) (t : ℕ) : Prop := t ∉ l.readers ∧ l.writer ≠ some t

theorem without_free (t : ℕ) : free.Without t := ⟨List.not_mem_nil, nofun⟩

theorem drop_of_without {l : Lock} {t : ℕ} (h : l.Without t) : l.drop t = l := by
  obtain ⟨readers, writer⟩ := l
  obtain ⟨hr, hw⟩ := h
  have hfilter : readers.filter (· ≠ t) = readers := by
    apply List.filter_eq_self.mpr
    intro u hu
    exact decide_eq_true fun hut => hr (hut ▸ hu)
  unfold drop
  rw [hfilter, if_neg hw]

theorem without_drop (l : Lock) (t : ℕ) : (l.drop t).Without t := by
  constructor
  · simp [drop]
  · unfold drop
    dsimp only
    split
    · simp
    · assumption

theorem Without.drop {l : Lock} {u : ℕ} (h : l.Without u) (t : ℕ) : (l.drop t).Without u := by
  constructor
  · intro hu
    exact h.1 (List.mem_of_mem_filter hu)
  · unfold Lock.drop
    dsimp only
    split
    · simp
    · exact h.2

theorem Without.take {l : Lock} {t u : ℕ} (h : l.Without u) (hut : u ≠ t) (m : Mode) :
    (l.take t m).Without u := by
  cases m with
  | read =>
      refine ⟨?_, h.2⟩
      intro hu
      obtain hu | hu := List.mem_cons.mp hu
      · exact hut hu
      · exact h.1 hu
  | write =>
      refine ⟨h.1, ?_⟩
      intro hw
      exact hut (Option.some.inj hw).symm

end Lock

/-! ### Balanced programs -/

/-- The lock is asked for only without a guard in hand. -/
def Op.Allowed (held : Bool) : Op σ Q → Prop
  | .acquire _ => held = false
  | .release | .load | .store _ | .clock | .request _ => True

/-- Whether a guard is in hand after the operation. -/
def Op.holding (held : Bool) : Op σ Q → Bool
  | .acquire _ => true
  | .release => false
  | .load | .store _ | .clock | .request _ => held

namespace Code

/-- From a state where a guard is in hand iff `held`, `p` never asks for the lock with a
guard in hand, and returns with one iff `post`. -/
def Balanced (post : Bool) : Bool → Code σ Q R α → Prop
  | held, .ret _ => held = post
  | _, .halt => True
  | held, .ask o k => o.Allowed held ∧ ∀ x, Balanced post (o.holding held) (k x)

variable {held mid post : Bool}

theorem Balanced.bind {p : Code σ Q R α} {f : α → Code σ Q R β} (hp : p.Balanced mid held)
    (hf : ∀ a, (f a).Balanced post mid) : Balanced post held (p >>= f) := by
  induction p generalizing held with
  | ret a =>
      cases hp
      exact hf a
  | halt => trivial
  | ask o k ih => exact ⟨hp.1, fun x => ih x (hp.2 x)⟩

end Code

/-! ### What the guards say of a suspended task -/

/-- Task `t`, suspended at `w`, gives back what it holds of the lock `l` when it goes on. -/
def Suspended.Guarded (l : Lock) (t : ℕ) : Suspended σ Q R α → Prop
  | .ended _ => l.Without t
  | .waiting _ p => l.Without t ∧ p.Balanced false true
  | .asked _ _ k => ∃ held, (held = false → l.Without t) ∧ ∀ x, (k x).Balanced false held

theorem Suspended.Guarded.mono {l l' : Lock} {t : ℕ} {w : Suspended σ Q R α} (h : w.Guarded l t)
    (hl : l.Without t → l'.Without t) : w.Guarded l' t := by
  cases w with
  | ended r => exact hl h
  | waiting m p => exact ⟨hl h.1, h.2⟩
  | asked since q k =>
      obtain ⟨held, hw, hk⟩ := h
      exact ⟨held, fun hf => hl (hw hf), hk⟩

theorem guarded_advance {t : ℕ} {p : Code σ Q R α} {held : Bool} (hp : p.Balanced false held)
    {s : Shared σ} (hs : held = false → s.lock.Without t) :
    (advance t p s).1.Guarded (advance t p s).2.lock t := by
  induction p generalizing held s with
  | ret a => exact Lock.without_drop s.lock t
  | halt => exact Lock.without_drop s.lock t
  | ask o k ih =>
      obtain ⟨hallowed, hk⟩ := hp
      cases o with
      | acquire m => exact ⟨hs hallowed, hk ()⟩
      | request q => exact ⟨held, hs, hk⟩
      | release => exact ih () (hk ()) fun _ => Lock.without_drop s.lock t
      | load => exact ih s.cell (hk s.cell) hs
      | store v => exact ih () (hk ()) hs
      | clock => exact ih s.clock (hk s.clock) hs

theorem without_advance {t u : ℕ} (p : Code σ Q R α) {s : Shared σ} (h : s.lock.Without u) :
    (advance t p s).2.lock.Without u := by
  induction p generalizing s with
  | ret a => exact h.drop t
  | halt => exact h.drop t
  | ask o k ih =>
      cases o with
      | acquire m => exact h
      | request q => exact h
      | release => exact ih () (h.drop t)
      | load => exact ih s.cell h
      | store v => exact ih () h
      | clock => exact ih s.clock h

/-! ### The moves by what they do -/

/-- The moves of the system by what they need and what they do. -/
inductive Stepped (code : κ → Code σ Q R α) (st : State σ Q R κ α) :
    Move R κ → State σ Q R κ α × Option (Finish κ α) → Prop where
  | tick (d : ℕ) : Stepped code st (.tick d)
      ({ st with shared := { st.shared with clock := st.shared.clock + d } }, none)
  | start {t : ℕ} {c : κ} (ht : st.tasks t = none) :
      Stepped code st (.start t c) (st.settle t c (advance t (code c) st.shared))
  | grant {t : ℕ} {c : κ} {m : Mode} {p : Code σ Q R α} (ht : st.tasks t = some (c, .waiting m p))
      (hl : st.shared.lock.grantable m = true) :
      Stepped code st (.grant t) (st.settle t c
        (advance t p { st.shared with lock := st.shared.lock.take t m }))
  | reply {t : ℕ} {c : κ} {since : ℕ} {q : Q} {k : R → Code σ Q R α}
      (ht : st.tasks t = some (c, .asked since q k)) (x : R) :
      Stepped code st (.reply t x) (st.settle t c (advance t (k x) st.shared))
  | drop {t : ℕ} {c : κ} {w : Suspended σ Q R α} (ht : st.tasks t = some (c, w)) :
      Stepped code st (.drop t) (⟨{ st.shared with lock := st.shared.lock.drop t },
        Function.update st.tasks t none⟩, none)

section step
variable {code : κ → Code σ Q R α} {st : State σ Q R κ α} {m : Move R κ}
  {r : State σ Q R κ α × Option (Finish κ α)}

theorem step_iff : step code st m = some r ↔ Stepped code st m r := by
  constructor
  · intro h
    cases m with
    | tick d =>
        cases h
        exact .tick d
    | start t c =>
        cases ht : st.tasks t with
        | some x => simp [step, ht] at h
        | none =>
            simp only [step, ht] at h
            cases h
            exact .start ht
    | grant t =>
        simp only [step] at h
        split at h
        · rename_i c m p ht
          split at h
          · rename_i hl
            cases h
            exact .grant ht hl
          · cases h
        · cases h
    | reply t x =>
        simp only [step] at h
        split at h
        · rename_i c since q k ht
          cases h
          exact .reply ht x
        · cases h
    | drop t =>
        cases ht : st.tasks t with
        | none => simp [step, ht] at h
        | some x =>
            simp only [step, ht] at h
            cases h
            exact .drop ht
  · intro h
    cases h with
    | tick d => rfl
    | start ht => simp [step, ht]
    | grant ht hl => simp [step, ht, hl]
    | reply ht x => simp [step, ht]
    | drop ht => simp [step, ht]

end step

/-- What is left of a task that stopped at `w`; nothing, when it ended. -/
def Suspended.left (c : κ) : Suspended σ Q R α → Option (κ × Suspended σ Q R α)
  | .ended _ => none
  | .waiting m p => some (c, .waiting m p)
  | .asked since q k => some (c, .asked since q k)

/-- What a caller sees of a task that stopped at `w`. -/
def Suspended.finish (t : ℕ) (c : κ) : Suspended σ Q R α → Option (Finish κ α)
  | .ended r => some ⟨t, c, r⟩
  | .waiting _ _ | .asked _ _ _ => none

theorem settle_eq (st : State σ Q R κ α) (t : ℕ) (c : κ) (w : Suspended σ Q R α) (s : Shared σ) :
    st.settle t c (w, s) = (⟨s, Function.update st.tasks t (w.left c)⟩, w.finish t c) := by
  cases w <;> rfl

theorem Suspended.of_left {w w' : Suspended σ Q R α} {c c' : κ} (h : w.left c = some (c', w')) :
    c' = c ∧ w' = w := by
  cases w with
  | ended r => cases h
  | waiting m p | asked since q k =>
      cases h
      exact ⟨rfl, rfl⟩

/-! ### Guarded states -/

/-- No guard is held by a task that is not there, and the others give theirs back. -/
structure State.Guarded (st : State σ Q R κ α) : Prop where
  absent : ∀ t, st.tasks t = none → st.shared.lock.Without t
  present : ∀ t c w, st.tasks t = some (c, w) → w.Guarded st.shared.lock t

theorem guarded_initial (v : σ) (now : ℕ) : (State.initial v now : State σ Q R κ α).Guarded :=
  ⟨fun t _ => Lock.without_free t, nofun⟩

section guarded
variable {code : κ → Code σ Q R α} {st st' : State σ Q R κ α} {m : Move R κ}
  {o : Option (Finish κ α)}

/-- A task that runs to its next wait leaves a guarded state, when no other task loses a
guard it does not hold. -/
theorem State.Guarded.settle (hg : st.Guarded) {t : ℕ} (c : κ) {p : Code σ Q R α} {s : Shared σ}
    {held : Bool} (hp : p.Balanced false held) (hs : held = false → s.lock.Without t)
    (hother : ∀ u, u ≠ t → st.shared.lock.Without u → s.lock.Without u) :
    (st.settle t c (advance t p s)).1.Guarded := by
  have hself := guarded_advance hp hs
  have hkeep : ∀ u, u ≠ t → st.shared.lock.Without u → (advance t p s).2.lock.Without u :=
    fun u hu hw => without_advance p (hother u hu hw)
  generalize advance t p s = ws at hself hkeep
  obtain ⟨w, s'⟩ := ws
  rw [settle_eq]
  constructor
  · intro u hu
    by_cases hut : u = t
    · rw [hut]
      cases w with
      | ended r => exact hself
      | waiting m p' => exact hself.1
      | asked since q k => simp [hut, Suspended.left] at hu
    · simp only [Function.update_of_ne hut] at hu
      exact hkeep u hut (hg.absent u hu)
  · intro u c' w' hu
    by_cases hut : u = t
    · simp only [hut, Function.update_self] at hu
      rw [hut, (Suspended.of_left hu).2]
      exact hself
    · simp only [Function.update_of_ne hut] at hu
      exact (hg.present u c' w' hu).mono (hkeep u hut)

theorem State.Guarded.step (hcode : ∀ c, (code c).Balanced false false) (hg : st.Guarded)
    (h : SharedCell.step code st m = some (st', o)) : st'.Guarded := by
  generalize hr : (st', o) = r at h
  have hst : st' = r.1 := congrArg Prod.fst hr
  rw [hst]
  cases step_iff.mp h with
  | tick d => exact ⟨hg.absent, hg.present⟩
  | @start t c ht => exact hg.settle c (hcode c) (fun _ => hg.absent t ht) fun _ _ hu => hu
  | @grant t c m p ht hl =>
      have hw := hg.present t c _ ht
      exact hg.settle c hw.2 nofun fun u hut hu => hu.take hut m
  | @reply t c since q k ht x =>
      obtain ⟨held, hs, hk⟩ := hg.present t c _ ht
      exact hg.settle c (hk x) hs fun _ _ hu => hu
  | @drop t c w ht =>
      constructor
      · intro u hu
        by_cases hut : u = t
        · rw [hut]
          exact Lock.without_drop _ t
        · simp only [Function.update_of_ne hut] at hu
          exact (hg.absent u hu).drop t
      · intro u c' w' hu
        by_cases hut : u = t
        · simp [hut] at hu
        · simp only [Function.update_of_ne hut] at hu
          exact (hg.present u c' w' hu).mono fun hw => hw.drop t

end guarded

end SharedCell
