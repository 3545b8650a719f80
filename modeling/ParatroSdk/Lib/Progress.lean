import Mathlib.Algebra.Order.BigOperators.Group.List
import Mathlib.Algebra.Order.Ring.Nat
import ParatroSdk.Lib.Guards

/-! # How often a task waits

`Code.WaitsAtMost p n`: whatever the answers, `p` waits for the lock and for replies at most
`n` times together.  The bound is compositional (`WaitsAtMost.bind`), and each move that a
task makes after its start takes one off it (`Bounded.step`). -/

namespace SharedCell

open Interaction

variable {σ Q R κ α β : Type}

/-- The program waits at most `n` times. -/
def Code.WaitsAtMost : Code σ Q R α → ℕ → Prop
  | .ret _, _ => True
  | .halt, _ => True
  | .ask o k, n =>
      match o.quiet with
      | true => ∀ x, WaitsAtMost (k x) n
      | false => 0 < n ∧ ∀ x, WaitsAtMost (k x) (n - 1)

namespace Code

variable {m n : ℕ}

theorem WaitsAtMost.mono {p : Code σ Q R α} (h : p.WaitsAtMost m) (hmn : m ≤ n) :
    p.WaitsAtMost n := by
  induction p generalizing m n with
  | ret a => trivial
  | halt => trivial
  | ask o k ih =>
      unfold WaitsAtMost at h ⊢
      cases hq : o.quiet with
      | true =>
          rw [hq] at h
          exact fun x => ih x (h x) hmn
      | false =>
          rw [hq] at h
          obtain ⟨hpos, hk⟩ := h
          exact ⟨by omega, fun x => ih x (hk x) (by omega)⟩

/-- The waits of a sequence add up. -/
theorem WaitsAtMost.bind {p : Code σ Q R α} {f : α → Code σ Q R β} (hp : p.WaitsAtMost m)
    (hf : ∀ a, (f a).WaitsAtMost n) : WaitsAtMost (p >>= f) (m + n) := by
  induction p generalizing m with
  | ret a => exact (hf a).mono (by omega)
  | halt => trivial
  | ask o k ih =>
      rw [Program.ask_bind]
      unfold WaitsAtMost at hp ⊢
      cases hq : o.quiet with
      | true =>
          rw [hq] at hp
          exact fun x => ih x (hp x)
      | false =>
          rw [hq] at hp
          obtain ⟨hpos, hk⟩ := hp
          refine ⟨by omega, fun x => ?_⟩
          have hsub : m + n - 1 = m - 1 + n := by omega
          rw [hsub]
          exact ih x (hk x)

end Code

/-- A suspended task waits at most `n` times from here on, this wait included. -/
def Suspended.WaitsAtMost : Suspended σ Q R α → ℕ → Prop
  | .ended _, _ => True
  | .waiting _ p, n => 0 < n ∧ p.WaitsAtMost (n - 1)
  | .asked _ _ k, n => 0 < n ∧ ∀ x, (k x).WaitsAtMost (n - 1)

theorem waitsAtMost_advance {t n : ℕ} {p : Code σ Q R α} (hp : p.WaitsAtMost n) (s : Shared σ) :
    (advance t p s).1.WaitsAtMost n := by
  induction p generalizing s with
  | ret a => trivial
  | halt => trivial
  | ask o k ih =>
      cases o with
      | acquire m => exact ⟨hp.1, hp.2 ()⟩
      | request q => exact hp
      | release => exact ih () (hp ()) _
      | load => exact ih s.cell (hp s.cell) _
      | store v => exact ih () (hp ()) _
      | clock => exact ih s.clock (hp s.clock) _

/-- Task `t` goes on in this move, after it was started. -/
def Move.resumes (t : ℕ) : Move R κ → Bool
  | .grant u | .reply u _ => u = t
  | .tick _ | .start _ _ | .drop _ => false

/-- Task `t`, if it is there, waits at most `n` more times. -/
def State.Bounded (t n : ℕ) (st : State σ Q R κ α) : Prop :=
  ∀ c w, st.tasks t = some (c, w) → w.WaitsAtMost n

section bounded
variable {code : κ → Code σ Q R α} {st st' : State σ Q R κ α} {m : Move R κ}
  {o : Option (Finish κ α)} {t n : ℕ}

theorem bounded_settle {c : κ} {p : Code σ Q R α} {s : Shared σ} (hp : p.WaitsAtMost n) :
    (st.settle t c (advance t p s)).1.Bounded t n := by
  have hw := waitsAtMost_advance (t := t) hp s
  generalize advance t p s = ws at hw
  obtain ⟨w, s'⟩ := ws
  rw [settle_eq]
  intro c' w' ht
  simp only [Function.update_self] at ht
  rw [(Suspended.of_left ht).2]
  exact hw

/-- A started task waits as often as its program may. -/
theorem bounded_start (hcode : ∀ c, (code c).WaitsAtMost n) {c : κ}
    (h : step code st (.start t c) = some (st', o)) : st'.Bounded t n := by
  generalize hr : (st', o) = r at h
  have hst : st' = r.1 := congrArg Prod.fst hr
  rw [hst]
  cases step_iff.mp h with
  | start ht => exact bounded_settle (hcode c)

/-- Each move a task makes takes one off its waits; the other moves leave them alone. -/
theorem State.Bounded.step (hb : st.Bounded t n) (hm : ∀ c, m ≠ .start t c)
    (h : SharedCell.step code st m = some (st', o)) :
    if m.resumes t then 0 < n ∧ st'.Bounded t (n - 1) else st'.Bounded t n := by
  by_cases ht : m.task = some t
  · generalize hr : (st', o) = r at h
    have hst : st' = r.1 := congrArg Prod.fst hr
    rw [hst]
    cases step_iff.mp h with
    | tick d => cases ht
    | @start u c hu =>
        cases ht
        exact absurd rfl (hm c)
    | @grant u c m p hu hl =>
        cases ht
        obtain ⟨hpos, hp⟩ := hb c _ hu
        simpa [Move.resumes] using ⟨hpos, bounded_settle hp⟩
    | @reply u c since q k hu x =>
        cases ht
        obtain ⟨hpos, hk⟩ := hb c _ hu
        simpa [Move.resumes] using ⟨hpos, bounded_settle (hk x)⟩
    | @drop u c w hu =>
        cases ht
        intro c' w' htask
        simp at htask
  · have hsame := tasks_step_of_ne h ht
    have hno : m.resumes t = false := by
      cases m with
      | grant u | reply u x =>
          have hne : u ≠ t := fun hut => ht (congrArg some hut)
          simp [Move.resumes, hne]
      | tick d => rfl
      | start u c => rfl
      | drop u => rfl
    rw [hno]
    intro c w htask
    rw [hsame] at htask
    exact hb c w htask

/-- A task that moves after its start is there. -/
theorem present_of_move (h : step code st m = some (st', o)) (ht : m.task = some t)
    (hm : ∀ c, m ≠ .start t c) : ∃ c w, st.tasks t = some (c, w) := by
  generalize (st', o) = r at h
  cases step_iff.mp h with
  | tick d => cases ht
  | @start u c hu =>
      cases ht
      exact absurd rfl (hm c)
  | grant hu hl =>
      cases ht
      exact ⟨_, _, hu⟩
  | reply hu x =>
      cases ht
      exact ⟨_, _, hu⟩
  | drop hu =>
      cases ht
      exact ⟨_, _, hu⟩

end bounded

/-- What is counted for one of several things each is at most the sum of the counts for each. -/
theorem countP_le_sum {β ι : Type} {P : β → Bool} {F : ι → β → Bool} {ts : List ι} {l : List β}
    (h : ∀ x ∈ l, P x = true → ∃ t ∈ ts, F t x = true) :
    l.countP P ≤ (ts.map fun t => l.countP (F t)).sum := by
  induction l with
  | nil => exact Nat.zero_le _
  | cons x l ih =>
      have hl := ih fun y hy => h y (List.mem_cons_of_mem x hy)
      have hx : (if P x = true then 1 else 0) ≤ (ts.map fun t => if F t x = true then 1 else 0).sum := by
        split
        · rename_i hP
          obtain ⟨t, ht, hF⟩ := h x List.mem_cons_self hP
          exact List.le_sum_of_mem (List.mem_map.mpr ⟨t, ht, if_pos hF⟩)
        · exact Nat.zero_le _
      simp only [List.countP_cons, List.sum_map_add]
      omega

end SharedCell
