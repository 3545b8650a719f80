import Mathlib.Logic.Function.Basic
import ParatroSdk.Lib.Program
import ParatroSdk.Lib.Transition

/-! # Tasks sharing one cell behind a readers-writer lock

The programs here may take the lock in either mode and give it back, load and store the
cell, read a clock, and put a request to the outside.  A task runs until it has to wait,
for the lock or for the reply to a request (`advance`); between two waits nothing else
happens, so what a task does under the lock without a request is one atomic section.  A
guard held when a request is sent stays held until the reply is in.

A `State` holds the cell, the lock, the clock and the suspended tasks; a `Move` lets the
time pass, starts a task, grants the lock to a waiting task, delivers the reply to a
request, or drops a task where it waits.  Dropping and aborting a task releases its
guards.  Any order of moves that the lock allows is a run: no fairness and no queueing
order are assumed. -/

namespace SharedCell

open Interaction

/-- The two ways to take the lock. -/
inductive Mode where
  | read
  | write
deriving DecidableEq, Repr

/-- What a task may do: `σ` is the type of the cell, `Q` that of the requests. -/
inductive Op (σ Q : Type) where
  | acquire (m : Mode)
  | release
  | load
  | store (v : σ)
  | clock
  | request (q : Q)

/-- The operations with their answers: the cell, the time, and replies `R` to requests. -/
@[reducible] def effects (σ Q R : Type) : Signature where
  Op := Op σ Q
  Answer
    | .acquire _ => Unit
    | .release => Unit
    | .load => σ
    | .store _ => Unit
    | .clock => ℕ
    | .request _ => R

variable {σ Q R κ α β : Type}

/-- The programs of the tasks. -/
abbrev Code (σ Q R α : Type) : Type := Program (effects σ Q R) α

namespace Code

def acquire (m : Mode) : Code σ Q R Unit := .ask (.acquire m) .ret
def release : Code σ Q R Unit := .ask .release .ret
def load : Code σ Q R σ := .ask .load .ret
def store (v : σ) : Code σ Q R Unit := .ask (.store v) .ret
def clock : Code σ Q R ℕ := .ask .clock .ret
def request (q : Q) : Code σ Q R R := .ask (.request q) .ret

/-- Run the body with the lock held; the guard is released when the body returns. -/
def withGuard (m : Mode) (body : Code σ Q R α) : Code σ Q R α := do
  acquire m
  let a ← body
  release
  pure a

end Code

/-! ### The lock -/

/-- The guards held, by task. -/
structure Lock where
  readers : List ℕ
  writer : Option ℕ
deriving DecidableEq, Repr

namespace Lock

def free : Lock := ⟨[], none⟩

/-- A read guard needs no writer, a write guard no other guard at all. -/
def grantable (l : Lock) : Mode → Bool
  | .read => l.writer.isNone
  | .write => l.writer.isNone && l.readers.isEmpty

def take (l : Lock) (t : ℕ) : Mode → Lock
  | .read => { l with readers := t :: l.readers }
  | .write => { l with writer := some t }

/-- Release every guard of task `t`. -/
def drop (l : Lock) (t : ℕ) : Lock :=
  ⟨l.readers.filter (· ≠ t), if l.writer = some t then none else l.writer⟩

@[simp] theorem drop_take_free (t : ℕ) (m : Mode) : (free.take t m).drop t = free := by
  cases m <;> simp [free, take, drop]

@[simp] theorem drop_drop (l : Lock) (t : ℕ) : (l.drop t).drop t = l.drop t := by
  unfold drop
  by_cases h : l.writer = some t <;> simp [h]

end Lock

/-! ### Running one task to its next wait -/

/-- What the tasks share. -/
structure Shared (σ : Type) where
  cell : σ
  lock : Lock
  clock : ℕ

/-- Where a task stands between two moves: ended (`none` when it aborted), waiting for the
lock, or waiting since `since` for the reply to a request. -/
inductive Suspended (σ Q R α : Type) where
  | ended (r : Option α)
  | waiting (m : Mode) (p : Code σ Q R α)
  | asked (since : ℕ) (q : Q) (k : R → Code σ Q R α)

/-- Run task `t` to its next wait. -/
def advance (t : ℕ) : Code σ Q R α → Shared σ → Suspended σ Q R α × Shared σ
  | .ret a, s => (.ended (some a), { s with lock := s.lock.drop t })
  | .halt, s => (.ended none, { s with lock := s.lock.drop t })
  | .ask (.acquire m) k, s => (.waiting m (k ()), s)
  | .ask .release k, s => advance t (k ()) { s with lock := s.lock.drop t }
  | .ask .load k, s => advance t (k s.cell) s
  | .ask (.store v) k, s => advance t (k ()) { s with cell := v }
  | .ask .clock k, s => advance t (k s.clock) s
  | .ask (.request q) k, s => (.asked s.clock q k, s)

section advance
variable (t : ℕ) (s : Shared σ)

@[simp] theorem advance_ret (a : α) : advance t (.ret a : Code σ Q R α) s =
    (.ended (some a), { s with lock := s.lock.drop t }) := rfl

@[simp] theorem advance_halt : advance t (.halt : Code σ Q R α) s =
    (.ended none, { s with lock := s.lock.drop t }) := rfl

@[simp] theorem advance_acquire (m : Mode) (k : Unit → Code σ Q R α) :
    advance t (.ask (.acquire m) k) s = (.waiting m (k ()), s) := rfl

@[simp] theorem advance_release (k : Unit → Code σ Q R α) :
    advance t (.ask .release k) s = advance t (k ()) { s with lock := s.lock.drop t } := rfl

@[simp] theorem advance_load (k : σ → Code σ Q R α) :
    advance t (.ask .load k) s = advance t (k s.cell) s := rfl

@[simp] theorem advance_store (v : σ) (k : Unit → Code σ Q R α) :
    advance t (.ask (.store v) k) s = advance t (k ()) { s with cell := v } := rfl

@[simp] theorem advance_clock (k : ℕ → Code σ Q R α) :
    advance t (.ask .clock k) s = advance t (k s.clock) s := rfl

@[simp] theorem advance_request (q : Q) (k : R → Code σ Q R α) :
    advance t (.ask (.request q) k) s = (.asked s.clock q k, s) := rfl

end advance

/-! ### The system of all tasks -/

/-- All tasks with what they share; `κ` says which call a task is executing. -/
structure State (σ Q R κ α : Type) where
  shared : Shared σ
  tasks : ℕ → Option (κ × Suspended σ Q R α)

/-- A task ended: the call it was executing and its result. -/
structure Finish (κ α : Type) where
  task : ℕ
  call : κ
  result : Option α
deriving DecidableEq

inductive Move (R κ : Type) where
  | tick (d : ℕ)
  | start (t : ℕ) (c : κ)
  | grant (t : ℕ)
  | reply (t : ℕ) (x : R)
  | drop (t : ℕ)

/-- Put task `t` back where it stopped, or take it out when it ended. -/
def State.settle (st : State σ Q R κ α) (t : ℕ) (c : κ) :
    Suspended σ Q R α × Shared σ → State σ Q R κ α × Option (Finish κ α)
  | (.ended r, s) => (⟨s, Function.update st.tasks t none⟩, some ⟨t, c, r⟩)
  | (w, s) => (⟨s, Function.update st.tasks t (some (c, w))⟩, none)

/-- One move of the system; `code c` is the program of call `c`. -/
def step (code : κ → Code σ Q R α) (st : State σ Q R κ α) :
    Move R κ → Option (State σ Q R κ α × Option (Finish κ α))
  | .tick d => some ({ st with shared := { st.shared with clock := st.shared.clock + d } }, none)
  | .start t c =>
      match st.tasks t with
      | none => some (st.settle t c (advance t (code c) st.shared))
      | some _ => none
  | .grant t =>
      match st.tasks t with
      | some (c, .waiting m p) =>
          if st.shared.lock.grantable m then
            some (st.settle t c
              (advance t p { st.shared with lock := st.shared.lock.take t m }))
          else none
      | _ => none
  | .reply t x =>
      match st.tasks t with
      | some (c, .asked _ _ k) => some (st.settle t c (advance t (k x) st.shared))
      | _ => none
  | .drop t =>
      match st.tasks t with
      | some _ => some (⟨{ st.shared with lock := st.shared.lock.drop t },
          Function.update st.tasks t none⟩, none)
      | none => none

/-- No task yet, lock free. -/
def State.initial (v : σ) (now : ℕ) : State σ Q R κ α := ⟨⟨v, Lock.free, now⟩, fun _ => none⟩

/-! ### The exchanges of one task

Whatever the others do, a task makes the exchanges of a trace of its program: `Followed` says so
of every task that waits, and `Followed.finish` of one that ends. -/

/-- Neither waits for the lock nor for a reply. -/
def Op.quiet : Op σ Q → Bool
  | .acquire _ | .request _ => false
  | .release | .load | .store _ | .clock => true

/-- Where the program `p` stops once it has made the exchanges `es`. -/
def Suspended.StopOf (p : Code σ Q R α) (es : List (Exchange (effects σ Q R))) :
    Suspended σ Q R α → Prop
  | .ended r => Program.Trace p es r
  | .waiting m p' => Program.After p es (.ask (.acquire m) fun _ => p')
  | .asked _ q k => Program.After p es (.ask (.request q) k)

theorem Suspended.StopOf.prepend {p p' : Code σ Q R α} {es es' : List (Exchange (effects σ Q R))}
    {w : Suspended σ Q R α} (h : Program.After p es p') (hw : w.StopOf p' es') :
    w.StopOf p (es ++ es') := by
  cases w with
  | ended r => exact h.trace hw
  | waiting m p'' => exact h.trans hw
  | asked since q k => exact h.trans hw

theorem advance_stopOf (t : ℕ) (p : Code σ Q R α) (s : Shared σ) :
    ∃ es, (∀ e ∈ es, e.op.quiet = true) ∧ (advance t p s).1.StopOf p es := by
  -- the task runs on after an exchange that does not wait
  have hrun : ∀ {o : Op σ Q} {k : (effects σ Q R).Answer o → Code σ Q R α}
      (x : (effects σ Q R).Answer o) {w : Suspended σ Q R α}, o.quiet = true →
      (∃ es, (∀ e ∈ es, e.op.quiet = true) ∧ w.StopOf (k x) es) →
        ∃ es, (∀ e ∈ es, e.op.quiet = true) ∧ w.StopOf (.ask o k) es := by
    rintro o k x w ho ⟨es, hes, hstop⟩
    exact ⟨⟨o, x⟩ :: es, List.forall_mem_cons.mpr ⟨ho, hes⟩, .prepend (.ask x (.nil _)) hstop⟩
  induction p generalizing s with
  | ret a => exact ⟨[], nofun, .ret a⟩
  | halt => exact ⟨[], nofun, .halt⟩
  | ask o k ih =>
      cases o with
      | acquire m => exact ⟨[], nofun, .nil _⟩
      | request q => exact ⟨[], nofun, .nil _⟩
      | release => exact hrun (o := .release) () rfl (ih () _)
      | load => exact hrun (o := .load) s.cell rfl (ih s.cell s)
      | store v => exact hrun (o := .store v) () rfl (ih () _)
      | clock => exact hrun (o := .clock) s.clock rfl (ih s.clock s)

theorem after_ask (o : Op σ Q) (k : (effects σ Q R).Answer o → Code σ Q R α)
    (x : (effects σ Q R).Answer o) : Program.After (.ask o k) [⟨o, x⟩] (k x) := .ask x (.nil _)

/-- Every task stands where its program stops after some exchanges. -/
def State.Followed (code : κ → Code σ Q R α) (st : State σ Q R κ α) : Prop :=
  ∀ t c w, st.tasks t = some (c, w) → ∃ es, w.StopOf (code c) es

/-- A move continues a task: `p` is left of its program after the exchanges `es`, the last of
which, if it is a request, is answered by the move. -/
inductive Continues (code : κ → Code σ Q R α) (st : State σ Q R κ α) (t : ℕ) (c : κ) :
    Move R κ → List (Exchange (effects σ Q R)) → Code σ Q R α → Prop
  | start : Continues code st t c (.start t c) [] (code c)
  | grant {m : Mode} {p : Code σ Q R α} {es : List (Exchange (effects σ Q R))}
      (htask : st.tasks t = some (c, .waiting m p))
      (h : Program.After (code c) es (.ask (.acquire m) fun _ => p)) :
      Continues code st t c (.grant t) (es ++ [⟨.acquire m, ()⟩]) p
  | reply {since : ℕ} {q : Q} {k : R → Code σ Q R α} {es : List (Exchange (effects σ Q R))} (x : R)
      (htask : st.tasks t = some (c, .asked since q k))
      (h : Program.After (code c) es (.ask (.request q) k)) :
      Continues code st t c (.reply t x) (es ++ [⟨.request q, x⟩]) (k x)

theorem Continues.after {code : κ → Code σ Q R α} {st : State σ Q R κ α} {t : ℕ} {c : κ}
    {m : Move R κ} {es : List (Exchange (effects σ Q R))} {p : Code σ Q R α}
    (h : Continues code st t c m es p) : Program.After (code c) es p := by
  cases h with
  | start => exact .nil _
  | grant _ h => exact h.trans (after_ask (.acquire _) _ ())
  | reply x _ h => exact h.trans (after_ask (.request _) _ x)

/-- The task that a move is about. -/
def Move.task : Move R κ → Option ℕ
  | .tick _ => none
  | .start t _ | .grant t | .reply t _ | .drop t => some t

theorem tasks_settle_of_ne {st st' : State σ Q R κ α} {o : Option (Finish κ α)} {t u : ℕ} {c : κ}
    {ws : Suspended σ Q R α × Shared σ} (h : st.settle t c ws = (st', o)) (hu : u ≠ t) :
    st'.tasks u = st.tasks u := by
  obtain ⟨w, s⟩ := ws
  cases w with
  | ended r | waiting m p | asked since q k =>
      cases h
      exact Function.update_of_ne hu _ _

/-- A move leaves the other tasks where they are. -/
theorem tasks_step_of_ne {code : κ → Code σ Q R α} {st st' : State σ Q R κ α} {m : Move R κ}
    {o : Option (Finish κ α)} (h : step code st m = some (st', o)) {u : ℕ} (hu : m.task ≠ some u) :
    st'.tasks u = st.tasks u := by
  unfold step at h
  unfold Move.task at hu
  split at h
  · cases h
    rfl
  · split at h
    · exact tasks_settle_of_ne (Option.some.inj h) fun he => hu (congrArg some he.symm)
    · cases h
  · split at h
    · split at h
      · exact tasks_settle_of_ne (Option.some.inj h) fun he => hu (congrArg some he.symm)
      · cases h
    · cases h
  · split at h
    · exact tasks_settle_of_ne (Option.some.inj h) fun he => hu (congrArg some he.symm)
    · cases h
  · split at h
    · cases h
      exact Function.update_of_ne (fun he => hu (congrArg some he.symm)) _ _
    · cases h

/-- A task starts where there is none. -/
theorem tasks_of_start {code : κ → Code σ Q R α} {st st' : State σ Q R κ α} {t : ℕ} {c : κ}
    {o : Option (Finish κ α)} (h : step code st (.start t c) = some (st', o)) :
    st.tasks t = none := by
  unfold step at h
  dsimp only at h
  split at h
  · assumption
  · cases h

/-- The lock is granted to a task that waits for it. -/
theorem tasks_of_grant {code : κ → Code σ Q R α} {st st' : State σ Q R κ α} {t : ℕ}
    {o : Option (Finish κ α)} (h : step code st (.grant t) = some (st', o)) :
    ∃ c m p, st.tasks t = some (c, .waiting m p) := by
  unfold step at h
  dsimp only at h
  split at h
  · exact ⟨_, _, _, by assumption⟩
  · cases h

section followed
variable {code : κ → Code σ Q R α} {st st' : State σ Q R κ α} {m : Move R κ}
  {o : Option (Finish κ α)}

/-- A move takes at most one task out, or continues one task to its next wait. -/
theorem step_continues (hf : st.Followed code) (h : step code st m = some (st', o)) :
    (o = none ∧ ∀ u x, st'.tasks u = some x → st.tasks u = some x) ∨
      ∃ t c es p s, Continues code st t c m es p ∧ st.settle t c (advance t p s) = (st', o) := by
  cases m with
  | tick d =>
      cases h
      exact .inl ⟨rfl, fun _ _ hu => hu⟩
  | start t c =>
      unfold step at h
      dsimp only at h
      split at h
      · exact .inr ⟨t, c, [], code c, st.shared, .start, Option.some.inj h⟩
      · cases h
  | grant t =>
      unfold step at h
      dsimp only at h
      split at h
      · rename_i c m p htask
        split at h
        · obtain ⟨es, hes⟩ := hf t c _ htask
          exact .inr ⟨t, c, _, p, _, .grant htask hes, Option.some.inj h⟩
        · cases h
      · cases h
  | reply t x =>
      unfold step at h
      dsimp only at h
      split at h
      · rename_i c since q k htask
        obtain ⟨es, hes⟩ := hf t c _ htask
        exact .inr ⟨t, c, _, k x, _, .reply x htask hes, Option.some.inj h⟩
      · cases h
  | drop t =>
      unfold step at h
      dsimp only at h
      split at h
      · cases h
        refine .inl ⟨rfl, fun u x hu => ?_⟩
        dsimp only at hu
        rw [Function.update_apply] at hu
        split at hu
        · cases hu
        · exact hu
      · cases h

/-- What is settled for a task, and what stays as it was. -/
theorem tasks_settle {t : ℕ} {c : κ} {ws : Suspended σ Q R α × Shared σ}
    (h : st.settle t c ws = (st', o)) {u : ℕ} {x : κ × Suspended σ Q R α}
    (hu : st'.tasks u = some x) : u = t ∧ x = (c, ws.1) ∨ u ≠ t ∧ st.tasks u = some x := by
  obtain ⟨w, s⟩ := ws
  by_cases hut : u = t
  · subst hut
    cases w with
    | ended r =>
        cases h
        dsimp only at hu
        rw [Function.update_self] at hu
        cases hu
    | waiting m p | asked since q k =>
        cases h
        dsimp only at hu
        rw [Function.update_self] at hu
        exact .inl ⟨rfl, (Option.some.inj hu).symm⟩
  · cases w with
    | ended r | waiting m p | asked since q k =>
        cases h
        dsimp only at hu
        rw [Function.update_of_ne hut] at hu
        exact .inr ⟨hut, hu⟩

theorem followed_initial (code : κ → Code σ Q R α) (v : σ) (now : ℕ) :
    (State.initial v now : State σ Q R κ α).Followed code := nofun

theorem State.Followed.step (hf : st.Followed code)
    (h : SharedCell.step code st m = some (st', o)) : st'.Followed code := by
  intro u c w hu
  obtain ⟨-, hsame⟩ | ⟨t, c', es, p, s, hcont, hsettle⟩ := step_continues hf h
  · exact hf u c w (hsame u _ hu)
  · obtain ⟨rfl, hx⟩ | ⟨-, hu⟩ := tasks_settle hsettle hu
    · obtain ⟨rfl, rfl⟩ := Prod.mk.inj hx
      obtain ⟨es', -, hstop⟩ := advance_stopOf u p s
      exact ⟨es ++ es', hstop.prepend hcont.after⟩
    · exact hf u c w hu

/-- A task keeps the call it was started with. -/
theorem State.Followed.call (hf : st.Followed code)
    (h : SharedCell.step code st m = some (st', o)) {u : ℕ} {c : κ} {w : Suspended σ Q R α}
    (hu : st'.tasks u = some (c, w)) : m = .start u c ∨ ∃ w', st.tasks u = some (c, w') := by
  obtain ⟨-, hsame⟩ | ⟨t, c', es, p, s, hcont, hsettle⟩ := step_continues hf h
  · exact .inr ⟨w, hsame u _ hu⟩
  · obtain ⟨rfl, hx⟩ | ⟨-, hu⟩ := tasks_settle hsettle hu
    · obtain ⟨rfl, -⟩ := Prod.mk.inj hx
      cases hcont with
      | start => exact .inl rfl
      | grant htask _ => exact .inr ⟨_, htask⟩
      | reply x htask _ => exact .inr ⟨_, htask⟩
    · exact .inr ⟨w, hu⟩

/-- The request a task waits on is one that its call makes; `answers` serve to finish it. -/
theorem State.Followed.asked (hf : st.Followed code) {t since : ℕ} {c : κ} {q : Q}
    {k : R → Code σ Q R α} (htask : st.tasks t = some (c, .asked since q k))
    (answers : (o : Op σ Q) → (effects σ Q R).Answer o) :
    ∃ es es' r, Program.Trace (code c) (es ++ ⟨.request q, answers (.request q)⟩ :: es') r := by
  obtain ⟨es, hafter⟩ := hf t c _ htask
  have hrest := Program.trace_play (fun _ o => answers o) (k (answers (.request q))) []
  exact ⟨es, _, _, Program.After.trace hafter (.ask (answers (.request q)) hrest)⟩

/-- A call that ends with a request ends when the reply is delivered. -/
theorem State.Followed.finish (hf : st.Followed code) {t : ℕ} {c : κ} {r : Option α}
    (h : SharedCell.step code st m = some (st', some ⟨t, c, r⟩)) {P : Q → R → Prop}
    (hlast : ∀ es, Program.Trace (code c) es r →
      ∃ es' q x, es = es' ++ [⟨.request q, x⟩] ∧ P q x) :
    ∃ since q k x, m = .reply t x ∧ st.tasks t = some (c, .asked since q k) ∧ P q x := by
  obtain ⟨hnone, -⟩ | ⟨t', c', es, p, s, hcont, hsettle⟩ := step_continues hf h
  · cases hnone
  · obtain ⟨es₂, hquiet, hstop⟩ := advance_stopOf t' p s
    generalize advance t' p s = ws at hsettle hstop
    obtain ⟨w, s'⟩ := ws
    cases w with
    | waiting m p => cases hsettle
    | asked since q k => cases hsettle
    | ended r' =>
        cases hsettle
        obtain ⟨es', q, x, heq, hP⟩ := hlast _ (hcont.after.trace hstop)
        obtain rfl | ⟨front, e, rfl⟩ := List.eq_nil_or_concat es₂
        · rw [List.append_nil] at heq
          cases hcont with
          | start => exact absurd heq.symm (List.append_ne_nil_of_right_ne_nil _ nofun)
          | grant htask h₀ =>
              cases List.singleton_inj.mp (List.append_inj' heq rfl).2
          | reply x' htask h₀ =>
              cases List.singleton_inj.mp (List.append_inj' heq rfl).2
              exact ⟨_, _, _, _, rfl, htask, hP⟩
        · -- the last exchange waits for nothing, so it is no request
          rw [List.concat_eq_append, ← List.append_assoc] at heq
          have hlast := List.singleton_inj.mp (List.append_inj' heq rfl).2
          have hno := hquiet e (by simp)
          rw [hlast] at hno
          cases hno

end followed

end SharedCell
