import Mathlib.Data.List.Basic

/-! # Programs that ask their environment

A `Signature` lists the questions a program may put to its environment and the type of
the answer to each of them.  A `Program` is a finite-depth tree: it returns a value
(`ret`), aborts (`halt`), or asks a question and continues with the answer (`ask`).
Since a tree is well founded, a program always ends after finitely many questions.

`Trace p es r` says that `p` asks exactly the questions of `es`, gets the answers recorded
there, and ends with `r` (`none` when it aborts).  Nothing restricts the answers, so a
statement about every trace holds in every environment, whatever else runs beside the
program.  `play` is the executable counterpart for one environment that answers from the
exchanges made so far; `trace_play` links the two.  The `trace_*_iff` lemmas take a trace
apart along the program. -/

namespace Interaction

/-- The questions a program may ask, with the type of their answers. -/
structure Signature where
  Op : Type
  Answer : Op → Type

/-- A program asking questions of `S` and returning an `α`. -/
inductive Program (S : Signature) (α : Type) : Type where
  | ret (a : α)
  | halt
  | ask (o : S.Op) (k : S.Answer o → Program S α)

/-- A question together with the answer it got. -/
structure Exchange (S : Signature) where
  op : S.Op
  answer : S.Answer op

namespace Program

variable {S : Signature} {α β γ : Type}

/-- Sequencing: continue with `f` where the first program returns. -/
def bind : Program S α → (α → Program S β) → Program S β
  | ret a, f => f a
  | halt, _ => halt
  | ask o k, f => ask o (fun x => (k x).bind f)

instance : Monad (Program S) where
  pure := ret
  bind := bind

@[simp] theorem ret_bind (a : α) (f : α → Program S β) : (ret a >>= f) = f a := rfl

@[simp] theorem halt_bind (f : α → Program S β) : ((halt : Program S α) >>= f) = halt := rfl

@[simp] theorem ask_bind (o : S.Op) (k : S.Answer o → Program S α) (f : α → Program S β) :
    (ask o k >>= f) = ask o (fun x => k x >>= f) := rfl

theorem bind_ret (p : Program S α) : (p >>= ret) = p := by
  induction p with
  | ret a => rfl
  | halt => rfl
  | ask o k ih =>
      rw [ask_bind]
      exact congrArg (ask o) (funext ih)

@[simp] theorem bind_assoc (p : Program S α) (f : α → Program S β) (g : β → Program S γ) :
    (p >>= f >>= g) = (p >>= fun a => f a >>= g) := by
  induction p with
  | ret a => rfl
  | halt => rfl
  | ask o k ih =>
      simp only [ask_bind]
      exact congrArg (ask o) (funext ih)

instance : LawfulMonad (Program S) :=
  LawfulMonad.mk' _ bind_ret (fun _ _ => rfl) bind_assoc

/-! ### Traces -/

/-- `Trace p es r`: `p` makes the exchanges `es` and ends with `r`. -/
inductive Trace : Program S α → List (Exchange S) → Option α → Prop
  | ret (a : α) : Trace (ret a) [] (some a)
  | halt : Trace halt [] none
  | ask {o : S.Op} {k : S.Answer o → Program S α} (x : S.Answer o) {es : List (Exchange S)}
      {r : Option α} : Trace (k x) es r → Trace (ask o k) (⟨o, x⟩ :: es) r

@[simp] theorem trace_ret_iff {a : α} {es : List (Exchange S)} {r : Option α} :
    Trace (ret a) es r ↔ es = [] ∧ r = some a := by
  constructor
  · intro h
    cases h
    exact ⟨rfl, rfl⟩
  · rintro ⟨rfl, rfl⟩
    exact Trace.ret a

@[simp] theorem trace_halt_iff {es : List (Exchange S)} {r : Option α} :
    Trace (halt : Program S α) es r ↔ es = [] ∧ r = none := by
  constructor
  · intro h
    cases h
    exact ⟨rfl, rfl⟩
  · rintro ⟨rfl, rfl⟩
    exact Trace.halt

theorem trace_ask_iff {o : S.Op} {k : S.Answer o → Program S α} {es : List (Exchange S)}
    {r : Option α} :
    Trace (ask o k) es r ↔ ∃ x es', es = ⟨o, x⟩ :: es' ∧ Trace (k x) es' r := by
  constructor
  · intro h
    cases h with
    | ask x h => exact ⟨x, _, rfl, h⟩
  · rintro ⟨x, es', rfl, h⟩
    exact Trace.ask x h

/-- A trace of a sequence splits at the point where the first program ends. -/
theorem trace_bind_iff {p : Program S α} {f : α → Program S β} {es : List (Exchange S)}
    {r : Option β} :
    Trace (p >>= f) es r ↔
      (∃ a es₁ es₂, Trace p es₁ (some a) ∧ Trace (f a) es₂ r ∧ es = es₁ ++ es₂) ∨
        (Trace p es none ∧ r = none) := by
  induction p generalizing es with
  | ret a =>
      constructor
      · intro h
        exact .inl ⟨a, [], es, Trace.ret a, h, rfl⟩
      · rintro (⟨b, es₁, es₂, h₁, h₂, rfl⟩ | ⟨h, -⟩)
        · obtain ⟨rfl, hb⟩ := trace_ret_iff.mp h₁
          cases hb
          exact h₂
        · simp at h
  | halt =>
      rw [halt_bind, trace_halt_iff]
      constructor
      · rintro ⟨rfl, rfl⟩
        exact .inr ⟨Trace.halt, rfl⟩
      · rintro (⟨b, es₁, es₂, h₁, -, -⟩ | ⟨h, rfl⟩)
        · simp at h₁
        · exact ⟨(trace_halt_iff.mp h).1, rfl⟩
  | ask o k ih =>
      rw [ask_bind, trace_ask_iff]
      constructor
      · rintro ⟨x, es', rfl, h⟩
        obtain ⟨a, es₁, es₂, h₁, h₂, rfl⟩ | ⟨h₁, rfl⟩ := (ih x).mp h
        · exact .inl ⟨a, ⟨o, x⟩ :: es₁, es₂, Trace.ask x h₁, h₂, rfl⟩
        · exact .inr ⟨Trace.ask x h₁, rfl⟩
      · rintro (⟨a, es₁, es₂, h₁, h₂, rfl⟩ | ⟨h₁, rfl⟩)
        · obtain ⟨x, es', rfl, h⟩ := trace_ask_iff.mp h₁
          exact ⟨x, es' ++ es₂, rfl, (ih x).mpr (.inl ⟨a, es', es₂, h, h₂, rfl⟩)⟩
        · obtain ⟨x, es', rfl, h⟩ := trace_ask_iff.mp h₁
          exact ⟨x, es', rfl, (ih x).mpr (.inr ⟨h, rfl⟩)⟩

/-- An exchange of another operation than the first comes after the first. -/
theorem trace_skip {o : S.Op} {k : S.Answer o → Program S α} {pre post : List (Exchange S)}
    {e : Exchange S} {r : Option α} (h : Trace (ask o k) (pre ++ e :: post) r) (hne : e.op ≠ o) :
    ∃ x pre', pre = ⟨o, x⟩ :: pre' ∧ Trace (k x) (pre' ++ e :: post) r := by
  obtain ⟨x, es, heq, hx⟩ := trace_ask_iff.mp h
  cases pre with
  | nil =>
      obtain ⟨rfl, -⟩ := List.cons.inj heq
      exact absurd rfl hne
  | cons e' pre' =>
      obtain ⟨rfl, rfl⟩ := List.cons.inj heq
      exact ⟨x, pre', rfl, hx⟩

/-- The answers determine how far a program gets: of two traces with a common extension,
neither goes further than the other. -/
theorem Trace.prefix_unique {p : Program S α} {es es' xs ys : List (Exchange S)}
    {r r' : Option α} (h : Trace p es r) (h' : Trace p es' r') (heq : es ++ xs = es' ++ ys) :
    es = es' ∧ r = r' := by
  induction h generalizing es' with
  | ret a =>
      obtain ⟨rfl, rfl⟩ := trace_ret_iff.mp h'
      exact ⟨rfl, rfl⟩
  | halt =>
      obtain ⟨rfl, rfl⟩ := trace_halt_iff.mp h'
      exact ⟨rfl, rfl⟩
  | ask x _ ih =>
      obtain ⟨x', es₁, rfl, h₁⟩ := trace_ask_iff.mp h'
      rw [List.cons_append, List.cons_append] at heq
      obtain ⟨hx, heq'⟩ := List.cons.inj heq
      cases hx
      obtain ⟨rfl, rfl⟩ := ih h₁ heq'
      exact ⟨rfl, rfl⟩

/-! ### What is left of a program -/

/-- `After p es p'`: once `p` has made the exchanges `es`, `p'` is left to run. -/
inductive After : Program S α → List (Exchange S) → Program S α → Prop
  | nil (p : Program S α) : After p [] p
  | ask {o : S.Op} {k : S.Answer o → Program S α} (x : S.Answer o) {es : List (Exchange S)}
      {p : Program S α} : After (k x) es p → After (.ask o k) (⟨o, x⟩ :: es) p

theorem After.trans {p₁ p₂ p₃ : Program S α} {es es' : List (Exchange S)} (h : After p₁ es p₂)
    (h' : After p₂ es' p₃) : After p₁ (es ++ es') p₃ := by
  induction h with
  | nil p => exact h'
  | ask x _ ih => exact .ask x (ih h')

theorem After.trace {p p' : Program S α} {es es' : List (Exchange S)} {r : Option α}
    (h : After p es p') (h' : Trace p' es' r) : Trace p (es ++ es') r := by
  induction h with
  | nil p => exact h'
  | ask x _ ih => exact .ask x (ih h')

/-! ### Running against one environment -/

/-- Run a program against an environment that answers each question from the exchanges
made before it. -/
def play (env : List (Exchange S) → (o : S.Op) → S.Answer o) :
    Program S α → List (Exchange S) → List (Exchange S) × Option α
  | ret a, _ => ([], some a)
  | halt, _ => ([], none)
  | ask o k, h =>
      let x := env h o
      let rest := (k x).play env (h ++ [⟨o, x⟩])
      (⟨o, x⟩ :: rest.1, rest.2)

/-- What `play` computes is a trace, so a program has a trace in every environment. -/
theorem trace_play (env : List (Exchange S) → (o : S.Op) → S.Answer o) (p : Program S α) :
    ∀ h : List (Exchange S), Trace p (p.play env h).1 (p.play env h).2 := by
  induction p with
  | ret a => intro h; exact Trace.ret a
  | halt => intro h; exact Trace.halt
  | ask o k ih => intro h; exact Trace.ask _ (ih _ _)

/-- Every exchange of `play` has the answer of the environment. -/
theorem answer_of_mem_play (env : List (Exchange S) → (o : S.Op) → S.Answer o) (p : Program S α) :
    ∀ h : List (Exchange S), ∀ e ∈ (p.play env h).1, ∃ h', e.answer = env h' e.op := by
  induction p with
  | ret a =>
      intro h e he
      cases he
  | halt =>
      intro h e he
      cases he
  | ask o k ih =>
      intro h e he
      obtain rfl | he := List.mem_cons.mp he
      · exact ⟨h, rfl⟩
      · exact ih _ _ e he

end Program

end Interaction
