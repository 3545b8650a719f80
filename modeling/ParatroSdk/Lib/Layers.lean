import ParatroSdk.Lib.Guards

/-! # Programs layered over calls

A program is `Layered` over a family of calls when it runs as a sequence of whole calls and
of requests of its own, and holds no guard between them.  Its history is the list of what
these calls returned and what answered these requests, the latest first; a `Layer` says
which call and which request may come next after a history, and with what it may end.

The tasks of such programs are tasks of two systems at once: of the programs, and of the
calls.  `Projects` relates the two states, and `Projects.step` proves that every move of the
first system is one move of the second, or none where a program puts a request of its own,
starts with one, ends, or is dropped between calls.  The lock, the cell and the clock are the
same in both. -/

namespace SharedCell

open Interaction

variable {σ Q R κ ι α β : Type}

/-- One step of a program over calls: a call returned, or a request was answered. -/
inductive Event (Q R ι β : Type) where
  | called (i : ι) (b : β)
  | asked (q : Q) (x : R)

/-- The calls `sub`, and what the program of `c` may do after a history: make a call, put a
request, or return. -/
structure Layer (σ Q R κ ι α β : Type) where
  sub : ι → Code σ Q R β
  calls : κ → List (Event Q R ι β) → ι → Prop
  asks : κ → List (Event Q R ι β) → Q → Prop
  ends : κ → List (Event Q R ι β) → α → Prop

namespace Layer

variable (L : Layer σ Q R κ ι α β)

mutual

/-- Between two calls: the program ends or puts a request of its own. -/
inductive Outer (c : κ) : List (Event Q R ι β) → Code σ Q R α → Prop where
  | ret {h : List (Event Q R ι β)} {a : α} (ha : L.ends c h a) : Outer c h (.ret a)
  | halt {h : List (Event Q R ι β)} : Outer c h .halt
  | request {h : List (Event Q R ι β)} {q : Q} {k : R → Code σ Q R α} (hq : L.asks c h q)
      (hk : ∀ x, Layered c (.asked q x :: h) (k x)) : Outer c h (.ask (.request q) k)

/-- The program makes a call next, unless it ends or puts a request of its own. -/
inductive Layered (c : κ) : List (Event Q R ι β) → Code σ Q R α → Prop where
  | outer {h : List (Event Q R ι β)} {p : Code σ Q R α} (hp : Outer c h p) : Layered c h p
  | call {h : List (Event Q R ι β)} {i : ι} {f : β → Code σ Q R α} (hi : L.calls c h i)
      (hf : ∀ b, Outer c (.called i b :: h) (f b)) : Layered c h (L.sub i >>= f)

end

/-- How a task with history `h` stands to the call it is executing. -/
inductive Projected (h : List (Event Q R ι β)) :
    Option (κ × Suspended σ Q R α) → Option (ι × Suspended σ Q R β) → Prop where
  | absent : Projected h none none
  | outer {c : κ} {since : ℕ} {q : Q} {k : R → Code σ Q R α} (hq : L.asks c h q)
      (hk : ∀ x, L.Layered c (.asked q x :: h) (k x)) : Projected h (some (c, .asked since q k)) none
  | waiting {c : κ} {i : ι} {m : Mode} {p : Code σ Q R β} {f : β → Code σ Q R α}
      (hi : L.calls c h i) (hf : ∀ b, L.Outer c (.called i b :: h) (f b)) :
      Projected h (some (c, .waiting m (p >>= f))) (some (i, .waiting m p))
  | asked {c : κ} {i : ι} {since : ℕ} {q : Q} {k : R → Code σ Q R β} {f : β → Code σ Q R α}
      (hi : L.calls c h i) (hf : ∀ b, L.Outer c (.called i b :: h) (f b)) :
      Projected h (some (c, .asked since q fun x => k x >>= f)) (some (i, .asked since q k))

/-- A state of the programs over a state of the calls, `hist` being the histories. -/
structure Projects (hist : ℕ → List (Event Q R ι β)) (st : State σ Q R κ α)
    (st' : State σ Q R ι β) : Prop where
  shared : st.shared = st'.shared
  tasks : ∀ t, L.Projected (hist t) (st.tasks t) (st'.tasks t)

/-- The move of the calls that a move of the programs makes. -/
inductive Via (hist : ℕ → List (Event Q R ι β)) (st : State σ Q R κ α) :
    Move R κ → Move R ι → Prop where
  | tick (d : ℕ) : Via hist st (.tick d) (.tick d)
  | start {t : ℕ} {c : κ} {i : ι} (hi : L.calls c [] i) : Via hist st (.start t c) (.start t i)
  | grant (t : ℕ) : Via hist st (.grant t) (.grant t)
  | reply (t : ℕ) (x : R) : Via hist st (.reply t x) (.reply t x)
  | call {t : ℕ} {c : κ} {since : ℕ} {q : Q} {k : R → Code σ Q R α} {x : R} {i : ι}
      (ht : st.tasks t = some (c, .asked since q k))
      (hi : L.calls c (.asked q x :: hist t) i) : Via hist st (.reply t x) (.start t i)
  | drop (t : ℕ) : Via hist st (.drop t) (.drop t)

/-- The event is in the history of task `t` after the move `m`: it was before, and `m` does not
start the task anew, or `m` answered a request of the task, or a call of it returned in `o`. -/
inductive Happened (hist : ℕ → List (Event Q R ι β)) (st : State σ Q R κ α) (st' : State σ Q R ι β)
    (m : Move R κ) (o : Option (Finish ι β)) (t : ℕ) : Event Q R ι β → Prop where
  | before {e : Event Q R ι β} (he : e ∈ hist t) (hm : ∀ c, m ≠ .start t c) :
      Happened hist st st' m o t e
  | asked {c : κ} {since : ℕ} {q : Q} {k : R → Code σ Q R α} {x : R}
      (ht : st.tasks t = some (c, .asked since q k)) (ht' : st'.tasks t = none)
      (hm : m = .reply t x) : Happened hist st st' m o t (.asked q x)
  | called {i : ι} {b : β} (ho : o = some ⟨t, i, some b⟩) :
      Happened hist st st' m o t (.called i b)

/-- The states after a move are related again, by the histories of what happened; a program
that ended did so after its history. -/
def Lands (hist : ℕ → List (Event Q R ι β)) (st : State σ Q R κ α) (st' : State σ Q R ι β)
    (m : Move R κ) (r : State σ Q R κ α × Option (Finish κ α))
    (r' : State σ Q R ι β × Option (Finish ι β)) : Prop :=
  ∃ hist', L.Projects hist' r.1 r'.1 ∧ (∀ u e, e ∈ hist' u ↔ Happened hist st st' m r'.2 u e) ∧
    ∀ u c a, r.2 = some ⟨u, c, some a⟩ → L.ends c (hist' u) a

end Layer

/-! ### Running a sequence -/

/-- Go on with `f` where a run of the program before it stopped. -/
def resume (t : ℕ) (f : β → Code σ Q R α) :
    Suspended σ Q R β × Shared σ → Suspended σ Q R α × Shared σ
  | (.ended (some b), s) => advance t (f b) s
  | (.ended none, s) => (.ended none, s)
  | (.waiting m p, s) => (.waiting m (p >>= f), s)
  | (.asked since q k, s) => (.asked since q fun x => k x >>= f, s)

theorem advance_bind {t : ℕ} {p : Code σ Q R β} {held : Bool} (hp : p.Balanced false held)
    {s : Shared σ} (hs : held = false → s.lock.Without t) (f : β → Code σ Q R α) :
    advance t (p >>= f) s = resume t f (advance t p s) := by
  induction p generalizing held s with
  | ret b =>
      have hdrop : s.lock.drop t = s.lock := Lock.drop_of_without (hs hp)
      simp only [Program.ret_bind, advance_ret, resume, hdrop]
  | halt => rfl
  | ask o k ih =>
      obtain ⟨-, hk⟩ := hp
      cases o with
      | acquire m => rfl
      | request q => rfl
      | release => exact ih () (hk ()) fun _ => Lock.without_drop s.lock t
      | load => exact ih s.cell (hk s.cell) hs
      | store v => exact ih () (hk ()) hs
      | clock => exact ih s.clock (hk s.clock) hs

namespace Layer

variable {L : Layer σ Q R κ ι α β}

/-- A program between two calls stops without touching what the tasks share. -/
theorem Outer.advance {c : κ} {h : List (Event Q R ι β)} {p : Code σ Q R α} (hp : L.Outer c h p)
    {t : ℕ} {s : Shared σ} (hs : s.lock.Without t) :
    (advance t p s).2 = s ∧ L.Projected h ((advance t p s).1.left c) none ∧
      ∀ a, (advance t p s).1 = .ended (some a) → L.ends c h a := by
  have hdrop : s.lock.drop t = s.lock := Lock.drop_of_without hs
  cases hp with
  | ret ha =>
      refine ⟨?_, .absent, ?_⟩
      · rw [advance_ret, hdrop]
      · rintro a' ⟨⟩
        exact ha
  | halt =>
      refine ⟨?_, .absent, nofun⟩
      rw [advance_halt, hdrop]
  | request hq hk => exact ⟨rfl, .outer hq hk, nofun⟩

/-- Where a call stops, the program goes on to its own next wait. -/
theorem projected_resume {c : κ} {i : ι} {h : List (Event Q R ι β)} {f : β → Code σ Q R α}
    (hi : L.calls c h i) (hf : ∀ b, L.Outer c (.called i b :: h) (f b)) {t : ℕ}
    {w : Suspended σ Q R β} {s : Shared σ} (hw : w.Guarded s.lock t) :
    (resume t f (w, s)).2 = s ∧ ∃ h', L.Projected h' ((resume t f (w, s)).1.left c) (w.left i) ∧
      (∀ e, e ∈ h' ↔ e ∈ h ∨ ∃ b, e = .called i b ∧ w = .ended (some b)) ∧
      ∀ a, (resume t f (w, s)).1 = .ended (some a) → L.ends c h' a := by
  cases w with
  | waiting m p => exact ⟨rfl, h, .waiting hi hf, by simp, nofun⟩
  | asked since q k => exact ⟨rfl, h, .asked hi hf, by simp, nofun⟩
  | ended r =>
      cases r with
      | none => exact ⟨rfl, h, .absent, by simp, nofun⟩
      | some b =>
          obtain ⟨hshared, hleft, hends⟩ := (hf b).advance hw
          refine ⟨hshared, .called i b :: h, hleft, fun e => ?_, hends⟩
          rw [List.mem_cons, or_comm]
          refine or_congr_right ⟨?_, ?_⟩
          · rintro rfl
            exact ⟨b, rfl, rfl⟩
          · rintro ⟨b', rfl, heq⟩
            cases heq
            rfl

/-- What the caller sees of a task that ended with a value. -/
theorem of_finish {t u : ℕ} {c c' : κ} {w : Suspended σ Q R α} {a : α}
    (h : w.finish t c = some ⟨u, c', some a⟩) : u = t ∧ c' = c ∧ w = .ended (some a) := by
  cases w with
  | ended r =>
      cases h
      exact ⟨rfl, rfl, rfl⟩
  | waiting m p => cases h
  | asked since q k => cases h

/-! ### The simulation -/

theorem projects_initial (v : σ) (now : ℕ) (hist : ℕ → List (Event Q R ι β)) :
    L.Projects hist (State.initial v now : State σ Q R κ α) (State.initial v now) :=
  ⟨rfl, fun _ => .absent⟩

section simulation
variable {hist : ℕ → List (Event Q R ι β)} {st : State σ Q R κ α} {st' : State σ Q R ι β}
  {m : Move R κ} {r : State σ Q R κ α × Option (Finish κ α)}
  {r' : State σ Q R ι β × Option (Finish ι β)}

/-- What happened, by whether a call returned. -/
theorem happened_iff {o : Option (Finish ι β)} {t : ℕ} {e : Event Q R ι β} :
    Happened hist st st' m o t e ↔
      Happened hist st st' m none t e ∨ ∃ i b, e = .called i b ∧ o = some ⟨t, i, some b⟩ := by
  constructor
  · intro h
    cases h with
    | before he hm => exact .inl (.before he hm)
    | asked ht ht' hm => exact .inl (.asked ht ht' hm)
    | called ho => exact .inr ⟨_, _, rfl, ho⟩
  · rintro (h | ⟨i, b, rfl, ho⟩)
    · cases h with
      | before he hm => exact .before he hm
      | asked ht ht' hm => exact .asked ht ht' hm
      | called ho => cases ho
    · exact .called ho

/-- Task `t` is put back in both states. -/
theorem Projects.update (h : L.Projects hist st st') {t : ℕ} {s : Shared σ}
    {x : Option (κ × Suspended σ Q R α)} {y : Option (ι × Suspended σ Q R β)}
    {h' : List (Event Q R ι β)} (hx : L.Projected h' x y) :
    L.Projects (Function.update hist t h') ⟨s, Function.update st.tasks t x⟩
      ⟨s, Function.update st'.tasks t y⟩ := by
  refine ⟨rfl, fun u => ?_⟩
  by_cases hut : u = t
  · simp only [hut, Function.update_self]
    exact hx
  · simp only [Function.update_of_ne hut]
    exact h.tasks u

theorem lands_of_update {t : ℕ} {h' : List (Event Q R ι β)}
    (h : L.Projects (Function.update hist t h') r.1 r'.1) (hm : m.task = some t)
    (ho : ∀ u i b, r'.2 = some ⟨u, i, b⟩ → u = t)
    (hnew : ∀ e, e ∈ h' ↔ Happened hist st st' m r'.2 t e)
    (hends : ∀ u c a, r.2 = some ⟨u, c, some a⟩ → u = t ∧ L.ends c h' a) :
    L.Lands hist st st' m r r' := by
  refine ⟨_, h, fun u e => ?_, fun u c a hr => ?_⟩
  · by_cases hut : u = t
    · rw [hut, Function.update_self]
      exact hnew e
    · rw [Function.update_of_ne hut]
      have hother : ∀ m', m'.task = some u → m ≠ m' := by
        rintro m' hm' rfl
        exact hut (Option.some.inj (hm'.symm.trans hm))
      constructor
      · intro he
        exact .before he fun c => hother (.start u c) rfl
      · intro he
        cases he with
        | before he _ => exact he
        | @asked c since q k x _ _ hreply => exact absurd hreply (hother (.reply u x) rfl)
        | called hr => exact absurd (ho u _ _ hr) hut
  · obtain ⟨rfl, ha⟩ := hends u c a hr
    rw [Function.update_self]
    exact ha

/-- The call of task `t` runs on in both systems. -/
theorem Projects.run (h : L.Projects hist st st') {t : ℕ} {p : Code σ Q R β} {held : Bool}
    {f : β → Code σ Q R α} {h₀ : List (Event Q R ι β)} {s : Shared σ} {c : κ} {i : ι}
    (hp : p.Balanced false held) (hs : held = false → s.lock.Without t) (hm : m.task = some t)
    (hold : ∀ e, e ∈ h₀ ↔ Happened hist st st' m none t e) (hi : L.calls c h₀ i)
    (hf : ∀ b, L.Outer c (.called i b :: h₀) (f b)) :
    L.Lands hist st st' m (st.settle t c (SharedCell.advance t (p >>= f) s))
      (st'.settle t i (SharedCell.advance t p s)) := by
  have hguard := guarded_advance hp hs
  rw [advance_bind hp hs]
  generalize SharedCell.advance t p s = ws at hguard
  obtain ⟨w, s'⟩ := ws
  obtain ⟨hshared, h', hleft, hnew, hends⟩ := projected_resume hi hf hguard
  generalize resume t f (w, s') = rs at hshared hleft hends
  obtain ⟨w', s''⟩ := rs
  cases hshared
  rw [settle_eq, settle_eq]
  refine lands_of_update (h.update hleft) hm (fun u i' b ho => ?_) (fun e => ?_) fun u c' a ho => ?_
  · cases w with
    | ended r => cases ho; rfl
    | waiting m p => cases ho
    | asked since q k => cases ho
  · rw [hnew, happened_iff, hold]
    refine or_congr_right ⟨?_, ?_⟩
    · rintro ⟨b, rfl, rfl⟩
      exact ⟨i, b, rfl, rfl⟩
    · rintro ⟨i', b, rfl, ho⟩
      obtain ⟨-, rfl, hw⟩ := of_finish ho
      exact ⟨b, rfl, hw⟩
  · obtain ⟨rfl, rfl, hw⟩ := of_finish ho
    exact ⟨rfl, hends a hw⟩

/-- A program between two calls goes on without a move of the calls. -/
theorem Projects.pass (h : L.Projects hist st st') {t : ℕ} {p : Code σ Q R α}
    {h₀ : List (Event Q R ι β)} {c : κ} (hs : st'.shared.lock.Without t) (ht : st'.tasks t = none)
    (hm : m.task = some t) (hold : ∀ e, e ∈ h₀ ↔ Happened hist st st' m none t e)
    (hp : L.Outer c h₀ p) :
    L.Lands hist st st' m (st.settle t c (SharedCell.advance t p st'.shared)) (st', none) := by
  obtain ⟨hshared, hleft, hends⟩ := hp.advance hs
  generalize SharedCell.advance t p st'.shared = ws at hshared hleft hends
  obtain ⟨w, s⟩ := ws
  cases hshared
  have hupd := h.update (s := st'.shared) hleft (t := t)
  rw [← ht, Function.update_eq_self] at hupd
  rw [settle_eq]
  refine lands_of_update hupd hm nofun hold fun u c' a ho => ?_
  obtain ⟨rfl, rfl, hw⟩ := of_finish ho
  exact ⟨rfl, hends a hw⟩

/-- A program starts or goes on, with a call or without. -/
theorem Projects.continue (h : L.Projects hist st st') (hg : st'.Guarded)
    (hbal : ∀ i, (L.sub i).Balanced false false) {t : ℕ} (ht : st'.tasks t = none)
    {p : Code σ Q R α} {h₀ : List (Event Q R ι β)} {c : κ} (hm : m.task = some t)
    (hold : ∀ e, e ∈ h₀ ↔ Happened hist st st' m none t e) (hp : L.Layered c h₀ p) :
    L.Lands hist st st' m (st.settle t c (SharedCell.advance t p st'.shared)) (st', none) ∨
      ∃ i r', L.calls c h₀ i ∧ SharedCell.step L.sub st' (.start t i) = some r' ∧
        L.Lands hist st st' m (st.settle t c (SharedCell.advance t p st'.shared)) r' := by
  cases hp with
  | outer hp => exact .inl (h.pass (hg.absent t ht) ht hm hold hp)
  | @call _ i f hi hf =>
      refine .inr ⟨i, _, hi, step_iff.mpr (.start ht), ?_⟩
      exact h.run (hbal i) (fun _ => hg.absent t ht) hm hold hi hf

/-- **A move of the programs is one move of the calls, or none.** -/
theorem Projects.step (h : L.Projects hist st st') (hg : st'.Guarded)
    (hbal : ∀ i, (L.sub i).Balanced false false) {code : κ → Code σ Q R α}
    (hcode : ∀ c, L.Layered c [] (code c)) (hstep : SharedCell.step code st m = some r) :
    ((∃ t, m.task = some t ∧ st'.tasks t = none) ∧ L.Lands hist st st' m r (st', none)) ∨
      ∃ m' r', L.Via hist st m m' ∧ SharedCell.step L.sub st' m' = some r' ∧
        L.Lands hist st st' m r r' := by
  -- a task that is in a call adds nothing of its own to its history
  have hkeep : ∀ {m : Move R κ} {t : ℕ}, (∀ c, m ≠ .start t c) → st'.tasks t ≠ none →
      ∀ e, e ∈ hist t ↔ Happened hist st st' m none t e := by
    intro m t hm hin e
    constructor
    · exact fun he => .before he hm
    · intro he
      cases he with
      | before he _ => exact he
      | asked _ ht' _ => exact absurd ht' hin
      | called ho => cases ho
  cases step_iff.mp hstep with
  | tick d =>
      refine .inr ⟨_, _, .tick d, step_iff.mpr (.tick d), hist, ⟨?_, h.tasks⟩, fun u e => ?_, nofun⟩
      · simp only [h.shared]
      · constructor
        · exact fun he => .before he nofun
        · intro he
          cases he with
          | before he _ => exact he
          | asked _ _ hm => cases hm
          | called ho => cases ho
  | @start t c ht =>
      have ht' : st'.tasks t = none := by
        have hx := h.tasks t
        rw [ht] at hx
        generalize st'.tasks t = y at hx
        cases hx
        rfl
      have hold : ∀ e, e ∈ ([] : List (Event Q R ι β)) ↔
          Happened hist st st' (.start t c) none t e := by
        intro e
        constructor
        · exact fun he => absurd he List.not_mem_nil
        · intro he
          cases he with
          | before _ hm => exact absurd rfl (hm c)
          | asked _ _ hm => cases hm
          | called ho => cases ho
      rw [h.shared]
      obtain hland | ⟨i, r', hi, hs, hland⟩ := h.continue hg hbal ht' rfl hold (hcode c)
      · exact .inl ⟨⟨t, rfl, ht'⟩, hland⟩
      · exact .inr ⟨_, r', .start hi, hs, hland⟩
  | @grant t c m p ht hl =>
      have hx := h.tasks t
      rw [ht] at hx
      generalize ht' : st'.tasks t = y at hx
      cases hx with
      | @waiting _ i _ p f hi hf =>
          have hw := hg.present t i _ ht'
          have hold := hkeep (m := .grant t) (t := t) nofun (by simp [ht'])
          rw [h.shared] at hl ⊢
          refine .inr ⟨_, _, .grant t, step_iff.mpr (.grant ht' hl), ?_⟩
          exact h.run hw.2 nofun rfl hold hi hf
  | @reply t c since q k ht x =>
      have hx := h.tasks t
      rw [ht] at hx
      generalize ht' : st'.tasks t = y at hx
      rw [h.shared]
      cases hx with
      | outer hq hk =>
          have hold : ∀ e, e ∈ .asked q x :: hist t ↔
              Happened hist st st' (.reply t x) none t e := by
            intro e
            constructor
            · intro he
              obtain rfl | he := List.mem_cons.mp he
              · exact .asked ht ht' rfl
              · exact .before he nofun
            · intro he
              cases he with
              | before he _ => exact List.mem_cons_of_mem _ he
              | called ho => cases ho
              | asked hu _ hm =>
                  rw [ht] at hu
                  cases hu
                  cases hm
                  exact List.mem_cons_self
          obtain hland | ⟨i, r', hi, hs, hland⟩ := h.continue hg hbal ht' rfl hold (hk x)
          · exact .inl ⟨⟨t, rfl, ht'⟩, hland⟩
          · exact .inr ⟨_, r', .call ht hi, hs, hland⟩
      | @asked _ i _ _ k f hi hf =>
          obtain ⟨held, hs, hk⟩ := hg.present t i _ ht'
          have hold := hkeep (m := .reply t x) (t := t) nofun (by simp [ht'])
          refine .inr ⟨_, _, .reply t x, step_iff.mpr (.reply ht' x), ?_⟩
          exact h.run (hk x) hs rfl hold hi hf
  | @drop t c w ht =>
      have hupd := h.update (s := { st'.shared with lock := st'.shared.lock.drop t }) (t := t)
        (.absent : L.Projected (hist t) none none)
      have hold : ∀ e, e ∈ hist t ↔ Happened hist st st' (.drop t) none t e := by
        intro e
        constructor
        · exact fun he => .before he nofun
        · intro he
          cases he with
          | before he _ => exact he
          | asked _ _ hm => cases hm
          | called ho => cases ho
      rw [h.shared]
      cases ht' : st'.tasks t with
      | none =>
          refine .inl ⟨⟨t, rfl, ht'⟩, ?_⟩
          have htasks : Function.update st'.tasks t none = st'.tasks := by
            rw [← ht', Function.update_eq_self]
          have hdrop := Lock.drop_of_without (hg.absent t ht')
          rw [htasks] at hupd
          simp only [hdrop] at hupd ⊢
          exact lands_of_update hupd rfl nofun hold nofun
      | some y =>
          refine .inr ⟨_, _, .drop t, step_iff.mpr (.drop ht'), ?_⟩
          exact lands_of_update hupd rfl nofun hold nofun

end simulation

end Layer

end SharedCell
