import ParatroSdk.Lib.Program

/-! # Relating programs by the answers they get

`Program.Rel A R p q`: the two programs put the same questions, and as long as they get answers
related by `A` they go on like that and return results related by `R`.  The rules follow the
constructors and `bind`. -/

namespace Interaction.Program

variable {S : Signature} {α β γ δ : Type}

inductive Rel (A : (o : S.Op) → S.Answer o → S.Answer o → Prop) (R : α → β → Prop) :
    Program S α → Program S β → Prop
  | ret {a : α} {b : β} (h : R a b) : Rel A R (.ret a) (.ret b)
  | halt : Rel A R .halt .halt
  | ask {o : S.Op} {k : S.Answer o → Program S α} {k' : S.Answer o → Program S β}
      (h : ∀ x y, A o x y → Rel A R (k x) (k' y)) : Rel A R (.ask o k) (.ask o k')

variable {A : (o : S.Op) → S.Answer o → S.Answer o → Prop} {R : α → β → Prop} {T : γ → δ → Prop}

/-- Where related answers are the same, one continuation each is enough to look at. -/
theorem Rel.ask_eq {o : S.Op} {k : S.Answer o → Program S α} {k' : S.Answer o → Program S β}
    (hA : ∀ x y, A o x y → x = y) (h : ∀ x, Rel A R (k x) (k' x)) :
    Rel A R (.ask o k) (.ask o k') := by
  refine .ask fun x y hxy => ?_
  obtain rfl := hA x y hxy
  exact h x

theorem Rel.bind {p : Program S α} {q : Program S β} {f : α → Program S γ} {g : β → Program S δ}
    (h : Rel A R p q) (hfg : ∀ a b, R a b → Rel A T (f a) (g b)) :
    Rel A T (p >>= f) (q >>= g) := by
  induction h with
  | ret hab => exact hfg _ _ hab
  | halt => exact .halt
  | ask _ ih => exact .ask ih

end Interaction.Program
