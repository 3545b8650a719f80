import Mathlib.Computability.RegularExpressions

/-! # Words over character classes

A regular language is built from classes of single letters by product, sum and Kleene star.
The lemmas take such a language apart at the first letter of a word, which is what a
recogniser that reads a word from left to right does.

`oneOf` and `oneOrMore` are what `[..]` and `+` stand for in a `RegularExpression`; a class of
letters written out as a list matches the words of its property (`matches'_oneOf`). -/

namespace Regular

open scoped Computability

variable {α : Type} {p : α → Bool} {L M : Language α} {a : α} {l : List α}

/-- The words of one letter with the property. -/
def charClass (p : α → Bool) : Language α := {l | ∃ a, p a = true ∧ l = [a]}

theorem nil_notMem_charClass_mul : [] ∉ charClass p * L := by
  intro h
  obtain ⟨x, ⟨a, -, rfl⟩, y, -, hxy⟩ := Language.mem_mul.mp h
  cases hxy

theorem cons_mem_charClass_mul : a :: l ∈ charClass p * L ↔ p a = true ∧ l ∈ L := by
  constructor
  · intro h
    obtain ⟨x, ⟨b, hb, rfl⟩, y, hy, hxy⟩ := Language.mem_mul.mp h
    obtain ⟨rfl, rfl⟩ := List.cons.inj hxy
    exact ⟨hb, hy⟩
  · rintro ⟨ha, hl⟩
    exact Language.mem_mul.mpr ⟨[a], ⟨a, ha, rfl⟩, l, hl, rfl⟩

/-- A repetition before a language is nothing, or one round and the repetition again. -/
theorem kstar_mul (M L : Language α) : M∗ * L = L + M * (M∗ * L) := by
  conv_lhs => rw [← Language.one_add_self_mul_kstar_eq_kstar M]
  rw [add_mul, one_mul, mul_assoc]

theorem nil_mem_kstar_mul (h : [] ∈ L) : [] ∈ M∗ * L :=
  Language.mem_mul.mpr ⟨[], Language.nil_mem_kstar M, [], h, rfl⟩

/-- A word of a class repeated goes on with the class or with what comes after. -/
theorem cons_mem_kstar_mul :
    a :: l ∈ (charClass p)∗ * L ↔ a :: l ∈ L ∨ p a = true ∧ l ∈ (charClass p)∗ * L := by
  conv_lhs => rw [kstar_mul]
  rw [Language.mem_add, cons_mem_charClass_mul]

/-- A word of a repeated product begins a round with the class, or is empty. -/
theorem cons_mem_kstar_charClass_mul :
    a :: l ∈ (charClass p * M)∗ ↔ p a = true ∧ l ∈ M * (charClass p * M)∗ := by
  conv_lhs => rw [← Language.one_add_self_mul_kstar_eq_kstar]
  rw [Language.mem_add, mul_assoc, cons_mem_charClass_mul]
  refine or_iff_right fun h => ?_
  cases h

/-! ### Expressions -/

open RegularExpression

/-- `[..]`: one of the letters. -/
def oneOf : List α → RegularExpression α
  | [] => 0
  | a :: as => char a + oneOf as

/-- `P+`. -/
def oneOrMore (P : RegularExpression α) : RegularExpression α := P * P.star

@[simp] theorem matches'_oneOrMore (P : RegularExpression α) :
    (oneOrMore P).matches' = P.matches' * P.matches'∗ := rfl

theorem mem_matches'_oneOf {as : List α} : l ∈ (oneOf as).matches' ↔ ∃ a ∈ as, l = [a] := by
  induction as with
  | nil => simp [oneOf]
  | cons b as ih =>
      rw [oneOf, matches'_add, Language.mem_add, ih, matches'_char]
      constructor
      · rintro (hb | ⟨a, ha, hl⟩)
        · exact ⟨b, List.mem_cons_self, hb⟩
        · exact ⟨a, List.mem_cons_of_mem _ ha, hl⟩
      · rintro ⟨a, ha, hl⟩
        obtain rfl | ha := List.mem_cons.mp ha
        · exact .inl hl
        · exact .inr ⟨a, ha, hl⟩

/-- A class written out letter by letter matches the letters with the property. -/
theorem matches'_oneOf {as : List α} (h : ∀ a, a ∈ as ↔ p a = true) :
    (oneOf as).matches' = charClass p := by
  ext l
  rw [mem_matches'_oneOf]
  exact exists_congr fun a => and_congr_left' (h a)

/-- The letters of a range, and the test for it. -/
theorem mem_range {lo hi c : Char} :
    c ∈ (lo ...= hi).toList ↔ (decide (lo ≤ c) && decide (c ≤ hi)) = true := by
  rw [Std.Rcc.mem_toList_iff_mem, Std.Rcc.mem_iff, Bool.and_eq_true, decide_eq_true_iff,
    decide_eq_true_iff]

theorem matches'_char_eq [BEq α] [LawfulBEq α] (a : α) :
    (char a).matches' = charClass (· == a) := by
  ext l
  constructor
  · intro h
    exact ⟨a, beq_self_eq_true a, h⟩
  · rintro ⟨b, hb, hl⟩
    rw [eq_of_beq hb] at hl
    exact hl

end Regular
