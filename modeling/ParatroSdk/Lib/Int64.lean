import Mathlib.Data.Int.Basic
import Mathlib.Algebra.Order.Group.Unbundled.Int
import Mathlib.Tactic.Ring

/-! # Checked 64-bit integers and their decimal notation

`ofIntChecked` is the exact value of an operation when it fits in 64 bits, and the checked
operations are defined by it.  Where a build traps overflow (`OverflowChecks.on`) a plain
subtraction is the checked one; where it does not (`off`) it wraps.

`parse` follows the integer parser of the standard library: an optional sign, at least one
digit, and a loop that accumulates with checked arithmetic, downwards for a negative
number.  `parse_eq_some_iff` says what the loop accepts: exactly the optionally signed
decimal numerals whose value fits, with that value; the decimal printer makes such numerals
(`denotes_repr`). -/

namespace Machine

/-- Whether the build traps on arithmetic overflow or lets it wrap. -/
inductive OverflowChecks where
  | on
  | off
deriving DecidableEq, Repr

/-- The integers that an `i64` can hold. -/
def Fits (i : ℤ) : Prop := -2 ^ 63 ≤ i ∧ i < 2 ^ 63

instance (i : ℤ) : Decidable (Fits i) := inferInstanceAs (Decidable (_ ∧ _))

theorem fits_toInt (a : Int64) : Fits a.toInt := ⟨a.le_toInt, a.toInt_lt⟩

/-- The `i64` with the given value, when there is one. -/
def ofIntChecked (i : ℤ) : Option Int64 := if Fits i then some (Int64.ofInt i) else none

theorem toInt_ofInt {i : ℤ} (h : Fits i) : (Int64.ofInt i).toInt = i :=
  Int64.toInt_ofInt_of_le h.1 h.2

theorem ofIntChecked_eq_some_iff {i : ℤ} {v : Int64} :
    ofIntChecked i = some v ↔ v.toInt = i := by
  unfold ofIntChecked
  constructor
  · intro h
    split at h
    · rename_i hf
      cases h
      exact toInt_ofInt hf
    · cases h
  · rintro rfl
    rw [if_pos (fits_toInt v), Int64.ofInt_toInt]

/-- `i64::checked_mul`, `checked_add`, `checked_sub`. -/
def checkedMul (a b : Int64) : Option Int64 := ofIntChecked (a.toInt * b.toInt)
def checkedAdd (a b : Int64) : Option Int64 := ofIntChecked (a.toInt + b.toInt)
def checkedSub (a b : Int64) : Option Int64 := ofIntChecked (a.toInt - b.toInt)

/-- The operator `a - b` on `i64`; `none` is a panic. -/
def sub : OverflowChecks → Int64 → Int64 → Option Int64
  | .on, a, b => checkedSub a b
  | .off, a, b => some (a - b)

/-- Where the exact difference fits, both builds compute it. -/
theorem sub_of_fits (m : OverflowChecks) {a b : Int64} (h : Fits (a.toInt - b.toInt)) :
    ∃ d, sub m a b = some d ∧ d.toInt = a.toInt - b.toInt := by
  cases m with
  | on => exact ⟨_, ofIntChecked_eq_some_iff.mpr (toInt_ofInt h), toInt_ofInt h⟩
  | off =>
      refine ⟨a - b, rfl, ?_⟩
      rw [Int64.toInt_sub]
      exact Int.bmod_eq_of_le (by have := h.1; omega) (by have := h.2; omega)

/-- Without overflow checks the difference is computed up to a multiple of `2 ^ 64`. -/
theorem toInt_sub_wrapped {a b : Int64} (k : ℤ) (h : Fits (a.toInt - b.toInt + k * 2 ^ 64)) :
    (a - b).toInt = a.toInt - b.toInt + k * 2 ^ 64 := by
  have hcast : k * 2 ^ 64 = k * ((2 ^ 64 : ℕ) : ℤ) := by norm_num
  rw [Int64.toInt_sub, ← Int.add_mul_bmod_self_right _ k, ← hcast]
  exact Int.bmod_eq_of_le (by have := h.1; omega) (by have := h.2; omega)

theorem sub_on_of_not_fits {a b : Int64} (h : ¬ Fits (a.toInt - b.toInt)) : sub .on a b = none := by
  rw [sub, checkedSub, ofIntChecked, if_neg h]

/-! ### Decimal numerals -/

/-- The accumulating loop of `i64::from_str`: multiply, then add or subtract the digit. -/
def digitsLoop (isPositive : Bool) : List Char → Int64 → Option Int64
  | [], result => some result
  | c :: cs, result =>
      if c.isDigit then do
        let mul ← checkedMul result 10
        let x := Int64.ofNat (c.toNat - '0'.toNat)
        let next ← if isPositive then checkedAdd mul x else checkedSub mul x
        digitsLoop isPositive cs next
      else none

/-- `str::parse::<i64>`. -/
def parse (s : String) : Option Int64 :=
  match s.toList with
  | [] => none
  | ['+'] => none
  | ['-'] => none
  | '+' :: rest => digitsLoop true rest 0
  | '-' :: rest => digitsLoop false rest 0
  | src => digitsLoop true src 0

/-- `s` is an optionally signed decimal numeral with value `v`. -/
def Denotes (s : String) (v : ℤ) : Prop :=
  ∃ ds : List Char, ds ≠ [] ∧ (∀ c ∈ ds, c.isDigit = true) ∧
    ((s.toList = ds ∨ s.toList = '+' :: ds) ∧ v = Nat.ofDigitChars 10 ds 0 ∨
      s.toList = '-' :: ds ∧ v = -(Nat.ofDigitChars 10 ds 0 : ℤ))

/-- A natural number with the sign of the loop. -/
def signed (isPositive : Bool) (n : ℕ) : ℤ := if isPositive then n else -n

theorem le_ofDigitChars (ds : List Char) : ∀ n : ℕ, n ≤ Nat.ofDigitChars 10 ds n := by
  induction ds with
  | nil => intro n; simp
  | cons c ds ih =>
      intro n
      rw [Nat.ofDigitChars_cons]
      have := ih (10 * n + (c.toNat - '0'.toNat))
      omega

theorem fits_of_le {b : Bool} {n m : ℕ} (hnm : n ≤ m) (h : Fits (signed b m)) :
    Fits (signed b n) := by
  unfold Fits signed at *
  cases b <;> simp only [Bool.false_eq_true, ↓reduceIte] at * <;> omega

theorem digit_le {c : Char} (h : c.isDigit = true) : c.toNat - '0'.toNat ≤ 9 := by
  simp only [Char.isDigit, ge_iff_le, Bool.and_eq_true, decide_eq_true_eq] at h
  have h2 : c.toNat ≤ 57 := h.2
  have h0 : '0'.toNat = 48 := rfl
  omega

theorem toInt_digit {c : Char} (h : c.isDigit = true) :
    (Int64.ofNat (c.toNat - '0'.toNat)).toInt = (c.toNat - '0'.toNat : ℕ) := by
  have := digit_le h
  rw [Int64.toInt_ofNat_of_lt (by omega)]

/-- One round of the loop, on the value it accumulates. -/
theorem digitsLoop_round (b : Bool) {c : Char} (hc : c.isDigit = true) (cs : List Char) {n : ℕ}
    {r : Int64} (hr : r.toInt = signed b n) :
    digitsLoop b (c :: cs) r =
      (ofIntChecked (signed b (n * 10))).bind (fun _ =>
        (ofIntChecked (signed b (10 * n + (c.toNat - '0'.toNat)))).bind (digitsLoop b cs)) := by
  have hten : (10 : Int64).toInt = 10 := by decide
  have hmul : r.toInt * (10 : Int64).toInt = signed b (n * 10) := by
    rw [hr, hten]
    unfold signed
    cases b <;> simp
  rw [digitsLoop, if_pos hc, checkedMul, hmul]
  cases hm : ofIntChecked (signed b (n * 10)) with
  | none => rfl
  | some m =>
      have hm' := ofIntChecked_eq_some_iff.mp hm
      simp only [Option.bind_eq_bind, Option.bind_some, checkedAdd, checkedSub, toInt_digit hc, hm']
      cases b with
      | true =>
          have e : signed true (n * 10) + ((c.toNat - '0'.toNat : ℕ) : ℤ) =
              signed true (10 * n + (c.toNat - '0'.toNat)) := by
            simp only [signed, ↓reduceIte]; push_cast; ring
          rw [if_pos rfl, e]
      | false =>
          have e : signed false (n * 10) - ((c.toNat - '0'.toNat : ℕ) : ℤ) =
              signed false (10 * n + (c.toNat - '0'.toNat)) := by
            simp only [signed, Bool.false_eq_true, ↓reduceIte]; push_cast; ring
          rw [if_neg (by simp), e]

/-- The loop reads a string of digits and returns its value when that fits. -/
theorem digitsLoop_eq_some_iff (b : Bool) {v : Int64} (ds : List Char) :
    ∀ {n : ℕ} {r : Int64}, r.toInt = signed b n →
      (digitsLoop b ds r = some v ↔
        (∀ c ∈ ds, c.isDigit = true) ∧ v.toInt = signed b (Nat.ofDigitChars 10 ds n)) := by
  induction ds with
  | nil =>
      intro n r hr
      simp only [digitsLoop, Option.some.injEq, List.not_mem_nil, false_implies, implies_true,
        true_and, Nat.ofDigitChars_nil]
      constructor
      · rintro rfl; exact hr
      · intro hv; exact Int64.toInt_inj.mp (hr.trans hv.symm)
  | cons c cs ih =>
      intro n r hr
      by_cases hc : c.isDigit = true
      · rw [digitsLoop_round b hc cs hr, Nat.ofDigitChars_cons]
        set n' := 10 * n + (c.toNat - '0'.toNat) with hn'
        have hmono := le_ofDigitChars cs n'
        constructor
        · intro h
          obtain ⟨m, -, h⟩ := Option.bind_eq_some_iff.mp h
          obtain ⟨r', hr', h⟩ := Option.bind_eq_some_iff.mp h
          obtain ⟨hds, hv⟩ := (ih (ofIntChecked_eq_some_iff.mp hr')).mp h
          exact ⟨List.forall_mem_cons.mpr ⟨hc, hds⟩, hv⟩
        · rintro ⟨hds, hv⟩
          have hf : Fits (signed b (Nat.ofDigitChars 10 cs n')) := hv ▸ fits_toInt v
          have hf' : Fits (signed b n') := fits_of_le hmono hf
          have hf'' : Fits (signed b (n * 10)) := fits_of_le (by omega) hf'
          rw [ofIntChecked_eq_some_iff.mpr (toInt_ofInt hf''),
            ofIntChecked_eq_some_iff.mpr (toInt_ofInt hf'), Option.bind_some, Option.bind_some]
          exact (ih (toInt_ofInt hf')).mpr ⟨(List.forall_mem_cons.mp hds).2, hv⟩
      · rw [digitsLoop, if_neg hc]
        simp [hc]

/-- **What the parser accepts.** -/
theorem parse_eq_some_iff {s : String} {v : Int64} :
    parse s = some v ↔ Denotes s v.toInt := by
  have hzero : ∀ b, (0 : Int64).toInt = signed b 0 := by
    intro b; cases b <;> rfl
  unfold parse Denotes
  split
  · rename_i hs
    simp [hs]
  · rename_i hs
    rw [hs]
    constructor
    · intro h; cases h
    · rintro ⟨ds, hne, hds, ⟨rfl | h, -⟩ | ⟨h, -⟩⟩
      · exact absurd (hds '+' (by simp)) (by decide)
      · exact absurd (List.cons.inj h).2.symm hne
      · simp at h
  · rename_i hs
    rw [hs]
    constructor
    · intro h; cases h
    · rintro ⟨ds, hne, hds, ⟨rfl | h, -⟩ | ⟨h, -⟩⟩
      · exact absurd (hds '-' (by simp)) (by decide)
      · simp at h
      · exact absurd (List.cons.inj h).2.symm hne
  · rename_i rest hne hs
    rw [digitsLoop_eq_some_iff true rest (hzero true), hs]
    constructor
    · rintro ⟨hds, hv⟩
      exact ⟨rest, hne, hds, .inl ⟨.inr rfl, hv⟩⟩
    · rintro ⟨ds, -, hds, ⟨rfl | h, hv⟩ | ⟨h, -⟩⟩
      · exact absurd (hds '+' (by simp)) (by decide)
      · rw [(List.cons.inj h).2]; exact ⟨hds, hv⟩
      · simp at h
  · rename_i rest hne hs
    rw [digitsLoop_eq_some_iff false rest (hzero false), hs]
    constructor
    · rintro ⟨hds, hv⟩
      exact ⟨rest, hne, hds, .inr ⟨rfl, hv⟩⟩
    · rintro ⟨ds, -, hds, ⟨rfl | h, -⟩ | ⟨h, hv⟩⟩
      · exact absurd (hds '-' (by simp)) (by decide)
      · simp at h
      · rw [(List.cons.inj h).2]; exact ⟨hds, hv⟩
  · rename_i src hnil _ _ hplus hminus
    rw [digitsLoop_eq_some_iff true s.toList (hzero true)]
    constructor
    · rintro ⟨hds, hv⟩
      exact ⟨s.toList, hnil, hds, .inl ⟨.inl rfl, hv⟩⟩
    · rintro ⟨ds, -, hds, ⟨h | h, hv⟩ | ⟨h, -⟩⟩
      · rw [h]; exact ⟨hds, hv⟩
      · exact absurd h (hplus ds)
      · exact absurd h (hminus ds)

/-- Every character of a numeral is a sign or a digit. -/
theorem Denotes.mem {s : String} {v : ℤ} (h : Denotes s v) {c : Char} (hc : c ∈ s.toList) :
    c = '+' ∨ c = '-' ∨ c.isDigit = true := by
  obtain ⟨ds, -, hds, ⟨hs | hs, -⟩ | ⟨hs, -⟩⟩ := h <;> rw [hs] at hc
  · exact .inr (.inr (hds c hc))
  · obtain rfl | hc := List.mem_cons.mp hc
    · exact .inl rfl
    · exact .inr (.inr (hds c hc))
  · obtain rfl | hc := List.mem_cons.mp hc
    · exact .inr (.inl rfl)
    · exact .inr (.inr (hds c hc))

/-- What the decimal printer prints denotes the number. -/
theorem denotes_repr (n : ℕ) : Denotes n.repr n :=
  ⟨Nat.toDigits 10 n, Nat.toDigits_ne_nil,
    fun _ hc => Nat.isDigit_of_mem_toDigits (by decide) (by decide) hc,
    .inl ⟨.inl Nat.toList_repr, by rw [Nat.ofDigitChars_ten_toDigits]⟩⟩

theorem denotes_toString (i : ℤ) : Denotes (toString i) i := by
  cases i with
  | ofNat n => exact denotes_repr n
  | negSucc n =>
      refine ⟨Nat.toDigits 10 (n + 1), Nat.toDigits_ne_nil, fun _ hc =>
        Nat.isDigit_of_mem_toDigits (by decide) (by decide) hc, .inr ⟨?_, ?_⟩⟩
      · show ("-" ++ (n + 1).repr).toList = _
        rw [String.toList_append, Nat.toList_repr]
        rfl
      · rw [Nat.ofDigitChars_ten_toDigits]
        rfl

/-- `str::parse::<i32>`, on the numerals of an `i64`. -/
def parse32 (s : String) : Option Int32 :=
  (parse s).bind fun v =>
    if -2 ^ 31 ≤ v.toInt ∧ v.toInt < 2 ^ 31 then some (Int32.ofInt v.toInt) else none

/-- A printed `i32` is read back. -/
theorem parse32_toString (i : Int32) : parse32 (toString i) = some i := by
  have hlo := i.le_toInt
  have hhi := i.toInt_lt
  have hv : (Int64.ofInt i.toInt).toInt = i.toInt := toInt_ofInt (by unfold Fits; omega)
  have hparse : parse (toString i) = some (Int64.ofInt i.toInt) := by
    rw [parse_eq_some_iff, hv]
    exact denotes_toString i.toInt
  rw [parse32, hparse, Option.bind_some, hv, if_pos ⟨hlo, hhi⟩, Int32.ofInt_toInt]

end Machine
