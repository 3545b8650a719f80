import Mathlib.Data.Nat.Log
import Mathlib.Data.List.Perm.Lattice
import Mathlib.Data.String.Basic
import Mathlib.Algebra.Order.Group.Unbundled.Int

/-! # JSON values

A `Json` is what a JSON text says: an object is the list of its members as they stand in the
text, which may repeat a key.  A number is an integer of 64 bits, a finite 64-bit float, or
a numeral that no float can hold.

`Reordered` permutes the members of objects at any depth.  `toValue` is what remains of a
JSON text in a value that keeps the members of an object in a map: sorted by key, the last
of repeated ones, without numerals that are out of range. -/

namespace Json

/-! ### Numbers -/

/-- A 64-bit float, by its bits. -/
structure F64 where
  bits : UInt64
deriving DecidableEq, Repr

/-- Neither infinite nor a NaN: the exponent is not all ones. -/
def F64.isFinite (x : F64) : Bool := x.bits.toNat / 2 ^ 52 % 2 ^ 11 != 2047

abbrev FiniteF64 := { x : F64 // x.isFinite = true }

/-- An integer with a signed or an unsigned 64-bit representation. -/
structure Integer where
  value : ℤ
  inRange : -2 ^ 63 ≤ value ∧ value < 2 ^ 64
deriving DecidableEq, Repr

inductive Number where
  | int (i : Integer)
  | float (x : FiniteF64)
  | outOfRange (numeral : String)
deriving DecidableEq, Repr

/-- `n / 2 ^ shift`, rounded to the nearest, half-way cases to the even one. -/
def roundShift (n shift : ℕ) : ℕ :=
  let q := n / 2 ^ shift
  let r := n % 2 ^ shift
  if 2 ^ shift < 2 * r ∨ 2 * r = 2 ^ shift ∧ q % 2 = 1 then q + 1 else q

/-- The significand of the float nearest to `n > 0`, with its hidden bit. -/
def significand (n : ℕ) : ℕ :=
  if Nat.log 2 n ≤ 52 then n * 2 ^ (52 - Nat.log 2 n) else roundShift n (Nat.log 2 n - 52)

/-- The bits of the float nearest to `n`; a significand rounded up to `2 ^ 53` carries into
the exponent. -/
def floatBits (n : ℕ) : ℕ :=
  if n = 0 then 0 else (Nat.log 2 n + 1023) * 2 ^ 52 + (significand n - 2 ^ 52)

theorem significand_le (n : ℕ) : significand n ≤ 2 ^ 53 := by
  have hlt : n < 2 ^ (Nat.log 2 n + 1) := Nat.lt_pow_succ_log_self (by decide) n
  unfold significand
  split
  · rename_i hsmall
    have hpow : 2 ^ (Nat.log 2 n + 1) * 2 ^ (52 - Nat.log 2 n) = 2 ^ 53 := by
      rw [← pow_add]
      congr 1
      omega
    have hmul := Nat.mul_le_mul_right (2 ^ (52 - Nat.log 2 n)) hlt.le
    omega
  · rename_i hlarge
    have hpow : 2 ^ (Nat.log 2 n + 1) = 2 ^ 53 * 2 ^ (Nat.log 2 n - 52) := by
      rw [← pow_add]
      congr 1
      omega
    have hq : n / 2 ^ (Nat.log 2 n - 52) < 2 ^ 53 := by
      rw [Nat.div_lt_iff_lt_mul (Nat.two_pow_pos _), ← hpow]
      exact hlt
    unfold roundShift
    dsimp only
    split <;> omega

theorem floatBits_le {n : ℕ} (h : n < 2 ^ 64) : floatBits n ≤ 1087 * 2 ^ 52 := by
  have hlog : Nat.log 2 n < 64 := by
    by_cases hn : n = 0
    · subst hn
      decide
    · exact Nat.log_lt_of_lt_pow hn h
  have hsig := significand_le n
  unfold floatBits
  split
  · exact Nat.zero_le _
  · omega

theorem isFinite_ofNat {b : ℕ} (hb : b < 2 ^ 64) (h : b / 2 ^ 52 % 2 ^ 11 ≠ 2047) :
    F64.isFinite ⟨UInt64.ofNat b⟩ = true := by
  unfold F64.isFinite
  rw [bne_iff_ne, UInt64.toNat_ofNat', Nat.mod_eq_of_lt hb]
  exact h

/-- `i as f64` of a 64-bit integer. -/
def Integer.toF64 (i : Integer) : FiniteF64 :=
  ⟨⟨UInt64.ofNat ((if i.value < 0 then 2 ^ 63 else 0) + floatBits i.value.natAbs)⟩, by
    have hrange := i.inRange
    have hle : floatBits i.value.natAbs ≤ 1087 * 2 ^ 52 := floatBits_le (by omega)
    apply isFinite_ofNat
    · split <;> omega
    · split <;> omega⟩

end Json

/-! ### Trees -/

/-- A JSON text as a tree; the members of an object stand in the order of the text. -/
inductive Json where
  | null
  | bool (b : Bool)
  | number (n : Json.Number)
  | string (s : String)
  | array (items : List Json)
  | object (members : List (String × Json))

namespace Json

/-- The same text with the members of objects in another order, at any depth. -/
inductive Reordered : Json → Json → Prop
  | refl (j : Json) : Reordered j j
  | perm {ms ms' : List (String × Json)} (h : ms.Perm ms') : Reordered (.object ms) (.object ms')
  | member {j j' : Json} (front : List (String × Json)) (key : String) (back : List (String × Json))
      (h : Reordered j j') :
      Reordered (.object (front ++ (key, j) :: back)) (.object (front ++ (key, j') :: back))
  | item {j j' : Json} (front back : List Json) (h : Reordered j j') :
      Reordered (.array (front ++ j :: back)) (.array (front ++ j' :: back))
  | trans {j₁ j₂ j₃ : Json} (h₁ : Reordered j₁ j₂) (h₂ : Reordered j₂ j₃) : Reordered j₁ j₃

/-- A reader that does not look at the order of members. -/
def Unordered {α : Type} (read : Json → Option α) : Prop :=
  ∀ j j', Reordered j j' → read j = read j'

/-- Neither an array nor an object. -/
abbrev IsScalar (j : Json) : Prop := (∀ items, j ≠ .array items) ∧ ∀ ms, j ≠ .object ms

/-- A JSON text without objects and arrays is in order. -/
theorem Reordered.eq_of_scalar {j j' : Json} (h : Reordered j j') :
    IsScalar j ∨ IsScalar j' → j = j' := by
  induction h with
  | refl j => intro; rfl
  | perm h =>
      rintro (h | h)
      · exact absurd rfl (h.2 _)
      · exact absurd rfl (h.2 _)
  | member front key back h ih =>
      rintro (h | h)
      · exact absurd rfl (h.2 _)
      · exact absurd rfl (h.2 _)
  | item front back h ih =>
      rintro (h | h)
      · exact absurd rfl (h.1 _)
      · exact absurd rfl (h.1 _)
  | trans h₁ h₂ ih₁ ih₂ =>
      rintro (h | h)
      · obtain rfl := ih₁ (.inl h)
        exact ih₂ (.inl h)
      · obtain rfl := ih₂ (.inr h)
        exact ih₁ (.inr h)

/-! ### Null -/

mutual

/-- There is no `null` in the text. -/
def noNull : Json → Bool
  | .null => false
  | .bool _ | .number _ | .string _ => true
  | .array items => noNulls items
  | .object ms => noNullMembers ms

def noNulls : List Json → Bool
  | [] => true
  | j :: js => noNull j && noNulls js

def noNullMembers : List (String × Json) → Bool
  | [] => true
  | (_, j) :: ms => noNull j && noNullMembers ms

end

theorem noNull_object {ms : List (String × Json)} :
    noNull (.object ms) = true ↔ ∀ m ∈ ms, noNull m.2 = true := by
  rw [noNull]
  induction ms with
  | nil =>
      rw [noNullMembers]
      simp
  | cons m ms ih =>
      obtain ⟨k, j⟩ := m
      rw [noNullMembers, Bool.and_eq_true, ih, List.forall_mem_cons]

/-! ### Values -/

/-- Put a member into a list sorted by key, in place of one with the same key. -/
def insertMember : List (String × Json) → String × Json → List (String × Json)
  | [], m => [m]
  | m' :: ms, m =>
      if m.1 < m'.1 then m :: m' :: ms
      else if m.1 = m'.1 then m :: ms
      else m' :: insertMember ms m

/-- The members in a map: sorted by key, the last of repeated ones. -/
def collect (ms : List (String × Json)) : List (String × Json) := ms.foldl insertMember []

mutual

/-- The value of a text; `none` for a numeral that no number can hold. -/
def toValue : Json → Option Json
  | .null => some .null
  | .bool b => some (.bool b)
  | .number (.int i) => some (.number (.int i))
  | .number (.float x) => some (.number (.float x))
  | .number (.outOfRange _) => none
  | .string s => some (.string s)
  | .array items => (toValues items).map .array
  | .object ms => (toMembers ms).map fun ms => .object (collect ms)

def toValues : List Json → Option (List Json)
  | [] => some []
  | j :: js => (toValue j).bind fun v => (toValues js).map (v :: ·)

def toMembers : List (String × Json) → Option (List (String × Json))
  | [] => some []
  | (k, j) :: ms => (toValue j).bind fun v => (toMembers ms).map ((k, v) :: ·)

end

mutual

/-- No numeral is out of range, and the members of every object are sorted by key. -/
def IsValue : Json → Prop
  | .null | .bool _ | .string _ | .number (.int _) | .number (.float _) => True
  | .number (.outOfRange _) => False
  | .array items => AllValues items
  | .object ms => ms.Pairwise (fun m m' => m.1 < m'.1) ∧ AllMembers ms

def AllValues : List Json → Prop
  | [] => True
  | j :: js => IsValue j ∧ AllValues js

def AllMembers : List (String × Json) → Prop
  | [] => True
  | (_, j) :: ms => IsValue j ∧ AllMembers ms

end

/-- A member with the largest key goes to the end. -/
theorem insertMember_of_lt {ms : List (String × Json)} {m : String × Json}
    (h : ∀ m' ∈ ms, m'.1 < m.1) : insertMember ms m = ms ++ [m] := by
  induction ms with
  | nil => rfl
  | cons m' ms ih =>
      have hlt := h m' List.mem_cons_self
      unfold insertMember
      rw [if_neg (lt_asymm hlt), if_neg hlt.ne', ih fun m'' hm => h m'' (List.mem_cons_of_mem _ hm)]
      rfl

theorem foldl_insertMember_of_sorted {ms : List (String × Json)} : ∀ {acc : List (String × Json)},
    (acc ++ ms).Pairwise (fun m m' => m.1 < m'.1) → ms.foldl insertMember acc = acc ++ ms := by
  induction ms with
  | nil =>
      intro acc _
      exact (List.append_nil acc).symm
  | cons m ms ih =>
      intro acc h
      have hlt : ∀ m' ∈ acc, m'.1 < m.1 := fun m' hm =>
        (List.pairwise_append.mp h).2.2 m' hm m List.mem_cons_self
      have happend : acc ++ m :: ms = acc ++ [m] ++ ms := by simp
      rw [List.foldl_cons, insertMember_of_lt hlt, happend]
      rw [happend] at h
      exact ih h

theorem collect_of_sorted {ms : List (String × Json)}
    (h : ms.Pairwise (fun m m' => m.1 < m'.1)) : collect ms = ms := by
  have hfold : ms.foldl insertMember [] = [] ++ ms := foldl_insertMember_of_sorted h
  exact hfold

mutual

/-- A value is its own value. -/
theorem toValue_of_isValue : ∀ j : Json, IsValue j → toValue j = some j
  | .null, _ | .bool _, _ | .string _, _ | .number (.int _), _ | .number (.float _), _ => by
      rw [toValue]
  | .number (.outOfRange _), h => by
      rw [IsValue] at h
      exact h.elim
  | .array items, h => by
      rw [IsValue] at h
      rw [toValue, toValues_of_allValues items h]
      rfl
  | .object ms, h => by
      rw [IsValue] at h
      rw [toValue, toMembers_of_allMembers ms h.2, Option.map_some, collect_of_sorted h.1]

theorem toValues_of_allValues : ∀ js : List Json, AllValues js → toValues js = some js
  | [], _ => by rw [toValues]
  | j :: js, h => by
      rw [AllValues] at h
      rw [toValues, toValue_of_isValue j h.1, toValues_of_allValues js h.2]
      rfl

theorem toMembers_of_allMembers : ∀ ms : List (String × Json), AllMembers ms → toMembers ms = some ms
  | [], _ => by rw [toMembers]
  | (k, j) :: ms, h => by
      rw [AllMembers] at h
      rw [toMembers, toValue_of_isValue j h.1, toMembers_of_allMembers ms h.2]
      rfl

end

theorem mem_insertMember {ms : List (String × Json)} {m m' : String × Json}
    (h : m' ∈ insertMember ms m) : m' = m ∨ m' ∈ ms := by
  induction ms with
  | nil => exact .inl (List.mem_singleton.mp h)
  | cons m'' ms ih =>
      unfold insertMember at h
      split at h
      · exact List.mem_cons.mp h
      split at h
      · exact (List.mem_cons.mp h).imp id (List.mem_cons_of_mem _)
      · obtain rfl | h := List.mem_cons.mp h
        · exact .inr List.mem_cons_self
        · exact (ih h).imp id (List.mem_cons_of_mem _)

theorem sorted_insertMember {ms : List (String × Json)} {m : String × Json}
    (h : ms.Pairwise (fun m m' => m.1 < m'.1)) :
    (insertMember ms m).Pairwise (fun m m' => m.1 < m'.1) := by
  induction ms with
  | nil => exact List.pairwise_singleton _ _
  | cons m' ms ih =>
      obtain ⟨hhead, htail⟩ := List.pairwise_cons.mp h
      unfold insertMember
      split
      · rename_i hlt
        refine List.pairwise_cons.mpr ⟨fun m'' hm => ?_, h⟩
        obtain rfl | hm := List.mem_cons.mp hm
        · exact hlt
        · exact hlt.trans (hhead m'' hm)
      split
      · rename_i heq
        refine List.pairwise_cons.mpr ⟨fun m'' hm => ?_, htail⟩
        rw [heq]
        exact hhead m'' hm
      · rename_i hlt heq
        refine List.pairwise_cons.mpr ⟨fun m'' hm => ?_, ih htail⟩
        obtain rfl | hm := mem_insertMember hm
        · exact lt_of_le_of_ne (not_lt.mp hlt) (Ne.symm heq)
        · exact hhead m'' hm

theorem allMembers_iff {ms : List (String × Json)} : AllMembers ms ↔ ∀ m ∈ ms, IsValue m.2 := by
  induction ms with
  | nil =>
      rw [AllMembers]
      simp
  | cons m ms ih =>
      obtain ⟨k, j⟩ := m
      rw [AllMembers, ih, List.forall_mem_cons]

/-- The members of a map are sorted by key and are members of the text. -/
theorem collect_spec (ms : List (String × Json)) :
    (collect ms).Pairwise (fun m m' => m.1 < m'.1) ∧ ∀ m ∈ collect ms, m ∈ ms := by
  have hfold : ∀ (ms acc : List (String × Json)), acc.Pairwise (fun m m' => m.1 < m'.1) →
      (ms.foldl insertMember acc).Pairwise (fun m m' => m.1 < m'.1) ∧
        ∀ m ∈ ms.foldl insertMember acc, m ∈ acc ∨ m ∈ ms := by
    intro ms
    induction ms with
    | nil => exact fun acc h => ⟨h, fun m hm => .inl hm⟩
    | cons m ms ih =>
        intro acc h
        obtain ⟨hsorted, hmem⟩ := ih (insertMember acc m) (sorted_insertMember h)
        refine ⟨hsorted, fun m' hm => ?_⟩
        obtain hm | hm := hmem m' hm
        · obtain rfl | hm := mem_insertMember hm
          · exact .inr List.mem_cons_self
          · exact .inl hm
        · exact .inr (List.mem_cons_of_mem _ hm)
  obtain ⟨hsorted, hmem⟩ := hfold ms [] List.Pairwise.nil
  refine ⟨hsorted, fun m hm => ?_⟩
  obtain hnil | hm := hmem m hm
  · cases hnil
  · exact hm

mutual

/-- The value of a text is a value. -/
theorem isValue_of_toValue : ∀ {j v : Json}, toValue j = some v → IsValue v
  | .null, v, h | .bool _, v, h | .string _, v, h | .number (.int _), v, h
  | .number (.float _), v, h => by
      rw [toValue] at h
      obtain rfl := Option.some.inj h
      rw [IsValue]
      trivial
  | .number (.outOfRange _), v, h => by
      rw [toValue] at h
      cases h
  | .array items, v, h => by
      rw [toValue] at h
      obtain ⟨vs, hvs, rfl⟩ := Option.map_eq_some_iff.mp h
      rw [IsValue]
      exact allValues_of_toValues hvs
  | .object ms, v, h => by
      rw [toValue] at h
      obtain ⟨vs, hvs, rfl⟩ := Option.map_eq_some_iff.mp h
      have hall := allMembers_iff.mp (allMembers_of_toMembers hvs)
      obtain ⟨hsorted, hmem⟩ := collect_spec vs
      rw [IsValue, allMembers_iff]
      exact ⟨hsorted, fun m hm => hall m (hmem m hm)⟩

theorem allValues_of_toValues : ∀ {js vs : List Json}, toValues js = some vs → AllValues vs
  | [], vs, h => by
      rw [toValues] at h
      obtain rfl := Option.some.inj h
      rw [AllValues]
      trivial
  | j :: js, vs, h => by
      rw [toValues] at h
      obtain ⟨v, hv, hrest⟩ := Option.bind_eq_some_iff.mp h
      obtain ⟨vs', hvs, rfl⟩ := Option.map_eq_some_iff.mp hrest
      rw [AllValues]
      exact ⟨isValue_of_toValue hv, allValues_of_toValues hvs⟩

theorem allMembers_of_toMembers : ∀ {ms vs : List (String × Json)},
    toMembers ms = some vs → AllMembers vs
  | [], vs, h => by
      rw [toMembers] at h
      obtain rfl := Option.some.inj h
      rw [AllMembers]
      trivial
  | (k, j) :: ms, vs, h => by
      rw [toMembers] at h
      obtain ⟨v, hv, hrest⟩ := Option.bind_eq_some_iff.mp h
      obtain ⟨vs', hvs, rfl⟩ := Option.map_eq_some_iff.mp hrest
      rw [AllMembers]
      exact ⟨isValue_of_toValue hv, allMembers_of_toMembers hvs⟩

end

/-! ### Numerals in range -/

/-- No numeral of the text is out of range. -/
def inRange (j : Json) : Bool := (toValue j).isSome

theorem inRange_array (items : List Json) : inRange (.array items) = items.all inRange := by
  unfold inRange
  rw [toValue, Option.isSome_map]
  induction items with
  | nil =>
      rw [toValues]
      rfl
  | cons j js ih =>
      rw [toValues, List.all_cons, ← ih]
      cases toValue j with
      | none => rfl
      | some v => rw [Option.bind_some, Option.isSome_map, Option.isSome_some, Bool.true_and]

theorem inRange_object (ms : List (String × Json)) :
    inRange (.object ms) = ms.all fun m => inRange m.2 := by
  unfold inRange
  rw [toValue, Option.isSome_map]
  induction ms with
  | nil =>
      rw [toMembers]
      rfl
  | cons m ms ih =>
      obtain ⟨k, j⟩ := m
      rw [toMembers, List.all_cons, ← ih]
      cases toValue j with
      | none => rfl
      | some v => rw [Option.bind_some, Option.isSome_map, Option.isSome_some, Bool.true_and]

theorem inRange_of_isValue {j : Json} (h : IsValue j) : inRange j = true := by
  unfold inRange
  rw [toValue_of_isValue j h]
  rfl

/-- The order of members has nothing to do with the range of numerals. -/
theorem Reordered.inRange_eq {j j' : Json} (h : Reordered j j') : inRange j = inRange j' := by
  induction h with
  | refl j => rfl
  | perm h => rw [inRange_object, inRange_object, h.all_eq]
  | member front key back h ih =>
      rw [inRange_object, inRange_object, List.all_append, List.all_append, List.all_cons,
        List.all_cons, ih]
  | item front back h ih =>
      rw [inRange_array, inRange_array, List.all_append, List.all_append, List.all_cons,
        List.all_cons, ih]
  | trans h₁ h₂ ih₁ ih₂ => exact ih₁.trans ih₂

/-- A `serde_json::Value`. -/
abbrev Value := { j : Json // IsValue j }

def Value.null : Value := ⟨.null, by simp [IsValue]⟩

/-- Read a value. -/
def readValue (j : Json) : Option Value :=
  match h : toValue j with
  | some v => some ⟨v, isValue_of_toValue h⟩
  | none => none

theorem readValue_val (v : Value) : readValue v.1 = some v := by
  have hv := toValue_of_isValue v.1 v.2
  unfold readValue
  split
  · rename_i w h
    rw [hv] at h
    obtain rfl := Option.some.inj h
    rfl
  · rename_i h
    rw [hv] at h
    cases h

/-- Only `null` reads as `null`. -/
theorem eq_null_of_readValue {j : Json} {h : IsValue .null} (hj : readValue j = some ⟨.null, h⟩) :
    j = .null := by
  have hv : toValue j = some .null := by
    unfold readValue at hj
    split at hj
    · rename_i v hv
      have hval : v = .null := congrArg Subtype.val (Option.some.inj hj)
      rw [hv, hval]
    · cases hj
  cases j with
  | null => rfl
  | bool b =>
      rw [toValue] at hv
      cases hv
  | number n =>
      cases n with
      | int i =>
          rw [toValue] at hv
          cases hv
      | float x =>
          rw [toValue] at hv
          cases hv
      | outOfRange numeral =>
          rw [toValue] at hv
          cases hv
  | string s =>
      rw [toValue] at hv
      cases hv
  | array items =>
      rw [toValue] at hv
      obtain ⟨vs, -, hvs⟩ := Option.map_eq_some_iff.mp hv
      cases hvs
  | object ms =>
      rw [toValue] at hv
      obtain ⟨vs, -, hvs⟩ := Option.map_eq_some_iff.mp hv
      cases hvs

end Json
