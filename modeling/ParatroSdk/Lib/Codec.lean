import ParatroSdk.Lib.Json
import ParatroSdk.Lib.Int64
import Mathlib.Data.List.Forall2

/-! # Codecs of values and fields

A `Codec` writes a type as JSON and reads it back, a `Field` is one field of a derived record
codec.  Both carry their laws: what is written is read back (`read_write`) for the values in
`Ok`, and nothing else is ever read (`ok_read`). -/

namespace Serde

open Json (Reordered Unordered Integer F64 Value readValue readValue_val inRange)
open Machine

variable {α β ρ S : Type}

/-! ### Values and fields -/

/-- Reading every item of a list succeeds where reading each of them does, in order. -/
theorem mapM_eq_some_iff {f : α → Option β} {l : List α} {v : List β} :
    l.mapM f = some v ↔ List.Forall₂ (fun a b => f a = some b) l v := by
  induction l generalizing v with
  | nil => simp [List.forall₂_nil_left_iff, eq_comm]
  | cons a l ih =>
      rw [List.mapM_cons]
      constructor
      · intro h
        obtain ⟨b, hb, h⟩ := Option.bind_eq_some_iff.mp h
        obtain ⟨bs, hbs, h⟩ := Option.bind_eq_some_iff.mp h
        cases h
        exact .cons hb (ih.mp hbs)
      · intro h
        cases h with
        | cons hb hbs =>
            rw [hb, Option.bind_eq_bind, Option.bind_some, ih.mpr hbs]
            rfl

theorem exists_of_forall₂ {R : α → β → Prop} {l : List α} {v : List β} (h : List.Forall₂ R l v)
    {b : β} (hb : b ∈ v) : ∃ a ∈ l, R a b := by
  induction h with
  | nil => cases hb
  | cons hab _ ih =>
      obtain rfl | hb := List.mem_cons.mp hb
      · exact ⟨_, List.mem_cons_self, hab⟩
      · obtain ⟨a, ha, hr⟩ := ih hb
        exact ⟨a, List.mem_cons_of_mem _ ha, hr⟩

/-- A way to write a type as JSON and to read it back. -/
structure Codec (α : Type) where
  write : α → Json
  read : Json → Option α
  Ok : α → Prop
  read_write : ∀ v, Ok v → read (write v) = some v
  ok_read : ∀ j v, read j = some v → Ok v
  null_of_write : ∀ j v, read j = some v → write v = .null → j = .null
  inRange_write : ∀ v, inRange (write v) = true

/-- One field of a record: `write` is `none` where the member is skipped, `missing` and
`missingItem` are what an absent member and an absent item of an array stand for. -/
structure Field (α : Type) where
  name : String
  write : α → Option Json
  read : Json → Option α
  missing : Option α
  missingItem : Option α
  Ok : α → Prop
  read_write : ∀ v j, Ok v → write v = some j → read j = some v
  missing_write : ∀ v, Ok v → write v = none → missing = some v
  ok_read : ∀ j v, read j = some v → Ok v
  ok_missing : ∀ v, missing = some v → Ok v
  ok_missingItem : ∀ v, missingItem = some v → Ok v
  inRange_write : ∀ v, ∀ j ∈ write v, inRange j = true

/-- `Option<T>`: `null` is `None`. -/
def Codec.option (c : Codec α) : Codec (Option α) where
  write
    | none => .null
    | some v => c.write v
  read
    | .null => some none
    | j => (c.read j).map some
  Ok v := ∀ a ∈ v, c.Ok a ∧ c.write a ≠ .null
  read_write := by
    intro v hv
    cases v with
    | none => rfl
    | some a =>
        obtain ⟨hok, hnull⟩ := hv a rfl
        split
        · rename_i hw
          exact absurd hw hnull
        · rw [c.read_write a hok]
          rfl
  ok_read := by
    intro j v h a ha
    split at h
    · cases h
      cases ha
    · rename_i hj
      obtain ⟨b, hb, rfl⟩ := Option.map_eq_some_iff.mp h
      obtain rfl : b = a := Option.some.inj ha
      exact ⟨c.ok_read j b hb, fun hw => hj (c.null_of_write j b hb hw)⟩
  null_of_write := by
    intro j v h hw
    split at h
    · rfl
    · obtain ⟨b, hb, rfl⟩ := Option.map_eq_some_iff.mp h
      exact c.null_of_write j b hb hw
  inRange_write
    | none => rfl
    | some v => c.inRange_write v

namespace Codec

def string : Codec String where
  write := .string
  read
    | .string s => some s
    | _ => none
  Ok _ := True
  read_write _ _ := rfl
  ok_read _ _ _ := trivial
  null_of_write _ _ _ h := by cases h
  inRange_write _ := rfl

def bool : Codec Bool where
  write := .bool
  read
    | .bool b => some b
    | _ => none
  Ok _ := True
  read_write _ _ := rfl
  ok_read _ _ _ := trivial
  null_of_write _ _ _ h := by cases h
  inRange_write _ := rfl

/-- A type of integers, each of which has a value that determines it. -/
def integer (toInteger : α → Integer) (ofInteger : Integer → Option α)
    (h : ∀ v, ofInteger (toInteger v) = some v) : Codec α where
  write v := .number (.int (toInteger v))
  read
    | .number (.int i) => ofInteger i
    | _ => none
  Ok _ := True
  read_write v _ := h v
  ok_read _ _ _ := trivial
  null_of_write _ _ _ h := by cases h
  inRange_write _ := rfl

def int64 : Codec Int64 :=
  integer (fun v => ⟨v.toInt, by have := v.le_toInt; have := v.toInt_lt; omega⟩)
    (fun i => ofIntChecked i.value)
    (fun _ => ofIntChecked_eq_some_iff.mpr rfl)

def int32 : Codec Int32 :=
  integer (fun v => ⟨v.toInt, by have := v.le_toInt; have := v.toInt_lt; omega⟩)
    (fun i => if -2 ^ 31 ≤ i.value ∧ i.value < 2 ^ 31 then some (Int32.ofInt i.value) else none)
    (fun v => by
      dsimp only
      rw [if_pos ⟨v.le_toInt, v.toInt_lt⟩, Int32.ofInt_toInt])

def uint64 : Codec UInt64 :=
  integer (fun v => ⟨v.toNat, by have := v.toNat_lt; omega⟩)
    (fun i => if 0 ≤ i.value then some (UInt64.ofNat i.value.toNat) else none)
    (fun v => by
      dsimp only
      rw [if_pos (Int.natCast_nonneg _), Int.toNat_natCast, UInt64.ofNat_toNat])

/-- An integer is read as the nearest float; infinities and NaNs are written as `null`. -/
def float64 : Codec F64 where
  write x := if h : x.isFinite = true then .number (.float ⟨x, h⟩) else .null
  read
    | .number (.float x) => some x.1
    | .number (.int i) => some i.toF64.1
    | _ => none
  Ok x := x.isFinite = true
  read_write x h := by rw [dif_pos h]
  ok_read j x h := by
    split at h
    · rename_i y
      obtain rfl := Option.some.inj h
      exact y.2
    · rename_i i
      obtain rfl := Option.some.inj h
      exact i.toF64.2
    · cases h
  null_of_write j x h hw := by
    split at hw
    · cases hw
    · rename_i hfinite
      split at h
      · rename_i y
        obtain rfl := Option.some.inj h
        exact absurd y.2 hfinite
      · rename_i i
        obtain rfl := Option.some.inj h
        exact absurd i.toF64.2 hfinite
      · cases h
  inRange_write x := by split <;> rfl

/-- A `serde_json::Value`, of which `null` is one. -/
def value : Codec Value where
  write v := v.1
  read := readValue
  Ok _ := True
  read_write v _ := readValue_val v
  ok_read _ _ _ := trivial
  null_of_write := by
    intro j v h hw
    obtain ⟨w, hw'⟩ := v
    obtain rfl : w = .null := hw
    exact Json.eq_null_of_readValue h
  inRange_write v := Json.inRange_of_isValue v.2

/-- `Vec<T>`: every item is read, in order. -/
def list (c : Codec α) : Codec (List α) where
  write v := .array (v.map c.write)
  read
    | .array items => items.mapM c.read
    | _ => none
  Ok v := ∀ a ∈ v, c.Ok a
  read_write v hok := by
    refine mapM_eq_some_iff.mpr ?_
    rw [List.forall₂_map_left_iff, List.forall₂_same]
    exact fun a ha => c.read_write a (hok a ha)
  ok_read j v h a ha := by
    cases j with
    | array items =>
        obtain ⟨i, -, hi⟩ := exists_of_forall₂ (mapM_eq_some_iff.mp h) ha
        exact c.ok_read i a hi
    | _ => cases h
  null_of_write _ _ _ h := by cases h
  inRange_write v := by
    rw [Json.inRange_array, List.all_map, List.all_eq_true]
    exact fun a _ => c.inRange_write a

/-- An option is read back where its value is, unless that looks like `None`. -/
theorem ok_option {c : Codec α} (h : ∀ a, c.Ok a ∧ c.write a ≠ .null) (v : Option α) :
    c.option.Ok v := fun a _ => h a

theorem ok_option_string (v : Option String) : string.option.Ok v :=
  ok_option (fun _ => ⟨trivial, fun h => by cases h⟩) v

theorem ok_option_int64 (v : Option Int64) : int64.option.Ok v :=
  ok_option (fun _ => ⟨trivial, fun h => by cases h⟩) v

theorem noNull_string (v : String) : Json.noNull (string.write v) = true := by
  unfold string
  rw [Json.noNull]

theorem noNull_int64 (v : Int64) : Json.noNull (int64.write v) = true := by
  unfold int64 integer
  rw [Json.noNull]

/-- What is read back whatever its value is written in one way only. -/
theorem write_injective {c : Codec α} (h : ∀ v, c.Ok v) : Function.Injective c.write := by
  intro v v' heq
  have hread := c.read_write v (h v)
  rw [heq, c.read_write v' (h v')] at hread
  exact (Option.some.inj hread).symm

/-- A reader of scalars tells two texts apart only when they are different scalars. -/
theorem read_eq_of_scalar {read : Json → Option α} (harray : ∀ items, read (.array items) = none)
    (hobject : ∀ ms, read (.object ms) = none) {j j' : Json}
    (h : Json.IsScalar j ∨ Json.IsScalar j' → j = j') : read j = read j' := by
  have hscalar : ∀ i : Json, Json.IsScalar i ∨ read i = none := by
    intro i
    cases i with
    | array items => exact .inr (harray items)
    | object ms => exact .inr (hobject ms)
    | _ => exact .inl ⟨nofun, nofun⟩
  obtain hj | hj := hscalar j
  · rw [h (.inl hj)]
  · obtain hj' | hj' := hscalar j'
    · rw [h (.inr hj')]
    · rw [hj, hj']

theorem option_read_eq {c : Codec α} {j j' : Json} (h : Json.IsScalar j ∨ Json.IsScalar j' → j = j')
    (hread : c.read j = c.read j') : c.option.read j = c.option.read j' := by
  have hnull : j = .null ↔ j' = .null := by
    constructor
    · rintro rfl
      exact (h (.inl ⟨nofun, nofun⟩)).symm
    · rintro rfl
      exact h (.inr ⟨nofun, nofun⟩)
  have hsome : ∀ i : Json, i ≠ .null → c.option.read i = (c.read i).map some := by
    intro i hi
    cases i with
    | null => exact absurd rfl hi
    | _ => rfl
  by_cases hjn : j = .null
  · rw [hjn, hnull.mp hjn]
  · rw [hsome j hjn, hsome j' fun h => hjn (hnull.mpr h), hread]

/-- Values without members are read without regard to order. -/
theorem unordered_of_scalar {read : Json → Option α} (harray : ∀ items, read (.array items) = none)
    (hobject : ∀ ms, read (.object ms) = none) : Unordered read :=
  fun _ _ h => read_eq_of_scalar harray hobject h.eq_of_scalar

theorem unordered_option {c : Codec α} (h : Unordered c.read) : Unordered c.option.read :=
  fun j j' hj => option_read_eq hj.eq_of_scalar (h j j' hj)

theorem unordered_string : Unordered string.read :=
  unordered_of_scalar (fun _ => rfl) fun _ => rfl

theorem unordered_bool : Unordered bool.read :=
  unordered_of_scalar (fun _ => rfl) fun _ => rfl

theorem unordered_int64 : Unordered int64.read :=
  unordered_of_scalar (fun _ => rfl) fun _ => rfl

theorem unordered_int32 : Unordered int32.read :=
  unordered_of_scalar (fun _ => rfl) fun _ => rfl

theorem unordered_uint64 : Unordered uint64.read :=
  unordered_of_scalar (fun _ => rfl) fun _ => rfl

theorem unordered_float64 : Unordered float64.read :=
  unordered_of_scalar (fun _ => rfl) fun _ => rfl

end Codec

namespace Field

/-- A field without attributes. -/
def required (name : String) (c : Codec α) : Field α where
  name
  write v := some (c.write v)
  read := c.read
  missing := none
  missingItem := none
  Ok := c.Ok
  read_write v j hok h := by
    obtain rfl := Option.some.inj h
    exact c.read_write v hok
  missing_write v _ h := by cases h
  ok_read := c.ok_read
  ok_missing v h := by cases h
  ok_missingItem v h := by cases h
  inRange_write v j h := by
    obtain rfl := Option.some.inj h
    exact c.inRange_write v

/-- An `Option<T>` field without attributes: always written, and `None` when absent. -/
def nullable (name : String) (c : Codec α) : Field (Option α) where
  name
  write v := some (c.option.write v)
  read := c.option.read
  missing := some none
  missingItem := none
  Ok := c.option.Ok
  read_write v j hok h := by
    obtain rfl := Option.some.inj h
    exact c.option.read_write v hok
  missing_write v _ h := by cases h
  ok_read := c.option.ok_read
  ok_missing v h := by
    cases h
    intro a ha
    cases ha
  ok_missingItem v h := by cases h
  inRange_write v j h := by
    obtain rfl := Option.some.inj h
    exact c.option.inRange_write v

/-- A field with `default`. -/
def defaulted (name : String) (c : Codec α) (default : α) (hdefault : c.Ok default) : Field α where
  name
  write v := some (c.write v)
  read := c.read
  missing := some default
  missingItem := some default
  Ok := c.Ok
  read_write v j hok h := by
    obtain rfl := Option.some.inj h
    exact c.read_write v hok
  missing_write v _ h := by cases h
  ok_read := c.ok_read
  ok_missing v h := by
    cases h
    exact hdefault
  ok_missingItem v h := by
    cases h
    exact hdefault
  inRange_write v j h := by
    obtain rfl := Option.some.inj h
    exact c.inRange_write v

/-- An `Option<T>` field with `default` and `skip_serializing_if = "Option::is_none"`. -/
def optional (name : String) (c : Codec α) : Field (Option α) where
  name
  write v := v.map c.write
  read := c.option.read
  missing := some none
  missingItem := some none
  Ok := c.option.Ok
  read_write v j hok h := by
    obtain ⟨a, rfl, rfl⟩ := Option.map_eq_some_iff.mp h
    exact c.option.read_write (some a) hok
  missing_write v _ h := by rw [Option.map_eq_none_iff.mp h]
  ok_read := c.option.ok_read
  ok_missing v h := by
    cases h
    intro a ha
    cases ha
  ok_missingItem v h := by
    cases h
    intro a ha
    cases ha
  inRange_write v j h := by
    obtain ⟨a, rfl, rfl⟩ := Option.map_eq_some_iff.mp h
    exact c.inRange_write a

end Field

end Serde
