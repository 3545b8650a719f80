import ParatroSdk.Lib.Record

/-! # Texts of a later schema

A sender may order the members of its objects in another way and add members that the reader
does not know, in any object of the text (`Widened`).  Readers of scalars do not notice
(`tolerates_of_scalar`), options, lists and records do not when what they read does not
(`tolerates_option`, `tolerates_list`, `Record.decode_tolerates`). -/

namespace Serde

variable {α ρ S : Type} {known : List String}

/-- The same text with its members in another order and with further members, under names that
are not known, at any depth. -/
inductive Widened (known : List String) : Json → Json → Prop
  | refl (j : Json) : Widened known j j
  | perm {ms ms' : List (String × Json)} (h : ms.Perm ms') :
      Widened known (.object ms) (.object ms')
  | unknown (ms : List (String × Json)) {extra : List (String × Json)}
      (h : ∀ m ∈ extra, m.1 ∉ known) : Widened known (.object ms) (.object (ms ++ extra))
  | member {j j' : Json} (front : List (String × Json)) (key : String) (back : List (String × Json))
      (h : Widened known j j') :
      Widened known (.object (front ++ (key, j) :: back)) (.object (front ++ (key, j') :: back))
  | item {j j' : Json} (front back : List Json) (h : Widened known j j') :
      Widened known (.array (front ++ j :: back)) (.array (front ++ j' :: back))
  | trans {j₁ j₂ j₃ : Json} (h₁ : Widened known j₁ j₂) (h₂ : Widened known j₂ j₃) :
      Widened known j₁ j₃

/-- A reader that does not notice. -/
def Tolerates (known : List String) (read : Json → Option α) : Prop :=
  ∀ j j', Widened known j j' → read j = read j'

theorem Widened.mono {known' : List String} (hknown : ∀ n ∈ known', n ∈ known) {j j' : Json}
    (h : Widened known j j') : Widened known' j j' := by
  induction h with
  | refl j => exact .refl j
  | perm h => exact .perm h
  | unknown ms h => exact .unknown ms fun m hm hn => h m hm (hknown _ hn)
  | member front key back _ ih => exact .member front key back ih
  | item front back _ ih => exact .item front back ih
  | trans _ _ ih₁ ih₂ => exact .trans ih₁ ih₂

theorem Widened.eq_of_scalar {j j' : Json} (h : Widened known j j') :
    Json.IsScalar j ∨ Json.IsScalar j' → j = j' := by
  induction h with
  | refl j => exact fun _ => rfl
  | perm _ | unknown _ _ | member _ _ _ _ _ =>
      rintro (h | h)
      · exact absurd rfl (h.2 _)
      · exact absurd rfl (h.2 _)
  | item _ _ _ _ =>
      rintro (h | h)
      · exact absurd rfl (h.1 _)
      · exact absurd rfl (h.1 _)
  | trans h₁ h₂ ih₁ ih₂ =>
      rintro (h | h)
      · obtain rfl := ih₁ (.inl h)
        exact ih₂ (.inl h)
      · obtain rfl := ih₂ (.inr h)
        exact ih₁ (.inr h)

theorem tolerates_of_scalar {read : Json → Option α} (harray : ∀ items, read (.array items) = none)
    (hobject : ∀ ms, read (.object ms) = none) : Tolerates known read :=
  fun _ _ h => Codec.read_eq_of_scalar harray hobject h.eq_of_scalar

theorem tolerates_option {c : Codec α} (h : Tolerates known c.read) :
    Tolerates known c.option.read :=
  fun j j' hj => Codec.option_read_eq hj.eq_of_scalar (h j j' hj)

theorem tolerates_string : Tolerates known Codec.string.read :=
  tolerates_of_scalar (fun _ => rfl) fun _ => rfl

theorem tolerates_bool : Tolerates known Codec.bool.read :=
  tolerates_of_scalar (fun _ => rfl) fun _ => rfl

theorem tolerates_int64 : Tolerates known Codec.int64.read :=
  tolerates_of_scalar (fun _ => rfl) fun _ => rfl

theorem tolerates_int32 : Tolerates known Codec.int32.read :=
  tolerates_of_scalar (fun _ => rfl) fun _ => rfl

/-- A list is read alike when its items are. -/
theorem tolerates_list {c : Codec α} (h : Tolerates known c.read) :
    Tolerates known c.list.read := by
  intro j j' hj
  induction hj with
  | refl j => rfl
  | perm _ | unknown _ _ | member _ _ _ _ _ => rfl
  | item front back hj _ =>
      simp only [Codec.list, List.mapM_append, List.mapM_cons, h _ _ hj]
  | trans _ _ ih₁ ih₂ => exact ih₁.trans ih₂

/-- Every field is read alike. -/
def Fields.Tolerate (known : List String) : {ρ : Type} → Fields ρ → Prop
  | _, .nil => True
  | _, .cons f fs => Tolerates known f.read ∧ fs.Tolerate known

theorem Fields.Tolerate.readAlike {fs : Fields ρ} (h : fs.Tolerate known) {j j' : Json}
    (hj : Widened known j j') (key : String) : fs.ReadAlike key j j' := by
  induction fs with
  | nil => trivial
  | cons f fs ih => exact ⟨fun _ => h.1 _ _ hj, ih h.2⟩

/-- **A record whose fields are known and read alike is read alike.** -/
theorem Record.decode_tolerates {r : Record S} (hnames : ∀ n ∈ r.fields.names, n ∈ known)
    (hfields : r.fields.Tolerate known) : Tolerates known r.decode := by
  intro j j' hj
  induction hj with
  | refl j => rfl
  | perm hperm => exact decode_perm hperm
  | unknown ms hextra =>
      exact (decode_append_unknown ms fun m hm hn => hextra m hm (hnames _ hn)).symm
  | member front key back hj _ => exact decode_replace front back (hfields.readAlike hj key)
  | item front back hj _ =>
      unfold decode
      dsimp only
      rw [r.fields.ofItems_congr_read fun key => hfields.readAlike hj key]
  | trans _ _ ih₁ ih₂ => exact ih₁.trans ih₂

end Serde
