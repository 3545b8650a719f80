import ParatroSdk.Lib.Record

/-! # Internally tagged enums

A variant that holds a record is written as the record's members behind a member with the
variant's name.  Reading takes the tag from wherever it stands and hands the other members to
the variant (`untag`), so the order of members makes no difference
(`decodeTagged_unordered`). -/

namespace Serde

open Json (Reordered Unordered inRange)

variable {α S : Type}

/-- The tag of an enum with the JSON of its variant, which is buffered: a numeral out of range
is an error in any member. -/
def untag (tag : String) : Json → Option (String × Json)
  | .object ms =>
      if (ms.map Prod.fst).count tag ≤ 1 ∧ inRange (.object ms) = true then
        match member ms tag with
        | some (.string name) => some (name, .object (remove ms tag))
        | _ => none
      else none
  | .array (.string name :: items) =>
      if inRange (.array items) = true then some (name, .array items) else none
  | _ => none

/-- Read an enum whose variants are told apart by a member. -/
def decodeTagged (tag : String) (select : String → Json → Option α) (j : Json) : Option α :=
  (untag tag j).bind fun v => select v.1 v.2

/-- A variant with the members of a record. -/
def Record.encodeTagged (r : Record S) (tag name : String) (s : S) : Json :=
  .object ((tag, .string name) :: r.members s)

/-- Two texts of one variant, the members of which stand in another order. -/
abbrev SameVariant : Option (String × Json) → Option (String × Json) → Prop :=
  Option.Rel fun v v' => v.1 = v'.1 ∧ Reordered v.2 v'.2

theorem SameVariant.refl (v : Option (String × Json)) : SameVariant v v := by
  cases v with
  | none => exact .none
  | some v => exact .some ⟨rfl, .refl _⟩

theorem SameVariant.trans {v₁ v₂ v₃ : Option (String × Json)} (h₁ : SameVariant v₁ v₂)
    (h₂ : SameVariant v₂ v₃) : SameVariant v₁ v₃ := by
  cases h₁ with
  | none => exact h₂
  | some h₁ =>
      cases h₂ with
      | some h₂ => exact .some ⟨h₁.1.trans h₂.1, .trans h₁.2 h₂.2⟩

/-- Members with the same keys, of which one is replaced by a text in another order. -/
theorem untag_member (tag : String) {j j' : Json} (front : List (String × Json)) (key : String)
    (back : List (String × Json)) (h : Reordered j j') :
    SameVariant (untag tag (.object (front ++ (key, j) :: back)))
      (untag tag (.object (front ++ (key, j') :: back))) := by
  have hrange := (Reordered.member front key back h).inRange_eq
  unfold untag
  dsimp only
  rw [map_fst_replace front key j j' back, hrange]
  split
  · by_cases hkey : tag = key
    · subst hkey
      rw [member_append_cons, member_append_cons, if_pos rfl, if_pos rfl]
      have hfilter : ∀ i : Json,
          remove (front ++ (tag, i) :: back) tag = remove (front ++ back) tag := by
        intro i
        simp [remove]
      rw [hfilter, hfilter]
      cases member front tag with
      | some i => exact SameVariant.refl _
      | none =>
          rw [Option.none_or, Option.none_or]
          by_cases hscalar : (∀ items, j ≠ .array items) ∧ ∀ ms, j ≠ .object ms
          · rw [h.eq_of_scalar (.inl hscalar)]
            exact SameVariant.refl _
          · have hj : ∀ name, j ≠ .string name := by
              rintro name rfl
              exact hscalar ⟨nofun, nofun⟩
            have hj' : ∀ name, j' ≠ .string name := by
              rintro name rfl
              exact hj name (h.eq_of_scalar (.inr ⟨nofun, nofun⟩))
            split
            · rename_i name hname
              exact absurd (Option.some.inj hname) (hj name)
            · split
              · rename_i name hname
                exact absurd (Option.some.inj hname) (hj' name)
              · exact .none
    · rw [member_append_cons, member_append_cons, if_neg hkey, if_neg hkey]
      have hfilter : ∀ i : Json, remove (front ++ (key, i) :: back) tag =
          remove front tag ++ (key, i) :: remove back tag := by
        intro i
        have hne : (key != tag) = true := bne_iff_ne.mpr (Ne.symm hkey)
        unfold remove
        rw [List.filter_append, List.filter_cons, if_pos hne]
      rw [hfilter, hfilter]
      split
      · exact .some ⟨rfl, .member _ key _ h⟩
      · exact .none
  · exact .none

theorem untag_array_of_ne (tag : String) {j : Json} (items : List Json)
    (h : ¬ ∃ name, j = .string name) : untag tag (.array (j :: items)) = none := by
  cases j with
  | string name => exact absurd ⟨name, rfl⟩ h
  | _ => rfl

/-- The order of members, at any depth, leaves the variant and its members. -/
theorem untag_reordered (tag : String) {j j' : Json} (h : Reordered j j') :
    SameVariant (untag tag j) (untag tag j') := by
  induction h with
  | refl j => exact SameVariant.refl _
  | perm h =>
      have hcount := (h.map Prod.fst).count_eq tag
      have hrange := (Reordered.perm h).inRange_eq
      unfold untag
      dsimp only
      rw [← hcount, ← hrange]
      split
      · rename_i hok
        rw [← Record.member_perm h hok.1]
        split
        · exact .some ⟨rfl, .perm (h.filter _)⟩
        · exact .none
      · exact .none
  | member front key back h ih => exact untag_member tag front key back h
  | item front back h ih =>
      rename_i j j'
      cases front with
      | nil =>
          -- the tag itself, a string, has no members
          by_cases hstring : ∃ name, j = .string name
          · obtain ⟨name, rfl⟩ := hstring
            rw [h.eq_of_scalar (.inl ⟨nofun, nofun⟩)]
            exact SameVariant.refl _
          · have hstring' : ¬ ∃ name, j' = .string name := by
              rintro ⟨name, rfl⟩
              exact hstring ⟨name, h.eq_of_scalar (.inr ⟨nofun, nofun⟩)⟩
            rw [List.nil_append, List.nil_append, untag_array_of_ne tag back hstring,
              untag_array_of_ne tag back hstring']
            exact .none
      | cons i front =>
          by_cases hstring : ∃ name, i = .string name
          · obtain ⟨name, rfl⟩ := hstring
            have hitem := Reordered.item front back h
            rw [List.cons_append, List.cons_append]
            unfold untag
            dsimp only
            rw [hitem.inRange_eq]
            split
            · exact .some ⟨rfl, hitem⟩
            · exact .none
          · rw [List.cons_append, List.cons_append, untag_array_of_ne tag _ hstring,
              untag_array_of_ne tag _ hstring]
            exact .none
  | trans h₁ h₂ ih₁ ih₂ => exact ih₁.trans ih₂

/-- **Reading a tagged enum does not look at the order of members, at any depth.** -/
theorem decodeTagged_unordered {tag : String} {select : String → Json → Option α}
    (h : ∀ name, Unordered (select name)) : Unordered (decodeTagged tag select) := by
  intro j j' hj
  have hsame := untag_reordered tag hj
  unfold decodeTagged
  generalize untag tag j = v at hsame ⊢
  generalize untag tag j' = v' at hsame ⊢
  cases hsame with
  | none => rfl
  | some hvariant =>
      rw [Option.bind_some, Option.bind_some, hvariant.1, h _ _ _ hvariant.2]

namespace Record

variable {r : Record S} {tag name : String}

/-- The members next to the tag are the record's. -/
theorem untag_encodeTagged (htag : tag ∉ r.fields.names) (s : S) :
    untag tag (r.encodeTagged tag name s) = some (name, r.encode s) := by
  have hkey : tag ∉ (r.members s).map Prod.fst := fun hm => htag ((r.keys_members s).subset hm)
  have hcount : (((tag, Json.string name) :: r.members s).map Prod.fst).count tag ≤ 1 := by
    rw [List.map_cons, List.count_cons_self, List.count_eq_zero_of_not_mem hkey]
  have hrange : inRange (.object ((tag, .string name) :: r.members s)) = true := by
    have hmembers := r.inRange_encode s
    unfold encode at hmembers
    rw [Json.inRange_object] at hmembers ⊢
    rw [List.all_cons, hmembers]
    rfl
  have hrest : remove ((tag, Json.string name) :: r.members s) tag = r.members s := by
    unfold remove
    rw [List.filter_cons, if_neg (by simp), List.filter_eq_self]
    intro m hm
    rw [bne_iff_ne]
    rintro rfl
    exact hkey (List.mem_map_of_mem hm)
  unfold encodeTagged untag
  dsimp only
  rw [if_pos ⟨hcount, hrange⟩, member_cons_self, hrest]
  rfl

/-- **A variant is read back, with its members in any order.** -/
theorem decodeTagged_encodeTagged {select : String → Json → Option α} {inject : S → α}
    (htag : tag ∉ r.fields.names) (hselect : ∀ j, select name j = (r.decode j).map inject)
    (hunordered : ∀ name, Unordered (select name)) {s : S} (hok : r.Ok s) {j : Json}
    (hj : Reordered (r.encodeTagged tag name s) j) :
    decodeTagged tag select j = some (inject s) := by
  rw [← decodeTagged_unordered hunordered _ _ hj]
  unfold decodeTagged
  rw [untag_encodeTagged htag, Option.bind_some, hselect, decode_encode_iff.mpr hok]
  rfl

/-- The keys of a variant are distinct, and the first is the tag. -/
theorem nodup_keys_encodeTagged (htag : tag ∉ r.fields.names) (s : S) :
    (keys (r.encodeTagged tag name s)).Nodup :=
  List.nodup_cons.mpr ⟨fun hm => htag ((r.keys_members s).subset hm), r.nodup_keys s⟩

theorem hasMember_tag (htag : tag ∉ r.fields.names) (s : S) :
    HasMember (r.encodeTagged tag name s) tag (some (.string name)) :=
  ⟨_, rfl, nodup_keys_encodeTagged htag s, member_cons_self _ _ _⟩

/-- The member of a field is there next to the tag, unless it is skipped. -/
theorem Has.hasMember_encodeTagged {f : Field α} {get : S → α} {set : S → α → S}
    (h : r.Has f get set) (htag : tag ∉ r.fields.names) (s : S) :
    HasMember (r.encodeTagged tag name s) f.name (f.write (get s)) := by
  have hne : f.name ≠ tag := fun he => htag (he ▸ h.name_mem)
  refine ⟨_, rfl, nodup_keys_encodeTagged htag s, ?_⟩
  rw [member_cons_of_ne hne]
  exact h.member_members s

theorem noNull_encodeTagged {s : S} (h : (r.encode s).noNull = true) :
    (r.encodeTagged tag name s).noNull = true := by
  refine Json.noNull_object.mpr fun m hm => ?_
  obtain rfl | hm := List.mem_cons.mp hm
  · rw [Json.noNull]
  · exact Json.noNull_object.mp h m hm

end Record

end Serde
