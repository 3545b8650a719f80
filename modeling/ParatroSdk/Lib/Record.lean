import ParatroSdk.Lib.Codec

/-! # Derived record codecs

A `Record` writes a structure as a JSON object, one member for each field that is not skipped,
and reads it back from an object, in which the members may stand in any order and others may
stand between them, or from an array of the fields in order.  A member that is repeated is an
error, one that is absent is what the field says (`Field.missing`).

`Record.decode_encode_iff` is the round trip of a record; `Record.decode_unordered` and
`Record.decode_append_unknown` say that order and unknown members make no difference.
`Record.Has` is the place of one field: `decode_set` and `decode_remove` say what a change of
its member does to the record read. -/

namespace Serde

open Json (Reordered Unordered inRange)

variable {α β ρ S : Type}

/-! ### Members -/

/-- The first member of an object with the key. -/
def member (ms : List (String × Json)) (n : String) : Option Json := ms.lookup n

theorem member_cons_self (n : String) (j : Json) (ms : List (String × Json)) :
    member ((n, j) :: ms) n = some j := List.lookup_cons_self

theorem member_cons_of_ne {n k : String} (h : n ≠ k) (j : Json) (ms : List (String × Json)) :
    member ((k, j) :: ms) n = member ms n := by
  unfold member
  rw [List.lookup_cons, beq_eq_false_iff_ne.mpr h]

theorem member_eq_none {ms : List (String × Json)} {n : String} (h : n ∉ ms.map Prod.fst) :
    member ms n = none := by
  unfold member
  rw [List.lookup_eq_none_iff]
  intro m hm
  rw [bne_iff_ne]
  rintro rfl
  exact h (List.mem_map_of_mem hm)

/-- Where a member stands and what its key is. -/
theorem member_append_cons (front : List (String × Json)) (key : String) (j : Json)
    (back : List (String × Json)) (n : String) :
    member (front ++ (key, j) :: back) n =
      ((member front n).or (if n = key then some j else member back n)) := by
  induction front with
  | nil =>
      by_cases hn : n = key
      · subst hn
        rw [List.nil_append, member_cons_self, if_pos rfl]
        rfl
      · rw [List.nil_append, member_cons_of_ne hn, if_neg hn]
        rfl
  | cons m front ih =>
      obtain ⟨k, i⟩ := m
      by_cases hn : n = k
      · subst hn
        rw [List.cons_append, member_cons_self, member_cons_self]
        rfl
      · rw [List.cons_append, member_cons_of_ne hn, member_cons_of_ne hn, ih]

theorem map_fst_replace (front : List (String × Json)) (key : String) (j j' : Json)
    (back : List (String × Json)) :
    (front ++ (key, j) :: back).map Prod.fst = (front ++ (key, j') :: back).map Prod.fst := by
  simp

/-- The members with other keys. -/
def remove (ms : List (String × Json)) (key : String) : List (String × Json) :=
  ms.filter fun m => m.1 != key

theorem member_remove_of_ne {n key : String} (h : n ≠ key) (ms : List (String × Json)) :
    member (remove ms key) n = member ms n := by
  induction ms with
  | nil => rfl
  | cons m ms ih =>
      obtain ⟨k, j⟩ := m
      unfold remove at ih ⊢
      by_cases hk : k = key
      · rw [List.filter_cons, if_neg (by simp [hk]), ih, member_cons_of_ne (hk ▸ h)]
      · rw [List.filter_cons, if_pos (bne_iff_ne.mpr hk)]
        by_cases hn : n = k
        · subst hn
          rw [member_cons_self, member_cons_self]
        · rw [member_cons_of_ne hn, member_cons_of_ne hn, ih]

theorem key_notMem_remove (ms : List (String × Json)) (key : String) :
    key ∉ (remove ms key).map Prod.fst := by
  intro hm
  obtain ⟨m, hm, hkey⟩ := List.mem_map.mp hm
  have hne := (List.mem_filter.mp hm).2
  rw [hkey, bne_self_eq_false] at hne
  cases hne

/-- The keys of an object. -/
def keys : Json → List String
  | .object ms => ms.map Prod.fst
  | _ => []

/-- An object of distinct keys with the member, which is absent for `none`. -/
def HasMember (j : Json) (key : String) (value : Option Json) : Prop :=
  ∃ ms, j = .object ms ∧ (ms.map Prod.fst).Nodup ∧ member ms key = value

/-! ### Lists of fields -/

/-- The fields of a record, with the type of their values in order. -/
inductive Fields : Type → Type 1
  | nil : Fields Unit
  | cons {α ρ : Type} (f : Field α) (fs : Fields ρ) : Fields (α × ρ)

namespace Fields

def names : {ρ : Type} → Fields ρ → List String
  | _, nil => []
  | _, cons f fs => f.name :: fs.names

/-- The members written for the fields, in order. -/
def members : {ρ : Type} → Fields ρ → ρ → List (String × Json)
  | _, nil, _ => []
  | _, cons f fs, row =>
      match f.write row.1 with
      | some j => (f.name, j) :: fs.members row.2
      | none => fs.members row.2

/-- Read the fields from an object whose members are looked up by name. -/
def ofMembers : {ρ : Type} → Fields ρ → (String → Option Json) → Option ρ
  | _, nil, _ => some ()
  | _, cons f fs, get =>
      (match get f.name with
        | some j => f.read j
        | none => f.missing).bind fun v => (fs.ofMembers get).map (v, ·)

/-- Read the fields from the items of an array. -/
def ofItems : {ρ : Type} → Fields ρ → List Json → Option ρ
  | _, nil, [] => some ()
  | _, nil, _ :: _ => none
  | _, cons f fs, [] => f.missingItem.bind fun v => (fs.ofItems []).map (v, ·)
  | _, cons f fs, j :: js => (f.read j).bind fun v => (fs.ofItems js).map (v, ·)

def Ok : {ρ : Type} → Fields ρ → ρ → Prop
  | _, nil, _ => True
  | _, cons f fs, row => f.Ok row.1 ∧ fs.Ok row.2

/-- No field looks at the order of members. -/
def Unordered : {ρ : Type} → Fields ρ → Prop
  | _, nil => True
  | _, cons f fs => Json.Unordered f.read ∧ fs.Unordered

/-- The field with the name reads the same in both. -/
def ReadAlike (key : String) (j j' : Json) : {ρ : Type} → Fields ρ → Prop
  | _, nil => True
  | _, cons f fs => (f.name = key → f.read j = f.read j') ∧ fs.ReadAlike key j j'

theorem ofMembers_congr (fs : Fields ρ) {get get' : String → Option Json}
    (h : ∀ n ∈ fs.names, get n = get' n) : fs.ofMembers get = fs.ofMembers get' := by
  induction fs with
  | nil => rfl
  | cons f fs ih =>
      unfold ofMembers
      rw [h f.name List.mem_cons_self, ih fun n hn => h n (List.mem_cons_of_mem _ hn)]

theorem readAlike_of_unordered {fs : Fields ρ} (h : fs.Unordered) (key : String) {j j' : Json}
    (hj : Reordered j j') : fs.ReadAlike key j j' := by
  induction fs with
  | nil => trivial
  | cons f fs ih => exact ⟨fun _ => h.1 _ _ hj, ih h.2⟩

/-- Members that read the same give the same row. -/
theorem ofMembers_congr_read (fs : Fields ρ) {key : String} {j j' : Json}
    (hread : fs.ReadAlike key j j') {look look' : String → Option Json}
    (h : ∀ n, look n = look' n ∨ n = key ∧ look n = some j ∧ look' n = some j') :
    fs.ofMembers look = fs.ofMembers look' := by
  induction fs with
  | nil => rfl
  | cons f fs ih =>
      unfold ofMembers
      rw [ih hread.2]
      obtain heq | ⟨hname, hj, hj'⟩ := h f.name
      · rw [heq]
      · rw [hj, hj']
        dsimp only
        rw [hread.1 hname]

/-- Items that read the same in every field give the same row. -/
theorem ofItems_congr_read (fs : Fields ρ) {j j' : Json} (hread : ∀ key, fs.ReadAlike key j j')
    (front back : List Json) :
    fs.ofItems (front ++ j :: back) = fs.ofItems (front ++ j' :: back) := by
  induction fs generalizing front with
  | nil => cases front <;> rfl
  | cons f fs ih =>
      cases front with
      | nil =>
          rw [List.nil_append, List.nil_append, ofItems, ofItems, (hread f.name).1 rfl]
      | cons j₀ front =>
          rw [List.cons_append, List.cons_append, ofItems, ofItems, ih fun key => (hread key).2]

theorem keys_members (fs : Fields ρ) (row : ρ) :
    ((fs.members row).map Prod.fst).Sublist fs.names := by
  induction fs with
  | nil => exact List.Sublist.refl _
  | cons f fs ih =>
      unfold members names
      split
      · exact (ih row.2).cons_cons _
      · exact (ih row.2).cons _

/-- What is written is read back. -/
theorem ofMembers_members (fs : Fields ρ) (hnames : fs.names.Nodup) {row : ρ} (hok : fs.Ok row) :
    fs.ofMembers (member (fs.members row)) = some row := by
  induction fs with
  | nil => rfl
  | cons f fs ih =>
      obtain ⟨hname, hrest⟩ := List.nodup_cons.mp hnames
      obtain ⟨hf, hfs⟩ := hok
      have habsent : member (fs.members row.2) f.name = none :=
        member_eq_none fun hm => hname ((fs.keys_members row.2).subset hm)
      unfold ofMembers
      cases hw : f.write row.1 with
      | some j =>
          have hmem : (cons f fs).members row = (f.name, j) :: fs.members row.2 := by
            rw [members, hw]
          have htail : fs.ofMembers (member ((f.name, j) :: fs.members row.2)) =
              fs.ofMembers (member (fs.members row.2)) := by
            apply ofMembers_congr
            intro n hn
            apply member_cons_of_ne
            rintro rfl
            exact hname hn
          rw [hmem, htail, ih hrest hfs, member_cons_self]
          dsimp only
          rw [f.read_write _ _ hf hw]
          rfl
      | none =>
          have hmem : (cons f fs).members row = fs.members row.2 := by
            rw [members, hw]
          rw [hmem, ih hrest hfs, habsent]
          dsimp only
          rw [f.missing_write _ hf hw]
          rfl

/-- All that the fields write has the property. -/
def WritesOnly (P : Json → Prop) : {ρ : Type} → Fields ρ → Prop
  | _, nil => True
  | _, cons f fs => (∀ v, ∀ j ∈ f.write v, P j) ∧ fs.WritesOnly P

theorem writesOnly_required {P : Json → Prop} (name : String) {c : Codec α}
    (h : ∀ v, P (c.write v)) : ∀ v, ∀ j ∈ (Field.required name c).write v, P j := by
  intro v j hj
  obtain rfl := Option.some.inj hj
  exact h v

theorem writesOnly_optional {P : Json → Prop} (name : String) {c : Codec α}
    (h : ∀ v, P (c.write v)) : ∀ v, ∀ j ∈ (Field.optional name c).write v, P j := by
  intro v j hj
  obtain ⟨a, -, rfl⟩ := Option.map_eq_some_iff.mp hj
  exact h a

theorem WritesOnly.members {P : Json → Prop} {fs : Fields ρ} (h : fs.WritesOnly P) (row : ρ) :
    ∀ m ∈ fs.members row, P m.2 := by
  induction fs with
  | nil => exact nofun
  | cons f fs ih =>
      obtain ⟨hf, hfs⟩ := h
      intro m hm
      unfold Fields.members at hm
      split at hm
      · rename_i j hw
        obtain rfl | hm := List.mem_cons.mp hm
        · exact hf _ j hw
        · exact ih hfs row.2 m hm
      · exact ih hfs row.2 m hm

/-- What is written has no numeral out of range. -/
theorem inRange_members (fs : Fields ρ) (row : ρ) :
    (fs.members row).all (fun m => inRange m.2) = true := by
  induction fs with
  | nil => rfl
  | cons f fs ih =>
      unfold members
      split
      · rename_i j hw
        rw [List.all_cons, f.inRange_write _ j hw, ih row.2]
        rfl
      · exact ih row.2

theorem ok_ofMembers (fs : Fields ρ) {get : String → Option Json} {row : ρ}
    (h : fs.ofMembers get = some row) : fs.Ok row := by
  induction fs with
  | nil => trivial
  | cons f fs ih =>
      unfold ofMembers at h
      obtain ⟨v, hv, hrest⟩ := Option.bind_eq_some_iff.mp h
      obtain ⟨row', hrow, rfl⟩ := Option.map_eq_some_iff.mp hrest
      refine ⟨?_, ih hrow⟩
      split at hv
      · exact f.ok_read _ _ hv
      · exact f.ok_missing _ hv

theorem ok_ofItems (fs : Fields ρ) {js : List Json} {row : ρ} (h : fs.ofItems js = some row) :
    fs.Ok row := by
  induction fs generalizing js with
  | nil => trivial
  | cons f fs ih =>
      cases js with
      | nil =>
          unfold ofItems at h
          obtain ⟨v, hv, hrest⟩ := Option.bind_eq_some_iff.mp h
          obtain ⟨row', hrow, rfl⟩ := Option.map_eq_some_iff.mp hrest
          exact ⟨f.ok_missingItem _ hv, ih hrow⟩
      | cons j js =>
          unfold ofItems at h
          obtain ⟨v, hv, hrest⟩ := Option.bind_eq_some_iff.mp h
          obtain ⟨row', hrow, rfl⟩ := Option.map_eq_some_iff.mp hrest
          exact ⟨f.ok_read _ _ hv, ih hrow⟩

/-! ### The place of one field -/

/-- `f` is the field of the list whose value `get` takes out of a row and `set` puts in. -/
inductive At {α : Type} (f : Field α) : {ρ : Type} → Fields ρ → (ρ → α) → (ρ → α → ρ) → Prop
  | head {ρ : Type} (fs : Fields ρ) : At f (cons f fs) (fun row => row.1) (fun row v => (v, row.2))
  | tail {β ρ : Type} (g : Field β) {fs : Fields ρ} {get : ρ → α} {set : ρ → α → ρ}
      (h : At f fs get set) :
      At f (cons g fs) (fun row => get row.2) (fun row v => (row.1, set row.2 v))

namespace At

variable {f : Field α} {fs : Fields ρ} {get : ρ → α} {set : ρ → α → ρ}

theorem name_mem (h : At f fs get set) : f.name ∈ fs.names := by
  induction h with
  | head fs => exact List.mem_cons_self
  | tail g h ih => exact List.mem_cons_of_mem _ ih

theorem ok (h : At f fs get set) {row : ρ} (hok : fs.Ok row) : f.Ok (get row) := by
  induction h with
  | head fs => exact hok.1
  | tail g h ih => exact ih hok.2

/-- The member of a field is there unless it is skipped. -/
theorem member_members (h : At f fs get set) (hnames : fs.names.Nodup) (row : ρ) :
    member (fs.members row) f.name = f.write (get row) := by
  induction h with
  | head fs =>
      have habsent := member_eq_none fun hm =>
        (List.nodup_cons.mp hnames).1 ((fs.keys_members row.2).subset hm)
      unfold members
      cases f.write row.1 with
      | some j => exact member_cons_self _ _ _
      | none => exact habsent
  | tail g h ih =>
      obtain ⟨hname, hrest⟩ := List.nodup_cons.mp hnames
      have hne : f.name ≠ g.name := fun he => hname (he ▸ h.name_mem)
      unfold members
      split
      · rw [member_cons_of_ne hne, ih hrest]
      · exact ih hrest row.2

/-- The other fields do not read the member. -/
theorem readAlike (h : At f fs get set) (hnames : fs.names.Nodup) {j j' : Json}
    (hj : f.read j = f.read j') : fs.ReadAlike f.name j j' := by
  have hothers : ∀ {ρ : Type} (fs : Fields ρ), f.name ∉ fs.names → fs.ReadAlike f.name j j' := by
    intro ρ fs
    induction fs with
    | nil => exact fun _ => trivial
    | cons g fs ih =>
        intro hnot
        have hne : f.name ≠ g.name := fun he => hnot (he ▸ List.mem_cons_self)
        exact ⟨fun he => absurd he.symm hne, ih fun hm => hnot (List.mem_cons_of_mem _ hm)⟩
  induction h with
  | head fs => exact ⟨fun _ => hj, hothers fs (List.nodup_cons.mp hnames).1⟩
  | tail g h ih =>
      obtain ⟨hname, hrest⟩ := List.nodup_cons.mp hnames
      have hne : g.name ≠ f.name := fun he => hname (he ▸ h.name_mem)
      exact ⟨fun he => absurd he hne, ih hrest⟩

/-- A change of one member changes one field. -/
theorem ofMembers_set (h : At f fs get set) (hnames : fs.names.Nodup)
    {look look' : String → Option Json} {row : ρ} {v : α}
    (hsame : ∀ n ∈ fs.names, n ≠ f.name → look' n = look n)
    (hv : (match look' f.name with
      | some j => f.read j
      | none => f.missing) = some v)
    (hrow : fs.ofMembers look = some row) : fs.ofMembers look' = some (set row v) := by
  induction h with
  | head fs =>
      obtain ⟨hname, -⟩ := List.nodup_cons.mp hnames
      unfold ofMembers at hrow ⊢
      obtain ⟨v₀, -, hrest⟩ := Option.bind_eq_some_iff.mp hrow
      obtain ⟨row', hrow', rfl⟩ := Option.map_eq_some_iff.mp hrest
      have htail : fs.ofMembers look' = fs.ofMembers look := by
        apply ofMembers_congr
        intro n hn
        apply hsame n (List.mem_cons_of_mem _ hn)
        rintro rfl
        exact hname hn
      rw [hv, Option.bind_some, htail, hrow', Option.map_some]
  | tail g h ih =>
      obtain ⟨hname, hrest⟩ := List.nodup_cons.mp hnames
      have hne : g.name ≠ f.name := fun he => hname (he ▸ h.name_mem)
      unfold ofMembers at hrow ⊢
      obtain ⟨v₀, hv₀, htail⟩ := Option.bind_eq_some_iff.mp hrow
      obtain ⟨row', hrow', rfl⟩ := Option.map_eq_some_iff.mp htail
      rw [hsame g.name List.mem_cons_self hne, hv₀, Option.bind_some,
        ih hrest (fun n hn => hsame n (List.mem_cons_of_mem _ hn)) hrow', Option.map_some]

end At

end Fields

/-! ### Records -/

/-- No member with one of the names is repeated. -/
def unrepeated (names : List String) (ms : List (String × Json)) : Bool :=
  names.all fun n => decide ((ms.map Prod.fst).count n ≤ 1)

/-- A structure with its fields under their names in JSON. -/
structure Record (S : Type) where
  Row : Type
  fields : Fields Row
  toRow : S → Row
  ofRow : Row → S
  ofRow_toRow : ∀ s, ofRow (toRow s) = s
  toRow_ofRow : ∀ row, toRow (ofRow row) = row
  distinct : fields.names.Nodup

namespace Record

variable (r : Record S)

/-- The members of the object that is written. -/
def members (s : S) : List (String × Json) := r.fields.members (r.toRow s)

def encode (s : S) : Json := .object (r.members s)

def decode : Json → Option S
  | .object ms =>
      if unrepeated r.fields.names ms then (r.fields.ofMembers (member ms)).map r.ofRow else none
  | .array items => (r.fields.ofItems items).map r.ofRow
  | _ => none

/-- The structures that are read back as they are written. -/
def Ok (s : S) : Prop := r.fields.Ok (r.toRow s)

theorem unrepeated_iff {names : List String} {ms : List (String × Json)} :
    unrepeated names ms = true ↔ ∀ n ∈ names, (ms.map Prod.fst).count n ≤ 1 := by
  simp [unrepeated]

theorem keys_members (s : S) : ((r.members s).map Prod.fst).Sublist r.fields.names :=
  r.fields.keys_members _

theorem nodup_keys (s : S) : ((r.members s).map Prod.fst).Nodup :=
  (r.keys_members s).nodup r.distinct

theorem inRange_encode (s : S) : inRange (r.encode s) = true := by
  unfold encode
  rw [Json.inRange_object]
  exact r.fields.inRange_members _

theorem noNull_encode (h : r.fields.WritesOnly fun j => Json.noNull j = true) (s : S) :
    Json.noNull (r.encode s) = true := Json.noNull_object.mpr (h.members _)

variable {r}

theorem decode_object_iff {ms : List (String × Json)} {s : S} :
    r.decode (.object ms) = some s ↔ unrepeated r.fields.names ms = true ∧
      ∃ row, r.fields.ofMembers (member ms) = some row ∧ r.ofRow row = s := by
  unfold decode
  dsimp only
  split
  · rename_i h
    rw [Option.map_eq_some_iff]
    exact (and_iff_right h).symm
  · rename_i h
    exact ⟨nofun, fun hs => absurd hs.1 h⟩

theorem ok_of_decode {j : Json} {s : S} (h : r.decode j = some s) : r.Ok s := by
  unfold decode at h
  unfold Ok
  split at h
  · split at h
    · obtain ⟨row, hrow, rfl⟩ := Option.map_eq_some_iff.mp h
      rw [r.toRow_ofRow]
      exact r.fields.ok_ofMembers hrow
    · cases h
  · obtain ⟨row, hrow, rfl⟩ := Option.map_eq_some_iff.mp h
    rw [r.toRow_ofRow]
    exact r.fields.ok_ofItems hrow
  · cases h

/-- **A structure is read back as it is written exactly when it is in `Ok`.** -/
theorem decode_encode_iff {s : S} : r.decode (r.encode s) = some s ↔ r.Ok s := by
  refine ⟨ok_of_decode, fun hok => ?_⟩
  have hunrepeated : unrepeated r.fields.names (r.members s) = true :=
    unrepeated_iff.mpr fun n _ => List.nodup_iff_count_le_one.mp (r.nodup_keys s) n
  exact decode_object_iff.mpr ⟨hunrepeated, r.toRow s, r.fields.ofMembers_members r.distinct hok,
    r.ofRow_toRow s⟩

/-- What has been read is read back as it is written. -/
theorem decode_encode_of_decode {j : Json} {s : S} (h : r.decode j = some s) :
    r.decode (r.encode s) = some s :=
  decode_encode_iff.mpr (ok_of_decode h)

/-- A record in a member of another. -/
def codec (r : Record S) : Codec S where
  write := r.encode
  read := r.decode
  Ok := r.Ok
  read_write _ hok := decode_encode_iff.mpr hok
  ok_read _ _ h := ok_of_decode h
  null_of_write _ _ _ h := by cases h
  inRange_write := r.inRange_encode

/-! ### Order and unknown members -/

theorem member_perm {ms ms' : List (String × Json)} (h : ms.Perm ms') {n : String}
    (hcount : (ms.map Prod.fst).count n ≤ 1) : member ms n = member ms' n := by
  induction h with
  | nil => rfl
  | cons m h ih =>
      obtain ⟨k, j⟩ := m
      by_cases hk : n = k
      · subst hk
        rw [member_cons_self, member_cons_self]
      · rw [member_cons_of_ne hk, member_cons_of_ne hk]
        apply ih
        rw [List.map_cons, List.count_cons_of_ne (Ne.symm hk)] at hcount
        exact hcount
  | swap m m' ms =>
      obtain ⟨k, j⟩ := m
      obtain ⟨k', j'⟩ := m'
      by_cases hk : n = k
      · by_cases hk' : n = k'
        · rw [← hk, ← hk'] at hcount
          simp at hcount
        · subst hk
          rw [member_cons_of_ne hk', member_cons_self, member_cons_self]
      · by_cases hk' : n = k'
        · subst hk'
          rw [member_cons_self, member_cons_of_ne hk, member_cons_self]
        · rw [member_cons_of_ne hk', member_cons_of_ne hk, member_cons_of_ne hk,
            member_cons_of_ne hk']
  | trans h₁ h₂ ih₁ ih₂ =>
      rw [ih₁ hcount]
      apply ih₂
      rw [← (h₁.map Prod.fst).count_eq]
      exact hcount

/-- The order of the members makes no difference. -/
theorem decode_perm {ms ms' : List (String × Json)} (h : ms.Perm ms') :
    r.decode (.object ms) = r.decode (.object ms') := by
  have hcounts : unrepeated r.fields.names ms = unrepeated r.fields.names ms' := by
    unfold unrepeated
    simp only [(h.map Prod.fst).count_eq]
  unfold decode
  dsimp only
  rw [← hcounts]
  by_cases hun : unrepeated r.fields.names ms = true
  · rw [if_pos hun, if_pos hun, r.fields.ofMembers_congr fun n hn =>
      member_perm h (unrepeated_iff.mp hun n hn)]
  · rw [if_neg hun, if_neg hun]

theorem member_append {ms extra : List (String × Json)} {n : String}
    (h : n ∉ extra.map Prod.fst) : member (ms ++ extra) n = member ms n := by
  induction ms with
  | nil => exact member_eq_none h
  | cons m ms ih =>
      obtain ⟨k, j⟩ := m
      by_cases hk : n = k
      · subst hk
        rw [List.cons_append, member_cons_self, member_cons_self]
      · rw [List.cons_append, member_cons_of_ne hk, member_cons_of_ne hk, ih]

/-- Members with other names make no difference. -/
theorem decode_append_unknown (ms : List (String × Json)) {extra : List (String × Json)}
    (h : ∀ m ∈ extra, m.1 ∉ r.fields.names) :
    r.decode (.object (ms ++ extra)) = r.decode (.object ms) := by
  have habsent : ∀ n ∈ r.fields.names, n ∉ extra.map Prod.fst := by
    intro n hn hkey
    obtain ⟨m, hm, rfl⟩ := List.mem_map.mp hkey
    exact h m hm hn
  have hcounts : unrepeated r.fields.names (ms ++ extra) = unrepeated r.fields.names ms := by
    rw [Bool.eq_iff_iff, unrepeated_iff, unrepeated_iff]
    refine forall₂_congr fun n hn => ?_
    rw [List.map_append, List.count_append, List.count_eq_zero_of_not_mem (habsent n hn), add_zero]
  unfold decode
  dsimp only
  rw [hcounts, r.fields.ofMembers_congr fun n hn => member_append (habsent n hn)]

/-- A member may be replaced by one that reads the same. -/
theorem decode_replace (front : List (String × Json)) {key : String} {j j' : Json}
    (back : List (String × Json)) (h : r.fields.ReadAlike key j j') :
    r.decode (.object (front ++ (key, j) :: back)) =
      r.decode (.object (front ++ (key, j') :: back)) := by
  have hlook : ∀ n, member (front ++ (key, j) :: back) n = member (front ++ (key, j') :: back) n ∨
      n = key ∧ member (front ++ (key, j) :: back) n = some j ∧
        member (front ++ (key, j') :: back) n = some j' := by
    intro n
    rw [member_append_cons, member_append_cons]
    cases member front n with
    | some i => exact .inl rfl
    | none =>
        rw [Option.none_or, Option.none_or]
        by_cases hn : n = key
        · rw [if_pos hn, if_pos hn]
          exact .inr ⟨hn, rfl, rfl⟩
        · rw [if_neg hn, if_neg hn]
          exact .inl rfl
  have hcounts : unrepeated r.fields.names (front ++ (key, j) :: back) =
      unrepeated r.fields.names (front ++ (key, j') :: back) := by
    unfold unrepeated
    rw [map_fst_replace]
  unfold decode
  dsimp only
  rw [hcounts, r.fields.ofMembers_congr_read h hlook]

/-- **Reading a record does not look at the order of members, at any depth.** -/
theorem decode_unordered (h : r.fields.Unordered) : Unordered r.decode := by
  intro j j' hj
  induction hj with
  | refl j => rfl
  | perm hperm => exact decode_perm hperm
  | member front key back hj ih =>
      exact decode_replace front back (Fields.readAlike_of_unordered h key hj)
  | item front back hj ih =>
      unfold decode
      dsimp only
      rw [r.fields.ofItems_congr_read fun key => Fields.readAlike_of_unordered h key hj]
  | trans h₁ h₂ ih₁ ih₂ => exact ih₁.trans ih₂

/-! ### The place of one field -/

/-- The field is one of the record's, under `get` and `set`. -/
def Has (r : Record S) (f : Field α) (get : S → α) (set : S → α → S) : Prop :=
  ∃ rowGet rowSet, Fields.At f r.fields rowGet rowSet ∧ (∀ s, rowGet (r.toRow s) = get s) ∧
    ∀ row v, r.ofRow (rowSet row v) = set (r.ofRow row) v

namespace Has

variable {f : Field α} {get : S → α} {set : S → α → S}

theorem name_mem (h : r.Has f get set) : f.name ∈ r.fields.names := by
  obtain ⟨_, _, hat, -, -⟩ := h
  exact hat.name_mem

theorem ok (h : r.Has f get set) {s : S} (hok : r.Ok s) : f.Ok (get s) := by
  obtain ⟨_, _, hat, hget, -⟩ := h
  have hf := hat.ok hok
  rw [hget] at hf
  exact hf

/-- The member of a field is there unless it is skipped. -/
theorem member_members (h : r.Has f get set) (s : S) :
    member (r.members s) f.name = f.write (get s) := by
  obtain ⟨_, _, hat, hget, -⟩ := h
  have hmember := hat.member_members r.distinct (r.toRow s)
  rw [hget] at hmember
  exact hmember

/-- The other fields do not read the member. -/
theorem readAlike (h : r.Has f get set) {j j' : Json} (hj : f.read j = f.read j') :
    r.fields.ReadAlike f.name j j' := by
  obtain ⟨_, _, hat, -, -⟩ := h
  exact hat.readAlike r.distinct hj

/-- A change of one member changes one field. -/
theorem decode_change (h : r.Has f get set) {ms ms' : List (String × Json)} {s : S} {v : α}
    (hs : r.decode (.object ms) = some s) (hsame : ∀ n, n ≠ f.name → member ms' n = member ms n)
    (hunrepeated : unrepeated r.fields.names ms' = true)
    (hv : (match member ms' f.name with
      | some j => f.read j
      | none => f.missing) = some v) : r.decode (.object ms') = some (set s v) := by
  obtain ⟨_, rowSet, hat, -, hset⟩ := h
  obtain ⟨-, row, hrow, rfl⟩ := decode_object_iff.mp hs
  exact decode_object_iff.mpr ⟨hunrepeated, rowSet row v,
    hat.ofMembers_set r.distinct (fun n _ hn => hsame n hn) hv hrow, hset row v⟩

/-- The keys of the record's other fields are not repeated by removing a member. -/
theorem count_remove_le {ms : List (String × Json)} {s : S} (hs : r.decode (.object ms) = some s)
    (key : String) {n : String} (hn : n ∈ r.fields.names) :
    ((remove ms key).map Prod.fst).count n ≤ 1 := by
  have hsub : ((remove ms key).map Prod.fst).Sublist (ms.map Prod.fst) :=
    List.filter_sublist.map Prod.fst
  exact (hsub.count_le n).trans (unrepeated_iff.mp (decode_object_iff.mp hs).1 n hn)

/-- A member that is removed is as the field says of one that is missing. -/
theorem decode_remove (h : r.Has f get set) {ms : List (String × Json)} {s : S} {v : α}
    (hs : r.decode (.object ms) = some s) (hv : f.missing = some v) :
    r.decode (.object (remove ms f.name)) = some (set s v) := by
  apply h.decode_change hs
  · exact fun n hn => member_remove_of_ne hn ms
  · exact unrepeated_iff.mpr fun n hn => count_remove_le hs f.name hn
  · rw [member_eq_none (key_notMem_remove ms f.name)]
    exact hv

/-- A member that is set is read in place of the one it had. -/
theorem decode_set (h : r.Has f get set) {ms : List (String × Json)} {s : S} {j : Json} {v : α}
    (hs : r.decode (.object ms) = some s) (hv : f.read j = some v) :
    r.decode (.object ((f.name, j) :: remove ms f.name)) = some (set s v) := by
  apply h.decode_change hs
  · intro n hn
    rw [member_cons_of_ne hn, member_remove_of_ne hn]
  · refine unrepeated_iff.mpr fun n hn => ?_
    rw [List.map_cons]
    by_cases hname : n = f.name
    · subst hname
      rw [List.count_cons_self, List.count_eq_zero_of_not_mem (key_notMem_remove ms f.name)]
    · rw [List.count_cons_of_ne (Ne.symm hname)]
      exact count_remove_le hs f.name hn
  · rw [member_cons_self]
    exact hv

end Has

end Record

end Serde
