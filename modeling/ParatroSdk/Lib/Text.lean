import Mathlib.Data.List.DropRight
import Mathlib.Data.List.Infix
import Mathlib.Data.List.TakeWhile

/-! # Strings and their bytes

The string operations used on `str` values, on the list of characters (Unicode scalar
values) of a `String`, and the bytes of its UTF-8 form.  Comparing bytes compares strings
(`utf8_injective`), an ASCII byte stands for its character wherever it occurs
(`mem_of_ascii_mem_utf8`), and a text is split at its first separator in one way only
(`append_cons_inj_of_notMem`). -/

namespace Text

/-- Raw bytes. -/
abbrev Bytes := List UInt8

/-- The UTF-8 bytes of a list of characters. -/
def utf8Chars (l : List Char) : Bytes := l.flatMap String.utf8EncodeChar

/-- `str::as_bytes`. -/
def utf8 (s : String) : Bytes := utf8Chars s.toList

@[simp] theorem utf8Chars_cons (c : Char) (l : List Char) :
    utf8Chars (c :: l) = String.utf8EncodeChar c ++ utf8Chars l := rfl

@[simp] theorem utf8Chars_append (l m : List Char) :
    utf8Chars (l ++ m) = utf8Chars l ++ utf8Chars m := List.flatMap_append

theorem utf8_append (s t : String) : utf8 (s ++ t) = utf8 s ++ utf8 t := by
  simp [utf8]

theorem toByteArray_utf8 (s : String) : (utf8 s).toByteArray = s.toByteArray := by
  rw [← String.utf8Encode_toList]
  rfl

/-- Two strings with the same bytes are equal. -/
theorem utf8_injective : Function.Injective utf8 := by
  intro s t h
  rw [← String.toByteArray_inj, ← toByteArray_utf8, h, toByteArray_utf8]

/-- `std::str::from_utf8`. -/
def fromUtf8 (bytes : Bytes) : Option String := String.fromUTF8? bytes.toByteArray

theorem fromUtf8_utf8 (s : String) : fromUtf8 (utf8 s) = some s := by
  rw [fromUtf8, toByteArray_utf8, String.fromUTF8?, dif_pos s.isValidUTF8]
  rfl

/-- The byte of an ASCII character occurs only where the character does. -/
theorem mem_of_ascii_mem_utf8 {s : String} {c : Char} (hc : c.val ≤ 127)
    (h : c.val.toUInt8 ∈ utf8 s) : c ∈ s.toList := by
  obtain ⟨d, hd, hb⟩ := List.mem_flatMap.mp h
  have hc' : c.val.toNat ≤ 127 := hc
  have hval : c.val.toUInt8.toNat = c.val.toNat := Nat.mod_eq_of_lt (by omega)
  have hsmall : ∀ n, c.val.toUInt8 = UInt8.ofNat n → c.val.toNat = n % 256 := by
    intro n hn
    rw [← hval, hn]
    exact UInt8.toNat_ofNat'
  unfold String.utf8EncodeChar at hb
  dsimp only at hb
  split at hb
  · have hn := hsmall _ (List.mem_singleton.mp hb)
    have hcd : c.val = d.val := UInt32.toNat_inj.mp (by omega)
    rwa [Char.ext hcd]
  -- The bytes of a longer encoding are 128 and above.
  · split at hb
    · simp only [List.mem_cons, List.not_mem_nil, or_false] at hb
      rcases hb with hb | hb <;> have hn := hsmall _ hb <;> omega
    · split at hb
      · simp only [List.mem_cons, List.not_mem_nil, or_false] at hb
        rcases hb with hb | hb | hb <;> have hn := hsmall _ hb <;> omega
      · simp only [List.mem_cons, List.not_mem_nil, or_false] at hb
        rcases hb with hb | hb | hb | hb <;> have hn := hsmall _ hb <;> omega

/-! ### Up to a separator -/

section separator
variable {α : Type} [BEq α] [LawfulBEq α] {sep : α} {l x : List α}

theorem notMem_takeWhile_ne (sep : α) (l : List α) : sep ∉ l.takeWhile (· != sep) := by
  intro h
  have hne := List.mem_takeWhile_imp h
  rw [bne_iff_ne] at hne
  exact hne rfl

theorem takeWhile_ne_of_notMem (h : sep ∉ l) : l.takeWhile (· != sep) = l := by
  rw [List.takeWhile_eq_self_iff]
  intro a ha
  rw [bne_iff_ne]
  rintro rfl
  exact h ha

/-- What is taken up to a separator is the whole list, or ends where a separator stands. -/
theorem takeWhile_ne_eq_iff :
    l.takeWhile (· != sep) = x ↔ sep ∉ x ∧ (l = x ∨ ∃ t, l = x ++ sep :: t) := by
  constructor
  · rintro rfl
    refine ⟨notMem_takeWhile_ne sep l, ?_⟩
    have hsplit := List.takeWhile_append_dropWhile (p := (· != sep)) (l := l)
    cases hdrop : l.dropWhile (· != sep) with
    | nil =>
        rw [hdrop, List.append_nil] at hsplit
        exact .inl hsplit.symm
    | cons a t =>
        have hnot := List.head?_dropWhile_not (· != sep) l
        rw [hdrop] at hnot
        obtain rfl : a = sep := by simpa using hnot
        rw [hdrop] at hsplit
        exact .inr ⟨t, hsplit.symm⟩
  · rintro ⟨hno, rfl | ⟨t, rfl⟩⟩
    · exact takeWhile_ne_of_notMem hno
    · have hx := takeWhile_ne_of_notMem hno
      rw [List.takeWhile_append, hx, if_pos rfl, List.takeWhile_cons_of_neg (by simp),
        List.append_nil]

end separator

/-- Trimming at the end goes through more of what is trimmed. -/
theorem rdropWhile_append_of_pos {α : Type} {p : α → Bool} {x : List α} (h : ∀ a ∈ x, p a = true)
    (l : List α) : (l ++ x).rdropWhile p = l.rdropWhile p := by
  have hx : ∀ a ∈ x.reverse, p a = true := fun a ha => h a (List.mem_reverse.mp ha)
  rw [List.rdropWhile, List.reverse_append, List.dropWhile_append_of_pos hx, List.rdropWhile]

/-- The parts before and after the first separator are determined by the whole. -/
theorem append_cons_inj_of_notMem {α : Type} {sep : α} {a a' b b' : List α} (h : sep ∉ a)
    (h' : sep ∉ a') (heq : a ++ sep :: b = a' ++ sep :: b') : a = a' ∧ b = b' := by
  induction a generalizing a' with
  | nil =>
      cases a' with
      | nil => exact ⟨rfl, (List.cons.inj heq).2⟩
      | cons x a' => exact absurd ((List.cons.inj heq).1 ▸ List.mem_cons_self) h'
  | cons x a ih =>
      cases a' with
      | nil => exact absurd ((List.cons.inj heq).1 ▸ List.mem_cons_self) h
      | cons y a' =>
          obtain ⟨rfl, htail⟩ := List.cons.inj heq
          obtain ⟨rfl, rfl⟩ := ih (fun hm => h (List.mem_cons_of_mem _ hm))
            (fun hm => h' (List.mem_cons_of_mem _ hm)) htail
          exact ⟨rfl, rfl⟩

/-- What stands before the first separator is not longer than what stands before another. -/
theorem length_le_of_notMem {α : Type} {sep : α} {a a' b b' : List α} (h : sep ∉ a)
    (heq : a ++ sep :: b = a' ++ sep :: b') : a.length ≤ a'.length := by
  induction a generalizing a' with
  | nil => exact Nat.zero_le _
  | cons x a ih =>
      cases a' with
      | nil => exact absurd ((List.cons.inj heq).1 ▸ List.mem_cons_self) h
      | cons y a' =>
          have hle := ih (fun hm => h (List.mem_cons_of_mem _ hm)) (List.cons.inj heq).2
          exact Nat.succ_le_succ hle

/-! ### Matching and trimming -/

/-- `str::starts_with` with a string pattern. -/
def startsWith (s p : String) : Bool := p.toList.isPrefixOf s.toList

theorem startsWith_iff {s p : String} : startsWith s p = true ↔ p.toList <+: s.toList :=
  List.isPrefixOf_iff_prefix

theorem startsWith_append (p r : String) : startsWith (p ++ r) p = true := by
  rw [startsWith_iff, String.toList_append]
  exact List.prefix_append _ _

/-- Of two prefixes of one text one is a prefix of the other. -/
theorem prefix_total_of_startsWith {s p q : String} (hp : startsWith s p = true)
    (hq : startsWith s q = true) : p.toList <+: q.toList ∨ q.toList <+: p.toList :=
  List.prefix_or_prefix_of_prefix (startsWith_iff.mp hp) (startsWith_iff.mp hq)

/-- `str::strip_prefix` with a string pattern. -/
def stripPrefix (s p : String) : Option String :=
  if startsWith s p then some (String.ofList (s.toList.drop p.toList.length)) else none

/-- `str::trim_end_matches` with a character. -/
def trimEndMatches (s : String) (c : Char) : String :=
  String.ofList (s.toList.rdropWhile (· == c))

/-- `s.split(c).next()`: the text before the first `c`, all of it without one. -/
def beforeFirst (s : String) (c : Char) : String :=
  String.ofList (s.toList.takeWhile (· != c))

/-- The first place where `p` occurs, as what comes before and after it. -/
def splitFirst (p : List Char) : List Char → Option (List Char × List Char)
  | [] => if p = [] then some ([], []) else none
  | c :: cs =>
      if p.isPrefixOf (c :: cs) then some ([], (c :: cs).drop p.length)
      else (splitFirst p cs).map fun split => (c :: split.1, split.2)

/-- `str::split_once` with a string pattern. -/
def splitOnce (s p : String) : Option (String × String) :=
  (splitFirst p.toList s.toList).map fun split => (String.ofList split.1, String.ofList split.2)

/-- `char::is_whitespace`: the Unicode property `White_Space`. -/
def isWhitespace (c : Char) : Bool :=
  let n := c.toNat
  (9 ≤ n && n ≤ 13) || n == 0x20 || n == 0x85 || n == 0xA0 || n == 0x1680 ||
    (0x2000 ≤ n && n ≤ 0x200A) || n == 0x2028 || n == 0x2029 || n == 0x202F || n == 0x205F ||
    n == 0x3000

/-- `str::trim`. -/
def trim (s : String) : String :=
  String.ofList ((s.toList.dropWhile isWhitespace).rdropWhile isWhitespace)

theorem stripPrefix_eq_some_iff {s p r : String} :
    stripPrefix s p = some r ↔ s = p ++ r := by
  unfold stripPrefix
  constructor
  · intro h
    split at h
    · rename_i hp
      obtain ⟨t, ht⟩ := startsWith_iff.mp hp
      cases h
      rw [← String.toList_inj, String.toList_append, String.toList_ofList, ← ht,
        List.drop_left]
    · cases h
  · rintro rfl
    rw [if_pos (startsWith_append p r), String.toList_append, List.drop_left, String.ofList_toList]

theorem splitFirst_eq_some_iff {p l before after : List Char} :
    splitFirst p l = some (before, after) ↔
      l = before ++ p ++ after ∧ ∀ b a, l = b ++ p ++ a → before.length ≤ b.length := by
  induction l generalizing before with
  | nil =>
      unfold splitFirst
      constructor
      · intro h
        split at h
        · rename_i hp
          cases h
          exact ⟨by rw [hp]; rfl, fun _ _ _ => Nat.zero_le _⟩
        · cases h
      · rintro ⟨h, -⟩
        have hnil := List.append_eq_nil_iff.mp h.symm
        have hpnil := List.append_eq_nil_iff.mp hnil.1
        rw [if_pos hpnil.2, hpnil.1, hnil.2]
  | cons c cs ih =>
      unfold splitFirst
      by_cases hp : p.isPrefixOf (c :: cs) = true
      · rw [if_pos hp]
        obtain ⟨t, ht⟩ := List.isPrefixOf_iff_prefix.mp hp
        rw [← ht, List.drop_left]
        constructor
        · intro h
          cases h
          exact ⟨rfl, fun _ _ _ => Nat.zero_le _⟩
        · rintro ⟨h, hfirst⟩
          have hlen := hfirst [] t rfl
          obtain rfl := List.length_eq_zero_iff.mp (Nat.le_zero.mp hlen)
          rw [List.append_cancel_left h]
      · rw [if_neg hp, Option.map_eq_some_iff]
        constructor
        · rintro ⟨⟨b, a⟩, hsplit, heq⟩
          cases heq
          obtain ⟨hcs, hfirst⟩ := ih.mp hsplit
          refine ⟨congrArg (c :: ·) hcs, fun b' a' h => ?_⟩
          cases b' with
          | nil => exact absurd (List.isPrefixOf_iff_prefix.mpr ⟨a', h.symm⟩) hp
          | cons d b' =>
              have hle := hfirst b' a' (List.cons.inj h).2
              exact Nat.succ_le_succ hle
        · rintro ⟨h, hfirst⟩
          cases before with
          | nil => exact absurd (List.isPrefixOf_iff_prefix.mpr ⟨after, h.symm⟩) hp
          | cons d b =>
              obtain ⟨rfl, hcs⟩ := List.cons.inj h
              refine ⟨(b, after), ih.mpr ⟨hcs, fun b' a' h' => ?_⟩, rfl⟩
              have hle := hfirst (c :: b') a' (congrArg (c :: ·) h')
              exact Nat.le_of_succ_le_succ hle

end Text
