import ParatroSdk.Error
import ParatroSdk.Lib.CharClass

/-! # Reason tags

`Error::reason_tag` finds a machine-readable tag in the message of a 400 and
`is_reason_tag` tells a tag from prose, with a loop over the characters and two flags
(`src/error.rs`).

The loop recognises the words of `tagGrammar` (`isReasonTag_iff`): after each character its
flags say which of three languages the rest of the text has to be in.  The grammar is what the
documented regular expression `tagRegex` matches.  `reasonTag_eq_some_iff` is the extraction in
terms of texts, without the functions that split them. -/

namespace ParatroSdk

open Text Regular
open scoped Computability

/-! ### The shape of a tag -/

def isLower (c : Char) : Bool := 'a' ≤ c && c ≤ 'z'

def isDigit (c : Char) : Bool := '0' ≤ c && c ≤ '9'

/-- The loop of `is_reason_tag` on the characters that are left. -/
def tagLoop : List Char → Bool → Bool → Bool
  | [], prevUnderscore, _ => !prevUnderscore
  | c :: cs, prevUnderscore, first =>
      if isLower c then tagLoop cs false false
      else if isDigit c && !first then tagLoop cs false false
      else if c == '_' && !prevUnderscore then tagLoop cs true false
      else false

/-- At most 64 bytes of lowercase words joined by underscores. -/
def isReasonTag (tag : String) : Bool :=
  if tag.isEmpty || 64 < (utf8 tag).length then false else tagLoop tag.toList true true

/-- `[a-z0-9]`. -/
def isWordChar (c : Char) : Bool := isLower c || isDigit c

/-- `[a-z0-9]*(?:_[a-z0-9]+)*`: what may follow a character of a word. -/
def wordRest : Language Char :=
  (charClass isWordChar)∗ * (charClass (· == '_') * (charClass isWordChar * (charClass isWordChar)∗))∗

/-- `[a-z][a-z0-9]*(?:_[a-z0-9]+)*`. -/
def tagGrammar : Language Char :=
  charClass isLower * (charClass isWordChar)∗ *
    (charClass (· == '_') * (charClass isWordChar * (charClass isWordChar)∗))∗

/-- A tag: a word of the grammar with at most 64 bytes. -/
structure IsTag (s : String) : Prop where
  shape : s.toList ∈ tagGrammar
  length : (utf8 s).length ≤ 64

/-- The characters of `[a-z]`. -/
def lowerChars : List Char := ('a' ...= 'z').toList

/-- The characters of `[0-9]`. -/
def digitChars : List Char := ('0' ...= '9').toList

/-- `^[a-z][a-z0-9]*(?:_[a-z0-9]+)*$`, as the comment on `is_reason_tag` has it. -/
def tagRegex : RegularExpression Char :=
  oneOf lowerChars * (oneOf (lowerChars ++ digitChars)).star *
    (.char '_' * oneOrMore (oneOf (lowerChars ++ digitChars))).star

theorem tagGrammar_eq : tagGrammar = charClass isLower * wordRest := mul_assoc _ _ _

theorem nil_mem_wordRest : [] ∈ wordRest := nil_mem_kstar_mul (Language.nil_mem_kstar _)

theorem cons_mem_wordRest {c : Char} {cs : List Char} :
    c :: cs ∈ wordRest ↔
      (c = '_' ∧ cs ∈ charClass isWordChar * wordRest) ∨ isWordChar c = true ∧ cs ∈ wordRest := by
  unfold wordRest
  rw [cons_mem_kstar_mul, cons_mem_kstar_charClass_mul, mul_assoc, beq_iff_eq]

theorem tagLoop_cons (c : Char) (cs : List Char) (prevUnderscore first : Bool) :
    tagLoop (c :: cs) prevUnderscore first =
      if isLower c then tagLoop cs false false
      else if isDigit c && !first then tagLoop cs false false
      else if c == '_' && !prevUnderscore then tagLoop cs true false
      else false := rfl

/-- What the flags of the loop say about the characters that are left: inside a word, just
after an underscore, or at the start. -/
theorem tagLoop_iff (cs : List Char) :
    (tagLoop cs false false = true ↔ cs ∈ wordRest) ∧
      (tagLoop cs true false = true ↔ cs ∈ charClass isWordChar * wordRest) ∧
      (tagLoop cs true true = true ↔ cs ∈ tagGrammar) := by
  rw [tagGrammar_eq]
  induction cs with
  | nil =>
      refine ⟨iff_of_true rfl nil_mem_wordRest, ?_, ?_⟩
      · exact iff_of_false Bool.false_ne_true nil_notMem_charClass_mul
      · exact iff_of_false Bool.false_ne_true nil_notMem_charClass_mul
  | cons c cs ih =>
      obtain ⟨hword, hafter, -⟩ := ih
      rw [cons_mem_wordRest, cons_mem_charClass_mul, cons_mem_charClass_mul, ← hword, ← hafter,
        tagLoop_cons, tagLoop_cons, tagLoop_cons]
      by_cases hlower : isLower c = true
      · have hc : c ≠ '_' := by
          rintro rfl
          exact absurd hlower (by decide)
        simp [isWordChar, hlower, hc]
      · by_cases hdigit : isDigit c = true
        · have hc : c ≠ '_' := by
            rintro rfl
            exact absurd hdigit (by decide)
          simp [isWordChar, hlower, hdigit, hc]
        · by_cases hc : c = '_'
          · subst hc
            simp [isWordChar, hlower, hdigit]
          · simp [isWordChar, hlower, hdigit, hc]

/-- The recogniser accepts the tags. -/
theorem isReasonTag_iff {s : String} : isReasonTag s = true ↔ IsTag s := by
  have hloop := (tagLoop_iff s.toList).2.2
  unfold isReasonTag
  constructor
  · intro h
    split at h
    · cases h
    · rename_i hguard
      rw [Bool.or_eq_true, not_or, decide_eq_true_iff, not_lt] at hguard
      exact ⟨hloop.mp h, hguard.2⟩
  · rintro ⟨hshape, hlength⟩
    have hne : s.isEmpty = false := by
      rw [Bool.eq_false_iff]
      intro he
      rw [String.isEmpty_iff] at he
      rw [he] at hshape
      rw [tagGrammar_eq] at hshape
      exact nil_notMem_charClass_mul hshape
    have hlen : decide (64 < (utf8 s).length) = false := decide_eq_false (not_lt.mpr hlength)
    rw [hne, hlen]
    exact hloop.mpr hshape

theorem mem_lowerChars {c : Char} : c ∈ lowerChars ↔ isLower c = true := mem_range

theorem mem_digitChars {c : Char} : c ∈ digitChars ↔ isDigit c = true := mem_range

theorem mem_wordChars {c : Char} : c ∈ lowerChars ++ digitChars ↔ isWordChar c = true := by
  rw [List.mem_append, mem_lowerChars, mem_digitChars, isWordChar, Bool.or_eq_true]

/-- The expression matches the words of the grammar. -/
theorem matches'_tagRegex : tagRegex.matches' = tagGrammar := by
  have hlower := matches'_oneOf fun _ => mem_lowerChars
  have hword := matches'_oneOf fun _ => mem_wordChars
  have hunderscore := matches'_char_eq '_'
  unfold tagRegex tagGrammar
  rw [RegularExpression.matches'_mul, RegularExpression.matches'_mul,
    RegularExpression.matches'_star, RegularExpression.matches'_star,
    RegularExpression.matches'_mul, matches'_oneOrMore, hlower, hword, hunderscore]

/-- **The loop recognises the expression.** -/
theorem isReasonTag_exact (s : String) :
    isReasonTag s = true ↔ s.toList ∈ tagRegex.matches' ∧ (utf8 s).length ≤ 64 := by
  rw [isReasonTag_iff, matches'_tagRegex]
  constructor
  · intro h
    exact ⟨h.shape, h.length⟩
  · rintro ⟨hshape, hlength⟩
    exact ⟨hshape, hlength⟩

example : isReasonTag "limit_daily" = true ∧ isReasonTag "double__underscore" = false ∧
    isReasonTag "1starts_with_digit" = false := by decide

/-! ### The characters of a tag -/

theorem chars_of_tagLoop {cs : List Char} : ∀ {prevUnderscore first : Bool},
    tagLoop cs prevUnderscore first = true → ∀ c ∈ cs, isWordChar c = true ∨ c = '_' := by
  induction cs with
  | nil =>
      intro _ _ _ c hc
      cases hc
  | cons d cs ih =>
      intro prevUnderscore first h
      rw [tagLoop_cons] at h
      rw [List.forall_mem_cons]
      split at h
      · rename_i hlower
        exact ⟨.inl (by simp [isWordChar, hlower]), ih h⟩
      split at h
      · rename_i hdigit
        rw [Bool.and_eq_true] at hdigit
        exact ⟨.inl (by simp [isWordChar, hdigit.1]), ih h⟩
      split at h
      · rename_i hunderscore
        rw [Bool.and_eq_true, beq_iff_eq] at hunderscore
        exact ⟨.inr hunderscore.1, ih h⟩
      · cases h

theorem IsTag.chars {s : String} (h : IsTag s) : ∀ c ∈ s.toList, isWordChar c = true ∨ c = '_' :=
  chars_of_tagLoop ((tagLoop_iff s.toList).2.2.mpr h.shape)

/-- A tag has no colon. -/
theorem IsTag.colon_notMem {s : String} (h : IsTag s) : ':' ∉ s.toList := by
  intro hc
  obtain hword | hunderscore := h.chars _ hc
  · exact absurd hword (by decide)
  · exact absurd hunderscore (by decide)

theorem isWhitespace_of_isWordChar {c : Char} (h : isWordChar c = true) : isWhitespace c = false := by
  have hrange : (97 ≤ c.toNat ∧ c.toNat ≤ 122) ∨ (48 ≤ c.toNat ∧ c.toNat ≤ 57) := by
    simp only [isWordChar, isLower, isDigit, Bool.or_eq_true, Bool.and_eq_true,
      decide_eq_true_iff] at h
    exact h
  simp only [isWhitespace, Bool.or_eq_false_iff, Bool.and_eq_false_iff, decide_eq_false_iff_not,
    beq_eq_false_iff_ne]
  omega

/-- A tag has no whitespace. -/
theorem IsTag.whitespace {s : String} (h : IsTag s) : ∀ c ∈ s.toList, isWhitespace c = false := by
  intro c hc
  obtain hword | rfl := h.chars c hc
  · exact isWhitespace_of_isWordChar hword
  · decide

/-! ### Extraction -/

/-- What stands before the tag of a failed transaction. -/
def failedMarker : String := " failed: "

/-- The text of the message in which the tag is looked for. -/
def tagText (body : ErrorBody) : Option String :=
  match stripPrefix body.message rejectedMessagePrefix with
  | some rest => some rest
  | none =>
      if body.code = code.transactionFailed then (splitOnce body.message failedMarker).map Prod.snd
      else none

/-- Extracts the machine-readable reason tag from a rejection. -/
def Error.reasonTag : Error → Option String
  | .api 400 body => do
      let rest ← tagText body
      let tag := trim (beforeFirst rest ':')
      if isReasonTag tag then some tag else none
  | _ => none

/-- `after` is what follows the first `marker` in the text. -/
def FollowsFirst (text marker after : String) : Prop :=
  ∃ before, text = before ++ marker ++ after ∧
    ∀ b a, text = b ++ marker ++ a → before.toList.length ≤ b.toList.length

/-- `segment` is the text up to the first colon, or all of it. -/
def UpToColon (text segment : String) : Prop :=
  ':' ∉ segment.toList ∧ (text = segment ∨ ∃ more, text = segment ++ ":" ++ more)

/-- `segment` is `s` with whitespace around it. -/
def Padded (s segment : String) : Prop :=
  ∃ left right, segment = left ++ s ++ right ∧
    (∀ c ∈ left.toList, isWhitespace c = true) ∧ ∀ c ∈ right.toList, isWhitespace c = true

/-- The tag `s` stands at the beginning of `rest`. -/
structure TagOf (rest s : String) : Prop where
  tag : IsTag s
  place : ∃ segment, UpToColon rest segment ∧ Padded s segment

/-- `rest` follows the prefix of a rejection. -/
def AfterRejected (body : ErrorBody) (rest : String) : Prop :=
  body.message = rejectedMessagePrefix ++ rest

/-- `rest` follows the first marker in the message of a failed transaction. -/
structure AfterFailed (body : ErrorBody) (rest : String) : Prop where
  failed : body.code = code.transactionFailed
  notRejected : startsWith body.message rejectedMessagePrefix = false
  follows : FollowsFirst body.message failedMarker rest

theorem followsFirst_iff {text marker after : String} :
    FollowsFirst text marker after ↔
      ∃ before, splitOnce text marker = some (before, after) := by
  unfold FollowsFirst splitOnce
  refine exists_congr fun before => ?_
  have hsplit : (splitFirst marker.toList text.toList).map
      (fun split => (String.ofList split.1, String.ofList split.2)) = some (before, after) ↔
      splitFirst marker.toList text.toList = some (before.toList, after.toList) := by
    constructor
    · intro h
      obtain ⟨⟨b, a⟩, hs, heq⟩ := Option.map_eq_some_iff.mp h
      cases heq
      rw [hs, String.toList_ofList, String.toList_ofList]
    · intro h
      rw [h, Option.map_some, String.ofList_toList, String.ofList_toList]
  rw [hsplit, splitFirst_eq_some_iff]
  have hcast : ∀ b a : String, text = b ++ marker ++ a ↔
      text.toList = b.toList ++ marker.toList ++ a.toList := by
    intro b a
    rw [← String.toList_inj, String.toList_append, String.toList_append]
  rw [hcast]
  refine and_congr_right fun _ => ?_
  constructor
  · intro h b a hba
    have hle := h (String.ofList b) (String.ofList a)
    rw [hcast, String.toList_ofList, String.toList_ofList] at hle
    exact hle hba
  · intro h b a hba
    exact h _ _ ((hcast b a).mp hba)

theorem upToColon_iff {text segment : String} :
    UpToColon text segment ↔ beforeFirst text ':' = segment := by
  have hlist : ∀ more : String,
      (segment ++ ":" ++ more).toList = segment.toList ++ ':' :: more.toList := by
    intro more
    rw [String.toList_append, String.toList_append, List.append_assoc]
    rfl
  rw [beforeFirst, ← String.toList_inj, String.toList_ofList, takeWhile_ne_eq_iff,
    String.toList_inj]
  unfold UpToColon
  refine and_congr_right' (or_congr_right ?_)
  constructor
  · rintro ⟨more, rfl⟩
    exact ⟨more.toList, hlist more⟩
  · rintro ⟨t, ht⟩
    refine ⟨String.ofList t, ?_⟩
    rw [← String.toList_inj, hlist, String.toList_ofList, ht]

theorem padded_trim (segment : String) : Padded (trim segment) segment := by
  refine ⟨String.ofList (segment.toList.takeWhile isWhitespace),
    String.ofList ((segment.toList.dropWhile isWhitespace).rtakeWhile isWhitespace), ?_, ?_, ?_⟩
  · rw [← String.toList_inj, String.toList_append, String.toList_append, trim, String.toList_ofList,
      String.toList_ofList, String.toList_ofList, List.append_assoc,
      List.rdropWhile_append_rtakeWhile, List.takeWhile_append_dropWhile]
  · intro c hc
    rw [String.toList_ofList] at hc
    exact List.mem_takeWhile_imp hc
  · intro c hc
    rw [String.toList_ofList] at hc
    exact List.mem_rtakeWhile_imp hc

/-- Trimming finds what has no whitespace of its own. -/
theorem trim_eq_of_padded {s segment : String} (h : Padded s segment)
    (hs : ∀ c ∈ s.toList, isWhitespace c = false) : trim segment = s := by
  obtain ⟨left, right, rfl, hleft, hright⟩ := h
  have hfront : (left ++ s ++ right).toList.dropWhile isWhitespace =
      (s.toList ++ right.toList).dropWhile isWhitespace := by
    rw [String.toList_append, String.toList_append, List.append_assoc,
      List.dropWhile_append_of_pos hleft]
  have hkeep : s.toList.rdropWhile isWhitespace = s.toList := by
    rw [List.rdropWhile_eq_self_iff]
    intro hne
    rw [hs _ (List.getLast_mem hne)]
    exact Bool.false_ne_true
  rw [trim, hfront]
  cases hlist : s.toList with
  | nil =>
      rw [List.nil_append, List.dropWhile_eq_nil_iff.mpr hright, ← String.toList_inj, hlist]
      rfl
  | cons c cs =>
      have hc : isWhitespace c = false := hs c (hlist ▸ List.mem_cons_self)
      have hstop : (c :: cs ++ right.toList).dropWhile isWhitespace = c :: cs ++ right.toList := by
        rw [List.cons_append, List.dropWhile_cons_of_neg (by rw [hc]; exact Bool.false_ne_true)]
      rw [hstop, ← hlist, rdropWhile_append_of_pos hright, hkeep, String.ofList_toList]

theorem tagText_eq_some_iff {body : ErrorBody} {rest : String} :
    tagText body = some rest ↔ AfterRejected body rest ∨ AfterFailed body rest := by
  unfold tagText AfterRejected
  cases hstrip : stripPrefix body.message rejectedMessagePrefix with
  | some r =>
      have hr := stripPrefix_eq_some_iff.mp hstrip
      have hstart : startsWith body.message rejectedMessagePrefix = true := by
        rw [hr]
        exact startsWith_append _ _
      constructor
      · intro h
        cases h
        exact .inl hr
      · rintro (h | h)
        · rw [← stripPrefix_eq_some_iff, hstrip] at h
          exact h
        · rw [h.notRejected] at hstart
          cases hstart
  | none =>
      have hstart : startsWith body.message rejectedMessagePrefix = false := by
        rw [Bool.eq_false_iff]
        intro hp
        rw [stripPrefix, if_pos hp] at hstrip
        cases hstrip
      dsimp only
      constructor
      · intro h
        split at h
        · rename_i hcode
          obtain ⟨⟨before, after⟩, hsplit, rfl⟩ := Option.map_eq_some_iff.mp h
          exact .inr ⟨hcode, hstart, followsFirst_iff.mpr ⟨before, hsplit⟩⟩
        · cases h
      · rintro (h | h)
        · rw [← stripPrefix_eq_some_iff, hstrip] at h
          cases h
        · obtain ⟨before, hsplit⟩ := followsFirst_iff.mp h.follows
          rw [if_pos h.failed, hsplit]
          rfl

theorem reasonTag_api (body : ErrorBody) :
    (Error.api 400 body).reasonTag = (tagText body).bind fun rest =>
      if isReasonTag (trim (beforeFirst rest ':')) then some (trim (beforeFirst rest ':'))
      else none := rfl

theorem eq_api_of_reasonTag {e : Error} {s : String} (h : e.reasonTag = some s) :
    ∃ body, e = .api 400 body := by
  unfold Error.reasonTag at h
  split at h
  · exact ⟨_, rfl⟩
  · cases h

/-- **Where the tag of an error comes from.** -/
theorem reasonTag_eq_some_iff {e : Error} {s : String} :
    e.reasonTag = some s ↔
      ∃ body rest, e = .api 400 body ∧ (AfterRejected body rest ∨ AfterFailed body rest) ∧
        TagOf rest s := by
  constructor
  · intro h
    obtain ⟨body, rfl⟩ := eq_api_of_reasonTag h
    rw [reasonTag_api] at h
    obtain ⟨rest, hrest, htag⟩ := Option.bind_eq_some_iff.mp h
    split at htag
    · rename_i hshape
      obtain rfl := Option.some.inj htag
      refine ⟨body, rest, rfl, tagText_eq_some_iff.mp hrest, isReasonTag_iff.mp hshape, ?_⟩
      exact ⟨_, upToColon_iff.mpr rfl, padded_trim _⟩
    · cases htag
  · rintro ⟨body, rest, rfl, hrest, htag, segment, hsegment, hpadded⟩
    have htrim := trim_eq_of_padded hpadded htag.whitespace
    rw [← upToColon_iff.mp hsegment] at htrim
    rw [reasonTag_api, tagText_eq_some_iff.mpr hrest, Option.bind_some, htrim,
      if_pos (isReasonTag_iff.mpr htag)]

theorem padded_self (s : String) : Padded s s :=
  ⟨"", "", by rw [String.append_empty, String.empty_append], by simp, by simp⟩

/-- The text around a marker, cut at the colon of the marker. -/
theorem toList_failedMarker (b a : String) : (b ++ failedMarker ++ a).toList =
    (b.toList ++ " failed".toList) ++ ':' :: ' ' :: a.toList := by
  rw [String.toList_append, String.toList_append, List.append_assoc, List.append_assoc]
  rfl

theorem colon_notMem_append_failed {op : String} (h : ':' ∉ op.toList) :
    ':' ∉ op.toList ++ " failed".toList := by
  rw [List.mem_append, not_or]
  exact ⟨h, by decide⟩

/-- A marker whose colon is the first one of the text is its first marker. -/
theorem followsFirst_of_colon_notMem {op rest : String} (h : ':' ∉ op.toList) :
    FollowsFirst (op ++ failedMarker ++ rest) failedMarker rest := by
  refine ⟨op, rfl, fun b a hba => ?_⟩
  have heq := congrArg String.toList hba
  rw [toList_failedMarker, toList_failedMarker] at heq
  have hle := length_le_of_notMem (colon_notMem_append_failed h) heq
  rw [List.length_append, List.length_append] at hle
  omega

/-- A message that goes on with the marker after its first colon-free part is no rejection. -/
theorem not_rejected_of_colon_notMem {op rest : String} (h : ':' ∉ op.toList) :
    startsWith (op ++ failedMarker ++ rest) rejectedMessagePrefix = false := by
  rw [Bool.eq_false_iff]
  intro hstart
  obtain ⟨t, ht⟩ := startsWith_iff.mp hstart
  have hright : rejectedMessagePrefix.toList ++ t = "Rejected".toList ++ ':' :: ' ' :: t := rfl
  rw [toList_failedMarker, hright] at ht
  obtain ⟨hword, -⟩ := append_cons_inj_of_notMem (by decide) (colon_notMem_append_failed h) ht
  have hsuffix : " failed".toList <:+ "Rejected".toList := ⟨_, hword.symm⟩
  exact absurd hsuffix (by decide)

/-- **Tags are extracted from the two documented formats, and from nothing else.** -/
theorem reasonTag_exact :
    (∀ t detail code errorType, IsTag t →
      (Error.api 400 ⟨code, errorType, rejectedMessagePrefix ++ t ++ ": " ++ detail⟩).reasonTag =
        some t) ∧
    (∀ t op tail errorType, IsTag t → ':' ∉ op.toList → (tail = "" ∨ ∃ text, tail = ":" ++ text) →
      (Error.api 400
        ⟨code.transactionFailed, errorType, op ++ failedMarker ++ t ++ tail⟩).reasonTag = some t) ∧
    ∀ (e : Error) s, e.reasonTag = some s →
      ∃ body rest, e = .api 400 body ∧ (AfterRejected body rest ∨ AfterFailed body rest) ∧
        TagOf rest s := by
  refine ⟨?_, ?_, fun e s h => reasonTag_eq_some_iff.mp h⟩
  · intro t detail code errorType ht
    refine reasonTag_eq_some_iff.mpr ⟨_, t ++ ": " ++ detail, rfl, .inl ?_, ht, t, ?_, padded_self t⟩
    · unfold AfterRejected
      simp only [String.append_assoc]
    · have hcolon : ": " = ":" ++ " " := rfl
      refine ⟨ht.colon_notMem, .inr ⟨" " ++ detail, ?_⟩⟩
      rw [hcolon, String.append_assoc, String.append_assoc, String.append_assoc]
  · intro t op tail errorType ht hop htail
    refine reasonTag_eq_some_iff.mpr ⟨_, t ++ tail, rfl, .inr ⟨rfl, ?_, ?_⟩, ht, t, ?_, padded_self t⟩
    · dsimp only
      rw [String.append_assoc]
      exact not_rejected_of_colon_notMem hop
    · dsimp only
      rw [String.append_assoc]
      exact followsFirst_of_colon_notMem hop
    · refine ⟨ht.colon_notMem, ?_⟩
      obtain rfl | ⟨text, rfl⟩ := htail
      · exact .inl String.append_empty
      · exact .inr ⟨text, (String.append_assoc ..).symm⟩

theorem isTag_policy_limit : IsTag "policy_limit" := isReasonTag_iff.mp (by decide)

theorem reasonTag_exact_rejected :
    (Error.api 400 ⟨"invalid_parameter", "invalid_request_error",
      rejectedMessagePrefix ++ "policy_limit" ++ ": " ++ "daily: over"⟩).reasonTag =
        some "policy_limit" :=
  reasonTag_exact.1 _ _ _ _ isTag_policy_limit

/-! ### Classification and extraction -/

/-- The classification of an error agrees with the place its tag comes from. -/
structure KindAgrees (e : Error) : Prop where
  kinds : ∀ s, e.reasonTag = some s → e.kind = some .rejected ∨ e.kind = some .transactionFailed
  rejected : ∀ s, e.kind = some .rejected → e.reasonTag = some s →
    ∃ body rest, e = .api 400 body ∧ AfterRejected body rest ∧ TagOf rest s
  failed : ∀ s, e.kind = some .transactionFailed → e.reasonTag = some s →
    ∃ body rest, e = .api 400 body ∧ FollowsFirst body.message failedMarker rest ∧ TagOf rest s
  silent : ∀ k, k = .duplicateReferenceId ∨ k = .unsupportedOperation ∨ k = .insufficientBalance ∨
    k = .badRequest → e.kind = some k → e.reasonTag = none

/-- A failed transaction with a tag, told in the words of a duplicate or of an unsupported
operation. -/
structure TagInOtherWords (body : ErrorBody) (rest s : String) : Prop where
  failed : body.code = code.transactionFailed
  otherWords : startsWith body.message duplicateReferenceIdPrefix = true ∨
    startsWith body.message unsupportedOperationPrefix = true
  follows : FollowsFirst body.message failedMarker rest
  tagOf : TagOf rest s

/-- The kind of an error with a tag, by the place of the tag. -/
theorem kind_of_place {body : ErrorBody} {rest : String}
    (h : AfterRejected body rest ∨ AfterFailed body rest) :
    (AfterRejected body rest ∧ kindOfBadRequest body = .rejected) ∨
      AfterFailed body rest ∧ (kindOfBadRequest body = .transactionFailed ∨
        startsWith body.message duplicateReferenceIdPrefix = true ∨
        startsWith body.message unsupportedOperationPrefix = true) := by
  obtain h | h := h
  · left
    have hstart : startsWith body.message rejectedMessagePrefix = true := by
      rw [h]
      exact startsWith_append _ _
    exact ⟨h, if_pos hstart⟩
  · right
    refine ⟨h, ?_⟩
    by_cases hdup : startsWith body.message duplicateReferenceIdPrefix = true
    · exact .inr (.inl hdup)
    by_cases hop : startsWith body.message unsupportedOperationPrefix = true
    · exact .inr (.inr hop)
    left
    have hrejected : ¬ startsWith body.message rejectedMessagePrefix = true := by
      rw [h.notRejected]
      exact Bool.false_ne_true
    have hcode : code.transactionFailed ≠ code.insufficientBalance := by decide
    unfold kindOfBadRequest
    rw [if_neg hrejected, if_neg hdup, if_neg hop, h.failed, if_neg hcode, if_pos rfl]

/-- Words of a duplicate or of an unsupported operation decide the kind. -/
theorem kind_of_otherWords {body : ErrorBody}
    (h : startsWith body.message duplicateReferenceIdPrefix = true ∨
      startsWith body.message unsupportedOperationPrefix = true) :
    startsWith body.message rejectedMessagePrefix = false ∧
      (kindOfBadRequest body = .duplicateReferenceId ∨
        kindOfBadRequest body = .unsupportedOperation) := by
  have hrejected : startsWith body.message rejectedMessagePrefix = false := by
    rw [Bool.eq_false_iff]
    intro hr
    rcases h with h | h <;> exact absurd (prefix_total_of_startsWith hr h) (by decide)
  refine ⟨hrejected, ?_⟩
  unfold kindOfBadRequest
  rw [hrejected, if_neg Bool.false_ne_true]
  by_cases hdup : startsWith body.message duplicateReferenceIdPrefix = true
  · exact .inl (if_pos hdup)
  · rw [if_neg hdup, if_pos (h.resolve_left hdup)]
    exact .inr rfl

/-- **Classification and extraction agree exactly unless a failed transaction has a tag and the
words of a duplicate or of an unsupported operation.** -/
theorem kindAgrees_iff (e : Error) :
    KindAgrees e ↔ ¬ ∃ body rest s, e = .api 400 body ∧ TagInOtherWords body rest s := by
  constructor
  · rintro h ⟨body, rest, s, rfl, htag⟩
    obtain ⟨hrejected, hkind⟩ := kind_of_otherWords htag.otherWords
    have hsome := reasonTag_eq_some_iff.mpr
      ⟨body, rest, rfl, .inr ⟨htag.failed, hrejected, htag.follows⟩, htag.tagOf⟩
    have hnone : (Error.api 400 body).reasonTag = none := by
      obtain hk | hk := hkind
      · exact h.silent _ (.inl rfl) (congrArg some hk)
      · exact h.silent _ (.inr (.inl rfl)) (congrArg some hk)
    rw [hnone] at hsome
    cases hsome
  · intro hno
    have hplace : ∀ s, e.reasonTag = some s → ∃ body rest, e = .api 400 body ∧ TagOf rest s ∧
        ((AfterRejected body rest ∧ e.kind = some .rejected) ∨
          AfterFailed body rest ∧ e.kind = some .transactionFailed) := by
      intro s hs
      obtain ⟨body, rest, rfl, hrest, htag⟩ := reasonTag_eq_some_iff.mp hs
      refine ⟨body, rest, rfl, htag, ?_⟩
      rw [Error.kind_api, kindOfReply_400]
      obtain ⟨h, hk⟩ | ⟨h, hk | hwords⟩ := kind_of_place hrest
      · exact .inl ⟨h, congrArg some hk⟩
      · exact .inr ⟨h, congrArg some hk⟩
      · exact absurd ⟨body, rest, s, rfl, h.failed, hwords, h.follows, htag⟩ hno
    refine ⟨?_, ?_, ?_, ?_⟩
    · intro s hs
      obtain ⟨body, rest, -, -, ⟨-, hk⟩ | ⟨-, hk⟩⟩ := hplace s hs
      · exact .inl hk
      · exact .inr hk
    · intro s hkind hs
      obtain ⟨body, rest, he, htag, ⟨h, -⟩ | ⟨-, hk⟩⟩ := hplace s hs
      · exact ⟨body, rest, he, h, htag⟩
      · rw [hkind] at hk
        cases hk
    · intro s hkind hs
      obtain ⟨body, rest, he, htag, ⟨-, hk⟩ | ⟨h, -⟩⟩ := hplace s hs
      · rw [hkind] at hk
        cases hk
      · exact ⟨body, rest, he, h.follows, htag⟩
    · intro k hk hkind
      rw [Option.eq_none_iff_forall_ne_some]
      intro s hs
      obtain ⟨body, rest, -, -, ⟨-, hk'⟩ | ⟨-, hk'⟩⟩ := hplace s hs
      all_goals
        rw [hkind] at hk'
        obtain rfl := Option.some.inj hk'
        simp at hk

/-- A failed transaction whose operation is named like a duplicate exposes its tag under
another kind. -/
theorem not_kindAgrees_duplicate :
    ¬ KindAgrees (.api 400 ⟨"transaction_failed", "business_error",
      "Duplicate reference_id check failed: engine_timeout"⟩) := by
  intro h
  have hnone := h.silent .duplicateReferenceId (.inl rfl) (by decide)
  exact absurd hnone (by decide +kernel)

end ParatroSdk
