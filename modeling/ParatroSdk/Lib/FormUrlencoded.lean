import ParatroSdk.Lib.Url

/-! # application/x-www-form-urlencoded

The serializer and the parser of the URL standard for queries, on bytes.  The serializer
appends `name=value` pairs one after another, with a `&` before each but the first; it keeps
letters, digits and `*-._`, writes a space as `+` and escapes the rest.  The parser splits at
every `&`, skips what is empty, splits each part at its first `=`, and decodes both sides.

Appending pairs to any text adds just these pairs to what is parsed (`parse_extend`). -/

namespace Url

open Text

namespace Form

abbrev space : UInt8 := 0x20

abbrev plus : UInt8 := 0x2B

abbrev ampersand : UInt8 := 0x26

abbrev equals : UInt8 := 0x3D

/-! ### Serializing -/

/-- The bytes that are written as they are. -/
def isUnchanged (b : UInt8) : Bool :=
  isAlphanumeric b || b == 0x2A || b == 0x2D || b == 0x2E || b == 0x5F

def encodeByte (b : UInt8) : Bytes :=
  if b == space then [plus] else if isUnchanged b then [b] else percentEncodeByte b

def encode (l : Bytes) : Bytes := l.flatMap encodeByte

def encodePair (pair : Bytes × Bytes) : Bytes := encode pair.1 ++ equals :: encode pair.2

/-- Append one pair; a separator stands before it unless it is the first. -/
def appendPair (target : Bytes) (pair : Bytes × Bytes) : Bytes :=
  if target.isEmpty then encodePair pair else target ++ ampersand :: encodePair pair

def extend (target : Bytes) (pairs : List (Bytes × Bytes)) : Bytes := pairs.foldl appendPair target

/-! ### Parsing -/

def plusToSpace (l : Bytes) : Bytes := l.map fun b => if b == plus then space else b

def decode (l : Bytes) : Bytes := percentDecode (plusToSpace l)

def parsePair (l : Bytes) : Bytes × Bytes :=
  (decode (l.takeWhile (· != equals)), decode ((l.dropWhile (· != equals)).drop 1))

def parse (query : Bytes) : List (Bytes × Bytes) :=
  ((query.splitOnP (· == ampersand)).filter (!·.isEmpty)).map parsePair

/-! ### A component -/

theorem plusToSpace_append (l m : Bytes) : plusToSpace (l ++ m) = plusToSpace l ++ plusToSpace m :=
  List.map_append

/-- What the serializer writes for a byte has no separator in it. -/
theorem encodeByte_spec (b : UInt8) :
    (∀ x ∈ encodeByte b, x ≠ ampersand ∧ x ≠ equals) ∧
      (isUnchanged b = true → b ≠ plus ∧ b ≠ percent) ∧
        plusToSpace (percentEncodeByte b) = percentEncodeByte b := by
  have hall : ∀ n < 256, (∀ x ∈ encodeByte (UInt8.ofNat n), x ≠ ampersand ∧ x ≠ equals) ∧
      (isUnchanged (UInt8.ofNat n) = true → UInt8.ofNat n ≠ plus ∧ UInt8.ofNat n ≠ percent) ∧
        plusToSpace (percentEncodeByte (UInt8.ofNat n)) = percentEncodeByte (UInt8.ofNat n) := by
    decide +kernel
  have hb := hall b.toNat b.toNat_lt
  rwa [UInt8.ofNat_toNat] at hb

theorem escapeAt_cons_of_ne {b : UInt8} (h : b ≠ percent) (t : Bytes) :
    escapeAt (b :: t) = false := by
  rw [Bool.eq_false_iff]
  intro hat
  match t, hat with
  | _ :: _ :: _, hat =>
      have hesc : isEscape b _ _ = true := hat
      simp only [isEscape, Bool.and_eq_true, beq_iff_eq] at hesc
      exact h hesc.1.1

/-- One serialized byte is read back. -/
theorem decode_encodeByte (b : UInt8) (rest : Bytes) :
    decode (encodeByte b ++ rest) = b :: decode rest := by
  obtain ⟨-, hkept, hescaped⟩ := encodeByte_spec b
  unfold decode
  rw [plusToSpace_append]
  unfold encodeByte
  by_cases hspace : (b == space) = true
  · rw [if_pos hspace, beq_iff_eq.mp hspace]
    exact percentDecode_cons (escapeAt_cons_of_ne (by decide) _)
  · rw [if_neg hspace]
    by_cases hb : isUnchanged b = true
    · obtain ⟨hplus, hpercent⟩ := hkept hb
      have hsame : plusToSpace [b] = [b] := by simp [plusToSpace, hplus]
      rw [if_pos hb, hsame]
      exact percentDecode_cons (escapeAt_cons_of_ne hpercent _)
    · rw [if_neg hb, hescaped, percentDecode_percentEncodeByte]

/-- A component is read back. -/
theorem decode_encode (l : Bytes) : decode (encode l) = l := by
  induction l with
  | nil => rfl
  | cons b l ih =>
      have hcons : encode (b :: l) = encodeByte b ++ encode l := List.flatMap_cons
      rw [hcons, decode_encodeByte, ih]

theorem mem_encode {l : Bytes} {x : UInt8} (h : x ∈ encode l) : x ≠ ampersand ∧ x ≠ equals := by
  obtain ⟨b, -, hx⟩ := List.mem_flatMap.mp h
  exact (encodeByte_spec b).1 x hx

/-! ### Pairs -/

theorem encodePair_ne_nil (pair : Bytes × Bytes) : encodePair pair ≠ [] :=
  List.append_ne_nil_of_right_ne_nil _ (List.cons_ne_nil _ _)

/-- A pair has no `&` in it. -/
theorem mem_encodePair {pair : Bytes × Bytes} {x : UInt8} (h : x ∈ encodePair pair) :
    (x == ampersand) = false := by
  rw [beq_eq_false_iff_ne]
  obtain h | h := List.mem_append.mp h
  · exact (mem_encode h).1
  · obtain rfl | h := List.mem_cons.mp h
    · decide
    · exact (mem_encode h).1

theorem parsePair_encodePair (pair : Bytes × Bytes) : parsePair (encodePair pair) = pair := by
  have hname : ∀ x ∈ encode pair.1, (x != equals) = true := fun x hx =>
    bne_iff_ne.mpr (mem_encode hx).2
  have htake : (encodePair pair).takeWhile (· != equals) = encode pair.1 := by
    rw [encodePair, List.takeWhile_append_of_pos hname]
    exact List.append_nil _
  have hdrop : (encodePair pair).dropWhile (· != equals) = equals :: encode pair.2 := by
    rw [encodePair, List.dropWhile_append_of_pos hname]
    rfl
  rw [parsePair, htake, hdrop, List.drop_one, List.tail_cons, decode_encode, decode_encode]

theorem parse_encodePair (pair : Bytes × Bytes) : parse (encodePair pair) = [pair] := by
  have hkept : [encodePair pair].filter (!·.isEmpty) = [encodePair pair] := by
    simp [encodePair_ne_nil]
  rw [parse, List.splitOnP_eq_singleton fun x hx => mem_encodePair hx, hkept, List.map_singleton,
    parsePair_encodePair]

/-- One more pair is parsed after those that were there. -/
theorem parse_appendPair (target : Bytes) (pair : Bytes × Bytes) :
    parse (appendPair target pair) = parse target ++ [pair] := by
  unfold appendPair
  cases target with
  | nil => exact parse_encodePair pair
  | cons b t =>
      have hsplit := List.splitOnP_append_cons (p := (· == ampersand)) (b :: t) (encodePair pair)
        (beq_self_eq_true ampersand)
      rw [if_neg (by simp), ← parse_encodePair pair, parse, hsplit, List.filter_append,
        List.map_append]
      rfl

/-- **Appended pairs are parsed after those that were there, as they are and in order.** -/
theorem parse_extend (target : Bytes) (pairs : List (Bytes × Bytes)) :
    parse (extend target pairs) = parse target ++ pairs := by
  induction pairs generalizing target with
  | nil => exact (List.append_nil _).symm
  | cons pair pairs ih =>
      have hstep : extend target (pair :: pairs) = extend (appendPair target pair) pairs := rfl
      rw [hstep, ih, parse_appendPair, List.append_assoc, List.singleton_append]

end Form

/-- Append pairs to the query of a URL; a query that stays empty is dropped. -/
def Parsed.withPairs (url : Parsed) (pairs : List (Bytes × Bytes)) : Parsed :=
  let query := Form.extend (url.query.getD []) pairs
  { url with query := if query.isEmpty then none else some query }

/-- The pairs are what is parsed from the query after what was there. -/
theorem Parsed.parse_withPairs (url : Parsed) (pairs : List (Bytes × Bytes)) :
    Form.parse ((url.withPairs pairs).query.getD []) =
      Form.parse (url.query.getD []) ++ pairs := by
  rw [← Form.parse_extend]
  unfold withPairs
  dsimp only
  split
  · rename_i hempty
    rw [List.isEmpty_iff.mp hempty]
    rfl
  · rfl

end Url
