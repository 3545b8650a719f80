import ParatroSdk.Lib.Text

/-! # Percent-encoding

Percent-encoding of bytes over an encode set, and the decoder, as the URL standard has them:
the encoder leaves a percent sign and letters and digits alone, the decoder reads a percent
sign with two hex digits after it and leaves any other percent sign as it is.

Decoding undoes encoding up to the escapes that the text had before
(`percentDecode_percentEncode`), and a text without escapes is its own decoding
(`percentDecode_eq_self_iff`). -/

namespace Url

open Text

/-! ### Bytes -/

abbrev percent : UInt8 := 0x25

def isDigit (b : UInt8) : Bool := 0x30 ≤ b && b ≤ 0x39

def isHexDigit (b : UInt8) : Bool :=
  isDigit b || (0x41 ≤ b && b ≤ 0x46) || (0x61 ≤ b && b ≤ 0x66)

def isAlphanumeric (b : UInt8) : Bool :=
  isDigit b || (0x41 ≤ b && b ≤ 0x5A) || (0x61 ≤ b && b ≤ 0x7A)

/-- The bytes that an encoder escapes. -/
structure EncodeSet where
  contains : UInt8 → Bool
  percent : contains percent = false
  alphanumeric : ∀ b, isAlphanumeric b = true → contains b = false

/-! ### Percent-encoding -/

def hexDigit (n : ℕ) : UInt8 := UInt8.ofNat (if n < 10 then 0x30 + n else 0x37 + n)

def hexValue (b : UInt8) : ℕ :=
  if b ≤ 0x39 then b.toNat - 0x30 else if b ≤ 0x46 then b.toNat - 0x37 else b.toNat - 0x57

def percentEncodeByte (b : UInt8) : Bytes :=
  [percent, hexDigit (b.toNat / 16), hexDigit (b.toNat % 16)]

def percentEncode (set : EncodeSet) (l : Bytes) : Bytes :=
  l.flatMap fun b => if set.contains b then percentEncodeByte b else [b]

/-- A percent sign and two hex digits. -/
def isEscape (b h l : UInt8) : Bool := b == percent && isHexDigit h && isHexDigit l

def percentDecode : Bytes → Bytes
  | [] => []
  | [b] => [b]
  | [b, c] => [b, c]
  | b :: h :: l :: rest =>
      if isEscape b h l then UInt8.ofNat (16 * hexValue h + hexValue l) :: percentDecode rest
      else b :: percentDecode (h :: l :: rest)

/-- The bytes begin with an escape. -/
def escapeAt : Bytes → Bool
  | b :: h :: l :: _ => isEscape b h l
  | _ => false

def hasEscape : Bytes → Bool
  | [] => false
  | b :: rest => escapeAt (b :: rest) || hasEscape rest

theorem percentDecode_cons {b : UInt8} {t : Bytes} (h : escapeAt (b :: t) = false) :
    percentDecode (b :: t) = b :: percentDecode t := by
  match t with
  | [] => rfl
  | [_] => rfl
  | x :: y :: r =>
      have hxy : isEscape b x y = false := h
      rw [percentDecode, if_neg (by rw [hxy]; exact Bool.false_ne_true)]

theorem hexDigit_spec : ∀ n < 16, isHexDigit (hexDigit n) = true ∧ hexValue (hexDigit n) = n := by
  decide

/-- An encoded byte is decoded. -/
theorem percentDecode_percentEncodeByte (b : UInt8) (rest : Bytes) :
    percentDecode (percentEncodeByte b ++ rest) = b :: percentDecode rest := by
  have hb := b.toNat_lt
  obtain ⟨hh, hhv⟩ := hexDigit_spec (b.toNat / 16) (by omega)
  obtain ⟨hl, hlv⟩ := hexDigit_spec (b.toNat % 16) (by omega)
  have hesc : isEscape percent (hexDigit (b.toNat / 16)) (hexDigit (b.toNat % 16)) = true := by
    simp [isEscape, hh, hl]
  have hval : 16 * (b.toNat / 16) + b.toNat % 16 = b.toNat := by omega
  show percentDecode (percent :: hexDigit (b.toNat / 16) :: hexDigit (b.toNat % 16) :: rest) = _
  rw [percentDecode, if_pos hesc, hhv, hlv, hval, UInt8.ofNat_toNat]

section encode
variable {set : EncodeSet}

theorem percentEncode_cons_of_mem {b : UInt8} (h : set.contains b = true) (t : Bytes) :
    percentEncode set (b :: t) = percentEncodeByte b ++ percentEncode set t := by
  rw [percentEncode, List.flatMap_cons, if_pos h, percentEncode]

theorem percentEncode_cons_of_notMem {b : UInt8} (h : set.contains b = false) (t : Bytes) :
    percentEncode set (b :: t) = b :: percentEncode set t := by
  rw [percentEncode, List.flatMap_cons, if_neg (by rw [h]; exact Bool.false_ne_true), percentEncode]
  rfl

theorem isAlphanumeric_of_isHexDigit {b : UInt8} (h : isHexDigit b = true) :
    isAlphanumeric b = true := by
  simp only [isHexDigit, isAlphanumeric, Bool.or_eq_true, Bool.and_eq_true, decide_eq_true_eq,
    UInt8.le_iff_toNat_le] at h ⊢
  obtain (h | ⟨h, h'⟩) | ⟨h, h'⟩ := h
  · exact .inl (.inl h)
  · exact .inl (.inr ⟨h, h'.trans (by decide)⟩)
  · exact .inr ⟨h, h'.trans (by decide)⟩

theorem percentEncode_alphanumeric {l : Bytes} (h : ∀ b ∈ l, isAlphanumeric b = true) :
    percentEncode set l = l := by
  induction l with
  | nil => rfl
  | cons b t ih =>
      obtain ⟨hb, ht⟩ := List.forall_mem_cons.mp h
      rw [percentEncode_cons_of_notMem (set.alphanumeric b hb), ih ht]

/-- A hex digit in front of an encoded text is a byte of the text itself. -/
theorem cons_of_percentEncode {t s : Bytes} {x : UInt8} (h : percentEncode set t = x :: s)
    (hx : isHexDigit x = true) : ∃ t', t = x :: t' ∧ percentEncode set t' = s := by
  cases t with
  | nil => cases h
  | cons c t =>
      by_cases hc : set.contains c = true
      · rw [percentEncode_cons_of_mem hc] at h
        obtain ⟨rfl, -⟩ := List.cons.inj h
        exact absurd hx (by decide)
      · rw [percentEncode_cons_of_notMem (Bool.eq_false_iff.mpr hc)] at h
        obtain ⟨rfl, hs⟩ := List.cons.inj h
        exact ⟨t, rfl, hs⟩

theorem escapeAt_of_percentEncode {b : UInt8} {t : Bytes}
    (h : escapeAt (b :: percentEncode set t) = true) : escapeAt (b :: t) = true := by
  cases hx : percentEncode set t with
  | nil => rw [hx] at h; cases h
  | cons x s =>
      cases s with
      | nil => rw [hx] at h; cases h
      | cons y r =>
          rw [hx] at h
          have hesc : isEscape b x y = true := h
          simp only [isEscape, Bool.and_eq_true] at hesc
          obtain ⟨t', rfl, ht'⟩ := cons_of_percentEncode hx hesc.1.2
          obtain ⟨t'', rfl, -⟩ := cons_of_percentEncode ht' hesc.2
          exact h

theorem percentDecode_percentEncode_cons {b : UInt8} {t : Bytes} (h : escapeAt (b :: t) = false) :
    percentDecode (percentEncode set (b :: t)) = b :: percentDecode (percentEncode set t) := by
  by_cases hb : set.contains b = true
  · rw [percentEncode_cons_of_mem hb, percentDecode_percentEncodeByte]
  · rw [percentEncode_cons_of_notMem (Bool.eq_false_iff.mpr hb)]
    refine percentDecode_cons ?_
    rw [Bool.eq_false_iff]
    intro hesc
    rw [escapeAt_of_percentEncode hesc] at h
    cases h

/-- Encoding is undone by decoding, up to the escapes that were there before. -/
theorem percentDecode_percentEncode (l : Bytes) :
    percentDecode (percentEncode set l) = percentDecode l := by
  induction l using percentDecode.induct with
  | case1 => rfl
  | case2 b => rw [percentDecode_percentEncode_cons rfl]; rfl
  | case3 b c => rw [percentDecode_percentEncode_cons rfl, percentDecode_percentEncode_cons rfl]; rfl
  | case4 b h l rest hesc ih =>
      have hparts := hesc
      simp only [isEscape, Bool.and_eq_true, beq_iff_eq] at hparts
      obtain ⟨⟨rfl, hh⟩, hl⟩ := hparts
      rw [percentEncode_cons_of_notMem set.percent,
        percentEncode_cons_of_notMem (set.alphanumeric h (isAlphanumeric_of_isHexDigit hh)),
        percentEncode_cons_of_notMem (set.alphanumeric l (isAlphanumeric_of_isHexDigit hl)),
        percentDecode, if_pos hesc, percentDecode, if_pos hesc, ih]
  | case5 b h l rest hesc ih =>
      have hat : escapeAt (b :: h :: l :: rest) = false := Bool.eq_false_iff.mpr hesc
      rw [percentDecode_percentEncode_cons hat, percentDecode_cons hat, ih]

end encode

theorem percentDecode_of_noEscape {l : Bytes} (h : hasEscape l = false) : percentDecode l = l := by
  induction l with
  | nil => rfl
  | cons b t ih =>
      obtain ⟨hat, ht⟩ := Bool.or_eq_false_iff.mp h
      rw [percentDecode_cons hat, ih ht]

theorem length_percentDecode_le (l : Bytes) : (percentDecode l).length ≤ l.length := by
  induction l using percentDecode.induct with
  | case1 => exact le_rfl
  | case2 b => exact le_rfl
  | case3 b c => exact le_rfl
  | case4 b h l rest hesc ih =>
      rw [percentDecode, if_pos hesc]
      simp only [List.length_cons]
      omega
  | case5 b h l rest hesc ih =>
      rw [percentDecode, if_neg hesc]
      exact Nat.succ_le_succ ih

/-- A text with an escape gets shorter. -/
theorem length_percentDecode_lt {l : Bytes} (h : hasEscape l = true) :
    (percentDecode l).length < l.length := by
  induction l with
  | nil => cases h
  | cons b t ih =>
      by_cases hat : escapeAt (b :: t) = true
      · match t, hat with
        | x :: y :: r, hat =>
            have hesc : isEscape b x y = true := hat
            have hle := length_percentDecode_le r
            rw [percentDecode, if_pos hesc]
            simp only [List.length_cons]
            omega
      · have hat := Bool.eq_false_iff.mpr hat
        rw [hasEscape, hat, Bool.false_or] at h
        rw [percentDecode_cons hat]
        exact Nat.succ_lt_succ (ih h)

theorem percentDecode_eq_self_iff {l : Bytes} : percentDecode l = l ↔ hasEscape l = false := by
  refine ⟨fun h => ?_, percentDecode_of_noEscape⟩
  rw [Bool.eq_false_iff]
  intro hesc
  have hlt := length_percentDecode_lt hesc
  rw [h] at hlt
  exact lt_irrefl _ hlt

end Url
