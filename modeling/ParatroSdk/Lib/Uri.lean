import Mathlib.Data.List.DropRight

/-! # Generic URI syntax

A text with a scheme and an authority is split as `scheme://authority path ?query #fragment`:
the scheme ends at the first `:`, the authority at the next `/`, `?` or `#`, the path at the
first `?` or `#`, and the query at the first `#`.  The host is what the authority leaves
without user information (up to the last `@`) and without port (a last `:` followed by
digits only).

A text has neither query nor fragment exactly when it has neither `?` nor `#`
(`noTail_iff`), and then the path starts at the first slash (`splitRest_path`). -/

namespace Uri

/-- The five components. -/
structure Parts where
  scheme : List Char
  authority : List Char
  path : List Char
  query : Option (List Char)
  fragment : Option (List Char)
deriving DecidableEq, Repr

def endsPath (c : Char) : Bool := c == '?' || c == '#'

def endsAuthority (c : Char) : Bool := c == '/' || endsPath c

def endsScheme (c : Char) : Bool := c == ':' || endsAuthority c

/-- The query of what follows the path. -/
def queryOf : List Char → Option (List Char)
  | '?' :: text => some (text.takeWhile (· != '#'))
  | _ => none

/-- The fragment of what follows the path. -/
def fragmentOf (tail : List Char) : Option (List Char) := (tail.dropWhile (· != '#')).tail?

/-- The components of `scheme://rest`. -/
def splitRest (scheme rest : List Char) : Parts :=
  let text := rest.dropWhile (!endsAuthority ·)
  let tail := text.dropWhile (!endsPath ·)
  { scheme
    authority := rest.takeWhile (!endsAuthority ·)
    path := text.takeWhile (!endsPath ·)
    query := queryOf tail
    fragment := fragmentOf tail }

/-- The components of a text that has a scheme and an authority. -/
def split (s : List Char) : Option Parts :=
  match s.takeWhile (!endsScheme ·), s.dropWhile (!endsScheme ·) with
  | c :: cs, ':' :: '/' :: '/' :: rest => some (splitRest (c :: cs) rest)
  | _, _ => none

/-- An authority without its user information. -/
def withoutUserinfo (authority : List Char) : List Char := authority.rtakeWhile (· != '@')

/-- A host without its port. -/
def withoutPort (text : List Char) : List Char :=
  let front := text.rdropWhile Char.isDigit
  if front.getLast? = some ':' then front.dropLast else text

def hostOf (authority : List Char) : List Char := withoutPort (withoutUserinfo authority)

def Parts.host (parts : Parts) : List Char := hostOf parts.authority

theorem split_append {scheme : List Char} (hne : scheme ≠ [])
    (h : ∀ c ∈ scheme, endsScheme c = false) (rest : List Char) :
    split (scheme ++ ':' :: '/' :: '/' :: rest) = some (splitRest scheme rest) := by
  have hall : ∀ c ∈ scheme, (!endsScheme c) = true := by
    intro c hc
    rw [h c hc]
    rfl
  have htake : (scheme ++ ':' :: '/' :: '/' :: rest).takeWhile (!endsScheme ·) = scheme := by
    rw [List.takeWhile_append_of_pos hall]
    exact List.append_nil _
  have hdrop : (scheme ++ ':' :: '/' :: '/' :: rest).dropWhile (!endsScheme ·) =
      ':' :: '/' :: '/' :: rest := by
    rw [List.dropWhile_append_of_pos hall]
    rfl
  unfold split
  rw [htake, hdrop]
  cases scheme with
  | nil => exact absurd rfl hne
  | cons c cs => rfl

/-- A tail after the path begins with the character that ended the path. -/
theorem noTail_of_tail (tail : List Char) (h : ∀ c ∈ tail.head?, endsPath c = true) :
    queryOf tail = none ∧ fragmentOf tail = none ↔ tail = [] := by
  constructor
  · rintro ⟨hq, hf⟩
    cases tail with
    | nil => rfl
    | cons c cs =>
        have hc := h c rfl
        obtain hc | hc := Bool.or_eq_true _ _ |>.mp hc
        · obtain rfl := beq_iff_eq.mp hc
          cases hq
        · obtain rfl := beq_iff_eq.mp hc
          cases hf
  · rintro rfl
    exact ⟨rfl, rfl⟩

/-- **Neither query nor fragment exactly without `?` and `#`.** -/
theorem noTail_iff (scheme rest : List Char) :
    (splitRest scheme rest).query = none ∧ (splitRest scheme rest).fragment = none ↔
      ∀ c ∈ rest, endsPath c = false := by
  have hhead : ∀ c ∈ ((rest.dropWhile (!endsAuthority ·)).dropWhile (!endsPath ·)).head?,
      endsPath c = true := by
    intro c hc
    have hnot := List.head?_dropWhile_not (!endsPath ·) (rest.dropWhile (!endsAuthority ·))
    rw [Option.mem_def.mp hc] at hnot
    simpa using hnot
  refine (noTail_of_tail _ hhead).trans ?_
  rw [List.dropWhile_eq_nil_iff]
  constructor
  · intro h c hc
    rw [← List.takeWhile_append_dropWhile (p := (!endsAuthority ·)) (l := rest)] at hc
    obtain hc | hc := List.mem_append.mp hc
    · have hauth := List.mem_takeWhile_imp hc
      simp only [endsAuthority, Bool.not_eq_eq_eq_not, Bool.not_true, Bool.or_eq_false_iff] at hauth
      exact hauth.2
    · simpa using h c hc
  · intro h c hc
    rw [h c ((List.dropWhile_suffix _).subset hc)]
    rfl

/-- Without `?` and `#` the authority is the text up to the first slash and the path is
the rest. -/
theorem splitRest_path (scheme : List Char) {host path : List Char} (hslash : '/' ∉ host)
    (h : ∀ c ∈ host ++ '/' :: path, endsPath c = false) :
    splitRest scheme (host ++ '/' :: path) = ⟨scheme, host, '/' :: path, none, none⟩ := by
  have hhost : ∀ c ∈ host, (!endsAuthority c) = true := by
    intro c hc
    have hc' : c ≠ '/' := fun he => hslash (he ▸ hc)
    simp [endsAuthority, hc', h c (List.mem_append_left _ hc)]
  have hpath : ∀ c ∈ '/' :: path, (!endsPath c) = true := by
    intro c hc
    rw [h c (List.mem_append_right _ hc)]
    rfl
  have htake : (host ++ '/' :: path).takeWhile (!endsAuthority ·) = host := by
    rw [List.takeWhile_append_of_pos hhost]
    exact List.append_nil _
  have hdrop : (host ++ '/' :: path).dropWhile (!endsAuthority ·) = '/' :: path := by
    rw [List.dropWhile_append_of_pos hhost]
    rfl
  have htext : ('/' :: path).takeWhile (!endsPath ·) = '/' :: path :=
    List.takeWhile_eq_self_iff.mpr hpath
  have htail : ('/' :: path).dropWhile (!endsPath ·) = [] := List.dropWhile_eq_nil_iff.mpr hpath
  unfold splitRest
  dsimp only
  rw [htake, hdrop, htext, htail]
  rfl

end Uri
