import ParatroSdk.Lib.PercentEncoding
import Mathlib.Data.List.DropRight

/-! # http and https URLs

The URL parser of the URL standard on `http` and `https` URLs, on the bytes of the input:
control characters and spaces at the ends are cut off, tabs and newlines are dropped, a
backslash counts as a slash, the first `?` or `#` ends the path, and dot segments are
resolved.  The host parser and the encode set are parameters.

The path of `base/text` is the path of `base/` continued with the segments of `text`
(`parse_append`).  One further segment that reads back as the text comes out exactly when
the text is plain (`addsItself_iff`). -/

namespace Url

open Text

/-! ### The parser -/

abbrev slash : UInt8 := 0x2F

/-- A backslash counts as a slash. -/
def isSlash (b : UInt8) : Bool := b == slash || b == 0x5C

/-- `?` or `#`. -/
def endsPath (b : UInt8) : Bool := b == 0x3F || b == 0x23

def isTabOrNewline (b : UInt8) : Bool := b == 0x09 || b == 0x0A || b == 0x0D

def isC0ControlOrSpace (b : UInt8) : Bool := b ≤ 0x20

def asciiLower (b : UInt8) : UInt8 := if 0x41 ≤ b && b ≤ 0x5A then b + 0x20 else b

inductive Scheme where
  | http
  | https
deriving DecidableEq

def Scheme.text : Scheme → Bytes
  | .http => utf8 "http:"
  | .https => utf8 "https:"

/-- A parsed URL; the authority holds user information, host and port. -/
structure Parsed where
  scheme : Scheme
  authority : Bytes
  path : List Bytes
  query : Option Bytes
  fragment : Option Bytes
deriving DecidableEq

/-- Whether the host parser accepts an authority, and what is encoded in a path. -/
structure Rules where
  acceptsAuthority : Bytes → Bool
  pathSet : EncodeSet

def dropTabs (l : Bytes) : Bytes := l.filter (!isTabOrNewline ·)

def clean (input : Bytes) : Bytes :=
  dropTabs ((input.dropWhile isC0ControlOrSpace).rdropWhile isC0ControlOrSpace)

def stripScheme (input : Bytes) : Option (Scheme × Bytes) :=
  if (input.take 6).map asciiLower = Scheme.https.text then some (.https, input.drop 6)
  else if (input.take 5).map asciiLower = Scheme.http.text then some (.http, input.drop 5)
  else none

def singleDots : List Bytes := [".", "%2e", "%2E"].map utf8

def doubleDots : List Bytes :=
  ["..", ".%2e", ".%2E", "%2e.", "%2E.", "%2e%2e", "%2e%2E", "%2E%2e", "%2E%2E"].map utf8

def isDots (seg : Bytes) : Bool := seg ∈ singleDots ∨ seg ∈ doubleDots

/-- Add a segment to the path. -/
def push (set : EncodeSet) (path : List Bytes) (seg : Bytes) : List Bytes :=
  if seg ∈ doubleDots then path.dropLast
  else if seg ∈ singleDots then path
  else path ++ [percentEncode set seg]

/-- Add the segments to the path; dots at the end leave an empty segment there. -/
def resolve (set : EncodeSet) : List Bytes → List Bytes → List Bytes
  | path, [] => path
  | path, [seg] => if isDots seg then push set path seg ++ [[]] else push set path seg
  | path, seg :: next :: segs => resolve set (push set path seg) (next :: segs)

/-- The segments of a path text, which begins with a slash or is empty. -/
def segments (text : Bytes) : List Bytes := (text.drop 1).splitOnP isSlash

/-- The query of what follows the path. -/
def query : Bytes → Option Bytes
  | [] => none
  | b :: rest => if b == 0x3F then some (rest.takeWhile (· != 0x23)) else none

def fragment (tail : Bytes) : Option Bytes := (tail.dropWhile (· != 0x23)).tail?

def inAuthority (b : UInt8) : Bool := !isSlash b && !endsPath b

/-- The parser from the end of the scheme on. -/
def parseRest (r : Rules) (scheme : Scheme) (rest : Bytes) : Option Parsed :=
  let rest := rest.dropWhile isSlash
  let authority := rest.takeWhile inAuthority
  if authority.isEmpty || !r.acceptsAuthority authority then none
  else
    let rest := rest.dropWhile inAuthority
    let tail := rest.dropWhile (!endsPath ·)
    some ⟨scheme, authority, resolve r.pathSet [] (segments (rest.takeWhile (!endsPath ·))),
      query tail, fragment tail⟩

def parse (r : Rules) (input : Bytes) : Option Parsed :=
  (stripScheme (clean input)).bind fun (scheme, rest) => parseRest r scheme rest

/-! ### Segments -/

section segments
variable {set : EncodeSet}

theorem resolve_append (xs : List Bytes) {ys : List Bytes} (h : ys ≠ []) : ∀ path : List Bytes,
    resolve set path (xs ++ ys) = resolve set (xs.foldl (push set) path) ys := by
  induction xs with
  | nil => intro path; rfl
  | cons x xs ih =>
      intro path
      obtain ⟨z, zs, hz⟩ := List.exists_cons_of_ne_nil
        (List.append_ne_nil_of_right_ne_nil xs h)
      rw [List.cons_append, List.foldl_cons, ← ih, hz]
      rfl

theorem push_of_not_isDots {seg : Bytes} (h : isDots seg = false) (path : List Bytes) :
    push set path seg = path ++ [percentEncode set seg] := by
  have hno := of_decide_eq_false h
  rw [not_or] at hno
  rw [push, if_neg hno.2, if_neg hno.1]

/-- The last segment of the path is the last one of the text, or empty. -/
theorem getLast?_resolve (path init : List Bytes) (last : Bytes) :
    (resolve set path (init ++ [last])).getLast? =
      some (if isDots last then [] else percentEncode set last) := by
  rw [resolve_append init (List.cons_ne_nil _ _), resolve]
  by_cases h : isDots last = true
  · rw [if_pos h, if_pos h, List.getLast?_concat]
  · rw [if_neg h, if_neg h, push_of_not_isDots (Bool.eq_false_iff.mpr h), List.getLast?_concat]

/-- The text after the last slash. -/
theorem splitOnP_getLast (l : Bytes) : ∃ init last, l.splitOnP isSlash = init ++ [last] ∧
    last.Sublist l ∧ ∀ b ∈ last, isSlash b = false := by
  induction l with
  | nil => exact ⟨[], [], rfl, List.Sublist.slnil, by simp⟩
  | cons b t ih =>
      obtain ⟨init, last, heq, hsub, hlast⟩ := ih
      rw [List.splitOnP_cons_eq_if_modifyHead, heq]
      by_cases hb : isSlash b = true
      · rw [if_pos hb]
        exact ⟨[] :: init, last, rfl, hsub.cons b, hlast⟩
      · rw [if_neg hb]
        cases init with
        | nil =>
            refine ⟨[], b :: last, rfl, hsub.cons_cons b, ?_⟩
            exact List.forall_mem_cons.mpr ⟨Bool.eq_false_iff.mpr hb, hlast⟩
        | cons x init => exact ⟨(b :: x) :: init, last, rfl, hsub.cons b, hlast⟩

/-- Letters and digits go into the path as they are. -/
theorem foldl_push_alphanumeric {segs : List Bytes}
    (h : ∀ seg ∈ segs, ∀ b ∈ seg, isAlphanumeric b = true) : ∀ path : List Bytes,
    segs.foldl (push set) path = path ++ segs := by
  induction segs with
  | nil => intro path; rw [List.foldl_nil, List.append_nil]
  | cons seg segs ih =>
      intro path
      obtain ⟨hseg, hsegs⟩ := List.forall_mem_cons.mp h
      have hdots : isDots seg = false := by
        refine decide_eq_false ?_
        simp only [singleDots, doubleDots, List.map_cons, List.map_nil, List.mem_cons,
          List.not_mem_nil, or_false]
        rintro ((rfl | rfl | rfl) | rfl | rfl | rfl | rfl | rfl | rfl | rfl | rfl | rfl)
        all_goals exact absurd hseg (by decide)
      rw [List.foldl_cons, push_of_not_isDots hdots, percentEncode_alphanumeric hseg, ih hsegs,
        List.append_assoc, List.singleton_append]

end segments

/-! ### A text that is a segment of its own -/

/-- What is left of a text at the end of the input. -/
def cleanEnd (t : Bytes) : Bytes := dropTabs (t.rdropWhile isC0ControlOrSpace)

/-- The part of the text that belongs to the path. -/
def pathPart (t : Bytes) : Bytes := (cleanEnd t).takeWhile (!endsPath ·)

/-- The query and the fragment in the text. -/
def tailPart (t : Bytes) : Bytes := (cleanEnd t).dropWhile (!endsPath ·)

/-- Nothing in the text means anything to the parser. -/
structure Plain (t : Bytes) : Prop where
  delimiter : ∀ b ∈ t, isSlash b = false ∧ endsPath b = false ∧ isTabOrNewline b = false
  escape : hasEscape t = false
  trimmed : ∀ b, t.getLast? = some b → isC0ControlOrSpace b = false

theorem dropTabs_eq_self {t : Bytes} (h : ∀ b ∈ t, isTabOrNewline b = false) : dropTabs t = t := by
  refine List.filter_eq_self.mpr fun b hb => ?_
  rw [h b hb]
  rfl

section plain
variable {set : EncodeSet} {t : Bytes}

theorem Plain.cleanEnd_eq (h : Plain t) : cleanEnd t = t := by
  have htrim : t.rdropWhile isC0ControlOrSpace = t := by
    rw [List.rdropWhile_eq_self_iff]
    intro hne
    rw [h.trimmed _ (List.getLast?_eq_some_getLast hne)]
    exact Bool.false_ne_true
  rw [cleanEnd, htrim, dropTabs_eq_self fun b hb => (h.delimiter b hb).2.2]

theorem Plain.pathPart_eq (h : Plain t) : pathPart t = t := by
  rw [pathPart, h.cleanEnd_eq, List.takeWhile_eq_self_iff]
  intro b hb
  rw [(h.delimiter b hb).2.1]
  rfl

theorem Plain.tailPart_eq (h : Plain t) : tailPart t = [] := by
  rw [tailPart, h.cleanEnd_eq, List.dropWhile_eq_nil_iff]
  intro b hb
  rw [(h.delimiter b hb).2.1]
  rfl

theorem isDots_of_noEscape (h : hasEscape t = false) (h₁ : t ≠ utf8 ".") (h₂ : t ≠ utf8 "..") :
    isDots t = false := by
  refine decide_eq_false ?_
  simp only [singleDots, doubleDots, List.map_cons, List.map_nil, List.mem_cons, List.not_mem_nil,
    or_false]
  rintro ((rfl | rfl | rfl) | rfl | rfl | rfl | rfl | rfl | rfl | rfl | rfl | rfl)
  · exact h₁ rfl
  · exact absurd h (by decide)
  · exact absurd h (by decide)
  · exact h₂ rfl
  all_goals exact absurd h (by decide)

theorem pathPart_sublist (t : Bytes) : (pathPart t).Sublist t :=
  (List.takeWhile_prefix _).sublist.trans
    (List.filter_sublist.trans (List.rdropWhile_prefix _ _).sublist)

/-- A text that is its own path part holds no delimiter but slashes. -/
theorem plain_of_pathPart_eq (h : pathPart t = t) (hslash : ∀ b ∈ t, isSlash b = false)
    (hesc : hasEscape t = false) : Plain t := by
  have hcut : (t.rdropWhile isC0ControlOrSpace).Sublist t := (List.rdropWhile_prefix _ _).sublist
  have hdrop : (cleanEnd t).Sublist (t.rdropWhile isC0ControlOrSpace) := List.filter_sublist
  have htake : t.Sublist (cleanEnd t) := by
    conv_lhs => rw [← h]
    exact (List.takeWhile_prefix _).sublist
  have hclean : cleanEnd t = t := (hdrop.trans hcut).antisymm htake
  have htrim : t.rdropWhile isC0ControlOrSpace = t := hcut.antisymm (htake.trans hdrop)
  refine ⟨fun b hb => ⟨hslash b hb, ?_, ?_⟩, hesc, fun b hb => ?_⟩
  · rw [pathPart, hclean, List.takeWhile_eq_self_iff] at h
    exact Bool.not_eq_true' _ |>.mp (h b hb)
  · rw [cleanEnd, htrim, dropTabs, List.filter_eq_self] at hclean
    exact Bool.not_eq_true' _ |>.mp (hclean b hb)
  · have hne : t ≠ [] := by rintro rfl; cases hb
    rw [List.getLast?_eq_some_getLast hne] at hb
    cases hb
    exact Bool.eq_false_iff.mpr (List.rdropWhile_eq_self_iff.mp htrim hne)

/-- **A text adds itself to the path as one segment exactly when it is plain.** -/
theorem addsItself_iff (set : EncodeSet) (hne : t ≠ []) (h₁ : t ≠ utf8 ".") (h₂ : t ≠ utf8 "..")
    (path : List Bytes) :
    (∃ seg, resolve set path ((pathPart t).splitOnP isSlash) = path ++ [seg] ∧
      percentDecode seg = t ∧ query (tailPart t) = none) ↔ Plain t := by
  constructor
  · rintro ⟨seg, hres, hdec, -⟩
    obtain ⟨init, last, hsplit, hsub, hslash⟩ := splitOnP_getLast (pathPart t)
    have hlast := congrArg List.getLast? hres
    rw [hsplit, getLast?_resolve, List.getLast?_concat] at hlast
    have hlong : ¬ last.length < t.length := by
      intro hlt
      refine absurd (congrArg List.length hdec) (Nat.ne_of_lt ?_)
      split at hlast
      · rw [← Option.some.inj hlast]
        exact List.length_pos_of_ne_nil hne
      · rw [← Option.some.inj hlast, percentDecode_percentEncode]
        exact lt_of_le_of_lt (length_percentDecode_le last) hlt
    have hlt : last = t :=
      (hsub.trans (pathPart_sublist t)).eq_of_length_le (Nat.le_of_not_lt hlong)
    subst hlt
    refine plain_of_pathPart_eq ((pathPart_sublist last).antisymm hsub) hslash ?_
    split at hlast
    · rw [← Option.some.inj hlast] at hdec
      exact absurd hdec.symm hne
    · rw [← Option.some.inj hlast, percentDecode_percentEncode] at hdec
      exact percentDecode_eq_self_iff.mp hdec
  · intro h
    have hsplit : (pathPart t).splitOnP isSlash = [t] := by
      rw [h.pathPart_eq]
      exact List.splitOnP_eq_singleton fun b hb => (h.delimiter b hb).1
    have hdots := isDots_of_noEscape h.escape h₁ h₂
    refine ⟨percentEncode set t, ?_, ?_, ?_⟩
    · rw [hsplit, resolve, if_neg (by rw [hdots]; exact Bool.false_ne_true),
        push_of_not_isDots hdots]
    · rw [percentDecode_percentEncode, percentDecode_of_noEscape h.escape]
    · rw [h.tailPart_eq]
      rfl

end plain

/-! ### Texts appended to a base -/

/-- Host and path of a base, from the end of its scheme on. -/
def hostAndPath (rest : Bytes) : Bytes := (dropTabs rest).dropWhile isSlash

def authorityOf (rest : Bytes) : Bytes := (hostAndPath rest).takeWhile inAuthority

/-- The path of `base/`, without the empty segment at its end. -/
def directory (set : EncodeSet) (rest : Bytes) : List Bytes :=
  match (hostAndPath rest).dropWhile inAuthority with
  | [] => []
  | _ :: dir => (dir.splitOnP isSlash).foldl (push set) []

section append
variable {r : Rules} {scheme : Scheme} {rest : Bytes}

theorem rdropWhile_append_cons {α : Type} {p : α → Bool} {a : α} (h : p a = false) (xs t : List α) :
    (xs ++ a :: t).rdropWhile p = xs ++ a :: t.rdropWhile p := by
  induction t using List.reverseRecOn with
  | nil => exact List.rdropWhile_concat_neg p xs a (by rw [h]; exact Bool.false_ne_true)
  | append_singleton t y ih =>
      rw [← List.cons_append, ← List.append_assoc, List.rdropWhile_concat, List.rdropWhile_concat, ih]
      split
      · rfl
      · rw [List.append_assoc, List.cons_append]

theorem takeWhile_append_cons {α : Type} {p : α → Bool} {a : α} (h : p a = false) (xs t : List α) :
    (xs ++ a :: t).takeWhile p = xs.takeWhile p := by
  induction xs with
  | nil => rw [List.nil_append, List.takeWhile_cons_of_neg (by rw [h]; exact Bool.false_ne_true)]; rfl
  | cons x xs ih => rw [List.cons_append, List.takeWhile_cons, List.takeWhile_cons, ih]

theorem dropWhile_append_cons {α : Type} {p : α → Bool} {a : α} (h : p a = false) (xs t : List α) :
    (xs ++ a :: t).dropWhile p = xs.dropWhile p ++ a :: t := by
  induction xs with
  | nil => rw [List.nil_append, List.dropWhile_cons_of_neg (by rw [h]; exact Bool.false_ne_true)]; rfl
  | cons x xs ih =>
      rw [List.cons_append, List.dropWhile_cons, List.dropWhile_cons, ih]
      split <;> rfl

theorem clean_append (scheme : Scheme) (rest t : Bytes) :
    clean (scheme.text ++ rest ++ slash :: t) =
      scheme.text ++ (dropTabs rest ++ slash :: cleanEnd t) := by
  have htext : ∀ u : Bytes, (scheme.text ++ u).dropWhile isC0ControlOrSpace = scheme.text ++ u ∧
      dropTabs (scheme.text ++ u) = scheme.text ++ dropTabs u := by
    intro u
    cases scheme <;> exact ⟨rfl, rfl⟩
  have htrim : (scheme.text ++ rest ++ slash :: t).rdropWhile isC0ControlOrSpace =
      scheme.text ++ rest ++ slash :: t.rdropWhile isC0ControlOrSpace :=
    rdropWhile_append_cons rfl _ _
  unfold clean
  rw [List.append_assoc, (htext _).1, ← List.append_assoc, htrim, List.append_assoc, (htext _).2]
  unfold dropTabs cleanEnd
  rw [List.filter_append]
  rfl

theorem stripScheme_text (scheme : Scheme) (u : Bytes) :
    stripScheme (scheme.text ++ u) = some (scheme, u) := by
  cases scheme with
  | http =>
      have hne : ((Scheme.http.text ++ u).take 6).map asciiLower ≠ Scheme.https.text := by
        intro h
        have h4 := congrArg (·[4]?) h
        cases u <;> cases h4
      rw [stripScheme, if_neg hne]
      rfl
  | https => rfl

theorem endsPath_hostAndPath (h : ∀ b ∈ rest, endsPath b = false) :
    ∀ b ∈ hostAndPath rest, endsPath b = false := by
  intro b hb
  exact h b (List.mem_of_mem_filter ((List.dropWhile_suffix _).subset hb))

/-- Where the base has no host, the parser takes it from the text. -/
theorem parse_append_noHost (h : hostAndPath rest = []) (t : Bytes) :
    parse r (scheme.text ++ rest ++ slash :: t) = parseRest r scheme (cleanEnd t) := by
  have hdrop : (dropTabs rest ++ slash :: cleanEnd t).dropWhile isSlash =
      (cleanEnd t).dropWhile isSlash := by
    rw [List.dropWhile_append, show (dropTabs rest).dropWhile isSlash = [] from h]
    rfl
  unfold parse
  rw [clean_append, stripScheme_text, Option.bind_some]
  show parseRest r scheme (dropTabs rest ++ slash :: cleanEnd t) = _
  unfold parseRest
  rw [hdrop]

theorem authorityOf_ne_nil (hend : ∀ b ∈ rest, endsPath b = false) (h : hostAndPath rest ≠ []) :
    authorityOf rest ≠ [] := by
  obtain ⟨b, l, hl⟩ := List.exists_cons_of_ne_nil h
  have hends := endsPath_hostAndPath hend b (by rw [hl]; exact List.mem_cons_self)
  have hhead := List.head?_dropWhile_not isSlash (dropTabs rest)
  rw [show (dropTabs rest).dropWhile isSlash = b :: l from hl] at hhead
  have hin : inAuthority b = true := by
    rw [inAuthority, show isSlash b = false from hhead, hends]
    rfl
  rw [authorityOf, hl, List.takeWhile_cons_of_pos hin]
  exact List.cons_ne_nil _ _

/-- The segments of the base come first. -/
theorem resolve_segments (set : EncodeSet) (rest u : Bytes) :
    resolve set [] (segments ((hostAndPath rest).dropWhile inAuthority ++ slash :: u)) =
      resolve set (directory set rest) (u.splitOnP isSlash) := by
  unfold directory
  cases (hostAndPath rest).dropWhile inAuthority with
  | nil => rfl
  | cons b dir =>
      show resolve set [] ((dir ++ slash :: u).splitOnP isSlash) = _
      rw [List.splitOnP_append_cons dir u rfl, resolve_append _ (List.splitOnP_ne_nil _ _)]

/-- **The URL of `base/text` continues the path of `base/` with the segments of the text.** -/
theorem parse_append (hend : ∀ b ∈ rest, endsPath b = false) (h : hostAndPath rest ≠ [])
    (t : Bytes) :
    parse r (scheme.text ++ rest ++ slash :: t) =
      if r.acceptsAuthority (authorityOf rest) then
        some ⟨scheme, authorityOf rest,
          resolve r.pathSet (directory r.pathSet rest) ((pathPart t).splitOnP isSlash),
          query (tailPart t), fragment (tailPart t)⟩
      else none := by
  have hskip : (dropTabs rest ++ slash :: cleanEnd t).dropWhile isSlash =
      hostAndPath rest ++ slash :: cleanEnd t := by
    rw [List.dropWhile_append, if_neg]
    · rfl
    · rw [List.isEmpty_iff]
      exact h
  have hdir : ∀ b ∈ (hostAndPath rest).dropWhile inAuthority, (!endsPath b) = true := by
    intro b hb
    rw [endsPath_hostAndPath hend b ((List.dropWhile_suffix _).subset hb)]
    rfl
  have hauth : (authorityOf rest).isEmpty = false := by
    rw [List.isEmpty_eq_false_iff]
    exact authorityOf_ne_nil hend h
  unfold parse
  rw [clean_append, stripScheme_text, Option.bind_some]
  show parseRest r scheme (dropTabs rest ++ slash :: cleanEnd t) = _
  unfold parseRest
  rw [hskip]
  dsimp only
  rw [takeWhile_append_cons rfl, dropWhile_append_cons rfl, List.takeWhile_append_of_pos hdir,
    List.dropWhile_append_of_pos hdir, List.takeWhile_cons_of_pos rfl,
    List.dropWhile_cons_of_pos rfl, resolve_segments]
  show (if (authorityOf rest).isEmpty || !r.acceptsAuthority (authorityOf rest) then none else _) = _
  rw [hauth, Bool.false_or]
  cases r.acceptsAuthority (authorityOf rest) <;> rfl

/-- The text in front of a slash is left alone when it holds no delimiter but slashes. -/
theorem cleanEnd_append {pre : Bytes} (h : ∀ b ∈ pre, isTabOrNewline b = false) (t : Bytes) :
    cleanEnd (pre ++ slash :: t) = pre ++ slash :: cleanEnd t := by
  unfold cleanEnd
  rw [rdropWhile_append_cons rfl]
  unfold dropTabs
  rw [List.filter_append, List.filter_eq_self.mpr fun b hb => by rw [h b hb]; rfl]
  rfl

theorem pathPart_append {pre : Bytes} (h : ∀ b ∈ pre, isTabOrNewline b = false)
    (h' : ∀ b ∈ pre, endsPath b = false) (t : Bytes) :
    pathPart (pre ++ slash :: t) = pre ++ slash :: pathPart t ∧
      tailPart (pre ++ slash :: t) = tailPart t := by
  have hpre : ∀ b ∈ pre, (!endsPath b) = true := by
    intro b hb
    rw [h' b hb]
    rfl
  unfold pathPart tailPart
  rw [cleanEnd_append h, List.takeWhile_append_of_pos hpre, List.dropWhile_append_of_pos hpre,
    List.takeWhile_cons_of_pos rfl, List.dropWhile_cons_of_pos rfl]
  exact ⟨rfl, rfl⟩

end append

end Url
