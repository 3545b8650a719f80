import ParatroSdk.Lib.Uri
import ParatroSdk.Client

/-! # The base URL

`MpcClient::new` normalises the base URL of the configuration and hands the result to the
token manager and to the API client, both of which append a path to it (`src/config.rs`,
`src/client.rs`, `src/token.rs`).

`normalizeBaseUrl_exact` describes the accepted texts and the normal form.  The check looks
at the text up to the first slash, while the generic URI syntax also ends an authority at
`?` and `#` and a path at the same two, and it does not take user information or a port
for a host.  `addressesEndpoint_iff` says which accepted base URLs send a path to the
endpoint it names. -/

namespace ParatroSdk

open Text

/-! ### Normal form -/

/-- `n` slashes. -/
def slashes (n : ℕ) : String := String.ofList (List.replicate n '/')

/-- A base URL in normal form: a scheme, a host segment, and no slash at the end. -/
structure Normalized (v : String) : Prop where
  lastChar : v.toList.getLast? ≠ some '/'
  hostSegment : ∃ scheme host tail, (scheme = "http://" ∨ scheme = "https://") ∧
    v = scheme ++ host ++ tail ∧ host ≠ "" ∧
    (∀ c ∈ host.toList, c ≠ '/' ∧ isWhitespace c = false) ∧
    (tail = "" ∨ startsWith tail "/" = true)

theorem toList_slashes (n : ℕ) : (slashes n).toList = List.replicate n '/' := String.toList_ofList

theorem eq_replicate_rtakeWhile (l : List Char) :
    l.rtakeWhile (· == '/') = List.replicate (l.rtakeWhile (· == '/')).length '/' := by
  apply List.eq_replicate_of_mem
  intro c hc
  have hp := List.mem_rtakeWhile_imp (p := (· == '/')) hc
  exact beq_iff_eq.mp hp

/-- Trimming cuts a text at its last character that is not a slash. -/
theorem trimEndMatches_eq_iff {u v : String} :
    trimEndMatches u '/' = v ↔ (∃ n, u = v ++ slashes n) ∧ v.toList.getLast? ≠ some '/' := by
  constructor
  · rintro rfl
    constructor
    · refine ⟨(u.toList.rtakeWhile (· == '/')).length, ?_⟩
      rw [← String.toList_inj, String.toList_append, toList_slashes, ← eq_replicate_rtakeWhile,
        trimEndMatches, String.toList_ofList, List.rdropWhile_append_rtakeWhile]
    · intro h
      rw [trimEndMatches, String.toList_ofList] at h
      have hne : u.toList.rdropWhile (· == '/') ≠ [] := by
        intro hnil
        rw [hnil] at h
        cases h
      have hlast := List.rdropWhile_last_not (· == '/') u.toList hne
      rw [List.getLast?_eq_getLast_of_ne_nil hne, Option.some_inj] at h
      rw [h] at hlast
      exact hlast rfl
  · rintro ⟨⟨n, rfl⟩, hlast⟩
    have hslashes : ∀ c ∈ List.replicate n '/', (c == '/') = true := by
      intro c hc
      exact beq_iff_eq.mpr (List.mem_replicate.mp hc).2
    have hkeep : v.toList.rdropWhile (· == '/') = v.toList := by
      rw [List.rdropWhile_eq_self_iff]
      intro hne hc
      apply hlast
      rw [List.getLast?_eq_getLast_of_ne_nil hne, beq_iff_eq.mp hc]
    rw [trimEndMatches, String.toList_append, toList_slashes, rdropWhile_append_of_pos hslashes,
      hkeep, String.ofList_toList]

/-- Slashes at the end make no difference to trimming. -/
theorem trimEndMatches_append_slashes (u : String) (n : ℕ) :
    trimEndMatches (u ++ slashes n) '/' = trimEndMatches u '/' := by
  obtain ⟨⟨m, hm⟩, hlast⟩ := trimEndMatches_eq_iff.mp (rfl : trimEndMatches u '/' = _)
  refine trimEndMatches_eq_iff.mpr ⟨⟨m + n, ?_⟩, hlast⟩
  have hsum : slashes (m + n) = slashes m ++ slashes n := by
    rw [← String.toList_inj, String.toList_append, toList_slashes, toList_slashes, toList_slashes,
      List.replicate_add]
  rw [hsum, ← String.append_assoc, ← hm]

/-! ### The check -/

/-- The two schemes of a text exclude each other. -/
theorem http_ne_https (r s : String) : "http://" ++ r ≠ "https://" ++ s := by
  intro h
  have hl := congrArg (fun t : String => t.toList[4]?) h
  simp only [String.toList_append] at hl
  have hc : some ':' = some 's' := hl
  exact absurd hc (by decide)

/-- What the check strips off is the scheme the text has. -/
theorem stripPrefix_scheme {v rest : String} (h : v = "https://" ++ rest ∨ v = "http://" ++ rest) :
    (stripPrefix v "https://").or (stripPrefix v "http://") = some rest := by
  obtain h | h := h
  · rw [stripPrefix_eq_some_iff.mpr h]
    rfl
  · have hnone : stripPrefix v "https://" = none := by
      rw [Option.eq_none_iff_forall_ne_some]
      intro s hs
      exact http_ne_https rest s (h ▸ stripPrefix_eq_some_iff.mp hs)
    rw [hnone, stripPrefix_eq_some_iff.mpr h]
    rfl

/-- The check is passed by a text with a scheme and a host segment. -/
theorem normalizeBaseUrl_ok {u rest : String}
    (h : trimEndMatches u '/' = "https://" ++ rest ∨ trimEndMatches u '/' = "http://" ++ rest)
    (hne : rest.toList.takeWhile (· != '/') ≠ [])
    (hws : (rest.toList.takeWhile (· != '/')).any isWhitespace = false) :
    normalizeBaseUrl u = .ok (trimEndMatches u '/') := by
  have hempty : (beforeFirst rest '/').isEmpty = false := by
    rw [Bool.eq_false_iff]
    intro he
    apply hne
    rw [String.isEmpty_iff] at he
    rw [← String.toList_ofList (l := rest.toList.takeWhile (· != '/'))]
    exact congrArg String.toList he
  have hlist : (beforeFirst rest '/').toList.any isWhitespace = false := by
    rw [beforeFirst, String.toList_ofList]
    exact hws
  unfold normalizeBaseUrl
  dsimp only
  rw [stripPrefix_scheme h, Option.map_some, Option.filter_some, hempty, hlist]
  rfl

theorem normalizeBaseUrl_error (u : String) :
    (∃ v, normalizeBaseUrl u = .ok v) ∨ normalizeBaseUrl u = .error (.invalidConfig baseUrlError) := by
  unfold normalizeBaseUrl
  dsimp only
  split
  · exact .inl ⟨_, rfl⟩
  · exact .inr rfl

/-- The host segment of a text ends at the first slash or at the end. -/
theorem hostSegment_iff (rest : String) :
    (∃ host tail : String, rest = host ++ tail ∧ host ≠ "" ∧
      (∀ c ∈ host.toList, c ≠ '/' ∧ isWhitespace c = false) ∧
      (tail = "" ∨ startsWith tail "/" = true)) ↔
    rest.toList.takeWhile (· != '/') ≠ [] ∧
      (rest.toList.takeWhile (· != '/')).any isWhitespace = false := by
  constructor
  · rintro ⟨host, tail, rfl, hne, hhost, htail⟩
    have htake : (host ++ tail).toList.takeWhile (· != '/') = host.toList := by
      rw [takeWhile_ne_eq_iff]
      refine ⟨fun hc => (hhost _ hc).1 rfl, ?_⟩
      obtain rfl | htail := htail
      · exact .inl (congrArg String.toList String.append_empty)
      · obtain ⟨t, ht⟩ := startsWith_iff.mp htail
        rw [String.toList_append, ← ht]
        exact .inr ⟨t, rfl⟩
    rw [htake, List.any_eq_false]
    refine ⟨fun hnil => hne (String.toList_eq_nil_iff.mp hnil), fun c hc => ?_⟩
    rw [(hhost c hc).2]
    exact Bool.false_ne_true
  · rintro ⟨hne, hws⟩
    obtain ⟨hno, hrest⟩ := takeWhile_ne_eq_iff.mp (rfl : rest.toList.takeWhile (· != '/') = _)
    obtain ⟨tail, htail, hstart⟩ : ∃ tail : String,
        rest.toList = rest.toList.takeWhile (· != '/') ++ tail.toList ∧
          (tail = "" ∨ startsWith tail "/" = true) := by
      obtain h | ⟨t, h⟩ := hrest
      · exact ⟨"", h.trans (List.append_nil _).symm, .inl rfl⟩
      · refine ⟨String.ofList ('/' :: t), ?_, .inr ?_⟩
        · rw [String.toList_ofList]
          exact h
        · rw [startsWith_iff, String.toList_ofList (l := '/' :: t)]
          exact List.prefix_append ['/'] t
    refine ⟨beforeFirst rest '/', tail, ?_, ?_, ?_, hstart⟩
    · rw [← String.toList_inj, String.toList_append, beforeFirst, String.toList_ofList]
      exact htail
    · intro he
      apply hne
      rw [← String.toList_ofList (l := rest.toList.takeWhile (· != '/'))]
      exact congrArg String.toList he
    · intro c hc
      rw [beforeFirst, String.toList_ofList] at hc
      refine ⟨fun he => hno (he ▸ hc), ?_⟩
      rw [Bool.eq_false_iff]
      exact List.any_eq_false.mp hws c hc

theorem normalized_iff {v : String} :
    Normalized v ↔ v.toList.getLast? ≠ some '/' ∧
      ∃ rest, (v = "https://" ++ rest ∨ v = "http://" ++ rest) ∧
        rest.toList.takeWhile (· != '/') ≠ [] ∧
        (rest.toList.takeWhile (· != '/')).any isWhitespace = false := by
  constructor
  · rintro ⟨hlast, scheme, host, tail, hscheme, rfl, hseg⟩
    refine ⟨hlast, host ++ tail, ?_, (hostSegment_iff _).mp ⟨host, tail, rfl, hseg⟩⟩
    rw [String.append_assoc]
    obtain rfl | rfl := hscheme
    · exact .inr rfl
    · exact .inl rfl
  · rintro ⟨hlast, rest, hscheme, hseg⟩
    obtain ⟨host, tail, rfl, hparts⟩ := (hostSegment_iff rest).mpr hseg
    obtain h | h := hscheme
    · exact ⟨hlast, _, host, tail, .inr rfl, by rw [h, String.append_assoc], hparts⟩
    · exact ⟨hlast, _, host, tail, .inl rfl, by rw [h, String.append_assoc], hparts⟩

/-- The accepted base URLs and what they are normalised to. -/
theorem normalizeBaseUrl_eq_ok_iff {u v : String} :
    normalizeBaseUrl u = .ok v ↔ (∃ n, u = v ++ slashes n) ∧ Normalized v := by
  constructor
  · intro h
    obtain ⟨hv, hseg⟩ := normalizeBaseUrl_eq_ok h
    obtain ⟨hu, hlast⟩ := trimEndMatches_eq_iff.mp hv.symm
    exact ⟨hu, normalized_iff.mpr ⟨hlast, hseg⟩⟩
  · rintro ⟨hu, hv⟩
    obtain ⟨hlast, rest, hscheme, hne, hws⟩ := normalized_iff.mp hv
    obtain rfl := trimEndMatches_eq_iff.mpr ⟨hu, hlast⟩
    exact normalizeBaseUrl_ok hscheme hne hws

/-! ### The URLs of a client -/

/-- The path that `TokenManager.authRequest` appends. -/
def authPath : String := "/api/v1/auth/token"

section client
variable {build : Duration → Except ReqwestError Unit} {apiKey apiSecret : String}
  {config : Config} {c : MpcClient}

/-- Both parts of a client have the normalised base URL. -/
theorem MpcClient.new_eq_ok (h : MpcClient.new build apiKey apiSecret config = .ok c) :
    normalizeBaseUrl config.baseUrl = .ok c.config.baseUrl ∧
      c.tokenManager.baseUrl = c.config.baseUrl := by
  unfold MpcClient.new TokenManager.new at h
  dsimp only at h
  by_cases hkey : apiKey.isEmpty = true
  · rw [if_pos hkey] at h
    cases h
  rw [if_neg hkey] at h
  by_cases hsecret : apiSecret.isEmpty = true
  · rw [if_pos hsecret] at h
    cases h
  rw [if_neg hsecret] at h
  cases hbase : normalizeBaseUrl config.baseUrl with
  | error e =>
      rw [hbase] at h
      cases h
  | ok v =>
      rw [hbase] at h
      cases hbuild : build config.timeout with
      | error e =>
          rw [hbuild] at h
          cases h
      | ok =>
          rw [hbuild] at h
          cases h
          exact ⟨rfl, rfl⟩

end client

/-- Two slashes in a row at position `i`. -/
def DoubleSlashAt (url : String) (i : ℕ) : Prop :=
  url.toList[i]? = some '/' ∧ url.toList[i + 1]? = some '/'

/-- The URL is the base and the path, with no doubled slash where they meet except for one
that the path begins with. -/
structure Joined (url base path : String) : Prop where
  concat : url = base ++ path
  across : ¬ DoubleSlashAt url (base.toList.length - 1)
  after : DoubleSlashAt url base.toList.length ↔ startsWith path "//" = true

theorem joined_of_normalized {base path : String} (hbase : Normalized base)
    (hpath : startsWith path "/" = true) : Joined (base ++ path) base path := by
  obtain ⟨t, ht⟩ := startsWith_iff.mp hpath
  have hlist : (base ++ path).toList = base.toList ++ '/' :: t := by
    rw [String.toList_append, ← ht]
    rfl
  have hne : base.toList ≠ [] := by
    obtain ⟨-, scheme, host, tail, hscheme, rfl, -⟩ := hbase
    intro hnil
    rw [String.toList_append, String.toList_append, List.append_eq_nil_iff,
      List.append_eq_nil_iff] at hnil
    rcases hscheme with rfl | rfl <;> exact absurd hnil.1.1 (by decide)
  have hpos : 0 < base.toList.length := List.length_pos_of_ne_nil hne
  refine ⟨rfl, ?_, ?_⟩
  · rintro ⟨hseam, -⟩
    rw [hlist, List.getElem?_append_left (by omega), ← List.getLast?_eq_getElem?] at hseam
    exact hbase.lastChar hseam
  · have hfirst : (base ++ path).toList[base.toList.length]? = some '/' := by
      rw [hlist, List.getElem?_append_right (le_refl _), Nat.sub_self]
      rfl
    have hsecond : (base ++ path).toList[base.toList.length + 1]? = t[0]? := by
      rw [hlist, List.getElem?_append_right (by omega), Nat.add_sub_cancel_left]
      rfl
    unfold DoubleSlashAt
    rw [hfirst, hsecond, startsWith_iff, ← ht]
    constructor
    · rintro ⟨-, hslash⟩
      cases t with
      | nil => cases hslash
      | cons c cs =>
          obtain rfl := Option.some.inj hslash
          exact ⟨cs, rfl⟩
    · rintro ⟨cs, hcs⟩
      obtain rfl : '/' :: cs = t := (List.cons.inj hcs).2
      exact ⟨rfl, rfl⟩

/-- **The accepted base URLs, their normal form, and the URLs made from it.** -/
theorem normalizeBaseUrl_exact :
    (∀ u v, normalizeBaseUrl u = .ok v ↔ (∃ n, u = v ++ slashes n) ∧ Normalized v) ∧
    (∀ u, (¬ ∃ v, (∃ n, u = v ++ slashes n) ∧ Normalized v) →
      normalizeBaseUrl u = .error (.invalidConfig baseUrlError)) ∧
    (∀ u v, normalizeBaseUrl u = .ok v → normalizeBaseUrl v = .ok v) ∧
    (∀ u n, normalizeBaseUrl (u ++ slashes n) = normalizeBaseUrl u) ∧
    ∀ build apiKey apiSecret config c,
      MpcClient.new build apiKey apiSecret config = .ok c →
        normalizeBaseUrl config.baseUrl = .ok c.config.baseUrl ∧
        (∀ path, startsWith path "/" = true → Joined (c.url path) c.config.baseUrl path) ∧
        Joined c.tokenManager.authRequest.url c.config.baseUrl authPath := by
  refine ⟨fun u v => normalizeBaseUrl_eq_ok_iff, ?_, ?_, ?_, ?_⟩
  · intro u hno
    obtain ⟨v, hv⟩ | he := normalizeBaseUrl_error u
    · exact absurd ⟨v, normalizeBaseUrl_eq_ok_iff.mp hv⟩ hno
    · exact he
  · intro u v h
    obtain ⟨-, hv⟩ := normalizeBaseUrl_eq_ok_iff.mp h
    have hself : v = v ++ slashes 0 := String.append_empty.symm
    exact normalizeBaseUrl_eq_ok_iff.mpr ⟨⟨0, hself⟩, hv⟩
  · intro u n
    unfold normalizeBaseUrl
    rw [trimEndMatches_append_slashes]
  · intro build apiKey apiSecret config c h
    obtain ⟨hbase, hauth⟩ := MpcClient.new_eq_ok h
    have hnorm := (normalizeBaseUrl_eq_ok_iff.mp hbase).2
    refine ⟨hbase, fun path hpath => joined_of_normalized hnorm hpath, ?_⟩
    have hurl : c.tokenManager.authRequest.url = c.config.baseUrl ++ authPath := by
      rw [← hauth]
      rfl
    rw [hurl]
    exact joined_of_normalized hnorm (by decide)

/-- A base URL with two slashes after it is accepted without them, and then as it is; a host
with a space in it is not in the language. -/
theorem normalizeBaseUrl_exact_again :
    ((∃ n, "https://gateway.example//" = "https://gateway.example" ++ slashes n) ∧
        Normalized "https://gateway.example") ∧
      normalizeBaseUrl "https://gateway.example" = .ok "https://gateway.example" ∧
        ¬ Normalized "https://gateway .example" := by
  obtain ⟨hlanguage, -, hagain, -, -⟩ := normalizeBaseUrl_exact
  refine ⟨(hlanguage "https://gateway.example//" _).mp (by decide),
    hagain "https://gateway.example//" _ (by decide), fun hnorm => ?_⟩
  have haccepted := (hlanguage "https://gateway .example" _).mpr ⟨⟨0, by decide⟩, hnorm⟩
  exact absurd haccepted (by decide)

/-! ### The endpoint a URL addresses -/

/-- By the generic URI syntax the URL is an http(s) URL with a host, whose path ends with
the given one and is not followed by anything. -/
def AddressesEndpoint (url path : String) : Prop :=
  ∃ parts, Uri.split url.toList = some parts ∧
    (parts.scheme = "http".toList ∨ parts.scheme = "https".toList) ∧ parts.host ≠ [] ∧
    path.toList <:+ parts.path ∧ parts.query = none ∧ parts.fragment = none

/-- The text between the scheme and the first slash after it. -/
def hostText (baseUrl : String) : List Char :=
  (((stripPrefix baseUrl "https://").or (stripPrefix baseUrl "http://")).getD "").toList.takeWhile
    (· != '/')

/-- Nothing in the text ends a path. -/
structure WithoutQuery (text : String) : Prop where
  noQuery : '?' ∉ text.toList
  noFragment : '#' ∉ text.toList

/-- A base URL without query and fragment that names a host. -/
structure PlainBase (baseUrl : String) : Prop extends WithoutQuery baseUrl where
  namesHost : Uri.hostOf (hostText baseUrl) ≠ []

theorem withoutQuery_iff {text : String} :
    WithoutQuery text ↔ ∀ c ∈ text.toList, Uri.endsPath c = false := by
  constructor
  · intro h c hc
    have hq : c ≠ '?' := fun he => h.noQuery (he ▸ hc)
    have hf : c ≠ '#' := fun he => h.noFragment (he ▸ hc)
    simp [Uri.endsPath, hq, hf]
  · intro h
    exact ⟨fun hc => absurd (h _ hc) (by decide), fun hc => absurd (h _ hc) (by decide)⟩

/-- A path appended to a text goes on after the text's first segment. -/
theorem append_path (rest path : List Char) :
    ∃ t, rest ++ '/' :: path = rest.takeWhile (· != '/') ++ '/' :: t ∧ '/' :: path <:+ '/' :: t := by
  obtain ⟨-, h | ⟨u, h⟩⟩ := takeWhile_ne_eq_iff.mp (rfl : rest.takeWhile (· != '/') = _)
  · rw [← h]
    exact ⟨path, rfl, List.suffix_refl _⟩
  · refine ⟨u ++ '/' :: path, ?_, ?_⟩
    · conv_lhs => rw [h]
      rw [List.append_assoc]
      rfl
    · exact (List.suffix_append u _).trans (List.suffix_cons _ _)

theorem false_of_all {p : Char → Bool} {l : List Char} (h : l.all (!p ·) = true) :
    ∀ c ∈ l, p c = false := by
  intro c hc
  simpa using List.all_eq_true.mp h c hc

/-- A base URL is split at its scheme, whatever follows. -/
theorem split_base {v rest : String} (h : v = "https://" ++ rest ∨ v = "http://" ++ rest)
    (path : String) :
    ∃ scheme, (scheme = "http".toList ∨ scheme = "https".toList) ∧
      Uri.split (v ++ path).toList = some (Uri.splitRest scheme (rest.toList ++ path.toList)) := by
  have hsplit : ∀ scheme : String, scheme.toList ≠ [] →
      (∀ c ∈ scheme.toList, Uri.endsScheme c = false) →
      Uri.split (scheme.toList ++ ':' :: '/' :: '/' :: (rest.toList ++ path.toList)) =
        some (Uri.splitRest scheme.toList (rest.toList ++ path.toList)) :=
    fun scheme hne hs => Uri.split_append hne hs _
  obtain rfl | rfl := h
  · refine ⟨_, .inr rfl, ?_⟩
    rw [← hsplit "https" (by decide) (false_of_all (by decide)), String.toList_append, String.toList_append]
    rfl
  · refine ⟨_, .inl rfl, ?_⟩
    rw [← hsplit "http" (by decide) (false_of_all (by decide)), String.toList_append, String.toList_append]
    rfl

/-- The first segment is not changed by slashes at the end. -/
theorem hostText_append_slashes {v rest : String} (n : ℕ)
    (h : v = "https://" ++ rest ∨ v = "http://" ++ rest) :
    hostText (v ++ slashes n) = rest.toList.takeWhile (· != '/') := by
  have hscheme : v ++ slashes n = "https://" ++ (rest ++ slashes n) ∨
      v ++ slashes n = "http://" ++ (rest ++ slashes n) := by
    rw [← String.append_assoc, ← String.append_assoc]
    exact h.imp (congrArg (· ++ slashes n)) (congrArg (· ++ slashes n))
  unfold hostText
  rw [stripPrefix_scheme hscheme, Option.getD_some, String.toList_append, toList_slashes,
    List.takeWhile_append]
  split
  · rename_i hlen
    have hall : rest.toList.takeWhile (· != '/') = rest.toList :=
      (List.takeWhile_prefix _).eq_of_length hlen
    have hnone : (List.replicate n '/').takeWhile (· != '/') = [] := by
      cases n <;> rfl
    rw [hnone, List.append_nil, hall]
  · rfl

theorem withoutQuery_append_slashes {v : String} (n : ℕ) :
    WithoutQuery (v ++ slashes n) ↔ WithoutQuery v := by
  rw [withoutQuery_iff, withoutQuery_iff, String.toList_append, toList_slashes]
  constructor
  · intro h c hc
    exact h c (List.mem_append_left _ hc)
  · intro h c hc
    obtain hc | hc := List.mem_append.mp hc
    · exact h c hc
    · obtain ⟨-, rfl⟩ := List.mem_replicate.mp hc
      rfl

/-- A scheme does not end a path. -/
theorem withoutQuery_base {v rest : String} (h : v = "https://" ++ rest ∨ v = "http://" ++ rest) :
    WithoutQuery v ↔ ∀ c ∈ rest.toList, Uri.endsPath c = false := by
  have hscheme : ∀ scheme : String, (∀ c ∈ scheme.toList, Uri.endsPath c = false) →
      (WithoutQuery (scheme ++ rest) ↔ ∀ c ∈ rest.toList, Uri.endsPath c = false) := by
    intro scheme hnone
    rw [withoutQuery_iff, String.toList_append]
    constructor
    · intro hall c hc
      exact hall c (List.mem_append_right _ hc)
    · intro hall c hc
      obtain hc | hc := List.mem_append.mp hc
      · exact hnone c hc
      · exact hall c hc
  obtain rfl | rfl := h
  · exact hscheme _ (false_of_all (by decide))
  · exact hscheme _ (false_of_all (by decide))

/-- The generic syntax finds the host and the path of a joined URL exactly when nothing
before the end of the path ends it and the first segment names a host. -/
theorem addressesEndpoint_append_iff {u v path : String} (h : normalizeBaseUrl u = .ok v)
    (hpath : startsWith path "/" = true) :
    AddressesEndpoint (v ++ path) path ↔ PlainBase u ∧ WithoutQuery path := by
  obtain ⟨⟨n, hu⟩, hnorm⟩ := normalizeBaseUrl_eq_ok_iff.mp h
  obtain ⟨-, rest, hscheme, -, -⟩ := normalized_iff.mp hnorm
  obtain ⟨scheme, hs, hsplit⟩ := split_base hscheme path
  obtain ⟨p, hp⟩ := startsWith_iff.mp hpath
  obtain ⟨t, hjoin, hsuffix⟩ := append_path rest.toList p
  have hlist : rest.toList ++ path.toList = rest.toList.takeWhile (· != '/') ++ '/' :: t := by
    rw [← hjoin, ← hp]
    rfl
  have hslash : '/' ∉ rest.toList.takeWhile (· != '/') := notMem_takeWhile_ne _ _
  have hhost : hostText u = rest.toList.takeWhile (· != '/') := by
    rw [hu, hostText_append_slashes n hscheme]
  have hquery : WithoutQuery u ↔ ∀ c ∈ rest.toList, Uri.endsPath c = false := by
    rw [hu, withoutQuery_append_slashes, withoutQuery_base hscheme]
  have hboth : (WithoutQuery u ∧ WithoutQuery path) ↔
      ∀ c ∈ rest.toList ++ path.toList, Uri.endsPath c = false := by
    rw [hquery, withoutQuery_iff]
    simp only [List.mem_append, or_imp, forall_and]
  constructor
  · rintro ⟨parts, hparts, -, hne, -, hnone⟩
    obtain rfl := Option.some.inj (hsplit.symm.trans hparts)
    have hall := (Uri.noTail_iff _ _).mp hnone
    obtain ⟨hbase, hpathq⟩ := hboth.mpr hall
    rw [hlist] at hall
    rw [Uri.Parts.host, hlist, Uri.splitRest_path _ hslash hall, ← hhost] at hne
    exact ⟨⟨hbase, hne⟩, hpathq⟩
  · rintro ⟨hplain, hpathq⟩
    have hall := hboth.mp ⟨hplain.toWithoutQuery, hpathq⟩
    refine ⟨_, hsplit, ?_⟩
    rw [hlist] at hall ⊢
    rw [Uri.splitRest_path _ hslash hall, ← hhost]
    refine ⟨hs, hplain.namesHost, ?_, rfl, rfl⟩
    rw [← hp]
    exact hsuffix

section client
variable {build : Duration → Except ReqwestError Unit} {apiKey apiSecret : String}
  {config : Config} {c : MpcClient}

/-- **An accepted base URL sends a path to the endpoint it names exactly when neither has a
`?` or `#` and the base URL names a host.** -/
theorem addressesEndpoint_iff (h : MpcClient.new build apiKey apiSecret config = .ok c) :
    (∀ path, startsWith path "/" = true →
      (AddressesEndpoint (c.url path) path ↔ PlainBase config.baseUrl ∧ WithoutQuery path)) ∧
    (AddressesEndpoint c.tokenManager.authRequest.url authPath ↔ PlainBase config.baseUrl) := by
  obtain ⟨hbase, hauth⟩ := MpcClient.new_eq_ok h
  refine ⟨fun path hpath => addressesEndpoint_append_iff hbase hpath, ?_⟩
  have hurl : c.tokenManager.authRequest.url = c.config.baseUrl ++ authPath := by
    rw [← hauth]
    rfl
  rw [hurl, addressesEndpoint_append_iff hbase (by decide)]
  exact and_iff_left ⟨by decide, by decide⟩

end client

/-- A client with HTTP clients that can be built. -/
def clientFor (baseUrl : String) : Except Error MpcClient :=
  MpcClient.new (fun _ => .ok ()) "key" "secret" (Config.new baseUrl)

theorem addressesEndpoint_port : ∃ c, clientFor "https://user@gateway.example:8443/v2/" = .ok c ∧
    AddressesEndpoint (c.url "/api/v1/wallets") "/api/v1/wallets" :=
  ⟨_, rfl, ((addressesEndpoint_iff (show MpcClient.new (fun _ => .ok ()) "key" "secret"
    (Config.new "https://user@gateway.example:8443/v2/") = .ok _ from rfl)).1 _ (by decide)).mpr
    ⟨⟨⟨by decide, by decide⟩, by decide⟩, by decide, by decide⟩⟩

/-- A query in the base URL takes in the path that is appended. -/
theorem not_addressesEndpoint_query : ∃ c, clientFor "https://gateway.example?tenant=1" = .ok c ∧
    ¬ AddressesEndpoint c.tokenManager.authRequest.url authPath := by
  refine ⟨_, rfl, fun h => ?_⟩
  have hbase : normalizeBaseUrl "https://gateway.example?tenant=1" =
      .ok "https://gateway.example?tenant=1" := by decide
  have hplain := ((addressesEndpoint_append_iff hbase (by decide)).mp h).1
  exact absurd hplain.noQuery (by decide)

end ParatroSdk
