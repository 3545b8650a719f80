import ParatroSdk.Send
import ParatroSdk.Lib.Url

/-! # Resources by id

`get_transaction`, `x402_settle_status`, `get_wallet`, `get_account` and `get_asset` put the
id into the path of a GET request as it is.  After the URL parser has read the request's URL
the id is one segment of its own, at the end of the endpoint's path, exactly when the base
URL names a host and the id is plain: it holds no slash or backslash, no `?` or `#`, no tab
or newline and no percent escape, and does not end in a space or a control character
(`addresses_iff`).  Any other id is read as something else; `../accounts/acc-1` in place of
a wallet id reads an account (`not_addresses_account`). -/

namespace ParatroSdk

open Text Interaction SharedCell Sdk Url

def transactionsPath : String := "/api/v1/transactions"

namespace MpcClient

variable {R : Type} (p : Platform) (fromSlice : FromSlice R) (c : MpcClient)

def getTransaction (txId : String) : Sdk R := c.get p fromSlice (transactionsPath ++ "/" ++ txId)

def x402SettleStatus (txId : String) : Sdk R := c.get p fromSlice ("/api/v1/x402/settle/" ++ txId)

def getWallet (walletId : String) : Sdk R := c.get p fromSlice ("/api/v1/wallets/" ++ walletId)

def getAccount (accountId : String) : Sdk R := c.get p fromSlice ("/api/v1/accounts/" ++ accountId)

def getAsset (assetId : String) : Sdk R := c.get p fromSlice ("/api/v1/assets/" ++ assetId)

end MpcClient

/-! ### The endpoints as one family -/

inductive Endpoint where
  | transactions
  | settlements
  | wallets
  | accounts
  | assets
deriving DecidableEq

namespace Endpoint

/-- The path of the endpoint, without the slashes around it. -/
def path : Endpoint → String
  | .transactions => "api/v1/transactions"
  | .settlements => "api/v1/x402/settle"
  | .wallets => "api/v1/wallets"
  | .accounts => "api/v1/accounts"
  | .assets => "api/v1/assets"

/-- The fixed segments of the endpoint. -/
def segments : Endpoint → List Bytes
  | .transactions => ["api", "v1", "transactions"].map utf8
  | .settlements => ["api", "v1", "x402", "settle"].map utf8
  | .wallets => ["api", "v1", "wallets"].map utf8
  | .accounts => ["api", "v1", "accounts"].map utf8
  | .assets => ["api", "v1", "assets"].map utf8

variable {R : Type} (p : Platform) (fromSlice : FromSlice R) (c : MpcClient)

/-- The SDK call that reads a resource of the endpoint. -/
def fetch (endpoint : Endpoint) (id : String) : Sdk R :=
  match endpoint with
  | .transactions => c.getTransaction p fromSlice id
  | .settlements => c.x402SettleStatus p fromSlice id
  | .wallets => c.getWallet p fromSlice id
  | .accounts => c.getAccount p fromSlice id
  | .assets => c.getAsset p fromSlice id

theorem fetch_eq (endpoint : Endpoint) (id : String) :
    endpoint.fetch p fromSlice c id = c.get p fromSlice ("/" ++ endpoint.path ++ "/" ++ id) := by
  cases endpoint <;> rfl

/-- The URL of the request for a resource. -/
def url (endpoint : Endpoint) (baseUrl id : String) : String :=
  baseUrl ++ ("/" ++ endpoint.path ++ "/" ++ id)

end Endpoint

section requests
variable {R : Type} {p : Platform} {fromSlice : FromSlice R} {c : MpcClient}
  {build : String → Request} {es : SdkTrace}

/-- Every attempt of a call is a request it builds. -/
theorem SendTrace.apiAttempts_build {r : Option (Except Error (Reply R))}
    (h : SendTrace p fromSlice c build es r) :
    ∀ x ∈ apiAttempts es, ∃ token, x.1.request = build token := by
  cases h with
  | noToken h₁ => simp [apiAttempts_tokenCall (TokenManager.getToken_trace h₁)]
  | tokenPanic h₁ => simp [apiAttempts_tokenCall (TokenManager.getToken_trace h₁)]
  | once h₁ hfinal => simp [apiAttempts_tokenCall (TokenManager.getToken_trace h₁)]
  | noRefresh h₁ hexp h₂ | refreshPanic h₁ hexp h₂ =>
      simp [apiAttempts_tokenCall (TokenManager.getToken_trace h₁),
        apiAttempts_tokenCall (TokenManager.refresh_trace h₂)]
  | twice h₁ hexp h₂ =>
      simp [apiAttempts_tokenCall (TokenManager.getToken_trace h₁),
        apiAttempts_tokenCall (TokenManager.refresh_trace h₂)]

/-- The request that a call builds is the only one it attempts. -/
theorem apiAttempts_of_build {α : Type} {call : MpcClient.ApiCall R α} {r : Option (Except Error α)}
    (hb : call.build c = .ok build) (h : Program.Trace (call.run p fromSlice c).run es r) :
    ∀ x ∈ apiAttempts es, ∃ token, x.1.request = build token := by
  obtain ⟨e, hb', -, -⟩ | ⟨build', a, hb', hsend, -⟩ := MpcClient.ApiCall.trace h
  · cases hb.symm.trans hb'
  · cases hb.symm.trans hb'
    exact (send_trace hsend).apiAttempts_build

theorem apiAttempts_get {path : String} {r : Option (Except Error R)}
    (h : Program.Trace (c.get p fromSlice path).run es r) :
    ∀ x ∈ apiAttempts es, ∃ token, x.1.request = c.getRequest path [] token :=
  apiAttempts_of_build (show (MpcClient.ApiCall.get path : MpcClient.ApiCall R R).build c = _ from rfl) h

/-- With a fresh token in the cache the request that a call builds is attempted. -/
theorem exists_apiAttempt_of_build (p : Platform) (fromSlice : FromSlice R) (c : MpcClient) {α : Type}
    {call : MpcClient.ApiCall R α} (hb : call.build c = .ok build) :
    ∃ es r, Program.Trace (call.run p fromSlice c).run es r ∧
      ∃ x ∈ apiAttempts es, ∃ token, x.1.request = build token := by
  let cached : Option TokenState := some ⟨"token", 1⟩
  let reply : HttpReply := .error ⟨"connection refused"⟩
  let es : SdkTrace := [⟨.acquire .read, ()⟩, ⟨.load, cached⟩, ⟨.clock, (0 : ℕ)⟩, ⟨.release, ()⟩]
  have htoken : Program.Trace (c.tokenManager.getToken p).run es (some (.ok "token")) := by
    rw [TokenManager.getToken_run]
    refine Program.trace_ask_iff.mpr ⟨_, _, rfl, ?_⟩
    refine Program.trace_ask_iff.mpr ⟨_, _, rfl, ?_⟩
    refine Program.trace_ask_iff.mpr ⟨_, _, rfl, ?_⟩
    refine Program.trace_ask_iff.mpr ⟨_, _, rfl, ?_⟩
    exact Program.trace_ret_iff.mpr ⟨rfl, rfl⟩
  have hsend : Program.Trace (c.send p fromSlice build).run
      (es ++ [⟨.request ⟨.api, build "token"⟩, reply⟩])
      (some (.error (.http ⟨"connection refused"⟩))) := by
    rw [send_run]
    refine Program.trace_bind_iff.mpr (.inl ⟨_, _, _, htoken, ?_, rfl⟩)
    refine Program.trace_ask_iff.mpr ⟨_, _, rfl, ?_⟩
    exact Program.trace_ret_iff.mpr ⟨rfl, rfl⟩
  have hrun := MpcClient.ApiCall.run_eq p fromSlice c call
  rw [hb] at hrun
  refine ⟨es ++ [⟨.request ⟨.api, build "token"⟩, reply⟩] ++ [],
    some (.error (.http ⟨"connection refused"⟩)), ?_,
    (⟨.api, build "token"⟩, reply), ?_, "token", rfl⟩
  · rw [hrun]
    refine Program.trace_bind_iff.mpr (.inl ⟨_, _, [], hsend, ?_, rfl⟩)
    exact Program.trace_ret_iff.mpr ⟨rfl, rfl⟩
  · rw [List.append_nil, apiAttempts_append]
    exact List.mem_append_right _ List.mem_cons_self

theorem exists_apiAttempt (p : Platform) (fromSlice : FromSlice R) (c : MpcClient) (path : String) :
    ∃ es r, Program.Trace (c.get p fromSlice path).run es r ∧
      ∃ x ∈ apiAttempts es, ∃ token, x.1.request = c.getRequest path [] token :=
  exists_apiAttempt_of_build p fromSlice c
    (show (MpcClient.ApiCall.get path : MpcClient.ApiCall R R).build c = _ from rfl)

end requests

/-! ### The resource a request addresses -/

/-- The base URL from the end of its scheme on. -/
def afterScheme (baseUrl : String) : Bytes := ((stripScheme (utf8 baseUrl)).map Prod.snd).getD []

/-- Something other than slashes and backslashes follows the scheme. -/
def NamesHost (baseUrl : String) : Prop := hostAndPath (afterScheme baseUrl) ≠ []

instance (baseUrl : String) : Decidable (NamesHost baseUrl) := inferInstanceAs (Decidable (_ ≠ _))

/-- The URL parser accepts the host of the base URL. -/
def AcceptsHost (rules : Rules) (baseUrl : String) : Prop :=
  rules.acceptsAuthority (authorityOf (afterScheme baseUrl)) = true

/-- The path of the URL is the one of the base, the endpoint's and one segment that decodes
to the id; it has no query. -/
def AtResource (rules : Rules) (baseUrl : String) (endpoint : Endpoint) (id : String)
    (url : Parsed) : Prop :=
  ∃ base seg, parse rules (utf8 (baseUrl ++ "/")) = some base ∧
    url.path = base.path.dropLast ++ endpoint.segments ++ [seg] ∧
      percentDecode seg = utf8 id ∧ url.query = none

/-- A GET request whose URL, if the parser accepts it, is at the resource. -/
def Addresses (rules : Rules) (baseUrl : String) (endpoint : Endpoint) (id : String)
    (request : Request) : Prop :=
  request.method = .get ∧ request.query = [] ∧
    ∀ url, parse rules (utf8 request.url) = some url → AtResource rules baseUrl endpoint id url

/-- Every request that a call for the id attempts addresses its resource. -/
def AlwaysAddresses {R : Type} (rules : Rules) (p : Platform) (fromSlice : FromSlice R)
    (c : MpcClient) (endpoint : Endpoint) (id : String) : Prop :=
  ∀ es r, Program.Trace (endpoint.fetch p fromSlice c id).run es r →
    ∀ x ∈ apiAttempts es, Addresses rules c.config.baseUrl endpoint id x.1.request

namespace Endpoint

theorem path_spec (endpoint : Endpoint) :
    (utf8 endpoint.path).splitOnP isSlash = endpoint.segments ∧
      (∀ seg ∈ endpoint.segments, ∀ b ∈ seg, isAlphanumeric b = true) ∧
      ∀ b ∈ utf8 endpoint.path, isTabOrNewline b = false ∧ endsPath b = false := by
  cases endpoint <;> decide +kernel

/-- Every endpoint begins with the segment that a base without a host takes for its host. -/
theorem parseRest_path (rules : Rules) (scheme : Scheme) (endpoint : Endpoint) (t : Bytes)
    (h : rules.acceptsAuthority (utf8 "api") = true) :
    ∃ url, parseRest rules scheme (utf8 endpoint.path ++ slash :: t) = some url := by
  have hauth : ((utf8 endpoint.path ++ slash :: t).dropWhile isSlash).takeWhile inAuthority =
      utf8 "api" := by
    cases endpoint <;> rfl
  unfold parseRest
  dsimp only
  rw [hauth, h]
  exact ⟨_, rfl⟩

end Endpoint

section url
variable {rules : Rules} {baseUrl : String} {scheme : Scheme} {rest : Bytes}

theorem utf8_url (h : utf8 baseUrl = scheme.text ++ rest) (endpoint : Endpoint) (id : String) :
    utf8 (endpoint.url baseUrl id) =
      scheme.text ++ rest ++ slash :: (utf8 endpoint.path ++ slash :: utf8 id) := by
  have hslash : utf8 "/" = [slash] := by decide
  unfold Endpoint.url
  rw [utf8_append, utf8_append, utf8_append, utf8_append, h, hslash]
  simp

theorem utf8_directory (h : utf8 baseUrl = scheme.text ++ rest) :
    utf8 (baseUrl ++ "/") = scheme.text ++ rest ++ slash :: [] := by
  have hslash : utf8 "/" = [slash] := by decide
  rw [utf8_append, h, hslash]

theorem afterScheme_eq (h : utf8 baseUrl = scheme.text ++ rest) : afterScheme baseUrl = rest := by
  unfold afterScheme
  rw [h, stripScheme_text]
  rfl

/-- The parsed URL of a resource, for a base that names an accepted host. -/
theorem parse_url (h : utf8 baseUrl = scheme.text ++ rest) (hend : ∀ b ∈ rest, endsPath b = false)
    (hhost : NamesHost baseUrl) (haccepts : AcceptsHost rules baseUrl) (endpoint : Endpoint)
    (id : String) :
    ∃ url base, parse rules (utf8 (endpoint.url baseUrl id)) = some url ∧
      parse rules (utf8 (baseUrl ++ "/")) = some base ∧
      url.path = resolve rules.pathSet (base.path.dropLast ++ endpoint.segments)
        ((pathPart (utf8 id)).splitOnP isSlash) ∧
      url.query = query (tailPart (utf8 id)) := by
  unfold NamesHost AcceptsHost at *
  rw [afterScheme_eq h] at hhost haccepts
  obtain ⟨hsplit, halnum, hpath⟩ := endpoint.path_spec
  obtain ⟨hp, ht⟩ := pathPart_append (fun b hb => (hpath b hb).1) (fun b hb => (hpath b hb).2) (utf8 id)
  have hbase : parse rules (scheme.text ++ rest ++ slash :: []) = _ := parse_append hend hhost []
  have hurl : parse rules (scheme.text ++ rest ++ slash :: (utf8 endpoint.path ++ slash :: utf8 id)) =
    _ := parse_append hend hhost _
  rw [if_pos haccepts] at hbase hurl
  refine ⟨_, _, (congrArg _ (utf8_url h endpoint id)).trans hurl,
    (congrArg _ (utf8_directory h)).trans hbase, ?_, ?_⟩
  · dsimp only
    rw [hp, List.splitOnP_append_cons _ _ rfl, hsplit,
      resolve_append _ (List.splitOnP_ne_nil _ _), foldl_push_alphanumeric halnum]
    show _ = resolve _ ((resolve _ _ [[]]).dropLast ++ _) _
    rw [resolve, if_neg (by decide), push_of_not_isDots rfl, List.dropLast_concat]
  · dsimp only
    rw [ht]

/-- A base whose host the parser refuses has no URL of a resource. -/
theorem parse_url_refused (h : utf8 baseUrl = scheme.text ++ rest)
    (hend : ∀ b ∈ rest, endsPath b = false) (hhost : NamesHost baseUrl)
    (hrefuses : ¬ AcceptsHost rules baseUrl) (endpoint : Endpoint) (id : String) :
    parse rules (utf8 (endpoint.url baseUrl id)) = none := by
  unfold NamesHost AcceptsHost at *
  rw [afterScheme_eq h] at hhost hrefuses
  rw [utf8_url h, parse_append hend hhost, if_neg hrefuses]

/-- With a host that the parser accepts, the URL is at the resource exactly when the id is
plain. -/
theorem atResource_iff_plain (h : utf8 baseUrl = scheme.text ++ rest)
    (hend : ∀ b ∈ rest, endsPath b = false) (hhost : NamesHost baseUrl)
    (haccepts : AcceptsHost rules baseUrl) (endpoint : Endpoint) {id : String} (hne : id ≠ "")
    (h₁ : id ≠ ".") (h₂ : id ≠ "..") :
    (∀ url, parse rules (utf8 (endpoint.url baseUrl id)) = some url →
      AtResource rules baseUrl endpoint id url) ↔ Plain (utf8 id) := by
  obtain ⟨url, base, hurl, hbase, hpath, hquery⟩ :=
    parse_url h hend hhost haccepts endpoint id
  rw [← addsItself_iff rules.pathSet (fun he => hne (utf8_injective he))
    (fun he => h₁ (utf8_injective he)) (fun he => h₂ (utf8_injective he))
    (base.path.dropLast ++ endpoint.segments), ← hpath, ← hquery]
  constructor
  · intro hall
    obtain ⟨base', seg, hbase', hpath', hdec, hq⟩ := hall url hurl
    cases hbase.symm.trans hbase'
    exact ⟨seg, hpath', hdec, hq⟩
  · rintro ⟨seg, hpath', hdec, hq⟩ url' hurl'
    cases hurl.symm.trans hurl'
    exact ⟨base, seg, hbase, hpath', hdec, hq⟩

/-- Without a host in the base the URL is never at the resource. -/
theorem not_atResource_of_noHost (h : utf8 baseUrl = scheme.text ++ rest)
    (hhost : ¬ NamesHost baseUrl) (hapi : rules.acceptsAuthority (utf8 "api") = true)
    (endpoint : Endpoint) (id : String) :
    ∃ url, parse rules (utf8 (endpoint.url baseUrl id)) = some url ∧
      ¬ AtResource rules baseUrl endpoint id url := by
  unfold NamesHost at hhost
  rw [afterScheme_eq h, not_not] at hhost
  have hpath := endpoint.path_spec.2.2
  obtain ⟨url, hurl⟩ := endpoint.parseRest_path rules scheme (cleanEnd (utf8 id)) hapi
  refine ⟨url, ?_, ?_⟩
  · rw [utf8_url h, parse_append_noHost hhost, cleanEnd_append fun b hb => (hpath b hb).1]
    exact hurl
  · rintro ⟨base, seg, hbase, -⟩
    rw [utf8_directory h, parse_append_noHost hhost] at hbase
    cases hbase

end url

section accepted
variable {R : Type} {p : Platform} {fromSlice : FromSlice R} {c : MpcClient} {rules : Rules}
  {u baseUrl : String}

theorem scheme_of_accepted (h : normalizeBaseUrl u = .ok baseUrl) :
    ∃ (scheme : Scheme) (rest : Bytes), utf8 baseUrl = scheme.text ++ rest := by
  obtain ⟨-, rest, rfl | rfl, -⟩ := normalizeBaseUrl_eq_ok h
  · have hs : utf8 "https://" = Scheme.https.text ++ utf8 "//" := by decide
    exact ⟨.https, utf8 "//" ++ utf8 rest, by rw [utf8_append, hs, List.append_assoc]⟩
  · have hs : utf8 "http://" = Scheme.http.text ++ utf8 "//" := by decide
    exact ⟨.http, utf8 "//" ++ utf8 rest, by rw [utf8_append, hs, List.append_assoc]⟩

/-- A URL without `?` and `#` has neither of their bytes. -/
theorem endsPath_eq_false (hquery : '?' ∉ baseUrl.toList) (hfragment : '#' ∉ baseUrl.toList) :
    ∀ b ∈ utf8 baseUrl, endsPath b = false := by
  intro b hb
  rw [Bool.eq_false_iff]
  intro h
  obtain h | h := Bool.or_eq_true _ _ |>.mp h
  · obtain rfl := beq_iff_eq.mp h
    exact hquery (mem_of_ascii_mem_utf8 (c := '?') (by decide) hb)
  · obtain rfl := beq_iff_eq.mp h
    exact hfragment (mem_of_ascii_mem_utf8 (c := '#') (by decide) hb)

/-- The requests of a call address the resource if their one URL does. -/
theorem addresses_iff_url (endpoint : Endpoint) (id : String) :
    AlwaysAddresses rules p fromSlice c endpoint id ↔
      ∀ url, parse rules (utf8 (endpoint.url c.config.baseUrl id)) = some url →
        AtResource rules c.config.baseUrl endpoint id url := by
  unfold AlwaysAddresses
  rw [endpoint.fetch_eq]
  constructor
  · intro hall
    obtain ⟨es, r, ht, x, hx, token, hreq⟩ := exists_apiAttempt p fromSlice c
      ("/" ++ endpoint.path ++ "/" ++ id)
    have haddr := hall es r ht x hx
    rw [hreq] at haddr
    exact haddr.2.2
  · intro hurl es r ht x hx
    obtain ⟨token, hreq⟩ := apiAttempts_get ht x hx
    rw [hreq]
    exact ⟨rfl, rfl, hurl⟩

/-- **A request for an id addresses its own resource exactly when the base URL names a host
and, unless the URL parser refuses that host, the id is plain.** -/
theorem addresses_iff (hbase : normalizeBaseUrl u = .ok c.config.baseUrl)
    (hquery : '?' ∉ c.config.baseUrl.toList) (hfragment : '#' ∉ c.config.baseUrl.toList)
    (hapi : rules.acceptsAuthority (utf8 "api") = true) (endpoint : Endpoint) {id : String}
    (hne : id ≠ "") (h₁ : id ≠ ".") (h₂ : id ≠ "..") :
    AlwaysAddresses rules p fromSlice c endpoint id ↔
      NamesHost c.config.baseUrl ∧ (AcceptsHost rules c.config.baseUrl → Plain (utf8 id)) := by
  obtain ⟨scheme, rest, h⟩ := scheme_of_accepted hbase
  have hend : ∀ b ∈ rest, endsPath b = false := fun b hb =>
    endsPath_eq_false hquery hfragment b (h ▸ List.mem_append_right _ hb)
  rw [addresses_iff_url]
  by_cases hhost : NamesHost c.config.baseUrl
  · rw [and_iff_right hhost]
    by_cases haccepts : AcceptsHost rules c.config.baseUrl
    · rw [atResource_iff_plain h hend hhost haccepts endpoint hne h₁ h₂]
      exact ⟨fun hp _ => hp, fun hp => hp haccepts⟩
    · refine iff_of_true (fun url hurl => ?_) fun hacc => absurd hacc haccepts
      rw [parse_url_refused h hend hhost haccepts] at hurl
      cases hurl
  · refine iff_of_false (fun hall => ?_) fun hc => hhost hc.1
    obtain ⟨url, hurl, hnot⟩ := not_atResource_of_noHost h hhost hapi endpoint id
    exact hnot (hall url hurl)

/-- Requests for two ids at one URL path are requests for one id. -/
theorem id_eq_of_path_eq {endpoint : Endpoint} {id id' : String} {url url' : Parsed}
    (h : AtResource rules baseUrl endpoint id url) (h' : AtResource rules baseUrl endpoint id' url')
    (hpath : url.path = url'.path) : id = id' := by
  obtain ⟨base, seg, hb, hp, hd, -⟩ := h
  obtain ⟨base', seg', hb', hp', hd', -⟩ := h'
  cases hb.symm.trans hb'
  rw [hp, hp'] at hpath
  have hseg : seg = seg' := List.singleton_inj.mp (List.append_cancel_left hpath)
  exact utf8_injective (by rw [← hd, ← hd', hseg])

end accepted

/-! ### A test parser -/

/-- The path percent-encode set. -/
def pathSet : EncodeSet where
  contains b := b ≤ 0x20 || 0x7F ≤ b || b ∈ utf8 "\"#<>?^\x60\x7b\x7d"
  percent := by decide
  alphanumeric := by
    have hall : ∀ n < 256, isAlphanumeric (UInt8.ofNat n) = true →
        (UInt8.ofNat n ≤ 0x20 || 0x7F ≤ UInt8.ofNat n ||
          UInt8.ofNat n ∈ utf8 "\"#<>?^\x60\x7b\x7d") = false := by decide +kernel
    intro b
    have hb := hall b.toNat b.toNat_lt
    rwa [UInt8.ofNat_toNat] at hb

def testRules : Rules where
  acceptsAuthority a := a = utf8 "gateway.example" || a = utf8 "api"
  pathSet := pathSet

theorem addresses_wallet :
    AlwaysAddresses testRules testPlatform .ok testClient .wallets "wlt_1" := by
  refine (addresses_iff (u := "https://gateway.example/") (by decide +kernel) (by decide) (by decide)
    (by decide) .wallets (by decide) (by decide) (by decide)).mpr ⟨by decide, fun _ => ?_⟩
  refine ⟨by decide +kernel, by decide, fun b hb => ?_⟩
  cases hb
  decide

/-- The wallet id `../accounts/acc-1` reads an account. -/
theorem not_addresses_account :
    ¬ ∀ id : String, id ≠ "" → id ≠ "." → id ≠ ".." →
      AlwaysAddresses testRules testPlatform .ok testClient .wallets id := by
  intro h
  have hall := (addresses_iff_url .wallets "../accounts/acc-1").mp
    (h "../accounts/acc-1" (by decide) (by decide) (by decide))
  have hurl : (parse testRules (utf8 (Endpoint.wallets.url "https://gateway.example"
      "../accounts/acc-1"))).map Parsed.path = some (["api", "v1", "accounts", "acc-1"].map utf8) := by
    decide +kernel
  have hbase : (parse testRules (utf8 "https://gateway.example/")).map Parsed.path = some [[]] := by
    decide +kernel
  obtain ⟨url, hparse, hpath⟩ := Option.map_eq_some_iff.mp hurl
  obtain ⟨base, seg, hb, hp, -⟩ := hall url hparse
  have hroot : base.path = [[]] := by
    have hb' := congrArg (Option.map Parsed.path) hb
    exact Option.some.inj (hb'.symm.trans hbase)
  rw [hpath, hroot] at hp
  have hthird : some (utf8 "accounts") = some (utf8 "wallets") := congrArg (·[2]?) hp
  exact absurd hthird (by decide)

end ParatroSdk
