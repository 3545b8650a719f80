import ParatroSdk.Resources
import ParatroSdk.Lib.FormUrlencoded

/-! # Paginated lists

The five list calls put the filters that are set into the query of a GET request, in a fixed
order and under fixed names (`src/transaction.rs`, `src/wallet.rs`, `src/account.rs`,
`src/asset.rs`, `src/x402.rs`); the HTTP client appends them to the URL in the form encoding.

A gateway that splits the URL's path and parses its query reads back the call that was made,
with every filter as it was set, whatever characters it has (`readAs_iff`). -/

namespace ParatroSdk

open Text Interaction SharedCell Sdk Url Machine

/-- The fields that are set, in order. -/
def setParams (fields : List (String × Option String)) : List (String × String) :=
  fields.flatMap fun (name, value) => (value.map (name, ·)).toList

/-! ### The requests -/

/-- Query of `GET /api/v1/transactions`. -/
structure ListTransactionsRequest where
  walletId : Option String
  accountId : Option String
  chain : Option String
  page : Option Int32
  pageSize : Option Int32
deriving DecidableEq

def ListTransactionsRequest.fields (req : ListTransactionsRequest) :
    List (String × Option String) :=
  [("wallet_id", req.walletId), ("account_id", req.accountId), ("chain", req.chain),
    ("page", req.page.map toString), ("page_size", req.pageSize.map toString)]

/-- Request to list wallets. -/
structure ListWalletsRequest where
  page : Option Int32
  pageSize : Option Int32
deriving DecidableEq

def ListWalletsRequest.fields (req : ListWalletsRequest) : List (String × Option String) :=
  [("page", req.page.map toString), ("page_size", req.pageSize.map toString)]

/-- Request to list accounts. -/
structure ListAccountsRequest where
  walletId : Option String
  page : Option Int32
  pageSize : Option Int32
deriving DecidableEq

def ListAccountsRequest.fields (req : ListAccountsRequest) : List (String × Option String) :=
  [("wallet_id", req.walletId), ("page", req.page.map toString),
    ("page_size", req.pageSize.map toString)]

/-- Request to list assets. -/
structure ListAssetsRequest where
  accountId : Option String
  page : Option Int32
  pageSize : Option Int32
deriving DecidableEq

def ListAssetsRequest.fields (req : ListAssetsRequest) : List (String × Option String) :=
  [("account_id", req.accountId), ("page", req.page.map toString),
    ("page_size", req.pageSize.map toString)]

/-- Query of `GET /api/v1/x402/settlements`. -/
structure ListX402SettlementsRequest where
  status : Option String
  page : Option Int32
  pageSize : Option Int32
deriving DecidableEq

def ListX402SettlementsRequest.fields (req : ListX402SettlementsRequest) :
    List (String × Option String) :=
  [("status", req.status), ("page", req.page.map toString),
    ("page_size", req.pageSize.map toString)]

namespace MpcClient

variable {R : Type} (p : Platform) (fromSlice : FromSlice R) (c : MpcClient)

def listTransactions (req : ListTransactionsRequest) : Sdk R :=
  c.getWithQuery p fromSlice transactionsPath (setParams req.fields)

def listWallets (req : ListWalletsRequest) : Sdk R :=
  c.getWithQuery p fromSlice "/api/v1/wallets" (setParams req.fields)

def listAccounts (req : ListAccountsRequest) : Sdk R :=
  c.getWithQuery p fromSlice "/api/v1/accounts" (setParams req.fields)

def listAssets (req : ListAssetsRequest) : Sdk R :=
  c.getWithQuery p fromSlice "/api/v1/assets" (setParams req.fields)

def x402ListSettlements (req : ListX402SettlementsRequest) : Sdk R :=
  c.getWithQuery p fromSlice "/api/v1/x402/settlements" (setParams req.fields)

end MpcClient

/-! ### The paths of collections -/

/-- A path of letters and digits, without the slash before it. -/
structure PlainPath where
  text : String
  /-- The segments before the last one. -/
  directory : List Bytes
  last : Bytes
  split : (pathPart (utf8 text)).splitOnP isSlash = directory ++ [last]
  query : query (tailPart (utf8 text)) = none
  notDots : isDots last = false
  plain : ∀ seg ∈ directory ++ [last], ∀ b ∈ seg, isAlphanumeric b = true

def PlainPath.segments (path : PlainPath) : List Bytes := path.directory ++ [path.last]

/-- The segments are added to a path as they are. -/
theorem PlainPath.resolve_segments (set : EncodeSet) (path : PlainPath) (base : List Bytes) :
    resolve set base path.segments = base ++ path.segments := by
  have hlast := path.plain path.last (List.mem_append_right _ List.mem_cons_self)
  unfold segments
  rw [resolve_append _ (List.cons_ne_nil _ _), foldl_push_alphanumeric fun seg hseg =>
    path.plain seg (List.mem_append_left _ hseg), resolve,
    if_neg (by rw [path.notDots]; exact Bool.false_ne_true), push_of_not_isDots path.notDots,
    percentEncode_alphanumeric hlast, List.append_assoc]

/-- The URL of the path after a base that names an accepted host. -/
theorem PlainPath.parse_url {rules : Rules} {baseUrl : String} {scheme : Scheme} {rest : Bytes}
    (h : utf8 baseUrl = scheme.text ++ rest) (hend : ∀ b ∈ rest, endsPath b = false)
    (hhost : NamesHost baseUrl) (haccepts : AcceptsHost rules baseUrl) (path : PlainPath) :
    ∃ url base, parse rules (utf8 (baseUrl ++ ("/" ++ path.text))) = some url ∧
      parse rules (utf8 (baseUrl ++ "/")) = some base ∧
      url.path = base.path.dropLast ++ path.segments ∧ url.query = none := by
  unfold NamesHost AcceptsHost at *
  rw [afterScheme_eq h] at hhost haccepts
  have hslash : utf8 "/" = [slash] := by decide
  have hbase : parse rules (scheme.text ++ rest ++ slash :: []) = _ := parse_append hend hhost []
  have hurl : parse rules (scheme.text ++ rest ++ slash :: utf8 path.text) = _ :=
    parse_append hend hhost (utf8 path.text)
  have htext : utf8 (baseUrl ++ ("/" ++ path.text)) =
      scheme.text ++ rest ++ slash :: utf8 path.text := by
    rw [utf8_append, utf8_append, h, hslash, List.singleton_append]
  rw [if_pos haccepts] at hbase hurl
  refine ⟨_, _, (congrArg _ htext).trans hurl, (congrArg _ (utf8_directory h)).trans hbase, ?_,
    path.query⟩
  dsimp only
  rw [path.split]
  refine (path.resolve_segments _ _).trans ?_
  show _ = (resolve _ _ [[]]).dropLast ++ _
  rw [resolve, if_neg (by decide), push_of_not_isDots rfl, List.dropLast_concat]

/-- After a base URL that was accepted, a gateway behind it finds the segments of the path. -/
theorem PlainPath.parse_accepted {rules : Rules} {u baseUrl : String}
    (hbase : normalizeBaseUrl u = .ok baseUrl) (hquery : '?' ∉ baseUrl.toList)
    (hfragment : '#' ∉ baseUrl.toList) (hhost : NamesHost baseUrl)
    (haccepts : AcceptsHost rules baseUrl) (path : PlainPath) :
    ∃ url base, parse rules (utf8 (baseUrl ++ ("/" ++ path.text))) = some url ∧
      parse rules (utf8 (baseUrl ++ "/")) = some base ∧
      url.path.dropPrefix? base.path.dropLast = some path.segments ∧ url.query = none := by
  obtain ⟨scheme, rest, htext⟩ := scheme_of_accepted hbase
  have hend : ∀ b ∈ rest, endsPath b = false := fun b hb =>
    endsPath_eq_false hquery hfragment b (htext ▸ List.mem_append_right _ hb)
  obtain ⟨url, base, hurl, hroot, hpath, hnone⟩ := path.parse_url htext hend hhost haccepts
  refine ⟨url, base, hurl, hroot, ?_, hnone⟩
  rw [hpath, List.dropPrefix?_append_of_beq _ (beq_self_eq_true _)]

/-! ### The calls as one family -/

inductive ListEndpoint where
  | transactions
  | wallets
  | accounts
  | assets
  | settlements
deriving DecidableEq

namespace ListEndpoint

def path : ListEndpoint → PlainPath
  | .transactions => ⟨"api/v1/transactions", ["api", "v1"].map utf8, utf8 "transactions",
      by decide +kernel, by decide +kernel, by decide, by decide +kernel⟩
  | .wallets => ⟨"api/v1/wallets", ["api", "v1"].map utf8, utf8 "wallets",
      by decide +kernel, by decide +kernel, by decide, by decide +kernel⟩
  | .accounts => ⟨"api/v1/accounts", ["api", "v1"].map utf8, utf8 "accounts",
      by decide +kernel, by decide +kernel, by decide, by decide +kernel⟩
  | .assets => ⟨"api/v1/assets", ["api", "v1"].map utf8, utf8 "assets",
      by decide +kernel, by decide +kernel, by decide, by decide +kernel⟩
  | .settlements => ⟨"api/v1/x402/settlements", ["api", "v1", "x402"].map utf8,
      utf8 "settlements", by decide +kernel, by decide +kernel, by decide, by decide +kernel⟩

/-- The endpoint with the segments. -/
def ofSegments (segments : List Bytes) : Option ListEndpoint :=
  [transactions, wallets, accounts, assets, settlements].find? fun endpoint =>
    segments = endpoint.path.segments

theorem ofSegments_segments (endpoint : ListEndpoint) :
    ofSegments endpoint.path.segments = some endpoint := by
  cases endpoint <;> decide +kernel

end ListEndpoint

/-- A list call with its request. -/
inductive ListCall where
  | transactions (req : ListTransactionsRequest)
  | wallets (req : ListWalletsRequest)
  | accounts (req : ListAccountsRequest)
  | assets (req : ListAssetsRequest)
  | settlements (req : ListX402SettlementsRequest)
deriving DecidableEq

namespace ListCall

def endpoint : ListCall → ListEndpoint
  | .transactions _ => .transactions
  | .wallets _ => .wallets
  | .accounts _ => .accounts
  | .assets _ => .assets
  | .settlements _ => .settlements

def fields : ListCall → List (String × Option String)
  | .transactions req => req.fields
  | .wallets req => req.fields
  | .accounts req => req.fields
  | .assets req => req.fields
  | .settlements req => req.fields

variable {R : Type} (p : Platform) (fromSlice : FromSlice R) (c : MpcClient)

def run : ListCall → Sdk R
  | .transactions req => c.listTransactions p fromSlice req
  | .wallets req => c.listWallets p fromSlice req
  | .accounts req => c.listAccounts p fromSlice req
  | .assets req => c.listAssets p fromSlice req
  | .settlements req => c.x402ListSettlements p fromSlice req

/-- The ways into `send` that the calls take. -/
def apiCall (call : ListCall) : MpcClient.ApiCall R R :=
  .getWithQuery ("/" ++ call.endpoint.path.text) (setParams call.fields)

theorem run_eq (call : ListCall) : call.run p fromSlice c = call.apiCall.run p fromSlice c := by
  cases call <;> rfl

end ListCall

/-! ### What a gateway reads -/

/-- A number among the parameters: `none` when it is there and is not one. -/
def readNumber (params : List (String × String)) (name : String) : Option (Option Int32) :=
  match params.lookup name with
  | none => some none
  | some text => (parse32 text).map some

/-- The list call at an endpoint, from the parameters of the request. -/
def ListCall.ofParams (endpoint : ListEndpoint) (params : List (String × String)) :
    Option ListCall := do
  let page ← readNumber params "page"
  let pageSize ← readNumber params "page_size"
  return match endpoint with
    | .transactions => .transactions
        { walletId := params.lookup "wallet_id", accountId := params.lookup "account_id",
          chain := params.lookup "chain", page, pageSize }
    | .wallets => .wallets { page, pageSize }
    | .accounts => .accounts { walletId := params.lookup "wallet_id", page, pageSize }
    | .assets => .assets { accountId := params.lookup "account_id", page, pageSize }
    | .settlements => .settlements { status := params.lookup "status", page, pageSize }

def utf8Pair (param : String × String) : Bytes × Bytes := (utf8 param.1, utf8 param.2)

/-- What the HTTP client requests: the parsed URL with the parameters in its query. -/
def Request.target (rules : Rules) (request : Request) : Option Parsed :=
  (parse rules (utf8 request.url)).map (·.withPairs (request.query.map utf8Pair))

def readPair (pair : Bytes × Bytes) : Option (String × String) := do
  return (← fromUtf8 pair.1, ← fromUtf8 pair.2)

/-- A gateway behind `base` reads a request: the segments after those of the base are the
endpoint, and the query is parsed as a form. -/
def readTarget (base target : Parsed) : Option ListCall := do
  let segments ← target.path.dropPrefix? base.path.dropLast
  let endpoint ← ListEndpoint.ofSegments segments
  let params ← (Form.parse (target.query.getD [])).mapM readPair
  ListCall.ofParams endpoint params

/-! ### The parameters -/

section params
variable {fields : List (String × Option String)} {name : String}

theorem lookup_setParams_of_notMem (h : name ∉ fields.map Prod.fst) :
    (setParams fields).lookup name = none := by
  rw [List.lookup_eq_none_iff]
  intro param hparam
  obtain ⟨⟨key, value⟩, hfield, hin⟩ := List.mem_flatMap.mp hparam
  obtain ⟨text, -, rfl⟩ := Option.map_eq_some_iff.mp (Option.mem_toList.mp hin)
  have hne : name ≠ key := fun heq => h (heq ▸ List.mem_map_of_mem hfield)
  simpa using hne

/-- A field is found under its name as it was set. -/
theorem lookup_setParams (hnodup : (fields.map Prod.fst).Nodup) {value : Option String}
    (h : (name, value) ∈ fields) : (setParams fields).lookup name = value := by
  induction fields with
  | nil => cases h
  | cons field fields ih =>
      obtain ⟨key, first⟩ := field
      obtain ⟨hkey, hrest⟩ := List.nodup_cons.mp hnodup
      have hcons : setParams ((key, first) :: fields) =
          (first.map (key, ·)).toList ++ setParams fields := rfl
      rw [hcons, List.lookup_append]
      obtain heq | h := List.mem_cons.mp h
      · cases heq
        rw [lookup_setParams_of_notMem hkey]
        cases value <;> simp
      · have hmem : name ∈ fields.map Prod.fst := List.mem_map.mpr ⟨_, h, rfl⟩
        have hne : name ≠ key := fun heq => hkey (heq ▸ hmem)
        rw [ih hrest h]
        cases first <;> simp [hne]

theorem readNumber_of_lookup {params : List (String × String)} {number : Option Int32}
    (h : params.lookup name = number.map toString) : readNumber params name = some number := by
  unfold readNumber
  rw [h]
  cases number with
  | none => rfl
  | some i =>
      show (parse32 (toString i)).map some = _
      rw [parse32_toString]
      rfl

end params

namespace ListCall

theorem nodup_fields (call : ListCall) : (call.fields.map Prod.fst).Nodup := by
  cases call with
  | transactions req =>
      show ["wallet_id", "account_id", "chain", "page", "page_size"].Nodup
      decide
  | wallets req =>
      show ["page", "page_size"].Nodup
      decide
  | accounts req =>
      show ["wallet_id", "page", "page_size"].Nodup
      decide
  | assets req =>
      show ["account_id", "page", "page_size"].Nodup
      decide
  | settlements req =>
      show ["status", "page", "page_size"].Nodup
      decide

def page : ListCall → Option Int32
  | .transactions req => req.page
  | .wallets req => req.page
  | .accounts req => req.page
  | .assets req => req.page
  | .settlements req => req.page

def pageSize : ListCall → Option Int32
  | .transactions req => req.pageSize
  | .wallets req => req.pageSize
  | .accounts req => req.pageSize
  | .assets req => req.pageSize
  | .settlements req => req.pageSize

/-- Every list is read by pages. -/
theorem page_mem_fields (call : ListCall) :
    ("page", call.page.map toString) ∈ call.fields ∧
      ("page_size", call.pageSize.map toString) ∈ call.fields := by
  cases call <;>
    simp [fields, page, pageSize, ListTransactionsRequest.fields, ListWalletsRequest.fields,
      ListAccountsRequest.fields, ListAssetsRequest.fields, ListX402SettlementsRequest.fields]

/-- The parameters of a call determine it. -/
theorem ofParams_setParams (call : ListCall) :
    ofParams call.endpoint (setParams call.fields) = some call := by
  have htext {name : String} {value : Option String} (h : (name, value) ∈ call.fields) :=
    lookup_setParams call.nodup_fields h
  have hpage := readNumber_of_lookup (htext call.page_mem_fields.1)
  have hpageSize := readNumber_of_lookup (htext call.page_mem_fields.2)
  unfold ofParams
  rw [hpage, hpageSize]
  cases call with
  | transactions req =>
      have hwallet := htext (List.mem_cons_self : ("wallet_id", req.walletId) ∈ req.fields)
      have haccount := htext (by simp [fields, ListTransactionsRequest.fields] :
        ("account_id", req.accountId) ∈ fields (.transactions req))
      have hchain := htext (by simp [fields, ListTransactionsRequest.fields] :
        ("chain", req.chain) ∈ fields (.transactions req))
      simp only [endpoint, hwallet, haccount, hchain]
      rfl
  | wallets req => rfl
  | accounts req =>
      have hwallet := htext (List.mem_cons_self : ("wallet_id", req.walletId) ∈ req.fields)
      simp only [endpoint, hwallet]
      rfl
  | assets req =>
      have haccount := htext (List.mem_cons_self : ("account_id", req.accountId) ∈ req.fields)
      simp only [endpoint, haccount]
      rfl
  | settlements req =>
      have hstatus := htext (List.mem_cons_self : ("status", req.status) ∈ req.fields)
      simp only [endpoint, hstatus]
      rfl

end ListCall

/-- The bytes of the parameters are read back as texts. -/
theorem mapM_readPair (params : List (String × String)) :
    (params.map utf8Pair).mapM readPair = some params := by
  induction params with
  | nil => rfl
  | cons param params ih =>
      rw [List.map_cons, List.mapM_cons, ih]
      simp [readPair, utf8Pair, fromUtf8_utf8]

/-! ### The call that is read is the call that was made -/

section request
variable {R : Type} {p : Platform} {fromSlice : FromSlice R} {c : MpcClient} {rules : Rules}
  {u : String}

/-- The request of a list call is read back as the call. -/
theorem readTarget_getRequest (hbase : normalizeBaseUrl u = .ok c.config.baseUrl)
    (hquery : '?' ∉ c.config.baseUrl.toList) (hfragment : '#' ∉ c.config.baseUrl.toList)
    (hhost : NamesHost c.config.baseUrl) (haccepts : AcceptsHost rules c.config.baseUrl)
    (call : ListCall) :
    ∃ base, parse rules (utf8 (c.config.baseUrl ++ "/")) = some base ∧
      ∀ token, ∃ target, Request.target rules (c.getRequest ("/" ++ call.endpoint.path.text)
        (setParams call.fields) token) = some target ∧ readTarget base target = some call := by
  obtain ⟨url, base, hurl, hroot, hsegments, hnone⟩ :=
    call.endpoint.path.parse_accepted hbase hquery hfragment hhost haccepts
  refine ⟨base, hroot, fun token => ⟨url.withPairs ((setParams call.fields).map utf8Pair),
    congrArg (Option.map _) hurl, ?_⟩⟩
  have hparams : Form.parse ((url.withPairs ((setParams call.fields).map utf8Pair)).query.getD []) =
      (setParams call.fields).map utf8Pair := by
    rw [Parsed.parse_withPairs, hnone]
    rfl
  unfold readTarget
  rw [hparams, mapM_readPair]
  show (url.path.dropPrefix? base.path.dropLast).bind _ = _
  rw [hsegments, Option.bind_some]
  show (ListEndpoint.ofSegments call.endpoint.path.segments).bind _ = _
  rw [call.endpoint.ofSegments_segments]
  exact call.ofParams_setParams

/-- A gateway behind the base URL reads a request as the list call. -/
def ReadAs (rules : Rules) (baseUrl : String) (request : Request) (call : ListCall) : Prop :=
  ∃ base target, parse rules (utf8 (baseUrl ++ "/")) = some base ∧
    request.target rules = some target ∧ readTarget base target = some call

/-- **Every request of a list call is a GET that a gateway reads as this call and no other, and
some run of the call makes one.** -/
theorem readAs_iff (hbase : normalizeBaseUrl u = .ok c.config.baseUrl)
    (hquery : '?' ∉ c.config.baseUrl.toList) (hfragment : '#' ∉ c.config.baseUrl.toList)
    (hhost : NamesHost c.config.baseUrl) (haccepts : AcceptsHost rules c.config.baseUrl)
    (call : ListCall) :
    (∀ es r, Program.Trace (call.run p fromSlice c).run es r → ∀ x ∈ apiAttempts es,
        x.1.request.method = .get ∧
          ∀ call', ReadAs rules c.config.baseUrl x.1.request call' ↔ call' = call) ∧
      ∃ es r, Program.Trace (call.run p fromSlice c).run es r ∧ apiAttempts es ≠ [] := by
  obtain ⟨base, hroot, hread⟩ := readTarget_getRequest hbase hquery hfragment hhost haccepts call
  have hbuild : (call.apiCall : MpcClient.ApiCall R R).build c = .ok (c.getRequest
      ("/" ++ call.endpoint.path.text) (setParams call.fields)) := rfl
  rw [call.run_eq]
  constructor
  · intro es r ht x hx
    obtain ⟨token, hreq⟩ := apiAttempts_of_build hbuild ht x hx
    obtain ⟨target, htarget, hcall⟩ := hread token
    rw [hreq]
    refine ⟨rfl, fun call' => ⟨?_, ?_⟩⟩
    · rintro ⟨base', target', hroot', htarget', hcall'⟩
      cases hroot.symm.trans hroot'
      cases htarget.symm.trans htarget'
      exact Option.some.inj (hcall'.symm.trans hcall)
    · rintro rfl
      exact ⟨base, target, hroot, htarget, hcall⟩
  · obtain ⟨es, r, ht, x, hx, -⟩ := exists_apiAttempt_of_build p fromSlice c hbuild
    exact ⟨es, r, ht, List.ne_nil_of_mem hx⟩

end request

/-- A filter with the separators of the form encoding in it, on a page before the first. -/
def testFilter : ListCall :=
  .accounts { walletId := some "a&page=2+3%20=é", page := some (-1), pageSize := none }

theorem readAs_testFilter :
    (∀ es r, Program.Trace (testFilter.run testPlatform .ok testClient).run es r →
        ∀ x ∈ apiAttempts es, x.1.request.method = .get ∧
          ∀ call', ReadAs testRules testClient.config.baseUrl x.1.request call' ↔
            call' = testFilter) ∧
      ∃ es r, Program.Trace (testFilter.run testPlatform .ok testClient).run es r ∧
        apiAttempts es ≠ [] :=
  readAs_iff (u := "https://gateway.example/") (by decide +kernel) (by decide) (by decide)
    (by decide) (by unfold AcceptsHost; decide) testFilter

end ParatroSdk
