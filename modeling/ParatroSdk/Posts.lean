import ParatroSdk.Replies
import ParatroSdk.X402

/-! # Calls that post a body

Creating wallets, accounts, assets, transactions and transfers, and the x402 facilitator's calls
(`src/wallet.rs`, `src/account.rs`, `src/asset.rs`, `src/transaction.rs`, `src/transfer.rs`,
`src/x402.rs`): each posts one JSON body, two of them with an idempotency key where there is one.

A gateway that takes the endpoint from the path, the request from the body and the key from the
headers receives what the call was made with (`receivedAs_iff`), the key without spaces and tabs
around it; a transfer is received as the transaction it wraps. -/

namespace ParatroSdk

open Serde Text Interaction SharedCell Sdk Url

/-! ### The requests -/

/-- Request to create a new MPC wallet. -/
structure CreateWalletRequest where
  walletName : String
  description : Option String
deriving DecidableEq

def CreateWalletRequest.record : Record CreateWalletRequest where
  Row := _
  fields := .cons (.required "wallet_name" .string) <| .cons (.optional "description" .string) .nil
  toRow r := (r.walletName, r.description, ())
  ofRow := fun (walletName, description, ()) => { walletName, description }
  ofRow_toRow _ := rfl
  toRow_ofRow _ := rfl
  distinct := by decide +kernel

theorem CreateWalletRequest.ok (r : CreateWalletRequest) : record.Ok r :=
  ⟨trivial, Codec.ok_option_string _, trivial⟩

/-- Request to create a new account. -/
structure CreateAccountRequest where
  walletId : String
  chain : String
  accountType : Option String
  label : Option String
deriving DecidableEq

def CreateAccountRequest.record : Record CreateAccountRequest where
  Row := _
  fields := .cons (.required "wallet_id" .string) <| .cons (.required "chain" .string) <|
    .cons (.optional "account_type" .string) <| .cons (.optional "label" .string) .nil
  toRow r := (r.walletId, r.chain, r.accountType, r.label, ())
  ofRow := fun (walletId, chain, accountType, label, ()) => { walletId, chain, accountType, label }
  ofRow_toRow _ := rfl
  toRow_ofRow _ := rfl
  distinct := by decide +kernel

theorem CreateAccountRequest.ok (r : CreateAccountRequest) : record.Ok r :=
  ⟨trivial, trivial, Codec.ok_option_string _, Codec.ok_option_string _, trivial⟩

/-- Request to add a new asset. -/
structure CreateAssetRequest where
  accountId : String
  symbol : String
  chain : Option String
deriving DecidableEq

def CreateAssetRequest.record : Record CreateAssetRequest where
  Row := _
  fields := .cons (.required "account_id" .string) <| .cons (.required "symbol" .string) <|
    .cons (.optional "chain" .string) .nil
  toRow r := (r.accountId, r.symbol, r.chain, ())
  ofRow := fun (accountId, symbol, chain, ()) => { accountId, symbol, chain }
  ofRow_toRow _ := rfl
  toRow_ofRow _ := rfl
  distinct := by decide +kernel

theorem CreateAssetRequest.ok (r : CreateAssetRequest) : record.Ok r :=
  ⟨trivial, trivial, Codec.ok_option_string _, trivial⟩

namespace MpcClient

variable (p : Platform) (json : SerdeJson) (c : MpcClient)

def createWallet (req : CreateWalletRequest) : Sdk Wallet :=
  c.post p (ReplyType.wallet.fromSlice json) "/api/v1/wallets"
    (.ok (json.toVec (CreateWalletRequest.record.encode req)))

def createAccount (req : CreateAccountRequest) : Sdk Account :=
  c.post p (ReplyType.account.fromSlice json) "/api/v1/accounts"
    (.ok (json.toVec (CreateAccountRequest.record.encode req)))

def createAsset (req : CreateAssetRequest) : Sdk Asset :=
  c.post p (ReplyType.asset.fromSlice json) "/api/v1/assets"
    (.ok (json.toVec (CreateAssetRequest.record.encode req)))

/-- Creates a transfer to an external address. -/
def createTransfer (req : TransferRequest) : Sdk CreateTransactionResponse :=
  c.createTransaction p json (.transfer req)

/-- Verifies a payment payload, which is any value that can be serialized. -/
def x402Verify (payload : Json) : Sdk X402VerifyResponse :=
  c.post p (ReplyType.verified.fromSlice json) "/api/v1/x402/verify" (.ok (json.toVec payload))

/-- Executes an on-chain settlement. -/
def x402Settle (payload : Json) : Sdk X402SettleResponse :=
  c.post p (ReplyType.settled.fromSlice json) "/api/v1/x402/settle" (.ok (json.toVec payload))

/-- `x402Settle` with an `Idempotency-Key` header. -/
def x402SettleWithIdempotencyKey (payload : Json) (idempotencyKey : String) :
    Sdk X402SettleResponse :=
  c.postWithHeaders p (ReplyType.settled.fromSlice json) "/api/v1/x402/settle"
    (.ok (json.toVec payload)) [(headerIdempotencyKey, idempotencyKey)]

end MpcClient

/-! ### The calls as one family -/

inductive PostEndpoint where
  | wallets
  | accounts
  | assets
  | transactions
  | verify
  | settle
deriving DecidableEq

namespace PostEndpoint

def path : PostEndpoint → PlainPath
  | .wallets => ListEndpoint.wallets.path
  | .accounts => ListEndpoint.accounts.path
  | .assets => ListEndpoint.assets.path
  | .transactions => ListEndpoint.transactions.path
  | .verify => ⟨"api/v1/x402/verify", ["api", "v1", "x402"].map utf8, utf8 "verify",
      by decide +kernel, by decide +kernel, by decide, by decide +kernel⟩
  | .settle => ⟨"api/v1/x402/settle", ["api", "v1", "x402"].map utf8, utf8 "settle",
      by decide +kernel, by decide +kernel, by decide, by decide +kernel⟩

/-- The endpoint with the segments. -/
def ofSegments (segments : List Bytes) : Option PostEndpoint :=
  [wallets, accounts, assets, transactions, verify, settle].find? fun endpoint =>
    segments = endpoint.path.segments

theorem ofSegments_segments (endpoint : PostEndpoint) :
    ofSegments endpoint.path.segments = some endpoint := by
  cases endpoint <;> decide +kernel

end PostEndpoint

/-- A call that posts a body, by the type it returns. -/
inductive PostCall : Type → Type 1 where
  | createWallet (req : CreateWalletRequest) : PostCall Wallet
  | createAccount (req : CreateAccountRequest) : PostCall Account
  | createAsset (req : CreateAssetRequest) : PostCall Asset
  | createTransaction (req : CreateTransactionRequest) : PostCall CreateTransactionResponse
  | createTransactionWithIdempotencyKey (req : CreateTransactionRequest) (idempotencyKey : String) :
      PostCall CreateTransactionResponse
  | createTransfer (req : TransferRequest) : PostCall CreateTransactionResponse
  | x402Verify (payload : Json) : PostCall X402VerifyResponse
  | x402Settle (payload : Json) : PostCall X402SettleResponse
  | x402SettleWithIdempotencyKey (payload : Json) (idempotencyKey : String) :
      PostCall X402SettleResponse

/-- What a gateway is asked to do. -/
inductive Order where
  | wallet (req : CreateWalletRequest)
  | account (req : CreateAccountRequest)
  | asset (req : CreateAssetRequest)
  | transaction (req : CreateTransactionRequest) (key : Option String)
  | verify (payload : Json)
  | settle (payload : Json) (key : Option String)

namespace Order

def endpoint : Order → PostEndpoint
  | .wallet _ => .wallets
  | .account _ => .accounts
  | .asset _ => .assets
  | .transaction _ _ => .transactions
  | .verify _ => .verify
  | .settle _ _ => .settle

/-- The body that is posted. -/
def body : Order → Json
  | .wallet req => CreateWalletRequest.record.encode req
  | .account req => CreateAccountRequest.record.encode req
  | .asset req => CreateAssetRequest.record.encode req
  | .transaction req _ => req.serialize
  | .verify payload => payload
  | .settle payload _ => payload

def key : Order → Option String
  | .transaction _ key => key
  | .settle _ key => key
  | _ => none

/-- The order with the key as it is received. -/
def received : Order → Order
  | .transaction req key => .transaction req (key.map fieldValue)
  | .settle payload key => .settle payload (key.map fieldValue)
  | order => order

theorem received_endpoint (order : Order) : order.received.endpoint = order.endpoint := by
  cases order <;> rfl

theorem received_body (order : Order) : order.received.body = order.body := by
  cases order <;> rfl

theorem received_key (order : Order) : order.received.key = order.key.map fieldValue := by
  cases order <;> rfl

/-- The request of an attempt to place the order. -/
def request (json : SerdeJson) (c : MpcClient) (order : Order) (token : String) : Request :=
  c.postRequest ("/" ++ order.endpoint.path.text)
    (order.key.map (headerIdempotencyKey, ·)).toList (json.toVec order.body) token

/-- The order at an endpoint, from the body and the key. -/
def ofBody (endpoint : PostEndpoint) (body : Json) (key : Option String) : Option Order :=
  match endpoint with
  | .wallets => (CreateWalletRequest.record.decode body).map .wallet
  | .accounts => (CreateAccountRequest.record.decode body).map .account
  | .assets => (CreateAssetRequest.record.decode body).map .asset
  | .transactions => (CreateTransactionRequest.deserialize body).map (.transaction · key)
  | .verify => some (.verify body)
  | .settle => some (.settle body key)

/-- The body and the key of an order determine it. -/
theorem ofBody_body (order : Order) : ofBody order.endpoint order.body order.key = some order := by
  cases order with
  | wallet req => exact congrArg (Option.map _) (Record.decode_encode_iff.mpr req.ok)
  | account req => exact congrArg (Option.map _) (Record.decode_encode_iff.mpr req.ok)
  | asset req => exact congrArg (Option.map _) (Record.decode_encode_iff.mpr req.ok)
  | transaction req key =>
      exact congrArg (Option.map _) (CreateTransactionRequest.deserialize_of_reordered (.refl _))
  | verify payload => rfl
  | settle payload key => rfl

end Order

namespace PostCall

variable {α : Type} (p : Platform) (json : SerdeJson) (c : MpcClient)

def run : PostCall α → Sdk α
  | .createWallet req => c.createWallet p json req
  | .createAccount req => c.createAccount p json req
  | .createAsset req => c.createAsset p json req
  | .createTransaction req => c.createTransaction p json req
  | .createTransactionWithIdempotencyKey req key =>
      c.createTransactionWithIdempotencyKey p json req key
  | .createTransfer req => c.createTransfer p json req
  | .x402Verify payload => c.x402Verify p json payload
  | .x402Settle payload => c.x402Settle p json payload
  | .x402SettleWithIdempotencyKey payload key => c.x402SettleWithIdempotencyKey p json payload key

/-- What the call is made for. -/
def order : PostCall α → Order
  | .createWallet req => .wallet req
  | .createAccount req => .account req
  | .createAsset req => .asset req
  | .createTransaction req => .transaction req none
  | .createTransactionWithIdempotencyKey req key => .transaction req (some key)
  | .createTransfer req => .transaction (.transfer req) none
  | .x402Verify payload => .verify payload
  | .x402Settle payload => .settle payload none
  | .x402SettleWithIdempotencyKey payload key => .settle payload (some key)

section
variable {p : Platform} {json : SerdeJson} {c : MpcClient} {es : SdkTrace}

/-- Every attempt of a transaction is the request for its order. -/
theorem apiAttempts_createTransaction (req : CreateTransactionRequest) (key : Option String)
    {r : Option (Except Error CreateTransactionResponse)}
    (h : Program.Trace (c.createTransactionWithHeaders p json req
      (key.map (headerIdempotencyKey, ·)).toList).run es r) :
    ∀ x ∈ apiAttempts es, ∃ token,
      x.1.request = (Order.transaction req key).request json c token := by
  have hrun : (c.createTransactionWithHeaders p json req
      (key.map (headerIdempotencyKey, ·)).toList).run =
      ((MpcClient.ApiCall.postWithStatusAndHeaders transactionsPath (.ok (json.toVec req.serialize))
        (key.map (headerIdempotencyKey, ·)).toList).run p
          (CreateTransactionResponse.fromSlice json) c).run >>= fun r => .ret (r.map fun reply =>
            { reply.body with httpStatus := reply.status, operation := req.operation }) := by
    refine congrArg (Program.bind _) (funext fun r => ?_)
    cases r <;> rfl
  rw [hrun] at h
  obtain ⟨a, es₁, es₂, h₁, h₂, rfl⟩ | ⟨h₁, -⟩ := Program.trace_bind_iff.mp h
  · obtain ⟨rfl, -⟩ := Program.trace_ret_iff.mp h₂
    rw [List.append_nil]
    exact apiAttempts_of_build rfl h₁
  · exact apiAttempts_of_build rfl h₁

/-- Every attempt of a call is the request for its order. -/
theorem apiAttempts_run {call : PostCall α} {r : Option (Except Error α)}
    (h : Program.Trace (call.run p json c).run es r) :
    ∀ x ∈ apiAttempts es, ∃ token, x.1.request = call.order.request json c token := by
  have hpost {R : Type} {fromSlice : FromSlice R} {path : String} {payload : Bytes}
      {r : Option (Except Error R)} (h : Program.Trace (c.post p fromSlice path (.ok payload)).run es r) :
      ∀ x ∈ apiAttempts es, ∃ token, x.1.request = c.postRequest path [] payload token :=
    apiAttempts_of_build
      (show (MpcClient.ApiCall.post path (.ok payload) : MpcClient.ApiCall R R).build c = _ from rfl) h
  cases call with
  | createWallet req => exact hpost h
  | createAccount req => exact hpost h
  | createAsset req => exact hpost h
  | createTransaction req => exact apiAttempts_createTransaction req none h
  | createTransactionWithIdempotencyKey req key =>
      exact apiAttempts_createTransaction req (some key) h
  | createTransfer req => exact apiAttempts_createTransaction (.transfer req) none h
  | x402Verify payload => exact hpost h
  | x402Settle payload => exact hpost h
  | x402SettleWithIdempotencyKey payload key =>
      have hcall : Program.Trace (MpcClient.ApiCall.run p (ReplyType.settled.fromSlice json) c
          (.postWithHeaders "/api/v1/x402/settle" (.ok (json.toVec payload))
            [(headerIdempotencyKey, key)])).run es r := h
      exact apiAttempts_of_build rfl hcall

end

end PostCall

/-! ### What a gateway receives -/

/-- A gateway behind `base` reads a request: the segments after those of the base are the
endpoint, the body is JSON and the key is in the headers. -/
def readOrder (json : SerdeJson) (base target : Parsed) (request : Request) : Option Order := do
  let segments ← target.path.dropPrefix? base.path.dropLast
  let endpoint ← PostEndpoint.ofSegments segments
  let body ← (json.tree (request.body.getD [])).toOption
  Order.ofBody endpoint body (idempotencyKeyOf fieldValue request)

/-- A gateway behind the base URL reads a request as the order. -/
def ReceivedAs (rules : Rules) (json : SerdeJson) (baseUrl : String) (request : Request)
    (order : Order) : Prop :=
  ∃ base target, parse rules (utf8 (baseUrl ++ "/")) = some base ∧
    request.target rules = some target ∧ readOrder json base target request = some order

section received
variable {rules : Rules} {json : SerdeJson} {c : MpcClient} {u : String} {α : Type}

/-- The key that is sent is received. -/
theorem idempotencyKeyOf_request (order : Order) (token : String) :
    idempotencyKeyOf fieldValue (order.request json c token) = order.received.key := by
  have hkey (key : Option String) : (("Content-Type", "application/json") ::
      MpcClient.authorization token :: (key.map (headerIdempotencyKey, ·)).toList).lookup
        headerIdempotencyKey = key := by
    cases key <;> rfl
  rw [order.received_key]
  exact congrArg (Option.map fieldValue) (hkey order.key)

theorem receivedAs_request (hbase : normalizeBaseUrl u = .ok c.config.baseUrl)
    (hquery : '?' ∉ c.config.baseUrl.toList) (hfragment : '#' ∉ c.config.baseUrl.toList)
    (hhost : NamesHost c.config.baseUrl) (haccepts : AcceptsHost rules c.config.baseUrl)
    (order : Order) (hjson : json.RoundTrips order.body) (token : String) :
    ReceivedAs rules json c.config.baseUrl (order.request json c token) order.received := by
  obtain ⟨url, base, hurl, hroot, hsegments, -⟩ :=
    order.endpoint.path.parse_accepted hbase hquery hfragment hhost haccepts
  have hbody : json.tree (json.toVec order.body) = .ok order.body := hjson
  refine ⟨base, url.withPairs [], hroot, congrArg (Option.map _) hurl, ?_⟩
  unfold readOrder
  rw [idempotencyKeyOf_request]
  show (url.path.dropPrefix? base.path.dropLast).bind _ = _
  rw [hsegments, Option.bind_some]
  show (PostEndpoint.ofSegments order.endpoint.path.segments).bind _ = _
  rw [order.endpoint.ofSegments_segments, Option.bind_some]
  show ((json.tree (json.toVec order.body)).toOption).bind _ = _
  rw [hbody]
  show Order.ofBody order.endpoint order.body order.received.key = _
  rw [← order.received_endpoint, ← order.received_body]
  exact order.received.ofBody_body

/-- **A gateway receives every request of a call as what the call was made for, and as nothing
else.** -/
theorem receivedAs_iff (hbase : normalizeBaseUrl u = .ok c.config.baseUrl)
    (hquery : '?' ∉ c.config.baseUrl.toList) (hfragment : '#' ∉ c.config.baseUrl.toList)
    (hhost : NamesHost c.config.baseUrl) (haccepts : AcceptsHost rules c.config.baseUrl)
    {p : Platform} {call : PostCall α} (hjson : json.RoundTrips call.order.body) {es : SdkTrace}
    {r : Option (Except Error α)} (h : Program.Trace (call.run p json c).run es r) :
    ∀ x ∈ apiAttempts es, x.1.request.method = .post ∧
      ∀ order, ReceivedAs rules json c.config.baseUrl x.1.request order ↔
        order = call.order.received := by
  intro x hx
  obtain ⟨token, hreq⟩ := PostCall.apiAttempts_run h x hx
  have hreceived := receivedAs_request hbase hquery hfragment hhost haccepts call.order hjson token
  rw [hreq]
  refine ⟨rfl, fun order => ⟨?_, ?_⟩⟩
  · rintro ⟨base, target, hroot, htarget, horder⟩
    obtain ⟨base', target', hroot', htarget', horder'⟩ := hreceived
    cases hroot.symm.trans hroot'
    cases htarget.symm.trans htarget'
    exact Option.some.inj (horder.symm.trans horder')
  · rintro rfl
    exact hreceived

end received

/-- A swap under a key with a space after it, sent twice because the cached token had expired. -/
def swapRun : SdkTrace × Option (Except Error CreateTransactionResponse) :=
  ((PostCall.createTransactionWithIdempotencyKey swapRequest "idem-1 ").run testPlatform replyJson
    testClient).run.play
    (alone (some ⟨"token-0", Duration.fromSecs 2000⟩) (Duration.fromSecs 1000)
      [.text 401 tokenExpiredJson, .text 200 tokenJson1, .text 202 pendingJson]) []

theorem receivedAs_swapRun : (apiAttempts swapRun.1).length = 2 ∧
    ∀ x ∈ apiAttempts swapRun.1, x.1.request.method = .post ∧
      ∀ order, ReceivedAs testRules replyJson testClient.config.baseUrl x.1.request order ↔
        order = .transaction swapRequest (some "idem-1") := by
  refine ⟨by decide +kernel, ?_⟩
  have ht : Program.Trace (PostCall.run testPlatform replyJson testClient
      (.createTransactionWithIdempotencyKey swapRequest "idem-1 ")).run swapRun.1 swapRun.2 :=
    Program.trace_play _ _ _
  refine receivedAs_iff (u := "https://gateway.example/") (by decide +kernel) (by decide) (by decide)
    (by decide) (by unfold AcceptsHost; decide) ?_ ht
  exact swapWithoutKey.exact

end ParatroSdk
