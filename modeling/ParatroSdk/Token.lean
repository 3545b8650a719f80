import ParatroSdk.Config
import ParatroSdk.Lib.Int64
import ParatroSdk.Lib.SharedCell

/-! # The token manager

`TokenManager` caches one gateway token behind a readers-writer lock (`src/token.rs`).
`getToken` returns the cached token while the clock is before its deadline and refreshes
otherwise; `refreshAfterExpiry` is called after the gateway answered `401 token_expired`.
Both are programs over the cell that holds the cached token, with HTTP requests as their
outside requests; the write guard of `refresh` is held across the exchange with the auth
endpoint.

`serde_json` and the overflow checks of the build are parameters (`Platform`).  What
`authenticate` does once the reply is in depends on the reply through `authOutcome` only
(`authenticate_run`). -/

namespace ParatroSdk

open Text Machine Interaction SharedCell

/-! ### Time -/

/-- A `tokio::time::Instant`, in nanoseconds of the monotonic clock. -/
abbrev Instant := ℕ

namespace Instant

/-- Instants count seconds in a signed 64-bit number. -/
def limit : ℕ := Duration.fromSecs (2 ^ 63)

/-- `instant + duration`; `none` is the panic on overflow. -/
def add (now : Instant) (d : Duration) : Option Instant :=
  if now + d < limit then some (now + d) else none

end Instant

/-! ### HTTP -/

inductive Method where
  | get
  | post
deriving DecidableEq, Repr

/-- A request as `reqwest` sends it. -/
structure Request where
  method : Method
  url : String
  query : List (String × String)
  headers : List (String × String)
  body : Option Bytes
deriving DecidableEq, Repr

/-- A reply: its status, and its body as far as it could be read. -/
structure Response where
  status : ℕ
  body : Except ReqwestError Bytes
deriving DecidableEq

/-- The two `reqwest::Client`s of the SDK: the token manager's and the API client's. -/
inductive HttpClient where
  | auth
  | api
deriving DecidableEq, Repr

/-- One `send()`. -/
structure HttpCall where
  client : HttpClient
  request : Request
deriving DecidableEq, Repr

/-- What a `send()` ends with. -/
abbrev HttpReply := Except ReqwestError Response

/-- A reply with a body that arrives whole. -/
def HttpReply.text (status : ℕ) (body : String) : HttpReply := .ok ⟨status, .ok (utf8 body)⟩

/-- `serde_json::from_slice` at one type. -/
abbrev FromSlice (α : Type) := Bytes → Except SerdeJsonError α

/-! ### Data of the token manager -/

def headerApiKey : String := "X-API-Key"
def headerApiSecret : String := "X-API-Secret"

/-- The SDK refreshes this many seconds before the `expires_in` the gateway reported. -/
def refreshBufferSecs : Int64 := 120

structure ClientInfo where
  clientId : String
  clientName : String
  status : String
  subscriptionTier : String
  maxWallets : Int64
deriving DecidableEq

structure TokenResponse where
  token : String
  expiresIn : Int64
  tokenType : String
  client : ClientInfo
deriving DecidableEq

structure TokenState where
  token : String
  expiresAt : Instant
deriving DecidableEq, Repr

/-- The HTTP client of the token manager is known by its timeout. -/
structure TokenManager where
  apiKey : String
  apiSecret : String
  baseUrl : String
  timeout : Duration

/-- What the SDK takes from its build and from `serde_json`. -/
structure Platform where
  overflowChecks : OverflowChecks
  errorBody : FromSlice ErrorBody
  tokenResponse : FromSlice TokenResponse

/-- `(tok_resp.expires_in - REFRESH_BUFFER_SECS).max(0) as u64`. -/
def expiresInSecs (m : OverflowChecks) (expiresIn : Int64) : Option ℕ :=
  (sub m expiresIn refreshBufferSecs).map (fun d => (max d.toInt 0).toNat)

/-- The deadline stored with a token that arrives at `now`; `none` is a panic. -/
def deadline (m : OverflowChecks) (now : Instant) (expiresIn : Int64) : Option Instant :=
  (expiresInSecs m expiresIn).bind (fun secs => now.add (Duration.fromSecs secs))

/-! ### Programs -/

/-- The programs of the SDK: tasks over the token cell that send HTTP requests. -/
abbrev SdkCode (α : Type) := Code (Option TokenState) HttpCall HttpReply α

/-- Programs that return a `Result<_, Error>`. -/
abbrev Sdk (α : Type) := ExceptT Error (Program (effects (Option TokenState) HttpCall HttpReply)) α

namespace Sdk

/-- Hold the lock while the body runs. -/
def guarded {α : Type} (m : Mode) (body : Sdk α) : Sdk α := ExceptT.mk (Code.withGuard m body.run)

/-- Read and write `*state` under a guard. -/
def load : Sdk (Option TokenState) := ExceptT.lift Code.load
def store (s : Option TokenState) : Sdk Unit := ExceptT.lift (Code.store s)

/-- `tokio::time::Instant::now()`. -/
def now : Sdk Instant := ExceptT.lift Code.clock

/-- Continue with the value, or panic. -/
def orPanic {α : Type} : Option α → Sdk α
  | some a => pure a
  | none => ExceptT.mk .halt

/-- `result.map_err(f)?`. -/
def mapErr {α ε : Type} (f : ε → Error) : Except ε α → Sdk α
  | .ok a => pure a
  | .error e => throw (f e)

/-- `request.send().await.map_err(Error::Http)?`. -/
def send (client : HttpClient) (request : Request) : Sdk Response := do
  let reply ← ExceptT.lift (Code.request ⟨client, request⟩)
  mapErr .http reply

section run
variable {α β ε : Type} (f : α → Sdk β)

@[simp] theorem run_pure (a : α) : (pure a : Sdk α).run = .ret (.ok a) := rfl

@[simp] theorem run_load_bind (f : Option TokenState → Sdk β) :
    (load >>= f : Sdk β).run = .ask .load (fun s => (f s).run) := rfl

@[simp] theorem run_now_bind (f : Instant → Sdk β) :
    (now >>= f : Sdk β).run = .ask .clock (fun t => (f t).run) := rfl

theorem run_orPanic_bind (o : Option α) :
    (orPanic o >>= f : Sdk β).run = match o with | some a => (f a).run | none => .halt := by
  cases o <;> rfl

@[simp] theorem run_mapErr_ok_bind (g : ε → Error) (a : α) :
    (mapErr g (.ok a) >>= f : Sdk β).run = (f a).run := rfl

@[simp] theorem run_send_bind (client : HttpClient) (request : Request) (f : Response → Sdk β) :
    (send client request >>= f : Sdk β).run =
      .ask (.request ⟨client, request⟩) (fun (reply : HttpReply) =>
        match reply with
        | .ok resp => (f resp).run
        | .error e => .ret (.error (.http e))) := by
  change Program.ask _ _ = _
  refine congrArg (Program.ask _) (funext fun (reply : HttpReply) => ?_)
  cases reply <;> rfl

@[simp] theorem run_guarded_bind (m : Mode) (body : Sdk α) :
    (guarded m body >>= f : Sdk β).run =
      .ask (.acquire m) (fun _ => body.run >>= fun r => .ask .release (fun _ =>
        match r with
        | .ok a => (f a).run
        | .error e => .ret (.error e))) := by
  change Program.ask _ _ = _
  refine congrArg (Program.ask _) (funext fun _ => ?_)
  change ((body.run >>= fun r => _) >>= fun r => _ : SdkCode (Except Error β)) = _
  rw [Program.bind_assoc]
  refine congrArg (body.run >>= ·) (funext fun r => ?_)
  cases r <;> rfl

@[simp] theorem run_guarded (m : Mode) (body : Sdk α) :
    (guarded m body).run =
      .ask (.acquire m) (fun _ => body.run >>= fun r => .ask .release (fun _ => .ret r)) := rfl

end run

end Sdk

open Sdk

namespace TokenManager

/-- `build` is what the HTTP client builder answers for a timeout. -/
def new (build : Duration → Except ReqwestError Unit) (apiKey apiSecret baseUrl : String)
    (timeout : Duration) : Except Error TokenManager :=
  match build timeout with
  | .ok _ => .ok ⟨apiKey, apiSecret, baseUrl, timeout⟩
  | .error e => .error (.http e)

variable (p : Platform) (tm : TokenManager)

def authRequest : Request where
  method := .post
  url := tm.baseUrl ++ "/api/v1/auth/token"
  query := []
  headers := [(headerApiKey, tm.apiKey), (headerApiSecret, tm.apiSecret)]
  body := none

/-- The placeholder for an auth error body that cannot be read or decoded. -/
def unknownAuthBody (status : ℕ) : ErrorBody :=
  ⟨"unknown", "unknown", "auth request failed with status " ++ toString status⟩

/-- `resp.json::<ErrorBody>().unwrap_or(..)`. -/
def errorBodyOf (resp : Response) : ErrorBody :=
  match resp.body with
  | .error _ => unknownAuthBody resp.status
  | .ok bytes =>
      match p.errorBody bytes with
      | .error _ => unknownAuthBody resp.status
      | .ok body => body

/-- The rest of `refresh` once it does not return early: the exchange with the auth
endpoint, made with the write guard held. -/
def authenticate : Sdk String := do
  let resp ← send .auth tm.authRequest
  if 400 ≤ resp.status then
    store none
    throw (.api resp.status (errorBodyOf p resp))
  else
    let bytes ← mapErr .http resp.body
    let tokResp ← mapErr (.decode resp.status) (p.tokenResponse bytes)
    let secs ← orPanic (expiresInSecs p.overflowChecks tokResp.expiresIn)
    let expiresAt ← orPanic ((← now).add (Duration.fromSecs secs))
    store (some ⟨tokResp.token, expiresAt⟩)
    return tokResp.token

/-- The early return of `refresh`: the cached token is handed out when no token is stale
and it is still fresh, or when it is another token than the stale one. -/
def reusable (stale : Option String) (s : TokenState) (now : Instant) : Bool :=
  let stillFresh := decide (now < s.expiresAt)
  let replaced := stale.any (· != s.token)
  (stale.isNone && stillFresh) || replaced

def refresh (stale : Option String) : Sdk String := guarded .write do
  match ← load with
  | some s => if reusable stale s (← now) then return s.token else authenticate p tm
  | none => authenticate p tm

/-- Returns a cached token, refreshing when its deadline has passed. -/
def getToken : Sdk String := do
  let cached ← guarded .read do
    match ← load with
    | some s => if (← now) < s.expiresAt then return some s.token else return none
    | none => return none
  match cached with
  | some token => return token
  | none => refresh p tm none

/-- Called after the gateway answered `401 token_expired` for `stale`. -/
def refreshAfterExpiry (stale : String) : Sdk String := refresh p tm (some stale)

end TokenManager

/-! ### A test gateway -/

def tokenExpiredJson : String :=
  "\x7b\"code\":\"token_expired\",\"type\":\"authentication_error\",\"message\":\"Token expired\"\x7d"

def tokenJson0 : String :=
  "\x7b\"token\":\"token-0\",\"expires_in\":900,\"token_type\":\"Bearer\",\"client\":\x7b\"client_id\":\"\",\"client_name\":\"\",\"status\":\"ACTIVE\"\x7d\x7d"

def tokenJson1 : String :=
  "\x7b\"token\":\"token-1\",\"expires_in\":900,\"token_type\":\"Bearer\",\"client\":\x7b\"client_id\":\"\",\"client_name\":\"\",\"status\":\"ACTIVE\"\x7d\x7d"

def tokenJsonMax : String :=
  "\x7b\"token\":\"token-2\",\"expires_in\":9223372036854775807,\"token_type\":\"Bearer\",\"client\":\x7b\"client_id\":\"\",\"client_name\":\"\",\"status\":\"ACTIVE\"\x7d\x7d"

def testToken (token : String) (expiresIn : Int64) : TokenResponse :=
  ⟨token, expiresIn, "Bearer", ⟨"", "", "ACTIVE", "", 0⟩⟩

def testManager : TokenManager := ⟨"key", "secret", "https://gateway.example", defaultTimeout⟩

/-- A release build whose decoders know the bodies above. -/
def testPlatform : Platform where
  overflowChecks := .off
  errorBody bytes :=
    if bytes = utf8 tokenExpiredJson then
      .ok ⟨"token_expired", "authentication_error", "Token expired"⟩
    else .error ⟨"expected value"⟩
  tokenResponse bytes :=
    if bytes = utf8 tokenJson0 then .ok (testToken "token-0" 900)
    else if bytes = utf8 tokenJson1 then .ok (testToken "token-1" 900)
    else if bytes = utf8 tokenJsonMax then .ok (testToken "token-2" 9223372036854775807)
    else .error ⟨"expected value"⟩

theorem tokenResponse_tokenJson0 :
    testPlatform.tokenResponse (utf8 tokenJson0) = .ok (testToken "token-0" 900) := by
  unfold testPlatform
  dsimp only
  rw [if_pos rfl]

theorem tokenResponse_tokenJson1 :
    testPlatform.tokenResponse (utf8 tokenJson1) = .ok (testToken "token-1" 900) := by
  have h₀ : tokenJson1 ≠ tokenJson0 := by decide +kernel
  unfold testPlatform
  dsimp only
  rw [if_neg (utf8_injective.ne h₀), if_pos rfl]

theorem tokenResponse_tokenJsonMax : testPlatform.tokenResponse (utf8 tokenJsonMax) =
    .ok (testToken "token-2" 9223372036854775807) := by
  have h₀ : tokenJsonMax ≠ tokenJson0 := by decide +kernel
  have h₁ : tokenJsonMax ≠ tokenJson1 := by decide +kernel
  unfold testPlatform
  dsimp only
  rw [if_neg (utf8_injective.ne h₀), if_neg (utf8_injective.ne h₁), if_pos rfl]

end ParatroSdk
