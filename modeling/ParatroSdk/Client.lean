import ParatroSdk.Authenticate

/-! # The API client

`MpcClient` sends every request of the SDK through `send` (`src/client.rs`): get a token,
make the attempt, and if the gateway answers `401 token_expired` refresh the token and make
the attempt once more.  `isTokenExpired` and `decode` read the reply's body independently
of each other; `decode` yields the decoded body, or `Error.api` for a status of 400 and
above with a placeholder for a body that is not an `ErrorBody`. -/

namespace ParatroSdk

open Text Machine Interaction SharedCell Sdk

def headerIdempotencyKey : String := "Idempotency-Key"

/-- A decoded gateway reply: HTTP status plus the deserialized body. -/
structure Reply (R : Type) where
  status : ℕ
  body : R

/-- The main MPC SDK client; both HTTP clients are built with `config.timeout`. -/
structure MpcClient where
  config : Config
  tokenManager : TokenManager

/-- What the client returns in place of an error body it cannot decode. -/
def unknownErrorBody : ErrorBody := ⟨"unknown", "unknown", "failed to decode error response"⟩

def isTokenExpired (p : Platform) (bytes : Bytes) : Bool :=
  match p.errorBody bytes with
  | .ok b => b.code == code.tokenExpired
  | .error _ => false

def decode {R : Type} (p : Platform) (fromSlice : FromSlice R) (status : ℕ) (bytes : Bytes) :
    Except Error (Reply R) :=
  if 400 ≤ status then
    match p.errorBody bytes with
    | .ok body => .error (.api status body)
    | .error _ => .error (.api status unknownErrorBody)
  else
    match fromSlice bytes with
    | .ok body => .ok ⟨status, body⟩
    | .error e => .error (.decode status e)

namespace MpcClient

/-- Creates a client; `build` is what the HTTP client builder answers for a timeout. -/
def new (build : Duration → Except ReqwestError Unit) (apiKey apiSecret : String)
    (config : Config) : Except Error MpcClient := do
  if apiKey.isEmpty then throw (.invalidConfig "apiKey is required")
  if apiSecret.isEmpty then throw (.invalidConfig "apiSecret is required")
  let baseUrl ← normalizeBaseUrl config.baseUrl
  let config := { config with baseUrl := baseUrl }
  let tokenManager ← TokenManager.new build apiKey apiSecret config.baseUrl config.timeout
  (build config.timeout).mapError .http
  return ⟨config, tokenManager⟩

variable {R : Type} (p : Platform) (fromSlice : FromSlice R) (c : MpcClient)

def url (path : String) : String := c.config.baseUrl ++ path

def authorization (token : String) : String × String := ("Authorization", "Bearer " ++ token)

/-- The request built for a POST; extra headers come last. -/
def postRequest (path : String) (headers : List (String × String)) (payload : Bytes)
    (token : String) : Request where
  method := .post
  url := c.url path
  query := []
  headers := ("Content-Type", "application/json") :: authorization token :: headers
  body := some payload

/-- The request built for a GET. -/
def getRequest (path : String) (params : List (String × String)) (token : String) : Request where
  method := .get
  url := c.url path
  query := params
  headers := [authorization token]
  body := none

/-- One attempt: the status and the bytes of the reply. -/
def execute (request : Request) : Sdk (ℕ × Bytes) := do
  let resp ← Sdk.send .api request
  let bytes ← mapErr .http resp.body
  return (resp.status, bytes)

/-- Sends a request built by `build token`, once more after `401 token_expired`. -/
def send (build : String → Request) : Sdk (Reply R) := do
  let token ← c.tokenManager.getToken p
  let (status, bytes) ← execute (build token)
  let (status, bytes) ←
    if status == 401 && isTokenExpired p bytes then do
      let token ← c.tokenManager.refreshAfterExpiry p token
      execute (build token)
    else pure (status, bytes)
  mapErr id (decode p fromSlice status bytes)

/-- POST that also reports the HTTP status; `body` is what serializing the request gives. -/
def postWithStatusAndHeaders (path : String) (body : Except SerdeJsonError Bytes)
    (headers : List (String × String)) : Sdk (Reply R) := do
  let payload ← mapErr (.decode 0) body
  c.send p fromSlice (c.postRequest path headers payload)

def postWithStatus (path : String) (body : Except SerdeJsonError Bytes) : Sdk (Reply R) :=
  c.postWithStatusAndHeaders p fromSlice path body []

def postWithHeaders (path : String) (body : Except SerdeJsonError Bytes)
    (headers : List (String × String)) : Sdk R :=
  return (← c.postWithStatusAndHeaders p fromSlice path body headers).body

def post (path : String) (body : Except SerdeJsonError Bytes) : Sdk R :=
  return (← c.postWithStatus p fromSlice path body).body

def get (path : String) : Sdk R := return (← c.send p fromSlice (c.getRequest path [])).body

def getWithQuery (path : String) (params : List (String × String)) : Sdk R :=
  return (← c.send p fromSlice (c.getRequest path params)).body

/-! ### The calls as one family -/

/-- The ways into `send`, by the type they return. -/
inductive ApiCall (R : Type) : Type → Type where
  | post (path : String) (body : Except SerdeJsonError Bytes) : ApiCall R R
  | postWithHeaders (path : String) (body : Except SerdeJsonError Bytes)
      (headers : List (String × String)) : ApiCall R R
  | postWithStatus (path : String) (body : Except SerdeJsonError Bytes) : ApiCall R (Reply R)
  | postWithStatusAndHeaders (path : String) (body : Except SerdeJsonError Bytes)
      (headers : List (String × String)) : ApiCall R (Reply R)
  | get (path : String) : ApiCall R R
  | getWithQuery (path : String) (params : List (String × String)) : ApiCall R R

namespace ApiCall

variable {α : Type}

def run : ApiCall R α → Sdk α
  | .post path body => c.post p fromSlice path body
  | .postWithHeaders path body headers => c.postWithHeaders p fromSlice path body headers
  | .postWithStatus path body => c.postWithStatus p fromSlice path body
  | .postWithStatusAndHeaders path body headers =>
      c.postWithStatusAndHeaders p fromSlice path body headers
  | .get path => c.get p fromSlice path
  | .getWithQuery path params => c.getWithQuery p fromSlice path params

/-- The request builder handed to `send`, or the error of serializing the body. -/
def build : ApiCall R α → Except Error (String → Request)
  | .post path body | .postWithStatus path body =>
      (body.map (c.postRequest path [])).mapError (.decode 0)
  | .postWithHeaders path body headers | .postWithStatusAndHeaders path body headers =>
      (body.map (c.postRequest path headers)).mapError (.decode 0)
  | .get path => .ok (c.getRequest path [])
  | .getWithQuery path params => .ok (c.getRequest path params)

/-- What the call returns of the reply. -/
def view : ApiCall R α → Reply R → α
  | .post _ _ | .postWithHeaders _ _ _ | .get _ | .getWithQuery _ _ => Reply.body
  | .postWithStatus _ _ | .postWithStatusAndHeaders _ _ _ => id

/-- Every call builds its request, sends it and returns a view of the reply. -/
theorem run_eq (call : ApiCall R α) :
    (call.run p fromSlice c).run = match call.build c with
      | .error e => .ret (.error e)
      | .ok build => (c.send p fromSlice build).run >>= fun r => .ret (r.map call.view) := by
  have hview : ∀ build : String → Request,
      (do return (← c.send p fromSlice build).body : Sdk R).run =
        ((c.send p fromSlice build).run >>= fun r => .ret (r.map Reply.body)) := by
    intro build
    refine congrArg ((c.send p fromSlice build).run >>= ·) (funext fun r => ?_)
    cases r <;> rfl
  have hid : ∀ build : String → Request, (c.send p fromSlice build).run =
      ((c.send p fromSlice build).run >>= fun r => .ret (r.map id)) := by
    intro build
    conv_lhs => rw [← Program.bind_ret (c.send p fromSlice build).run]
    refine congrArg ((c.send p fromSlice build).run >>= ·) (funext fun r => ?_)
    cases r <;> rfl
  cases call with
  | post path body => cases body with
    | error e => rfl
    | ok payload => exact hview _
  | postWithHeaders path body headers => cases body with
    | error e => rfl
    | ok payload => exact hview _
  | postWithStatus path body => cases body with
    | error e => rfl
    | ok payload => exact hid _
  | postWithStatusAndHeaders path body headers => cases body with
    | error e => rfl
    | ok payload => exact hid _
  | get path => exact hview _
  | getWithQuery path params => exact hview _

variable {p fromSlice c} in
/-- A call whose request cannot be built does nothing; any other does what `send` does. -/
theorem trace {call : ApiCall R α} {es : SdkTrace} {r : Option (Except Error α)}
    (h : Program.Trace (call.run p fromSlice c).run es r) :
    (∃ e, call.build c = .error e ∧ es = [] ∧ r = some (.error e)) ∨
      ∃ build a, call.build c = .ok build ∧
        Program.Trace (c.send p fromSlice build).run es a ∧ r = a.map (Except.map call.view) := by
  rw [run_eq] at h
  cases hb : call.build c with
  | error e =>
      rw [hb] at h
      obtain ⟨rfl, rfl⟩ := Program.trace_ret_iff.mp h
      exact .inl ⟨e, rfl, rfl, rfl⟩
  | ok build =>
      rw [hb] at h
      refine .inr ⟨build, ?_⟩
      obtain ⟨a, es₁, es₂, h₁, h₂, rfl⟩ | ⟨h₁, rfl⟩ := Program.trace_bind_iff.mp h
      · obtain ⟨rfl, rfl⟩ := Program.trace_ret_iff.mp h₂
        rw [List.append_nil]
        exact ⟨some a, rfl, h₁, rfl⟩
      · exact ⟨none, rfl, h₁, rfl⟩

end ApiCall

end MpcClient

end ParatroSdk
