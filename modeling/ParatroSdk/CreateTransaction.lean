import ParatroSdk.Resources
import ParatroSdk.Transaction

/-! # Creating a transaction

`create_transaction` and `create_transaction_with_idempotency_key` (`src/transaction.rs`) post a
request and classify the reply.  A reply has its text from the gateway's body, its HTTP status
from the transport and its operation from the request: neither of the last two is part of the
body. -/

namespace ParatroSdk

open Serde Text Interaction SharedCell Sdk

/-- `status` of a reply: queued for signing, or outcome unknown. -/
def statusPending : String := "PENDING"

/-- `status` of a reply: signed and broadcast. -/
def statusBroadcast : String := "BROADCAST"

/-- Reply of `POST /api/v1/transactions`. -/
structure CreateTransactionResponse where
  txId : String
  status : String
  message : String
  txHash : Option String
  httpStatus : ℕ
  operation : String
deriving DecidableEq

namespace CreateTransactionResponse

/-- The outcome is unknown: the transaction may be under way. -/
def isAccepted (r : CreateTransactionResponse) : Bool :=
  if r.httpStatus == 202 then true
  else !r.operation.isEmpty && r.operation != operationTransfer && r.status == statusPending

/-- The transaction was signed and broadcast. -/
def isBroadcast (r : CreateTransactionResponse) : Bool := r.status == statusBroadcast

theorem isAccepted_eq (r : CreateTransactionResponse) : r.isAccepted =
    (r.httpStatus == 202 ||
      (!r.operation.isEmpty && r.operation != operationTransfer && r.status == statusPending)) := by
  unfold isAccepted
  cases r.httpStatus == 202 <;> rfl

/-- The fields that are part of the body. -/
structure Body where
  txId : String
  status : String
  message : String
  txHash : Option String

def Body.record : Record Body where
  Row := _
  fields := .cons (.required "tx_id" .string) <| .cons (.required "status" .string) <|
    .cons (.required "message" .string) <| .cons (.optional "tx_hash" .string) .nil
  toRow b := (b.txId, b.status, b.message, b.txHash, ())
  ofRow := fun (txId, status, message, txHash, ()) => { txId, status, message, txHash }
  ofRow_toRow _ := rfl
  toRow_ofRow _ := rfl
  distinct := by decide +kernel

/-- The skipped fields have the defaults of their types. -/
def deserialize (j : Json) : Option CreateTransactionResponse :=
  (Body.record.decode j).map fun b =>
    { txId := b.txId, status := b.status, message := b.message, txHash := b.txHash,
      httpStatus := 0, operation := "" }

def fromSlice (json : SerdeJson) : FromSlice CreateTransactionResponse :=
  json.fromSlice "struct CreateTransactionResponse" deserialize

end CreateTransactionResponse

namespace MpcClient

variable (p : Platform) (json : SerdeJson) (c : MpcClient)

def createTransactionWithHeaders (req : CreateTransactionRequest)
    (headers : List (String × String)) : Sdk CreateTransactionResponse := do
  let reply ← c.postWithStatusAndHeaders p (CreateTransactionResponse.fromSlice json)
    transactionsPath (.ok (json.toVec req.serialize)) headers
  return { reply.body with httpStatus := reply.status, operation := req.operation }

/-- `POST /api/v1/transactions`. -/
def createTransaction (req : CreateTransactionRequest) : Sdk CreateTransactionResponse :=
  c.createTransactionWithHeaders p json req []

/-- `POST /api/v1/transactions` with an `Idempotency-Key` header. -/
def createTransactionWithIdempotencyKey (req : CreateTransactionRequest) (idempotencyKey : String) :
    Sdk CreateTransactionResponse :=
  c.createTransactionWithHeaders p json req [(headerIdempotencyKey, idempotencyKey)]

end MpcClient

/-- A call of `send` that succeeds ends with the attempt whose reply it returns. -/
theorem SendTrace.ends_of_ok {R : Type} {p : Platform} {fromSlice : FromSlice R} {c : MpcClient}
    {build : String → Request} {es : SdkTrace} {reply : Reply R}
    (h : SendTrace p fromSlice c build es (some (.ok reply))) :
    ∃ es' token x, es = es' ++ [⟨.request ⟨.api, build token⟩, x⟩] ∧
      finalResult p fromSlice x = .ok reply := by
  generalize hr : some (Except.ok reply) = r at h
  cases h with
  | noToken h₁ => cases hr
  | tokenPanic h₁ => cases hr
  | once h₁ hfinal => exact ⟨_, _, _, rfl, (Option.some.inj hr).symm⟩
  | noRefresh h₁ hexp h₂ => cases hr
  | refreshPanic h₁ hexp h₂ => cases hr
  | @twice es₁ es₂ token token' x x' h₁ hexp h₂ =>
      refine ⟨es₁ ++ ⟨.request ⟨.api, build token⟩, x⟩ :: es₂, token', x', ?_,
        (Option.some.inj hr).symm⟩
      rw [← List.cons_append, ← List.append_assoc]

/-- A reply is returned where its status is below 400 and its body is of the type. -/
theorem finalResult_eq_ok_iff {R : Type} {p : Platform} {fromSlice : FromSlice R} {x : HttpReply}
    {reply : Reply R} : finalResult p fromSlice x = .ok reply ↔
      ∃ bytes, attempt x = .ok (reply.status, bytes) ∧ reply.status < 400 ∧
        fromSlice bytes = .ok reply.body := by
  obtain ⟨status, body⟩ := reply
  unfold finalResult decode
  cases attempt x with
  | error e => simp
  | ok answer =>
      obtain ⟨status', bytes⟩ := answer
      dsimp only
      split
      · rename_i hstatus
        constructor
        · intro h
          split at h <;> cases h
        · rintro ⟨bytes', h, hlt, -⟩
          cases h
          omega
      · rename_i hstatus
        cases hbody : fromSlice bytes with
        | error e =>
            constructor
            · intro h
              cases h
            · rintro ⟨bytes', h, -, hread⟩
              cases h
              cases hbody.symm.trans hread
        | ok r =>
            constructor
            · intro h
              cases h
              exact ⟨bytes, rfl, by omega, hbody⟩
            · rintro ⟨bytes', h, -, hread⟩
              cases h
              cases hbody.symm.trans hread
              rfl

/-! ### The key as a gateway reads it -/

/-- HTTP allows spaces and tabs around the value of a header field. -/
def isFieldSpace (c : Char) : Bool := c == ' ' || c == '\t'

/-- The value of a header field as it is received. -/
def fieldValue (value : String) : String :=
  String.ofList ((value.toList.dropWhile isFieldSpace).rdropWhile isFieldSpace)

/-- The idempotency key of a request, where `readKey` is how the gateway reads the header's value:
as it is, or as HTTP receives it (`fieldValue`). -/
def idempotencyKeyOf (readKey : String → String) (request : Request) : Option String :=
  (request.headers.lookup headerIdempotencyKey).map readKey

/-! ### The two calls as one family -/

/-- A call that creates a transaction, with its idempotency key if it has one; `serde_json` reads
back the body it writes for the request. -/
structure CreateCall (json : SerdeJson) where
  request : CreateTransactionRequest
  key : Option String
  exact : json.RoundTrips request.serialize

namespace CreateCall

variable {json : SerdeJson} (p : Platform) (c : MpcClient) (call : CreateCall json)

def code : SdkCode (Except Error CreateTransactionResponse) :=
  match call.key with
  | none => (c.createTransaction p json call.request).run
  | some key => (c.createTransactionWithIdempotencyKey p json call.request key).run

def headers : List (String × String) :=
  match call.key with
  | none => []
  | some key => [(headerIdempotencyKey, key)]

/-- The key that a gateway reads of the requests of the call. -/
def wireKey (readKey : String → String) : Option String := call.key.map readKey

/-- The request of an attempt. -/
def build (token : String) : Request :=
  c.postRequest transactionsPath call.headers (json.toVec call.request.serialize) token

theorem idempotencyKeyOf_build (readKey : String → String) (token : String) :
    idempotencyKeyOf readKey (call.build c token) = call.wireKey readKey := by
  obtain ⟨request, key, exact⟩ := call
  cases key with
  | none => rfl
  | some key => rfl

/-- The reply as the call returns it. -/
def respond (reply : Reply CreateTransactionResponse) : CreateTransactionResponse :=
  { reply.body with httpStatus := reply.status, operation := call.request.operation }

/-- Each call sends its request and completes the reply. -/
theorem code_eq : call.code p c =
    ((c.send p (CreateTransactionResponse.fromSlice json) (call.build c)).run >>= fun r =>
      .ret (r.map call.respond)) := by
  have hrun : ∀ headers, (c.createTransactionWithHeaders p json call.request headers).run =
      ((c.send p (CreateTransactionResponse.fromSlice json)
        (c.postRequest transactionsPath headers (json.toVec call.request.serialize))).run >>= fun r =>
          .ret (r.map call.respond)) := by
    intro headers
    refine congrArg ((c.send p _ _).run >>= ·) (funext fun r => ?_)
    cases r <;> rfl
  unfold code build headers
  cases call.key with
  | none => exact hrun []
  | some key => exact hrun [(headerIdempotencyKey, key)]

section traces
variable {p : Platform} {c : MpcClient} {call : CreateCall json} {es : SdkTrace}

/-- Every trace of a call is one of `send`. -/
theorem sendTrace {r : Option (Except Error CreateTransactionResponse)}
    (h : Program.Trace (call.code p c) es r) :
    ∃ r', SendTrace p (CreateTransactionResponse.fromSlice json) c (call.build c) es r' ∧
      r = r'.map (·.map call.respond) := by
  rw [code_eq] at h
  obtain ⟨a, es₁, es₂, h₁, h₂, rfl⟩ | ⟨h₁, rfl⟩ := Program.trace_bind_iff.mp h
  · obtain ⟨rfl, rfl⟩ := Program.trace_ret_iff.mp h₂
    rw [List.append_nil]
    exact ⟨_, send_trace h₁, rfl⟩
  · exact ⟨_, send_trace h₁, rfl⟩

/-- Every attempt of a call is for its request. -/
theorem attempt_build {r : Option (Except Error CreateTransactionResponse)}
    (h : Program.Trace (call.code p c) es r) :
    ∀ x ∈ apiAttempts es, ∃ token, x.1.request = call.build c token := by
  obtain ⟨r', hsend, -⟩ := sendTrace h
  exact hsend.apiAttempts_build

/-- A call that succeeds returns the reply to its last exchange. -/
theorem ends_of_ok {resp : CreateTransactionResponse}
    (h : Program.Trace (call.code p c) es (some (.ok resp))) :
    ∃ es' token x reply, es = es' ++ [⟨.request ⟨.api, call.build c token⟩, x⟩] ∧
      finalResult p (CreateTransactionResponse.fromSlice json) x = .ok reply ∧
        resp = call.respond reply := by
  obtain ⟨r', hsend, hr⟩ := sendTrace h
  cases r' with
  | none => cases hr
  | some r' =>
      cases r' with
      | error e => cases hr
      | ok reply =>
          obtain ⟨es', token, x, hes, hfinal⟩ := hsend.ends_of_ok
          exact ⟨es', token, x, reply, hes, hfinal, Except.ok.inj (Option.some.inj hr)⟩

end traces

end CreateCall

end ParatroSdk
