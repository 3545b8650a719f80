import ParatroSdk.Outcome
import ParatroSdk.ReasonTag
import ParatroSdk.Replies

/-! # Refusals

What a caller finds out about a request that was refused: the accessors and predicates of
`Error` (`src/error.rs`), and the reason tags that this release knows (`src/reason_tag.rs`).

Of the formats in which the gateway refuses a request, six tell more than their kind.  Each but a
rejection tells whether there is a transaction now, so that the reference of the request is used
up, and some name the reason with a tag.  A caller of `create_transaction` whose request was
refused finds both out with the predicates and `reason_tag`, whatever the detail of the refusal
says (`refused_of_call`). -/

namespace ParatroSdk

open Text Interaction SharedCell Sdk

/-! ### Accessors and predicates -/

namespace Error

/-- HTTP status of a gateway or decode error. -/
def status : Error → Option ℕ
  | .api status _ | .decode status _ => some status
  | .http _ | .invalidConfig _ => none

/-- The body of a gateway error. -/
def body : Error → Option ErrorBody
  | .api _ body => some body
  | .http _ | .decode _ _ | .invalidConfig _ => none

def code (e : Error) : Option String := e.body.map ErrorBody.code

def errorType (e : Error) : Option String := e.body.map ErrorBody.errorType

def message (e : Error) : Option String := e.body.map ErrorBody.message

/-- The test that the predicates make. -/
def hasKind (k : ApiErrorKind) (e : Error) : Bool := e.kind == some k

def isRejected : Error → Bool := hasKind .rejected

def isDuplicateReferenceId : Error → Bool := hasKind .duplicateReferenceId

def isUnsupportedOperation : Error → Bool := hasKind .unsupportedOperation

def isInsufficientBalance : Error → Bool := hasKind .insufficientBalance

def isTransactionFailed : Error → Bool := hasKind .transactionFailed

def isTokenExpired : Error → Bool := hasKind .tokenExpired

def isForbidden : Error → Bool := hasKind .forbidden

def isNotFound : Error → Bool := hasKind .notFound

def isEndpointRetired : Error → Bool := hasKind .endpointRetired

def isRateLimited : Error → Bool := hasKind .rateLimited

def isEngineBusy : Error → Bool := hasKind .engineBusy

def isChainRpcUnavailable : Error → Bool := hasKind .chainRpcUnavailable

/-- Any HTTP 503. -/
def isServiceUnavailable (e : Error) : Bool :=
  match e.kind with
  | some .engineBusy | some .chainRpcUnavailable | some .serviceUnavailable => true
  | _ => false

/-- The error is a reply of the gateway with one of the statuses. -/
def hasStatus (statuses : List ℕ) : Error → Bool
  | .api status _ => statuses.contains status
  | _ => false

end Error

/-- `error::is_not_found`. -/
def isNotFound : Error → Bool := Error.hasStatus [404]

/-- `error::is_rate_limited`. -/
def isRateLimited : Error → Bool := Error.hasStatus [429]

/-- `error::is_auth_error`. -/
def isAuthError : Error → Bool := Error.hasStatus [401, 403]

/-! ### The statuses of the kinds -/

namespace ApiErrorKind

/-- The status documented for a kind. -/
def documentedStatus : ApiErrorKind → Option ℕ
  | rejected | duplicateReferenceId | unsupportedOperation | insufficientBalance
  | transactionFailed | badRequest => some 400
  | tokenExpired | unauthorized => some 401
  | forbidden => some 403
  | notFound => some 404
  | conflict => some 409
  | endpointRetired => some 410
  | rateLimited => some 429
  | engineBusy | chainRpcUnavailable | serviceUnavailable => some 503
  | serverError | other => none

def documentedStatuses : List ℕ := [400, 401, 403, 404, 409, 410, 429, 503]

end ApiErrorKind

theorem documentedStatus_kindOfBadRequest (body : ErrorBody) :
    (kindOfBadRequest body).documentedStatus = some 400 := by
  unfold kindOfBadRequest
  split_ifs <;> rfl

theorem documentedStatus_kindOfUnavailable (body : ErrorBody) :
    (kindOfUnavailable body).documentedStatus = some 503 := by
  unfold kindOfUnavailable
  split_ifs <;> rfl

/-- A reply with a documented status has a kind of that status, and no other reply has. -/
theorem documentedStatus_kindOfReply (status : ℕ) (body : ErrorBody) :
    (kindOfReply status body).documentedStatus =
      if status ∈ ApiErrorKind.documentedStatuses then some status else none := by
  unfold kindOfReply
  split
  case h_1 => exact documentedStatus_kindOfBadRequest body
  case h_2 =>
      split <;> rfl
  case h_8 => exact documentedStatus_kindOfUnavailable body
  case h_9 =>
      have hother : status ∉ ApiErrorKind.documentedStatuses := by
        unfold ApiErrorKind.documentedStatuses
        simp_all
      rw [if_neg hother]
      split <;> rfl
  all_goals rfl

/-- The kinds of some documented statuses are those of the replies with these statuses. -/
theorem kind_mem_iff {kinds : List ApiErrorKind} {statuses : List ℕ}
    (hkinds : ∀ k, k ∈ kinds ↔ ∃ s ∈ statuses, k.documentedStatus = some s)
    (hstatuses : ∀ s ∈ statuses, s ∈ ApiErrorKind.documentedStatuses) (e : Error) :
    (∃ k ∈ kinds, e.kind = some k) ↔ e.hasStatus statuses = true := by
  cases e with
  | api status body =>
      have hdoc := documentedStatus_kindOfReply status body
      have hcontains : (Error.api status body).hasStatus statuses = true ↔ status ∈ statuses :=
        List.contains_iff_mem
      rw [hcontains]
      constructor
      · rintro ⟨k, hk, hkind⟩
        cases hkind
        obtain ⟨s, hs, hks⟩ := (hkinds _).mp hk
        rw [hdoc] at hks
        split at hks <;> cases hks
        exact hs
      · intro hs
        rw [if_pos (hstatuses _ hs)] at hdoc
        exact ⟨_, (hkinds _).mpr ⟨status, hs, hdoc⟩, rfl⟩
  | http e => simp [Error.kind, Error.hasStatus]
  | decode status source => simp [Error.kind, Error.hasStatus]
  | invalidConfig msg => simp [Error.kind, Error.hasStatus]

theorem hasKind_iff {k : ApiErrorKind} {e : Error} : e.hasKind k = true ↔ e.kind = some k :=
  beq_iff_eq

/-- A kind that is alone with its status is that of all replies with the status. -/
theorem hasStatus_singleton {s : ℕ} {k : ApiErrorKind} (e : Error)
    (hk : ∀ k', k' ∈ [k] ↔ ∃ s' ∈ [s], k'.documentedStatus = some s')
    (hs : s ∈ ApiErrorKind.documentedStatuses) : e.hasStatus [s] = e.hasKind k := by
  rw [Bool.eq_iff_iff, hasKind_iff, ← kind_mem_iff hk (by simpa using hs) e]
  simp

theorem isServiceUnavailable_iff (e : Error) : e.isServiceUnavailable = true ↔
    ∃ k ∈ [ApiErrorKind.engineBusy, .chainRpcUnavailable, .serviceUnavailable], e.kind = some k := by
  unfold Error.isServiceUnavailable
  split <;> simp_all

/-- The functions of the module ask for the kinds that the methods ask for, and a reply is
reported as unavailable exactly when it is a 503. -/
theorem legacyHelpers (e : Error) : isNotFound e = e.isNotFound ∧
    isRateLimited e = e.isRateLimited ∧
    (isAuthError e = true ↔ e.isTokenExpired = true ∨ e.isForbidden = true ∨
      e.kind = some .unauthorized) ∧
    e.isServiceUnavailable = e.hasStatus [503] := by
  have hkinds : ∀ k : ApiErrorKind,
      (k ∈ [.notFound] ↔ ∃ s ∈ [404], k.documentedStatus = some s) ∧
      (k ∈ [.rateLimited] ↔ ∃ s ∈ [429], k.documentedStatus = some s) ∧
      (k ∈ [.tokenExpired, .forbidden, .unauthorized] ↔
        ∃ s ∈ [401, 403], k.documentedStatus = some s) ∧
      (k ∈ [.engineBusy, .chainRpcUnavailable, .serviceUnavailable] ↔
        ∃ s ∈ [503], k.documentedStatus = some s) := by
    intro k
    cases k <;> simp [ApiErrorKind.documentedStatus]
  refine ⟨hasStatus_singleton e (fun k => (hkinds k).1) (by decide),
    hasStatus_singleton e (fun k => (hkinds k).2.1) (by decide), ?_, ?_⟩
  · unfold isAuthError Error.isTokenExpired Error.isForbidden
    rw [hasKind_iff, hasKind_iff, ← kind_mem_iff (fun k => (hkinds k).2.2.1) (by decide) e]
    simp
  · rw [Bool.eq_iff_iff, isServiceUnavailable_iff,
      kind_mem_iff (fun k => (hkinds k).2.2.2) (by decide) e]

/-! ### The tags of this release -/

namespace reasonTag

def programCallTags : List String :=
  ["account_unresolvable", "alt_not_allowed", "ata_derivation", "counterparty_not_registered",
    "incoming_destination", "limit_daily", "limit_not_configured", "limit_per_transaction",
    "malformed", "mint_not_registered", "mint_program_unknown", "outgoing_authority",
    "outgoing_source", "program_not_allowed", "program_unresolvable", "shape"]

def contractCallTags : List String :=
  ["abi", "amount_not_positive", "calldata", "calldata_not_canonical", "contract_address",
    "counterparty_not_registered", "expiration", "expiration_passed", "expiration_too_far",
    "incoming_from", "limit_not_configured", "limit_per_transaction", "outgoing_to",
    "payment_token_not_registered", "permit_deadline", "permit_deadline_passed",
    "permit_deadline_too_far", "permit_owner", "selector", "target_token_not_registered",
    "value_not_zero"]

def gatewayTags : List String :=
  ["counterparty_signature_invalid", "counterparty_signature_missing", "fee_payer", "limit_daily",
    "limit_decimals_ambiguous", "limit_not_configured", "malformed", "payer_signature_present",
    "policy_invalid", "program_not_allowed", "shape"]

def engineFailureTags : List String :=
  ["alt_not_allowed", "amount_not_positive", "calldata_invalid", "contract_address_invalid",
    "contract_not_registered", "cosignature_invalid", "daily_allowance_missing",
    "daily_usage_unavailable", "internal", "limit_daily", "limit_not_configured",
    "limit_per_transaction", "malformed", "mint_token_program_unresolved", "payer_invalid",
    "payer_mismatch", "permit_deadline_passed", "permit_deadline_too_far",
    "permit_digest_mismatch", "permit_digest_missing", "permit_domain_mismatch",
    "permit_domain_unverified", "permit_owner_mismatch", "permit_params_invalid",
    "permit_spender_mismatch", "permit_token_mismatch", "permit_token_not_registered",
    "permit_value_mismatch", "policy_invalid", "policy_not_authorized", "program_not_allowed",
    "receiver_invalid", "receiver_lookup_failed", "receiver_missing", "receiver_not_ours",
    "request_digest_mismatch", "request_digest_missing", "signer_slot"]

/-- Reports whether the tag is one of those this release knows about. -/
def isKnown (tag : String) : Bool :=
  (programCallTags ++ contractCallTags ++ gatewayTags ++ engineFailureTags).any (· == tag)

theorem isTag_of_isKnown {tag : String} (h : isKnown tag = true) : IsTag tag := by
  have hall : ∀ t ∈ programCallTags ++ contractCallTags ++ gatewayTags ++ engineFailureTags,
      isReasonTag t = true := by decide +kernel
  obtain ⟨t, ht, heq⟩ := List.any_eq_true.mp h
  rw [← beq_iff_eq.mp heq]
  exact isReasonTag_iff.mp (hall t ht)

end reasonTag

/-- The text of a reason tag. -/
structure Tag where
  text : String
  isTag : IsTag text

/-- A tag that this release knows. -/
def Tag.known (text : String) (h : reasonTag.isKnown text = true) : Tag :=
  ⟨text, reasonTag.isTag_of_isKnown h⟩

/-! ### The formats of a refusal -/

/-- How a request to create a transaction is refused: a check refused it, there is a failed
transaction with or without a told reason, the signing service was busy, a chain could not be
read, or the gateway does not offer the operation. -/
inductive Refusal where
  | rejected (tag : Tag) (detail : String)
  | failed (tag : Tag)
  | failedInternally
  | engineBusy
  | chainRpcUnavailable
  | notEnabled

namespace Refusal

/-- What stands for a reason that is not told. -/
def engineRejected : String := "engine rejected the transaction"

def notEnabledMarker : String := " is not enabled on this gateway"

def tag : Refusal → Option String
  | rejected tag _ | failed tag => some tag.text
  | _ => none

/-- Whether there is a transaction now.  A rejection does not tell: a contract call is verified
again after its transaction was created. -/
def created : Refusal → Option Bool
  | rejected _ _ => none
  | failed _ | failedInternally | engineBusy => some true
  | chainRpcUnavailable | notEnabled => some false

def kind : Refusal → ApiErrorKind
  | rejected _ _ => .rejected
  | failed _ | failedInternally => .transactionFailed
  | engineBusy => .engineBusy
  | chainRpcUnavailable => .chainRpcUnavailable
  | notEnabled => .serviceUnavailable

def status : Refusal → ℕ
  | rejected _ _ | failed _ | failedInternally => 400
  | engineBusy | chainRpcUnavailable | notEnabled => 503

def codeText : Refusal → String
  | rejected _ _ => code.invalidParameter
  | failed _ | failedInternally => code.transactionFailed
  | engineBusy | chainRpcUnavailable | notEnabled => code.serviceUnavailable

def message (operation : String) : Refusal → String
  | rejected tag detail => rejectedMessagePrefix ++ tag.text ++ ": " ++ detail
  | failed tag => operation ++ failedMarker ++ tag.text
  | failedInternally => operation ++ failedMarker ++ engineRejected
  | engineBusy => engineBusyMessage
  | chainRpcUnavailable => chainRpcUnavailableMessage
  | notEnabled => operation ++ notEnabledMarker

/-- The error body of the gateway. -/
def body (operation errorType : String) (refusal : Refusal) : ErrorBody :=
  ⟨refusal.codeText, errorType, refusal.message operation⟩

theorem le_status (refusal : Refusal) : 400 ≤ refusal.status := by
  cases refusal <;> simp [status]

end Refusal

/-! ### The names of the operations -/

theorem colon_notMem_operation (req : CreateTransactionRequest) : ':' ∉ req.operation.toList := by
  have hall : ∀ op ∈ operations, ':' ∉ op.toList := by decide
  exact hall _ (operation_mem req)

/-- A text that begins with the name of an operation does not begin like one that decides the
kind. -/
theorem not_startsWith_operation (req : CreateTransactionRequest) (rest : String) {p : String}
    (hp : p ∈ [duplicateReferenceIdPrefix, unsupportedOperationPrefix, engineBusyMessage,
      chainRpcUnavailableMessage]) : startsWith (req.operation ++ rest) p = false := by
  have hall : ∀ op ∈ operations, ∀ p ∈ [duplicateReferenceIdPrefix, unsupportedOperationPrefix,
      engineBusyMessage, chainRpcUnavailableMessage],
        ¬ (op.toList <+: p.toList ∨ p.toList <+: op.toList) := by decide
  rw [Bool.eq_false_iff]
  intro h
  have htotal := prefix_total_of_startsWith (startsWith_append req.operation rest) h
  exact hall _ (operation_mem req) p hp htotal

theorem append_operation_ne (req : CreateTransactionRequest) (rest : String) {m : String}
    (hm : m ∈ [engineBusyMessage, chainRpcUnavailableMessage]) : req.operation ++ rest ≠ m := by
  intro h
  have hstart : startsWith (req.operation ++ rest) m = true := by
    rw [h]
    exact startsWith_iff.mpr (List.prefix_refl _)
  rw [not_startsWith_operation req rest (by simp_all)] at hstart
  cases hstart

/-! ### Reading a refusal -/

section reading
variable (req : CreateTransactionRequest) (errorType : String)

theorem kind_failed (rest : String) :
    kindOfBadRequest ⟨code.transactionFailed, errorType, req.operation ++ failedMarker ++ rest⟩ =
      .transactionFailed := by
  have hrejected :
      startsWith (req.operation ++ failedMarker ++ rest) rejectedMessagePrefix = false :=
    not_rejected_of_colon_notMem (colon_notMem_operation req)
  have hduplicate := not_startsWith_operation req (failedMarker ++ rest)
    (p := duplicateReferenceIdPrefix) (by simp)
  have hunsupported := not_startsWith_operation req (failedMarker ++ rest)
    (p := unsupportedOperationPrefix) (by simp)
  rw [← String.append_assoc] at hduplicate hunsupported
  have hcode : code.transactionFailed ≠ code.insufficientBalance := by decide
  unfold kindOfBadRequest
  rw [hrejected, hduplicate, hunsupported]
  simp [hcode]

theorem tagText_failed (rest : String) :
    tagText ⟨code.transactionFailed, errorType, req.operation ++ failedMarker ++ rest⟩ =
      some rest :=
  tagText_eq_some_iff.mpr (.inr ⟨rfl, not_rejected_of_colon_notMem (colon_notMem_operation req),
    followsFirst_of_colon_notMem (colon_notMem_operation req)⟩)

/-- Each format is classified as it is meant. -/
theorem kind_refusal (refusal : Refusal) :
    kindOfReply refusal.status (refusal.body req.operation errorType) = refusal.kind := by
  cases refusal with
  | rejected tag detail =>
      have hstart : startsWith (Refusal.message req.operation (.rejected tag detail))
          rejectedMessagePrefix = true := by
        simp only [Refusal.message, String.append_assoc]
        exact startsWith_append _ _
      exact if_pos hstart
  | failed tag => exact kind_failed req errorType tag.text
  | failedInternally => exact kind_failed req errorType Refusal.engineRejected
  | engineBusy => rfl
  | chainRpcUnavailable => rfl
  | notEnabled =>
      have hbusy := append_operation_ne req Refusal.notEnabledMarker
        (m := engineBusyMessage) (by simp)
      have hrpc := append_operation_ne req Refusal.notEnabledMarker
        (m := chainRpcUnavailableMessage) (by simp)
      show kindOfUnavailable _ = _
      unfold kindOfUnavailable Refusal.body Refusal.message
      rw [if_neg hbusy, if_neg hrpc]
      rfl

/-- The tag of a refusal is read back, and no other text is taken for one. -/
theorem reasonTag_refusal (refusal : Refusal) :
    (Error.api refusal.status (refusal.body req.operation errorType)).reasonTag = refusal.tag := by
  cases refusal with
  | rejected tag detail =>
      refine reasonTag_eq_some_iff.mpr ⟨_, tag.text ++ ": " ++ detail, rfl, .inl ?_, tag.isTag,
        tag.text, ⟨tag.isTag.colon_notMem, .inr ⟨" " ++ detail, ?_⟩⟩, padded_self tag.text⟩
      · unfold AfterRejected Refusal.body Refusal.message
        simp only [String.append_assoc]
      · have hcolon : ": " = ":" ++ " " := rfl
        rw [hcolon, String.append_assoc, String.append_assoc, String.append_assoc]
  | failed tag =>
      have htext := tagText_eq_some_iff.mp (tagText_failed req errorType tag.text)
      exact reasonTag_eq_some_iff.mpr ⟨_, tag.text, rfl, htext, tag.isTag, tag.text,
        ⟨tag.isTag.colon_notMem, .inl rfl⟩, padded_self tag.text⟩
  | failedInternally =>
      have hno : isReasonTag (trim (beforeFirst Refusal.engineRejected ':')) = false := by decide
      show (Error.api 400 _).reasonTag = none
      unfold Refusal.body Refusal.codeText Refusal.message
      rw [reasonTag_api, tagText_failed, Option.bind_some, hno]
      rfl
  | engineBusy => rfl
  | chainRpcUnavailable => rfl
  | notEnabled => rfl

end reading

/-- What the caller makes of a refusal. -/
structure ReadBack (refusal : Refusal) (e : Error) : Prop where
  kind : e.kind = some refusal.kind
  tag : e.reasonTag = refusal.tag
  created : (e.isTransactionFailed || e.isEngineBusy) = (refusal.created == some true)
  notCreated : (e.isServiceUnavailable && !e.isEngineBusy) = (refusal.created == some false)
  untold : e.isRejected = refusal.created.isNone

theorem readBack (req : CreateTransactionRequest) (errorType : String) (refusal : Refusal) :
    ReadBack refusal (.api refusal.status (refusal.body req.operation errorType)) := by
  have hkind : (Error.api refusal.status (refusal.body req.operation errorType)).kind =
      some refusal.kind := congrArg some (kind_refusal req errorType refusal)
  refine ⟨hkind, reasonTag_refusal req errorType refusal, ?_, ?_, ?_⟩
  · unfold Error.isTransactionFailed Error.isEngineBusy Error.hasKind
    rw [hkind]
    cases refusal <;> rfl
  · unfold Error.isServiceUnavailable Error.isEngineBusy Error.hasKind
    rw [hkind]
    cases refusal <;> rfl
  · unfold Error.isRejected Error.hasKind
    rw [hkind]
    cases refusal <;> rfl

/-- **A caller whose request to create a transaction was refused finds out what the refusal tells:
whether there is a transaction now, and the tag.** -/
theorem refused_of_call {json : SerdeJson} {p : Platform} {c : MpcClient} {call : CreateCall json}
    {es : SdkTrace} {r : Option (Except Error CreateTransactionResponse)} {request : Request}
    {bytes : Bytes} {refusal : Refusal} {errorType : String}
    (h : Program.Trace (call.code p c) es r)
    (hlast : (http es).getLast? = some (⟨.api, request⟩, .ok ⟨refusal.status, .ok bytes⟩))
    (hbody : p.errorBody bytes = .ok (refusal.body call.request.operation errorType)) :
    ∃ e, r = some (.error e) ∧ ReadBack refusal e := by
  obtain ⟨r', hsend, hr⟩ := CreateCall.sendTrace h
  obtain ⟨body, hdecode, hok, -⟩ := decode_of_ge (p := p)
    (CreateTransactionResponse.fromSlice json) bytes refusal.le_status
  refine ⟨.api refusal.status (refusal.body call.request.operation errorType), ?_,
    readBack call.request errorType refusal⟩
  rw [hr, hsend.result_of_last hlast, hdecode, hok _ hbody]
  rfl

/-! ### A rejected swap -/

def rejectedJson : String :=
  "\x7b\"code\":\"invalid_parameter\",\"type\":\"invalid_request_error\"" ++
    ",\"message\":\"Rejected: limit_daily: TRANSFER failed: shape\"\x7d"

/-- A rejection whose detail reads like a failed transaction. -/
def testRefusal : Refusal := .rejected (.known "limit_daily" (by decide)) "TRANSFER failed: shape"

def refusingPlatform : Platform :=
  { testPlatform with
    errorBody := fun bytes =>
      if bytes = utf8 rejectedJson then
        .ok (testRefusal.body operationProgramCall "invalid_request_error")
      else testPlatform.errorBody bytes }

/-- The swap is rejected. -/
def refusedRun : SdkTrace × Option (Except Error CreateTransactionResponse) :=
  (swapWithoutKey.code refusingPlatform testClient).play
    (alone (some ⟨"token-0", Duration.fromSecs 2000⟩) (Duration.fromSecs 1000)
      [.text 400 rejectedJson]) []

set_option maxRecDepth 8000 in
theorem refused_refusedRun : ∃ e, refusedRun.2 = some (.error e) ∧ ReadBack testRefusal e := by
  have hbody : refusingPlatform.errorBody (utf8 rejectedJson) =
      .ok (testRefusal.body operationProgramCall "invalid_request_error") := by
    unfold refusingPlatform
    dsimp only
    rw [if_pos (Eq.refl (utf8 rejectedJson))]
  have ht : Program.Trace (swapWithoutKey.code refusingPlatform testClient) refusedRun.1 refusedRun.2 :=
    Program.trace_play _ _ _
  have hlast : (http refusedRun.1).getLast? = some (⟨.api, swapWithoutKey.build testClient "token-0"⟩,
      .ok ⟨testRefusal.status, .ok (utf8 rejectedJson)⟩) := rfl
  exact refused_of_call ht hlast hbody

end ParatroSdk
