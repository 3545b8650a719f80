import ParatroSdk.Lib.Text

/-! # Errors of the SDK and their classification

`ErrorBody`, `Error` and `ApiErrorKind` follow `src/error.rs`, as does `Error.kind`, the
ordered chain of tests that classifies a gateway reply by status, code and message.

The variants of `ApiErrorKind` are documented there as conjunctions: a 400 with code
`invalid_parameter` whose message has a prefix, a 503 with code `service_unavailable` and
one exact message, and so on.  `ClassifiedAsDocumented` states that table for one reply.
The chain looks at the message of a 400 and of a 503 without looking at the code, so it
follows the table only on the replies where the prefix or the message comes with the
documented code (`classifiedAsDocumented_iff`). -/

namespace ParatroSdk

open Text

/-- A `reqwest::Error`: opaque, apart from its text. -/
structure ReqwestError where
  description : String
deriving DecidableEq, Repr

/-- A `serde_json::Error`: opaque, apart from its text. -/
structure SerdeJsonError where
  description : String
deriving DecidableEq, Repr

/-- The API error response body. -/
structure ErrorBody where
  code : String
  errorType : String
  message : String
deriving DecidableEq, Repr

/-! ### Codes, prefixes and messages of the gateway -/

namespace code

def invalidParameter : String := "invalid_parameter"
def tokenExpired : String := "token_expired"
def serviceUnavailable : String := "service_unavailable"
def insufficientBalance : String := "insufficient_balance"
def transactionFailed : String := "transaction_failed"

end code

def rejectedMessagePrefix : String := "Rejected: "
def duplicateReferenceIdPrefix : String := "Duplicate reference_id"
def unsupportedOperationPrefix : String := "Unsupported operation"
def engineBusyMessage : String := "Signing service is busy, retry later"
def chainRpcUnavailableMessage : String := "Chain RPC unavailable; cannot verify request"

/-- SDK error type. -/
inductive Error where
  | api (status : ℕ) (body : ErrorBody)
  | http (e : ReqwestError)
  | decode (status : ℕ) (source : SerdeJsonError)
  | invalidConfig (msg : String)
deriving DecidableEq, Repr

/-- Machine-readable classification of an `Error.api`. -/
inductive ApiErrorKind where
  | rejected
  | duplicateReferenceId
  | unsupportedOperation
  | insufficientBalance
  | transactionFailed
  | badRequest
  | tokenExpired
  | unauthorized
  | forbidden
  | notFound
  | conflict
  | endpointRetired
  | rateLimited
  | engineBusy
  | chainRpcUnavailable
  | serviceUnavailable
  | serverError
  | other
deriving DecidableEq, Repr

namespace ApiErrorKind

/-- The kinds that are told from others of the same status by the code or the message. -/
def messageDependent : ApiErrorKind → Bool
  | rejected | duplicateReferenceId | unsupportedOperation | insufficientBalance
  | transactionFailed | tokenExpired | engineBusy | chainRpcUnavailable => true
  | _ => false

end ApiErrorKind

/-- The arm of `Error::kind` for status 400. -/
def kindOfBadRequest (body : ErrorBody) : ApiErrorKind :=
  if startsWith body.message rejectedMessagePrefix then .rejected
  else if startsWith body.message duplicateReferenceIdPrefix then .duplicateReferenceId
  else if startsWith body.message unsupportedOperationPrefix then .unsupportedOperation
  else if body.code = code.insufficientBalance then .insufficientBalance
  else if body.code = code.transactionFailed then .transactionFailed
  else .badRequest

/-- The arms of `Error::kind` for status 503. -/
def kindOfUnavailable (body : ErrorBody) : ApiErrorKind :=
  if body.message = engineBusyMessage then .engineBusy
  else if body.message = chainRpcUnavailableMessage then .chainRpcUnavailable
  else .serviceUnavailable

/-- The `match` of `Error::kind` on the status of a gateway reply. -/
def kindOfReply (status : ℕ) (body : ErrorBody) : ApiErrorKind :=
  match status with
  | 400 => kindOfBadRequest body
  | 401 => if body.code = code.tokenExpired then .tokenExpired else .unauthorized
  | 403 => .forbidden
  | 404 => .notFound
  | 409 => .conflict
  | 410 => .endpointRetired
  | 429 => .rateLimited
  | 503 => kindOfUnavailable body
  | s => if 500 ≤ s ∧ s ≤ 599 then .serverError else .other

/-- Classifies an `Error.api`; transport, decode and config errors have no kind. -/
def Error.kind : Error → Option ApiErrorKind
  | .api status body => some (kindOfReply status body)
  | _ => none

@[simp] theorem Error.kind_api (status : ℕ) (body : ErrorBody) :
    (Error.api status body).kind = some (kindOfReply status body) := rfl

@[simp] theorem kindOfReply_400 (body : ErrorBody) : kindOfReply 400 body = kindOfBadRequest body := rfl

/-! ### The documented table -/

namespace ApiErrorKind

/-- The message prefix documented for a 400 `invalid_parameter` kind. -/
def documentedPrefix : ApiErrorKind → Option String
  | rejected => some rejectedMessagePrefix
  | duplicateReferenceId => some duplicateReferenceIdPrefix
  | unsupportedOperation => some unsupportedOperationPrefix
  | _ => none

/-- The code documented for a 400 kind that any message may carry. -/
def documentedCode : ApiErrorKind → Option String
  | insufficientBalance => some code.insufficientBalance
  | transactionFailed => some code.transactionFailed
  | _ => none

/-- The exact message documented for a 503 `service_unavailable` kind. -/
def documentedMessage : ApiErrorKind → Option String
  | engineBusy => some engineBusyMessage
  | chainRpcUnavailable => some chainRpcUnavailableMessage
  | _ => none

end ApiErrorKind

/-- The message has one of the three documented prefixes of a 400. -/
def HasDocumentedPrefix (message : String) : Prop :=
  ∃ k p, ApiErrorKind.documentedPrefix k = some p ∧ startsWith message p = true

/-- The message is one of the two documented messages of a 503. -/
def HasDocumentedMessage (message : String) : Prop :=
  ∃ k, ApiErrorKind.documentedMessage k = some message

/-- The reply is classified by the documented (status, code, message) table. -/
structure ClassifiedAsDocumented (status : ℕ) (body : ErrorBody) : Prop where
  byPrefix : ∀ k p, ApiErrorKind.documentedPrefix k = some p →
    (Error.api status body).kind = some k →
      status = 400 ∧ body.code = code.invalidParameter ∧ startsWith body.message p = true
  byCode : ∀ k c, ApiErrorKind.documentedCode k = some c → status = 400 → body.code = c →
    (Error.api status body).kind = some k
  byMessage : ∀ k m, ApiErrorKind.documentedMessage k = some m →
    (Error.api status body).kind = some k →
      status = 503 ∧ body.code = code.serviceUnavailable ∧ body.message = m
  otherwise : status = 400 →
    ¬ (body.code = code.invalidParameter ∧ HasDocumentedPrefix body.message) →
    (∀ k c, ApiErrorKind.documentedCode k = some c → body.code ≠ c) →
      (Error.api status body).kind = some .badRequest

/-- Which statuses a kind that depends on the message can come from. -/
theorem status_of_kind {status : ℕ} {body : ErrorBody} {k : ApiErrorKind}
    (h : kindOfReply status body = k) (hk : k.messageDependent = true) :
    (status = 400 ∧ kindOfBadRequest body = k) ∨ (status = 503 ∧ kindOfUnavailable body = k) ∨
      (status = 401 ∧ body.code = code.tokenExpired ∧ k = .tokenExpired) := by
  unfold kindOfReply at h
  split at h
  case h_1 => exact .inl ⟨rfl, h⟩
  case h_2 =>
      split at h
      · rename_i hc
        exact .inr (.inr ⟨rfl, hc, h.symm⟩)
      · rw [← h] at hk
        cases hk
  case h_8 => exact .inr (.inl ⟨rfl, h⟩)
  case h_9 =>
      split at h <;> rw [← h] at hk <;> cases hk
  all_goals
    rw [← h] at hk
    cases hk

/-- Every kind with a documented prefix or message tells replies of one status apart. -/
theorem messageDependent_of_documented {k : ApiErrorKind} {p : String}
    (h : k.documentedPrefix = some p ∨ k.documentedMessage = some p) : k.messageDependent = true := by
  cases k <;> simp_all [ApiErrorKind.documentedPrefix, ApiErrorKind.documentedMessage,
    ApiErrorKind.messageDependent]

/-! ### What each arm of the chain computes -/

theorem kindOfBadRequest_cases (body : ErrorBody) :
    (∃ p, (kindOfBadRequest body).documentedPrefix = some p ∧ startsWith body.message p = true) ∨
      (¬ HasDocumentedPrefix body.message ∧
        kindOfBadRequest body =
          if body.code = code.insufficientBalance then .insufficientBalance
          else if body.code = code.transactionFailed then .transactionFailed
          else .badRequest) := by
  unfold kindOfBadRequest
  split
  · rename_i h; exact .inl ⟨_, rfl, h⟩
  split
  · rename_i h; exact .inl ⟨_, rfl, h⟩
  split
  · rename_i h; exact .inl ⟨_, rfl, h⟩
  rename_i h₁ h₂ h₃
  refine .inr ⟨?_, rfl⟩
  rintro ⟨k, p, hk, hp⟩
  unfold ApiErrorKind.documentedPrefix at hk
  split at hk
  · cases hk; exact h₁ hp
  · cases hk; exact h₂ hp
  · cases hk; exact h₃ hp
  · cases hk

/-- A kind that the code decides has no documented prefix. -/
theorem documentedPrefix_of_code (body : ErrorBody) :
    (if body.code = code.insufficientBalance then ApiErrorKind.insufficientBalance
      else if body.code = code.transactionFailed then .transactionFailed
      else .badRequest).documentedPrefix = none := by
  split
  · rfl
  · split <;> rfl

theorem startsWith_of_kindOfBadRequest {body : ErrorBody} {k : ApiErrorKind} {p : String}
    (h : kindOfBadRequest body = k) (hk : k.documentedPrefix = some p) :
    startsWith body.message p = true := by
  subst h
  obtain ⟨q, hq, hs⟩ | ⟨-, he⟩ := kindOfBadRequest_cases body
  · rw [hk] at hq
    cases hq
    exact hs
  · rw [he, documentedPrefix_of_code] at hk
    cases hk

theorem message_of_kindOfUnavailable {body : ErrorBody} {k : ApiErrorKind} {m : String}
    (h : kindOfUnavailable body = k) (hk : k.documentedMessage = some m) : body.message = m := by
  unfold kindOfUnavailable at h
  split at h
  · rename_i hm; subst h; cases hk; exact hm
  split at h
  · rename_i hm; subst h; cases hk; exact hm
  · subst h; cases hk

theorem documentedMessage_kindOfUnavailable {body : ErrorBody}
    (h : HasDocumentedMessage body.message) :
    (kindOfUnavailable body).documentedMessage = some body.message := by
  obtain ⟨k, hk⟩ := h
  unfold kindOfUnavailable
  split
  · rename_i hm; rw [hm]; rfl
  split
  · rename_i hm; rw [hm]; rfl
  · rename_i h₁ h₂
    unfold ApiErrorKind.documentedMessage at hk
    split at hk
    · exact absurd (Option.some.inj hk).symm h₁
    · exact absurd (Option.some.inj hk).symm h₂
    · cases hk

/-- The tests for the 503 messages and for the 400 prefixes meet disjoint kinds. -/
theorem documentedPrefix_kindOfUnavailable (body : ErrorBody) :
    (kindOfUnavailable body).documentedPrefix = none := by
  unfold kindOfUnavailable
  split
  · rfl
  · split <;> rfl

theorem documentedMessage_kindOfBadRequest (body : ErrorBody) :
    (kindOfBadRequest body).documentedMessage = none := by
  obtain ⟨p, hp, -⟩ | ⟨-, he⟩ := kindOfBadRequest_cases body
  · unfold ApiErrorKind.documentedPrefix at hp
    split at hp <;> simp_all [ApiErrorKind.documentedMessage]
  · rw [he]
    split
    · rfl
    · split <;> rfl

/-! ### Where the chain follows the table -/

/-- A documented prefix or message comes with its documented code. -/
def DocumentedCode (status : ℕ) (body : ErrorBody) : Prop :=
  (status = 400 → HasDocumentedPrefix body.message → body.code = code.invalidParameter) ∧
    (status = 503 → HasDocumentedMessage body.message → body.code = code.serviceUnavailable)

/-- **The classification follows the documented table exactly on the replies whose
documented prefix or message comes with the documented code.** -/
theorem classifiedAsDocumented_iff (status : ℕ) (body : ErrorBody) :
    ClassifiedAsDocumented status body ↔ DocumentedCode status body := by
  constructor
  · intro h
    constructor
    · rintro rfl hp
      obtain ⟨p, hp, -⟩ | ⟨hn, -⟩ := kindOfBadRequest_cases body
      · exact (h.byPrefix _ p hp rfl).2.1
      · exact absurd hp hn
    · rintro rfl hm
      exact (h.byMessage _ _ (documentedMessage_kindOfUnavailable hm) rfl).2.1
  · rintro ⟨h400, h503⟩
    refine ⟨?_, ?_, ?_, ?_⟩
    · intro k p hk hkind
      have hkind' := Option.some.inj hkind
      rcases status_of_kind hkind' (messageDependent_of_documented (.inl hk)) with
        ⟨rfl, hb⟩ | ⟨-, hb⟩ | ⟨-, -, rfl⟩
      · have hs := startsWith_of_kindOfBadRequest hb hk
        exact ⟨rfl, h400 rfl ⟨k, p, hk, hs⟩, hs⟩
      · rw [← hb, documentedPrefix_kindOfUnavailable] at hk
        cases hk
      · cases hk
    · rintro k c hk rfl hc
      have hno : ¬ HasDocumentedPrefix body.message := by
        intro hp
        have hinv := h400 rfl hp
        rw [hc] at hinv
        unfold ApiErrorKind.documentedCode at hk
        split at hk <;> cases hk <;> exact absurd hinv (by decide)
      obtain ⟨p, hp, hs⟩ | ⟨-, he⟩ := kindOfBadRequest_cases body
      · exact absurd ⟨_, p, hp, hs⟩ hno
      · rw [Error.kind_api, kindOfReply_400, he, hc]
        unfold ApiErrorKind.documentedCode at hk
        split at hk <;> cases hk <;> rfl
    · intro k m hk hkind
      have hkind' := Option.some.inj hkind
      rcases status_of_kind hkind' (messageDependent_of_documented (.inr hk)) with
        ⟨-, hb⟩ | ⟨rfl, hb⟩ | ⟨-, -, rfl⟩
      · rw [← hb, documentedMessage_kindOfBadRequest] at hk
        cases hk
      · have hm := message_of_kindOfUnavailable hb hk
        exact ⟨rfl, h503 rfl ⟨k, by rw [hm, hk]⟩, hm⟩
      · cases hk
    · rintro rfl hno hcodes
      have h₁ := hcodes .insufficientBalance _ rfl
      have h₂ := hcodes .transactionFailed _ rfl
      obtain ⟨p, hp, hs⟩ | ⟨-, he⟩ := kindOfBadRequest_cases body
      · exact absurd ⟨h400 rfl ⟨_, p, hp, hs⟩, _, p, hp, hs⟩ hno
      · rw [Error.kind_api, kindOfReply_400, he, if_neg h₁, if_neg h₂]

/-- An insufficient balance reported in the words of a rejection is not classified by its code. -/
theorem not_classifiedAsDocumented_rejected_balance :
    ¬ ClassifiedAsDocumented 400
      ⟨"insufficient_balance", "business_error", "Rejected: limit_daily: over the limit"⟩ := by
  intro h
  have := h.byCode .insufficientBalance _ rfl rfl rfl
  exact absurd this (by decide)

end ParatroSdk
