import ParatroSdk.Wire

/-! # Webhook events

`parse_event` of `src/webhook.rs` and the records it reads.  The fields of an event differ in
what an absent member means: an error, `None`, or an empty text; and of those that may be
absent only `swap_incoming`, and in it `reason` and `audit_type`, are skipped when `None`.

`parseEvent_stableUnderDrift` says that an event survives being written and read again, and
that senders with an older or a newer schema are understood (`Drifted`).  A risk score that is
not finite is the only value that is lost (`deserialize_serialize_iff`). -/

namespace ParatroSdk

open Serde Json Text

/-- The leg the counterparty paid in a swap. -/
structure SwapIncoming where
  tokenAddress : String
  symbol : String
  amount : String
  decimals : Int32
  booked : Bool
  accountingStatus : String
  reason : Option String
  auditType : Option String
deriving DecidableEq

/-- A parsed webhook event payload (v2 schema). -/
structure WebhookEvent where
  eventId : String
  eventType : String
  eventTime : String
  sourceId : String
  walletId : String
  accountId : String
  status : String
  transactionType : String
  chain : String
  network : String
  txhash : String
  blockNumber : UInt64
  «from» : String
  «to» : String
  symbol : String
  contractAddress : String
  amount : String
  decimals : Int32
  confirmations : UInt64
  requiredConfirmations : UInt64
  createdAt : String
  confirmedAt : Option String
  riskChecked : Bool
  riskScore : F64
  riskLevel : String
  data : String
  operation : String
  swapIncoming : Option SwapIncoming
deriving DecidableEq

/-! ### Codecs -/

namespace SwapIncoming

def reasonField : Serde.Field (Option String) := .optional "reason" .string
def auditTypeField : Serde.Field (Option String) := .optional "audit_type" .string

def record : Record SwapIncoming where
  Row := _
  fields := .cons (.required "token_address" .string) <| .cons (.required "symbol" .string) <|
    .cons (.required "amount" .string) <| .cons (.required "decimals" .int32) <|
    .cons (.required "booked" .bool) <| .cons (.required "accounting_status" .string) <|
    .cons reasonField <| .cons auditTypeField .nil
  toRow s := (s.tokenAddress, s.symbol, s.amount, s.decimals, s.booked, s.accountingStatus,
    s.reason, s.auditType, ())
  ofRow := fun (tokenAddress, symbol, amount, decimals, booked, accountingStatus, reason,
    auditType, ()) =>
    { tokenAddress, symbol, amount, decimals, booked, accountingStatus, reason, auditType }
  ofRow_toRow _ := rfl
  toRow_ofRow _ := rfl
  distinct := by decide +kernel

def serialize (s : SwapIncoming) : Json := record.encode s

def deserialize (j : Json) : Option SwapIncoming := record.decode j

theorem has_reason : record.Has reasonField (·.reason) fun s v => { s with reason := v } :=
  ⟨_, _, by repeat (first | exact .head _ | apply Fields.At.tail), fun _ => rfl, fun _ _ => rfl⟩

theorem has_auditType :
    record.Has auditTypeField (·.auditType) fun s v => { s with auditType := v } :=
  ⟨_, _, by repeat (first | exact .head _ | apply Fields.At.tail), fun _ => rfl, fun _ _ => rfl⟩

theorem ok (s : SwapIncoming) : record.Ok s :=
  ⟨trivial, trivial, trivial, trivial, trivial, trivial, Codec.ok_option_string _,
    Codec.ok_option_string _, trivial⟩

theorem serialize_ne_null (s : SwapIncoming) : s.serialize ≠ .null := nofun

theorem unordered : Unordered deserialize :=
  Record.decode_unordered ⟨Codec.unordered_string, Codec.unordered_string, Codec.unordered_string,
    Codec.unordered_int32, Codec.unordered_bool, Codec.unordered_string,
    Codec.unordered_option Codec.unordered_string, Codec.unordered_option Codec.unordered_string,
    trivial⟩

end SwapIncoming

namespace WebhookEvent

def operationField : Serde.Field String := .defaulted "operation" .string "" trivial

def swapIncomingField : Serde.Field (Option SwapIncoming) :=
  .optional "swap_incoming" SwapIncoming.record.codec

def record : Record WebhookEvent where
  Row := _
  fields := .cons (.required "event_id" .string) <| .cons (.required "event_type" .string) <|
    .cons (.required "event_time" .string) <| .cons (.required "source_id" .string) <|
    .cons (.required "wallet_id" .string) <| .cons (.required "account_id" .string) <|
    .cons (.required "status" .string) <| .cons (.required "transaction_type" .string) <|
    .cons (.required "chain" .string) <| .cons (.required "network" .string) <|
    .cons (.required "txhash" .string) <| .cons (.required "block_number" .uint64) <|
    .cons (.required "from" .string) <| .cons (.required "to" .string) <|
    .cons (.required "symbol" .string) <| .cons (.required "contract_address" .string) <|
    .cons (.required "amount" .string) <| .cons (.required "decimals" .int32) <|
    .cons (.required "confirmations" .uint64) <|
    .cons (.required "required_confirmations" .uint64) <|
    .cons (.required "created_at" .string) <| .cons (.nullable "confirmed_at" .string) <|
    .cons (.required "risk_checked" .bool) <| .cons (.required "risk_score" .float64) <|
    .cons (.required "risk_level" .string) <| .cons (.required "data" .string) <|
    .cons operationField <| .cons swapIncomingField .nil
  toRow e := (e.eventId, e.eventType, e.eventTime, e.sourceId, e.walletId, e.accountId, e.status,
    e.transactionType, e.chain, e.network, e.txhash, e.blockNumber, e.from, e.to, e.symbol,
    e.contractAddress, e.amount, e.decimals, e.confirmations, e.requiredConfirmations,
    e.createdAt, e.confirmedAt, e.riskChecked, e.riskScore, e.riskLevel, e.data, e.operation,
    e.swapIncoming, ())
  ofRow := fun (eventId, eventType, eventTime, sourceId, walletId, accountId, status,
    transactionType, chain, network, txhash, blockNumber, «from», «to», symbol, contractAddress,
    amount, decimals, confirmations, requiredConfirmations, createdAt, confirmedAt, riskChecked,
    riskScore, riskLevel, data, operation, swapIncoming, ()) =>
    { eventId, eventType, eventTime, sourceId, walletId, accountId, status, transactionType,
      chain, network, txhash, blockNumber, «from», «to», symbol, contractAddress, amount, decimals,
      confirmations, requiredConfirmations, createdAt, confirmedAt, riskChecked, riskScore,
      riskLevel, data, operation, swapIncoming }
  ofRow_toRow _ := rfl
  toRow_ofRow _ := rfl
  distinct := by decide +kernel

def serialize (e : WebhookEvent) : Json := record.encode e

def deserialize (j : Json) : Option WebhookEvent := record.decode j

theorem has_riskScore : record.Has (.required "risk_score" .float64) (·.riskScore)
    fun e v => { e with riskScore := v } :=
  ⟨_, _, by repeat (first | exact .head _ | apply Fields.At.tail), fun _ => rfl, fun _ _ => rfl⟩

theorem has_operation :
    record.Has operationField (·.operation) fun e v => { e with operation := v } :=
  ⟨_, _, by repeat (first | exact .head _ | apply Fields.At.tail), fun _ => rfl, fun _ _ => rfl⟩

theorem has_swapIncoming :
    record.Has swapIncomingField (·.swapIncoming) fun e v => { e with swapIncoming := v } :=
  ⟨_, _, by repeat (first | exact .head _ | apply Fields.At.tail), fun _ => rfl, fun _ _ => rfl⟩

/-- Only the risk score can be lost. -/
theorem ok_iff {e : WebhookEvent} : record.Ok e ↔ e.riskScore.isFinite = true := by
  refine ⟨has_riskScore.ok, fun h => ?_⟩
  have hconfirmed := Codec.ok_option_string e.confirmedAt
  have hswap : SwapIncoming.record.codec.option.Ok e.swapIncoming :=
    Codec.ok_option (fun s => ⟨s.ok, s.serialize_ne_null⟩) _
  exact ⟨trivial, trivial, trivial, trivial, trivial, trivial, trivial, trivial, trivial, trivial,
    trivial, trivial, trivial, trivial, trivial, trivial, trivial, trivial, trivial, trivial,
    trivial, hconfirmed, trivial, h, trivial, trivial, trivial, hswap, trivial⟩

theorem deserialize_serialize_iff {e : WebhookEvent} :
    deserialize e.serialize = some e ↔ e.riskScore.isFinite = true :=
  Record.decode_encode_iff.trans ok_iff

theorem unordered : Unordered deserialize := by
  have hstring := Codec.unordered_string
  have huint64 := Codec.unordered_uint64
  exact Record.decode_unordered ⟨hstring, hstring, hstring, hstring, hstring, hstring, hstring,
    hstring, hstring, hstring, hstring, huint64, hstring, hstring, hstring, hstring, hstring,
    Codec.unordered_int32, huint64, huint64, hstring, Codec.unordered_option hstring,
    Codec.unordered_bool, Codec.unordered_float64, hstring, hstring, hstring,
    Codec.unordered_option SwapIncoming.unordered, trivial⟩

end WebhookEvent

/-- Parse a raw JSON webhook body. -/
def parseEvent (t : SerdeJson) : FromSlice WebhookEvent :=
  t.fromSlice "struct WebhookEvent" WebhookEvent.deserialize

/-! ### Drift of the sender -/

namespace WebhookEvent

/-- The payload of a sender that orders its members in another way, or that knows members this
schema does not, of the event or of its leg. -/
inductive Drifted : Json → Json → Prop
  | reordered {j j' : Json} (h : Reordered j j') : Drifted j j'
  | unknown (ms : List (String × Json)) {extra : List (String × Json)}
      (h : ∀ m ∈ extra, m.1 ∉ record.fields.names) : Drifted (.object ms) (.object (ms ++ extra))
  | unknownInLeg (front leg : List (String × Json)) {extra : List (String × Json)}
      (back : List (String × Json)) (h : ∀ m ∈ extra, m.1 ∉ SwapIncoming.record.fields.names) :
      Drifted (.object (front ++ ("swap_incoming", .object leg) :: back))
        (.object (front ++ ("swap_incoming", .object (leg ++ extra)) :: back))
  | trans {j₁ j₂ j₃ : Json} (h₁ : Drifted j₁ j₂) (h₂ : Drifted j₂ j₃) : Drifted j₁ j₃

theorem Drifted.deserialize_eq {j j' : Json} (h : Drifted j j') :
    deserialize j = deserialize j' := by
  induction h with
  | reordered h => exact unordered _ _ h
  | unknown ms h => exact (Record.decode_append_unknown ms h).symm
  | unknownInLeg front leg back h =>
      rename_i extra
      have hleg : SwapIncoming.record.decode (.object leg) =
          SwapIncoming.record.decode (.object (leg ++ extra)) :=
        (Record.decode_append_unknown leg h).symm
      have hread : swapIncomingField.read (.object leg) =
          swapIncomingField.read (.object (leg ++ extra)) := congrArg (Option.map some) hleg
      exact Record.decode_replace front back (has_swapIncoming.readAlike hread)
  | trans h₁ h₂ ih₁ ih₂ => exact ih₁.trans ih₂

theorem deserialize_remove_operation {ms : List (String × Json)} {e : WebhookEvent}
    (h : deserialize (.object ms) = some e) :
    deserialize (.object (remove ms "operation")) = some { e with operation := "" } :=
  has_operation.decode_remove h rfl

theorem deserialize_remove_swapIncoming {ms : List (String × Json)} {e : WebhookEvent}
    (h : deserialize (.object ms) = some e) :
    deserialize (.object (remove ms "swap_incoming")) = some { e with swapIncoming := none } :=
  has_swapIncoming.decode_remove h rfl

theorem deserialize_null_swapIncoming {ms : List (String × Json)} {e : WebhookEvent}
    (h : deserialize (.object ms) = some e) :
    deserialize (.object (("swap_incoming", .null) :: remove ms "swap_incoming")) =
      some { e with swapIncoming := none } :=
  has_swapIncoming.decode_set h rfl

theorem serialize_swapIncoming (e : WebhookEvent) :
    HasMember e.serialize "swap_incoming" (e.swapIncoming.map SwapIncoming.serialize) :=
  ⟨_, rfl, record.nodup_keys e, has_swapIncoming.member_members e⟩

theorem serialize_reason (s : SwapIncoming) :
    HasMember s.serialize "reason" (s.reason.map .string) :=
  ⟨_, rfl, SwapIncoming.record.nodup_keys s, SwapIncoming.has_reason.member_members s⟩

theorem serialize_auditType (s : SwapIncoming) :
    HasMember s.serialize "audit_type" (s.auditType.map .string) :=
  ⟨_, rfl, SwapIncoming.record.nodup_keys s, SwapIncoming.has_auditType.member_members s⟩

end WebhookEvent

/-! ### Stability -/

open WebhookEvent in
/-- What `parse_event` makes of a payload stays the same when the event is serialized again,
and when the sender's schema drifts. -/
structure StableUnderDrift (t : SerdeJson) : Prop where
  roundTrip : ∀ e : WebhookEvent, e.riskScore.isFinite = true → t.RoundTrips e.serialize →
    parseEvent t (t.toVec e.serialize) = .ok e
  reserialized : ∀ body e, parseEvent t body = .ok e → t.RoundTrips e.serialize →
    parseEvent t (t.toVec e.serialize) = .ok e
  drifted : ∀ body body' j j' e, t.tree body = .ok j → t.tree body' = .ok j' → Drifted j j' →
    (parseEvent t body = .ok e ↔ parseEvent t body' = .ok e)
  noOperation : ∀ body body' ms e, t.tree body = .ok (.object ms) →
    t.tree body' = .ok (.object (remove ms "operation")) → parseEvent t body = .ok e →
      parseEvent t body' = .ok { e with operation := "" }
  noSwapIncoming : ∀ body body' ms e, t.tree body = .ok (.object ms) →
    t.tree body' = .ok (.object (remove ms "swap_incoming")) → parseEvent t body = .ok e →
      parseEvent t body' = .ok { e with swapIncoming := none }
  nullSwapIncoming : ∀ body body' ms e, t.tree body = .ok (.object ms) →
    t.tree body' = .ok (.object (("swap_incoming", .null) :: remove ms "swap_incoming")) →
      parseEvent t body = .ok e → parseEvent t body' = .ok { e with swapIncoming := none }
  serialized : ∀ e : WebhookEvent,
    HasMember e.serialize "swap_incoming" (e.swapIncoming.map SwapIncoming.serialize)
  serializedLeg : ∀ s : SwapIncoming, HasMember s.serialize "reason" (s.reason.map .string) ∧
    HasMember s.serialize "audit_type" (s.auditType.map .string)

/-- **Webhook events are stable under drift of the schema.** -/
theorem parseEvent_stableUnderDrift (t : SerdeJson) : StableUnderDrift t where
  roundTrip e hfinite hbytes :=
    (SerdeJson.fromSlice_toVec_ok_iff hbytes).mpr
      (WebhookEvent.deserialize_serialize_iff.mpr hfinite)
  reserialized body e h hbytes := by
    obtain ⟨j, -, hj⟩ := SerdeJson.fromSlice_ok_iff.mp h
    exact (SerdeJson.fromSlice_toVec_ok_iff hbytes).mpr (Record.decode_encode_of_decode hj)
  drifted body body' j j' e hj hj' hdrift :=
    ⟨SerdeJson.fromSlice_of_tree hj hj' fun h => hdrift.deserialize_eq ▸ h,
      SerdeJson.fromSlice_of_tree hj' hj fun h => hdrift.deserialize_eq ▸ h⟩
  noOperation body body' ms e hms hms' :=
    SerdeJson.fromSlice_of_tree hms hms' WebhookEvent.deserialize_remove_operation
  noSwapIncoming body body' ms e hms hms' :=
    SerdeJson.fromSlice_of_tree hms hms' WebhookEvent.deserialize_remove_swapIncoming
  nullSwapIncoming body body' ms e hms hms' :=
    SerdeJson.fromSlice_of_tree hms hms' WebhookEvent.deserialize_null_swapIncoming
  serialized := WebhookEvent.serialize_swapIncoming
  serializedLeg s := ⟨WebhookEvent.serialize_reason s, WebhookEvent.serialize_auditType s⟩

/-! ### A payload that predates the optional members -/

def legacyEvent : WebhookEvent where
  eventId := "evt_legacy"
  eventType := "transaction.confirmed"
  eventTime := "2026-09-15T08:00:00Z"
  sourceId := "tx-1"
  walletId := "w-1"
  accountId := "a-1"
  status := "CONFIRMED"
  transactionType := "OUTBOUND"
  chain := "base"
  network := "mainnet"
  txhash := "0xabc"
  blockNumber := 100
  «from» := "0xa"
  «to» := "0xb"
  symbol := "USDC"
  contractAddress := "0xusdc"
  amount := "1000000"
  decimals := 6
  confirmations := 0
  requiredConfirmations := 12
  createdAt := "2026-09-15T07:59:00Z"
  confirmedAt := some "2026-09-15T08:00:00Z"
  riskChecked := false
  riskScore := ⟨0⟩
  riskLevel := "UNSCANNED"
  data := ""
  operation := ""
  swapIncoming := none

def legacyBody : String :=
  "\x7b\"event_id\":\"evt_legacy\",\"event_type\":\"transaction.confirmed\"" ++
    ",\"event_time\":\"2026-09-15T08:00:00Z\",\"source_id\":\"tx-1\",\"wallet_id\":\"w-1\"" ++
    ",\"account_id\":\"a-1\",\"status\":\"CONFIRMED\",\"transaction_type\":\"OUTBOUND\"" ++
    ",\"chain\":\"base\",\"network\":\"mainnet\",\"txhash\":\"0xabc\",\"block_number\":100" ++
    ",\"from\":\"0xa\",\"to\":\"0xb\",\"symbol\":\"USDC\",\"contract_address\":\"0xusdc\"" ++
    ",\"amount\":\"1000000\",\"decimals\":6,\"confirmations\":0" ++
    ",\"required_confirmations\":12,\"created_at\":\"2026-09-15T07:59:00Z\"" ++
    ",\"confirmed_at\":\"2026-09-15T08:00:00Z\",\"risk_checked\":false,\"risk_score\":0.0" ++
    ",\"risk_level\":\"UNSCANNED\",\"data\":\"\"\x7d"

def legacyBodyAgain : String :=
  "\x7b\"event_id\":\"evt_legacy\",\"event_type\":\"transaction.confirmed\"" ++
    ",\"event_time\":\"2026-09-15T08:00:00Z\",\"source_id\":\"tx-1\",\"wallet_id\":\"w-1\"" ++
    ",\"account_id\":\"a-1\",\"status\":\"CONFIRMED\",\"transaction_type\":\"OUTBOUND\"" ++
    ",\"chain\":\"base\",\"network\":\"mainnet\",\"txhash\":\"0xabc\",\"block_number\":100" ++
    ",\"from\":\"0xa\",\"to\":\"0xb\",\"symbol\":\"USDC\",\"contract_address\":\"0xusdc\"" ++
    ",\"amount\":\"1000000\",\"decimals\":6,\"confirmations\":0" ++
    ",\"required_confirmations\":12,\"created_at\":\"2026-09-15T07:59:00Z\"" ++
    ",\"confirmed_at\":\"2026-09-15T08:00:00Z\",\"risk_checked\":false,\"risk_score\":0.0" ++
    ",\"risk_level\":\"UNSCANNED\",\"data\":\"\",\"operation\":\"\"\x7d"

/-- `serde_json` on the two bodies. -/
def legacyJson : SerdeJson where
  toVec _ := utf8 legacyBodyAgain
  tree bytes :=
    if bytes = utf8 legacyBody then
      .ok (.object (remove (WebhookEvent.record.members legacyEvent) "operation"))
    else if bytes = utf8 legacyBodyAgain then .ok legacyEvent.serialize
    else .error ⟨"expected value"⟩
  mismatch _ _ := ⟨"missing field"⟩

theorem legacyEvent_reserialized :
    parseEvent legacyJson (utf8 legacyBody) = .ok legacyEvent ∧
      parseEvent legacyJson (legacyJson.toVec legacyEvent.serialize) = .ok legacyEvent := by
  have htree : legacyJson.tree (utf8 legacyBody) =
      .ok (.object (remove (WebhookEvent.record.members legacyEvent) "operation")) := by
    unfold legacyJson
    dsimp only
    rw [if_pos (Eq.refl (utf8 legacyBody))]
  have hagain : legacyJson.RoundTrips legacyEvent.serialize := by
    have hne : utf8 legacyBodyAgain ≠ utf8 legacyBody := utf8_injective.ne (by decide +kernel)
    unfold SerdeJson.RoundTrips legacyJson
    dsimp only
    rw [if_neg hne, if_pos (Eq.refl (utf8 legacyBodyAgain))]
  have hparse : parseEvent legacyJson (utf8 legacyBody) = .ok legacyEvent :=
    SerdeJson.fromSlice_ok_iff.mpr ⟨_, htree, by decide +kernel⟩
  exact ⟨hparse, (parseEvent_stableUnderDrift legacyJson).reserialized _ _ hparse hagain⟩

end ParatroSdk
