import ParatroSdk.Wire

/-! # Transaction requests

The body of `POST /api/v1/transactions` (`src/transaction.rs`): the fields of one of three
requests next to the `operation` that tells them apart.  Optional fields that are absent are not
written.  `requestCodec` says what the body looks like and that a request can be read back from
it, whatever the order of its members. -/

namespace ParatroSdk

open Serde Json

/-- `operation` value for a token transfer. -/
def operationTransfer : String := "TRANSFER"

/-- `operation` value for a Solana program call. -/
def operationProgramCall : String := "PROGRAM_CALL"

/-- `operation` value for an EVM contract call. -/
def operationContractCall : String := "CONTRACT_CALL"

structure TransferRequest where
  fromAddress : String
  toAddress : String
  chain : String
  tokenSymbol : String
  amount : String
  memo : Option String
  referenceId : Option String
deriving DecidableEq

structure ProgramCallRequest where
  fromAddress : String
  chain : String
  signedTransaction : String
  receiveAddress : Option String
  referenceId : Option String
  memo : Option String
deriving DecidableEq

/-- The client's outgoing leg of a contract call. -/
structure ContractCallIncomingLeg where
  «to» : String
  token : String
  amount : String
deriving DecidableEq

/-- The counterparty's leg of a contract call. -/
structure ContractCallOutgoingLeg where
  «from» : String
  «to» : String
  token : String
  amount : String
deriving DecidableEq

/-- The counterparty's quote, forwarded as it is. -/
structure ContractCall where
  quoteId : String
  expiration : Int64
  incoming : ContractCallIncomingLeg
  outgoing : ContractCallOutgoingLeg
  counterpartySignature : String
  permitDeadline : Option Int64
deriving DecidableEq

structure ContractCallRequest where
  fromAddress : String
  chain : String
  receiveAddress : Option String
  contractCall : ContractCall
  referenceId : Option String
  memo : Option String
deriving DecidableEq

inductive CreateTransactionRequest where
  | transfer (req : TransferRequest)
  | programCall (req : ProgramCallRequest)
  | contractCall (req : ContractCallRequest)
deriving DecidableEq

/-! ### Codecs of the records -/

/-- The key of an optional field, where it is present. -/
def presentKey {α : Type} (key : String) : Option α → List String
  | some _ => [key]
  | none => []

theorem noNull_required (name : String) :
    ∀ v, ∀ j ∈ (Field.required name .string).write v, j.noNull = true :=
  Fields.writesOnly_required name Codec.noNull_string

theorem noNull_optional (name : String) :
    ∀ v, ∀ j ∈ (Field.optional name .string).write v, j.noNull = true :=
  Fields.writesOnly_optional name Codec.noNull_string

namespace TransferRequest

def record : Record TransferRequest where
  Row := _
  fields := .cons (.required "from_address" .string) <| .cons (.required "to_address" .string) <|
    .cons (.required "chain" .string) <| .cons (.required "token_symbol" .string) <|
    .cons (.required "amount" .string) <| .cons (.optional "memo" .string) <|
    .cons (.optional "reference_id" .string) .nil
  toRow r := (r.fromAddress, r.toAddress, r.chain, r.tokenSymbol, r.amount, r.memo,
    r.referenceId, ())
  ofRow := fun (fromAddress, toAddress, chain, tokenSymbol, amount, memo, referenceId, ()) =>
    { fromAddress, toAddress, chain, tokenSymbol, amount, memo, referenceId }
  ofRow_toRow _ := rfl
  toRow_ofRow _ := rfl
  distinct := by decide +kernel

/-- The keys of the fields that are present. -/
def keys (r : TransferRequest) : List String :=
  ["from_address", "to_address", "chain", "token_symbol", "amount"] ++
    presentKey "memo" r.memo ++ presentKey "reference_id" r.referenceId

theorem keys_members (r : TransferRequest) : (record.members r).map Prod.fst = r.keys := by
  obtain ⟨_, _, _, _, _, memo, referenceId⟩ := r
  cases memo <;> cases referenceId <;> rfl

theorem ok (r : TransferRequest) : record.Ok r :=
  ⟨trivial, trivial, trivial, trivial, trivial, Codec.ok_option_string _, Codec.ok_option_string _,
    trivial⟩

theorem unordered : Unordered record.decode := by
  have hstring := Codec.unordered_string
  have hoption := Codec.unordered_option hstring
  exact Record.decode_unordered ⟨hstring, hstring, hstring, hstring, hstring, hoption, hoption,
    trivial⟩

theorem noNull (r : TransferRequest) : (record.encode r).noNull = true :=
  record.noNull_encode ⟨noNull_required _, noNull_required _, noNull_required _,
    noNull_required _, noNull_required _, noNull_optional _, noNull_optional _, trivial⟩ r

theorem has_referenceId : record.Has (.optional "reference_id" .string) (·.referenceId)
    fun r v => { r with referenceId := v } :=
  ⟨_, _, by repeat (first | exact .head _ | apply Fields.At.tail), fun _ => rfl, fun _ _ => rfl⟩

end TransferRequest

namespace ProgramCallRequest

def record : Record ProgramCallRequest where
  Row := _
  fields := .cons (.required "from_address" .string) <| .cons (.required "chain" .string) <|
    .cons (.required "signed_transaction" .string) <|
    .cons (.optional "receive_address" .string) <| .cons (.optional "reference_id" .string) <|
    .cons (.optional "memo" .string) .nil
  toRow r := (r.fromAddress, r.chain, r.signedTransaction, r.receiveAddress, r.referenceId,
    r.memo, ())
  ofRow := fun (fromAddress, chain, signedTransaction, receiveAddress, referenceId, memo, ()) =>
    { fromAddress, chain, signedTransaction, receiveAddress, referenceId, memo }
  ofRow_toRow _ := rfl
  toRow_ofRow _ := rfl
  distinct := by decide +kernel

/-- The keys of the fields that are present. -/
def keys (r : ProgramCallRequest) : List String :=
  ["from_address", "chain", "signed_transaction"] ++ presentKey "receive_address" r.receiveAddress ++
    presentKey "reference_id" r.referenceId ++ presentKey "memo" r.memo

theorem keys_members (r : ProgramCallRequest) : (record.members r).map Prod.fst = r.keys := by
  obtain ⟨_, _, _, receiveAddress, referenceId, memo⟩ := r
  cases receiveAddress <;> cases referenceId <;> cases memo <;> rfl

theorem ok (r : ProgramCallRequest) : record.Ok r :=
  ⟨trivial, trivial, trivial, Codec.ok_option_string _, Codec.ok_option_string _,
    Codec.ok_option_string _, trivial⟩

theorem unordered : Unordered record.decode := by
  have hstring := Codec.unordered_string
  have hoption := Codec.unordered_option hstring
  exact Record.decode_unordered ⟨hstring, hstring, hstring, hoption, hoption, hoption, trivial⟩

theorem noNull (r : ProgramCallRequest) : (record.encode r).noNull = true :=
  record.noNull_encode ⟨noNull_required _, noNull_required _, noNull_required _,
    noNull_optional _, noNull_optional _, noNull_optional _, trivial⟩ r

theorem has_referenceId : record.Has (.optional "reference_id" .string) (·.referenceId)
    fun r v => { r with referenceId := v } :=
  ⟨_, _, by repeat (first | exact .head _ | apply Fields.At.tail), fun _ => rfl, fun _ _ => rfl⟩

end ProgramCallRequest

namespace ContractCallIncomingLeg

def record : Record ContractCallIncomingLeg where
  Row := _
  fields := .cons (.required "to" .string) <| .cons (.required "token" .string) <|
    .cons (.required "amount" .string) .nil
  toRow r := (r.to, r.token, r.amount, ())
  ofRow := fun («to», token, amount, ()) => { «to», token, amount }
  ofRow_toRow _ := rfl
  toRow_ofRow _ := rfl
  distinct := by decide +kernel

theorem ok (leg : ContractCallIncomingLeg) : record.Ok leg := ⟨trivial, trivial, trivial, trivial⟩

theorem unordered : Unordered record.decode := by
  have hstring := Codec.unordered_string
  exact Record.decode_unordered ⟨hstring, hstring, hstring, trivial⟩

theorem noNull (leg : ContractCallIncomingLeg) : (record.encode leg).noNull = true :=
  record.noNull_encode ⟨noNull_required _, noNull_required _, noNull_required _, trivial⟩ leg

end ContractCallIncomingLeg

namespace ContractCallOutgoingLeg

def record : Record ContractCallOutgoingLeg where
  Row := _
  fields := .cons (.required "from" .string) <| .cons (.required "to" .string) <|
    .cons (.required "token" .string) <| .cons (.required "amount" .string) .nil
  toRow r := (r.from, r.to, r.token, r.amount, ())
  ofRow := fun («from», «to», token, amount, ()) => { «from», «to», token, amount }
  ofRow_toRow _ := rfl
  toRow_ofRow _ := rfl
  distinct := by decide +kernel

theorem ok (leg : ContractCallOutgoingLeg) : record.Ok leg :=
  ⟨trivial, trivial, trivial, trivial, trivial⟩

theorem unordered : Unordered record.decode := by
  have hstring := Codec.unordered_string
  exact Record.decode_unordered ⟨hstring, hstring, hstring, hstring, trivial⟩

theorem noNull (leg : ContractCallOutgoingLeg) : (record.encode leg).noNull = true :=
  record.noNull_encode ⟨noNull_required _, noNull_required _, noNull_required _,
    noNull_required _, trivial⟩ leg

end ContractCallOutgoingLeg

namespace ContractCall

def record : Record ContractCall where
  Row := _
  fields := .cons (.required "quote_id" .string) <| .cons (.required "expiration" .int64) <|
    .cons (.required "incoming" ContractCallIncomingLeg.record.codec) <|
    .cons (.required "outgoing" ContractCallOutgoingLeg.record.codec) <|
    .cons (.required "counterparty_signature" .string) <|
    .cons (.optional "permit_deadline" .int64) .nil
  toRow r := (r.quoteId, r.expiration, r.incoming, r.outgoing, r.counterpartySignature,
    r.permitDeadline, ())
  ofRow := fun (quoteId, expiration, incoming, outgoing, counterpartySignature,
    permitDeadline, ()) =>
    { quoteId, expiration, incoming, outgoing, counterpartySignature, permitDeadline }
  ofRow_toRow _ := rfl
  toRow_ofRow _ := rfl
  distinct := by decide +kernel

/-- The keys of the fields that are present. -/
def keys (call : ContractCall) : List String :=
  ["quote_id", "expiration", "incoming", "outgoing", "counterparty_signature"] ++
    presentKey "permit_deadline" call.permitDeadline

theorem keys_members (call : ContractCall) :
    (record.members call).map Prod.fst = call.keys := by
  obtain ⟨_, _, _, _, _, permitDeadline⟩ := call
  cases permitDeadline <;> rfl

theorem ok (call : ContractCall) : record.Ok call :=
  ⟨trivial, trivial, call.incoming.ok, call.outgoing.ok, trivial, Codec.ok_option_int64 _, trivial⟩

theorem unordered : Unordered record.decode :=
  Record.decode_unordered ⟨Codec.unordered_string, Codec.unordered_int64,
    ContractCallIncomingLeg.unordered, ContractCallOutgoingLeg.unordered, Codec.unordered_string,
    Codec.unordered_option Codec.unordered_int64, trivial⟩

theorem noNull (call : ContractCall) : (record.encode call).noNull = true :=
  record.noNull_encode ⟨noNull_required _, Fields.writesOnly_required _ Codec.noNull_int64,
    Fields.writesOnly_required _ ContractCallIncomingLeg.noNull,
    Fields.writesOnly_required _ ContractCallOutgoingLeg.noNull, noNull_required _,
    Fields.writesOnly_optional _ Codec.noNull_int64, trivial⟩ call

end ContractCall

namespace ContractCallRequest

def record : Record ContractCallRequest where
  Row := _
  fields := .cons (.required "from_address" .string) <| .cons (.required "chain" .string) <|
    .cons (.optional "receive_address" .string) <|
    .cons (.required "contract_call" ContractCall.record.codec) <|
    .cons (.optional "reference_id" .string) <| .cons (.optional "memo" .string) .nil
  toRow r := (r.fromAddress, r.chain, r.receiveAddress, r.contractCall, r.referenceId, r.memo, ())
  ofRow := fun (fromAddress, chain, receiveAddress, contractCall, referenceId, memo, ()) =>
    { fromAddress, chain, receiveAddress, contractCall, referenceId, memo }
  ofRow_toRow _ := rfl
  toRow_ofRow _ := rfl
  distinct := by decide +kernel

/-- The keys of the fields that are present. -/
def keys (r : ContractCallRequest) : List String :=
  ["from_address", "chain"] ++ presentKey "receive_address" r.receiveAddress ++
    ["contract_call"] ++ presentKey "reference_id" r.referenceId ++ presentKey "memo" r.memo

theorem keys_members (r : ContractCallRequest) : (record.members r).map Prod.fst = r.keys := by
  obtain ⟨_, _, receiveAddress, _, referenceId, memo⟩ := r
  cases receiveAddress <;> cases referenceId <;> cases memo <;> rfl

theorem ok (r : ContractCallRequest) : record.Ok r :=
  ⟨trivial, trivial, Codec.ok_option_string _, r.contractCall.ok, Codec.ok_option_string _,
    Codec.ok_option_string _, trivial⟩

theorem unordered : Unordered record.decode := by
  have hstring := Codec.unordered_string
  have hoption := Codec.unordered_option hstring
  exact Record.decode_unordered ⟨hstring, hstring, hoption, ContractCall.unordered, hoption,
    hoption, trivial⟩

theorem noNull (r : ContractCallRequest) : (record.encode r).noNull = true :=
  record.noNull_encode ⟨noNull_required _, noNull_required _, noNull_optional _,
    Fields.writesOnly_required _ ContractCall.noNull, noNull_optional _, noNull_optional _,
    trivial⟩ r

theorem has_contractCall : record.Has (.required "contract_call" ContractCall.record.codec)
    (·.contractCall) fun r v => { r with contractCall := v } :=
  ⟨_, _, .tail _ (.tail _ (.tail _ (.head _))), fun _ => rfl, fun _ _ => rfl⟩

theorem has_referenceId : record.Has (.optional "reference_id" .string) (·.referenceId)
    fun r v => { r with referenceId := v } :=
  ⟨_, _, by repeat (first | exact .head _ | apply Fields.At.tail), fun _ => rfl, fun _ _ => rfl⟩

end ContractCallRequest

/-! ### The request -/

namespace CreateTransactionRequest

/-- The `operation` string this request carries. -/
def operation : CreateTransactionRequest → String
  | .transfer _ => operationTransfer
  | .programCall _ => operationProgramCall
  | .contractCall _ => operationContractCall

/-- The caller's `reference_id`, if set. -/
def referenceId : CreateTransactionRequest → Option String
  | .transfer req => req.referenceId
  | .programCall req => req.referenceId
  | .contractCall req => req.referenceId

def serialize : CreateTransactionRequest → Json
  | .transfer req => TransferRequest.record.encodeTagged "operation" "TRANSFER" req
  | .programCall req => ProgramCallRequest.record.encodeTagged "operation" "PROGRAM_CALL" req
  | .contractCall req => ContractCallRequest.record.encodeTagged "operation" "CONTRACT_CALL" req

/-- The variant with the name, read from the members next to it. -/
def ofVariant : String → Json → Option CreateTransactionRequest
  | "TRANSFER", j => (TransferRequest.record.decode j).map .transfer
  | "PROGRAM_CALL", j => (ProgramCallRequest.record.decode j).map .programCall
  | "CONTRACT_CALL", j => (ContractCallRequest.record.decode j).map .contractCall
  | _, _ => none

def deserialize (j : Json) : Option CreateTransactionRequest :=
  decodeTagged "operation" ofVariant j

/-- The keys of the fields that are present. -/
def keys : CreateTransactionRequest → List String
  | .transfer req => req.keys
  | .programCall req => req.keys
  | .contractCall req => req.keys

theorem ofVariant_unordered (name : String) : Unordered (ofVariant name) := by
  intro j j' hj
  unfold ofVariant
  split
  · rw [TransferRequest.unordered j j' hj]
  · rw [ProgramCallRequest.unordered j j' hj]
  · rw [ContractCallRequest.unordered j j' hj]
  · rfl

/-- A request is read back whatever the order of the members. -/
theorem deserialize_of_reordered {r : CreateTransactionRequest} {j : Json}
    (hj : Reordered r.serialize j) : deserialize j = some r := by
  cases r with
  | transfer req =>
      exact Record.decodeTagged_encodeTagged (by decide +kernel) (fun _ => rfl) ofVariant_unordered
        req.ok hj
  | programCall req =>
      exact Record.decodeTagged_encodeTagged (by decide +kernel) (fun _ => rfl) ofVariant_unordered
        req.ok hj
  | contractCall req =>
      exact Record.decodeTagged_encodeTagged (by decide +kernel) (fun _ => rfl) ofVariant_unordered
        req.ok hj

theorem serialize_injective : Function.Injective serialize := by
  intro r r' h
  have hread := deserialize_of_reordered (.refl r.serialize)
  rw [h, deserialize_of_reordered (.refl r'.serialize)] at hread
  exact (Option.some.inj hread).symm

/-- The operation in the body is the one the constants name. -/
theorem hasMember_operation (r : CreateTransactionRequest) :
    HasMember r.serialize "operation" (some (.string r.operation)) := by
  cases r with
  | transfer req => exact Record.hasMember_tag (by decide +kernel) req
  | programCall req => exact Record.hasMember_tag (by decide +kernel) req
  | contractCall req => exact Record.hasMember_tag (by decide +kernel) req

theorem keys_serialize (r : CreateTransactionRequest) :
    Serde.keys r.serialize = "operation" :: r.keys := by
  cases r with
  | transfer req => exact congrArg ("operation" :: ·) req.keys_members
  | programCall req => exact congrArg ("operation" :: ·) req.keys_members
  | contractCall req => exact congrArg ("operation" :: ·) req.keys_members

theorem noNull_serialize (r : CreateTransactionRequest) : r.serialize.noNull = true := by
  cases r with
  | transfer req => exact Record.noNull_encodeTagged req.noNull
  | programCall req => exact Record.noNull_encodeTagged req.noNull
  | contractCall req => exact Record.noNull_encodeTagged req.noNull

/-- The caller's reference is in the body where it is set. -/
theorem hasMember_referenceId (r : CreateTransactionRequest) :
    HasMember r.serialize "reference_id" (r.referenceId.map .string) := by
  cases r with
  | transfer req =>
      exact TransferRequest.has_referenceId.hasMember_encodeTagged (by decide +kernel) req
  | programCall req =>
      exact ProgramCallRequest.has_referenceId.hasMember_encodeTagged (by decide +kernel) req
  | contractCall req =>
      exact ContractCallRequest.has_referenceId.hasMember_encodeTagged (by decide +kernel) req

/-- The quote is nested in the body, with a deadline where it has one. -/
theorem hasMember_contractCall (req : ContractCallRequest) :
    HasMember (contractCall req).serialize "contract_call"
      (some (ContractCall.record.encode req.contractCall)) :=
  ContractCallRequest.has_contractCall.hasMember_encodeTagged (by decide +kernel) req

/-- The wire body of a request: what it holds, and that it is the body of this request only. -/
structure RequestCodec (t : SerdeJson) (r : CreateTransactionRequest) : Prop where
  nodupKeys : (Serde.keys r.serialize).Nodup
  tagged : HasMember r.serialize "operation" (some (.string r.operation))
  present : Serde.keys r.serialize = "operation" :: r.keys
  quote : ∀ req, r = .contractCall req → ∃ j, HasMember r.serialize "contract_call" (some j) ∧
    (Serde.keys j).Nodup ∧ Serde.keys j = req.contractCall.keys
  noNull : r.serialize.noNull = true
  readBack : ∀ j, Reordered r.serialize j → deserialize j = some r
  distinct : ∀ r', r'.serialize = r.serialize → r' = r
  distinctOnWire : t.RoundTrips r.serialize → ∀ r', t.RoundTrips r'.serialize →
    t.toVec r'.serialize = t.toVec r.serialize → r' = r

/-- **Transaction requests can be told from their bodies.** -/
theorem requestCodec (t : SerdeJson) (r : CreateTransactionRequest) : RequestCodec t r where
  nodupKeys := by
    obtain ⟨ms, hms, hnodup, -⟩ := hasMember_operation r
    rw [hms]
    exact hnodup
  tagged := hasMember_operation r
  present := keys_serialize r
  quote := by
    rintro req rfl
    exact ⟨_, hasMember_contractCall req, ContractCall.record.nodup_keys _,
      ContractCall.keys_members _⟩
  noNull := noNull_serialize r
  readBack _ := deserialize_of_reordered
  distinct _ h := serialize_injective h
  distinctOnWire hr r' hr' hbytes := by
    have htree := hr'
    unfold SerdeJson.RoundTrips at hr htree
    rw [hbytes, hr] at htree
    exact serialize_injective (Except.ok.inj htree).symm

end CreateTransactionRequest

end ParatroSdk
