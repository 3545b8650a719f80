import ParatroSdk.Classification
import ParatroSdk.Lists
import ParatroSdk.Lib.Drift

/-! # Replies

What the SDK makes of the bodies that the gateway answers with: wallets, accounts, assets,
transactions, the x402 replies, and the pages of the five lists.

Members in another order, and further members at any depth, make no difference to any of them
(`ReplyType.tolerates`).  A list call that succeeds returns one item for each element of the
reply's `data`, in order (`page_of_call`).  A created transaction that is stored and loaded again
has lost its HTTP status and its operation, and with them that its outcome was unknown
(`stored_of_call`). -/

namespace ParatroSdk

open Serde Json Text Interaction SharedCell Sdk

/-! ### Resources -/

/-- An MPC wallet. -/
structure Wallet where
  walletId : String
  clientId : String
  walletName : String
  description : String
  status : String
  keyStatus : String
  createdAt : String
  updatedAt : String
deriving DecidableEq

def Wallet.record : Record Wallet where
  Row := _
  fields := .cons (.required "wallet_id" .string) <| .cons (.required "client_id" .string) <|
    .cons (.required "wallet_name" .string) <| .cons (.required "description" .string) <|
    .cons (.required "status" .string) <| .cons (.required "key_status" .string) <|
    .cons (.required "created_at" .string) <| .cons (.required "updated_at" .string) .nil
  toRow w := (w.walletId, w.clientId, w.walletName, w.description, w.status, w.keyStatus,
    w.createdAt, w.updatedAt, ())
  ofRow := fun (walletId, clientId, walletName, description, status, keyStatus, createdAt,
      updatedAt, ()) =>
    { walletId, clientId, walletName, description, status, keyStatus, createdAt, updatedAt }
  ofRow_toRow _ := rfl
  toRow_ofRow _ := rfl
  distinct := by decide +kernel

/-- An account in a wallet. -/
structure Account where
  accountId : String
  walletId : String
  clientId : String
  address : String
  network : String
  addressType : String
  label : String
  status : String
  createdAt : String

def Account.record : Record Account where
  Row := _
  fields := .cons (.required "account_id" .string) <| .cons (.required "wallet_id" .string) <|
    .cons (.required "client_id" .string) <| .cons (.required "address" .string) <|
    .cons (.required "network" .string) <| .cons (.required "address_type" .string) <|
    .cons (.required "label" .string) <| .cons (.required "status" .string) <|
    .cons (.required "created_at" .string) .nil
  toRow a := (a.accountId, a.walletId, a.clientId, a.address, a.network, a.addressType, a.label,
    a.status, a.createdAt, ())
  ofRow := fun (accountId, walletId, clientId, address, network, addressType, label, status,
      createdAt, ()) =>
    { accountId, walletId, clientId, address, network, addressType, label, status, createdAt }
  ofRow_toRow _ := rfl
  toRow_ofRow _ := rfl
  distinct := by decide +kernel

/-- An asset (token) in an account. -/
structure Asset where
  assetId : String
  accountId : String
  walletId : String
  clientId : String
  chain : String
  network : String
  symbol : String
  name : String
  contractAddress : String
  decimals : Int32
  assetType : String
  balance : String
  lockedBalance : String
  isActive : Bool
  createdAt : String

def Asset.record : Record Asset where
  Row := _
  fields := .cons (.required "asset_id" .string) <| .cons (.required "account_id" .string) <|
    .cons (.required "wallet_id" .string) <| .cons (.required "client_id" .string) <|
    .cons (.required "chain" .string) <| .cons (.required "network" .string) <|
    .cons (.required "symbol" .string) <| .cons (.required "name" .string) <|
    .cons (.required "contract_address" .string) <| .cons (.required "decimals" .int32) <|
    .cons (.required "asset_type" .string) <| .cons (.required "balance" .string) <|
    .cons (.required "locked_balance" .string) <| .cons (.required "is_active" .bool) <|
    .cons (.required "created_at" .string) .nil
  toRow a := (a.assetId, a.accountId, a.walletId, a.clientId, a.chain, a.network, a.symbol,
    a.name, a.contractAddress, a.decimals, a.assetType, a.balance, a.lockedBalance, a.isActive,
    a.createdAt, ())
  ofRow := fun (assetId, accountId, walletId, clientId, chain, network, symbol, name,
      contractAddress, decimals, assetType, balance, lockedBalance, isActive, createdAt, ()) =>
    { assetId, accountId, walletId, clientId, chain, network, symbol, name, contractAddress,
      decimals, assetType, balance, lockedBalance, isActive, createdAt }
  ofRow_toRow _ := rfl
  toRow_ofRow _ := rfl
  distinct := by decide +kernel

/-- A transaction as the gateway reports it; one that was not scored has no risk fields. -/
structure Transaction where
  txId : String
  walletId : String
  clientId : String
  chain : String
  transactionType : String
  fromAddress : String
  toAddress : String
  tokenSymbol : String
  amount : String
  status : String
  txHash : String
  riskScore : Option String
  riskLevel : Option String
  createdAt : String

def Transaction.record : Record Transaction where
  Row := _
  fields := .cons (.required "tx_id" .string) <| .cons (.required "wallet_id" .string) <|
    .cons (.required "client_id" .string) <| .cons (.required "chain" .string) <|
    .cons (.required "transaction_type" .string) <| .cons (.required "from_address" .string) <|
    .cons (.required "to_address" .string) <| .cons (.required "token_symbol" .string) <|
    .cons (.required "amount" .string) <| .cons (.required "status" .string) <|
    .cons (.required "tx_hash" .string) <| .cons (.optional "risk_score" .string) <|
    .cons (.optional "risk_level" .string) <| .cons (.required "created_at" .string) .nil
  toRow t := (t.txId, t.walletId, t.clientId, t.chain, t.transactionType, t.fromAddress,
    t.toAddress, t.tokenSymbol, t.amount, t.status, t.txHash, t.riskScore, t.riskLevel,
    t.createdAt, ())
  ofRow := fun (txId, walletId, clientId, chain, transactionType, fromAddress, toAddress,
      tokenSymbol, amount, status, txHash, riskScore, riskLevel, createdAt, ()) =>
    { txId, walletId, clientId, chain, transactionType, fromAddress, toAddress, tokenSymbol,
      amount, status, txHash, riskScore, riskLevel, createdAt }
  ofRow_toRow _ := rfl
  toRow_ofRow _ := rfl
  distinct := by decide +kernel

/-! ### x402 -/

/-- Reply of `POST /x402/verify`. -/
structure X402VerifyResponse where
  isValid : Bool
  invalidReason : Option String
  payer : String

def X402VerifyResponse.record : Record X402VerifyResponse where
  Row := _
  fields := .cons (.required "isValid" .bool) <| .cons (.optional "invalidReason" .string) <|
    .cons (.defaulted "payer" .string "" trivial) .nil
  toRow r := (r.isValid, r.invalidReason, r.payer, ())
  ofRow := fun (isValid, invalidReason, payer, ()) => { isValid, invalidReason, payer }
  ofRow_toRow _ := rfl
  toRow_ofRow _ := rfl
  distinct := by decide +kernel

/-- Reply of `POST /x402/settle`. -/
structure X402SettleResponse where
  success : Bool
  txId : String
  transaction : String
  errorReason : Option String
  payer : String
  network : String

def X402SettleResponse.record : Record X402SettleResponse where
  Row := _
  fields := .cons (.required "success" .bool) <| .cons (.defaulted "txId" .string "" trivial) <|
    .cons (.defaulted "transaction" .string "" trivial) <|
    .cons (.optional "errorReason" .string) <| .cons (.defaulted "payer" .string "" trivial) <|
    .cons (.defaulted "network" .string "" trivial) .nil
  toRow r := (r.success, r.txId, r.transaction, r.errorReason, r.payer, r.network, ())
  ofRow := fun (success, txId, transaction, errorReason, payer, network, ()) =>
    { success, txId, transaction, errorReason, payer, network }
  ofRow_toRow _ := rfl
  toRow_ofRow _ := rfl
  distinct := by decide +kernel

/-- Reply of `GET /x402/settle/{tx_id}`. -/
structure X402SettleStatusResponse where
  success : Bool
  txId : String
  status : String
  txHash : String
  network : String

def X402SettleStatusResponse.record : Record X402SettleStatusResponse where
  Row := _
  fields := .cons (.required "success" .bool) <| .cons (.required "txId" .string) <|
    .cons (.required "status" .string) <| .cons (.defaulted "txHash" .string "" trivial) <|
    .cons (.defaulted "network" .string "" trivial) .nil
  toRow r := (r.success, r.txId, r.status, r.txHash, r.network, ())
  ofRow := fun (success, txId, status, txHash, network, ()) =>
    { success, txId, status, txHash, network }
  ofRow_toRow _ := rfl
  toRow_ofRow _ := rfl
  distinct := by decide +kernel

/-- One item of `GET /x402/settlements`. -/
structure X402Settlement where
  txId : String
  chain : String
  fromAddress : String
  toAddress : String
  amount : String
  status : String
  validBefore : Int64
  signatureV : Option Int32
  signatureR : Option String
  signatureS : Option String
  createdAt : String

def X402Settlement.record : Record X402Settlement where
  Row := _
  fields := .cons (.required "tx_id" .string) <| .cons (.required "chain" .string) <|
    .cons (.required "from_address" .string) <| .cons (.required "to_address" .string) <|
    .cons (.required "amount" .string) <| .cons (.required "status" .string) <|
    .cons (.required "valid_before" .int64) <| .cons (.optional "signature_v" .int32) <|
    .cons (.optional "signature_r" .string) <| .cons (.optional "signature_s" .string) <|
    .cons (.required "created_at" .string) .nil
  toRow s := (s.txId, s.chain, s.fromAddress, s.toAddress, s.amount, s.status, s.validBefore,
    s.signatureV, s.signatureR, s.signatureS, s.createdAt, ())
  ofRow := fun (txId, chain, fromAddress, toAddress, amount, status, validBefore, signatureV,
      signatureR, signatureS, createdAt, ()) =>
    { txId, chain, fromAddress, toAddress, amount, status, validBefore, signatureV, signatureR,
      signatureS, createdAt }
  ofRow_toRow _ := rfl
  toRow_ofRow _ := rfl
  distinct := by decide +kernel

/-! ### Pages -/

/-- A page of a list. -/
structure Page (α : Type) where
  items : List α
  total : Int64
  hasMore : Bool
deriving DecidableEq

def Page.record {α : Type} (item : Record α) : Record (Page α) where
  Row := _
  fields := .cons (.required "data" item.codec.list) <| .cons (.required "total" .int64) <|
    .cons (.required "has_more" .bool) .nil
  toRow page := (page.items, page.total, page.hasMore, ())
  ofRow := fun (items, total, hasMore, ()) => { items, total, hasMore }
  ofRow_toRow _ := rfl
  toRow_ofRow _ := rfl
  distinct := by
    show ["data", "total", "has_more"].Nodup
    decide

abbrev ListWalletsResponse : Type := Page Wallet
abbrev ListAccountsResponse : Type := Page Account
abbrev ListAssetsResponse : Type := Page Asset
abbrev ListTransactionsResponse : Type := Page Transaction
abbrev ListX402SettlementsResponse : Type := Page X402Settlement

/-! ### The replies as one family -/

inductive ReplyType where
  | wallet
  | account
  | asset
  | transaction
  | created
  | verified
  | settled
  | settleStatus
  | wallets
  | accounts
  | assets
  | transactions
  | settlements
deriving DecidableEq

namespace ReplyType

def Carrier : ReplyType → Type
  | .wallet => Wallet
  | .account => Account
  | .asset => Asset
  | .transaction => Transaction
  | .created => CreateTransactionResponse
  | .verified => X402VerifyResponse
  | .settled => X402SettleResponse
  | .settleStatus => X402SettleStatusResponse
  | .wallets => ListWalletsResponse
  | .accounts => ListAccountsResponse
  | .assets => ListAssetsResponse
  | .transactions => ListTransactionsResponse
  | .settlements => ListX402SettlementsResponse

def deserialize : (t : ReplyType) → Json → Option t.Carrier
  | .wallet => Wallet.record.decode
  | .account => Account.record.decode
  | .asset => Asset.record.decode
  | .transaction => Transaction.record.decode
  | .created => CreateTransactionResponse.deserialize
  | .verified => X402VerifyResponse.record.decode
  | .settled => X402SettleResponse.record.decode
  | .settleStatus => X402SettleStatusResponse.record.decode
  | .wallets => (Page.record Wallet.record).decode
  | .accounts => (Page.record Account.record).decode
  | .assets => (Page.record Asset.record).decode
  | .transactions => (Page.record Transaction.record).decode
  | .settlements => (Page.record X402Settlement.record).decode

/-- The names that the type, or that of its items, has fields for. -/
def known : ReplyType → List String
  | .wallet => Wallet.record.fields.names
  | .account => Account.record.fields.names
  | .asset => Asset.record.fields.names
  | .transaction => Transaction.record.fields.names
  | .created => CreateTransactionResponse.Body.record.fields.names
  | .verified => X402VerifyResponse.record.fields.names
  | .settled => X402SettleResponse.record.fields.names
  | .settleStatus => X402SettleStatusResponse.record.fields.names
  | .wallets => (Page.record Wallet.record).fields.names ++ Wallet.record.fields.names
  | .accounts => (Page.record Account.record).fields.names ++ Account.record.fields.names
  | .assets => (Page.record Asset.record).fields.names ++ Asset.record.fields.names
  | .transactions => (Page.record Transaction.record).fields.names ++ Transaction.record.fields.names
  | .settlements =>
      (Page.record X402Settlement.record).fields.names ++ X402Settlement.record.fields.names

/-- The type's name in the errors of the reader. -/
def name : ReplyType → String
  | .wallet => "struct Wallet"
  | .account => "struct Account"
  | .asset => "struct Asset"
  | .transaction => "struct Transaction"
  | .created => "struct CreateTransactionResponse"
  | .verified => "struct X402VerifyResponse"
  | .settled => "struct X402SettleResponse"
  | .settleStatus => "struct X402SettleStatusResponse"
  | .wallets => "struct ListWalletsResponse"
  | .accounts => "struct ListAccountsResponse"
  | .assets => "struct ListAssetsResponse"
  | .transactions => "struct ListTransactionsResponse"
  | .settlements => "struct ListX402SettlementsResponse"

def fromSlice (json : SerdeJson) (t : ReplyType) : FromSlice t.Carrier :=
  json.fromSlice t.name t.deserialize

end ReplyType

/-! ### Replies of a later schema -/

section tolerance
variable {known : List String}

theorem Wallet.tolerates (h : ∀ n ∈ record.fields.names, n ∈ known) :
    Tolerates known record.decode := by
  have hstring : Tolerates known Codec.string.read := tolerates_string
  exact Record.decode_tolerates h ⟨hstring, hstring, hstring, hstring, hstring, hstring, hstring,
    hstring, trivial⟩

theorem Account.tolerates (h : ∀ n ∈ record.fields.names, n ∈ known) :
    Tolerates known record.decode := by
  have hstring : Tolerates known Codec.string.read := tolerates_string
  exact Record.decode_tolerates h ⟨hstring, hstring, hstring, hstring, hstring, hstring, hstring,
    hstring, hstring, trivial⟩

theorem Asset.tolerates (h : ∀ n ∈ record.fields.names, n ∈ known) :
    Tolerates known record.decode := by
  have hstring : Tolerates known Codec.string.read := tolerates_string
  exact Record.decode_tolerates h ⟨hstring, hstring, hstring, hstring, hstring, hstring, hstring,
    hstring, hstring, tolerates_int32, hstring, hstring, hstring, tolerates_bool, hstring, trivial⟩

theorem Transaction.tolerates (h : ∀ n ∈ record.fields.names, n ∈ known) :
    Tolerates known record.decode := by
  have hstring : Tolerates known Codec.string.read := tolerates_string
  have hoption := tolerates_option hstring
  exact Record.decode_tolerates h ⟨hstring, hstring, hstring, hstring, hstring, hstring, hstring,
    hstring, hstring, hstring, hstring, hoption, hoption, hstring, trivial⟩

theorem CreateTransactionResponse.Body.tolerates (h : ∀ n ∈ record.fields.names, n ∈ known) :
    Tolerates known record.decode := by
  have hstring : Tolerates known Codec.string.read := tolerates_string
  exact Record.decode_tolerates h ⟨hstring, hstring, hstring, tolerates_option hstring, trivial⟩

theorem X402VerifyResponse.tolerates (h : ∀ n ∈ record.fields.names, n ∈ known) :
    Tolerates known record.decode := by
  have hstring : Tolerates known Codec.string.read := tolerates_string
  exact Record.decode_tolerates h ⟨tolerates_bool, tolerates_option hstring, hstring, trivial⟩

theorem X402SettleResponse.tolerates (h : ∀ n ∈ record.fields.names, n ∈ known) :
    Tolerates known record.decode := by
  have hstring : Tolerates known Codec.string.read := tolerates_string
  exact Record.decode_tolerates h ⟨tolerates_bool, hstring, hstring, tolerates_option hstring,
    hstring, hstring, trivial⟩

theorem X402SettleStatusResponse.tolerates (h : ∀ n ∈ record.fields.names, n ∈ known) :
    Tolerates known record.decode := by
  have hstring : Tolerates known Codec.string.read := tolerates_string
  exact Record.decode_tolerates h ⟨tolerates_bool, hstring, hstring, hstring, hstring, trivial⟩

theorem X402Settlement.tolerates (h : ∀ n ∈ record.fields.names, n ∈ known) :
    Tolerates known record.decode := by
  have hstring : Tolerates known Codec.string.read := tolerates_string
  have hoption := tolerates_option hstring
  exact Record.decode_tolerates h ⟨hstring, hstring, hstring, hstring, hstring, hstring,
    tolerates_int64, tolerates_option tolerates_int32, hoption, hoption, hstring, trivial⟩

theorem Page.tolerates {α : Type} {item : Record α}
    (h : ∀ n ∈ (record item).fields.names, n ∈ known) (hitem : Tolerates known item.decode) :
    Tolerates known (record item).decode :=
  Record.decode_tolerates h ⟨tolerates_list (c := item.codec) hitem, tolerates_int64,
    tolerates_bool, trivial⟩

end tolerance

theorem ReplyType.tolerates (t : ReplyType) : Tolerates t.known t.deserialize := by
  cases t with
  | wallet => exact Wallet.tolerates fun _ hn => hn
  | account => exact Account.tolerates fun _ hn => hn
  | asset => exact Asset.tolerates fun _ hn => hn
  | transaction => exact Transaction.tolerates fun _ hn => hn
  | created =>
      exact fun j j' hj => congrArg (Option.map _)
        (CreateTransactionResponse.Body.tolerates (fun _ hn => hn) j j' hj)
  | verified => exact X402VerifyResponse.tolerates fun _ hn => hn
  | settled => exact X402SettleResponse.tolerates fun _ hn => hn
  | settleStatus => exact X402SettleStatusResponse.tolerates fun _ hn => hn
  | wallets =>
      exact Page.tolerates (fun _ hn => List.mem_append_left _ hn)
        (Wallet.tolerates fun _ hn => List.mem_append_right _ hn)
  | accounts =>
      exact Page.tolerates (fun _ hn => List.mem_append_left _ hn)
        (Account.tolerates fun _ hn => List.mem_append_right _ hn)
  | assets =>
      exact Page.tolerates (fun _ hn => List.mem_append_left _ hn)
        (Asset.tolerates fun _ hn => List.mem_append_right _ hn)
  | transactions =>
      exact Page.tolerates (fun _ hn => List.mem_append_left _ hn)
        (Transaction.tolerates fun _ hn => List.mem_append_right _ hn)
  | settlements =>
      exact Page.tolerates (fun _ hn => List.mem_append_left _ hn)
        (X402Settlement.tolerates fun _ hn => List.mem_append_right _ hn)

/-! ### A page has every item -/

/-- The elements of `data` in the body of a page. -/
def pageData : Json → Option (List Json)
  | .object ms =>
      match member ms "data" with
      | some (.array data) => some data
      | _ => none
  | .array (.array data :: _) => some data
  | _ => none

/-- A page is decoded only with all of its items. -/
theorem Page.forall₂_of_decode {α : Type} {item : Record α} {j : Json} {page : Page α}
    (h : (record item).decode j = some page) :
    ∃ data, pageData j = some data ∧
      List.Forall₂ (fun i a => item.decode i = some a) data page.items := by
  have hlist : ∀ (i : Json) (items : List α), item.codec.list.read i = some items →
      ∃ data, i = .array data ∧ List.Forall₂ (fun i a => item.decode i = some a) data items := by
    intro i items hi
    cases i with
    | array data => exact ⟨data, rfl, mapM_eq_some_iff.mp hi⟩
    | _ => cases hi
  cases j with
  | object ms =>
      obtain ⟨-, row, hrow, rfl⟩ := Record.decode_object_iff.mp h
      obtain ⟨items, hitems, hrest⟩ := Option.bind_eq_some_iff.mp hrow
      obtain ⟨rest, -, rfl⟩ := Option.map_eq_some_iff.mp hrest
      have hname : (Field.required "data" item.codec.list).name = "data" := rfl
      rw [hname] at hitems
      cases hm : member ms "data" with
      | none =>
          rw [hm] at hitems
          cases hitems
      | some i =>
          rw [hm] at hitems
          obtain ⟨data, rfl, hall⟩ := hlist i items hitems
          refine ⟨data, ?_, hall⟩
          unfold pageData
          dsimp only
          rw [hm]
  | array items =>
      obtain ⟨row, hrow, rfl⟩ := Option.map_eq_some_iff.mp h
      cases items with
      | nil => cases hrow
      | cons i items =>
          obtain ⟨read, hread, hrest⟩ := Option.bind_eq_some_iff.mp hrow
          obtain ⟨rest, -, rfl⟩ := Option.map_eq_some_iff.mp hrest
          obtain ⟨data, rfl, hall⟩ := hlist i read hread
          exact ⟨data, rfl, hall⟩
  | _ => cases h

section call
variable {α : Type} {item : Record α} {json : SerdeJson} {name : String} {p : Platform}
  {c : MpcClient} {call : ListCall} {es : SdkTrace} {page : Page α}

/-- **A list call that succeeds returns an item for every element of `data` in the reply to its
last attempt, in order, each as it is decoded on its own.** -/
theorem page_of_call
    (h : Program.Trace (call.run p (json.fromSlice name (Page.record item).decode) c).run es
      (some (.ok page))) :
    ∃ es' token reply status bytes j data,
      es = es' ++ [⟨.request ⟨.api, c.getRequest ("/" ++ call.endpoint.path.text)
        (setParams call.fields) token⟩, reply⟩] ∧
      attempt reply = .ok (status, bytes) ∧ status < 400 ∧ json.tree bytes = .ok j ∧
      pageData j = some data ∧ List.Forall₂ (fun i a => item.decode i = some a) data page.items := by
  rw [call.run_eq] at h
  obtain ⟨e, hb, -, -⟩ | ⟨build, a, hb, hsend, ha⟩ := MpcClient.ApiCall.trace h
  · cases hb
  · cases hb
    obtain ⟨r, rfl, hr⟩ := Option.map_eq_some_iff.mp ha.symm
    cases r with
    | error e => cases hr
    | ok body =>
        obtain rfl : body.body = page := Except.ok.inj hr
        obtain ⟨es', token, reply, hes, hfinal⟩ := (send_trace hsend).ends_of_ok
        obtain ⟨bytes, hattempt, hstatus, hread⟩ := finalResult_eq_ok_iff.mp hfinal
        obtain ⟨j, htree, hpage⟩ := SerdeJson.fromSlice_ok_iff.mp hread
        obtain ⟨data, hdata, hall⟩ := Page.forall₂_of_decode hpage
        exact ⟨es', token, reply, body.status, bytes, j, data, hes, hattempt, hstatus, htree, hdata,
          hall⟩

end call

/-! ### Replies that are stored -/

/-- The skipped fields are not written. -/
def CreateTransactionResponse.serialize (r : CreateTransactionResponse) : Json :=
  Body.record.encode ⟨r.txId, r.status, r.message, r.txHash⟩

/-- A created transaction that is stored forgets its HTTP status and its operation. -/
theorem CreateTransactionResponse.deserialize_serialize (r : CreateTransactionResponse) :
    deserialize r.serialize = some { r with httpStatus := 0, operation := "" } := by
  have hok : Body.record.Ok ⟨r.txId, r.status, r.message, r.txHash⟩ :=
    ⟨trivial, trivial, trivial, Codec.ok_option_string _, trivial⟩
  unfold deserialize serialize
  rw [Record.decode_encode_iff.mpr hok]
  rfl

def operations : List String := [operationTransfer, operationProgramCall, operationContractCall]

theorem operation_mem (req : CreateTransactionRequest) : req.operation ∈ operations := by
  cases req <;> simp [operations, CreateTransactionRequest.operation]

theorem CreateTransactionRequest.operation_ne_empty (req : CreateTransactionRequest) :
    req.operation ≠ "" := by
  have hall : ∀ op ∈ operations, op ≠ "" := by decide
  exact hall _ (operation_mem req)

/-- **A reply of a create call that is stored and loaded again is not the one that was returned:
it is broadcast as before, and never accepted.** -/
theorem stored_of_call {json : SerdeJson} {p : Platform} {c : MpcClient} {call : CreateCall json}
    {es : SdkTrace} {resp : CreateTransactionResponse}
    (h : Program.Trace (call.code p c) es (some (.ok resp)))
    (hjson : json.RoundTrips resp.serialize) :
    ∃ stored, CreateTransactionResponse.fromSlice json (json.toVec resp.serialize) = .ok stored ∧
      stored ≠ resp ∧ stored.isBroadcast = resp.isBroadcast ∧ stored.isAccepted = false := by
  refine ⟨_, (SerdeJson.fromSlice_toVec_ok_iff hjson).mpr resp.deserialize_serialize, ?_, rfl, rfl⟩
  obtain ⟨es', token, x, reply, -, -, rfl⟩ := CreateCall.ends_of_ok h
  intro heq
  have hoperation : "" = call.request.operation := congrArg CreateTransactionResponse.operation heq
  exact call.request.operation_ne_empty hoperation.symm

/-! ### A page of one wallet -/

def testWallet : Wallet where
  walletId := "w-1"
  clientId := "c-1"
  walletName := "main"
  description := ""
  status := "ACTIVE"
  keyStatus := "READY"
  createdAt := "2026-09-15T08:00:00Z"
  updatedAt := "2026-09-15T08:00:00Z"

def walletsJson : String :=
  "\x7b\"data\":[\x7b\"wallet_id\":\"w-1\",\"client_id\":\"c-1\",\"wallet_name\":\"main\"" ++
    ",\"description\":\"\",\"status\":\"ACTIVE\",\"key_status\":\"READY\"" ++
    ",\"created_at\":\"2026-09-15T08:00:00Z\",\"updated_at\":\"2026-09-15T08:00:00Z\"\x7d]" ++
    ",\"total\":1,\"has_more\":false\x7d"

/-- The tree of a page with one wallet; `extra` comes after the wallet's own members. -/
def walletsTree (extra : List (String × Json)) : Json :=
  .object [("data", .array [.object (Wallet.record.members testWallet ++ extra)]),
    ("total", .number (.int ⟨1, by decide⟩)), ("has_more", .bool false)]

/-- `serde_json` on the texts of the tests. -/
def replyJson : SerdeJson where
  toVec _ := utf8 swapJson
  tree bytes :=
    if bytes = utf8 walletsJson then .ok (walletsTree [])
    else swapSerdeJson.tree bytes
  mismatch := swapSerdeJson.mismatch

/-- The wallets of the gateway, read with a cached token. -/
def walletsRun : SdkTrace × Option (Except Error (Page Wallet)) :=
  ((ListCall.wallets ⟨none, none⟩).run testPlatform
    (replyJson.fromSlice "struct ListWalletsResponse" (Page.record Wallet.record).decode)
      testClient).run.play
    (alone (some ⟨"token-0", Duration.fromSecs 2000⟩) (Duration.fromSecs 1000)
      [.text 200 walletsJson]) []

theorem page_walletsRun : ∃ es' token reply status bytes j data,
    walletsRun.1 = es' ++ [⟨.request ⟨.api, testClient.getRequest "/api/v1/wallets" [] token⟩, reply⟩] ∧
      attempt reply = .ok (status, bytes) ∧ status < 400 ∧ replyJson.tree bytes = .ok j ∧
      pageData j = some data ∧
      List.Forall₂ (fun i a => Wallet.record.decode i = some a) data [testWallet] := by
  have ht : Program.Trace ((ListCall.wallets ⟨none, none⟩).run testPlatform
      (replyJson.fromSlice "struct ListWalletsResponse" (Page.record Wallet.record).decode)
        testClient).run walletsRun.1 walletsRun.2 := Program.trace_play _ _ _
  have hr : walletsRun.2 = some (.ok ⟨[testWallet], 1, false⟩) := by decide +kernel
  rw [hr] at ht
  exact page_of_call ht

/-- A swap without an idempotency key. -/
def swapWithoutKey : CreateCall replyJson where
  request := swapRequest
  key := none
  exact := by
    have hne : utf8 swapJson ≠ utf8 walletsJson := utf8_injective.ne (by decide +kernel)
    show replyJson.tree (utf8 swapJson) = .ok swapRequest.serialize
    unfold replyJson swapSerdeJson
    dsimp only
    rw [if_neg hne, if_pos (Eq.refl (utf8 swapJson))]

end ParatroSdk
