import ParatroSdk.Traffic
import ParatroSdk.Lib.Lockstep
import ParatroSdk.Replies

/-! # A gateway of a later schema

The gateway may come to write the members of its bodies in another order and to add members
that the SDK has no field for: in the replies of the API, in those of the auth endpoint and in
the bodies of errors.  An application with any number of calls in progress does not notice: it
puts the same requests, at the same moments, keeps the same token, and every call returns the
same (`run_widened`).  Only where a body could not be read before it still cannot, with a text
of `serde_json` that may be another.

The program of a call is related to itself under the two answers to each request
(`alike_code`); the rest is the lockstep of related systems. -/

namespace ParatroSdk

open Serde Json Text Machine Interaction SharedCell Transition Sdk TokenManager

/-! ### The bodies of errors and of the auth endpoint -/

def ErrorBody.record : Record ErrorBody where
  Row := _
  fields := .cons (.required "code" .string) <| .cons (.required "type" .string) <|
    .cons (.required "message" .string) .nil
  toRow b := (b.code, b.errorType, b.message, ())
  ofRow row := { code := row.1, errorType := row.2.1, message := row.2.2.1 }
  ofRow_toRow _ := rfl
  toRow_ofRow _ := rfl
  distinct := by decide +kernel

def ClientInfo.record : Record ClientInfo where
  Row := _
  fields := .cons (.required "client_id" .string) <| .cons (.required "client_name" .string) <|
    .cons (.required "status" .string) <|
    .cons (.defaulted "subscription_tier" .string "" trivial) <|
    .cons (.defaulted "max_wallets" .int64 0 trivial) .nil
  toRow i := (i.clientId, i.clientName, i.status, i.subscriptionTier, i.maxWallets, ())
  ofRow := fun (clientId, clientName, status, subscriptionTier, maxWallets, ()) =>
    { clientId, clientName, status, subscriptionTier, maxWallets }
  ofRow_toRow _ := rfl
  toRow_ofRow _ := rfl
  distinct := by decide +kernel

def TokenResponse.record : Record TokenResponse where
  Row := _
  fields := .cons (.required "token" .string) <| .cons (.required "expires_in" .int64) <|
    .cons (.required "token_type" .string) <|
    .cons (.required "client" ClientInfo.record.codec) .nil
  toRow r := (r.token, r.expiresIn, r.tokenType, r.client, ())
  ofRow := fun (token, expiresIn, tokenType, client, ()) => { token, expiresIn, tokenType, client }
  ofRow_toRow _ := rfl
  toRow_ofRow _ := rfl
  distinct := by decide +kernel

/-- The two readers of the SDK over one `serde_json`. -/
def SerdeJson.platform (json : SerdeJson) (overflowChecks : OverflowChecks) : Platform where
  overflowChecks
  errorBody := json.fromSlice "struct ErrorBody" ErrorBody.record.decode
  tokenResponse := json.fromSlice "struct TokenResponse" TokenResponse.record.decode

section tolerance
variable {known : List String}

theorem ErrorBody.tolerates (h : ∀ n ∈ record.fields.names, n ∈ known) :
    Tolerates known record.decode := by
  have hstring : Tolerates known Codec.string.read := tolerates_string
  exact Record.decode_tolerates h ⟨hstring, hstring, hstring, trivial⟩

theorem ClientInfo.tolerates (h : ∀ n ∈ record.fields.names, n ∈ known) :
    Tolerates known record.decode := by
  have hstring : Tolerates known Codec.string.read := tolerates_string
  exact Record.decode_tolerates h ⟨hstring, hstring, hstring, hstring, tolerates_int64, trivial⟩

theorem TokenResponse.tolerates (h : ∀ n ∈ record.fields.names, n ∈ known)
    (hclient : ∀ n ∈ ClientInfo.record.fields.names, n ∈ known) :
    Tolerates known record.decode := by
  have hstring : Tolerates known Codec.string.read := tolerates_string
  exact Record.decode_tolerates h ⟨hstring, tolerates_int64, hstring, ClientInfo.tolerates hclient,
    trivial⟩

end tolerance

/-! ### Replies of a later schema -/

/-- The names that the SDK has fields for in a body of this status; `known` are those of the
replies of the API. -/
def knownIn (known : List String) (client : HttpClient) (status : ℕ) : List String :=
  if 400 ≤ status then ErrorBody.record.fields.names
  else match client with
    | .auth => TokenResponse.record.fields.names ++ ClientInfo.record.fields.names
    | .api => known

/-- The same reply, or its body in a later schema. -/
inductive WidenedReply (json : SerdeJson) (known : List String) (q : HttpCall) :
    HttpReply → HttpReply → Prop
  | same (x : HttpReply) : WidenedReply json known q x x
  | body {status : ℕ} {bytes bytes' : Bytes} {j j' : Json} (hj : json.tree bytes = .ok j)
      (hj' : json.tree bytes' = .ok j') (h : Widened (knownIn known q.client status) j j') :
      WidenedReply json known q (.ok ⟨status, .ok bytes⟩) (.ok ⟨status, .ok bytes'⟩)

/-- The same result, up to the text of a decode error. -/
inductive AlikeResult {α : Type} : Except Error α → Except Error α → Prop
  | same (r : Except Error α) : AlikeResult r r
  | undecodable (status : ℕ) (e e' : SerdeJsonError) :
      AlikeResult (.error (.decode status e)) (.error (.decode status e'))

theorem AlikeResult.map {α β : Type} {r r' : Except Error α} (h : AlikeResult r r') (f : α → β) :
    AlikeResult (r.map f) (r'.map f) := by
  cases h with
  | same => exact .same _
  | undecodable status e e' => exact .undecodable status e e'

section reading
variable {json : SerdeJson} {m : OverflowChecks} {known : List String} {client : HttpClient}
  {status : ℕ} {bytes bytes' : Bytes} {j j' : Json}

/-- What is read of a body and of the same body in a later schema. -/
def AlikeRead {α : Type} (r r' : Except SerdeJsonError α) : Prop :=
  (∃ a, r = .ok a ∧ r' = .ok a) ∨ ∃ e e', r = .error e ∧ r' = .error e'

theorem fromSlice_widened {α : Type} {read : Json → Option α} (name : String)
    (hread : Tolerates known read) (hj : json.tree bytes = .ok j) (hj' : json.tree bytes' = .ok j')
    (h : Widened known j j') :
    AlikeRead (json.fromSlice name read bytes) (json.fromSlice name read bytes') := by
  unfold SerdeJson.fromSlice
  rw [hj, hj']
  dsimp only
  rw [hread j j' h]
  cases read j' with
  | none => exact .inr ⟨_, _, rfl, rfl⟩
  | some a => exact .inl ⟨a, rfl, rfl⟩

theorem errorBody_widened (hj : json.tree bytes = .ok j) (hj' : json.tree bytes' = .ok j')
    (h : Widened (knownIn known client status) j j') (hstatus : 400 ≤ status) :
    AlikeRead ((json.platform m).errorBody bytes) ((json.platform m).errorBody bytes') := by
  unfold knownIn at h
  rw [if_pos hstatus] at h
  exact fromSlice_widened _ (ErrorBody.tolerates fun _ hn => hn) hj hj' h

theorem tokenResponse_widened (hj : json.tree bytes = .ok j) (hj' : json.tree bytes' = .ok j')
    (h : Widened (knownIn known .auth status) j j') (hstatus : ¬ 400 ≤ status) :
    AlikeRead ((json.platform m).tokenResponse bytes) ((json.platform m).tokenResponse bytes') := by
  unfold knownIn at h
  rw [if_neg hstatus] at h
  have hread := TokenResponse.tolerates (fun _ hn => List.mem_append_left _ hn)
    fun _ hn => List.mem_append_right _ hn
  exact fromSlice_widened _ hread hj hj' h

theorem isTokenExpired_widened (hj : json.tree bytes = .ok j) (hj' : json.tree bytes' = .ok j')
    (h : Widened (knownIn known client status) j j') (hstatus : 400 ≤ status) :
    isTokenExpired (json.platform m) bytes = isTokenExpired (json.platform m) bytes' := by
  unfold isTokenExpired
  obtain ⟨b, hb, hb'⟩ | ⟨e, e', he, he'⟩ := errorBody_widened (m := m) hj hj' h hstatus
  · rw [hb, hb']
  · rw [he, he']

theorem decode_widened {R : Type} {read : Json → Option R} (name : String)
    (hread : Tolerates known read) (hj : json.tree bytes = .ok j) (hj' : json.tree bytes' = .ok j')
    (h : Widened (knownIn known .api status) j j') :
    AlikeResult (decode (json.platform m) (json.fromSlice name read) status bytes)
      (decode (json.platform m) (json.fromSlice name read) status bytes') := by
  unfold decode
  split
  · rename_i hstatus
    obtain ⟨b, hb, hb'⟩ | ⟨e, e', he, he'⟩ := errorBody_widened (m := m) hj hj' h hstatus
    · rw [hb, hb']
      exact .same _
    · rw [he, he']
      exact .same _
  · rename_i hstatus
    unfold knownIn at h
    rw [if_neg hstatus] at h
    obtain ⟨a, ha, ha'⟩ | ⟨e, e', he, he'⟩ := fromSlice_widened name hread hj hj' h
    · rw [ha, ha']
      exact .same _
    · rw [he, he']
      exact .undecodable status e e'

/-- An exchange with the auth endpoint ends the same, or twice without a token. -/
inductive AlikeOutcome : AuthOutcome → AuthOutcome → Prop
  | same (o : AuthOutcome) : AlikeOutcome o o
  | undecodable (status : ℕ) (e e' : SerdeJsonError) :
      AlikeOutcome (.failed (.decode status e)) (.failed (.decode status e'))

theorem authOutcome_widened {q : HttpCall} {x x' : HttpReply} (h : WidenedReply json known q x x')
    (hq : q.client = .auth) :
    AlikeOutcome (authOutcome (json.platform m) x) (authOutcome (json.platform m) x') := by
  cases h with
  | same => exact .same _
  | @body status bytes bytes' j j' hj hj' h =>
      rw [hq] at h
      unfold authOutcome
      dsimp only
      split
      · rename_i hstatus
        unfold errorBodyOf
        dsimp only
        obtain ⟨b, hb, hb'⟩ | ⟨e, e', he, he'⟩ := errorBody_widened (m := m) hj hj' h hstatus
        · rw [hb, hb']
          exact .same _
        · rw [he, he']
          exact .same _
      · rename_i hstatus
        rcases tokenResponse_widened (m := m) hj hj' h hstatus with
          ⟨tokResp, ht, ht'⟩ | ⟨e, e', he, he'⟩
        · rw [ht, ht']
          exact .same _
        · rw [he, he']
          exact .undecodable status e e'

end reading

/-! ### The programs -/

section programs
variable {json : SerdeJson} {known : List String} {m : OverflowChecks} {tm : TokenManager}
  {c : MpcClient}

/-- The programs go the same way under replies of a later schema. -/
abbrev Alike (json : SerdeJson) (known : List String) {α : Type}
    (p q : SdkCode (Except Error α)) : Prop :=
  Code.Rel (WidenedReply json known) AlikeResult p q

theorem alike_ret {α : Type} (r : Except Error α) : Alike json known (.ret r) (.ret r) :=
  .ret (.same r)

theorem alike_install (p : Platform) (tokResp : TokenResponse) :
    Alike json known (install p tokResp) (install p tokResp) := by
  unfold install
  split
  · exact .halt
  · refine .ask_eq (fun _ _ h => h) fun (now : Instant) => ?_
    split
    · exact .halt
    · exact .ask_eq (fun _ _ h => h) fun _ => alike_ret _

theorem alike_conclude (p : Platform) {o o' : AuthOutcome} (h : AlikeOutcome o o') :
    Alike json known (conclude p o) (conclude p o') := by
  cases h with
  | undecodable status e e' => exact .ret (.undecodable status e e')
  | same =>
      cases o with
      | failed e => exact alike_ret _
      | rejected status body => exact .ask_eq (fun _ _ h => h) fun _ => alike_ret _
      | granted tokResp => exact alike_install p tokResp

theorem alike_exchange :
    Alike json known (exchange (json.platform m) tm) (exchange (json.platform m) tm) := by
  refine .ask fun x x' h => ?_
  refine Program.Rel.bind (alike_conclude _ (authOutcome_widened h rfl)) fun r r' hr => ?_
  exact .ask_eq (fun _ _ h => h) fun _ => .ret hr

theorem alike_refresh (stale : Option String) :
    Alike json known (refresh (json.platform m) tm stale).run
      (refresh (json.platform m) tm stale).run := by
  rw [refresh_run]
  refine .ask_eq (fun _ _ h => h) fun _ => .ask_eq (fun _ _ h => h) ?_
  intro cached
  cases cached with
  | none => exact alike_exchange
  | some s =>
      refine .ask_eq (fun _ _ h => h) fun (now : Instant) => ?_
      dsimp only
      split
      · exact .ask_eq (fun _ _ h => h) fun _ => alike_ret _
      · exact alike_exchange

theorem alike_getToken :
    Alike json known (getToken (json.platform m) tm).run (getToken (json.platform m) tm).run := by
  rw [getToken_run]
  refine .ask_eq (fun _ _ h => h) fun _ => .ask_eq (fun _ _ h => h) ?_
  intro cached
  cases cached with
  | none => exact .ask_eq (fun _ _ h => h) fun _ => alike_refresh none
  | some s =>
      refine .ask_eq (fun _ _ h => h) fun (now : Instant) => .ask_eq (fun _ _ h => h) fun _ => ?_
      split
      · exact alike_ret _
      · exact alike_refresh none

/-- An attempt fails the same, or it gets two bodies that are read alike. -/
theorem attempt_widened {request : Request} {x x' : HttpReply}
    (h : WidenedReply json known ⟨.api, request⟩ x x') :
    (∃ e, attempt x = .error e ∧ attempt x' = .error e) ∨
      ∃ status bytes bytes', attempt x = .ok (status, bytes) ∧ attempt x' = .ok (status, bytes') ∧
        (status = 401 → isTokenExpired (json.platform m) bytes =
          isTokenExpired (json.platform m) bytes') ∧
        ∀ {R : Type} {read : Json → Option R} (name : String), Tolerates known read →
          AlikeResult (decode (json.platform m) (json.fromSlice name read) status bytes)
            (decode (json.platform m) (json.fromSlice name read) status bytes') := by
  cases h with
  | same =>
      cases hx : attempt x with
      | error e => exact .inl ⟨e, rfl, rfl⟩
      | ok a => exact .inr ⟨a.1, a.2, a.2, rfl, rfl, fun _ => rfl, fun _ _ => .same _⟩
  | @body status bytes bytes' j j' hj hj' h =>
      refine .inr ⟨status, bytes, bytes', rfl, rfl, fun hstatus => ?_, fun name hread => ?_⟩
      · exact isTokenExpired_widened hj hj' h (by omega)
      · exact decode_widened name hread hj hj' h

section send
variable {R : Type} {read : Json → Option R} (name : String) (hread : Tolerates known read)
  (build : String → Request)
include hread

theorem alike_lastAttempt {r r' : Except Error String} (hr : AlikeResult r r') :
    Alike json known (lastAttempt (json.platform m) (json.fromSlice name read) build r)
      (lastAttempt (json.platform m) (json.fromSlice name read) build r') := by
  cases hr with
  | undecodable status e e' => exact .ret (.undecodable status e e')
  | same =>
      cases r with
      | error e => exact alike_ret _
      | ok token =>
          refine .ask fun x x' h => .ret ?_
          unfold finalResult
          rcases attempt_widened (m := m) h with
            ⟨e, he, he'⟩ | ⟨status, bytes, bytes', hx, hx', -, hdecode⟩
          · rw [he, he']
            exact .same _
          · rw [hx, hx']
            exact hdecode name hread

theorem alike_firstAttempt {r r' : Except Error String} (hr : AlikeResult r r') :
    Alike json known (firstAttempt (json.platform m) (json.fromSlice name read) c build r)
      (firstAttempt (json.platform m) (json.fromSlice name read) c build r') := by
  cases hr with
  | undecodable status e e' => exact .ret (.undecodable status e e')
  | same =>
      cases r with
      | error e => exact alike_ret _
      | ok token =>
          refine .ask fun x x' h => ?_
          rcases attempt_widened (m := m) h with
            ⟨e, he, he'⟩ | ⟨status, bytes, bytes', hx, hx', hexpired, hdecode⟩
          · rw [he, he']
            exact alike_ret _
          · rw [hx, hx']
            dsimp only
            have hsame : (status == 401 && isTokenExpired (json.platform m) bytes) =
                (status == 401 && isTokenExpired (json.platform m) bytes') := by
              by_cases hstatus : status = 401
              · rw [hexpired hstatus]
              · rw [beq_eq_false_iff_ne.mpr hstatus, Bool.false_and, Bool.false_and]
            rw [hsame]
            split
            · exact Program.Rel.bind (alike_refresh (some token)) fun r r' hr =>
                alike_lastAttempt name hread build hr
            · exact .ret (hdecode name hread)

theorem alike_send :
    Alike json known (c.send (json.platform m) (json.fromSlice name read) build).run
      (c.send (json.platform m) (json.fromSlice name read) build).run := by
  rw [send_run]
  exact Program.Rel.bind alike_getToken fun r r' hr => alike_firstAttempt name hread build hr

end send

/-- The call reads its reply as a type that `known` has the names of. -/
def Operation.Reads {β : Type} (json : SerdeJson) (known : List String) (op : Operation β) : Prop :=
  ∃ name read, op.fromSlice = json.fromSlice name read ∧ Tolerates known read

theorem alike_code {β : Type} {op : Operation β} (h : op.Reads json known) :
    Alike json known (op.code (json.platform m) c) (op.code (json.platform m) c) := by
  obtain ⟨name, read, hop, hread⟩ := h
  unfold Operation.code
  rw [MpcClient.ApiCall.run_eq, hop]
  cases op.call.build c with
  | error e => exact alike_ret _
  | ok build =>
      have hcall : Alike json known
          ((c.send (json.platform m) (json.fromSlice name read) build).run >>= fun r =>
            .ret (r.map op.call.view)) _ :=
        Program.Rel.bind (alike_send name hread build) fun r r' hr => .ret (hr.map _)
      exact Program.Rel.bind hcall fun r r' hr => .ret (hr.map _)

end programs

/-! ### The application -/

namespace Application

variable {κ β : Type} {json : SerdeJson} {known : List String} {m : OverflowChecks}
  {c : MpcClient} {ops : κ → Operation β} {s s' : Application κ β}

/-- The two applications differ at most in what their calls do with the next reply. -/
structure Rel (json : SerdeJson) (known : List String) (s s' : Application κ β) : Prop where
  tasks : s.tasks.Rel (WidenedReply json known) AlikeResult s'.tasks
  gateway : s.gateway = s'.gateway

/-- The gateway and the callers see the same of the two applications. -/
structure SameView (s s' : Application κ β) : Prop where
  now : s.now = s'.now
  cache : s.cache = s'.cache
  lock : s.tasks.shared.lock = s'.tasks.shared.lock
  gateway : s.gateway = s'.gateway
  calls : ∀ t, s.call t = s'.call t
  requests : ∀ t, s.waitsFor t = s'.waitsFor t

theorem Rel.requests (h : Rel json known s s') (t : ℕ) : s.waitsFor t = s'.waitsFor t := by
  unfold waitsFor
  cases ht : s.tasks.tasks t with
  | none => rw [h.tasks.absent ht]
  | some x =>
      obtain ⟨k, w⟩ := x
      obtain ⟨w', ht', hw⟩ := h.tasks.present ht
      rw [ht']
      cases hw with
      | ended _ => rfl
      | waiting m _ => rfl
      | asked since q _ => rfl

theorem Rel.calls (h : Rel json known s s') (t : ℕ) : s.call t = s'.call t := by
  unfold call
  cases ht : s.tasks.tasks t with
  | none => rw [h.tasks.absent ht]
  | some x =>
      obtain ⟨k, w⟩ := x
      obtain ⟨w', ht', -⟩ := h.tasks.present ht
      rw [ht']
      rfl

theorem Rel.sameView (h : Rel json known s s') : SameView s s' where
  now := congrArg Shared.clock h.tasks.shared
  cache := congrArg Shared.cell h.tasks.shared
  lock := congrArg Shared.lock h.tasks.shared
  gateway := h.gateway
  calls := h.calls
  requests := h.requests

/-- The same move, but for a reply in a later schema. -/
inductive ActWidened (json : SerdeJson) (known : List String) (s : Application κ β) :
    ApiAct κ → ApiAct κ → Prop
  | task {m m' : Move HttpReply κ} (h : m.Rel (WidenedReply json known) s.tasks m') :
      ActWidened json known s (.task m) (.task m')
  | issue (t : ℕ) (token : String) (lifetime : Int64) :
      ActWidened json known s (.issue t token lifetime) (.issue t token lifetime)

theorem honours_alike {o o' : AuthOutcome} (h : AlikeOutcome o o') (g : Gateway) (t : ℕ) :
    g.honours t o = g.honours t o' := by
  cases h with
  | same => rfl
  | undecodable status e e' => rfl

theorem allows_widened (h : Rel json known s s') {move move' : Move HttpReply κ}
    (hmove : move.Rel (WidenedReply json known) s.tasks move')
    (hallows : s.allows (json.platform m) c move = true) :
    s'.allows (json.platform m) c move' = true := by
  cases hmove with
  | tick d => rfl
  | start t k => rfl
  | grant t => rfl
  | drop t => rfl
  | @reply t x x' hx =>
      cases hwaits : s.waitsFor t with
      | none => simp [allows, hwaits] at hallows
      | some asked =>
          obtain ⟨since, q⟩ := asked
          obtain ⟨k, kont, ht⟩ := asked_of_waitsFor hwaits
          have hwidened := hx k since q kont ht
          have hwaits' := (h.requests t).symm.trans hwaits
          simp only [allows, hwaits, hwaits', Option.any_some, Bool.and_eq_true,
            Bool.or_eq_true, decide_eq_true_eq] at hallows ⊢
          refine ⟨?_, ?_⟩
          · rw [← h.sameView.now]
            cases hwidened with
            | same => exact hallows.1
            | body hj hj' hbody => exact hallows.1
          · cases hq : q.client with
            | api => exact .inl rfl
            | auth =>
                right
                have hhonours := hallows.2.resolve_left (by rw [hq]; decide)
                rw [← h.gateway, ← honours_alike (authOutcome_widened hwidened hq)]
                exact hhonours

theorem step_widened (hops : ∀ k, (ops k).Reads json known) (h : Rel json known s s')
    {a a' : ApiAct κ} (ha : ActWidened json known s a a')
    {r : Application κ β × Option (Finish κ (Except Error β))}
    (hstep : step (json.platform m) c ops s a = some r) :
    ∃ r', step (json.platform m) c ops s' a' = some r' ∧ Rel json known r.1 r'.1 ∧
      Option.Rel (Finish.Rel AlikeResult) r.2 r'.2 := by
  cases ha with
  | issue t token lifetime =>
      have hnow := h.sameView.now
      simp only [step, ← h.requests, ← h.gateway] at hstep ⊢
      split at hstep
      · rename_i hcond
        cases hstep
        rw [if_pos hcond]
        refine ⟨_, rfl, ⟨h.tasks, ?_⟩, .none⟩
        rw [hnow]
      · cases hstep
  | @task move move' hmove =>
      simp only [step] at hstep ⊢
      split at hstep
      · rename_i hallows
        rw [if_pos (allows_widened h hmove hallows)]
        obtain ⟨r₁, hr₁, rfl⟩ := Option.map_eq_some_iff.mp hstep
        obtain ⟨r₂, hr₂, htasks, hout⟩ :=
          step_rel (fun k => alike_code (hops k)) h.tasks hmove hr₁
        rw [hr₂]
        refine ⟨_, rfl, ⟨htasks, ?_⟩, hout⟩
        rw [h.gateway]
        cases hmove <;> rfl
      · cases hstep

/-- **An application does not notice that the gateway writes a later schema.** -/
theorem run_widened (hops : ∀ k, (ops k).Reads json known) {now : Instant}
    {tr : List (ApiEntry κ β)} {acts : List (ApiAct κ)}
    (h : (lts (json.platform m) c ops).Run (initial now) tr s)
    (hacts : List.Forall₂ (fun e a => ActWidened json known e.before e.act a) tr acts) :
    ∃ tr' s', (lts (json.platform m) c ops).Run (initial now) tr' s' ∧ tr'.map (·.act) = acts ∧
      SameView s s' ∧
        List.Forall₂ (Entry.Rel SameView (Option.Rel (Finish.Rel AlikeResult))) tr tr' := by
  have hinitial : Rel json known (initial now : Application κ β) (initial now) :=
    ⟨⟨rfl, fun _ => .none⟩, rfl⟩
  obtain ⟨tr', s', hrun, hmap, hs, hall⟩ := Lts.Run.simulate (M := lts (json.platform m) c ops)
    (fun e t a htook hrel hwidened => by
      obtain ⟨r, hr, hr', hout⟩ := step_widened hops hrel hwidened htook
      exact ⟨r.2, r.1, hr, hout, hr'⟩) hinitial h hacts
  refine ⟨tr', s', hrun, hmap, hs.sameView, hall.imp fun e e' he => ?_⟩
  exact ⟨he.before.sameView, he.out, he.after.sameView⟩

end Application

/-! ### The wallets of a later gateway -/

/-- Every type of reply is one that a list with its names, and any others, will do for. -/
theorem ReplyType.reads {α β : Type} {json : SerdeJson} {known : List String} (t : ReplyType)
    (hknown : ∀ n ∈ t.known, n ∈ known) (call : MpcClient.ApiCall t.Carrier α) (wrap : α → β) :
    Operation.Reads json known ⟨t.fromSlice json, call, wrap⟩ :=
  ⟨t.name, t.deserialize, rfl, fun j j' h => t.tolerates j j' (h.mono hknown)⟩

def walletsJsonNext : String :=
  "\x7b\"data\":[\x7b\"wallet_id\":\"w-1\",\"client_id\":\"c-1\",\"wallet_name\":\"main\"" ++
    ",\"description\":\"\",\"status\":\"ACTIVE\",\"key_status\":\"READY\"" ++
    ",\"created_at\":\"2026-09-15T08:00:00Z\",\"updated_at\":\"2026-09-15T08:00:00Z\"" ++
    ",\"key_shares\":3\x7d],\"total\":1,\"has_more\":false\x7d"

def tokenJsonNext : String :=
  "\x7b\"expires_in\":900,\"token\":\"token-0\",\"token_type\":\"Bearer\"" ++
    ",\"client\":\x7b\"client_id\":\"\"" ++
    ",\"client_name\":\"\",\"status\":\"ACTIVE\",\"region\":\"eu\"\x7d\x7d"

/-- The client of the granted token. -/
def clientMembers : List (String × Json) :=
  [("client_id", .string ""), ("client_name", .string ""), ("status", .string "ACTIVE")]

def tokenTree : Json :=
  .object [("token", .string "token-0"), ("expires_in", .number (.int ⟨900, by decide⟩)),
    ("token_type", .string "Bearer"), ("client", .object clientMembers)]

def tokenTreeNext : Json :=
  .object [("expires_in", .number (.int ⟨900, by decide⟩)), ("token", .string "token-0"),
    ("token_type", .string "Bearer"),
    ("client", .object (clientMembers ++ [("region", .string "eu")]))]

/-- `serde_json` on the four texts. -/
def widenedJson : SerdeJson where
  toVec _ := utf8 walletsJson
  tree bytes :=
    if bytes = utf8 walletsJson then .ok (walletsTree [])
    else if bytes = utf8 walletsJsonNext then
      .ok (walletsTree [("key_shares", .number (.int ⟨3, by decide⟩))])
    else if bytes = utf8 tokenJson0 then .ok tokenTree
    else if bytes = utf8 tokenJsonNext then .ok tokenTreeNext
    else .error ⟨"expected value"⟩
  mismatch _ _ := ⟨"missing field"⟩

/-- Every task asks for the wallets. -/
def walletsOps : Unit → Operation (Page Wallet) :=
  fun _ => ⟨ReplyType.wallets.fromSlice widenedJson, .getWithQuery "/api/v1/wallets" [], id⟩

/-- Task 1 logs in and gets the wallets; `token` and `wallets` are the bodies of the replies. -/
def walletsActs (token wallets : String) : List (ApiAct Unit) :=
  [.task (.start 1 ()), .task (.grant 1), .task (.grant 1), .issue 1 "token-0" 900,
    .task (.reply 1 (.text 200 token)), .task (.reply 1 (.text 200 wallets))]

/-- The run of these moves. -/
def walletsRunOf (token wallets : String) :=
  (Application.lts (widenedJson.platform .off) testClient walletsOps).play (.initial 0)
    (walletsActs token wallets)

theorem tree_walletsJson : widenedJson.tree (utf8 walletsJson) = .ok (walletsTree []) := by
  unfold widenedJson
  dsimp only
  rw [if_pos (Eq.refl (utf8 walletsJson))]

theorem tree_walletsJsonNext : widenedJson.tree (utf8 walletsJsonNext) =
    .ok (walletsTree [("key_shares", .number (.int ⟨3, by decide⟩))]) := by
  have hne : utf8 walletsJsonNext ≠ utf8 walletsJson := utf8_injective.ne (by decide +kernel)
  unfold widenedJson
  dsimp only
  rw [if_neg hne, if_pos (Eq.refl (utf8 walletsJsonNext))]

theorem tree_tokenJson0 : widenedJson.tree (utf8 tokenJson0) = .ok tokenTree := by
  have hne : utf8 tokenJson0 ≠ utf8 walletsJson := utf8_injective.ne (by decide +kernel)
  have hne' : utf8 tokenJson0 ≠ utf8 walletsJsonNext := utf8_injective.ne (by decide +kernel)
  unfold widenedJson
  dsimp only
  rw [if_neg hne, if_neg hne', if_pos (Eq.refl (utf8 tokenJson0))]

theorem tree_tokenJsonNext : widenedJson.tree (utf8 tokenJsonNext) = .ok tokenTreeNext := by
  have hne : utf8 tokenJsonNext ≠ utf8 walletsJson := utf8_injective.ne (by decide +kernel)
  have hne' : utf8 tokenJsonNext ≠ utf8 walletsJsonNext := utf8_injective.ne (by decide +kernel)
  have hne'' : utf8 tokenJsonNext ≠ utf8 tokenJson0 := utf8_injective.ne (by decide +kernel)
  unfold widenedJson
  dsimp only
  rw [if_neg hne, if_neg hne', if_neg hne'', if_pos (Eq.refl (utf8 tokenJsonNext))]

theorem widened_tokenTree {known : List String} (h : "region" ∉ known) :
    Widened known tokenTree tokenTreeNext := by
  refine .trans (.perm (List.Perm.swap ..)) ?_
  exact .member [_, _, _] "client" [] (.unknown clientMembers (by simpa using h))

theorem widened_walletsTree {known : List String} (h : "key_shares" ∉ known) :
    Widened known (walletsTree [])
      (walletsTree [("key_shares", .number (.int ⟨3, by decide⟩))]) := by
  refine .member [] "data" _ (.item [] [] ?_)
  rw [List.append_nil]
  exact .unknown _ (by simpa using h)

theorem run_wallets : ∃ tr' s',
    (Application.lts (widenedJson.platform .off) testClient walletsOps).Run (.initial 0) tr' s' ∧
      tr'.map (·.act) = walletsActs tokenJsonNext walletsJsonNext ∧
      Application.SameView (walletsRunOf tokenJson0 walletsJson).2 s' ∧
      List.Forall₂ (Entry.Rel Application.SameView (Option.Rel (Finish.Rel AlikeResult)))
        (walletsRunOf tokenJson0 walletsJson).1 tr' := by
  have hacts : (walletsRunOf tokenJson0 walletsJson).1.map (·.act) =
      walletsActs tokenJson0 walletsJson := Lts.play_acts (by decide +kernel)
  have hregion (client : HttpClient) :
      "region" ∉ knownIn ReplyType.wallets.known client 200 := by
    cases client <;> decide +kernel
  have hshares (client : HttpClient) :
      "key_shares" ∉ knownIn ReplyType.wallets.known client 200 := by
    cases client <;> decide +kernel
  have hwidened : List.Forall₂
      (fun a a' => ∀ s : Application Unit (Page Wallet),
        Application.ActWidened widenedJson ReplyType.wallets.known s a a')
      (walletsActs tokenJson0 walletsJson) (walletsActs tokenJsonNext walletsJsonNext) := by
    refine .cons ?_ <| .cons ?_ <| .cons ?_ <| .cons ?_ <| .cons ?_ <| .cons ?_ .nil
    · exact fun s => .task (.start 1 ())
    · exact fun s => .task (.grant 1)
    · exact fun s => .task (.grant 1)
    · exact fun s => .issue 1 "token-0" 900
    · exact fun s => .task (.reply 1 fun _ _ q _ _ =>
        .body tree_tokenJson0 tree_tokenJsonNext (widened_tokenTree (hregion q.client)))
    · exact fun s => .task (.reply 1 fun _ _ q _ _ =>
        .body tree_walletsJson tree_walletsJsonNext (widened_walletsTree (hshares q.client)))
  refine Application.run_widened (fun _ => ReplyType.wallets.reads (fun _ hn => hn) _ id)
    (Lts.run_play _ _ _) ?_
  rw [← hacts, List.forall₂_map_left_iff] at hwidened
  exact hwidened.imp fun e a h => h e.before

end ParatroSdk
