import ParatroSdk.Client

/-! # At most one resend

The requests of the SDK move money, so `send` may repeat one only when the gateway says it
has not been served: after `401 token_expired`.  `SendTrace` lists the ways a call of `send`
can go, `send_trace` proves there is no other, and `atMostOneResend_iff` states what holds
of every call for arbitrary answers of the cache, the clock and the gateway.  The one thing
that can go wrong is the arithmetic of the token's deadline: a token granted with a lifetime
that puts the deadline out of range panics, and then the call does not return. -/

namespace ParatroSdk

open Text Machine Interaction SharedCell Sdk TokenManager

/-- The request without the value of its Authorization header. -/
def Request.redact (request : Request) : Request :=
  { request with headers := request.headers.map fun h =>
      if h.1 = "Authorization" then (h.1, "") else h }

/-- The reply is a 401 whose body decodes as an `ErrorBody` with code `token_expired`. -/
def AnsweredExpired (p : Platform) (reply : HttpReply) : Prop :=
  ∃ resp bytes body, reply = .ok resp ∧ resp.status = 401 ∧ resp.body = .ok bytes ∧
    p.errorBody bytes = .ok body ∧ body.code = code.tokenExpired

/-- The attempts at the API, with what answered them. -/
def apiAttempts (es : SdkTrace) : List HttpEvent := (http es).filter (·.1.client = .api)

/-- The exchanges with the auth endpoint. -/
def authExchanges (es : SdkTrace) : List HttpEvent := (http es).filter (·.1.client = .auth)

@[simp] theorem apiAttempts_nil : apiAttempts [] = [] := rfl

@[simp] theorem apiAttempts_append (es₁ es₂ : SdkTrace) :
    apiAttempts (es₁ ++ es₂) = apiAttempts es₁ ++ apiAttempts es₂ := by
  simp [apiAttempts]

@[simp] theorem apiAttempts_api_cons (request : Request) (reply : HttpReply) (es : SdkTrace) :
    apiAttempts (⟨.request ⟨.api, request⟩, reply⟩ :: es) =
      (⟨.api, request⟩, reply) :: apiAttempts es := rfl

@[simp] theorem authExchanges_append (es₁ es₂ : SdkTrace) :
    authExchanges (es₁ ++ es₂) = authExchanges es₁ ++ authExchanges es₂ := by
  simp [authExchanges]

@[simp] theorem authExchanges_api_cons (request : Request) (reply : HttpReply) (es : SdkTrace) :
    authExchanges (⟨.request ⟨.api, request⟩, reply⟩ :: es) = authExchanges es := rfl

/-! ### The steps of `send` -/

/-- What an attempt yields of its reply. -/
def attempt : HttpReply → Except Error (ℕ × Bytes)
  | .error e => .error (.http e)
  | .ok resp =>
      match resp.body with
      | .error e => .error (.http e)
      | .ok bytes => .ok (resp.status, bytes)

/-- What `send` returns of the reply to its last attempt. -/
def finalResult {R : Type} (p : Platform) (fromSlice : FromSlice R) (reply : HttpReply) :
    Except Error (Reply R) :=
  match attempt reply with
  | .error e => .error e
  | .ok (status, bytes) => decode p fromSlice status bytes

section send
variable {R : Type} {p : Platform} {fromSlice : FromSlice R} {c : MpcClient}
  {build : String → Request} {es : SdkTrace}

theorem run_execute_bind {β : Type} (request : Request) (f : ℕ × Bytes → Sdk β) :
    (MpcClient.execute request >>= f).run =
      .ask (.request ⟨.api, request⟩) fun reply =>
        match attempt reply with
        | .error e => .ret (.error e)
        | .ok a => (f a).run := by
  unfold MpcClient.execute
  rw [bind_assoc, run_send_bind]
  refine congrArg (Program.ask _) (funext fun (reply : HttpReply) => ?_)
  cases reply with
  | error e => rfl
  | ok resp =>
      unfold attempt
      dsimp only
      cases resp.body <;> rfl

theorem run_decode (status : ℕ) (bytes : Bytes) :
    (mapErr id (decode p fromSlice status bytes) : Sdk (Reply R)).run =
      .ret (decode p fromSlice status bytes) := by
  cases decode p fromSlice status bytes <;> rfl

theorem answeredExpired_iff (reply : HttpReply) :
    AnsweredExpired p reply ↔
      ∃ status bytes, attempt reply = .ok (status, bytes) ∧
        (status == 401 && isTokenExpired p bytes) = true := by
  constructor
  · rintro ⟨resp, bytes, body, rfl, hs, hb, he, hc⟩
    refine ⟨401, bytes, ?_, ?_⟩
    · unfold attempt
      simp only [hb, hs]
    · unfold isTokenExpired
      simp only [he, hc, beq_self_eq_true, Bool.and_self]
  · rintro ⟨status, bytes, ha, hexp⟩
    rw [Bool.and_eq_true, beq_iff_eq] at hexp
    unfold attempt at ha
    unfold isTokenExpired at hexp
    split at ha
    · cases ha
    · rename_i resp
      split at ha
      · cases ha
      · rename_i hb
        cases ha
        obtain ⟨hs, hexp⟩ := hexp
        split at hexp
        · rename_i body he
          exact ⟨resp, bytes, body, rfl, hs, hb, he, beq_iff_eq.mp hexp⟩
        · cases hexp

/-- The second attempt: it ends the call whatever the reply is. -/
def lastAttempt (p : Platform) (fromSlice : FromSlice R) (build : String → Request) :
    Except Error String → SdkCode (Except Error (Reply R))
  | .error e => .ret (.error e)
  | .ok token => .ask (.request ⟨.api, build token⟩) fun reply => .ret (finalResult p fromSlice reply)

/-- The first attempt, and the second after a refresh if the token was answered expired. -/
def firstAttempt (p : Platform) (fromSlice : FromSlice R) (c : MpcClient)
    (build : String → Request) : Except Error String → SdkCode (Except Error (Reply R))
  | .error e => .ret (.error e)
  | .ok token => .ask (.request ⟨.api, build token⟩) fun reply =>
      match attempt reply with
      | .error e => .ret (.error e)
      | .ok (status, bytes) =>
          if status == 401 && isTokenExpired p bytes then
            (c.tokenManager.refreshAfterExpiry p token).run >>= lastAttempt p fromSlice build
          else .ret (decode p fromSlice status bytes)

theorem execute_decode_run (token : String) :
    (do let (status, bytes) ← MpcClient.execute (build token)
        mapErr id (decode p fromSlice status bytes) : Sdk (Reply R)).run =
      lastAttempt p fromSlice build (.ok token) := by
  rw [run_execute_bind]
  refine congrArg (Program.ask _) (funext fun (reply : HttpReply) => ?_)
  unfold finalResult
  cases attempt reply with
  | error e => rfl
  | ok a => exact run_decode a.1 a.2

theorem send_run : (c.send p fromSlice build).run =
    ((c.tokenManager.getToken p).run >>= firstAttempt p fromSlice c build) := by
  unfold MpcClient.send
  rw [ExceptT.run_bind]
  refine congrArg ((c.tokenManager.getToken p).run >>= ·) (funext fun r => ?_)
  cases r with
  | error e => rfl
  | ok token =>
      dsimp only
      rw [run_execute_bind]
      refine congrArg (Program.ask _) (funext fun (reply : HttpReply) => ?_)
      cases attempt reply with
      | error e => rfl
      | ok a =>
          obtain ⟨status, bytes⟩ := a
          dsimp only
          by_cases hexp : (status == 401 && isTokenExpired p bytes) = true
          · rw [if_pos hexp, if_pos hexp, ExceptT.run_bind]
            refine congrArg ((c.tokenManager.refreshAfterExpiry p token).run >>= ·)
              (funext fun r' => ?_)
            cases r' with
            | error e => rfl
            | ok token' => exact execute_decode_run token'
          · rw [if_neg hexp, if_neg hexp]
            exact run_decode status bytes

/-- How a call of `send` can go, with the result it returns. -/
inductive SendTrace (p : Platform) (fromSlice : FromSlice R) (c : MpcClient)
    (build : String → Request) : SdkTrace → Option (Except Error (Reply R)) → Prop where
  | noToken {es : SdkTrace} {e : Error} :
      Program.Trace (c.tokenManager.getToken p).run es (some (.error e)) →
      SendTrace p fromSlice c build es (some (.error e))
  | tokenPanic {es : SdkTrace} :
      Program.Trace (c.tokenManager.getToken p).run es none →
      SendTrace p fromSlice c build es none
  | once {es : SdkTrace} {token : String} {reply : HttpReply} :
      Program.Trace (c.tokenManager.getToken p).run es (some (.ok token)) →
      ¬ AnsweredExpired p reply →
      SendTrace p fromSlice c build (es ++ [⟨.request ⟨.api, build token⟩, reply⟩])
        (some (finalResult p fromSlice reply))
  | noRefresh {es es' : SdkTrace} {token : String} {reply : HttpReply} {e : Error} :
      Program.Trace (c.tokenManager.getToken p).run es (some (.ok token)) →
      AnsweredExpired p reply →
      Program.Trace (c.tokenManager.refreshAfterExpiry p token).run es' (some (.error e)) →
      SendTrace p fromSlice c build (es ++ ⟨.request ⟨.api, build token⟩, reply⟩ :: es')
        (some (.error e))
  | refreshPanic {es es' : SdkTrace} {token : String} {reply : HttpReply} :
      Program.Trace (c.tokenManager.getToken p).run es (some (.ok token)) →
      AnsweredExpired p reply →
      Program.Trace (c.tokenManager.refreshAfterExpiry p token).run es' none →
      SendTrace p fromSlice c build (es ++ ⟨.request ⟨.api, build token⟩, reply⟩ :: es') none
  | twice {es es' : SdkTrace} {token token' : String} {reply reply' : HttpReply} :
      Program.Trace (c.tokenManager.getToken p).run es (some (.ok token)) →
      AnsweredExpired p reply →
      Program.Trace (c.tokenManager.refreshAfterExpiry p token).run es' (some (.ok token')) →
      SendTrace p fromSlice c build
        (es ++ ⟨.request ⟨.api, build token⟩, reply⟩ ::
          (es' ++ [⟨.request ⟨.api, build token'⟩, reply'⟩]))
        (some (finalResult p fromSlice reply'))

theorem send_trace {r : Option (Except Error (Reply R))}
    (h : Program.Trace (c.send p fromSlice build).run es r) :
    SendTrace p fromSlice c build es r := by
  rw [send_run] at h
  obtain ⟨a, es₁, es₂, h₁, h₂, rfl⟩ | ⟨h₁, rfl⟩ := Program.trace_bind_iff.mp h
  · cases a with
    | error e =>
        obtain ⟨rfl, rfl⟩ := Program.trace_ret_iff.mp h₂
        rw [List.append_nil]
        exact .noToken h₁
    | ok token =>
        obtain ⟨reply, es₃, rfl, h₃⟩ := Program.trace_ask_iff.mp h₂
        have hexp := answeredExpired_iff (p := p) reply
        cases ha : attempt reply with
        | error e =>
            rw [ha] at h₃ hexp
            obtain ⟨rfl, rfl⟩ := Program.trace_ret_iff.mp h₃
            have hfin : finalResult p fromSlice reply = .error e := by
              unfold finalResult
              rw [ha]
            rw [← hfin]
            exact .once h₁ (fun h => by obtain ⟨_, _, h, -⟩ := hexp.mp h; cases h)
        | ok a =>
            obtain ⟨status, bytes⟩ := a
            rw [ha] at h₃ hexp
            dsimp only at h₃
            split at h₃
            · rename_i hcond
              have hans := hexp.mpr ⟨status, bytes, rfl, hcond⟩
              obtain ⟨b, es₄, es₅, h₄, h₅, rfl⟩ | ⟨h₄, rfl⟩ := Program.trace_bind_iff.mp h₃
              · cases b with
                | error e =>
                    obtain ⟨rfl, rfl⟩ := Program.trace_ret_iff.mp h₅
                    rw [List.append_nil]
                    exact .noRefresh h₁ hans h₄
                | ok token' =>
                    obtain ⟨reply', es₆, rfl, h₆⟩ := Program.trace_ask_iff.mp h₅
                    obtain ⟨rfl, rfl⟩ := Program.trace_ret_iff.mp h₆
                    exact .twice h₁ hans h₄
              · exact .refreshPanic h₁ hans h₄
            · rename_i hcond
              obtain ⟨rfl, rfl⟩ := Program.trace_ret_iff.mp h₃
              have hfin : finalResult p fromSlice reply = decode p fromSlice status bytes := by
                unfold finalResult
                rw [ha]
              rw [← hfin]
              refine .once h₁ (fun h => ?_)
              obtain ⟨_, _, heq, h'⟩ := hexp.mp h
              cases heq
              exact hcond h'
  · exact .tokenPanic h₁

theorem panicsOnDeadline_send : PanicsOnDeadline p (c.send p fromSlice build).run := by
  rw [send_run]
  refine panicsOnDeadline_bind panicsOnDeadline_getToken fun r => ?_
  cases r with
  | error e => exact panicsOnDeadline_ret _
  | ok token =>
      refine panicsOnDeadline_ask (by simp) fun (reply : HttpReply) => ?_
      cases attempt reply with
      | error e => exact panicsOnDeadline_ret _
      | ok a =>
          dsimp only
          split
          · refine panicsOnDeadline_bind (panicsOnDeadline_refresh _) fun r' => ?_
            cases r' with
            | error e => exact panicsOnDeadline_ret _
            | ok token' =>
                exact panicsOnDeadline_ask (by simp) fun _ => panicsOnDeadline_ret _
          · exact panicsOnDeadline_ret _

end send

/-! ### Where an expired token shows -/

/-- Only a 401 with code `token_expired` is of kind `tokenExpired`. -/
theorem eq_api_of_kind_tokenExpired {e : Error} (h : e.kind = some .tokenExpired) :
    ∃ body, e = .api 401 body ∧ body.code = code.tokenExpired := by
  cases e with
  | api status body =>
      have hk := Option.some.inj h
      obtain ⟨-, hb⟩ | ⟨-, hb⟩ | ⟨rfl, hc, -⟩ := status_of_kind hk rfl
      · obtain ⟨p, hp, -⟩ | ⟨-, he⟩ := kindOfBadRequest_cases body
        · rw [hb] at hp
          cases hp
        · rw [hb] at he
          split at he
          · cases he
          · split at he <;> cases he
      · unfold kindOfUnavailable at hb
        split at hb
        · cases hb
        · split at hb <;> cases hb
      · exact ⟨body, rfl, hc⟩
  | http e => cases h
  | decode status source => cases h
  | invalidConfig msg => cases h

section expired
variable {R α : Type} {p : Platform} {fromSlice : FromSlice R} {c : MpcClient} {tm : TokenManager}
  {es : SdkTrace}

/-- The client and `send` agree on what an expired token is: the error of an attempt has kind
`tokenExpired` only if its reply was answered expired. -/
theorem answeredExpired_of_finalResult {reply : HttpReply} {e : Error}
    (h : finalResult p fromSlice reply = .error e) (hk : e.kind = some .tokenExpired) :
    AnsweredExpired p reply := by
  obtain ⟨body, rfl, hc⟩ := eq_api_of_kind_tokenExpired hk
  unfold finalResult attempt at h
  cases reply with
  | error e => cases h
  | ok resp =>
      dsimp only at h
      cases hb : resp.body with
      | error e => rw [hb] at h; cases h
      | ok bytes =>
          rw [hb] at h
          dsimp only at h
          unfold decode at h
          split at h
          · split at h
            · rename_i body' he
              obtain ⟨hs, rfl⟩ := Error.api.inj (Except.error.inj h)
              exact ⟨resp, bytes, body', rfl, hs, hb, he, hc⟩
            · obtain ⟨-, rfl⟩ := Error.api.inj (Except.error.inj h)
              exact absurd hc (by decide)
          · split at h <;> cases h

theorem answeredExpired_of_concluded {reply : HttpReply} {e : Error}
    (h : Concluded (authOutcome p reply) (some (.error e))) (hk : e.kind = some .tokenExpired) :
    AnsweredExpired p reply := by
  obtain ⟨body, rfl, hc⟩ := eq_api_of_kind_tokenExpired hk
  unfold authOutcome at h
  cases reply with
  | error e => cases h
  | ok resp =>
      dsimp only at h
      split at h
      · obtain ⟨hs, hbody⟩ := Error.api.inj (Except.error.inj (Option.some.inj h))
        unfold errorBodyOf at hbody
        cases hb : resp.body with
        | error e =>
            rw [hb] at hbody
            rw [hbody] at hc
            exact absurd (show "unknown" = code.tokenExpired from hc) (by decide)
        | ok bytes =>
            rw [hb] at hbody
            dsimp only at hbody
            cases he : p.errorBody bytes with
            | error e =>
                rw [he] at hbody
                rw [hbody] at hc
                exact absurd (show "unknown" = code.tokenExpired from hc) (by decide)
            | ok body' =>
                rw [he] at hbody
                rw [hbody] at hc
                exact ⟨resp, bytes, body', rfl, hs.symm, hb, he, hc⟩
      · split at h
        · cases h
        · split at h
          · cases h
          · rcases h with h | h <;> cases h

theorem apiAttempts_tokenCall {r : Option (Except Error String)} (h : TokenCall p tm es r) :
    apiAttempts es = [] := by
  unfold apiAttempts
  rcases h with ⟨hh, -, -⟩ | ⟨reply, hh, -, -⟩ <;> rw [hh] <;> rfl

theorem authExchanges_tokenCall {r : Option (Except Error String)} (h : TokenCall p tm es r) :
    (authExchanges es).length ≤ 1 := by
  unfold authExchanges
  rcases h with ⟨hh, -, -⟩ | ⟨reply, hh, -, -⟩ <;> rw [hh]
  · exact Nat.zero_le 1
  · exact le_refl 1

theorem expired_tokenCall {e : Error} (h : TokenCall p tm es (some (.error e)))
    (hk : e.kind = some .tokenExpired) : ∃ x ∈ authExchanges es, AnsweredExpired p x.2 := by
  obtain ⟨-, -, token, hr⟩ | ⟨reply, hh, hr, -⟩ := h
  · cases hr
  · refine ⟨(⟨.auth, tm.authRequest⟩, reply), ?_, answeredExpired_of_concluded hr hk⟩
    unfold authExchanges
    rw [hh]
    exact List.mem_singleton_self _

end expired

/-! ### The contract -/

/-- The second attempt follows a first one answered expired and a refresh that succeeded for
the token of the first; it repeats the request with the new token. -/
structure Resent (p : Platform) (c : MpcClient) (es : SdkTrace) (first second : HttpEvent) :
    Prop where
  expired : AnsweredExpired p first.2
  refreshed : ∃ es₁ es₂ stale token,
    es = es₁ ++ ⟨.request first.1, first.2⟩ :: (es₂ ++ [⟨.request second.1, second.2⟩]) ∧
      MpcClient.authorization stale ∈ first.1.request.headers ∧
      Program.Trace (c.tokenManager.refreshAfterExpiry p stale).run es₂ (some (.ok token)) ∧
      MpcClient.authorization token ∈ second.1.request.headers
  same : first.1.request.redact = second.1.request.redact

/-- What is promised of a call that made the exchanges `es` and ended with `r`. -/
structure AtMostOneResend {α : Type} (p : Platform) (c : MpcClient) (es : SdkTrace)
    (r : Option (Except Error α)) : Prop where
  attempts : (apiAttempts es).length ≤ 2
  exchanges : (authExchanges es).length ≤ 2
  returns : r.isSome = true
  resent : ∀ first second, apiAttempts es = [first, second] → Resent p c es first second
  final : ∀ first rest, apiAttempts es = first :: rest → ¬ AnsweredExpired p first.2 → rest = []
  gated : ∀ es₁ es₂ e, es = es₁ ++ es₂ →
    Program.Trace (c.tokenManager.getToken p).run es₁ (some (.error e)) → apiAttempts es = []
  expiredKind : ∀ e, r = some (.error e) → e.kind = some .tokenExpired →
    (∃ first second, apiAttempts es = [first, second] ∧ AnsweredExpired p first.2 ∧
      AnsweredExpired p second.2) ∨ ∃ x ∈ authExchanges es, AnsweredExpired p x.2

section contract
variable {R α β : Type} {p : Platform} {fromSlice : FromSlice R} {c : MpcClient}
  {build : String → Request} {es : SdkTrace}

theorem AtMostOneResend.map {r : Option (Except Error α)} (f : α → β)
    (h : AtMostOneResend p c es r) : AtMostOneResend p c es (r.map (·.map f)) := by
  refine ⟨h.attempts, h.exchanges, by rw [Option.isSome_map]; exact h.returns, h.resent, h.final,
    h.gated, ?_⟩
  intro e he hk
  refine h.expiredKind e ?_ hk
  cases r with
  | none => cases he
  | some r' =>
      cases r' with
      | error e' => cases he; rfl
      | ok a => cases he

/-- The builders of the SDK put the token in the Authorization header and nowhere else. -/
theorem redact_build {call : MpcClient.ApiCall R α} (h : call.build c = .ok build)
    (token token' : String) :
    (build token).redact = (build token').redact ∧
      MpcClient.authorization token ∈ (build token).headers := by
  have hpost : ∀ path headers payload,
      (c.postRequest path headers payload token).redact =
          (c.postRequest path headers payload token').redact ∧
        MpcClient.authorization token ∈ (c.postRequest path headers payload token).headers := by
    intro path headers payload
    constructor
    · rfl
    · exact List.mem_cons_of_mem _ List.mem_cons_self
  have hget : ∀ path params,
      (c.getRequest path params token).redact = (c.getRequest path params token').redact ∧
        MpcClient.authorization token ∈ (c.getRequest path params token).headers :=
    fun path params => ⟨rfl, List.mem_cons_self⟩
  cases call with
  | post path body | postWithStatus path body =>
      cases body with
      | error e => cases h
      | ok payload => cases h; exact hpost _ _ _
  | postWithHeaders path body headers | postWithStatusAndHeaders path body headers =>
      cases body with
      | error e => cases h
      | ok payload => cases h; exact hpost _ _ _
  | get path => cases h; exact hget _ _
  | getWithQuery path params => cases h; exact hget _ _

theorem gated_of_getToken {es' : SdkTrace} {r : Except Error String}
    (h : Program.Trace (c.tokenManager.getToken p).run es (some r)) (hr : ∀ e, r ≠ .error e)
    (es₁ es₂ : SdkTrace) (e : Error) (heq : es ++ es' = es₁ ++ es₂)
    (h₁ : Program.Trace (c.tokenManager.getToken p).run es₁ (some (.error e))) :
    apiAttempts (es ++ es') = [] := by
  obtain ⟨-, hr'⟩ := Program.Trace.prefix_unique h h₁ heq
  exact absurd (Option.some.inj hr') (hr e)

/-- A call that made one attempt and then at most one auth exchange keeps the contract. -/
theorem atMostOneResend_once {es₁ es₂ : SdkTrace} {token : String} {request : Request}
    {reply : HttpReply} {r : Except Error α}
    (h : Program.Trace (c.tokenManager.getToken p).run es₁ (some (.ok token)))
    (hapi : apiAttempts es₂ = []) (hauth : (authExchanges es₂).length ≤ 1)
    (hkind : ∀ e, r = .error e → e.kind = some .tokenExpired →
      ∃ x ∈ authExchanges es₂, AnsweredExpired p x.2) :
    AtMostOneResend p c (es₁ ++ ⟨.request ⟨.api, request⟩, reply⟩ :: es₂) (some r) := by
  have htc := getToken_trace h
  have hone : apiAttempts (es₁ ++ ⟨.request ⟨.api, request⟩, reply⟩ :: es₂) =
      [(⟨.api, request⟩, reply)] := by
    rw [apiAttempts_append, apiAttempts_tokenCall htc, apiAttempts_api_cons, hapi, List.nil_append]
  have hauth₁ := authExchanges_tokenCall htc
  refine ⟨by simp [hone], ?_, rfl, by simp [hone], ?_, gated_of_getToken h (by simp), ?_⟩
  · rw [authExchanges_append, authExchanges_api_cons, List.length_append]
    omega
  · intro first rest heq _
    rw [hone] at heq
    exact (List.cons.inj heq).2.symm
  · intro e he hk
    obtain ⟨x, hx, hans⟩ := hkind e (Option.some.inj he) hk
    refine .inr ⟨x, ?_, hans⟩
    rw [authExchanges_append, authExchanges_api_cons]
    exact List.mem_append_right _ hx

/-- A call that made the second attempt after a refresh keeps the contract. -/
theorem atMostOneResend_twice {es₁ es₂ : SdkTrace} {token token' : String} {reply reply' : HttpReply}
    (h₁ : Program.Trace (c.tokenManager.getToken p).run es₁ (some (.ok token)))
    (hexp : AnsweredExpired p reply)
    (h₂ : Program.Trace (c.tokenManager.refreshAfterExpiry p token).run es₂ (some (.ok token')))
    (hbuild : ∀ token token', (build token).redact = (build token').redact ∧
      MpcClient.authorization token ∈ (build token).headers) :
    AtMostOneResend p c (es₁ ++ ⟨.request ⟨.api, build token⟩, reply⟩ ::
      (es₂ ++ [⟨.request ⟨.api, build token'⟩, reply'⟩])) (some (finalResult p fromSlice reply')) := by
  have htc := getToken_trace h₁
  have htc' := refresh_trace h₂
  have hapi : apiAttempts (es₁ ++ ⟨.request ⟨.api, build token⟩, reply⟩ ::
      (es₂ ++ [⟨.request ⟨.api, build token'⟩, reply'⟩])) =
      [(⟨.api, build token⟩, reply), (⟨.api, build token'⟩, reply')] := by
    rw [apiAttempts_append, apiAttempts_tokenCall htc, apiAttempts_api_cons,
      apiAttempts_append, apiAttempts_tokenCall htc', List.nil_append, List.nil_append]
    rfl
  have hauth := authExchanges_tokenCall htc
  have hauth' := authExchanges_tokenCall htc'
  refine ⟨by simp [hapi], ?_, rfl, ?_, ?_, gated_of_getToken h₁ (by simp), ?_⟩
  · rw [authExchanges_append, authExchanges_api_cons, authExchanges_append,
      authExchanges_api_cons, List.length_append, List.length_append]
    have hnil : (authExchanges ([] : SdkTrace)).length = 0 := rfl
    omega
  · intro first second heq
    rw [hapi] at heq
    cases heq
    exact ⟨hexp, ⟨es₁, es₂, token, token', rfl, (hbuild token token').2, h₂,
      (hbuild token' token).2⟩, (hbuild token token').1⟩
  · intro first rest heq hno
    rw [hapi] at heq
    obtain ⟨rfl, -⟩ := List.cons.inj heq
    exact absurd hexp hno
  · intro e he hk
    exact .inl ⟨_, _, hapi, hexp, answeredExpired_of_finalResult (Option.some.inj he) hk⟩

/-- A call of `send` that returns keeps the contract. -/
theorem SendTrace.atMostOneResend {r : Option (Except Error (Reply R))}
    (h : SendTrace p fromSlice c build es r) (hr : r.isSome = true)
    (hbuild : ∀ token token', (build token).redact = (build token').redact ∧
      MpcClient.authorization token ∈ (build token).headers) :
    AtMostOneResend p c es r := by
  cases h with
  | noToken h₁ =>
      have htc := getToken_trace h₁
      have hapi := apiAttempts_tokenCall htc
      have hauth := authExchanges_tokenCall htc
      refine ⟨by simp [hapi], by omega, rfl, by simp [hapi], by simp [hapi], ?_, ?_⟩
      · intro es₁ es₂ e' _ _
        exact hapi
      · intro e' he hk
        cases he
        exact .inr (expired_tokenCall htc hk)
  | tokenPanic h₁ => cases hr
  | once h₁ hfinal =>
      refine atMostOneResend_once h₁ rfl (Nat.zero_le 1) fun e he hk => ?_
      exact absurd (answeredExpired_of_finalResult he hk) hfinal
  | noRefresh h₁ hexp h₂ =>
      have htc := refresh_trace h₂
      refine atMostOneResend_once h₁ (apiAttempts_tokenCall htc) (authExchanges_tokenCall htc)
        fun e he hk => ?_
      cases he
      exact expired_tokenCall htc hk
  | refreshPanic h₁ hexp h₂ => cases hr
  | twice h₁ hexp h₂ => exact atMostOneResend_twice h₁ hexp h₂ hbuild

/-- A call whose body cannot be serialized ends with an error that has no kind. -/
theorem kind_of_build {call : MpcClient.ApiCall R α} {e : Error} (h : call.build c = .error e) :
    e.kind = none := by
  cases call with
  | post path body | postWithStatus path body =>
      cases body with
      | error e => cases h; rfl
      | ok payload => cases h
  | postWithHeaders path body headers | postWithStatusAndHeaders path body headers =>
      cases body with
      | error e => cases h; rfl
      | ok payload => cases h
  | get path => cases h
  | getWithQuery path params => cases h

theorem panicsOnDeadline_call (call : MpcClient.ApiCall R α) :
    PanicsOnDeadline p (call.run p fromSlice c).run := by
  rw [MpcClient.ApiCall.run_eq]
  cases call.build c with
  | error e => exact panicsOnDeadline_ret _
  | ok build => exact panicsOnDeadline_bind panicsOnDeadline_send fun r => panicsOnDeadline_ret _

/-- A call that returns keeps the contract. -/
theorem contract_of_returns (call : MpcClient.ApiCall R α) {r : Except Error α}
    (h : Program.Trace (call.run p fromSlice c).run es (some r)) :
    AtMostOneResend p c es (some r) := by
  obtain ⟨e, hb, rfl, hr⟩ | ⟨build, a, hb, hsend, hr⟩ := MpcClient.ApiCall.trace h
  · cases hr
    refine ⟨by simp [apiAttempts], by simp [authExchanges], rfl, by simp [apiAttempts],
      by simp [apiAttempts], fun _ _ _ _ _ => rfl, ?_⟩
    intro e' he hk
    cases he
    rw [kind_of_build hb] at hk
    cases hk
  · cases a with
    | none => cases hr
    | some a =>
        rw [hr]
        exact ((send_trace hsend).atMostOneResend rfl (redact_build hb)).map call.view

/-- **A call resends at most once, and only what the gateway refused as expired; it keeps the
whole contract exactly when no auth reply of the call grants a token whose deadline is out
of range.** -/
theorem atMostOneResend_iff (call : MpcClient.ApiCall R α) {r : Option (Except Error α)}
    (h : Program.Trace (call.run p fromSlice c).run es r) :
    AtMostOneResend p c es r ↔ ¬ DeadlinePanics p es := by
  rw [← (panicsOnDeadline_call call).eq_none_iff h]
  cases r with
  | none => exact iff_of_false (fun hc => Bool.false_ne_true hc.returns) (not_not_intro rfl)
  | some r => exact iff_of_true (contract_of_returns call h) (by simp)

end contract

/-! ### Two calls of the test gateway -/

def testClient : MpcClient where
  config := Config.new "https://gateway.example"
  tokenManager := testManager

def testCall : MpcClient.ApiCall Bytes Bytes :=
  .postWithHeaders "/api/v1/transactions" (.ok (utf8 "\x7b\x7d")) [(headerIdempotencyKey, "idem-2")]

/-- The call alone on its client, with a cached token that the gateway no longer accepts. -/
def testRun (tokenJson : String) : SdkTrace × Option (Except Error Bytes) :=
  (testCall.run testPlatform .ok testClient).run.play
    (alone (some ⟨"token-0", Duration.fromSecs 1100⟩) (Duration.fromSecs 1000)
      [.text 401 tokenExpiredJson, .text 200 tokenJson, .text 200 "\x7b\x7d"]) []

theorem trace_testRun (tokenJson : String) :
    Program.Trace (testCall.run testPlatform .ok testClient).run
      (testRun tokenJson).1 (testRun tokenJson).2 :=
  Program.trace_play _ _ _

theorem atMostOneResend_testRun :
    (testRun tokenJson1).2 = some (.ok (utf8 "\x7b\x7d")) ∧
      (apiAttempts (testRun tokenJson1).1).length = 2 ∧
      AtMostOneResend testPlatform testClient (testRun tokenJson1).1 (testRun tokenJson1).2 := by
  obtain ⟨hr, hlen⟩ : (testRun tokenJson1).2 = some (.ok (utf8 "\x7b\x7d")) ∧
      (apiAttempts (testRun tokenJson1).1).length = 2 := by decide +kernel
  have h := trace_testRun tokenJson1
  refine ⟨hr, hlen, (atMostOneResend_iff testCall h).mpr ?_⟩
  rw [← (panicsOnDeadline_call testCall).eq_none_iff h, hr]
  simp

/-- A token granted for 9223372036854775807 seconds: the call panics in the refresh. -/
theorem not_atMostOneResend_maxLifetime :
    ¬ ∀ es r, Program.Trace (testCall.run testPlatform .ok testClient).run es r →
      AtMostOneResend testPlatform testClient es r := by
  intro h
  have hr : (testRun tokenJsonMax).2 = none := by decide +kernel
  have hreturns := (h _ _ (trace_testRun tokenJsonMax)).returns
  rw [hr] at hreturns
  cases hreturns

end ParatroSdk
