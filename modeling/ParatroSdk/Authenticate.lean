import ParatroSdk.Token

/-! # The token calls, step by step

`authOutcome` reads the reply of the auth endpoint once: the exchange failed without an
answer the SDK can use, the gateway rejected it, or it granted a token.  `conclude` is what
`refresh` then does under the write guard.  The `*_run` theorems are the programs of
`src/token.rs` in this form, and the `*_trace` theorems say which HTTP exchanges a token
call makes and how its result depends on them, whatever the cache, the clock and the
gateway answer. -/

namespace ParatroSdk

open Text Machine Interaction SharedCell Sdk

/-- The trace of a program of the SDK. -/
abbrev SdkTrace := List (Exchange (effects (Option TokenState) HttpCall HttpReply))

/-- One HTTP exchange. -/
abbrev HttpEvent := HttpCall × HttpReply

/-- The HTTP exchange an operation is, if it is one. -/
def httpOf : Exchange (effects (Option TokenState) HttpCall HttpReply) → Option HttpEvent
  | ⟨.request call, reply⟩ => some (call, reply)
  | _ => none

/-- The HTTP exchanges of a trace, in order. -/
def http (es : SdkTrace) : List HttpEvent := es.filterMap httpOf

@[simp] theorem http_nil : http [] = [] := rfl

@[simp] theorem http_append (es₁ es₂ : SdkTrace) : http (es₁ ++ es₂) = http es₁ ++ http es₂ :=
  List.filterMap_append

@[simp] theorem http_request_cons (call : HttpCall) (reply : HttpReply) (es : SdkTrace) :
    http (⟨.request call, reply⟩ :: es) = (call, reply) :: http es := rfl

@[simp] theorem http_acquire_cons (m : Mode) (u : Unit) (es : SdkTrace) :
    http (⟨.acquire m, u⟩ :: es) = http es := rfl

@[simp] theorem http_release_cons (u : Unit) (es : SdkTrace) :
    http (⟨.release, u⟩ :: es) = http es := rfl

@[simp] theorem http_load_cons (s : Option TokenState) (es : SdkTrace) :
    http (⟨.load, s⟩ :: es) = http es := rfl

@[simp] theorem http_store_cons (s : Option TokenState) (u : Unit) (es : SdkTrace) :
    http (⟨.store s, u⟩ :: es) = http es := rfl

@[simp] theorem http_clock_cons (now : Instant) (es : SdkTrace) :
    http (⟨.clock, now⟩ :: es) = http es := rfl

/-- The cache entry an operation stores, if it stores one. -/
def storedOf : Exchange (effects (Option TokenState) HttpCall HttpReply) → Option TokenState
  | ⟨.store s, _⟩ => s
  | _ => none

/-- The cache entries a trace stores, in order. -/
def stored (es : SdkTrace) : List TokenState := es.filterMap storedOf

@[simp] theorem stored_nil : stored [] = [] := rfl

@[simp] theorem stored_append (es₁ es₂ : SdkTrace) :
    stored (es₁ ++ es₂) = stored es₁ ++ stored es₂ := List.filterMap_append

@[simp] theorem stored_request_cons (call : HttpCall) (reply : HttpReply) (es : SdkTrace) :
    stored (⟨.request call, reply⟩ :: es) = stored es := rfl

@[simp] theorem stored_acquire_cons (m : Mode) (u : Unit) (es : SdkTrace) :
    stored (⟨.acquire m, u⟩ :: es) = stored es := rfl

@[simp] theorem stored_release_cons (u : Unit) (es : SdkTrace) :
    stored (⟨.release, u⟩ :: es) = stored es := rfl

@[simp] theorem stored_load_cons (s : Option TokenState) (es : SdkTrace) :
    stored (⟨.load, s⟩ :: es) = stored es := rfl

@[simp] theorem stored_store_cons (s : TokenState) (u : Unit) (es : SdkTrace) :
    stored (⟨.store (some s), u⟩ :: es) = s :: stored es := rfl

@[simp] theorem stored_drop_cons (u : Unit) (es : SdkTrace) :
    stored (⟨.store none, u⟩ :: es) = stored es := rfl

@[simp] theorem stored_clock_cons (now : Instant) (es : SdkTrace) :
    stored (⟨.clock, now⟩ :: es) = stored es := rfl

/-- The answers for a task alone on its token manager: the cell holds what was stored last,
`cache` at first, the clock stands at `now`, and the requests are answered by `replies` in
turn. -/
def alone (cache : Option TokenState) (now : Instant) (replies : List HttpReply) (done : SdkTrace) :
    (o : Op (Option TokenState) HttpCall) →
      (effects (Option TokenState) HttpCall HttpReply).Answer o
  | .acquire _ => ()
  | .release => ()
  | .load => done.foldl (fun s e => match e with | ⟨.store s', _⟩ => s' | _ => s) cache
  | .store _ => ()
  | .clock => now
  | .request _ => (replies[(http done).length]?).getD (.error ⟨"connection refused"⟩)

/-! ### The reply of the auth endpoint -/

/-- How an exchange with the auth endpoint ended, as `refresh` sees it. -/
inductive AuthOutcome where
  | failed (e : Error)
  | rejected (status : ℕ) (body : ErrorBody)
  | granted (tokResp : TokenResponse)

namespace TokenManager

variable (p : Platform) (tm : TokenManager)

def authOutcome (reply : HttpReply) : AuthOutcome :=
  match reply with
  | .error e => .failed (.http e)
  | .ok resp =>
      if 400 ≤ resp.status then .rejected resp.status (errorBodyOf p resp)
      else
        match resp.body with
        | .error e => .failed (.http e)
        | .ok bytes =>
            match p.tokenResponse bytes with
            | .error e => .failed (.decode resp.status e)
            | .ok tokResp => .granted tokResp

theorem authOutcome_text {p : Platform} {body : String} {tokResp : TokenResponse}
    (h : p.tokenResponse (utf8 body) = .ok tokResp) :
    authOutcome p (HttpReply.text 200 body) = .granted tokResp := by
  unfold authOutcome HttpReply.text
  simp [h]

/-- Store the granted token with its deadline and return it. -/
def install (tokResp : TokenResponse) : SdkCode (Except Error String) :=
  match expiresInSecs p.overflowChecks tokResp.expiresIn with
  | none => .halt
  | some secs => .ask .clock fun (now : Instant) =>
      match now.add (Duration.fromSecs secs) with
      | none => .halt
      | some expiresAt =>
          .ask (.store (some ⟨tokResp.token, expiresAt⟩)) fun _ => .ret (.ok tokResp.token)

/-- What `refresh` does with the outcome, the write guard held. -/
def conclude : AuthOutcome → SdkCode (Except Error String)
  | .failed e => .ret (.error e)
  | .rejected status body => .ask (.store none) fun _ => .ret (.error (.api status body))
  | .granted tokResp => install p tokResp

theorem install_run (tokResp : TokenResponse) :
    (do let secs ← orPanic (expiresInSecs p.overflowChecks tokResp.expiresIn)
        let expiresAt ← orPanic ((← now).add (Duration.fromSecs secs))
        store (some ⟨tokResp.token, expiresAt⟩)
        return tokResp.token : Sdk String).run = install p tokResp := by
  unfold install
  rw [run_orPanic_bind]
  generalize expiresInSecs p.overflowChecks tokResp.expiresIn = secs?
  cases secs? with
  | none => rfl
  | some secs =>
      simp only [run_now_bind]
      refine congrArg (Program.ask _) (funext fun now => ?_)
      rw [run_orPanic_bind]
      generalize Instant.add now (Duration.fromSecs secs) = expiresAt?
      cases expiresAt? <;> rfl

theorem authenticate_run :
    (authenticate p tm).run =
      .ask (.request ⟨.auth, tm.authRequest⟩) fun reply => conclude p (authOutcome p reply) := by
  unfold authenticate
  rw [run_send_bind]
  refine congrArg (Program.ask _) (funext fun (reply : HttpReply) => ?_)
  cases reply with
  | error e => rfl
  | ok resp =>
      simp only [authOutcome]
      by_cases hs : 400 ≤ resp.status
      · rw [if_pos hs, if_pos hs]
        rfl
      · rw [if_neg hs, if_neg hs]
        cases resp.body with
        | error e => rfl
        | ok bytes =>
            rw [run_mapErr_ok_bind]
            dsimp only
            cases p.tokenResponse bytes with
            | error e => rfl
            | ok tokResp =>
                rw [run_mapErr_ok_bind]
                exact install_run p tokResp

/-- The rest of `refresh` after the reply: conclude and release the write guard. -/
def concludeRefresh (reply : HttpReply) : SdkCode (Except Error String) :=
  conclude p (authOutcome p reply) >>= fun r => .ask .release fun _ => .ret r

/-- The exchange of `refresh`, up to the release of the write guard. -/
def exchange : SdkCode (Except Error String) :=
  .ask (.request ⟨.auth, tm.authRequest⟩) (concludeRefresh p)

/-- The part of `refresh` after the write lock is granted. -/
def refreshLocked (stale : Option String) : SdkCode (Except Error String) :=
  .ask .load fun (cached : Option TokenState) =>
    match cached with
    | none => exchange p tm
    | some s => .ask .clock fun (now : Instant) =>
        if reusable stale s now then .ask .release fun _ => .ret (.ok s.token)
        else exchange p tm

theorem refresh_run (stale : Option String) :
    (refresh p tm stale).run = .ask (.acquire .write) fun _ => refreshLocked p tm stale := by
  unfold refresh
  rw [run_guarded]
  refine congrArg (Program.ask _) (funext fun _ => ?_)
  rw [run_load_bind, Program.ask_bind]
  refine congrArg (Program.ask _) (funext fun (cached : Option TokenState) => ?_)
  cases cached with
  | none =>
      simp only [authenticate_run]
      rfl
  | some s =>
      simp only [run_now_bind, Program.ask_bind]
      refine congrArg (Program.ask _) (funext fun (now : Instant) => ?_)
      by_cases h : reusable stale s now = true
      · rw [if_pos h, if_pos h]
        rfl
      · rw [if_neg h, if_neg h, authenticate_run]
        rfl

/-- The part of `get_token` after the read lock is granted. -/
def getTokenLocked : SdkCode (Except Error String) :=
  .ask .load fun (cached : Option TokenState) =>
    match cached with
    | none => .ask .release fun _ => (refresh p tm none).run
    | some s => .ask .clock fun (now : Instant) => .ask .release fun _ =>
        if now < s.expiresAt then .ret (.ok s.token) else (refresh p tm none).run

theorem getToken_run :
    (getToken p tm).run = .ask (.acquire .read) fun _ => getTokenLocked p tm := by
  unfold getToken
  rw [run_guarded_bind]
  refine congrArg (Program.ask _) (funext fun _ => ?_)
  rw [run_load_bind, Program.ask_bind]
  refine congrArg (Program.ask _) (funext fun (cached : Option TokenState) => ?_)
  cases cached with
  | none => rfl
  | some s =>
      simp only [run_now_bind, Program.ask_bind]
      refine congrArg (Program.ask _) (funext fun (now : Instant) => ?_)
      by_cases h : now < s.expiresAt
      · rw [if_pos h, run_pure, Program.ret_bind]
        simp only [if_pos h, run_pure]
      · rw [if_neg h, run_pure, Program.ret_bind]
        simp only [if_neg h]

/-! ### Traces of the token calls -/

/-- The result of a token call whose exchange had this outcome; a granted token may still
have a deadline that cannot be computed. -/
def Concluded : AuthOutcome → Option (Except Error String) → Prop
  | .failed e, r => r = some (.error e)
  | .rejected status body, r => r = some (.error (.api status body))
  | .granted tokResp, r => r = none ∨ r = some (.ok tokResp.token)

/-- A token call ends with a cached token and no HTTP exchange, or it makes one exchange
with the auth endpoint and ends as its outcome says, storing no other token. -/
def TokenCall (es : SdkTrace) (r : Option (Except Error String)) : Prop :=
  (http es = [] ∧ stored es = [] ∧ ∃ token, r = some (.ok token)) ∨
    ∃ reply, http es = [(⟨.auth, tm.authRequest⟩, reply)] ∧ Concluded (authOutcome p reply) r ∧
      ∀ s ∈ stored es, ∃ tokResp, authOutcome p reply = .granted tokResp ∧ s.token = tokResp.token

variable {p tm} {es : SdkTrace} {r : Option (Except Error String)}

theorem install_trace {tokResp : TokenResponse} (h : Program.Trace (install p tokResp) es r) :
    http es = [] ∧ (r = none ∨ r = some (.ok tokResp.token)) ∧
      ∀ s ∈ stored es, s.token = tokResp.token := by
  unfold install at h
  split at h
  · obtain ⟨rfl, rfl⟩ := Program.trace_halt_iff.mp h
    simp
  · obtain ⟨now, es₁, rfl, h₁⟩ := Program.trace_ask_iff.mp h
    split at h₁
    · obtain ⟨rfl, rfl⟩ := Program.trace_halt_iff.mp h₁
      simp
    · obtain ⟨u, es₂, rfl, h₂⟩ := Program.trace_ask_iff.mp h₁
      obtain ⟨rfl, rfl⟩ := Program.trace_ret_iff.mp h₂
      simp

theorem conclude_trace {o : AuthOutcome} (h : Program.Trace (conclude p o) es r) :
    http es = [] ∧ Concluded o r ∧
      ∀ s ∈ stored es, ∃ tokResp, o = .granted tokResp ∧ s.token = tokResp.token := by
  cases o with
  | failed e =>
      obtain ⟨rfl, rfl⟩ := Program.trace_ret_iff.mp h
      exact ⟨rfl, rfl, by simp⟩
  | rejected status body =>
      obtain ⟨u, es₁, rfl, h₁⟩ := Program.trace_ask_iff.mp h
      obtain ⟨rfl, rfl⟩ := Program.trace_ret_iff.mp h₁
      exact ⟨rfl, rfl, by simp⟩
  | granted tokResp =>
      obtain ⟨hhttp, hr, hs⟩ := install_trace h
      exact ⟨hhttp, hr, fun s hmem => ⟨tokResp, rfl, hs s hmem⟩⟩

theorem exchange_trace (h : Program.Trace (exchange p tm) es r) :
    ∃ reply, http es = [(⟨.auth, tm.authRequest⟩, reply)] ∧ Concluded (authOutcome p reply) r ∧
      ∀ s ∈ stored es, ∃ tokResp, authOutcome p reply = .granted tokResp ∧
        s.token = tokResp.token := by
  obtain ⟨reply, es₁, rfl, h₁⟩ := Program.trace_ask_iff.mp h
  refine ⟨reply, ?_⟩
  obtain ⟨a, es₂, es₃, h₂, h₃, rfl⟩ | ⟨h₂, rfl⟩ := Program.trace_bind_iff.mp h₁
  · obtain ⟨hhttp, hr, hs⟩ := conclude_trace h₂
    obtain ⟨u, es₄, rfl, h₄⟩ := Program.trace_ask_iff.mp h₃
    obtain ⟨rfl, rfl⟩ := Program.trace_ret_iff.mp h₄
    simpa [hhttp] using ⟨hr, hs⟩
  · obtain ⟨hhttp, hr, hs⟩ := conclude_trace h₂
    simpa [hhttp] using ⟨hr, hs⟩

theorem refresh_trace {stale : Option String} (h : Program.Trace (refresh p tm stale).run es r) :
    TokenCall p tm es r := by
  rw [refresh_run] at h
  obtain ⟨u, es₁, rfl, h₁⟩ := Program.trace_ask_iff.mp h
  obtain ⟨cached, es₂, rfl, h₂⟩ := Program.trace_ask_iff.mp h₁
  unfold TokenCall
  simp only [http_acquire_cons, http_load_cons, stored_acquire_cons, stored_load_cons]
  cases cached with
  | none => exact .inr (exchange_trace h₂)
  | some s =>
      obtain ⟨now, es₃, rfl, h₃⟩ := Program.trace_ask_iff.mp h₂
      rw [http_clock_cons, stored_clock_cons]
      split at h₃
      · obtain ⟨u', es₄, rfl, h₄⟩ := Program.trace_ask_iff.mp h₃
        obtain ⟨rfl, rfl⟩ := Program.trace_ret_iff.mp h₄
        exact .inl ⟨rfl, rfl, s.token, rfl⟩
      · exact .inr (exchange_trace h₃)

theorem getToken_trace (h : Program.Trace (getToken p tm).run es r) : TokenCall p tm es r := by
  rw [getToken_run] at h
  obtain ⟨u, es₁, rfl, h₁⟩ := Program.trace_ask_iff.mp h
  obtain ⟨cached, es₂, rfl, h₂⟩ := Program.trace_ask_iff.mp h₁
  unfold TokenCall
  simp only [http_acquire_cons, http_load_cons, stored_acquire_cons, stored_load_cons]
  cases cached with
  | none =>
      obtain ⟨u', es₃, rfl, h₃⟩ := Program.trace_ask_iff.mp h₂
      simp only [http_release_cons, stored_release_cons]
      exact refresh_trace h₃
  | some s =>
      obtain ⟨now, es₃, rfl, h₃⟩ := Program.trace_ask_iff.mp h₂
      obtain ⟨u', es₄, rfl, h₄⟩ := Program.trace_ask_iff.mp h₃
      simp only [http_clock_cons, http_release_cons, stored_clock_cons, stored_release_cons]
      split at h₄
      · obtain ⟨rfl, rfl⟩ := Program.trace_ret_iff.mp h₄
        exact .inl ⟨rfl, rfl, s.token, rfl⟩
      · exact refresh_trace h₄

/-! ### Panics -/

/-- No deadline can be computed for a token granted with `expiresIn`; the clock is read
next in `rest`. -/
def NoDeadline (m : OverflowChecks) (expiresIn : Int64) (rest : SdkTrace) : Prop :=
  expiresInSecs m expiresIn = none ∨
    ∃ now rest', rest = ⟨.clock, now⟩ :: rest' ∧ deadline m now expiresIn = none

/-- Some auth reply of the trace grants a token whose deadline cannot be computed. -/
def DeadlinePanics (p : Platform) : SdkTrace → Prop
  | [] => False
  | e :: rest =>
      (∃ request reply tokResp, e = ⟨.request ⟨.auth, request⟩, reply⟩ ∧
        authOutcome p reply = .granted tokResp ∧
          NoDeadline p.overflowChecks tokResp.expiresIn rest) ∨ DeadlinePanics p rest

/-- A trace that panicked got a token without a deadline; one that returned got none. -/
def PanickedOnDeadline {α : Type} (p : Platform) (es : SdkTrace) : Option α → Prop
  | none => DeadlinePanics p es
  | some _ => ∀ more, DeadlinePanics p (es ++ more) ↔ DeadlinePanics p more

/-- The program panics on a granted token without a deadline, and on nothing else. -/
def PanicsOnDeadline {α : Type} (p : Platform) (q : SdkCode α) : Prop :=
  ∀ es r, Program.Trace q es r → PanickedOnDeadline p es r

section panics
variable {α β : Type}

theorem PanicsOnDeadline.eq_none_iff {q : SdkCode α} (hq : PanicsOnDeadline p q) {es : SdkTrace}
    {r : Option α} (h : Program.Trace q es r) : r = none ↔ DeadlinePanics p es := by
  have hp := hq es r h
  cases r with
  | none => exact iff_of_true rfl hp
  | some a =>
      have hno := hp []
      rw [List.append_nil] at hno
      exact iff_of_false (by simp) (hno.not.mpr id)

theorem deadlinePanics_cons {e : Exchange (effects (Option TokenState) HttpCall HttpReply)}
    {rest : SdkTrace} (h : ∀ request, e.op ≠ .request ⟨.auth, request⟩) :
    DeadlinePanics p (e :: rest) ↔ DeadlinePanics p rest := by
  constructor
  · rintro (⟨request, reply, tokResp, rfl, -⟩ | h')
    · exact absurd rfl (h request)
    · exact h'
  · exact .inr

theorem deadlinePanics_auth_cons {request : Request} {reply : HttpReply} {rest : SdkTrace} :
    DeadlinePanics p (⟨.request ⟨.auth, request⟩, reply⟩ :: rest) ↔
      (∃ tokResp, authOutcome p reply = .granted tokResp ∧
        NoDeadline p.overflowChecks tokResp.expiresIn rest) ∨ DeadlinePanics p rest := by
  constructor
  · rintro (⟨request', reply', tokResp, he, h⟩ | h)
    · cases he
      exact .inl ⟨tokResp, h⟩
    · exact .inr h
  · rintro (⟨tokResp, h⟩ | h)
    · exact .inl ⟨request, reply, tokResp, rfl, h⟩
    · exact .inr h

theorem panicsOnDeadline_ret (a : α) : PanicsOnDeadline p (.ret a : SdkCode α) := by
  intro es r h
  obtain ⟨rfl, rfl⟩ := Program.trace_ret_iff.mp h
  intro more
  rfl

theorem panicsOnDeadline_ask {o : Op (Option TokenState) HttpCall}
    {k : (effects (Option TokenState) HttpCall HttpReply).Answer o → SdkCode α}
    (ho : ∀ request, o ≠ .request ⟨.auth, request⟩) (hk : ∀ x, PanicsOnDeadline p (k x)) :
    PanicsOnDeadline p (.ask o k) := by
  intro es r h
  obtain ⟨x, es', rfl, h'⟩ := Program.trace_ask_iff.mp h
  have := hk x es' r h'
  cases r with
  | none => exact (deadlinePanics_cons ho).mpr this
  | some a =>
      intro more
      rw [List.cons_append, deadlinePanics_cons ho]
      exact this more

theorem panicsOnDeadline_bind {q : SdkCode α} {f : α → SdkCode β} (hq : PanicsOnDeadline p q)
    (hf : ∀ a, PanicsOnDeadline p (f a)) : PanicsOnDeadline p (q >>= f) := by
  intro es r h
  obtain ⟨a, es₁, es₂, h₁, h₂, rfl⟩ | ⟨h₁, rfl⟩ := Program.trace_bind_iff.mp h
  · have e₁ := hq es₁ (some a) h₁
    have e₂ := hf a es₂ r h₂
    cases r with
    | none => exact (e₁ es₂).mpr e₂
    | some b =>
        intro more
        rw [List.append_assoc, e₁]
        exact e₂ more
  · exact hq es none h₁

theorem panicsOnDeadline_install {tokResp : TokenResponse} {reply : HttpReply} {request : Request}
    (ho : authOutcome p reply = .granted tokResp) (es : SdkTrace)
    (r : Option (Except Error String)) (h : Program.Trace (install p tokResp) es r) :
    PanickedOnDeadline p (⟨.request ⟨.auth, request⟩, reply⟩ :: es) r := by
  unfold install at h
  split at h
  · rename_i hsecs
    obtain ⟨rfl, rfl⟩ := Program.trace_halt_iff.mp h
    exact deadlinePanics_auth_cons.mpr (.inl ⟨tokResp, ho, .inl hsecs⟩)
  · rename_i secs hsecs
    obtain ⟨now, es₁, rfl, h₁⟩ := Program.trace_ask_iff.mp h
    split at h₁
    · rename_i hadd
      obtain ⟨rfl, rfl⟩ := Program.trace_halt_iff.mp h₁
      refine deadlinePanics_auth_cons.mpr (.inl ⟨tokResp, ho, .inr ⟨now, [], rfl, ?_⟩⟩)
      rw [deadline, hsecs, Option.bind_some, hadd]
    · rename_i expiresAt hadd
      obtain ⟨u, es₂, rfl, h₂⟩ := Program.trace_ask_iff.mp h₁
      obtain ⟨rfl, rfl⟩ := Program.trace_ret_iff.mp h₂
      intro more
      rw [List.cons_append, deadlinePanics_auth_cons, List.cons_append, List.cons_append,
        deadlinePanics_cons (by simp), deadlinePanics_cons (by simp), List.nil_append]
      refine or_iff_right ?_
      rintro ⟨tokResp', ho', hno⟩
      rw [ho] at ho'
      cases ho'
      obtain hno | ⟨now', rest, hrest, hno⟩ := hno
      · rw [hsecs] at hno
        cases hno
      · cases hrest
        rw [deadline, hsecs, Option.bind_some, hadd] at hno
        cases hno

theorem panicsOnDeadline_authenticate : PanicsOnDeadline p (authenticate p tm).run := by
  rw [authenticate_run]
  intro es r h
  obtain ⟨reply, es₁, rfl, h₁⟩ := Program.trace_ask_iff.mp h
  have hcons : (∀ tokResp, authOutcome p reply ≠ .granted tokResp) → ∀ rest,
      DeadlinePanics p (⟨.request ⟨.auth, tm.authRequest⟩, reply⟩ :: rest) ↔
        DeadlinePanics p rest := by
    intro hno rest
    rw [deadlinePanics_auth_cons]
    exact or_iff_right (fun ⟨tokResp, h, _⟩ => hno tokResp h)
  cases ho : authOutcome p reply with
  | failed e =>
      rw [ho] at h₁ hcons
      obtain ⟨rfl, rfl⟩ := Program.trace_ret_iff.mp h₁
      exact hcons (by simp)
  | rejected status body =>
      rw [ho] at h₁ hcons
      obtain ⟨u, es₂, rfl, h₂⟩ := Program.trace_ask_iff.mp h₁
      obtain ⟨rfl, rfl⟩ := Program.trace_ret_iff.mp h₂
      intro more
      exact (hcons (by simp) _).trans (deadlinePanics_cons (by simp))
  | granted tokResp =>
      rw [ho] at h₁
      exact panicsOnDeadline_install ho es₁ r h₁

theorem panicsOnDeadline_exchange : PanicsOnDeadline p (exchange p tm) := by
  have h : exchange p tm = ((authenticate p tm).run >>= fun r => .ask .release fun _ => .ret r) := by
    rw [authenticate_run]
    rfl
  rw [h]
  exact panicsOnDeadline_bind panicsOnDeadline_authenticate fun r =>
    panicsOnDeadline_ask (by simp) fun _ => panicsOnDeadline_ret r

theorem panicsOnDeadline_refresh (stale : Option String) :
    PanicsOnDeadline p (refresh p tm stale).run := by
  rw [refresh_run]
  refine panicsOnDeadline_ask (by simp) fun _ => panicsOnDeadline_ask (by simp) ?_
  intro cached
  cases cached with
  | none => exact panicsOnDeadline_exchange
  | some s =>
      refine panicsOnDeadline_ask (by simp) fun now => ?_
      split
      · exact panicsOnDeadline_ask (by simp) fun _ => panicsOnDeadline_ret _
      · exact panicsOnDeadline_exchange

theorem panicsOnDeadline_getToken : PanicsOnDeadline p (getToken p tm).run := by
  rw [getToken_run]
  refine panicsOnDeadline_ask (by simp) fun _ => panicsOnDeadline_ask (by simp) ?_
  intro cached
  cases cached with
  | none => exact panicsOnDeadline_ask (by simp) fun _ => panicsOnDeadline_refresh none
  | some s =>
      refine panicsOnDeadline_ask (by simp) fun now => panicsOnDeadline_ask (by simp) fun _ => ?_
      split
      · exact panicsOnDeadline_ret _
      · exact panicsOnDeadline_refresh none

end panics

end TokenManager

end ParatroSdk
