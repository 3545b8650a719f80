import ParatroSdk.Refresh

/-! # One login at a time, and none lost

Single-flight refresh over any interleaving of callers: the exchanges with the auth endpoint
never overlap; a cached token is dropped or overwritten only by a call that reported that
very token, or by a `get_token` that found its deadline passed under the write lock; and of
the callers that report one token as expired, one logs in until the gateway refuses a login
(`singleFlight`).

The last of these fails where the gateway grants a token whose deadline cannot be computed: the
login succeeds, the caller panics, and the expired token stays cached
(`not_singleFlight_lostLogin`).  It is about tokens that the gateway issues once only. -/

namespace ParatroSdk

open Machine Interaction SharedCell Transition TokenManager

/-- An exchange ended with a status of 400 or above. -/
def Refused (e : Entry System Act Returned) : Prop :=
  ∃ t resp, e.act = .reply t (.ok resp) ∧ 400 ≤ resp.status

/-- An exchange made by `refresh_after_expiry token` was granted the token of `tokResp`. -/
def Granted (p : Platform) (token : String) (tokResp : TokenResponse)
    (e : Entry System Act Returned) : Prop :=
  ∃ t x since, e.act = .reply t x ∧ e.before.InExchange t (.refreshAfterExpiry token) since ∧
    authOutcome p x = .granted tokResp

/-- An exchange made by `refresh_after_expiry token` was granted a token. -/
def LoggedIn (p : Platform) (token : String) (e : Entry System Act Returned) : Prop :=
  ∃ tokResp, Granted p token tokResp e

/-- The deadline of a token granted to `refresh_after_expiry` in this move can be computed. -/
def Storable (p : Platform) (e : Entry System Act Returned) : Prop :=
  ∀ token tokResp, Granted p token tokResp e →
    deadline p.overflowChecks e.before.now tokResp.expiresIn ≠ none

/-- Task `t` found `old` past its deadline when it got the write lock, and has been in the
exchange it then began ever since. -/
def Rechecked (pre : List (Entry System Act Returned)) (t : ℕ) (old : TokenState) (since : Instant) :
    Prop :=
  ∃ pre' g mid, pre = pre' ++ g :: mid ∧ g.act = .grant t ∧ g.before.cache = some old ∧
    old.expiresAt ≤ g.before.now ∧ g.after.tasks.shared.lock.writer = some t ∧
      ∀ e ∈ g :: mid, e.after.InExchange t .getToken since

/-- Single-flight refresh in the run `tr` that ends in `s`. -/
structure SingleFlight (p : Platform) (tr : List (Entry System Act Returned)) (s : System) : Prop where
  exclusive : ∀ t u c c' since since', s.InExchange t c since → s.InExchange u c' since' → t = u
  dropped : ∀ pre e post old, tr = pre ++ e :: post → e.before.cache = some old →
    e.after.cache ≠ some old → ∃ t x c since, e.act = .reply t x ∧ e.before.InExchange t c since ∧
      (c = .refreshAfterExpiry old.token ∨ c = .getToken ∧ Rechecked pre t old since)
  loginOnce : ∀ pre e₁ mid e₂ post token, tr = pre ++ e₁ :: (mid ++ e₂ :: post) →
    LoggedIn p token e₁ → LoggedIn p token e₂ → ∃ e ∈ mid, Refused e

namespace Protocol

variable {p : Platform} {tm : TokenManager} {a a' : Protocol} {act : Act} {o : Returned}

/-! ### Where an exchange began -/

/-- A task in an exchange got the write lock when the exchange began, with the cache as it
still is. -/
theorem exchange_began {now : Instant} {tr : List (Entry Protocol Act Returned)}
    (h : (lts p tm).Run (initial now) tr a) {t : ℕ} {c : Call} {since : Instant}
    (ht : a.tasks t = some (.exchanging c since)) :
    ∃ pre g mid, tr = pre ++ g :: mid ∧ g.act = .grant t ∧ g.before.cache = a.cache ∧
      g.before.now = since ∧ g.after.writer = some t ∧
        ∀ e ∈ g :: mid, e.after.tasks t = some (.exchanging c since) := by
  induction h with
  | nil => cases ht
  | @snoc tr e hr htook ih =>
      have hstep := step_of_took htook
      obtain ⟨ht', -, hreply⟩ | ⟨hact, -, -, hsince, hw, hc, -⟩ := hstep.exchanging_cases ht
      · obtain ⟨pre, g, mid, rfl, hact, hc, hnow, hw, hall⟩ := ih ht'
        refine ⟨pre, g, mid ++ [e], by simp, hact, ?_, hnow, hw, ?_⟩
        · rw [hc, (inv_of_run hr).cache_kept hstep ht' hreply]
        · intro e' he'
          rw [← List.cons_append] at he'
          obtain he' | he' := List.mem_append.mp he'
          · exact hall e' he'
          · rw [List.mem_singleton.mp he']
            exact ht
      · refine ⟨tr, e, [], rfl, hact, hc.symm, hsince.symm, hw, ?_⟩
        intro e' he'
        rw [List.mem_singleton.mp he']
        exact ht

/-! ### One login for one expired token -/

/-- The expired token was replaced and nobody logs in for it. -/
structure Settled (token : String) (a : Protocol) : Prop where
  gone : Gone token a
  cached : a.cache ≠ none
  idle : ∀ t since, a.tasks t ≠ some (.exchanging (.refreshAfterExpiry token) since)

theorem status_of_rejected {x : HttpReply} {status : ℕ} {body : ErrorBody}
    (h : authOutcome p x = .rejected status body) : ∃ resp, x = .ok resp ∧ 400 ≤ resp.status := by
  unfold authOutcome at h
  cases x with
  | error e => cases h
  | ok resp =>
      dsimp only at h
      split at h
      · rename_i hs
        exact ⟨resp, rfl, hs⟩
      · split at h
        · cases h
        · split at h <;> cases h

/-- A replaced token stays replaced, or the gateway refuses a login. -/
theorem Settled.step {token : String} (hS : Settled token a) (h : Step p tm a act o a')
    (honce : IssuedOnce token a.gateway act) :
    Settled token a' ∨ ∃ t resp, act = .reply t (.ok resp) ∧ 400 ≤ resp.status := by
  have hidle : ∀ t since, a'.tasks t ≠ some (.exchanging (.refreshAfterExpiry token) since) := by
    intro t since ht
    obtain ⟨ht', -, -⟩ | ⟨-, -, -, -, -, -, hre⟩ := h.exchanging_cases ht
    · exact hS.idle t since ht'
    · obtain ⟨s, hs⟩ := Option.ne_none_iff_exists'.mp hS.cached
      obtain heq | ⟨hnone, -⟩ := not_reusable (hre s hs)
      · exact hS.gone.uncached s hs (Option.some.inj heq).symm
      · cases hnone
  obtain hc | ⟨t, x, c, since, rfl, -, -, -, hc⟩ := h.cache_cases
  · refine .inl ⟨hS.gone.step h honce, ?_, hidle⟩
    rw [hc]
    exact hS.cached
  · cases hout : authOutcome p x with
    | rejected status body =>
        obtain ⟨resp, rfl, hs⟩ := status_of_rejected hout
        exact .inr ⟨t, resp, rfl, hs⟩
    | failed e =>
        refine .inl ⟨hS.gone.step h honce, ?_, hidle⟩
        rw [hc, hout]
        exact hS.cached
    | granted tokResp =>
        refine .inl ⟨hS.gone.step h honce, ?_, hidle⟩
        rw [hc, hout]
        cases hd : deadline p.overflowChecks a.now tokResp.expiresIn with
        | none =>
            simp only [settle, hd]
            exact hS.cached
        | some d =>
            simp only [settle, hd]
            exact Option.some_ne_none _

/-- A successful login for an expired token settles it, if the deadline of the new one can be
computed. -/
theorem settled_of_granted (hI : Inv a) {token : String} (hR : Reported token a) {t : ℕ}
    {x : HttpReply} {since : Instant} {tokResp : TokenResponse} (h : Step p tm a (.reply t x) o a')
    (ht : a.tasks t = some (.exchanging (.refreshAfterExpiry token) since))
    (hout : authOutcome p x = .granted tokResp)
    (hd : deadline p.overflowChecks a.now tokResp.expiresIn ≠ none) : Settled token a' := by
  obtain ⟨d, hd⟩ := Option.ne_none_iff_exists'.mp hd
  obtain ⟨c, since', ht', -, ho, hc⟩ := h.reply_cases
  obtain ⟨rfl, rfl⟩ := Waiting.exchanging.inj (Option.some.inj (ht'.symm.trans ht))
  rw [hout] at ho hc
  simp only [settle, hd] at ho hc
  refine ⟨gone_of_returned hI hR h ho ?_, ?_, ?_⟩
  · intro x' e s hact hfail
    cases hact
    rw [hout] at hfail
    cases hfail
  · rw [hc]
    exact Option.some_ne_none _
  · intro u since' hu
    obtain ⟨hu', -, hreply⟩ | ⟨hact, -⟩ := h.exchanging_cases hu
    · have hut := hI.exchanging_unique hu' ht
      subst hut
      exact hreply x rfl
    · cases hact

/-- Two logins for one expired token are separated by a login that the gateway refused. -/
theorem refused_between {token : String} (hS : Settled token a)
    {mid : List (Entry Protocol Act Returned)} (h : (lts p tm).Run a mid a')
    (honce : ∀ e ∈ mid, IssuedOnce token e.before.gateway e.act) {t : ℕ} {since : Instant}
    (ht : a'.tasks t = some (.exchanging (.refreshAfterExpiry token) since)) :
    ∃ e ∈ mid, ∃ u resp, e.act = .reply u (.ok resp) ∧ 400 ≤ resp.status := by
  by_contra hno
  have hkept : ∀ e ∈ mid, Settled token e.before → (lts p tm).Took e → Settled token e.after := by
    intro e he hb htook
    obtain hS' | ⟨u, resp, hact, hs⟩ := hb.step (step_of_took htook) (honce e he)
    · exact hS'
    · exact absurd ⟨e, he, u, resp, hact, hs⟩ hno
  exact (h.stable (Settled token) hS hkept).1.idle t since ht

/-- A cached token that an exchange drops is the one its call reported, or one whose
deadline had passed when the call got the write lock. -/
theorem dropped_cases (hI : Inv a) (h : Step p tm a act o a') {old : TokenState}
    (hold : a.cache = some old) (hnew : a'.cache ≠ some old) :
    ∃ t x c since, act = .reply t x ∧ a.tasks t = some (.exchanging c since) ∧
      (c = .refreshAfterExpiry old.token ∨ c = .getToken ∧ old.expiresAt ≤ since) := by
  obtain hc | ⟨t, x, c, since, hact, ht, -, -, -⟩ := h.cache_cases
  · exact absurd (hc.trans hold) hnew
  · refine ⟨t, x, c, since, hact, ht, ?_⟩
    have hfl := hI.flight t c since old ht hold
    cases c with
    | getToken => exact .inr ⟨rfl, (hfl.resolve_left (by simp [Call.stale])).2⟩
    | refreshAfterExpiry stale =>
        obtain hs | ⟨hs, -⟩ := hfl
        · exact .inl (congrArg Call.refreshAfterExpiry (Option.some.inj hs))
        · cases hs

end Protocol

open Protocol

section run
variable {p : Platform} {tm : TokenManager} {now : Instant} {s : System}
  {tr : List (Entry System Act Returned)}

theorem exclusive_of_run (h : (System.lts p tm).Run (System.initial now) tr s) {t u : ℕ}
    {c c' : Call} {since since' : Instant} (ht : s.InExchange t c since)
    (hu : s.InExchange u c' since') : t = u := by
  obtain ⟨tr', a, hrun, -, rfl⟩ := run_conc p tm h
  exact (inv_of_run hrun).exchanging_unique (inExchange_conc.mp ht) (inExchange_conc.mp hu)

theorem dropped_of_run {pre post : List (Entry System Act Returned)} {e : Entry System Act Returned}
    (h : (System.lts p tm).Run (System.initial now) (pre ++ e :: post) s) {old : TokenState}
    (hold : e.before.cache = some old) (hnew : e.after.cache ≠ some old) :
    ∃ t x c since, e.act = .reply t x ∧ e.before.InExchange t c since ∧
      (c = .refreshAfterExpiry old.token ∨ c = .getToken ∧ Rechecked pre t old since) := by
  obtain ⟨pre, e, post, a, hpre, htook, -, rfl, rfl, rfl⟩ := run_conc_split p tm h
  obtain ⟨t, x, c, since, hact, ht, hc⟩ :=
    dropped_cases (inv_of_run hpre) (step_of_took htook) hold hnew
  refine ⟨t, x, c, since, hact, inExchange_conc.mpr ht, ?_⟩
  obtain hc | ⟨rfl, hle⟩ := hc
  · exact .inl hc
  · obtain ⟨pre', g, mid, rfl, hg, hcache, hnow, hw, hall⟩ := exchange_began hpre ht
    refine .inr ⟨rfl, pre'.map (Lts.mapEntry (conc p tm)), Lts.mapEntry (conc p tm) g,
      mid.map (Lts.mapEntry (conc p tm)), by simp, hg, hcache.trans hold, ?_, hw, ?_⟩
    · rw [← hnow] at hle
      exact hle
    · intro e' he'
      rw [← List.map_cons] at he'
      obtain ⟨e'', he'', rfl⟩ := List.mem_map.mp he'
      exact inExchange_conc.mpr (hall e'' he'')

theorem loginOnce_of_run {pre mid post : List (Entry System Act Returned)}
    {e₁ e₂ : Entry System Act Returned} {token : String}
    (h : (System.lts p tm).Run (System.initial now) (pre ++ e₁ :: (mid ++ e₂ :: post)) s)
    (honce : ∀ e ∈ pre ++ e₁ :: (mid ++ e₂ :: post), IssuedOnce token e.before.gateway e.act)
    (hstorable : Storable p e₁) (h₁ : LoggedIn p token e₁) (h₂ : LoggedIn p token e₂) :
    ∃ e ∈ mid, Refused e := by
  obtain ⟨pre, e₁, rest, a, hpre, htook, hrest, rfl, rfl, hmap⟩ := run_conc_split p tm h
  obtain ⟨mid, rest', rfl, rfl, hmap'⟩ := List.map_eq_append_iff.mp hmap.symm
  obtain ⟨e₂, post, rfl, rfl, rfl⟩ := List.map_eq_cons_iff.mp hmap'
  obtain ⟨hmid, -, -⟩ := hrest.split
  have hR : Reported token e₁.before := reported_of_run hpre fun e he =>
    honce _ (List.mem_append_left _ (List.mem_map_of_mem he))
  -- the first login settles the token
  obtain ⟨tokResp, hgranted⟩ := h₁
  have hd := hstorable token tokResp hgranted
  obtain ⟨t, x, since, hact, hin, hout⟩ := hgranted
  have hstep₁ := step_of_took htook
  have hact₁ : e₁.act = .reply t x := hact
  rw [hact₁] at hstep₁
  have hS := settled_of_granted (inv_of_run hpre) hR hstep₁ (inExchange_conc.mp hin) hout hd
  -- the second would not have begun, had no login been refused since
  obtain ⟨-, u, y, since', -, hin', -⟩ := h₂
  have hmidOnce : ∀ e ∈ mid, IssuedOnce token e.before.gateway e.act := fun e he =>
    honce _ (List.mem_append_right _ (List.mem_cons_of_mem _ (List.mem_append_left _
      (List.mem_map_of_mem (f := Lts.mapEntry (conc p tm)) he))))
  obtain ⟨e, he, v, resp, hv, hs⟩ := refused_between hS hmid hmidOnce (inExchange_conc.mp hin')
  exact ⟨_, List.mem_map_of_mem he, v, resp, hv, hs⟩

/-- **Refresh is single-flight in every run in which the deadlines of granted tokens can be
computed**: exchanges never overlap, no cached token is lost to a caller that did not report it
and did not find it past its deadline, and callers that report one token as expired log in once
for it unless the gateway refuses a login. -/
theorem singleFlight (h : (System.lts p tm).Run (System.initial now) tr s)
    (honce : ∀ e ∈ tr, ∀ token, IssuedOnce token e.before.gateway e.act)
    (hstorable : ∀ e ∈ tr, Storable p e) : SingleFlight p tr s := by
  refine ⟨?_, ?_, ?_⟩
  · intro t u c c' since since' ht hu
    exact exclusive_of_run h ht hu
  · rintro pre e post old rfl hold hnew
    exact dropped_of_run h hold hnew
  · rintro pre e₁ mid e₂ post token rfl h₁ h₂
    exact loginOnce_of_run h (fun e he => honce e he token) (hstorable e₁ (by simp)) h₁ h₂

end run

/-- No reply to any exchange in this move grants a token whose deadline cannot be computed. -/
def grantsStorable (p : Platform) (e : Entry System Act Returned) : Bool :=
  match e.act with
  | .reply _ x =>
      match authOutcome p x with
      | .granted tokResp => (deadline p.overflowChecks e.before.now tokResp.expiresIn).isSome
      | _ => true
  | _ => true

theorem storable_of_grantsStorable {p : Platform} {e : Entry System Act Returned}
    (h : grantsStorable p e = true) : Storable p e := by
  rintro token tokResp ⟨t, x, since, hact, -, hout⟩
  unfold grantsStorable at h
  rw [hact] at h
  dsimp only at h
  rw [hout] at h
  exact Option.isSome_iff_ne_none.mp h

theorem singleFlight_replaced : (System.testRun System.replaced).1.map (·.act) = System.replaced ∧
    SingleFlight testPlatform (System.testRun System.replaced).1 (System.testRun System.replaced).2 := by
  have hacts := congrArg (List.map Prod.fst) System.testRun_replaced
  rw [List.map_map] at hacts
  have honce : (System.testRun System.replaced).1.all
      (fun e => ∀ token, IssuedOnce token e.before.gateway e.act) = true := by decide +kernel
  have hstorable : (System.testRun System.replaced).1.all (grantsStorable testPlatform) = true := by
    decide +kernel
  exact ⟨hacts, singleFlight (System.testLts.run_play _ System.replaced)
    (fun e he => of_decide_eq_true (List.all_eq_true.mp honce e he))
    fun e he => storable_of_grantsStorable (List.all_eq_true.mp hstorable e he)⟩

/-- Tasks 2 and 3 report `token-0` as expired; both log in for a new token, and the deadline of the
one granted to task 2 cannot be computed. -/
def lostLogin : List Act :=
  System.logIn 1 "token-0" tokenJson0 ++
    [.tick (Duration.fromSecs 200), .call 2 (.refreshAfterExpiry "token-0"),
      .call 3 (.refreshAfterExpiry "token-0"), .grant 2, .issue 2 "token-2" 9223372036854775807,
      .reply 2 (.text 200 tokenJsonMax), .grant 3, .issue 3 "token-1" 900,
      .reply 3 (.text 200 tokenJson1)]

abbrev lostRun := System.testRun lostLogin

theorem not_singleFlight_lostLogin :
    ¬ ∀ tr s, System.testLts.Run (System.initial 0) tr s →
      (∀ e ∈ tr, ∀ token, IssuedOnce token e.before.gateway e.act) →
        SingleFlight testPlatform tr s := by
  intro h
  obtain ⟨honce, hfirst, hsecond, hmid⟩ :
      lostRun.1.all (fun e => ∀ token, IssuedOnce token e.before.gateway e.act) = true ∧
      lostRun.1[10]?.map (fun e => (e.act, e.before.exchange 2)) =
        some (.reply 2 (.text 200 tokenJsonMax),
          some (.refreshAfterExpiry "token-0", Duration.fromSecs 200)) ∧
      (lostRun.1.drop 11)[2]?.map (fun e => (e.act, e.before.exchange 3)) =
        some (.reply 3 (.text 200 tokenJson1),
          some (.refreshAfterExpiry "token-0", Duration.fromSecs 200)) ∧
      ((lostRun.1.drop 11).take 2).all (fun e => match e.act with
        | .reply _ _ => false
        | _ => true) = true := by
    decide +kernel
  obtain ⟨e₁, he₁, hfirst⟩ := Option.map_eq_some_iff.mp hfirst
  obtain ⟨e₂, he₂, hsecond⟩ := Option.map_eq_some_iff.mp hsecond
  obtain ⟨hact₁, hin₁⟩ := Prod.mk.inj hfirst
  obtain ⟨hact₂, hin₂⟩ := Prod.mk.inj hsecond
  have hsplit : lostRun.1 = lostRun.1.take 10 ++
      e₁ :: ((lostRun.1.drop 11).take 2 ++ e₂ :: (lostRun.1.drop 11).drop 3) := by
    rw [Lts.take_cons_drop he₂, Lts.take_cons_drop he₁]
  have hflight := h lostRun.1 _ (System.testLts.run_play _ lostLogin) fun e he =>
    of_decide_eq_true (List.all_eq_true.mp honce e he)
  obtain ⟨e, he, t, resp, hact, -⟩ := hflight.loginOnce _ e₁ _ e₂ _ "token-0" hsplit
    ⟨_, 2, _, _, hact₁, System.inExchange_iff.mpr hin₁, authOutcome_text tokenResponse_tokenJsonMax⟩
    ⟨_, 3, _, _, hact₂, System.inExchange_iff.mpr hin₂, authOutcome_text tokenResponse_tokenJson1⟩
  have hno := List.all_eq_true.mp hmid e he
  rw [hact] at hno
  cases hno

end ParatroSdk
