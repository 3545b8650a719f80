import ParatroSdk.Refresh

/-! # The tokens that are handed out

Two questions about what the calls of a token manager return over a whole run.

When the gateway reports a token as expired, `refresh_after_expiry` is to drop it; it does
unless its own exchange fails without an answer it can use, and then the token stays cached
and later calls are served with it (`neverServed_iff`).  That is about a token that the
gateway issues once only.

A call returns a token of its own exchange, a cached token before its deadline, or the
cached token that replaced the one the caller reported; the last one is handed out whatever
its deadline (`handedOut`). -/

namespace ParatroSdk

open Text Machine Interaction SharedCell Transition TokenManager

/-- The exchange failed without an answer of the gateway: in transport, reading the body, or
decoding the body of a reply below 400. -/
def NoAnswer (p : Platform) : HttpReply → Prop
  | .error _ => True
  | .ok resp => resp.status < 400 ∧
      ∀ bytes tokResp, resp.body = .ok bytes → p.tokenResponse bytes ≠ .ok tokResp

/-- The token is in the cache. -/
def Caches (s : System) (token : String) : Prop := ∃ st, s.cache = some st ∧ st.token = token

/-- After the entry the token is not cached, and no later move caches or returns it. -/
def NeverServed (token : String) (e : Entry System Act Returned)
    (post : List (Entry System Act Returned)) : Prop :=
  ¬ Caches e.after token ∧ ∀ e' ∈ post, ¬ Caches e'.after token ∧
    ∀ t c, e'.out ≠ some ⟨t, c, some (.ok token)⟩

section served
variable {p : Platform} {tm : TokenManager}

theorem failed_iff {x : HttpReply} : (∃ e, authOutcome p x = .failed e) ↔ NoAnswer p x := by
  unfold authOutcome NoAnswer
  cases x with
  | error e => exact iff_of_true ⟨_, rfl⟩ trivial
  | ok resp =>
      dsimp only
      by_cases hs : 400 ≤ resp.status
      · rw [if_pos hs]
        refine iff_of_false ?_ (fun h => by omega)
        rintro ⟨e, he⟩
        cases he
      · rw [if_neg hs]
        cases hb : resp.body with
        | error e => exact iff_of_true ⟨_, rfl⟩ ⟨by omega, by simp⟩
        | ok bytes =>
            dsimp only
            cases ht : p.tokenResponse bytes with
            | error e =>
                refine iff_of_true ⟨_, rfl⟩ ⟨by omega, ?_⟩
                rintro _ tokResp ⟨⟩
                simp [ht]
            | ok tokResp =>
                refine iff_of_false (by simp) ?_
                rintro ⟨-, h⟩
                exact h bytes tokResp rfl ht

/-- **A token reported as expired, and issued once only, is never served again after its call
returned, exactly when the exchange of that call did not fail without an answer while the
token was cached.** -/
theorem neverServed_iff {now : Instant} {pre post : List (Entry System Act Returned)}
    {e : Entry System Act Returned} {s : System} {t : ℕ} {token : String} {r : Except Error String}
    (h : (System.lts p tm).Run (System.initial now) (pre ++ e :: post) s)
    (honce : ∀ e' ∈ pre ++ e :: post, IssuedOnce token e'.before.gateway e'.act)
    (hret : e.out = some ⟨t, .refreshAfterExpiry token, some r⟩) :
    NeverServed token e post ↔
      ¬ ((∃ x, e.act = .reply t x ∧ NoAnswer p x) ∧ Caches e.before token) := by
  obtain ⟨pre, e, post, a, hpre, htook, hpost, rfl, rfl, rfl⟩ := Protocol.run_conc_split p tm h
  have hI := Protocol.inv_of_run hpre
  have hstep := Protocol.step_of_took htook
  have hR : Protocol.Reported token e.before := Protocol.reported_of_run hpre fun e' he' =>
    honce _ (List.mem_append_left _ (List.mem_map_of_mem he'))
  constructor
  · rintro ⟨hafter, -⟩ ⟨⟨x, hact, hno⟩, st, hst, htok⟩
    refine hafter ⟨st, ?_, htok⟩
    obtain ⟨err, hfail⟩ := failed_iff.mpr hno
    obtain hc | ⟨u, x', c, since, hact', -, -, -, hc⟩ := hstep.cache_cases
    · exact hc.trans hst
    · have hx : x' = x := (Act.reply.inj (hact'.symm.trans hact)).2
      rw [hx, hfail] at hc
      exact hc.trans hst
  · intro hok
    have hgone : Protocol.Gone token e.after := by
      refine Protocol.gone_of_returned hI hR hstep hret fun x err st hact hfail hst htok => ?_
      exact hok ⟨⟨x, hact, failed_iff.mp ⟨err, hfail⟩⟩, st, hst, htok⟩
    obtain ⟨-, hall⟩ := hgone.run hpost fun e' he' =>
      honce _ (List.mem_append_right _ (List.mem_cons_of_mem _ (List.mem_map_of_mem he')))
    refine ⟨fun ⟨st, hst, htok⟩ => hgone.uncached st hst htok, ?_⟩
    intro e' he'
    obtain ⟨e'', he'', rfl⟩ := List.mem_map.mp he'
    obtain ⟨-, hafter, hout⟩ := hall e'' he''
    exact ⟨fun ⟨st, hst, htok⟩ => hafter.uncached st hst htok, hout⟩

/-- Task 2 reports `token-0` as expired and its exchange times out; then task 3 wants a token. -/
def timedOut : List Act :=
  System.logIn 1 "token-0" tokenJson0 ++
    [.call 2 (.refreshAfterExpiry "token-0"), .grant 2, .reply 2 (.error ⟨"operation timed out"⟩),
      .call 3 .getToken, .grant 3]

theorem neverServed_replaced : ∃ e, (System.testRun System.replaced).1[9]? = some e ∧
    e.out = some ⟨2, .refreshAfterExpiry "token-0", some (.ok "token-1")⟩ ∧
      NeverServed "token-0" e ((System.testRun System.replaced).1.drop 10) := by
  have hat : (System.testRun System.replaced).1[9]?.map (fun e => (e.act, e.out)) =
      some (.reply 2 (.text 200 tokenJson1),
        some ⟨2, .refreshAfterExpiry "token-0", some (.ok "token-1")⟩) := by
    rw [← List.getElem?_map, System.testRun_replaced]
    rfl
  obtain ⟨e, he, hret⟩ := Option.map_eq_some_iff.mp hat
  have honce : (System.testRun System.replaced).1.all
      (fun e' => IssuedOnce "token-0" e'.before.gateway e'.act) = true := by decide +kernel
  refine ⟨e, he, congrArg Prod.snd hret, ?_⟩
  have hrun := System.testLts.run_play_split _ System.replaced he
  refine (neverServed_iff hrun ?_ (congrArg Prod.snd hret)).mpr ?_
  · rw [Lts.play_split he]
    exact fun e' he' => of_decide_eq_true (List.all_eq_true.mp honce e' he')
  rintro ⟨⟨x, hx, hno⟩, -⟩
  cases hx.symm.trans (congrArg Prod.fst hret)
  exact hno.2 _ _ rfl tokenResponse_tokenJson1

/-- The exchange for `token-0` times out, and task 3 is served with `token-0` again. -/
theorem not_neverServed_timedOut :
    ¬ ∀ pre e post s t token r,
      System.testLts.Run (System.initial 0) (pre ++ e :: post) s →
      (∀ e' ∈ pre ++ e :: post, IssuedOnce token e'.before.gateway e'.act) →
      e.out = some ⟨t, .refreshAfterExpiry token, some r⟩ → NeverServed token e post := by
  intro h
  have honce : (System.testRun timedOut).1.all
      (fun e' => IssuedOnce "token-0" e'.before.gateway e'.act) = true := by decide +kernel
  obtain ⟨hat, hserved⟩ : (System.testRun timedOut).1[7]?.map (·.out) = some (some ⟨2,
      .refreshAfterExpiry "token-0", some (.error (.http ⟨"operation timed out"⟩))⟩) ∧
      ((System.testRun timedOut).1.drop 8).any
        (fun e => e.out = some ⟨3, .getToken, some (.ok "token-0")⟩) = true := by decide +kernel
  obtain ⟨e, he, hret⟩ := Option.map_eq_some_iff.mp hat
  obtain ⟨-, hlater⟩ := h _ _ _ _ _ _ _ (System.testLts.run_play_split _ timedOut he) (by
    rw [Lts.play_split he]
    exact fun e' he' => of_decide_eq_true (List.all_eq_true.mp honce e' he')) hret
  obtain ⟨e', he', hout⟩ := List.any_eq_true.mp hserved
  exact (hlater e' he').2 3 .getToken (of_decide_eq_true hout)

/-! ### What a call may return -/

/-- The call was granted the token in its own exchange. -/
def Obtained (p : Platform) (e : Entry System Act Returned) (t : ℕ) (c : Call) (token : String) :
    Prop :=
  ∃ x since tokResp, e.act = .reply t x ∧ e.before.InExchange t c since ∧
    authOutcome p x = .granted tokResp ∧ tokResp.token = token

/-- The call found the token in the cache when it got the lock, before its deadline. -/
def FoundFresh (e : Entry System Act Returned) (t : ℕ) (token : String) : Prop :=
  e.act = .grant t ∧ ∃ st, e.before.cache = some st ∧ st.token = token ∧ e.before.now < st.expiresAt

/-- The call found the token in the cache when it got the lock, in place of the one it
reported as expired. -/
def FoundReplaced (e : Entry System Act Returned) (t : ℕ) (c : Call) (token : String) : Prop :=
  e.act = .grant t ∧ Caches e.before token ∧ ∃ stale, c = .refreshAfterExpiry stale ∧ stale ≠ token

/-- **Whatever a call returns it obtained in its own exchange, found fresh in the cache, or
found there in place of the token it reported.** -/
theorem handedOut {now : Instant} {tr : List (Entry System Act Returned)} {s : System}
    (h : (System.lts p tm).Run (System.initial now) tr s) {e : Entry System Act Returned}
    (he : e ∈ tr) {t : ℕ} {c : Call} {token : String}
    (hret : e.out = some ⟨t, c, some (.ok token)⟩) :
    Obtained p e t c token ∨ FoundFresh e t token ∨ FoundReplaced e t c token := by
  obtain ⟨pre, post, rfl⟩ := List.append_of_mem he
  obtain ⟨pre, e, post, a, -, htook, -, rfl, rfl, rfl⟩ := Protocol.run_conc_split p tm h
  rcases (Protocol.step_of_took htook).returned hret with
    ⟨x, since, tokResp, i, hact, hexch, hout, htok, -, -⟩ | ⟨hact, st, hst, htok, hlt | hne⟩
  · exact .inl ⟨x, since, tokResp, hact, Protocol.inExchange_conc.mpr hexch, hout, htok⟩
  · exact .inr (.inl ⟨hact, st, hst, htok, hlt⟩)
  · exact .inr (.inr ⟨hact, ⟨st, hst, htok⟩, hne⟩)

theorem handedOut_replaced : ∃ e ∈ (System.testRun System.replaced).1,
    e.out = some ⟨3, .refreshAfterExpiry "token-0", some (.ok "token-1")⟩ ∧
      (Obtained testPlatform e 3 (.refreshAfterExpiry "token-0") "token-1" ∨ FoundFresh e 3 "token-1" ∨
        FoundReplaced e 3 (.refreshAfterExpiry "token-0") "token-1") := by
  have hat : (System.testRun System.replaced).1[11]?.map (fun e => (e.act, e.out)) =
      some (.grant 3, some ⟨3, .refreshAfterExpiry "token-0", some (.ok "token-1")⟩) := by
    rw [← List.getElem?_map, System.testRun_replaced]
    rfl
  obtain ⟨e, hget, hret⟩ := Option.map_eq_some_iff.mp hat
  have he := List.mem_of_getElem? hget
  have hout := congrArg Prod.snd hret
  exact ⟨e, he, hout, handedOut (System.testLts.run_play _ System.replaced) he hout⟩

/-- Task 3 is handed `token-1` after the deadline stored with it. -/
theorem not_obtained_or_fresh_replaced :
    ¬ ∀ tr s, System.testLts.Run (System.initial 0) tr s →
      ∀ e ∈ tr, ∀ t c token, e.out = some ⟨t, c, some (.ok token)⟩ →
        Obtained testPlatform e t c token ∨ FoundFresh e t token := by
  intro h
  have hat : (System.testRun System.replaced).1[11]?.map (fun e => (e.act, e.out)) =
      some (.grant 3, some ⟨3, .refreshAfterExpiry "token-0", some (.ok "token-1")⟩) := by
    rw [← List.getElem?_map, System.testRun_replaced]
    rfl
  obtain ⟨e, he, hret⟩ := Option.map_eq_some_iff.mp hat
  have hlate : (System.testRun System.replaced).1[11]?.all
      (fun e => e.before.cache.all (fun st => st.expiresAt ≤ e.before.now)) = true := by
    decide +kernel
  rw [he] at hlate
  rcases h _ _ (System.testLts.run_play _ System.replaced) e (List.mem_of_getElem? he) 3 _ _
    (congrArg Prod.snd hret) with ⟨x, since, tokResp, hx, -⟩ | ⟨-, st, hst, -, hlt⟩
  · cases hx.symm.trans (congrArg Prod.fst hret)
  · rw [Option.all_some, hst] at hlate
    exact absurd hlt (Nat.not_lt.mpr (of_decide_eq_true hlate))

end served

end ParatroSdk
