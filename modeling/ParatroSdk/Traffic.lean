import ParatroSdk.Projection

/-! # The traffic of an application

What the gateway sees of an application, in every run: which requests are in flight together
and who holds the lock meanwhile (`orderly_of_run`), which token a second attempt carries
(`resend_fresh`), what makes a call log in (`login_justified`), and that a call returns what
its own attempts were answered (`result_accounted`). -/

namespace ParatroSdk

open Text Machine Interaction SharedCell Transition TokenManager

section traffic
variable {κ β : Type} {p : Platform} {c : MpcClient} {ops : κ → Operation β}

/-- The states on both sides of one move of a run. -/
theorem refines_of_split {now : Instant} {pre post : List (ApiEntry κ β)} {e : ApiEntry κ β}
    {s : Application κ β}
    (h : (Application.lts p c ops).Run (Application.initial now) (pre ++ e :: post) s) :
    ∃ tr a hist a' hist', (Protocol.lts p c.tokenManager).Run (Protocol.initial now) tr a ∧
      Refines p c ops pre hist e.before a ∧ Refines p c ops (pre ++ [e]) hist' e.after a' ∧
        Concludes p c ops hist' e ∧
          ((tokenAct e = none ∧ a' = a) ∨ ∃ act o, tokenAct e = some act ∧
            Protocol.Step p c.tokenManager a act o a') := by
  obtain ⟨hpre, htook, -⟩ := h.split
  obtain ⟨tr, a, hist, hrun, -, hR⟩ := refines_of_run hpre
  rcases hR.step (Protocol.inv_of_run hrun) (fun s => Protocol.known_of_run hrun) htook with
    ⟨hnone, hist', hR', hends⟩ | ⟨e', htook', rfl, hsome, hist', hR', hends⟩
  · exact ⟨tr, a, hist, a, hist', hrun, hR, hR', hends, .inl ⟨hnone, rfl⟩⟩
  · exact ⟨tr, e'.before, hist, e'.after, hist', hrun, hR, hR', hends,
      .inr ⟨e'.act, e'.out, hsome, Protocol.step_of_took htook'⟩⟩

/-! ### Requests in flight -/

/-- The call that task `t` executes. -/
def Application.call (s : Application κ β) (t : ℕ) : Option κ := (s.tasks.tasks t).map Prod.fst

/-- A request in flight is the auth request, sent under the write guard, or an attempt of the
task's own operation with a token of the gateway, sent without any guard; the lock is held
for nothing else. -/
structure Orderly (c : MpcClient) (ops : κ → Operation β) (s : Application κ β) : Prop where
  requests : ∀ t since q, s.waitsFor t = some (since, q) →
    (q = ⟨.auth, c.tokenManager.authRequest⟩ ∧ s.tasks.shared.lock.writer = some t) ∨
      ∃ k token, s.call t = some k ∧ (ops k).Attempt c token q ∧ s.gateway.knows token = true ∧
        s.tasks.shared.lock.writer ≠ some t
  readers : s.tasks.shared.lock.readers = []
  writer : ∀ t, s.tasks.shared.lock.writer = some t →
    ∃ since, s.waitsFor t = some (since, ⟨.auth, c.tokenManager.authRequest⟩)

variable {tr : List (ApiEntry κ β)} {hist : ℕ → History} {s : Application κ β} {a : Protocol}

theorem Refines.orderly (h : Refines p c ops tr hist s a) (hI : Protocol.Inv a) :
    Orderly c ops s := by
  have hlock : s.tasks.shared.lock = ⟨[], a.writer⟩ := congrArg Shared.lock h.projects.shared
  refine ⟨?_, by rw [hlock], ?_⟩
  · intro t since q hwaits
    rw [hlock]
    cases ht : a.tasks t with
    | none =>
        refine .inr ?_
        have hwithout := h.guarded.absent t (Option.map_eq_none_iff.mpr ht)
        obtain hx | ⟨k, since', q', kont, hx, hq⟩ := absent_cases (h.task t) ht
        · unfold Application.waitsFor at hwaits
          rw [hx] at hwaits
          cases hwaits
        · unfold Application.waitsFor at hwaits
          rw [hx] at hwaits
          cases hwaits
          have hcall : s.call t = some k := by
            unfold Application.call
            rw [hx]
            rfl
          have hreturned := h.returned t
          generalize hist t = hist_t at hq hreturned
          cases hq with
          | @first token _ hq =>
              have hk := hreturned .getToken token (by simp)
              exact ⟨k, token, hcall, hq, by rw [h.gateway]; exact hk, hwithout.2⟩
          | @second stale token _ _ _ hq hexp hq' =>
              have hk := hreturned (.refreshAfterExpiry stale) token (by simp)
              exact ⟨k, token, hcall, hq', by rw [h.gateway]; exact hk, hwithout.2⟩
    | some w =>
        obtain ⟨hw, hq⟩ := h.exchanging_of_waitsFor ht hwaits
        rw [hw] at ht
        exact .inl ⟨hq, hI.locked t _ since ht⟩
  · intro t ht
    rw [hlock] at ht
    cases htask : a.tasks t with
    | none =>
        have hwithout := h.guarded.absent t (Option.map_eq_none_iff.mpr htask)
        exact absurd ht hwithout.2
    | some w =>
        have hguard := h.guarded.present t _ _ (Option.map_eq_some_iff.mpr ⟨w, htask, rfl⟩)
        cases w with
        | reading => exact absurd ht hguard.1.2
        | queued i => exact absurd ht hguard.1.2
        | exchanging i since => exact ⟨since, h.waitsFor_exchanging htask⟩

/-- **In every state of every run the requests in flight are in order.** -/
theorem orderly_of_run {now : Instant}
    (h : (Application.lts p c ops).Run (Application.initial now) tr s) : Orderly c ops s := by
  obtain ⟨tr', a, hist, hrun, -, hR⟩ := refines_of_run h
  exact hR.orderly (Protocol.inv_of_run hrun)

/-! ### The second attempt -/

/-- **A second attempt is made only after the first was answered expired, and it is the same
request with a token of the gateway**, another one unless the gateway issued the stale token
again. -/
theorem resend_fresh {now : Instant}
    (h : (Application.lts p c ops).Run (Application.initial now) tr s) {t : ℕ} {since : Instant}
    {q₀ q : HttpCall} {x₀ : HttpReply} (hfirst : Answered tr t q₀ x₀)
    (hwaits : s.waitsFor t = some (since, q)) (hq : q.client = .api) :
    AnsweredExpired p x₀ ∧ q.request.redact = q₀.request.redact ∧
      ∃ stale token, q₀.request.bearer = some stale ∧ q.request.bearer = some token ∧
        s.gateway.knows stale = true ∧ s.gateway.knows token = true ∧
          ((∀ e ∈ tr, NotReissued stale e) → token ≠ stale) := by
  obtain ⟨tr', a, hist, hrun, -, hR⟩ := refines_of_run h
  have hmem := (hR.answered t q₀ x₀).mpr hfirst
  have ht := hR.absent_of_api hwaits hq
  obtain ⟨k, hattempts⟩ := hR.waitsFor_absent ht hwaits
  have hreturned := hR.returned t
  have hreplaced := fun token hissue => (hR.replaced token hissue).2 t
  generalize hist t = hist_t at hattempts hreturned hreplaced hmem
  cases hattempts with
  | first hq => simp at hmem
  | @second stale token q' _ x hq' hexp hq =>
      obtain ⟨rfl, rfl⟩ : q₀ = q' ∧ x₀ = x := by simpa using hmem
      have hnew := hreturned (.refreshAfterExpiry stale) token (by simp)
      have hold := hreturned .getToken stale (by simp)
      refine ⟨hexp, ?_, stale, token, hq'.bearer, hq.bearer, ?_, ?_, ?_⟩
      · obtain ⟨build, hb, rfl⟩ := hq
        obtain ⟨build', hb', rfl⟩ := hq'
        rw [hb] at hb'
        cases hb'
        exact (redact_build hb token stale).1
      · rw [hR.gateway]
        exact hold
      · rw [hR.gateway]
        exact hnew
      · rintro hissue rfl
        exact hreplaced token hissue (by simp)

/-! ### Logging in -/

/-- **A call logs in only when it has to**: no token is cached, or the cached token is past its
deadline and the call has made no attempt, or the call's attempt with the cached token was
answered expired. -/
theorem login_justified {now : Instant} {pre post : List (ApiEntry κ β)} {e : ApiEntry κ β}
    (h : (Application.lts p c ops).Run (Application.initial now) (pre ++ e :: post) s) {t : ℕ}
    {since : Instant} {q : HttpCall} (hbefore : e.before.waitsFor t = none)
    (hafter : e.after.waitsFor t = some (since, q)) (hq : q.client = .auth) :
    ∀ st, e.before.cache = some st →
      (st.expiresAt ≤ e.before.now ∧ ∀ q x, ¬ Answered pre t q x) ∨
        ∃ q x, Answered pre t q x ∧ AnsweredExpired p x ∧ q.request.bearer = some st.token := by
  obtain ⟨tr, a, hist, a', hist', hrun, hR, hR', -, hmove⟩ := refines_of_split h
  obtain ⟨i, ht'⟩ := hR'.waitsFor_auth_iff.mp ⟨q, hafter, hq⟩
  have hnot : a.tasks t ≠ some (.exchanging i since) := by
    intro ht
    rw [hR.waitsFor_exchanging ht] at hbefore
    cases hbefore
  obtain ⟨-, rfl⟩ | ⟨act, o, -, hstep⟩ := hmove
  · exact absurd ht' hnot
  · intro st hst
    have hcache : a.cache = some st := (congrArg Shared.cell hR.projects.shared).symm.trans hst
    have hnow : e.before.now = a.now := congrArg Shared.clock hR.projects.shared
    obtain ⟨ht, -, -⟩ | ⟨-, ht, -, -, -, -, hre⟩ := hstep.exchanging_cases ht'
    · exact absurd ht hnot
    · obtain ⟨k, hcalls, -⟩ := present_cases (hR.task t) ht
      have hcalls : TokenCalls p c (ops k) (hist t) i := hcalls
      have hanswered := hR.answered t
      generalize hist t = hist_t at hcalls hanswered
      cases hcalls with
      | getToken =>
          obtain hstale | ⟨-, hle⟩ := Protocol.not_reusable (hre st hcache)
          · cases hstale
          · refine .inl ⟨by rw [hnow]; exact hle, fun q x hqx => ?_⟩
            exact absurd ((hanswered q x).mpr hqx) List.not_mem_nil
      | @refresh token q x hattempt hexp =>
          obtain hstale | ⟨hnone, -⟩ := Protocol.not_reusable (hre st hcache)
          · have htoken : token = st.token := Option.some.inj hstale
            refine .inr ⟨q, x, (hanswered q x).mp (by simp), hexp, ?_⟩
            rw [hattempt.bearer, htoken]
          · cases hnone

/-! ### The result of a call -/

/-- **A call returns what its own attempts and token calls came to**: the history it ends
with holds exactly the attempts of this call that the run shows, each with the answer it got
there, and tokens of the gateway, none of them in answer to the report of that token unless
the gateway issued it again. -/
theorem result_accounted {now : Instant} {pre post : List (ApiEntry κ β)} {e : ApiEntry κ β}
    (h : (Application.lts p c ops).Run (Application.initial now) (pre ++ e :: post) s) {t : ℕ}
    {k : κ} {r : Except Error β} (hret : e.out = some ⟨t, k, some r⟩) :
    ∃ hist : History, Ends p c (ops k) hist r ∧
      (∀ q x, .asked q x ∈ hist ↔ Answered (pre ++ [e]) t q x) ∧
        ∀ i token, .called i (.ok token) ∈ hist →
          e.after.gateway.knows token = true ∧
            ((∀ e' ∈ pre ++ [e], NotReissued token e') → i ≠ .refreshAfterExpiry token) := by
  obtain ⟨tr, a, hist, a', hist', hrun, hR, hR', hends, -⟩ := refines_of_split h
  refine ⟨hist' t, hends t k r hret, hR'.answered t, fun i token hmem => ⟨?_, ?_⟩⟩
  · rw [hR'.gateway]
    exact hR'.returned t i token hmem
  · rintro hissue rfl
    exact (hR'.replaced token hissue).2 t hmem

end traffic

/-! ### Two calls answered expired -/

/-- The request of an attempt in that run. -/
def testAttempt (token : String) : HttpCall :=
  ⟨.api, testClient.postRequest "/api/v1/transactions" [(headerIdempotencyKey, "idem-2")]
    (utf8 "\x7b\x7d") token⟩

/-- The run up to the second attempt of task 2. -/
abbrev testResend := Application.testRun (Application.expiredTwice.take 13)

/-- What the tasks wait for in that run: task 2 has made its attempt with `token-0`, task 1 then
waits for the auth endpoint, and task 2 makes its second attempt. -/
theorem waits_testResend :
    testResend.1.map (·.act) = Application.expiredTwice.take 13 ∧
      testResend.1[8]?.map (·.before.waitsFor 2) = some (some (0, testAttempt "token-0")) ∧
      testResend.1[9]?.map (fun e => (e.before.waitsFor 1, e.after.waitsFor 1)) =
        some (none, some (0, ⟨.auth, testManager.authRequest⟩)) ∧
      testResend.2.waitsFor 2 = some (0, testAttempt "token-1") :=
  ⟨Lts.play_acts (by decide +kernel), by decide +kernel⟩

theorem orderly_testResend :
    (∃ q, testResend.2.waitsFor 2 = some (0, q)) ∧
      Orderly testClient Application.testOps testResend.2 :=
  ⟨⟨_, waits_testResend.2.2.2⟩, orderly_of_run (Application.testLts.run_play _ _)⟩

/-- The attempt of task 2 that was answered expired. -/
theorem answered_testResend :
    Answered testResend.1 2 (testAttempt "token-0") (.text 401 tokenExpiredJson) := by
  obtain ⟨hacts, hwaits, -⟩ := waits_testResend
  obtain ⟨e, he, hwaits⟩ := Option.map_eq_some_iff.mp hwaits
  obtain ⟨hn, hget⟩ := List.getElem?_eq_some_iff.mp he
  have hact : e.act = .task (.reply 2 (.text 401 tokenExpiredJson)) := by
    have := congrArg (·[8]?) hacts
    rw [List.getElem?_map, he] at this
    exact Option.some.inj this
  refine ⟨testResend.1.take 8, e, testResend.1.drop 9, 0, ?_, hact, hwaits, rfl, ?_⟩
  · rw [← hget, ← List.drop_eq_getElem_cons hn, List.take_append_drop]
  · intro e' he' k hstart
    have hmem : e'.act ∈ (testResend.1.drop 9).map (·.act) := List.mem_map_of_mem he'
    rw [List.map_drop, hacts, hstart] at hmem
    simp [Application.expiredTwice] at hmem

theorem resend_testResend : ∃ q, testResend.2.waitsFor 2 = some (0, q) ∧
    AnsweredExpired testPlatform (.text 401 tokenExpiredJson) ∧
      ∃ token, q.request.bearer = some token ∧ token ≠ "token-0" := by
  refine ⟨_, waits_testResend.2.2.2, ?_⟩
  obtain ⟨hexp, -, stale, token, hstale, htoken, -, -, hne⟩ := resend_fresh
    (Application.testLts.run_play _ _) answered_testResend waits_testResend.2.2.2 rfl
  have hold : some "token-0" = some stale := hstale
  refine ⟨hexp, token, htoken, ?_⟩
  rw [Option.some.inj hold]
  refine hne fun e he t lifetime hact => ?_
  have hissued : testResend.1.all (fun e => match e.act with
      | .issue _ token _ => !e.before.gateway.knows token
      | .task _ => true) = true := by decide +kernel
  have hknows := List.all_eq_true.mp hissued e he
  rw [hact] at hknows
  simpa using hknows

/-- Task 1 logs in while `token-0` is cached. -/
theorem login_testResend : ∃ e, testResend.1[9]? = some e ∧ e.before.waitsFor 1 = none ∧
    (e.after.waitsFor 1).isSome = true ∧ ∀ st, e.before.cache = some st →
      (st.expiresAt ≤ e.before.now ∧ ∀ q x, ¬ Answered (testResend.1.take 9) 1 q x) ∨
        ∃ q x, Answered (testResend.1.take 9) 1 q x ∧ AnsweredExpired testPlatform x ∧
          q.request.bearer = some st.token := by
  obtain ⟨e, he, hwaits⟩ := Option.map_eq_some_iff.mp waits_testResend.2.2.1
  obtain ⟨hbefore, hafter⟩ := Prod.mk.inj hwaits
  refine ⟨e, he, hbefore, by rw [hafter]; rfl, ?_⟩
  exact login_justified (Lts.run_play_split Application.testLts _ _ he) hbefore hafter rfl

/-- Task 2 returns what its second attempt was answered. -/
theorem result_expiredTwice : ∃ e hist,
    (Application.testRun Application.expiredTwice).1[13]? = some e ∧
      e.out = some ⟨2, (), some (.ok (utf8 "\x7b\x7d"))⟩ ∧
      Ends testPlatform testClient (Application.testOps ()) hist (.ok (utf8 "\x7b\x7d")) := by
  have hout := congrArg (·[13]?) Application.testRun_expiredTwice
  rw [List.getElem?_map] at hout
  obtain ⟨e, he, hret⟩ := Option.map_eq_some_iff.mp hout
  obtain ⟨hist, hends, -⟩ :=
    result_accounted (Lts.run_play_split Application.testLts _ _ he) (t := 2) hret
  exact ⟨e, hist, he, hret, hends⟩

end ParatroSdk
