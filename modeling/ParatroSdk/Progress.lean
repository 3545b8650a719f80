import ParatroSdk.Lib.Progress
import ParatroSdk.Traffic

/-! # Calls come to an end

A call of the SDK waits at most seven times: for the read lock, the write lock and the auth
endpoint in `get_token`, for its first attempt, for the write lock and the auth endpoint in
`refresh_after_expiry`, and for its second attempt.  So it ends after at most seven moves of
its own (`ownMoves_le`).  The lock is held only by a call that waits for the auth endpoint, so
no calls wait for each other in a circle, and whoever is granted the lock next, the calls in
progress all end (`no_deadlock`). -/

namespace ParatroSdk

open Text Machine Interaction SharedCell Transition TokenManager

/-! ### How often the programs wait -/

section waits
variable (p : Platform) (tm : TokenManager)

theorem waits_conclude (o : AuthOutcome) : Code.WaitsAtMost (conclude p o) 0 := by
  cases o with
  | failed e => trivial
  | rejected status body => exact fun _ => trivial
  | granted tokResp =>
      unfold conclude install
      dsimp only
      split
      · trivial
      · intro now
        dsimp only
        split
        · trivial
        · exact fun _ => trivial

theorem waits_exchange : Code.WaitsAtMost (exchange p tm) 1 := by
  refine ⟨Nat.one_pos, fun reply => ?_⟩
  exact Code.WaitsAtMost.bind (n := 0) (waits_conclude p (authOutcome p reply)) fun r _ => trivial

theorem waits_refresh (stale : Option String) : Code.WaitsAtMost (refresh p tm stale).run 2 := by
  rw [refresh_run]
  refine ⟨Nat.two_pos, fun _ => ?_⟩
  intro cached
  cases cached with
  | none => exact waits_exchange p tm
  | some s =>
      intro now
      dsimp only
      split
      · exact fun _ => trivial
      · exact waits_exchange p tm

theorem waits_getToken : Code.WaitsAtMost (getToken p tm).run 3 := by
  rw [getToken_run]
  refine ⟨Nat.succ_pos 2, fun _ => ?_⟩
  intro cached
  cases cached with
  | none => exact fun _ => waits_refresh p tm none
  | some s =>
      intro now _
      dsimp only
      split
      · trivial
      · exact waits_refresh p tm none

end waits

section send
variable {R κ β : Type} {p : Platform} {c : MpcClient} {ops : κ → Operation β}

theorem waits_lastAttempt (fromSlice : FromSlice R) (build : String → Request)
    (r : Except Error String) : (lastAttempt p fromSlice build r).WaitsAtMost 1 := by
  cases r with
  | error e => trivial
  | ok token => exact ⟨Nat.one_pos, fun reply => trivial⟩

theorem waits_firstAttempt (fromSlice : FromSlice R) (build : String → Request)
    (r : Except Error String) : (firstAttempt p fromSlice c build r).WaitsAtMost 4 := by
  cases r with
  | error e => trivial
  | ok token =>
      refine ⟨Nat.succ_pos 3, fun reply => ?_⟩
      dsimp only
      split
      · trivial
      · split
        · exact Code.WaitsAtMost.bind (waits_refresh p c.tokenManager (some token))
            (waits_lastAttempt fromSlice build)
        · trivial

theorem waits_code (k : κ) : ((ops k).code p c).WaitsAtMost 7 := by
  unfold Operation.code
  rw [MpcClient.ApiCall.run_eq]
  cases (ops k).call.build c with
  | error e => trivial
  | ok build =>
      dsimp only
      rw [send_run]
      have hsend := Code.WaitsAtMost.bind (waits_getToken p c.tokenManager)
        (waits_firstAttempt (p := p) (c := c) (ops k).fromSlice build)
      exact Code.WaitsAtMost.bind (n := 0)
        (Code.WaitsAtMost.bind (n := 0) hsend fun r => trivial) fun r => trivial

end send

/-! ### The moves of one call -/

/-- Task `t` goes on in this move, after it was started. -/
def ApiAct.resumes {κ : Type} (t : ℕ) : ApiAct κ → Bool
  | .task m => m.resumes t
  | .issue _ _ _ => false

section run
variable {κ β : Type} {p : Platform} {c : MpcClient} {ops : κ → Operation β}
  {tr : List (ApiEntry κ β)} {s s' : Application κ β} {t n : ℕ}

theorem tasks_of_issue {e : ApiEntry κ β} (htook : (Application.lts p c ops).Took e) {u : ℕ}
    {token : String} {lifetime : Int64} (hact : e.act = .issue u token lifetime) :
    e.after.tasks = e.before.tasks := by
  obtain ⟨before, act, out, after⟩ := e
  cases hact
  change Application.step p c ops before (.issue u token lifetime) = some (after, out) at htook
  simp only [Application.step] at htook
  split at htook
  · cases htook
    rfl
  · cases htook

theorem bounded_took {e : ApiEntry κ β} (htook : (Application.lts p c ops).Took e)
    (hb : e.before.tasks.Bounded t n) (hstart : ∀ k, e.act ≠ .task (.start t k)) :
    if e.act.resumes t then 0 < n ∧ e.after.tasks.Bounded t (n - 1)
      else e.after.tasks.Bounded t n := by
  cases hact : e.act with
  | issue u token lifetime => simpa [ApiAct.resumes, tasks_of_issue htook hact] using hb
  | task m =>
      obtain ⟨-, -, hstep⟩ := took_task htook hact
      exact hb.step (fun k hm => hstart k (by rw [hact, hm])) hstep

/-- Along a run the moves a task makes come off its waits. -/
theorem bounded_run (h : (Application.lts p c ops).Run s tr s') (hb : s.tasks.Bounded t n)
    (hstart : ∀ e ∈ tr, ∀ k, e.act ≠ .task (.start t k)) :
    ∃ left, tr.countP (·.act.resumes t) + left = n ∧ s'.tasks.Bounded t left := by
  induction h with
  | nil => exact ⟨n, by simp, hb⟩
  | @snoc tr e hr htook ih =>
      obtain ⟨left, hcount, hleft⟩ := ih fun e' he' => hstart e' (List.mem_append_left _ he')
      have hmove := bounded_took htook hleft (hstart e (by simp))
      rw [List.countP_append, List.countP_singleton]
      cases hres : e.act.resumes t with
      | false =>
          rw [hres] at hmove
          exact ⟨left, by simpa using hcount, hmove⟩
      | true =>
          rw [hres] at hmove
          obtain ⟨hpos, hleft'⟩ := hmove
          refine ⟨left - 1, ?_, hleft'⟩
          simp only [if_true]
          omega

/-- **A call ends after at most seven moves of its own**, whatever the other calls and the
gateway do. -/
theorem ownMoves_le {now : Instant} {pre mid : List (ApiEntry κ β)} {e : ApiEntry κ β} {k : κ}
    (h : (Application.lts p c ops).Run (Application.initial now) (pre ++ e :: mid) s)
    (hact : e.act = .task (.start t k))
    (hmid : ∀ e' ∈ mid, ∀ k', e'.act ≠ .task (.start t k')) :
    mid.countP (·.act.resumes t) ≤ 7 ∧ (mid.countP (·.act.resumes t) = 7 → s.call t = none) := by
  obtain ⟨tr', a, hist, hrun, -, hR⟩ := refines_of_run h
  obtain ⟨-, htook, hrest⟩ := h.split
  obtain ⟨-, -, hstep⟩ := took_task htook hact
  obtain ⟨left, hcount, hleft⟩ := bounded_run hrest (bounded_start waits_code hstep) hmid
  refine ⟨by omega, fun hseven => ?_⟩
  unfold Application.call
  cases ht : s.tasks.tasks t with
  | none => rfl
  | some x =>
      obtain ⟨k', w⟩ := x
      have hw := hleft k' w ht
      have hzero : left = 0 := by omega
      rw [hzero] at hw
      obtain ⟨m, q, rfl⟩ | ⟨since, q, kont, rfl⟩ := hR.waits ht
      · exact absurd hw.1 (Nat.lt_irrefl 0)
      · exact absurd hw.1 (Nat.lt_irrefl 0)

/-! ### No call is stuck -/

/-- The move is possible. -/
def Application.Enabled (p : Platform) (c : MpcClient) (ops : κ → Operation β) (s : Application κ β)
    (m : Move HttpReply κ) : Prop := (Application.step p c ops s (.task m)).isSome = true

/-- Task `t` waits for a reply, which may fail at any time; or for the lock, which is free and may
be granted to any task that waits for it, or held by a task that waits for the auth endpoint
and gives it back with the reply. -/
inductive GoesOn (p : Platform) (c : MpcClient) (ops : κ → Operation β) (s : Application κ β)
    (t : ℕ) : Prop where
  | reply {since : Instant} {q : HttpCall} (hwaits : s.waitsFor t = some (since, q))
      (hfail : ∀ err, s.Enabled p c ops (.reply t (.error err)))
  | free (hqueues : s.queues t = true) (hlock : s.tasks.shared.lock = ⟨[], none⟩)
      (hgrant : ∀ u, s.queues u = true → s.Enabled p c ops (.grant u))
  | held {u : ℕ} {since : Instant} (hqueues : s.queues t = true)
      (hlock : s.tasks.shared.lock = ⟨[], some u⟩)
      (hwaits : s.waitsFor u = some (since, ⟨.auth, c.tokenManager.authRequest⟩))
      (hback : ∀ e : ApiEntry κ β, (Application.lts p c ops).Took e → e.before = s →
        ∀ x, e.act = .task (.reply u x) → e.after.tasks.shared.lock = ⟨[], none⟩)

/-- A request that is waited for may fail. -/
theorem enabled_fail (p : Platform) (c : MpcClient) (ops : κ → Operation β) {since : Instant}
    {q : HttpCall} (hwaits : s.waitsFor t = some (since, q)) (err : ReqwestError) :
    s.Enabled p c ops (.reply t (.error err)) := by
  obtain ⟨k, kont, ht⟩ := Application.asked_of_waitsFor hwaits
  have hallows : s.allows p c (.reply t (.error err)) = true := by
    simp [Application.allows, hwaits, authOutcome, Gateway.honours]
  obtain ⟨r, hr⟩ : ∃ r, SharedCell.step (fun k => (ops k).code p c) s.tasks
      (.reply t (.error err)) = some r := ⟨_, step_iff.mpr (.reply ht _)⟩
  unfold Application.Enabled
  simp only [Application.step, if_pos hallows, hr, Option.map_some, Option.isSome_some]

/-- A free lock is granted to any task that waits for it. -/
theorem enabled_grant (p : Platform) (c : MpcClient) (ops : κ → Operation β)
    (hqueues : s.queues t = true) (hlock : s.tasks.shared.lock = ⟨[], none⟩) :
    s.Enabled p c ops (.grant t) := by
  obtain ⟨k, m, q, ht⟩ : ∃ k m q, s.tasks.tasks t = some (k, .waiting m q) := by
    unfold Application.queues at hqueues
    split at hqueues
    · exact ⟨_, _, _, by assumption⟩
    · cases hqueues
  have hl : s.tasks.shared.lock.grantable m = true := by
    rw [hlock]
    cases m <;> rfl
  obtain ⟨r, hr⟩ : ∃ r, SharedCell.step (fun k => (ops k).code p c) s.tasks (.grant t) = some r :=
    ⟨_, step_iff.mpr (.grant ht hl)⟩
  unfold Application.Enabled
  simp only [Application.step, Application.allows, if_true, hr, Option.map_some, Option.isSome_some]

/-- When the reply to the auth request of a task is in, the lock is free. -/
theorem lock_of_reply {now : Instant} {e : ApiEntry κ β} {u : ℕ} {since : Instant} {x : HttpReply}
    (h : (Application.lts p c ops).Run (Application.initial now) tr e.before)
    (htook : (Application.lts p c ops).Took e) (hact : e.act = .task (.reply u x))
    (hwaits : e.before.waitsFor u = some (since, ⟨.auth, c.tokenManager.authRequest⟩)) :
    e.after.tasks.shared.lock = ⟨[], none⟩ := by
  have htoken : tokenAct e = some (.reply u x) := by simp [tokenAct, hact, hwaits]
  obtain ⟨tr', a, hist, hrun, -, hR⟩ := refines_of_run h
  have hI := Protocol.inv_of_run hrun
  rcases hR.step hI (fun s => Protocol.known_of_run hrun) htook with
    ⟨hnone, -⟩ | ⟨e', htook', rfl, hsome, hist', hR', -⟩
  · rw [htoken] at hnone
    cases hnone
  · have hstep := Protocol.step_of_took htook'
    rw [htoken] at hsome
    rw [← Option.some.inj hsome] at hstep
    have hlock : e.after.tasks.shared.lock = ⟨[], e'.after.writer⟩ :=
      congrArg Shared.lock hR'.projects.shared
    rw [hlock]
    generalize e'.after = a' at hstep
    generalize e'.out = o at hstep
    cases hstep with
    | reply ht _ _ =>
        rw [Protocol.leave_writer, if_pos (hI.locked u _ _ ht)]

/-- A call in progress can go on, or the holder of the lock it waits for can. -/
theorem goesOn_of_run {now : Instant}
    (h : (Application.lts p c ops).Run (Application.initial now) tr s) {k : κ}
    (hk : s.call t = some k) : GoesOn p c ops s t := by
  obtain ⟨tr', a, hist, hrun, -, hR⟩ := refines_of_run h
  have horder := hR.orderly (Protocol.inv_of_run hrun)
  obtain ⟨⟨k', w⟩, ht, -⟩ := Option.map_eq_some_iff.mp hk
  obtain ⟨m, q, rfl⟩ | ⟨since, q, kont, rfl⟩ := hR.waits ht
  · have hqueues : s.queues t = true := by
      unfold Application.queues
      rw [ht]
    have hlock : s.tasks.shared.lock = ⟨[], s.tasks.shared.lock.writer⟩ := by rw [← horder.readers]
    cases hw : s.tasks.shared.lock.writer with
    | none =>
        rw [hw] at hlock
        exact .free hqueues hlock fun u hu => enabled_grant p c ops hu hlock
    | some u =>
        obtain ⟨since, hwaits⟩ := horder.writer u hw
        rw [hw] at hlock
        refine .held hqueues hlock hwaits fun e htook hbefore x hact => ?_
        subst hbefore
        exact lock_of_reply h htook hact hwaits
  · have hwaits : s.waitsFor t = some (since, q) := by
      unfold Application.waitsFor
      rw [ht]
    exact .reply hwaits (enabled_fail p c ops hwaits)

/-- Some call goes on in this move, after it was started. -/
def ApiAct.resumesOne : ApiAct κ → Bool
  | .task (.grant _) | .task (.reply _ _) => true
  | _ => false

/-- A call that is left lets some call go on. -/
theorem GoesOn.exists_took (h : GoesOn p c ops s t) : ∃ e : ApiEntry κ β,
    (Application.lts p c ops).Took e ∧ e.before = s ∧ e.act.resumesOne = true := by
  have htook : ∀ {m}, s.Enabled p c ops m → (ApiAct.task m).resumesOne = true →
      ∃ e : ApiEntry κ β, (Application.lts p c ops).Took e ∧ e.before = s ∧
        e.act.resumesOne = true := by
    intro m henabled hone
    obtain ⟨r, hr⟩ := Option.isSome_iff_exists.mp henabled
    exact ⟨⟨s, .task m, r.2, r.1⟩, hr, rfl, hone⟩
  cases h with
  | reply hwaits hfail => exact htook (hfail ⟨"connection closed"⟩) rfl
  | free hqueues hlock hgrant => exact htook (hgrant t hqueues) rfl
  | held hqueues hlock hwaits hback =>
      exact htook (enabled_fail p c ops hwaits ⟨"connection closed"⟩) rfl

/-- Every call in progress waits at most seven more times. -/
theorem bounded_of_run {now : Instant}
    (h : (Application.lts p c ops).Run (Application.initial now) tr s) : s.tasks.Bounded t 7 := by
  induction h with
  | nil => exact nofun
  | @snoc tr e hr htook ih =>
      by_cases hstart : ∃ k, e.act = .task (.start t k)
      · obtain ⟨k, hact⟩ := hstart
        obtain ⟨-, -, hstep⟩ := took_task htook hact
        exact bounded_start waits_code hstep
      · have hb := bounded_took htook ih fun k hk => hstart ⟨k, hk⟩
        split at hb
        · intro k w ht
          have hw := hb.2 k w ht
          cases w with
          | ended r => trivial
          | waiting m q => exact ⟨by omega, hw.2.mono (by omega)⟩
          | asked since q kont => exact ⟨by omega, fun x => (hw.2 x).mono (by omega)⟩
        · exact hb

theorem ApiAct.exists_resumes {act : ApiAct κ} (h : act.resumesOne = true) :
    ∃ t, act.resumes t = true := by
  cases act with
  | issue t token lifetime => cases h
  | task m =>
      cases m with
      | grant t | reply t x => exact ⟨t, decide_eq_true rfl⟩
      | tick d => cases h
      | start t k => cases h
      | drop t => cases h

/-- A task without a call makes no move and gets no call but by a start. -/
theorem absent_took {e : ApiEntry κ β} (htook : (Application.lts p c ops).Took e)
    (hstart : ∀ k, e.act ≠ .task (.start t k)) (ht : e.before.call t = none) :
    e.after.call t = none ∧ e.act.resumes t = false := by
  have htasks := Option.map_eq_none_iff.mp ht
  cases hact : e.act with
  | issue u token lifetime =>
      refine ⟨?_, rfl⟩
      unfold Application.call
      rw [tasks_of_issue htook hact, htasks]
      rfl
  | task m =>
      obtain ⟨-, -, hstep⟩ := took_task htook hact
      have hm : m.task ≠ some t := by
        intro hm
        obtain ⟨k, w, hw⟩ := present_of_move hstep hm fun k hk => hstart k (by rw [hact, hk])
        rw [htasks] at hw
        cases hw
      refine ⟨?_, ?_⟩
      · unfold Application.call
        rw [tasks_step_of_ne hstep hm, htasks]
        rfl
      · cases m with
        | grant u | reply u x => exact decide_eq_false fun hut => hm (congrArg some hut)
        | tick d => rfl
        | start u k => rfl
        | drop u => rfl

theorem absent_run (h : (Application.lts p c ops).Run s tr s')
    (hstart : ∀ e ∈ tr, ∀ k, e.act ≠ .task (.start t k)) (ht : s.call t = none) :
    s'.call t = none ∧ ∀ e ∈ tr, e.act.resumes t = false := by
  obtain ⟨hend, hall⟩ := h.stable (·.call t = none) ht fun e he hb htook =>
    (absent_took htook (hstart e he) hb).1
  refine ⟨hend, fun e he => ?_⟩
  obtain ⟨pre, -, htook⟩ := h.entry he
  exact (absent_took htook (hstart e he) (hall e he).1).2

/-- While no further call is started, the calls in progress go on at most seven times each. -/
theorem resumes_le {now : Instant} {more : List (ApiEntry κ β)}
    (h : (Application.lts p c ops).Run (Application.initial now) tr s) {ts : List ℕ}
    (hts : ∀ t, t ∉ ts → s.call t = none) (hmore : (Application.lts p c ops).Run s more s')
    (hstart : ∀ e ∈ more, ∀ t k, e.act ≠ .task (.start t k)) :
    more.countP (·.act.resumesOne) ≤ 7 * ts.length := by
  have hresumes : ∀ e ∈ more, e.act.resumesOne = true → ∃ t ∈ ts, e.act.resumes t = true := by
    intro e he hone
    obtain ⟨t, ht⟩ := ApiAct.exists_resumes hone
    refine ⟨t, ?_, ht⟩
    by_contra hnot
    rw [(absent_run hmore (fun e he => hstart e he t) (hts t hnot)).2 e he] at ht
    cases ht
  have heach : ∀ n ∈ ts.map fun t => more.countP (·.act.resumes t), n ≤ 7 := by
    intro n hn
    obtain ⟨t, -, rfl⟩ := List.mem_map.mp hn
    obtain ⟨left, hcount, -⟩ := bounded_run hmore (bounded_of_run h) fun e he => hstart e he t
    omega
  calc more.countP (·.act.resumesOne)
      ≤ (ts.map fun t => more.countP (·.act.resumes t)).sum := countP_le_sum hresumes
    _ ≤ (ts.map fun t => more.countP (·.act.resumes t)).length • 7 :=
        List.sum_le_card_nsmul _ 7 heach
    _ = 7 * ts.length := by rw [List.length_map, nsmul_eq_mul, Nat.cast_id, Nat.mul_comm]

/-- **The calls in progress all end, whoever is granted the lock next**: while no further call is
started, they go on at most seven times each; as long as one is left it can go on, or it waits
for a lock whose holder can; and none is left when they have gone on that often. -/
theorem no_deadlock {now : Instant} {more : List (ApiEntry κ β)}
    (h : (Application.lts p c ops).Run (Application.initial now) tr s) {ts : List ℕ}
    (hts : ∀ t, t ∉ ts → s.call t = none) (hmore : (Application.lts p c ops).Run s more s')
    (hstart : ∀ e ∈ more, ∀ t k, e.act ≠ .task (.start t k)) :
    more.countP (·.act.resumesOne) ≤ 7 * ts.length ∧
      (∀ t k, s'.call t = some k → t ∈ ts ∧ GoesOn p c ops s' t) ∧
      (more.countP (·.act.resumesOne) = 7 * ts.length → ∀ t, s'.call t = none) := by
  have hleft : ∀ t k, s'.call t = some k → t ∈ ts ∧ GoesOn p c ops s' t := by
    intro t k hk
    refine ⟨?_, goesOn_of_run (h.append hmore) hk⟩
    by_contra hnot
    rw [(absent_run hmore (fun e he => hstart e he t) (hts t hnot)).1] at hk
    cases hk
  refine ⟨resumes_le h hts hmore hstart, hleft, fun hall t => ?_⟩
  cases hk : s'.call t with
  | none => rfl
  | some k =>
      -- one more move would be one too many
      obtain ⟨e, htook, rfl, hone⟩ := (hleft t k hk).2.exists_took
      have hle := resumes_le h hts (hmore.snoc htook) fun e' he' u k' hact => by
        rcases List.mem_append.mp he' with he' | he'
        · exact hstart e' he' u k' hact
        · rw [List.mem_singleton.mp he'] at hact
          rw [hact] at hone
          cases hone
      rw [List.countP_append, List.countP_singleton, if_pos hone] at hle
      omega

end run

/-! ### Two calls answered expired -/

/-- The run up to where task 2 waits for the lock that task 1 holds. -/
abbrev blockedRun := Application.testRun (Application.expiredTwice.take 10)

/-- Task 2 waits for task 1, and in the rest of the run they go on at most fourteen times. -/
theorem no_deadlock_blocked : blockedRun.2.queues 2 = true ∧
    GoesOn testPlatform testClient Application.testOps blockedRun.2 2 ∧
      (Application.testLts.play blockedRun.2 (Application.expiredTwice.drop 10)).1.countP
        (·.act.resumesOne) ≤ 7 * [1, 2].length := by
  obtain ⟨hlen, hqueues, hcall⟩ : blockedRun.1.length = 10 ∧ blockedRun.2.queues 2 = true ∧
      blockedRun.2.call 2 = some () := by decide +kernel
  have hacts := Lts.play_acts hlen
  have hrun := Application.testLts.run_play (.initial 0) (Application.expiredTwice.take 10)
  have hts : ∀ t, t ∉ [1, 2] → blockedRun.2.call t = none := by
    intro t ht
    refine (absent_run hrun (fun e he k hstart => ?_) rfl).1
    have hmem : e.act ∈ blockedRun.1.map (·.act) := List.mem_map_of_mem he
    rw [hacts, hstart] at hmem
    simp only [Application.expiredTwice] at hmem
    simp_all
  refine ⟨hqueues, ((no_deadlock hrun hts .nil (by simp)).2.1 2 () hcall).2, ?_⟩
  refine (no_deadlock hrun hts (Application.testLts.run_play _ _) fun e he t k hstart => ?_).1
  have hmem := Lts.act_mem_of_mem_play he
  rw [hstart] at hmem
  simp [Application.expiredTwice] at hmem

/-- Task 2 is started in move number 5 and then goes on in four moves. -/
theorem ownMoves_expiredTwice :
    let tr := (Application.testRun Application.expiredTwice).1
    (tr.drop 6).countP (·.act.resumes 2) = 4 ∧ (tr.drop 6).countP (·.act.resumes 2) ≤ 7 := by
  intro tr
  have hacts : tr.map (·.act) = Application.expiredTwice := Lts.play_acts (by
    rw [← List.length_map (f := (·.out)), Application.testRun_expiredTwice]
    rfl)
  have hact := congrArg (·[5]?) hacts
  rw [List.getElem?_map] at hact
  obtain ⟨e, he, hact⟩ := Option.map_eq_some_iff.mp hact
  have hcount : (tr.drop 6).countP (·.act.resumes 2) =
      (Application.expiredTwice.drop 6).countP (·.resumes 2) := by
    rw [← hacts, ← List.map_drop, List.countP_map]
    rfl
  refine ⟨hcount, (ownMoves_le (Lts.run_play_split Application.testLts _ _ he) hact ?_).1⟩
  intro e' he' k' hstart
  have hmem : e'.act ∈ (tr.drop 6).map (·.act) := List.mem_map_of_mem he'
  rw [List.map_drop, hacts, hstart] at hmem
  simp [Application.expiredTwice] at hmem

end ParatroSdk
