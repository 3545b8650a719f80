import ParatroSdk.Refresh

/-! # Cached tokens and the lifetime the gateway gave them

The gateway accepts a token for `expires_in` seconds from the moment it issues it; the SDK
counts `expires_in - 120` seconds from the moment the reply arrives.  A cached token is
therefore within its lifetime whenever it is handed out, if every reply that grants a token
for more than 120 seconds arrives within 120 seconds of the issue (`valid_of_prompt`).  The
HTTP client waits for 200 seconds, so a later reply is possible, and then the cached token
outlives the gateway's (`not_valid_slowLogin`).

The lifetime of a cached token is that of the issue it was cached with (`CachedFrom`), also
where the gateway issues a token string again. -/

namespace ParatroSdk

open Text Machine Interaction SharedCell Transition TokenManager

/-- The gateway still accepts the token. -/
def Issue.ValidAt (i : Issue) (now : Instant) : Prop :=
  (now : ℤ) < i.issuedAt + i.lifetime.toInt * Duration.nanosPerSec

/-- The buffer can be taken off the lifetime without leaving the 64-bit range. -/
def Issue.InRange (lifetime : Int64) : Prop := Fits (lifetime.toInt - refreshBufferSecs.toInt)

instance (lifetime : Int64) : Decidable (Issue.InRange lifetime) := inferInstanceAs (Decidable (Fits _))

/-- A token granted for more than the buffer arrives within the buffer. -/
def PromptReply (p : Platform) (e : Entry System Act Returned) : Prop :=
  ∀ t x tokResp i, e.act = .reply t x → authOutcome p x = .granted tokResp →
    e.before.gateway.pending t = some i → refreshBufferSecs.toInt < i.lifetime.toInt →
      (e.before.now : ℤ) ≤ i.issuedAt + refreshBufferSecs.toInt * Duration.nanosPerSec

/-- The gateway issues tokens with lifetimes in range. -/
def IssuesInRange (e : Entry System Act Returned) : Prop :=
  ∀ t token lifetime, e.act = .issue t token lifetime → Issue.InRange lifetime

/-- The last exchange that put a token in the cache was granted the issue `i`. -/
def CachedFrom (tr : List (Entry System Act Returned)) (i : Issue) : Prop :=
  ∃ pre g mid t x c, tr = pre ++ g :: mid ∧ g.act = .reply t x ∧
    g.before.gateway.pending t = some i ∧ g.out = some ⟨t, c, some (.ok i.token)⟩ ∧
      ∀ e ∈ mid, e.after.cache = g.after.cache

section deadline
variable {p : Platform} {tm : TokenManager}

theorem expiresInSecs_of_inRange (m : OverflowChecks) {e : Int64} (h : Issue.InRange e) :
    ∃ secs, expiresInSecs m e = some secs ∧
      (secs : ℤ) = max (e.toInt - refreshBufferSecs.toInt) 0 := by
  obtain ⟨d, hd, hval⟩ := sub_of_fits m h
  refine ⟨(max d.toInt 0).toNat, ?_, ?_⟩
  · unfold expiresInSecs
    rw [hd]
    rfl
  · rw [hval]
    omega

/-- The deadline stored with a token of a lifetime in range. -/
theorem deadline_of_inRange {m : OverflowChecks} {now d : Instant} {e : Int64}
    (h : Issue.InRange e) (hd : deadline m now e = some d) :
    (d : ℤ) = now + Duration.nanosPerSec * max (e.toInt - refreshBufferSecs.toInt) 0 := by
  obtain ⟨secs, hsecs, hval⟩ := expiresInSecs_of_inRange m h
  unfold deadline at hd
  rw [hsecs, Option.bind_some] at hd
  unfold Instant.add Duration.fromSecs at hd
  split at hd
  · cases hd
    push_cast
    rw [hval]
  · cases hd

end deadline

namespace Protocol

variable {p : Platform} {tm : TokenManager} {a a' : Protocol} {act : Act} {o : Returned}

/-- A token on the ledger was there before, or is issued in this move. -/
theorem Step.issued_cases (h : Step p tm a act o a') {i : Issue} (hi : i ∈ a'.gateway.issued) :
    i ∈ a.gateway.issued ∨ ∃ t, act = .issue t i.token i.lifetime := by
  obtain ⟨hg, -⟩ | ⟨t, j, c, since, hact, -, -, -, hg⟩ | ⟨t, -, hg⟩ := h.gateway_cases
  · rw [hg] at hi
    exact .inl hi
  · rw [hg] at hi
    obtain rfl | hi := List.mem_cons.mp hi
    · exact .inr ⟨t, hact⟩
    · exact .inl hi
  · rw [hg] at hi
    exact .inl hi

theorem Step.now_mono (h : Step p tm a act o a') : a.now ≤ a'.now := by
  cases h with
  | tick d => exact Nat.le_add_right _ _
  | _ => exact le_refl _

theorem now_le_of_run {tr : List (Entry Protocol Act Returned)} (h : (lts p tm).Run a tr a') :
    a.now ≤ a'.now :=
  h.invariant (fun b => a.now ≤ b.now) (le_refl _) fun _ hle htook =>
    hle.trans (step_of_took htook).now_mono

theorem inRange_of_run {now : Instant} {tr : List (Entry Protocol Act Returned)}
    (h : (lts p tm).Run (initial now) tr a)
    (hrange : ∀ e ∈ tr, ∀ t token lifetime, e.act = .issue t token lifetime → Issue.InRange lifetime) :
    ∀ i ∈ a.gateway.issued, Issue.InRange i.lifetime := by
  induction h with
  | nil => exact fun i hi => absurd hi List.not_mem_nil
  | @snoc tr e hr htook ih =>
      intro i hi
      obtain hi | ⟨t, hact⟩ := (step_of_took htook).issued_cases hi
      · exact ih (fun e' he' => hrange e' (List.mem_append_left _ he')) i hi
      · exact hrange e (by simp) t _ _ hact

/-- The last exchange that put a token in the cache was granted the issue `i` and put `s`
there, with a deadline counted from that moment. -/
structure CachedBy (p : Platform) (tr : List (Entry Protocol Act Returned)) (i : Issue)
    (s : TokenState) : Prop where
  token : i.token = s.token
  began : ∃ pre g mid t x c tokResp, tr = pre ++ g :: mid ∧ g.act = .reply t x ∧
    authOutcome p x = .granted tokResp ∧ g.before.gateway.pending t = some i ∧
    g.out = some ⟨t, c, some (.ok i.token)⟩ ∧
    deadline p.overflowChecks g.before.now i.lifetime = some s.expiresAt ∧
      ∀ e ∈ g :: mid, e.after.cache = some s

theorem CachedBy.snoc {tr : List (Entry Protocol Act Returned)} {i : Issue} {s : TokenState}
    (h : CachedBy p tr i s) {e : Entry Protocol Act Returned} (he : e.after.cache = some s) :
    CachedBy p (tr ++ [e]) i s := by
  obtain ⟨htok, pre, g, mid, t, x, c, tokResp, rfl, hact, hout, hp, hret, hd, hmid⟩ := h
  refine ⟨htok, pre, g, mid ++ [e], t, x, c, tokResp, by simp, hact, hout, hp, hret, hd, ?_⟩
  intro e' he'
  rw [← List.cons_append] at he'
  obtain he' | he' := List.mem_append.mp he'
  · exact hmid e' he'
  · rw [List.mem_singleton.mp he']
    exact he

theorem cached_of_run {now : Instant} {tr : List (Entry Protocol Act Returned)}
    (h : (lts p tm).Run (initial now) tr a) {s : TokenState} (hs : a.cache = some s) :
    ∃ i ∈ a.gateway.issued, CachedBy p tr i s := by
  induction h with
  | nil => cases hs
  | @snoc tr e hr htook ih =>
      have hstep := step_of_took htook
      have hkept (hbefore : e.before.cache = some s) :
          ∃ i ∈ e.after.gateway.issued, CachedBy p (tr ++ [e]) i s := by
        obtain ⟨i, hi, hby⟩ := ih hbefore
        exact ⟨i, hstep.issued_mono hi, hby.snoc hs⟩
      obtain hc | ⟨t, x, c, since, hact, -, hh, hret, hc⟩ := hstep.cache_cases
      · exact hkept (hc.symm.trans hs)
      · obtain hbefore | ⟨tokResp, hout, htok, hd⟩ := settle_cache (hc.symm.trans hs)
        · exact hkept hbefore
        · obtain ⟨i, hi, hit, hlife⟩ := pending_of_granted hh hout
          refine ⟨i, hstep.issued_mono ((inv_of_run hr).pending t i hi).1, hit.trans htok, tr, e, [],
            t, x, c, tokResp, rfl, hact, hout, hi, ?_, by rw [hlife]; exact hd, ?_⟩
          · rw [hret, hout]
            simp only [settle, hd, hit]
          · intro e' he'
            rw [List.mem_singleton.mp he']
            exact hs

end Protocol

/-- The deadline counted from a prompt reply is within the lifetime, or has passed already. -/
theorem deadline_of_prompt {m : OverflowChecks} {now d : Instant} {i : Issue}
    (hrange : Issue.InRange i.lifetime) (hd : deadline m now i.lifetime = some d)
    (hprompt : refreshBufferSecs.toInt < i.lifetime.toInt →
      (now : ℤ) ≤ i.issuedAt + refreshBufferSecs.toInt * Duration.nanosPerSec) :
    d ≤ now ∨ (d : ℤ) ≤ i.issuedAt + i.lifetime.toInt * Duration.nanosPerSec := by
  have hexp := deadline_of_inRange hrange hd
  by_cases hlong : refreshBufferSecs.toInt < i.lifetime.toInt
  · have hlat := hprompt hlong
    rw [max_eq_left (by omega)] at hexp
    right
    rw [hexp, mul_sub, mul_comm (Duration.nanosPerSec : ℤ) i.lifetime.toInt,
      mul_comm (Duration.nanosPerSec : ℤ) refreshBufferSecs.toInt]
    omega
  · rw [max_eq_right (by omega), mul_zero, add_zero] at hexp
    left
    exact (Int.ofNat.inj hexp).le

/-- **In a run whose replies that grant a token for more than 120 seconds arrive within 120
seconds of the issue, `get_token` returns no cached token outside the lifetime it was issued
with.** -/
theorem valid_of_prompt {p : Platform} {tm : TokenManager} {now : Instant} {s : System}
    {pre post : List (Entry System Act Returned)} {e : Entry System Act Returned}
    (h : (System.lts p tm).Run (System.initial now) (pre ++ e :: post) s)
    (hrange : ∀ e' ∈ pre, IssuesInRange e') (hprompt : ∀ e' ∈ pre, PromptReply p e') {t : ℕ}
    {token : String} (hact : e.act = .grant t)
    (hret : e.out = some ⟨t, .getToken, some (.ok token)⟩) :
    ∃ i ∈ e.before.gateway.issued, i.token = token ∧ CachedFrom pre i ∧ i.ValidAt e.before.now := by
  obtain ⟨pre, e, post, a, hpre, htook, -, rfl, rfl, rfl⟩ := Protocol.run_conc_split p tm h
  rcases (Protocol.step_of_took htook).returned hret with ⟨x, -, -, -, hact', -⟩ |
    ⟨-, st, hst, hstok, hlt | ⟨stale, hc, -⟩⟩
  · cases (show e.act = .grant t from hact).symm.trans hact'
  · obtain ⟨i, hi, htok, pre₁, g, mid, u, x, c, tokResp, rfl, hg, hout, hp, hgout, hd, hcache⟩ :=
      Protocol.cached_of_run hpre hst
    refine ⟨i, hi, htok.trans hstok, ?_, ?_⟩
    · refine ⟨pre₁.map (Lts.mapEntry (Protocol.conc p tm)), Lts.mapEntry (Protocol.conc p tm) g,
        mid.map (Lts.mapEntry (Protocol.conc p tm)), u, x, c, by simp, hg, hp, hgout, ?_⟩
      intro e' he'
      obtain ⟨e'', he'', rfl⟩ := List.mem_map.mp he'
      exact (hcache e'' (List.mem_cons_of_mem g he'')).trans (hcache g List.mem_cons_self).symm
    · have hinRange := Protocol.inRange_of_run hpre
        (fun e' he' => hrange _ (List.mem_map_of_mem he')) i hi
      have hlat := hprompt _
        (List.mem_map_of_mem (List.mem_append_right pre₁ List.mem_cons_self)) u x tokResp i hg hout hp
      have hnow : (e.before.now : ℤ) < st.expiresAt := Int.ofNat_lt.mpr hlt
      obtain hle | hle := deadline_of_prompt hinRange hd hlat
      · obtain ⟨-, htookg, hmid⟩ := hpre.split
        have hmono := (Protocol.step_of_took htookg).now_mono.trans (Protocol.now_le_of_run hmid)
        exact absurd hlt (not_lt.mpr (hle.trans hmono))
      · exact lt_of_lt_of_le hnow hle
  · cases hc

/-- Task 1 logs in at once; task 2 is served from the cache 700 seconds later. -/
def promptLogin : List Act :=
  System.logIn 1 "token-0" tokenJson0 ++
    [.tick (Duration.fromSecs 700), .call 2 .getToken, .grant 2]

/-- The answer to the login of task 1 takes 150 seconds; task 2 is served 910 seconds after
the issue. -/
def slowLogin : List Act :=
  [.call 1 .getToken, .grant 1, .grant 1, .issue 1 "token-0" 900, .tick (Duration.fromSecs 150),
    .reply 1 (.text 200 tokenJson0), .tick (Duration.fromSecs 760), .call 2 .getToken, .grant 2]

theorem valid_of_prompt_promptLogin : ∃ e ∈ (System.testRun promptLogin).1,
    e.out = some ⟨2, .getToken, some (.ok "token-0")⟩ ∧
      ∃ i ∈ e.before.gateway.issued, i.token = "token-0" ∧
        CachedFrom ((System.testRun promptLogin).1.take 7) i ∧ i.ValidAt e.before.now := by
  obtain ⟨hprompt, hat⟩ : (System.testRun promptLogin).1.all (fun e => match e.act with
      | .reply t _ => (e.before.gateway.pending t).all fun i => e.before.now = i.issuedAt
      | _ => true) = true ∧
      (System.testRun promptLogin).1[7]?.map (fun e => (e.act, e.out)) =
        some (.grant 2, some ⟨2, .getToken, some (.ok "token-0")⟩) := by
    decide +kernel
  obtain ⟨e, he, hret⟩ := Option.map_eq_some_iff.mp hat
  obtain ⟨hact, hout⟩ := Prod.mk.inj hret
  refine ⟨e, List.mem_of_getElem? he, hout, ?_⟩
  refine valid_of_prompt (System.testLts.run_play_split _ promptLogin he) ?_ ?_ hact hout
  · intro e' he' t token lifetime hissue
    have hmem := Lts.act_mem_of_mem_play (List.mem_of_mem_take he')
    rw [hissue] at hmem
    have hlifetime : lifetime = 900 := by simp_all [promptLogin, System.logIn]
    subst hlifetime
    decide +kernel
  · intro e' he' t x tokResp i hreply hgranted hpending hlong
    have hp := List.all_eq_true.mp hprompt e' (List.mem_of_mem_take he')
    rw [hreply] at hp
    simp only [hpending, Option.all_some, decide_eq_true_eq] at hp
    rw [hp]
    have hbuffer : 0 ≤ refreshBufferSecs.toInt * Duration.nanosPerSec := by decide +kernel
    omega

/-- The SDK keeps `token-0` for 780 seconds from the answer on, 30 seconds more than the
gateway does. -/
theorem not_valid_slowLogin :
    ¬ ∀ pre e post s t token, System.testLts.Run (System.initial 0) (pre ++ e :: post) s →
      (∀ e' ∈ pre, IssuesInRange e') → e.act = .grant t →
        e.out = some ⟨t, .getToken, some (.ok token)⟩ →
          ∃ i ∈ e.before.gateway.issued, i.token = token ∧ CachedFrom pre i ∧
            i.ValidAt e.before.now := by
  intro h
  obtain ⟨hat, hnow⟩ :
      (System.testRun slowLogin).1[8]?.map (fun e => (e.act, e.out, e.before.gateway.issued)) =
        some (.grant 2, some ⟨2, .getToken, some (.ok "token-0")⟩, [⟨"token-0", 900, 0⟩]) ∧
      (System.testRun slowLogin).1[8]?.all (fun e => e.before.now = Duration.fromSecs 910) := by
    decide +kernel
  obtain ⟨e, he, hret⟩ := Option.map_eq_some_iff.mp hat
  obtain ⟨hact, hret⟩ := Prod.mk.inj hret
  obtain ⟨hout, hissued⟩ := Prod.mk.inj hret
  rw [he, Option.all_some, decide_eq_true_iff] at hnow
  have hrange : ∀ e' ∈ (System.testRun slowLogin).1.take 8, IssuesInRange e' := by
    intro e' he' t token lifetime hissue
    have hmem := Lts.act_mem_of_mem_play (List.mem_of_mem_take he')
    rw [hissue] at hmem
    have hlifetime : lifetime = 900 := by simp_all [slowLogin]
    subst hlifetime
    decide +kernel
  obtain ⟨i, hi, -, -, hvalid⟩ :=
    h _ _ _ _ _ _ (System.testLts.run_play_split _ slowLogin he) hrange hact hout
  rw [hissued] at hi
  rw [hnow, List.mem_singleton.mp hi] at hvalid
  revert hvalid
  unfold Issue.ValidAt
  decide +kernel

end ParatroSdk
