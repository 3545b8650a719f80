import ParatroSdk.Protocol

/-! # Single-flight refresh

The properties of the token manager over whole runs of the system, with any number of
tasks in any interleaving.  `Inv` is the invariant of the refresh protocol: the task that
waits for the auth endpoint holds the write lock, and the token cached while it waits is
the one it was told to replace, or one whose deadline had passed when it checked.

`Reported` and `Gone` are about one token and need that it is issued once only: an exchange
made to replace the token does not bring it back, and once it is out of the cache it is gone
for good. -/

namespace ParatroSdk

open Machine Interaction SharedCell Transition TokenManager

namespace Protocol

variable {p : Platform} {tm : TokenManager} {a a' : Protocol} {act : Act} {o : Returned}

/-! ### One move, field by field -/

/-- A reply ends the exchange of its task as the outcome says. -/
theorem Step.reply_cases {t : ℕ} {x : HttpReply} (h : Step p tm a (.reply t x) o a') :
    ∃ c since, a.tasks t = some (.exchanging c since) ∧
      a.gateway.honours t (authOutcome p x) = true ∧
      o = some ⟨t, c, (settle p a.cache a.now (authOutcome p x)).2⟩ ∧
      a'.cache = (settle p a.cache a.now (authOutcome p x)).1 := by
  cases h with
  | reply ht _ hh => exact ⟨_, _, ht, hh, rfl, rfl⟩

/-- The cache changes only where an exchange ends, to what its outcome makes of it. -/
theorem Step.cache_cases (h : Step p tm a act o a') :
    a'.cache = a.cache ∨
      ∃ t x c since, act = .reply t x ∧ a.tasks t = some (.exchanging c since) ∧
        a.gateway.honours t (authOutcome p x) = true ∧
        o = some ⟨t, c, (settle p a.cache a.now (authOutcome p x)).2⟩ ∧
        a'.cache = (settle p a.cache a.now (authOutcome p x)).1 := by
  cases h with
  | reply ht _ hh => exact .inr ⟨_, _, _, _, rfl, ht, hh, rfl, rfl⟩
  | _ => exact .inl rfl

/-- A task in an exchange was in it before, or just got the write lock and found no token it
may return. -/
theorem Step.exchanging_cases (h : Step p tm a act o a') {t : ℕ} {c : Call} {since : Instant}
    (ht : a'.tasks t = some (.exchanging c since)) :
    (a.tasks t = some (.exchanging c since) ∧ act ≠ .drop t ∧ ∀ x, act ≠ .reply t x) ∨
      (act = .grant t ∧ a.tasks t = some (.queued c) ∧ a.writer = none ∧ since = a.now ∧
        a'.writer = some t ∧ a'.cache = a.cache ∧
          ∀ s, a.cache = some s → reusable c.stale s a.now = false) := by
  cases h with
  | tick d => exact .inl ⟨ht, by simp, by simp⟩
  | issue _ _ => exact .inl ⟨ht, by simp, by simp⟩
  | @call u c' hu =>
      obtain ⟨-, hw⟩ | ⟨-, ht'⟩ := of_park_tasks ht
      · cases c' <;> cases hw
      · exact .inl ⟨ht', by simp, by simp⟩
  | readMiss hu _ =>
      obtain ⟨-, hw⟩ | ⟨-, ht'⟩ := of_park_tasks ht
      · cases hw
      · exact .inl ⟨ht', by simp, by simp⟩
  | readHit _ _ _ _ | reuse _ _ _ _ => exact .inl ⟨(of_leave_tasks ht).2, by simp, by simp⟩
  | @exchange u c' hu hw hre =>
      obtain ⟨rfl, hw'⟩ | ⟨-, ht'⟩ := of_park_tasks (a := a) (t := u) ht
      · obtain ⟨rfl, rfl⟩ := Waiting.exchanging.inj hw'
        exact .inr ⟨rfl, hu, hw, rfl, rfl, rfl, hre⟩
      · exact .inl ⟨ht', by simp, by simp⟩
  | @reply u x c' since' hu _ _ =>
      obtain ⟨hne, ht'⟩ := of_leave_tasks ht
      exact .inl ⟨ht', by simp, fun x' hx => hne (Act.reply.inj hx).1.symm⟩
  | @drop u w hu =>
      obtain ⟨hne, ht'⟩ := of_leave_tasks (a := a) (t := u) ht
      exact .inl ⟨ht', fun hx => hne (Act.drop.inj hx).symm, by simp⟩

/-- The write lock stays with its holder until that task gets its reply or is dropped. -/
theorem Step.writer_kept (h : Step p tm a act o a') {t : ℕ} (hw : a.writer = some t)
    (hd : act ≠ .drop t) (hr : ∀ x, act ≠ .reply t x) : a'.writer = some t := by
  cases h with
  | tick d => exact hw
  | issue _ _ => exact hw
  | call _ => exact hw
  | readMiss _ hn => rw [hn] at hw; cases hw
  | readHit _ hn _ _ => rw [hn] at hw; cases hw
  | reuse _ hn _ _ => rw [hn] at hw; cases hw
  | exchange _ hn _ => rw [hn] at hw; cases hw
  | @reply u x c since _ _ _ =>
      rw [leave_writer]
      dsimp only
      rw [hw, if_neg]
      intro htu
      exact hr x (by rw [Option.some.inj htu])
  | @drop u w _ =>
      show (a.leave u).writer = some t
      rw [leave_writer, hw, if_neg]
      intro htu
      exact hd (by rw [Option.some.inj htu])

/-- A waiting task waited before in the same call, or was just started. -/
theorem Step.tasks_cases (h : Step p tm a act o a') {t : ℕ} {w : Waiting}
    (ht : a'.tasks t = some w) :
    (∃ w', a.tasks t = some w' ∧ w'.call = w.call) ∨ act = .call t w.call := by
  cases h with
  | tick d => exact .inl ⟨w, ht, rfl⟩
  | issue _ _ => exact .inl ⟨w, ht, rfl⟩
  | @call u c hu =>
      obtain ⟨rfl, rfl⟩ | ⟨-, ht'⟩ := of_park_tasks ht
      · rw [Call.call_entry]
        exact .inr rfl
      · exact .inl ⟨w, ht', rfl⟩
  | @readMiss u hu _ =>
      obtain ⟨rfl, rfl⟩ | ⟨-, ht'⟩ := of_park_tasks ht
      · exact .inl ⟨.reading, hu, rfl⟩
      · exact .inl ⟨w, ht', rfl⟩
  | @exchange u c hu _ _ =>
      obtain ⟨rfl, rfl⟩ | ⟨-, ht'⟩ := of_park_tasks (a := a) (t := u) ht
      · exact .inl ⟨.queued c, hu, rfl⟩
      · exact .inl ⟨w, ht', rfl⟩
  | readHit _ _ _ _ | reuse _ _ _ _ | reply _ _ _ => exact .inl ⟨w, (of_leave_tasks ht).2, rfl⟩
  | @drop u w' _ => exact .inl ⟨w, (of_leave_tasks (a := a) (t := u) ht).2, rfl⟩

/-- An exchange goes on until its reply is in or its task is dropped. -/
theorem Step.exchanging_kept (h : Step p tm a act o a') {t : ℕ} {c : Call} {since : Instant}
    (ht : a.tasks t = some (.exchanging c since)) (hd : act ≠ .drop t)
    (hr : ∀ x, act ≠ .reply t x) : a'.tasks t = some (.exchanging c since) := by
  have hne : ∀ {u w}, a.tasks u = some w → w ≠ .exchanging c since → t ≠ u := by
    intro u w hu hw htu
    rw [htu, hu] at ht
    exact hw (Option.some.inj ht)
  cases h with
  | tick d => exact ht
  | issue _ _ => exact ht
  | @call u c' hu =>
      rw [park_tasks, if_neg, ht]
      intro htu
      rw [htu, hu] at ht
      cases ht
  | readMiss hu _ => rw [park_tasks, if_neg (hne hu (by simp)), ht]
  | readHit hu _ _ _ => rw [leave_tasks, if_neg (hne hu (by simp)), ht]
  | reuse hu _ _ _ => rw [leave_tasks, if_neg (hne hu (by simp)), ht]
  | @exchange u c' hu _ _ =>
      have htasks := a.park_tasks u t (.exchanging c' a.now)
      rw [if_neg (hne hu (by simp)), ht] at htasks
      exact htasks
  | @reply u x c' since' hu _ _ =>
      rw [leave_tasks, if_neg, ht]
      intro htu
      exact hr x (by rw [htu])
  | @drop u w hu =>
      have htasks := a.leave_tasks u t
      rw [if_neg (fun htu => hd (by rw [htu])), ht] at htasks
      exact htasks

/-- The gateway issues a token in an exchange, or notes the end of one. -/
theorem Step.gateway_cases (h : Step p tm a act o a') :
    (a'.gateway = a.gateway ∧ ∀ t, act ≠ .drop t ∧ ∀ x, act ≠ .reply t x) ∨
      (∃ t i c since, act = .issue t i.token i.lifetime ∧ a.tasks t = some (.exchanging c since) ∧
        a'.tasks = a.tasks ∧ i.issuedAt = a.now ∧ a'.gateway = a.gateway.issue t i) ∨
      ∃ t, (act = .drop t ∨ ∃ x, act = .reply t x) ∧ a'.gateway = a.gateway.settle t := by
  cases h with
  | issue ht _ => exact .inr (.inl ⟨_, ⟨_, _, a.now⟩, _, _, rfl, ht, rfl, rfl, rfl⟩)
  | reply _ _ _ => exact .inr (.inr ⟨_, .inr ⟨_, rfl⟩, rfl⟩)
  | drop _ => exact .inr (.inr ⟨_, .inl rfl, rfl⟩)
  | _ => exact .inl ⟨rfl, by simp⟩

theorem Step.issued_mono (h : Step p tm a act o a') {i : Issue} (hi : i ∈ a.gateway.issued) :
    i ∈ a'.gateway.issued := by
  obtain ⟨hg, -⟩ | ⟨t, j, c, since, -, -, -, -, hg⟩ | ⟨t, -, hg⟩ := h.gateway_cases
  · rw [hg]; exact hi
  · rw [hg]; exact List.mem_cons_of_mem _ hi
  · rw [hg]; exact hi

theorem Step.knows_mono (h : Step p tm a act o a') {token : String}
    (hk : a.gateway.knows token = true) : a'.gateway.knows token = true := by
  obtain ⟨i, hi, htok⟩ := Gateway.knows_iff.mp hk
  exact Gateway.knows_iff.mpr ⟨i, h.issued_mono hi, htok⟩

/-! ### The invariant -/

/-- The invariant of the refresh protocol. -/
structure Inv (a : Protocol) : Prop where
  /-- Whoever waits for the auth endpoint holds the write lock. -/
  locked : ∀ t c since, a.tasks t = some (.exchanging c since) → a.writer = some t
  /-- The token cached during an exchange is the one the exchange is to replace. -/
  flight : ∀ t c since s, a.tasks t = some (.exchanging c since) → a.cache = some s →
    c.stale = some s.token ∨ (c.stale = none ∧ s.expiresAt ≤ since)
  /-- What is issued in an exchange is on the ledger. -/
  pending : ∀ t i, a.gateway.pending t = some i →
    i ∈ a.gateway.issued ∧ ∃ c since, a.tasks t = some (.exchanging c since)

theorem inv_initial (now : Instant) : Inv (initial now) := by
  refine ⟨?_, ?_, ?_⟩
  · intro t c since h; cases h
  · intro t c since s h; cases h
  · intro t i h; cases h

theorem Inv.pending_known (hI : Inv a) {t : ℕ} {i : Issue} (hi : a.gateway.pending t = some i) :
    a.gateway.knows i.token = true := Gateway.knows_iff.mpr ⟨i, (hI.pending t i hi).1, rfl⟩

/-- At most one task is in an exchange. -/
theorem Inv.exchanging_unique (hI : Inv a) {t u : ℕ} {c c' : Call} {since since' : Instant}
    (ht : a.tasks t = some (.exchanging c since)) (hu : a.tasks u = some (.exchanging c' since')) :
    t = u :=
  Option.some.inj ((hI.locked t c since ht).symm.trans (hI.locked u c' since' hu))

/-- The cache does not change under a task in an exchange. -/
theorem Inv.cache_kept (hI : Inv a) (h : Step p tm a act o a') {t : ℕ} {c : Call} {since : Instant}
    (ht : a.tasks t = some (.exchanging c since)) (hr : ∀ x, act ≠ .reply t x) :
    a'.cache = a.cache := by
  obtain hc | ⟨u, x, c', since', rfl, hu, -, -, -⟩ := h.cache_cases
  · exact hc
  · have htu := hI.exchanging_unique ht hu
    subst htu
    exact absurd rfl (hr x)

theorem not_reusable {stale : Option String} {s : TokenState} {now : Instant}
    (h : reusable stale s now = false) :
    stale = some s.token ∨ (stale = none ∧ s.expiresAt ≤ now) := by
  unfold reusable at h
  rw [Bool.or_eq_false_iff] at h
  cases stale with
  | none =>
      refine .inr ⟨rfl, ?_⟩
      simpa using h.1
  | some token =>
      refine .inl ?_
      have := h.2
      simp only [Option.any_some, bne_eq_false_iff_eq] at this
      rw [this]

/-- What is issued in an exchange after a move was issued before, while the exchange goes on, or
in this move. -/
theorem Step.pending_cases (h : Step p tm a act o a') {t : ℕ} {i : Issue}
    (hp : a'.gateway.pending t = some i) :
    (a.gateway.pending t = some i ∧ act ≠ .drop t ∧ ∀ x, act ≠ .reply t x) ∨
      act = .issue t i.token i.lifetime ∧ a'.tasks = a.tasks ∧ i ∈ a'.gateway.issued ∧
        ∃ c since, a.tasks t = some (.exchanging c since) := by
  obtain ⟨hg, hact⟩ | ⟨u, j, c, since, rfl, hu, htasks, -, hg⟩ | ⟨u, hact, hg⟩ := h.gateway_cases
  · rw [hg] at hp
    exact .inl ⟨hp, hact t⟩
  · rw [hg, Gateway.pending_issue] at hp
    split at hp
    · rename_i htu
      cases hp
      refine .inr ⟨by rw [htu], htasks, ?_, c, since, by rw [htu]; exact hu⟩
      rw [hg]
      exact List.mem_cons_self
    · exact .inl ⟨hp, by simp, by simp⟩
  · rw [hg, Gateway.pending_settle] at hp
    split at hp
    · cases hp
    · rename_i htu
      refine .inl ⟨hp, ?_, ?_⟩
      · rintro rfl
        obtain hact | ⟨x, hact⟩ := hact
        · exact htu (Act.drop.inj hact)
        · cases hact
      · rintro x rfl
        obtain hact | ⟨x', hact⟩ := hact
        · cases hact
        · exact htu (Act.reply.inj hact).1

theorem Inv.step (hI : Inv a) (h : Step p tm a act o a') : Inv a' := by
  refine ⟨?_, ?_, ?_⟩
  · intro t c since ht
    obtain ⟨ht', hd, hr⟩ | ⟨-, -, -, -, hw, -, -⟩ := h.exchanging_cases ht
    · exact h.writer_kept (hI.locked t c since ht') hd hr
    · exact hw
  · intro t c since s ht hs
    obtain ⟨ht', hd, hr⟩ | ⟨-, -, -, rfl, -, hc, hre⟩ := h.exchanging_cases ht
    · rw [hI.cache_kept h ht' hr] at hs
      exact hI.flight t c since s ht' hs
    · rw [hc] at hs
      exact not_reusable (hre s hs)
  · intro t i hp
    obtain ⟨hp', hd, hr⟩ | ⟨-, htasks, hi, hex⟩ := h.pending_cases hp
    · obtain ⟨hi, c, since, ht⟩ := hI.pending t i hp'
      exact ⟨h.issued_mono hi, c, since, h.exchanging_kept ht hd hr⟩
    · exact ⟨hi, by rw [htasks]; exact hex⟩

theorem inv_of_run {now : Instant} {tr : List (Entry Protocol Act Returned)} {a : Protocol}
    (h : (lts p tm).Run (initial now) tr a) : Inv a :=
  h.invariant Inv (inv_initial now) fun _ hI ht => hI.step (step_of_took ht)

/-! ### A token that is reported -/

/-- The token is on the ledger when it is reported, and no exchange made to replace it issued it
again. -/
structure Reported (token : String) (a : Protocol) : Prop where
  known : ∀ t w, a.tasks t = some w → w.call = .refreshAfterExpiry token →
    a.gateway.knows token = true
  fresh : ∀ t since i, a.tasks t = some (.exchanging (.refreshAfterExpiry token) since) →
    a.gateway.pending t = some i → i.token ≠ token

theorem reported_initial (token : String) (now : Instant) : Reported token (initial now) := by
  refine ⟨?_, ?_⟩
  · intro t w h; cases h
  · intro t since i h; cases h

theorem Reported.step {token : String} (hR : Reported token a) (hI : Inv a)
    (h : Step p tm a act o a') (honce : IssuedOnce token a.gateway act) : Reported token a' := by
  refine ⟨?_, ?_⟩
  · intro t w ht hw
    obtain ⟨w', ht', hw'⟩ | hact := h.tasks_cases ht
    · exact h.knows_mono (hR.known t w' ht' (hw'.trans hw))
    · rw [hw] at hact
      exact h.knows_mono (honce.call hact)
  · intro t since i ht hp
    obtain ⟨hp', -⟩ | ⟨hact, htasks, -⟩ := h.pending_cases hp
    · obtain ⟨ht', -⟩ | ⟨-, hu, -⟩ := h.exchanging_cases ht
      · exact hR.fresh t since i ht' hp'
      · obtain ⟨-, c, since', ht'⟩ := hI.pending t i hp'
        rw [hu] at ht'
        cases ht'
    · rintro rfl
      rw [htasks] at ht
      have hk := hR.known t _ ht rfl
      rw [honce.issue hact] at hk
      cases hk

theorem reported_of_run {token : String} {now : Instant} {tr : List (Entry Protocol Act Returned)}
    (h : (lts p tm).Run (initial now) tr a)
    (honce : ∀ e ∈ tr, IssuedOnce token e.before.gateway e.act) : Reported token a := by
  induction h with
  | nil => exact reported_initial token now
  | @snoc tr e hr ht ih =>
      have hR := ih fun e' he' => honce e' (List.mem_append_left _ he')
      exact hR.step (inv_of_run hr) (step_of_took ht) (honce e (by simp))

/-! ### A token that is gone for good -/

/-- The token was issued once, is not cached, and is in no reply still to come. -/
structure Gone (token : String) (a : Protocol) : Prop where
  known : a.gateway.knows token = true
  uncached : ∀ s, a.cache = some s → s.token ≠ token
  undelivered : ∀ t i, a.gateway.pending t = some i → i.token ≠ token

/-- What an exchange grants is the token the gateway issued in it. -/
theorem pending_of_granted {t : ℕ} {x : HttpReply} {tokResp : TokenResponse}
    (hh : a.gateway.honours t (authOutcome p x) = true) (ho : authOutcome p x = .granted tokResp) :
    ∃ i, a.gateway.pending t = some i ∧ i.token = tokResp.token ∧
      i.lifetime = tokResp.expiresIn := by
  rw [ho] at hh
  unfold Gateway.honours at hh
  cases hp : a.gateway.pending t with
  | none => rw [hp] at hh; cases hh
  | some i =>
      rw [hp] at hh
      exact ⟨i, rfl, of_decide_eq_true hh⟩

/-- The cache after an exchange holds what it held before or the token granted. -/
theorem settle_cache {cache : Option TokenState} {now : Instant} {out : AuthOutcome}
    {s : TokenState} (h : (settle p cache now out).1 = some s) :
    cache = some s ∨ ∃ tokResp, out = .granted tokResp ∧ tokResp.token = s.token ∧
      deadline p.overflowChecks now tokResp.expiresIn = some s.expiresAt := by
  cases out with
  | failed e => exact .inl h
  | rejected status body => cases h
  | granted tokResp =>
      cases hd : deadline p.overflowChecks now tokResp.expiresIn with
      | none =>
          simp only [settle, hd] at h
          exact .inl h
      | some d =>
          simp only [settle, hd] at h
          cases h
          exact .inr ⟨tokResp, rfl, rfl, hd⟩

/-- A call whose exchange returns a token was granted that token and cached it. -/
theorem settle_ok {cache : Option TokenState} {now : Instant} {out : AuthOutcome} {token : String}
    (h : (settle p cache now out).2 = some (.ok token)) :
    ∃ tokResp d, out = .granted tokResp ∧ tokResp.token = token ∧
      (settle p cache now out).1 = some ⟨token, d⟩ := by
  cases out with
  | failed e => cases h
  | rejected status body => cases h
  | granted tokResp =>
      cases hd : deadline p.overflowChecks now tokResp.expiresIn with
      | none =>
          simp only [settle, hd] at h
          cases h
      | some d =>
          simp only [settle, hd] at h ⊢
          cases h
          exact ⟨tokResp, d, rfl, rfl, rfl⟩

theorem Gone.step {token : String} (hG : Gone token a) (h : Step p tm a act o a')
    (honce : IssuedOnce token a.gateway act) : Gone token a' := by
  refine ⟨h.knows_mono hG.known, ?_, ?_⟩
  · intro s hs
    obtain hc | ⟨t, x, c, since, -, -, hh, -, hc⟩ := h.cache_cases
    · rw [hc] at hs
      exact hG.uncached s hs
    · rw [hc] at hs
      obtain hs | ⟨tokResp, ho, htok, -⟩ := settle_cache hs
      · exact hG.uncached s hs
      · obtain ⟨i, hi, hit, -⟩ := pending_of_granted hh ho
        rw [← htok, ← hit]
        exact hG.undelivered t i hi
  · intro t i hp
    obtain ⟨hp', -⟩ | ⟨hact, -⟩ := h.pending_cases hp
    · exact hG.undelivered t i hp'
    · rintro rfl
      have hk := hG.known
      rw [honce.issue hact] at hk
      cases hk

/-- A call ends where it gets the lock and finds a token it may return, or where its exchange
ends. -/
theorem Step.finish_cases (h : Step p tm a act o a') {t : ℕ} {c : Call}
    {r : Option (Except Error String)} (ho : o = some ⟨t, c, r⟩) :
    (∃ s, act = .grant t ∧ a' = a.leave t ∧ a.writer = none ∧ a.cache = some s ∧
      r = some (.ok s.token) ∧ ((c = .getToken ∧ a.now < s.expiresAt) ∨
        (a.tasks t = some (.queued c) ∧ reusable c.stale s a.now = true))) ∨
      ∃ x since, act = .reply t x ∧ a.tasks t = some (.exchanging c since) ∧
        a.gateway.honours t (authOutcome p x) = true ∧
        (settle p a.cache a.now (authOutcome p x)).2 = r ∧
        a'.cache = (settle p a.cache a.now (authOutcome p x)).1 ∧
        a'.gateway = a.gateway.settle t := by
  cases h with
  | readHit _ hw hc hlt =>
      cases ho
      exact .inl ⟨_, rfl, rfl, hw, hc, rfl, .inl ⟨rfl, hlt⟩⟩
  | reuse hu hw hc hre =>
      cases ho
      exact .inl ⟨_, rfl, rfl, hw, hc, rfl, .inr ⟨hu, hre⟩⟩
  | reply hu _ hh =>
      cases ho
      exact .inr ⟨_, _, rfl, hu, hh, rfl, rfl, rfl⟩
  | _ => cases ho

/-- What a call may return: a token granted in the call itself, or the cached token, fresh
or in the place of another. -/
theorem Step.returned (h : Step p tm a act o a') {t : ℕ} {c : Call} {token : String}
    (ho : o = some ⟨t, c, some (.ok token)⟩) :
    (∃ x since tokResp i, act = .reply t x ∧ a.tasks t = some (.exchanging c since) ∧
      authOutcome p x = .granted tokResp ∧ tokResp.token = token ∧
        a.gateway.pending t = some i ∧ i.token = token) ∨
      (act = .grant t ∧ ∃ s, a.cache = some s ∧ s.token = token ∧
        (a.now < s.expiresAt ∨ ∃ stale, c = .refreshAfterExpiry stale ∧ stale ≠ token)) := by
  obtain ⟨s, hact, -, -, hc, hr, hwhy⟩ | ⟨x, since, hact, hu, hh, hr, -, -⟩ := h.finish_cases ho
  · cases hr
    refine .inr ⟨hact, s, hc, rfl, ?_⟩
    obtain ⟨-, hlt⟩ | ⟨-, hre⟩ := hwhy
    · exact .inl hlt
    · unfold reusable at hre
      cases c with
      | getToken =>
          refine .inl ?_
          simpa [Call.stale] using hre
      | refreshAfterExpiry stale =>
          refine .inr ⟨stale, rfl, ?_⟩
          simpa [Call.stale] using hre
  · obtain ⟨tokResp, d, hout, htok, -⟩ := settle_ok hr
    obtain ⟨i, hi, hit, -⟩ := pending_of_granted hh hout
    exact .inl ⟨x, since, tokResp, i, hact, hu, hout, htok, hi, hit.trans htok⟩

theorem Gone.not_returned {token : String} (hG : Gone token a) (h : Step p tm a act o a') (t : ℕ)
    (c : Call) : o ≠ some ⟨t, c, some (.ok token)⟩ := by
  intro ho
  obtain ⟨x, since, tokResp, i, -, -, -, -, hi, hit⟩ | ⟨-, s, hs, hst, -⟩ := h.returned ho
  · exact hG.undelivered t i hi hit
  · exact hG.uncached s hs hst

/-- A token that is gone is never cached or returned again. -/
theorem Gone.run {token : String} {a a' : Protocol} {tr : List (Entry Protocol Act Returned)}
    (hG : Gone token a) (h : (lts p tm).Run a tr a')
    (honce : ∀ e ∈ tr, IssuedOnce token e.before.gateway e.act) :
    Gone token a' ∧ ∀ e ∈ tr, Gone token e.before ∧ Gone token e.after ∧
      ∀ t c, e.out ≠ some ⟨t, c, some (.ok token)⟩ := by
  obtain ⟨hend, hall⟩ := h.stable (Gone token) hG fun e he hb ht =>
    hb.step (step_of_took ht) (honce e he)
  refine ⟨hend, fun e he => ⟨(hall e he).1, (hall e he).2, fun t c => ?_⟩⟩
  obtain ⟨pre, -, ht⟩ := h.entry he
  exact (hall e he).1.not_returned (step_of_took ht) t c

/-- A reported token is not what the exchange of its call leaves in the cache, unless the
exchange failed while the token was cached. -/
theorem uncached_of_settled {t : ℕ} {token : String} (hR : Reported token a) {since : Instant}
    {x : HttpReply} {r : Except Error String}
    (ht : a.tasks t = some (.exchanging (.refreshAfterExpiry token) since))
    (hh : a.gateway.honours t (authOutcome p x) = true)
    (hr : (settle p a.cache a.now (authOutcome p x)).2 = some r)
    (hk : ∀ e s, authOutcome p x = .failed e → a.cache = some s → s.token ≠ token) :
    ∀ s, (settle p a.cache a.now (authOutcome p x)).1 = some s → s.token ≠ token := by
  intro s hs
  cases hout : authOutcome p x with
  | failed e =>
      rw [hout] at hs
      exact hk e s hout hs
  | rejected status body =>
      rw [hout] at hs
      cases hs
  | granted tokResp =>
      obtain ⟨i, hi, hit, -⟩ := pending_of_granted hh hout
      have hne := hR.fresh t since i ht hi
      rw [hout] at hs hr
      cases hd : deadline p.overflowChecks a.now tokResp.expiresIn with
      | none =>
          simp only [settle, hd] at hr
          cases hr
      | some d =>
          simp only [settle, hd] at hs
          cases hs
          rw [← hit]
          exact hne

/-- A reported token is gone once its call returned, unless the exchange of the call failed
while the token was cached. -/
theorem gone_of_returned (hI : Inv a) {token : String} (hR : Reported token a)
    (h : Step p tm a act o a') {t : ℕ} {r : Except Error String}
    (ho : o = some ⟨t, .refreshAfterExpiry token, some r⟩)
    (hk : ∀ x e s, act = .reply t x → authOutcome p x = .failed e → a.cache = some s →
      s.token ≠ token) : Gone token a' := by
  rcases h.finish_cases ho with ⟨s, -, rfl, hw, hc, -, ⟨hcall, -⟩ | ⟨hu, hre⟩⟩ |
    ⟨x, since, hact, hu, hh, hr, hcache, hgateway⟩
  · cases hcall
  · refine ⟨hR.known t _ hu rfl, ?_, ?_⟩
    · intro s' hs'
      rw [leave_cache, hc] at hs'
      cases hs'
      have hne : token ≠ s.token := by simpa [reusable, Call.stale] using hre
      exact hne.symm
    · intro v i hi
      obtain ⟨-, c, since, hv⟩ := hI.pending v i hi
      rw [hI.locked v c since hv] at hw
      cases hw
  · refine ⟨h.knows_mono (hR.known t _ hu rfl), ?_, ?_⟩
    · rw [hcache]
      exact uncached_of_settled hR hu hh hr fun e s => hk x e s hact
    · intro v i hi
      rw [hgateway, Gateway.pending_settle] at hi
      split at hi
      · cases hi
      · rename_i hv
        obtain ⟨-, c', since', hv'⟩ := hI.pending v i hi
        exact absurd (hI.exchanging_unique hv' hu) hv

end Protocol

end ParatroSdk
