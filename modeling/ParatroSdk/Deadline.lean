import ParatroSdk.Authenticate

/-! # The deadline of a granted token

`refresh` computes the deadline of a token in three steps: the 64-bit difference of
`expires_in` and the refresh buffer, the clamp at zero, and the addition to the clock reading
(`src/token.rs`).  `expires_in` is whatever the auth reply carries.

The arithmetic is that of the integers exactly when the difference fits 64 bits and the
deadline is an instant (`deadlineExact_iff`); otherwise the SDK panics or stores a deadline
far in the future for a token that has expired. -/

namespace ParatroSdk

open Text Machine Interaction SharedCell Sdk

/-- `now + max(expires_in - 120, 0)` seconds, over the integers. -/
def exactDeadline (now : Instant) (expiresIn : Int64) : Instant :=
  now + Duration.fromSecs (max (expiresIn.toInt - 120) 0).toNat

/-- The difference fits 64 bits and the deadline is an instant. -/
structure DeadlineInRange (now : Instant) (expiresIn : Int64) : Prop where
  difference : Fits (expiresIn.toInt - 120)
  instant : exactDeadline now expiresIn < Instant.limit

theorem expiresInSecs_of_fits (m : OverflowChecks) {e : Int64} (h : Fits (e.toInt - 120)) :
    expiresInSecs m e = some (max (e.toInt - 120) 0).toNat := by
  have hbuffer : refreshBufferSecs.toInt = 120 := by decide
  obtain ⟨d, hd, hval⟩ := sub_of_fits m (a := e) (b := refreshBufferSecs) (by rwa [hbuffer])
  rw [hbuffer] at hval
  unfold expiresInSecs
  rw [hd, Option.map_some, hval]

/-- A lifetime whose difference does not fit comes out as a positive one. -/
theorem expiresInSecs_of_not_fits (m : OverflowChecks) {e : Int64} (h : ¬ Fits (e.toInt - 120)) :
    ∀ secs ∈ expiresInSecs m e, 0 < secs ∧ (e.toInt - 120) < 0 := by
  have hbuffer : refreshBufferSecs.toInt = 120 := by decide
  have hle := e.le_toInt
  have hlt := e.toInt_lt
  have hneg : e.toInt - 120 < -2 ^ 63 := by
    unfold Fits at h
    omega
  intro secs hsecs
  unfold expiresInSecs at hsecs
  cases m with
  | on =>
      rw [sub_on_of_not_fits (by rwa [hbuffer])] at hsecs
      cases hsecs
  | off =>
      have hval := toInt_sub_wrapped (a := e) (b := refreshBufferSecs) 1 (by
        unfold Fits
        omega)
      obtain rfl : (max (e - refreshBufferSecs).toInt 0).toNat = secs := Option.some.inj hsecs
      rw [hval]
      omega

/-- The stored deadline is the exact one exactly when everything is in range. -/
theorem deadline_eq_exact_iff (m : OverflowChecks) (now : Instant) (e : Int64) :
    deadline m now e = some (exactDeadline now e) ↔ DeadlineInRange now e := by
  by_cases hfit : Fits (e.toInt - 120)
  · unfold deadline
    rw [expiresInSecs_of_fits m hfit, Option.bind_some]
    unfold Instant.add
    constructor
    · intro h
      split at h
      · rename_i hlt
        exact ⟨hfit, hlt⟩
      · cases h
    · intro h
      exact if_pos h.instant
  · refine iff_of_false (fun h => ?_) fun h => hfit h.difference
    unfold deadline at h
    obtain ⟨secs, hsecs, hadd⟩ := Option.bind_eq_some_iff.mp h
    obtain ⟨hpos, hneg⟩ := expiresInSecs_of_not_fits m hfit secs hsecs
    unfold Instant.add at hadd
    split at hadd
    · have hlater := Option.some.inj hadd
      unfold exactDeadline Duration.fromSecs Duration.nanosPerSec at hlater
      have hclamp : (max (e.toInt - 120) 0).toNat = 0 := by omega
      rw [hclamp] at hlater
      have hzero : 1000000000 * secs = 1000000000 * 0 := Nat.add_left_cancel hlater
      omega
    · cases hadd

/-! ### The run of `refresh` -/

/-- The clock reading an operation is, if it is one. -/
def clockOf : Exchange (effects (Option TokenState) HttpCall HttpReply) → Option Instant
  | ⟨.clock, now⟩ => some now
  | _ => none

/-- The clock readings of a trace, in order. -/
def clockReadings (es : SdkTrace) : List Instant := es.filterMap clockOf

namespace TokenManager

variable {p : Platform} {tm : TokenManager} {pre post es : SdkTrace}
  {r : Option (Except Error String)} {now : Instant}

/-- The tokens stored and the result of a run that has got a token and reads the clock at `now`. -/
def installed (p : Platform) (tokResp : TokenResponse) (now : Instant) :
    List TokenState × Option (Except Error String) :=
  match deadline p.overflowChecks now tokResp.expiresIn with
  | none => ([], none)
  | some d => ([⟨tokResp.token, d⟩], some (.ok tokResp.token))

theorem install_installed {tokResp : TokenResponse} (h : Program.Trace (install p tokResp) es r)
    (hclock : ∀ t ∈ clockReadings es, t = now) : (stored es, r) = installed p tokResp now := by
  unfold install at h
  unfold installed deadline
  cases hsecs : expiresInSecs p.overflowChecks tokResp.expiresIn with
  | none =>
      rw [hsecs] at h
      obtain ⟨rfl, rfl⟩ := Program.trace_halt_iff.mp h
      rfl
  | some secs =>
      rw [hsecs] at h
      obtain ⟨t, es₁, rfl, h₁⟩ := Program.trace_ask_iff.mp h
      obtain rfl : t = now := hclock t List.mem_cons_self
      rw [Option.bind_some]
      cases hadd : Instant.add t (Duration.fromSecs secs) with
      | none =>
          rw [hadd] at h₁
          obtain ⟨rfl, rfl⟩ := Program.trace_halt_iff.mp h₁
          rfl
      | some d =>
          rw [hadd] at h₁
          obtain ⟨u, es₂, rfl, h₂⟩ := Program.trace_ask_iff.mp h₁
          obtain ⟨rfl, rfl⟩ := Program.trace_ret_iff.mp h₂
          rfl

theorem concludeRefresh_installed {reply : HttpReply} {tokResp : TokenResponse}
    (hreply : authOutcome p reply = .granted tokResp)
    (h : Program.Trace (concludeRefresh p reply) post r)
    (hclock : ∀ t ∈ clockReadings post, t = now) : (stored post, r) = installed p tokResp now := by
  unfold concludeRefresh at h
  rw [hreply] at h
  obtain ⟨a, es₁, es₂, h₁, h₂, rfl⟩ | ⟨h₁, rfl⟩ := Program.trace_bind_iff.mp h
  · obtain ⟨u, es₃, rfl, h₃⟩ := Program.trace_ask_iff.mp h₂
    obtain ⟨rfl, rfl⟩ := Program.trace_ret_iff.mp h₃
    have hclock₁ : ∀ t ∈ clockReadings es₁, t = now := by
      intro t ht
      apply hclock
      unfold clockReadings
      rw [List.filterMap_append]
      exact List.mem_append_left _ ht
    rw [← install_installed h₁ hclock₁, stored_append, stored_release_cons, stored_nil,
      List.append_nil]
  · exact install_installed h₁ hclock

/-- A run of `refresh` up to its exchange with the auth endpoint stores nothing. -/
theorem refresh_trace_reply {stale : Option String} {call : HttpCall} {reply : HttpReply}
    (h : Program.Trace (refresh p tm stale).run (pre ++ ⟨.request call, reply⟩ :: post) r) :
    stored pre = [] ∧ Program.Trace (concludeRefresh p reply) post r := by
  have hexchange : ∀ pre, Program.Trace (exchange p tm) (pre ++ ⟨.request call, reply⟩ :: post) r →
      stored pre = [] ∧ Program.Trace (concludeRefresh p reply) post r := by
    intro pre h
    obtain ⟨x, es₁, heq, h₁⟩ := Program.trace_ask_iff.mp h
    cases pre with
    | nil =>
        obtain ⟨hhead, rfl⟩ := List.cons.inj heq
        cases hhead
        exact ⟨rfl, h₁⟩
    | cons e pre' =>
        obtain ⟨rfl, rfl⟩ := List.cons.inj heq
        obtain ⟨reply', hhttp, -⟩ := exchange_trace h
        have hlen := congrArg List.length hhttp
        simp at hlen
  rw [refresh_run] at h
  obtain ⟨u, pre₁, rfl, h₁⟩ := Program.trace_skip h (by intro he; cases he)
  obtain ⟨cached, pre₂, rfl, h₂⟩ := Program.trace_skip h₁ (by intro he; cases he)
  cases cached with
  | none => exact hexchange pre₂ h₂
  | some s =>
      obtain ⟨t, pre₃, rfl, h₃⟩ := Program.trace_skip h₂ (by intro he; cases he)
      split at h₃
      · obtain ⟨u', pre₄, rfl, h₄⟩ := Program.trace_skip h₃ (by intro he; cases he)
        obtain ⟨hnil, -⟩ := Program.trace_ret_iff.mp h₄
        simp at hnil
      · exact hexchange pre₃ h₃

/-- Every run of `refresh` that got the reply and then reads the clock at `now` stores the
token with the exact deadline and returns it. -/
def DeadlineExact (p : Platform) (tm : TokenManager) (reply : HttpReply) (tokResp : TokenResponse)
    (now : Instant) : Prop :=
  ∀ stale pre post r,
    Program.Trace (refresh p tm stale).run
      (pre ++ ⟨.request ⟨.auth, tm.authRequest⟩, reply⟩ :: post) r →
    (∀ t ∈ clockReadings post, t = now) →
      stored (pre ++ ⟨.request ⟨.auth, tm.authRequest⟩, reply⟩ :: post) =
        [⟨tokResp.token, exactDeadline now tokResp.expiresIn⟩] ∧
      r = some (.ok tokResp.token)

/-- There is a run of `refresh` with any auth reply and any clock reading. -/
theorem exists_refresh_trace (p : Platform) (tm : TokenManager) (reply : HttpReply) (now : Instant) :
    ∃ pre post r, Program.Trace (refresh p tm none).run
      (pre ++ ⟨.request ⟨.auth, tm.authRequest⟩, reply⟩ :: post) r ∧
      ∀ t ∈ clockReadings post, t = now := by
  let run := (concludeRefresh p reply).play (alone none now []) []
  have hplay : Program.Trace (concludeRefresh p reply) run.1 run.2 := Program.trace_play _ _ _
  have hexchange : Program.Trace (exchange p tm) (⟨.request ⟨.auth, tm.authRequest⟩, reply⟩ :: run.1)
      run.2 := by
    unfold exchange
    exact Program.trace_ask_iff.mpr ⟨reply, _, rfl, hplay⟩
  have hlocked : Program.Trace (refreshLocked p tm none)
      (⟨.load, none⟩ :: ⟨.request ⟨.auth, tm.authRequest⟩, reply⟩ :: run.1) run.2 := by
    unfold refreshLocked
    exact Program.trace_ask_iff.mpr ⟨none, _, rfl, hexchange⟩
  refine ⟨[⟨.acquire .write, ()⟩, ⟨.load, none⟩], run.1, run.2, ?_, ?_⟩
  · rw [refresh_run]
    exact Program.trace_ask_iff.mpr ⟨(), _, rfl, hlocked⟩
  · intro t ht
    obtain ⟨e, he, hclock⟩ := List.mem_filterMap.mp ht
    obtain ⟨done, hanswer⟩ := Program.answer_of_mem_play _ _ _ e he
    obtain ⟨o, answer⟩ := e
    cases o with
    | clock =>
        obtain rfl := Option.some.inj hclock
        exact hanswer
    | _ => cases hclock

/-- What a run of `refresh` stores and returns once it has got a token. -/
theorem refresh_trace_installed {reply : HttpReply} {tokResp : TokenResponse}
    (hreply : authOutcome p reply = .granted tokResp) {stale : Option String} {call : HttpCall}
    (h : Program.Trace (refresh p tm stale).run (pre ++ ⟨.request call, reply⟩ :: post) r)
    (hclock : ∀ t ∈ clockReadings post, t = now) :
    (stored (pre ++ ⟨.request call, reply⟩ :: post), r) = installed p tokResp now := by
  obtain ⟨hpre, hpost⟩ := refresh_trace_reply h
  rw [← concludeRefresh_installed hreply hpost hclock, stored_append, hpre, stored_request_cons,
    List.nil_append]

theorem deadlineExact_iff_deadline (p : Platform) (tm : TokenManager) {reply : HttpReply}
    {tokResp : TokenResponse} (hreply : authOutcome p reply = .granted tokResp) (now : Instant) :
    DeadlineExact p tm reply tokResp now ↔
      deadline p.overflowChecks now tokResp.expiresIn = some (exactDeadline now tokResp.expiresIn) := by
  constructor
  · intro hexact
    obtain ⟨pre, post, r, h, hclock⟩ := exists_refresh_trace p tm reply now
    obtain ⟨hstored, rfl⟩ := hexact none pre post r h hclock
    have hinst := refresh_trace_installed hreply h hclock
    rw [hstored] at hinst
    unfold installed at hinst
    cases hd : deadline p.overflowChecks now tokResp.expiresIn with
    | none =>
        rw [hd] at hinst
        cases hinst
    | some d =>
        rw [hd] at hinst
        have hstate := List.head_eq_of_cons_eq (Prod.ext_iff.mp hinst).1
        rw [(TokenState.mk.inj hstate).2]
  · intro hd stale pre post r h hclock
    have hinst := refresh_trace_installed hreply h hclock
    unfold installed at hinst
    rw [hd] at hinst
    exact Prod.ext_iff.mp hinst

/-- **The deadline of a granted token is the exact one, and the token is returned, exactly
when its difference fits 64 bits and the deadline is an instant.** -/
theorem deadlineExact_iff (p : Platform) (tm : TokenManager) {reply : HttpReply}
    {tokResp : TokenResponse} (hreply : authOutcome p reply = .granted tokResp) (now : Instant) :
    DeadlineExact p tm reply tokResp now ↔ DeadlineInRange now tokResp.expiresIn :=
  (deadlineExact_iff_deadline p tm hreply now).trans (deadline_eq_exact_iff p.overflowChecks _ _)

theorem deadlineExact_fifteenMinutes :
    DeadlineExact testPlatform testManager (HttpReply.text 200 tokenJson0) (testToken "token-0" 900)
      (Duration.fromSecs 5) :=
  (deadlineExact_iff testPlatform testManager (authOutcome_text tokenResponse_tokenJson0)
    (Duration.fromSecs 5)).mpr
    ⟨by decide +kernel, by decide +kernel⟩

/-- The longest lifetime an auth reply can carry has no deadline. -/
theorem not_deadlineExact_maxLifetime :
    ¬ DeadlineExact testPlatform testManager (HttpReply.text 200 tokenJsonMax)
      (testToken "token-2" 9223372036854775807) (Duration.fromSecs 200) := by
  rw [deadlineExact_iff_deadline _ _ (authOutcome_text tokenResponse_tokenJsonMax)]
  decide +kernel

end TokenManager

end ParatroSdk
