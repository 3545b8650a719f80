import ParatroSdk.Send

/-! # What a reply becomes

The SDK documents one outcome for a 2xx reply and another for every other status, for the
API (`decode`) and for the auth endpoint (`refresh`) alike.  Both compare the status with
400 only, so the statuses below 200 and from 300 to 399 take the path of a success: the
body may be returned, or a token stored, and a body that does not decode is an
`Error.decode`.  `mappedAsDocumented_iff` states the documented outcome of a final reply
and proves that it holds for exactly the other statuses. -/

namespace ParatroSdk

open Text Machine Interaction SharedCell Sdk TokenManager

/-- The status is 2xx. -/
def IsSuccess (status : ℕ) : Prop := 200 ≤ status ∧ status < 300

instance (status : ℕ) : Decidable (IsSuccess status) := inferInstanceAs (Decidable (_ ∧ _))

/-- The documented outcome `r` of a call whose final reply has this status and body. -/
structure MappedAsDocumented {R α : Type} (p : Platform) (fromSlice : FromSlice R)
    (view : Reply R → α) (status : ℕ) (bytes : Bytes) (r : Option (Except Error α)) : Prop where
  ok : ∀ a, r = some (.ok a) →
    IsSuccess status ∧ ∃ body, fromSlice bytes = .ok body ∧ a = view ⟨status, body⟩
  undecodable : IsSuccess status → ∀ e, fromSlice bytes = .error e →
    r = some (.error (.decode status e))
  refused : ¬ IsSuccess status → ∃ body, r = some (.error (.api status body)) ∧
    (∀ b, p.errorBody bytes = .ok b → body = b) ∧
      ∀ e, p.errorBody bytes = .error e →
        body = unknownErrorBody ∧ (kindOfReply status body).messageDependent = false

/-- The documented outcome of `refresh` for a reply of the auth endpoint. -/
structure AuthMappedAsDocumented (p : Platform) (resp : Response) (es : SdkTrace)
    (r : Option (Except Error String)) : Prop where
  stored : ∀ s ∈ stored es, IsSuccess resp.status ∧ ∃ bytes tokResp, resp.body = .ok bytes ∧
    p.tokenResponse bytes = .ok tokResp ∧ s.token = tokResp.token
  refused : ¬ IsSuccess resp.status → ∃ body, r = some (.error (.api resp.status body))

section outcome
variable {R α : Type} {p : Platform} {fromSlice : FromSlice R} {c : MpcClient}
  {build : String → Request} {es : SdkTrace} {request : Request} {status : ℕ} {bytes : Bytes}

/-- No status makes the placeholder body a kind that the code or the message decides. -/
theorem messageDependent_unknownErrorBody (status : ℕ) :
    (kindOfReply status unknownErrorBody).messageDependent = false := by
  by_contra h
  rw [Bool.not_eq_false] at h
  obtain ⟨-, hb⟩ | ⟨-, hb⟩ | ⟨-, hc, -⟩ := status_of_kind rfl h
  · rw [← hb] at h
    exact absurd h (by decide)
  · rw [← hb] at h
    exact absurd h (by decide)
  · exact absurd hc (by decide)

theorem decode_of_lt (h : status < 400) :
    decode p fromSlice status bytes = match fromSlice bytes with
      | .ok body => .ok ⟨status, body⟩
      | .error e => .error (.decode status e) := by
  unfold decode
  exact if_neg (Nat.not_le.mpr h)

theorem decode_of_ge (fromSlice : FromSlice R) (bytes : Bytes) (h : 400 ≤ status) :
    ∃ body, decode p fromSlice status bytes = .error (.api status body) ∧
      (∀ b, p.errorBody bytes = .ok b → body = b) ∧
        ∀ e, p.errorBody bytes = .error e → body = unknownErrorBody := by
  unfold decode
  rw [if_pos h]
  cases p.errorBody bytes with
  | ok body => exact ⟨body, rfl, fun b hb => Except.ok.inj hb, by simp⟩
  | error e => exact ⟨unknownErrorBody, rfl, by simp, fun _ _ => rfl⟩

theorem mapped_decode_iff (view : Reply R → α) :
    MappedAsDocumented p fromSlice view status bytes
        (some ((decode p fromSlice status bytes).map view)) ↔
      IsSuccess status ∨ 400 ≤ status := by
  by_cases hge : 400 ≤ status
  · refine iff_of_true ?_ (.inr hge)
    obtain ⟨body, hd, hok, herr⟩ := decode_of_ge (p := p) fromSlice bytes hge
    rw [hd]
    constructor
    · intro a ha
      cases ha
    · intro hs
      unfold IsSuccess at hs
      omega
    · intro _
      refine ⟨body, rfl, hok, fun e he => ?_⟩
      rw [herr e he]
      exact ⟨rfl, messageDependent_unknownErrorBody status⟩
  · rw [decode_of_lt (Nat.lt_of_not_le hge)]
    have hiff : IsSuccess status ∨ 400 ≤ status ↔ IsSuccess status := or_iff_left hge
    rw [hiff]
    constructor
    · intro h
      by_contra hs
      obtain ⟨body, hr, -, -⟩ := h.refused hs
      cases hf : fromSlice bytes <;> rw [hf] at hr <;> cases hr
    · intro hs
      constructor
      · intro a ha
        refine ⟨hs, ?_⟩
        cases hf : fromSlice bytes with
        | ok body => rw [hf] at ha; cases ha; exact ⟨body, rfl, rfl⟩
        | error e => rw [hf] at ha; cases ha
      · intro _ e he
        rw [he]
        rfl
      · intro hn
        exact absurd hs hn

/-- The last HTTP exchange of a call that ends with an API reply decides its result. -/
theorem SendTrace.result_of_last {r : Option (Except Error (Reply R))}
    (h : SendTrace p fromSlice c build es r)
    (hlast : (http es).getLast? = some (⟨.api, request⟩, .ok ⟨status, .ok bytes⟩)) :
    r = some (decode p fromSlice status bytes) := by
  have hauth : ∀ {es' : SdkTrace} {r' : Option (Except Error String)} (xs : List HttpEvent),
      TokenCall p c.tokenManager es' r' → (∀ token, r' ≠ some (.ok token)) →
        (xs ++ http es').getLast? ≠ some (⟨.api, request⟩, .ok ⟨status, .ok bytes⟩) := by
    intro es' r' xs htc hr'
    obtain ⟨-, -, token, hr⟩ | ⟨reply, hh, -, -⟩ := htc
    · exact absurd hr (hr' token)
    · rw [hh, List.getLast?_concat]
      simp
  cases h with
  | noToken h₁ => exact absurd hlast (hauth [] (getToken_trace h₁) (by simp))
  | tokenPanic h₁ => exact absurd hlast (hauth [] (getToken_trace h₁) (by simp))
  | once h₁ hfinal =>
      rw [http_append, http_request_cons, http_nil, List.getLast?_concat] at hlast
      cases hlast
      rfl
  | noRefresh h₁ hexp h₂ =>
      rw [http_append, http_request_cons, List.append_cons] at hlast
      exact absurd hlast (hauth _ (refresh_trace h₂) (by simp))
  | refreshPanic h₁ hexp h₂ =>
      rw [http_append, http_request_cons, List.append_cons] at hlast
      exact absurd hlast (hauth _ (refresh_trace h₂) (by simp))
  | twice h₁ hexp h₂ =>
      rw [http_append, http_request_cons, http_append, http_request_cons, http_nil,
        List.append_cons, ← List.append_assoc, List.getLast?_concat] at hlast
      cases hlast
      rfl

theorem call_result_of_last {call : MpcClient.ApiCall R α} {r : Option (Except Error α)}
    (h : Program.Trace (call.run p fromSlice c).run es r)
    (hlast : (http es).getLast? = some (⟨.api, request⟩, .ok ⟨status, .ok bytes⟩)) :
    r = some ((decode p fromSlice status bytes).map call.view) := by
  obtain ⟨e, -, rfl, -⟩ | ⟨build, a, -, hsend, hr⟩ := MpcClient.ApiCall.trace h
  · cases hlast
  · rw [hr, (send_trace hsend).result_of_last hlast]
    rfl

/-! ### The auth endpoint -/

theorem authMapped_iff {tm : TokenManager} {stale : Option String} {resp : Response}
    {r : Option (Except Error String)} (h : Program.Trace (refresh p tm stale).run es r)
    (hmem : (⟨.auth, request⟩, .ok resp) ∈ http es) :
    AuthMappedAsDocumented p resp es r ↔ IsSuccess resp.status ∨ 400 ≤ resp.status := by
  obtain ⟨hh, -, -⟩ | ⟨reply, hh, hr, hs⟩ := refresh_trace h
  · rw [hh] at hmem
    cases hmem
  · rw [hh, List.mem_singleton] at hmem
    cases hmem
    unfold authOutcome at hr hs
    by_cases hge : 400 ≤ resp.status
    · simp only [if_pos hge] at hr hs
      refine iff_of_true ⟨fun s hmem => ?_, fun _ => ⟨_, hr⟩⟩ (.inr hge)
      obtain ⟨tokResp, ho, -⟩ := hs s hmem
      cases ho
    · simp only [if_neg hge] at hr hs
      rw [or_iff_left hge]
      constructor
      · intro hc
        by_contra hn
        obtain ⟨body, hbody⟩ := hc.refused hn
        rw [hbody] at hr
        split at hr
        · cases hr
        · split at hr
          · cases hr
          · rcases hr with hr | hr <;> cases hr
      · intro hsucc
        refine ⟨fun s hmem => ⟨hsucc, ?_⟩, fun hn => absurd hsucc hn⟩
        obtain ⟨tokResp, ho, htok⟩ := hs s hmem
        split at ho
        · cases ho
        · rename_i bytes hbytes
          split at ho
          · cases ho
          · rename_i tokResp' htr
            cases ho
            exact ⟨bytes, tokResp, hbytes, htr, htok⟩

/-- **The documented outcome of the final API reply of a call, and of the reply of the auth
endpoint in a refresh, is met exactly for the statuses from 200 to 299 and from 400 on.** -/
theorem mappedAsDocumented_iff (p : Platform) (fromSlice : FromSlice R) (c : MpcClient)
    (status : ℕ) :
    (∀ (call : MpcClient.ApiCall R α) es r request bytes,
      Program.Trace (call.run p fromSlice c).run es r →
      (http es).getLast? = some (⟨.api, request⟩, .ok ⟨status, .ok bytes⟩) →
        (MappedAsDocumented p fromSlice call.view status bytes r ↔
          IsSuccess status ∨ 400 ≤ status)) ∧
    (∀ stale es r request body,
      Program.Trace (refresh p c.tokenManager stale).run es r →
      (⟨.auth, request⟩, .ok ⟨status, body⟩) ∈ http es →
        (AuthMappedAsDocumented p ⟨status, body⟩ es r ↔ IsSuccess status ∨ 400 ≤ status)) := by
  constructor
  · intro call es r request bytes h hlast
    rw [call_result_of_last h hlast]
    exact mapped_decode_iff call.view
  · intro stale es r request body h hmem
    exact authMapped_iff h hmem

end outcome

/-! ### Two statuses at the test gateway -/

/-- A decoder that refuses every body. -/
def refuseBody : FromSlice Bytes := fun _ => .error ⟨"EOF while parsing a value"⟩

/-- The API answers the test call with an empty body; the token is cached. -/
def apiRun (status : ℕ) : SdkTrace × Option (Except Error Bytes) :=
  (testCall.run testPlatform refuseBody testClient).run.play
    (alone (some ⟨"token-0", Duration.fromSecs 1100⟩) (Duration.fromSecs 1000) [.text status ""]) []

/-- The auth endpoint answers a refresh with an empty body. -/
def authRun (status : ℕ) : SdkTrace × Option (Except Error String) :=
  (refresh testPlatform testClient.tokenManager none).run.play
    (alone none (Duration.fromSecs 1000) [.text status ""]) []

theorem mappedAsDocumented_unavailable :
    MappedAsDocumented testPlatform refuseBody testCall.view 503 [] (apiRun 503).2 ∧
      AuthMappedAsDocumented testPlatform ⟨503, .ok []⟩ (authRun 503).1 (authRun 503).2 := by
  obtain ⟨hapi, hauth⟩ := mappedAsDocumented_iff testPlatform refuseBody testClient 503
  constructor
  · exact (hapi testCall _ _ _ [] (Program.trace_play _ _ _) rfl).mpr (.inr (by decide))
  · have hmem : (⟨.auth, testClient.tokenManager.authRequest⟩, .ok ⟨503, .ok []⟩) ∈
        http (authRun 503).1 := List.mem_singleton_self _
    exact (hauth none _ _ _ _ (Program.trace_play _ _ _) hmem).mpr (.inr (by decide))

/-- A 304 without a body is reported as a decode error. -/
theorem not_mappedAsDocumented_notModified :
    ¬ ∀ es r request bytes,
      Program.Trace (testCall.run testPlatform refuseBody testClient).run es r →
      (http es).getLast? = some (⟨.api, request⟩, .ok ⟨304, .ok bytes⟩) →
        MappedAsDocumented testPlatform refuseBody testCall.view 304 bytes r := by
  intro h
  have hmap := h (apiRun 304).1 (apiRun 304).2 _ [] (Program.trace_play _ _ _) rfl
  obtain ⟨body, hbody, -⟩ := hmap.refused (by decide)
  have hr : (apiRun 304).2 = some (.error (.decode 304 ⟨"EOF while parsing a value"⟩)) := rfl
  rw [hr] at hbody
  cases hbody

end ParatroSdk
