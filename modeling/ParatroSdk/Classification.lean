import ParatroSdk.Replay

/-! # The classification of replies

A caller asks of a reply whether the outcome is unknown (`is_accepted`) or the transaction was
broadcast (`is_broadcast`).  `replayStable` says that the answers to both are those the original
reply to the request would have given, for every reply of every run: a repeated 202 comes with
status 200, and only the operation that the client fills in still tells it from a queued
transfer. -/

namespace ParatroSdk

open Serde Text Interaction SharedCell Transition

namespace Payments

variable {json : SerdeJson} {p : Platform} {c : MpcClient} {readKey : String → String}

/-! ### What a call returns -/

theorem not_refuses_of_ok {R : Type} {fromSlice : FromSlice R} {x : HttpReply} {reply : Reply R}
    (h : finalResult p fromSlice x = .ok reply) : refuses x = false := by
  unfold finalResult attempt at h
  unfold refuses
  cases x with
  | error e => cases h
  | ok resp =>
      dsimp only at h ⊢
      cases hb : resp.body with
      | error e =>
          rw [hb] at h
          cases h
      | ok bytes =>
          rw [hb] at h
          dsimp only at h ⊢
          unfold decode at h
          split at h
          · split at h <;> cases h
          · rename_i hlt
            exact decide_eq_false hlt

theorem eq_of_finalResult {R : Type} {fromSlice : FromSlice R} {status : ℕ} {bytes : Bytes}
    {reply : Reply R} (h : finalResult p fromSlice (.ok ⟨status, .ok bytes⟩) = .ok reply) :
    fromSlice bytes = .ok reply.body ∧ reply.status = status := by
  unfold finalResult attempt decode at h
  dsimp only at h
  split at h
  · split at h <;> cases h
  · split at h
    · rename_i body hbody
      cases h
      exact ⟨hbody, rfl⟩
    · cases h

/-- A call that succeeds in a move was waiting for the reply to an attempt. -/
theorem Inv.finish {s : Payments json} (h : s.Inv p c readKey)
    {m : Move HttpReply (CreateCall json)} {st' : SharedCell.State (Option TokenState) HttpCall HttpReply (CreateCall json)
      (Except Error CreateTransactionResponse)} {t : ℕ} {call : CreateCall json}
    {resp : CreateTransactionResponse}
    (hmove : SharedCell.step (CreateCall.code p c) s.tasks m =
      some (st', some ⟨t, call, some (.ok resp)⟩)) :
    ∃ x reply since request k, m = .reply t x ∧
      s.tasks.tasks t = some (call, .asked since ⟨.api, request⟩ k) ∧
        finalResult p (CreateTransactionResponse.fromSlice json) x = .ok reply ∧
          resp = call.respond reply := by
  let P : HttpCall → HttpReply → Prop := fun q x => ∃ request reply, q = ⟨.api, request⟩ ∧
    finalResult p (CreateTransactionResponse.fromSlice json) x = .ok reply ∧
      resp = call.respond reply
  have hlast : ∀ es, Program.Trace (call.code p c) es (some (.ok resp)) →
      ∃ es' q x, es = es' ++ [⟨.request q, x⟩] ∧ P q x := by
    intro es hes
    obtain ⟨es', token, x, reply, hes', hfinal, hresp⟩ := CreateCall.ends_of_ok hes
    exact ⟨es', _, x, hes', _, reply, rfl, hfinal, hresp⟩
  obtain ⟨since, _, k, x, hm, htask, request, reply, rfl, hfinal, hresp⟩ :=
    h.followed.finish hmove hlast
  exact ⟨x, reply, since, request, k, hm, htask, hfinal, hresp⟩

/-- A successful call returns the answer that was on its way to it. -/
theorem Inv.returned {e : Entry (Payments json) (PaymentAct json) (CallReturned json)}
    (h : e.before.Inv p c readKey) (ht : (lts p c readKey).Took e) {t : ℕ} {call : CreateCall json}
    {resp : CreateTransactionResponse} (hout : e.out = some ⟨t, call, some (.ok resp)⟩) :
    ∃ x body, e.before.gateway.sent t = some x ∧ x.Replies readKey e.before.gateway call ∧
      CreateTransactionResponse.fromSlice json x.answer.body = .ok body ∧
      resp = call.respond ⟨x.status, body⟩ := by
  obtain ⟨m, g, keys, st', hm, hstep, -, -⟩ | ⟨g, -, -, hnone⟩ := step_cases ht
  · rw [hout] at hstep
    obtain ⟨x, reply, since, request, k, rfl, htask, hfinal, hresp⟩ := Inv.finish h hstep
    cases hm with
    | auth x hasked =>
        unfold asked at hasked
        rw [htask] at hasked
        cases hasked
    | fail t hrefuses =>
        rw [not_refuses_of_ok hfinal] at hrefuses
        cases hrefuses
    | deliver hx =>
        rename_i sent
        obtain ⟨call', since, request', k, htask', hreplies⟩ := h.sent t sent hx
        cases htask.symm.trans htask'
        obtain ⟨hbody, hstatus⟩ := eq_of_finalResult hfinal
        refine ⟨sent, reply.body, hx, hreplies, hbody, ?_⟩
        rw [hresp, ← hstatus]
  · rw [hout] at hnone
    cases hnone

end Payments

/-! ### The classification -/

/-- The answer that a call got or that was first given under its key. -/
def PaymentGateway.original {json : SerdeJson} (readKey : String → String) (g : PaymentGateway)
    (t : ℕ) (call : CreateCall json) : Option Answer :=
  match call.wireKey readKey with
  | some key => g.cached key
  | none => (g.sent t).map (·.answer)

/-- The reply to a call is classified as the original answer was. -/
structure Classified {json : SerdeJson} (call : CreateCall json) (resp : CreateTransactionResponse)
    (v : Verdict) : Prop where
  accepted : resp.isAccepted = true ↔ v.httpStatus = 202
  broadcast : resp.isBroadcast = true ↔ v.status = statusBroadcast
  exclusive : ¬ (resp.isAccepted = true ∧ resp.isBroadcast = true)
  neither : resp.isAccepted = false ∧ resp.isBroadcast = false ↔
    call.request.operation = operationTransfer

/-- Every reply of a run is classified as the original answer was, and all replies under one key
alike. -/
structure ReplayStable {json : SerdeJson} (readKey : String → String)
    (tr : List (Entry (Payments json) (PaymentAct json) (CallReturned json))) : Prop where
  classified : ∀ e ∈ tr, ∀ t call resp, e.out = some ⟨t, call, some (.ok resp)⟩ →
    ∃ a, e.before.gateway.original readKey t call = some a ∧ Classified call resp a.verdict
  alike : ∀ e ∈ tr, ∀ e' ∈ tr, ∀ t call resp t' call' resp' key,
    e.out = some ⟨t, call, some (.ok resp)⟩ → e'.out = some ⟨t', call', some (.ok resp')⟩ →
      call.wireKey readKey = some key → call'.wireKey readKey = some key →
        resp.isAccepted = resp'.isAccepted ∧ resp.isBroadcast = resp'.isBroadcast

section replies
variable {json : SerdeJson} {readKey : String → String} {call : CreateCall json} {v : Verdict}
  {code : ℕ} {body resp : CreateTransactionResponse}

theorem Verdict.operation_of_queued {operation : String}
    (h : Verdict.queued.judges operation = true) : operation = operationTransfer := beq_iff_eq.mp h

theorem Verdict.operation_of_ne {operation : String} (h : v.judges operation = true)
    (hv : v ≠ .queued) : operation.isEmpty = false ∧ operation ≠ operationTransfer := by
  have hcall : operation = operationProgramCall ∨ operation = operationContractCall := by
    cases v with
    | queued => exact absurd rfl hv
    | broadcast | accepted => exact (Bool.or_eq_true_iff.mp h).imp beq_iff_eq.mp beq_iff_eq.mp
  obtain rfl | rfl := hcall
  · exact ⟨by decide, by decide⟩
  · exact ⟨by decide, by decide⟩

/-- A reply repeated with status 200 is still accepted: of the operations only transfers are
`PENDING` otherwise. -/
theorem isAccepted_respond (hjudges : v.judges call.request.operation = true)
    (hcode : code = v.httpStatus ∨ code = 200) (hstatus : body.status = v.status) :
    (call.respond ⟨code, body⟩).isAccepted = decide (v = .accepted) := by
  have haccepted : (call.respond ⟨code, body⟩).isAccepted = (code == 202 ||
      (!call.request.operation.isEmpty && call.request.operation != operationTransfer &&
        v.status == statusPending)) := by
    rw [← hstatus]
    exact CreateTransactionResponse.isAccepted_eq _
  rw [haccepted]
  cases v with
  | queued =>
      rw [Verdict.operation_of_queued hjudges]
      rcases hcode with rfl | rfl <;> decide
  | broadcast =>
      rcases hcode with rfl | rfl <;> simp [Verdict.httpStatus, Verdict.status, statusPending,
        statusBroadcast]
  | accepted =>
      obtain ⟨hempty, hne⟩ := Verdict.operation_of_ne hjudges nofun
      simp [hempty, hne, Verdict.status]

theorem isBroadcast_respond (hstatus : body.status = v.status) :
    (call.respond ⟨code, body⟩).isBroadcast = decide (v = .broadcast) := by
  have hbroadcast : (call.respond ⟨code, body⟩).isBroadcast = (v.status == statusBroadcast) := by
    rw [← hstatus]
    rfl
  rw [hbroadcast]
  cases v <;> decide

theorem classified_of_eq (hjudges : v.judges call.request.operation = true)
    (haccepted : resp.isAccepted = decide (v = .accepted))
    (hbroadcast : resp.isBroadcast = decide (v = .broadcast)) : Classified call resp v := by
  constructor
  · rw [haccepted]
    cases v <;> decide
  · rw [hbroadcast]
    cases v <;> decide
  · rw [haccepted, hbroadcast]
    cases v <;> decide
  · rw [haccepted, hbroadcast]
    cases v with
    | queued =>
        rw [Verdict.operation_of_queued hjudges]
        decide
    | broadcast | accepted =>
        exact iff_of_false (by decide) (Verdict.operation_of_ne hjudges nofun).2

theorem original_of_replies {g : PaymentGateway} {t : ℕ} {x : Sent} (hx : g.sent t = some x)
    (h : x.Replies readKey g call) : g.original readKey t call = some x.answer := by
  unfold PaymentGateway.original
  cases hkey : call.wireKey readKey with
  | none => exact congrArg (Option.map (·.answer)) hx
  | some key => exact h.original key hkey

end replies

section runs
variable {json : SerdeJson} {p : Platform} {c : MpcClient} {readKey : String → String}
  {cache : Option TokenState} {now : Instant} {s : Payments json}
  {tr : List (Entry (Payments json) (PaymentAct json) (CallReturned json))}

/-- What a successful call of a run got, and that it is classified accordingly. -/
theorem replied (h : (Payments.lts p c readKey).Run (.initial cache now) tr s)
    {e : Entry (Payments json) (PaymentAct json) (CallReturned json)} (he : e ∈ tr) {t : ℕ}
    {call : CreateCall json} {resp : CreateTransactionResponse}
    (hout : e.out = some ⟨t, call, some (.ok resp)⟩) :
    ∃ a, e.before.gateway.original readKey t call = some a ∧
      a.verdict.judges call.request.operation = true ∧
      resp.isAccepted = decide (a.verdict = .accepted) ∧
      resp.isBroadcast = decide (a.verdict = .broadcast) := by
  obtain ⟨pre, hpre, ht⟩ := h.entry he
  obtain ⟨x, body, hx, hreplies, hbody, rfl⟩ := (Payments.inv_run hpre).returned ht hout
  obtain ⟨body', hbody', hstatus⟩ := hreplies.suits.reads
  obtain rfl := Except.ok.inj (hbody.symm.trans hbody')
  exact ⟨x.answer, original_of_replies hx hreplies, hreplies.suits.judges,
    isAccepted_respond hreplies.suits.judges hreplies.status hstatus, isBroadcast_respond hstatus⟩

/-- The answer under a key is the same at the end of the run. -/
theorem cached_of_original (h : (Payments.lts p c readKey).Run (.initial cache now) tr s)
    {e : Entry (Payments json) (PaymentAct json) (CallReturned json)} (he : e ∈ tr) {t : ℕ}
    {call : CreateCall json} {key : String} {a : Answer} (hkey : call.wireKey readKey = some key)
    (ha : e.before.gateway.original readKey t call = some a) : s.gateway.cached key = some a := by
  obtain ⟨pre, post, rfl⟩ := List.append_of_mem he
  obtain ⟨-, ht, hpost⟩ := h.split
  unfold PaymentGateway.original at ha
  rw [hkey] at ha
  exact Payments.extends_run hpost key a (Payments.extends_step ht key a ha)

/-- **Replies are classified as the original answers were, however often they are repeated.** -/
theorem replayStable (h : (Payments.lts p c readKey).Run (.initial cache now) tr s) :
    ReplayStable readKey tr where
  classified e he t call resp hout := by
    obtain ⟨a, ha, hjudges, haccepted, hbroadcast⟩ := replied h he hout
    exact ⟨a, ha, classified_of_eq hjudges haccepted hbroadcast⟩
  alike e he e' he' t call resp t' call' resp' key hout hout' hkey hkey' := by
    obtain ⟨a, ha, -, haccepted, hbroadcast⟩ := replied h he hout
    obtain ⟨a', ha', -, haccepted', hbroadcast'⟩ := replied h he' hout'
    have hfinal := cached_of_original h he hkey ha
    have hfinal' := cached_of_original h he' hkey' ha'
    obtain rfl := Option.some.inj (hfinal.symm.trans hfinal')
    exact ⟨haccepted.trans haccepted'.symm, hbroadcast.trans hbroadcast'.symm⟩

end runs

/-! ### A reply that was lost and repeated -/

def swapRequest : CreateTransactionRequest :=
  .programCall ⟨"payer", "solana", "AQID", none, none, none⟩

def swapJson : String :=
  "\x7b\"operation\":\"PROGRAM_CALL\",\"from_address\":\"payer\",\"chain\":\"solana\"" ++
    ",\"signed_transaction\":\"AQID\"\x7d"

def pendingJson : String := "\x7b\"tx_id\":\"t2\",\"status\":\"PENDING\",\"message\":\"\"\x7d"

/-- `serde_json` on the two bodies. -/
def swapSerdeJson : SerdeJson where
  toVec _ := utf8 swapJson
  tree bytes :=
    if bytes = utf8 swapJson then .ok swapRequest.serialize
    else if bytes = utf8 pendingJson then
      .ok (.object
        [("tx_id", .string "t2"), ("status", .string "PENDING"), ("message", .string "")])
    else .error ⟨"expected value"⟩
  mismatch _ _ := ⟨"missing field"⟩

def swapCall : CreateCall swapSerdeJson where
  request := swapRequest
  key := some "idem-1"
  exact := by
    unfold SerdeJson.RoundTrips swapSerdeJson
    dsimp only
    rw [if_pos rfl]

/-- The answer to task 1 is lost; task 2 repeats the request, with a token that has expired. -/
def repeated : List (PaymentAct swapSerdeJson) :=
  [.call 1 swapCall, .grant 1, .serve 1 ⟨.accepted, utf8 pendingJson⟩,
    .fail 1 (.error ⟨"operation timed out"⟩), .call 2 swapCall, .grant 2,
    .fail 2 (.text 401 tokenExpiredJson), .grant 2, .auth 2 (.text 200 tokenJson1),
    .serve 2 ⟨.broadcast, []⟩, .deliver 2]

def repeatedRun : List (Entry (Payments swapSerdeJson) (PaymentAct swapSerdeJson)
    (CallReturned swapSerdeJson)) × Payments swapSerdeJson :=
  (Payments.lts testPlatform testClient fieldValue).play
    (.initial (some ⟨"token-0", Duration.fromSecs 1100⟩) (Duration.fromSecs 1000)) repeated

/-- The reply came with status 200 and is accepted. -/
def repeatedPending (o : CallReturned swapSerdeJson) : Bool :=
  match o with
  | some ⟨2, _, some (.ok resp)⟩ => resp.httpStatus == 200 && resp.isAccepted
  | _ => false

theorem replayStable_repeated :
    repeatedRun.1.any (fun e => repeatedPending e.out) = true ∧
      ReplayStable fieldValue repeatedRun.1 :=
  ⟨by decide +kernel,
    replayStable ((Payments.lts testPlatform testClient fieldValue).run_play _ repeated)⟩

end ParatroSdk
