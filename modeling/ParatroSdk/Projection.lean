import ParatroSdk.Application

/-! # The application over the token manager

Leave the attempts at the API out of a run of the application, and what is left of it is a
run of the token calls: `Refines` relates a state of the application to a state of the
refresh protocol, `refines_step` proves that each move of the one is one move of the other
or none, and `tokenAct` says which.  Since the lock, the cache and the clock are the same on
both sides, what is proved of every run of the token calls holds of every application. -/

namespace ParatroSdk

open Text Machine Interaction SharedCell Transition TokenManager

/-- The token a request carries. -/
def Request.bearer (request : Request) : Option String :=
  (request.headers.find? (·.1 = "Authorization")).bind fun h => stripPrefix h.2 "Bearer "

/-- The token comes first among the Authorization headers, whatever headers the caller adds. -/
theorem find_authorization {R α : Type} {c : MpcClient} {call : MpcClient.ApiCall R α}
    {build : String → Request} (hb : call.build c = .ok build) (token : String) :
    (build token).headers.find? (·.1 = "Authorization") =
      some (MpcClient.authorization token) := by
  cases call with
  | post path body | postWithStatus path body =>
      cases body with
      | error e => cases hb
      | ok payload => cases hb; rfl
  | postWithHeaders path body headers | postWithStatusAndHeaders path body headers =>
      cases body with
      | error e => cases hb
      | ok payload => cases hb; rfl
  | get path | getWithQuery path params =>
      cases hb
      rfl

theorem Operation.Attempt.bearer {β : Type} {c : MpcClient} {op : Operation β} {token : String}
    {q : HttpCall} (h : op.Attempt c token q) : q.request.bearer = some token := by
  obtain ⟨build, hb, rfl⟩ := h
  unfold Request.bearer
  dsimp only
  rw [find_authorization hb, Option.bind_some]
  exact stripPrefix_eq_some_iff.mpr rfl

/-! ### Where a task stands -/

/-- Task `t` waits for the lock. -/
def Application.queues {κ β : Type} (s : Application κ β) (t : ℕ) : Bool :=
  match s.tasks.tasks t with
  | some (_, .waiting _ _) => true
  | _ => false

section standing
variable {κ β : Type} {p : Platform} {c : MpcClient} {ops : κ → Operation β}

theorem Attempts.client {op : Operation β} {h : History} {q : HttpCall} (hq : Attempts p c op h q) :
    q.client = .api := by
  cases hq with
  | first hq | second _ _ hq =>
      obtain ⟨build, -, rfl⟩ := hq
      rfl

variable {h : History} {x : Option (κ × Suspended (Option TokenState) HttpCall HttpReply (Except Error β))}
  {y : Option Waiting}

/-- Between its token calls a task makes an attempt at the API, or it is gone. -/
theorem absent_cases
    (hx : (tokenLayer p c ops).Projected h x (y.map (Protocol.suspend p c.tokenManager)))
    (hy : y = none) :
    x = none ∨ ∃ k since q kont, x = some (k, .asked since q kont) ∧ Attempts p c (ops k) h q := by
  subst hy
  cases hx with
  | absent => exact .inl rfl
  | outer hq hk => exact .inr ⟨_, _, _, _, rfl, hq⟩

/-- In a token call a task waits where the call does. -/
theorem present_cases
    (hx : (tokenLayer p c ops).Projected h x (y.map (Protocol.suspend p c.tokenManager)))
    {w : Waiting} (hy : y = some w) : ∃ k, TokenCalls p c (ops k) h w.call ∧
      ((∃ since kont, w = .exchanging w.call since ∧
          x = some (k, .asked since ⟨.auth, c.tokenManager.authRequest⟩ kont)) ∨
        (∀ since, w ≠ .exchanging w.call since) ∧ ∃ m q, x = some (k, .waiting m q)) := by
  subst hy
  cases w with
  | reading =>
      cases hx with
      | waiting hi hf => exact ⟨_, hi, .inr ⟨nofun, _, _, rfl⟩⟩
  | queued i =>
      cases hx with
      | waiting hi hf => exact ⟨_, hi, .inr ⟨nofun, _, _, rfl⟩⟩
  | exchanging i since =>
      cases hx with
      | asked hi hf => exact ⟨_, hi, .inl ⟨since, _, rfl, rfl⟩⟩

end standing

/-! ### One move -/

/-- The move of the token calls as an action of their system. -/
def tokenMove : Move HttpReply Call → Act
  | .tick d => .tick d
  | .start t i => .call t i
  | .grant t => .grant t
  | .reply t x => .reply t x
  | .drop t => .drop t

theorem system_step {p : Platform} {tm : TokenManager} {s : System} {m : Move HttpReply Call}
    {r : Tasks × Returned} (h : SharedCell.step (Call.code p tm) s.tasks m = some r)
    (hreply : ∀ t x i since, m = .reply t x → s.InExchange t i since →
      s.inTime tm since x = true ∧ s.gateway.honours t (authOutcome p x) = true) :
    System.step p tm s (tokenMove m) = some (⟨r.1, s.gateway.after m⟩, r.2) := by
  have hmove : ∀ g, s.move p tm m g = some (⟨r.1, g⟩, r.2) := by
    intro g
    unfold System.move
    rw [h]
    rfl
  cases m with
  | tick d => exact hmove _
  | start t i => exact hmove _
  | grant t => exact hmove _
  | drop t => exact hmove _
  | reply t x =>
      cases step_iff.mp h with
      | @reply _ i since q k ht _ =>
          obtain ⟨htime, hhonours⟩ := hreply t x i since rfl ⟨q, k, ht⟩
          simp only [tokenMove, System.step, ht, htime, hhonours, Bool.and_self, if_true]
          exact hmove _

/-- One move of an application. -/
abbrev ApiEntry (κ β : Type) :=
  Entry (Application κ β) (ApiAct κ) (Option (Finish κ (Except Error β)))

/-- In this move the gateway does not issue the token a second time. -/
def NotReissued {κ β : Type} (token : String) (e : ApiEntry κ β) : Prop :=
  ∀ t lifetime, e.act = .issue t token lifetime → e.before.gateway.knows token = false

/-- What a move of the application does to the token calls. -/
def tokenAct {κ β : Type} (e : ApiEntry κ β) : Option Act :=
  match e.act with
  | .issue t token lifetime => some (.issue t token lifetime)
  | .task (.tick d) => some (.tick d)
  | .task (.grant t) => some (.grant t)
  | .task (.start t _) => if e.after.queues t then some (.call t .getToken) else none
  | .task (.reply t x) =>
      match e.before.waitsFor t with
      | some (_, ⟨.auth, _⟩) => some (.reply t x)
      | some (_, ⟨.api, request⟩) =>
          if e.after.queues t then
            request.bearer.map fun token => .call t (.refreshAfterExpiry token)
          else none
      | none => none
  | .task (.drop t) =>
      if (e.before.waitsFor t).any (·.2.client = .api) then none else some (.drop t)

/-- In the run so far, an attempt `q` of task `t` was answered `x`, and the task was not started
anew since. -/
def Answered {κ β : Type} (tr : List (ApiEntry κ β)) (t : ℕ) (q : HttpCall) (x : HttpReply) : Prop :=
  ∃ pre e mid since, tr = pre ++ e :: mid ∧ e.act = .task (.reply t x) ∧
    e.before.waitsFor t = some (since, q) ∧ q.client = .api ∧
      ∀ e' ∈ mid, ∀ k, e'.act ≠ .task (.start t k)

theorem answered_snoc {κ β : Type} {tr : List (ApiEntry κ β)} {e : ApiEntry κ β} {t : ℕ}
    {q : HttpCall} {x : HttpReply} :
    Answered (tr ++ [e]) t q x ↔
      (Answered tr t q x ∧ ∀ k, e.act ≠ .task (.start t k)) ∨
        (e.act = .task (.reply t x) ∧ q.client = .api ∧
          ∃ since, e.before.waitsFor t = some (since, q)) := by
  constructor
  · rintro ⟨pre, e₀, mid, since, heq, hact, hwaits, hclient, hmid⟩
    obtain rfl | ⟨mid', e', rfl⟩ := List.eq_nil_or_concat mid
    · obtain ⟨-, he⟩ := List.append_inj' heq rfl
      cases he
      exact .inr ⟨hact, hclient, since, hwaits⟩
    · rw [List.concat_eq_append] at heq hmid
      rw [← List.cons_append, ← List.append_assoc] at heq
      obtain ⟨rfl, he⟩ := List.append_inj' heq rfl
      cases he
      refine .inl ⟨⟨pre, e₀, mid', since, rfl, hact, hwaits, hclient, ?_⟩, ?_⟩
      · exact fun e'' he'' => hmid e'' (List.mem_append_left _ he'')
      · exact hmid e (by simp)
  · rintro (⟨⟨pre, e₀, mid, since, rfl, hact, hwaits, hclient, hmid⟩, he⟩ | ⟨hact, hclient, since, hwaits⟩)
    · refine ⟨pre, e₀, mid ++ [e], since, by simp, hact, hwaits, hclient, ?_⟩
      intro e' he' k
      obtain he' | he' := List.mem_append.mp he'
      · exact hmid e' he' k
      · rw [List.mem_singleton.mp he']
        exact he k
    · exact ⟨tr, e, [], since, rfl, hact, hwaits, hclient, by simp⟩

section refines
variable {κ β : Type} {p : Platform} {c : MpcClient} {ops : κ → Operation β}

/-- The application in state `s`, after `tr`, over the token calls in state `a`. -/
structure Refines (p : Platform) (c : MpcClient) (ops : κ → Operation β)
    (tr : List (ApiEntry κ β)) (hist : ℕ → History) (s : Application κ β) (a : Protocol) : Prop where
  projects : (tokenLayer p c ops).Projects hist s.tasks (Protocol.conc p c.tokenManager a).tasks
  gateway : s.gateway = a.gateway
  returned : ∀ t i token, .called i (.ok token) ∈ hist t → a.gateway.knows token = true
  replaced : ∀ token, (∀ e ∈ tr, NotReissued token e) → Protocol.Reported token a ∧
    ∀ t, .called (.refreshAfterExpiry token) (.ok token) ∉ hist t
  answered : ∀ t q x, .asked q x ∈ hist t ↔ Answered tr t q x
  guarded : (Protocol.conc p c.tokenManager a).tasks.Guarded

theorem refines_initial (now : Instant) :
    Refines p c ops [] (fun _ => []) (Application.initial now) (Protocol.initial now) :=
  ⟨Layer.projects_initial _ _ _, rfl, nofun,
    fun token _ => ⟨Protocol.reported_initial token now, nofun⟩, fun t q x => by simp [Answered], guarded_initial _ _⟩

variable {tr : List (ApiEntry κ β)} {hist : ℕ → History} {s : Application κ β} {a a' : Protocol}

theorem Refines.task (h : Refines p c ops tr hist s a) (t : ℕ) :
    (tokenLayer p c ops).Projected (hist t) (s.tasks.tasks t)
      ((a.tasks t).map (Protocol.suspend p c.tokenManager)) := h.projects.tasks t

/-- A task that is in no token call does not wait for the lock. -/
theorem Refines.queues_absent (h : Refines p c ops tr hist s a) {t : ℕ} (ht : a.tasks t = none) :
    s.queues t = false := by
  unfold Application.queues
  rcases absent_cases (h.task t) ht with hx | ⟨k, since, q, kont, hx, -⟩ <;> rw [hx]

/-- A request that a task in no token call waits for is an attempt at the API. -/
theorem Refines.waitsFor_absent (h : Refines p c ops tr hist s a) {t : ℕ} (ht : a.tasks t = none)
    {since : Instant} {q : HttpCall} (hs : s.waitsFor t = some (since, q)) :
    ∃ k, Attempts p c (ops k) (hist t) q := by
  unfold Application.waitsFor at hs
  obtain hx | ⟨k, since', q', kont, hx, hq⟩ := absent_cases (h.task t) ht
  · rw [hx] at hs
    cases hs
  · rw [hx] at hs
    cases hs
    exact ⟨k, hq⟩

/-- A task in an exchange of the protocol waits for the auth endpoint. -/
theorem Refines.waitsFor_exchanging (h : Refines p c ops tr hist s a) {t : ℕ} {i : Call}
    {since : Instant} (ht : a.tasks t = some (.exchanging i since)) :
    s.waitsFor t = some (since, ⟨.auth, c.tokenManager.authRequest⟩) := by
  obtain ⟨k, -, ⟨since', kont, hw, hx⟩ | ⟨hne, -⟩⟩ := present_cases (h.task t) ht
  · cases hw
    unfold Application.waitsFor
    rw [hx]
  · exact absurd rfl (hne since)

/-- A task in a token call that is in no exchange waits for the lock. -/
theorem Refines.queues_present (h : Refines p c ops tr hist s a) {t : ℕ} {w : Waiting}
    (ht : a.tasks t = some w) (hw : ∀ since, w ≠ .exchanging w.call since) :
    s.queues t = true ∧ s.waitsFor t = none := by
  obtain ⟨k, -, ⟨since', kont, hw', hx⟩ | ⟨-, m, q, hx⟩⟩ := present_cases (h.task t) ht
  · exact absurd hw' (hw since')
  · unfold Application.queues Application.waitsFor
    rw [hx]
    exact ⟨rfl, rfl⟩

/-- A task in a token call waits for the auth endpoint, if for any reply. -/
theorem Refines.exchanging_of_waitsFor (h : Refines p c ops tr hist s a) {t : ℕ} {w : Waiting}
    {since : Instant} {q : HttpCall} (ht : a.tasks t = some w)
    (hwaits : s.waitsFor t = some (since, q)) :
    w = .exchanging w.call since ∧ q = ⟨.auth, c.tokenManager.authRequest⟩ := by
  by_cases hw : ∃ since', w = .exchanging w.call since'
  · obtain ⟨since', hw⟩ := hw
    have hwaits' := h.waitsFor_exchanging (hw ▸ ht)
    rw [hwaits] at hwaits'
    cases hwaits'
    exact ⟨hw, rfl⟩
  · have := (h.queues_present ht fun since' hne => hw ⟨since', hne⟩).2
    rw [hwaits] at this
    cases this

/-- The tasks that wait for the auth endpoint are the same on both sides. -/
theorem Refines.waitsFor_auth_iff (h : Refines p c ops tr hist s a) {t : ℕ} {since : Instant} :
    (∃ q, s.waitsFor t = some (since, q) ∧ q.client = .auth) ↔
      ∃ i, a.tasks t = some (.exchanging i since) := by
  constructor
  · rintro ⟨q, hwaits, hclient⟩
    cases ht : a.tasks t with
    | none =>
        obtain ⟨k, hq⟩ := h.waitsFor_absent ht hwaits
        rw [hq.client] at hclient
        cases hclient
    | some w => exact ⟨_, congrArg some (h.exchanging_of_waitsFor ht hwaits).1⟩
  · rintro ⟨i, ht⟩
    exact ⟨_, h.waitsFor_exchanging ht, rfl⟩

/-- A task that is there waits for the lock or for a reply. -/
theorem Refines.waits (h : Refines p c ops tr hist s a) {t : ℕ} {k : κ}
    {w : Suspended (Option TokenState) HttpCall HttpReply (Except Error β)}
    (ht : s.tasks.tasks t = some (k, w)) :
    (∃ m q, w = .waiting m q) ∨ ∃ since q kont, w = .asked since q kont := by
  have hx := h.task t
  rw [ht] at hx
  generalize (a.tasks t).map (Protocol.suspend p c.tokenManager) = y at hx
  cases hx with
  | outer hq hk => exact .inr ⟨_, _, _, rfl⟩
  | waiting hi hf => exact .inl ⟨_, _, rfl⟩
  | asked hi hf => exact .inr ⟨_, _, _, rfl⟩

/-- A task that waits for the API is in no token call. -/
theorem Refines.absent_of_api (h : Refines p c ops tr hist s a) {t : ℕ} {since : Instant}
    {q : HttpCall} (hwaits : s.waitsFor t = some (since, q)) (hclient : q.client = .api) :
    a.tasks t = none := by
  cases ht : a.tasks t with
  | none => rfl
  | some w =>
      rw [(h.exchanging_of_waitsFor ht hwaits).2] at hclient
      cases hclient

/-! ### The simulation -/

/-- A task in no token call has no exchange under way. -/
theorem after_of_absent (hI : Protocol.Inv a) {m : Move HttpReply κ} {t : ℕ} (hm : m.task = some t)
    (ht : a.tasks t = none) : a.gateway.after m = a.gateway := by
  have hsettle : a.gateway.settle t = a.gateway := by
    have hpending : a.gateway.pending t = none := by
      cases hp : a.gateway.pending t with
      | none => rfl
      | some i =>
          obtain ⟨-, i', since, hu⟩ := hI.pending t i hp
          rw [ht] at hu
          cases hu
    unfold Gateway.settle
    rw [← hpending, Function.update_eq_self]
  cases m with
  | tick d => rfl
  | start u k => rfl
  | grant u => rfl
  | reply u x | drop u =>
      cases hm
      exact hsettle

/-- What a call returned in this move is what it may return after its history. -/
def Concludes (p : Platform) (c : MpcClient) (ops : κ → Operation β) (hist : ℕ → History)
    (e : ApiEntry κ β) : Prop :=
  ∀ t k r, e.out = some ⟨t, k, some r⟩ → Ends p c (ops k) (hist t) r

/-- The attempts answered after a move of the tasks. -/
theorem Refines.answered_happened {e : ApiEntry κ β} {m : Move HttpReply κ}
    (h : Refines p c ops tr hist e.before a) (he : e.act = .task m) (o : Returned) (t : ℕ)
    (q : HttpCall) (x : HttpReply) :
    Layer.Happened hist e.before.tasks (Protocol.conc p c.tokenManager a).tasks m o t (.asked q x) ↔
      Answered (tr ++ [e]) t q x := by
  have hact : ∀ m', e.act = .task m' ↔ m = m' := by
    intro m'
    rw [he]
    exact ⟨ApiAct.task.inj, congrArg _⟩
  rw [answered_snoc]
  constructor
  · intro hev
    cases hev with
    | before hold hm => exact .inl ⟨(h.answered t q x).mp hold, fun k hk => hm k ((hact _).mp hk)⟩
    | @asked k since _ kont _ ht ht' hm =>
        have hwaits : e.before.waitsFor t = some (since, q) := by
          unfold Application.waitsFor
          rw [ht]
        obtain ⟨k', hq⟩ := h.waitsFor_absent (Option.map_eq_none_iff.mp ht') hwaits
        exact .inr ⟨(hact _).mpr hm, hq.client, since, hwaits⟩
  · rintro (⟨hold, hm⟩ | ⟨hm, hclient, since, hwaits⟩)
    · exact .before ((h.answered t q x).mpr hold) fun k hk => hm k ((hact _).mpr hk)
    · have ht' := h.absent_of_api hwaits hclient
      have hnone : (Protocol.conc p c.tokenManager a).tasks.tasks t = none := by
        rw [Protocol.tasks_conc, ht']
        rfl
      obtain hx | ⟨k, since', q', kont, hx, -⟩ := absent_cases (h.task t) ht'
      · unfold Application.waitsFor at hwaits
        rw [hx] at hwaits
        cases hwaits
      · unfold Application.waitsFor at hwaits
        rw [hx] at hwaits
        cases hwaits
        exact .asked hx hnone ((hact _).mp hm)

theorem Refines.lands {e : ApiEntry κ β} {m : Move HttpReply κ} {o : Returned}
    (h : Refines p c ops tr hist e.before a) (he : e.act = .task m)
    (hland : (tokenLayer p c ops).Lands hist e.before.tasks
      (Protocol.conc p c.tokenManager a).tasks m (e.after.tasks, e.out)
        ((Protocol.conc p c.tokenManager a').tasks, o))
    (hgateway : e.after.gateway = a'.gateway)
    (hmono : ∀ token, a.gateway.knows token = true → a'.gateway.knows token = true)
    (hreturned : ∀ t i token, o = some ⟨t, i, some (.ok token)⟩ → a'.gateway.knows token = true)
    (hreplaced : ∀ token, Protocol.Reported token a → Protocol.Reported token a' ∧
      ∀ t, o ≠ some ⟨t, .refreshAfterExpiry token, some (.ok token)⟩)
    (hguarded : (Protocol.conc p c.tokenManager a').tasks.Guarded) :
    ∃ hist', Refines p c ops (tr ++ [e]) hist' e.after a' ∧ Concludes p c ops hist' e := by
  obtain ⟨hist', hprojects, hnew, hends⟩ := hland
  refine ⟨hist', ⟨hprojects, hgateway, ?_, ?_, ?_, hguarded⟩, hends⟩
  · intro t i token hev
    cases (hnew t _).mp hev with
    | before hold _ => exact hmono token (h.returned t i token hold)
    | called ho => exact hreturned t i token ho
  · intro token hissue
    obtain ⟨hR, hnot⟩ := h.replaced token fun e' he' => hissue e' (List.mem_append_left _ he')
    obtain ⟨hR', hnot'⟩ := hreplaced token hR
    refine ⟨hR', fun t hev => ?_⟩
    cases (hnew t _).mp hev with
    | before hold _ => exact hnot t hold
    | called ho => exact hnot' t ho
  · intro t q x
    rw [hnew]
    exact h.answered_happened he o t q x

/-- The gateway issues a token on both sides. -/
theorem Refines.issue {e : ApiEntry κ β} (h : Refines p c ops tr hist e.before a)
    (hI : Protocol.Inv a) (htook : (Application.lts p c ops).Took e) {t : ℕ} {token : String}
    {lifetime : Int64} (hact : e.act = .issue t token lifetime) :
    ∃ e', (Protocol.lts p c.tokenManager).Took e' ∧ e'.before = a ∧ tokenAct e = some e'.act ∧
      ∃ hist', Refines p c ops (tr ++ [e]) hist' e.after e'.after ∧ Concludes p c ops hist' e := by
  obtain ⟨before, act, out, after⟩ := e
  cases hact
  change Application.step p c ops before (.issue t token lifetime) = some (after, out) at htook
  simp only [Application.step] at htook
  split at htook
  · rename_i hcond
    cases htook
    rw [Bool.and_eq_true, Option.any_eq_true] at hcond
    obtain ⟨⟨⟨since, q⟩, hwaits, hclient⟩, hpending⟩ := hcond
    have hclient : q.client = .auth := by simpa using hclient
    obtain ⟨i, hi⟩ := h.waitsFor_auth_iff.mp ⟨q, hwaits, hclient⟩
    have hgateway := h.gateway
    dsimp only at hgateway
    have hnow : before.now = a.now := congrArg Shared.clock h.projects.shared
    rw [hgateway] at hpending
    let a' : Protocol := { a with gateway := a.gateway.issue t ⟨token, lifetime, a.now⟩ }
    have htook' : Protocol.step p c.tokenManager a (.issue t token lifetime) = some (a', none) := by
      simp only [Protocol.step, hi, hpending, if_true, a']
    refine ⟨⟨a, .issue t token lifetime, none, a'⟩, htook', rfl, rfl, hist,
      ⟨h.projects, ?_, ?_, ?_, ?_, h.guarded⟩, ?_⟩
    · dsimp only [a']
      rw [hgateway, hnow]
    · intro u i' token' hev
      exact Gateway.knows_issue.mpr (.inr (h.returned u i' token' hev))
    · intro token' hissue
      obtain ⟨hR, hnot⟩ := h.replaced token' fun e' he' => hissue e' (List.mem_append_left _ he')
      refine ⟨hR.step hI (Protocol.step_cases htook') ?_, hnot⟩
      rintro rfl
      have hk := hissue _ (List.mem_append_right _ List.mem_cons_self) t lifetime rfl
      rwa [← hgateway]
    · intro u q' x'
      rw [h.answered, answered_snoc]
      simp
    · intro u k r hout
      cases hout
  · cases htook

/-- A move of the tasks that `step` allows, taken apart. -/
theorem took_task {e : ApiEntry κ β} {m : Move HttpReply κ}
    (htook : (Application.lts p c ops).Took e) (hact : e.act = .task m) :
    e.before.allows p c m = true ∧ e.after.gateway = e.before.gateway.after m ∧
      SharedCell.step (fun k => (ops k).code p c) e.before.tasks m = some (e.after.tasks, e.out) := by
  obtain ⟨before, act, out, after⟩ := e
  cases hact
  change Application.step p c ops before (.task m) = some (after, out) at htook
  simp only [Application.step] at htook
  split at htook
  · rename_i hallows
    obtain ⟨r, hr, heq⟩ := Option.map_eq_some_iff.mp htook
    cases heq
    exact ⟨hallows, rfl, hr⟩
  · cases htook

/-- Where the token calls do not move, `tokenAct` says so. -/
theorem Refines.tokenAct_none {e : ApiEntry κ β} {m : Move HttpReply κ} {hist' : ℕ → History}
    (h : Refines p c ops tr hist e.before a) (h' : Refines p c ops (tr ++ [e]) hist' e.after a)
    (htook : (Application.lts p c ops).Took e) (hact : e.act = .task m) {t : ℕ}
    (hm : m.task = some t) (ht : a.tasks t = none) : tokenAct e = none := by
  obtain ⟨hallows, -, hstep⟩ := took_task htook hact
  have hqueues := h'.queues_absent ht
  unfold tokenAct
  rw [hact]
  cases m with
  | tick d => cases hm
  | start u k =>
      cases hm
      simp [hqueues]
  | grant u =>
      cases hm
      obtain ⟨k, m, q, hwaiting⟩ := tasks_of_grant hstep
      have := h.queues_absent ht
      unfold Application.queues at this
      rw [hwaiting] at this
      cases this
  | reply u x =>
      cases hm
      obtain ⟨⟨since, q⟩, hwaits, -⟩ := (Option.any_eq_true _ _).mp hallows
      obtain ⟨k, hq⟩ := h.waitsFor_absent ht hwaits
      have hclient := hq.client
      obtain ⟨client, request⟩ := q
      cases hclient
      simp [hwaits, hqueues]
  | drop u =>
      cases hm
      generalize (e.after.tasks, e.out) = r at hstep
      cases step_iff.mp hstep with
      | @drop _ k w hw =>
          obtain hx | ⟨k', since, q, kont, hx, hq⟩ := absent_cases (h.task t) ht
          · rw [hw] at hx
            cases hx
          · have hwaits : e.before.waitsFor t = some (since, q) := by
              unfold Application.waitsFor
              rw [hx]
            simp [hwaits, hq.client]

/-- Where the token calls move, `tokenAct` says how. -/
theorem Refines.tokenAct_some {e : ApiEntry κ β} {m : Move HttpReply κ} {m' : Move HttpReply Call}
    {hist' : ℕ → History} {o : Returned} (h : Refines p c ops tr hist e.before a)
    (h' : Refines p c ops (tr ++ [e]) hist' e.after a') (hact : e.act = .task m)
    (hvia : (tokenLayer p c ops).Via hist e.before.tasks m m')
    (hstep : Protocol.Step p c.tokenManager a (tokenMove m') o a') :
    tokenAct e = some (tokenMove m') := by
  have hcall : ∀ t i, tokenMove m' = .call t i → a.tasks t = none ∧ e.after.queues t = true := by
    intro t i hm'
    rw [hm'] at hstep
    cases hstep with
    | call ht =>
        refine ⟨ht, (h'.queues_present (w := i.entry) ?_ ?_).1⟩
        · rw [Protocol.park_tasks, if_pos rfl]
        · cases i <;> exact nofun
  unfold tokenAct
  rw [hact]
  cases hvia with
  | tick d => rfl
  | grant t => rfl
  | @start t k i hi =>
      cases hi
      simp [(hcall t _ rfl).2, tokenMove]
  | reply t x =>
      cases hstep with
      | reply ht htime hh => simp [h.waitsFor_exchanging ht, tokenMove]
  | @call t k since q kont x i ht hi =>
      obtain ⟨hnone, hqueues⟩ := hcall t i rfl
      have hwaits : e.before.waitsFor t = some (since, q) := by
        unfold Application.waitsFor
        rw [ht]
      generalize hh : Event.asked q x :: hist t = hist_t at hi
      cases hi with
      | getToken => cases hh
      | @refresh token q' x' hq hx =>
          cases (List.cons.inj hh).1
          have hbearer := hq.bearer
          obtain ⟨build, hb, rfl⟩ := hq
          simp only [hwaits, hqueues, if_true, tokenMove]
          rw [hbearer, Option.map_some]
  | drop t =>
      cases hstep with
      | @drop _ w ht =>
          by_cases hw : ∃ since, w = .exchanging w.call since
          · obtain ⟨since, hw⟩ := hw
            simp [h.waitsFor_exchanging (hw ▸ ht), tokenMove]
          · have := (h.queues_present ht fun since hne => hw ⟨since, hne⟩).2
            simp [this, tokenMove]

/-- A task reports a token that a token call of its own returned. -/
theorem Refines.issuedOnce (h : Refines p c ops tr hist s a) {m : Move HttpReply κ}
    {m' : Move HttpReply Call} (hvia : (tokenLayer p c ops).Via hist s.tasks m m') (token : String) :
    IssuedOnce token a.gateway (tokenMove m') := by
  cases hvia with
  | start hi =>
      cases hi
      exact nofun
  | @call u k since q kont x i ht hi =>
      rintro rfl
      generalize hh : Event.asked q x :: hist u = hist_u at hi
      cases hi with
      | refresh hq hx =>
          refine h.returned u .getToken token ?_
          rw [(List.cons.inj hh).2]
          exact List.mem_cons_self
  | _ => trivial

/-- **A move of the application is one move of the token calls, or none.** -/
theorem Refines.step {e : ApiEntry κ β} (h : Refines p c ops tr hist e.before a)
    (hI : Protocol.Inv a) (hknown : ∀ s, a.cache = some s → a.gateway.knows s.token = true)
    (htook : (Application.lts p c ops).Took e) :
    (tokenAct e = none ∧
      ∃ hist', Refines p c ops (tr ++ [e]) hist' e.after a ∧ Concludes p c ops hist' e) ∨
      ∃ e', (Protocol.lts p c.tokenManager).Took e' ∧ e'.before = a ∧ tokenAct e = some e'.act ∧
        ∃ hist', Refines p c ops (tr ++ [e]) hist' e.after e'.after ∧
          Concludes p c ops hist' e := by
  cases hact : e.act with
  | issue t token lifetime => exact .inr (h.issue hI htook hact)
  | task m =>
      obtain ⟨hallows, hgateway, hstep⟩ := took_task htook hact
      rcases h.projects.step h.guarded (balanced_call p c.tokenManager) layered_code hstep with
        ⟨⟨t, hm, ht⟩, hland⟩ | ⟨m', ⟨st', o⟩, hvia, hstep', hland⟩
      · -- the task makes no token call before and after the move
        have ht : a.tasks t = none := Option.map_eq_none_iff.mp ht
        obtain ⟨hist', h', hends⟩ := h.lands hact hland
          (by rw [hgateway, h.gateway, after_of_absent hI hm ht]) (fun _ hk => hk) (by nofun)
          (fun _ hR => ⟨hR, by nofun⟩) h.guarded
        exact .inl ⟨h.tokenAct_none h' htook hact hm ht, hist', h', hends⟩
      · -- the gateway does its part of the same move
        have hsys := system_step (s := Protocol.conc p c.tokenManager a) hstep' ?_
        · rw [Protocol.step_conc] at hsys
          obtain ⟨⟨a', o'⟩, hstep'', heq⟩ := Option.map_eq_some_iff.mp hsys
          obtain ⟨hconc, rfl⟩ := Prod.mk.inj heq
          have hP := Protocol.step_cases hstep''
          obtain rfl : (Protocol.conc p c.tokenManager a').tasks = st' :=
            congrArg System.tasks hconc
          have hgate : a'.gateway = a.gateway.after m' := congrArg System.gateway hconc
          have hguarded := h.guarded.step (balanced_call p c.tokenManager) hstep'
          have hafter : e.after.gateway = a'.gateway := by
            rw [hgateway, h.gateway, hgate]
            cases hvia with
            | call ht hi =>
                have hnone := tasks_of_start hstep'
                rw [Protocol.tasks_conc, Option.map_eq_none_iff] at hnone
                exact after_of_absent hI rfl hnone
            | _ => rfl
          obtain ⟨hist', h', hends⟩ := h.lands hact hland hafter (fun _ => hP.knows_mono)
            (fun t i token ho => Protocol.returned_known hI hknown hP ho)
            (fun token hR => ⟨hR.step hI hP (h.issuedOnce hvia token), hR.not_returned hP⟩) hguarded
          exact .inr ⟨⟨a, tokenMove m', o', a'⟩, hstep'', rfl,
            h.tokenAct_some h' hact hvia hP, hist', h', hends⟩
        · rintro t x i since rfl hin
          have ht := Protocol.inExchange_conc.mp hin
          cases hvia with
          | reply =>
              have hwaits := h.waitsFor_exchanging ht
              simp only [Application.allows, hwaits, Option.any_some, Bool.and_eq_true,
                Bool.or_eq_true] at hallows
              have hnow : e.before.now = a.now := congrArg Shared.clock h.projects.shared
              rw [h.gateway, hnow] at hallows
              refine ⟨?_, hallows.2.resolve_left (by simp)⟩
              cases x with
              | error err => rfl
              | ok resp => exact hallows.1

theorem refines_of_run {now : Instant} {tr : List (ApiEntry κ β)} {s : Application κ β}
    (h : (Application.lts p c ops).Run (Application.initial now) tr s) :
    ∃ tr' a hist, (Protocol.lts p c.tokenManager).Run (Protocol.initial now) tr' a ∧
      tr'.map (·.act) = tr.filterMap tokenAct ∧ Refines p c ops tr hist s a := by
  induction h with
  | nil => exact ⟨[], _, _, .nil, rfl, refines_initial now⟩
  | @snoc tr e hr htook ih =>
      obtain ⟨tr', a, hist, hrun, hacts, hR⟩ := ih
      rcases hR.step (Protocol.inv_of_run hrun) (fun s => Protocol.known_of_run hrun) htook with
        ⟨hnone, hist', hR', -⟩ | ⟨e', htook', rfl, hsome, hist', hR', -⟩
      · refine ⟨tr', a, hist', hrun, ?_, hR'⟩
        rw [List.filterMap_append, List.filterMap_cons_none hnone, List.filterMap_nil,
          List.append_nil, hacts]
      · refine ⟨tr' ++ [e'], e'.after, hist', hrun.snoc htook', ?_, hR'⟩
        rw [List.filterMap_append, List.filterMap_cons_some hsome, List.filterMap_nil,
          List.map_append, hacts]
        rfl

/-- The tasks that wait for the lock are the same on both sides. -/
theorem Refines.queues_iff (h : Refines p c ops tr hist s a) {t : ℕ} :
    s.queues t = true ↔
      ∃ i m q, (Protocol.conc p c.tokenManager a).tasks.tasks t = some (i, .waiting m q) := by
  rw [Protocol.tasks_conc]
  cases ht : a.tasks t with
  | none => simp [h.queues_absent ht]
  | some w =>
      cases w with
      | reading =>
          have := (h.queues_present ht nofun).1
          exact iff_of_true this ⟨_, _, _, rfl⟩
      | queued i =>
          have := (h.queues_present ht nofun).1
          exact iff_of_true this ⟨_, _, _, rfl⟩
      | exchanging i since =>
          obtain ⟨k, -, ⟨since', kont, -, hx⟩ | ⟨hne, -⟩⟩ := present_cases (h.task t) ht
          · simp [Application.queues, hx, Protocol.suspend]
          · exact absurd rfl (hne since)

/-- **For its token calls, every run of an application is a run of the token manager's tasks**:
the attempts at the API left out, with the same cache, lock and clock at its end, the same
ledger, and the same tasks waiting for the lock and for the auth endpoint. -/
theorem tokenCalls_refine {now : Instant} {tr : List (ApiEntry κ β)} {s : Application κ β}
    (h : (Application.lts p c ops).Run (Application.initial now) tr s) :
    ∃ tr' s', (System.lts p c.tokenManager).Run (System.initial now) tr' s' ∧
      tr'.map (·.act) = tr.filterMap tokenAct ∧ s'.tasks.shared = s.tasks.shared ∧
      s'.gateway = s.gateway ∧
      (∀ t, s.queues t = true ↔ ∃ i m q, s'.tasks.tasks t = some (i, .waiting m q)) ∧
      ∀ t since, (∃ q, s.waitsFor t = some (since, q) ∧ q.client = .auth) ↔
        ∃ i, s'.InExchange t i since := by
  obtain ⟨tr', a, hist, hrun, hacts, hR⟩ := refines_of_run h
  refine ⟨tr'.map (Lts.mapEntry (Protocol.conc p c.tokenManager)), Protocol.conc p c.tokenManager a,
    hrun.map (f := Protocol.conc p c.tokenManager) ?_, ?_, hR.projects.shared.symm, hR.gateway.symm,
    fun t => hR.queues_iff, fun t since => ?_⟩
  · intro e he
    have he' : Protocol.step p c.tokenManager e.before e.act = some (e.after, e.out) := he
    change System.step p c.tokenManager (Protocol.conc p c.tokenManager e.before) e.act = _
    rw [Protocol.step_conc, he']
    rfl
  · rw [← hacts, List.map_map]
    rfl
  · rw [hR.waitsFor_auth_iff]
    exact exists_congr fun i => Protocol.inExchange_conc.symm

end refines

/-- The token calls of the run in which two calls are answered expired. -/
theorem tokenCalls_expiredTwice : ∃ tr' s', System.testLts.Run (System.initial 0) tr' s' ∧
    tr'.map (·.act) = System.logIn 1 "token-0" tokenJson0 ++ [.call 2 .getToken, .grant 2,
      .call 1 (.refreshAfterExpiry "token-0"), .call 2 (.refreshAfterExpiry "token-0"), .grant 1,
      .issue 1 "token-1" 900, .reply 1 (.text 200 tokenJson1), .grant 2] := by
  obtain ⟨tr', s', hrun, hacts, -⟩ :=
    tokenCalls_refine (Application.testLts.run_play (.initial 0) Application.expiredTwice)
  refine ⟨tr', s', hrun, hacts.trans ?_⟩
  decide +kernel

end ParatroSdk
