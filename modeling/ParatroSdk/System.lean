import ParatroSdk.Authenticate

/-! # Many tasks on one token manager

Any number of tasks call `get_token` and `refresh_after_expiry` on one `TokenManager` while
a gateway issues tokens.  The tasks run the programs of `src/token.rs` over the shared cell;
the gateway keeps a ledger of the tokens it issued.  An auth exchange may end with any reply
that the HTTP client's timeout admits; one that grants a token grants what the gateway
issued in that exchange, which may be any token string.  A task may report any string as an
expired token.

A move may also drop a task where it waits, as dropping its future does.

That a token is issued once only, and reported only after that, is a property of the moves
of a run (`IssuedOnce`), assumed where it is needed. -/

namespace ParatroSdk

open Machine Interaction SharedCell Transition TokenManager

/-- The two public calls of the token manager. -/
inductive Call where
  | getToken
  | refreshAfterExpiry (stale : String)
deriving DecidableEq, Repr

namespace Call

/-- The argument of `refresh` in this call. -/
def stale : Call → Option String
  | .getToken => none
  | .refreshAfterExpiry stale => some stale

def code (p : Platform) (tm : TokenManager) : Call → SdkCode (Except Error String)
  | .getToken => (tm.getToken p).run
  | .refreshAfterExpiry stale => (tm.refreshAfterExpiry p stale).run

end Call

/-! ### The gateway -/

/-- A token as the gateway issues it; it is accepted for `lifetime` seconds from then on. -/
structure Issue where
  token : String
  lifetime : Int64
  issuedAt : Instant
deriving DecidableEq

/-- The tokens issued, newest first, and those issued in an exchange still under way. -/
structure Gateway where
  issued : List Issue
  pending : ℕ → Option Issue

namespace Gateway

def initial : Gateway := ⟨[], fun _ => none⟩

def knows (g : Gateway) (token : String) : Bool := g.issued.any (·.token = token)

theorem knows_iff {g : Gateway} {token : String} :
    g.knows token = true ↔ ∃ i ∈ g.issued, i.token = token := by
  simp [knows]

/-- Issue a token in the exchange of task `t`. -/
def issue (g : Gateway) (t : ℕ) (i : Issue) : Gateway :=
  ⟨i :: g.issued, Function.update g.pending t (some i)⟩

/-- The exchange of task `t` is over. -/
def settle (g : Gateway) (t : ℕ) : Gateway :=
  { g with pending := Function.update g.pending t none }

/-- The outcome of the exchange of task `t` grants the token issued in it, if any token. -/
def honours (g : Gateway) (t : ℕ) : AuthOutcome → Bool
  | .granted tokResp =>
      (g.pending t).any fun i => i.token = tokResp.token ∧ i.lifetime = tokResp.expiresIn
  | _ => true

theorem knows_issue {g : Gateway} {t : ℕ} {i : Issue} {token : String} :
    (g.issue t i).knows token = true ↔ i.token = token ∨ g.knows token = true := by
  simp [knows, issue]

theorem pending_issue {g : Gateway} {t u : ℕ} {i : Issue} :
    (g.issue t i).pending u = if u = t then some i else g.pending u :=
  Function.update_apply g.pending t (some i) u

theorem pending_settle {g : Gateway} {t u : ℕ} :
    (g.settle t).pending u = if u = t then none else g.pending u :=
  Function.update_apply g.pending t none u

end Gateway

/-! ### The system -/

abbrev Tasks := SharedCell.State (Option TokenState) HttpCall HttpReply Call (Except Error String)

structure System where
  tasks : Tasks
  gateway : Gateway

/-- What a caller sees of a move. -/
abbrev Returned := Option (Finish Call (Except Error String))

inductive Act where
  | tick (d : ℕ)
  | call (t : ℕ) (c : Call)
  | grant (t : ℕ)
  | issue (t : ℕ) (token : String) (lifetime : Int64)
  | reply (t : ℕ) (x : HttpReply)
  | drop (t : ℕ)
deriving DecidableEq

/-- In this move the gateway does not issue the token a second time, and no task reports it
before it was issued. -/
def IssuedOnce (token : String) (g : Gateway) : Act → Prop
  | .issue _ token' _ => token' = token → g.knows token = false
  | .call _ c => c = .refreshAfterExpiry token → g.knows token = true
  | _ => True

instance (token : String) (g : Gateway) : (act : Act) → Decidable (IssuedOnce token g act)
  | .issue _ token' _ => inferInstanceAs (Decidable (token' = token → _))
  | .call _ c => inferInstanceAs (Decidable (c = .refreshAfterExpiry token → _))
  | .tick _ | .grant _ | .reply _ _ | .drop _ => inferInstanceAs (Decidable True)

namespace IssuedOnce

variable {token : String} {g : Gateway} {act : Act} {t : ℕ}

theorem issue {lifetime : Int64} (h : IssuedOnce token g act) (hact : act = .issue t token lifetime) :
    g.knows token = false := by
  subst hact
  exact h rfl

theorem call (h : IssuedOnce token g act) (hact : act = .call t (.refreshAfterExpiry token)) :
    g.knows token = true := by
  subst hact
  exact h rfl

/-- Of all tokens this only has to be checked of the one issued or reported. -/
theorem forall_iff : (∀ token, IssuedOnce token g act) ↔ (match act with
    | .issue _ token _ => !g.knows token
    | .call _ c => c.stale.all g.knows
    | _ => true) = true := by
  cases act with
  | issue t token lifetime =>
      rw [Bool.not_eq_true']
      exact ⟨fun h => h token rfl, fun h token' htok => htok ▸ h⟩
  | call t c =>
      cases c with
      | getToken => exact iff_of_true nofun rfl
      | refreshAfterExpiry stale =>
          refine ⟨fun h => h stale rfl, fun h token hc => ?_⟩
          cases hc
          exact h
  | tick d | grant t | reply t x | drop t => exact iff_of_true (fun _ => trivial) rfl

end IssuedOnce

instance (g : Gateway) (act : Act) : Decidable (∀ token, IssuedOnce token g act) :=
  decidable_of_iff _ IssuedOnce.forall_iff.symm

namespace System

/-- A new token manager at a clock reading, with no caller yet. -/
def initial (now : Instant) : System := ⟨State.initial none now, .initial⟩

/-- The cached token. -/
abbrev cache (s : System) : Option TokenState := s.tasks.shared.cell

abbrev now (s : System) : Instant := s.tasks.shared.clock

/-- Task `t` executes `c` and has waited since `since` for the reply to an HTTP request. -/
def InExchange (s : System) (t : ℕ) (c : Call) (since : Instant) : Prop :=
  ∃ q k, s.tasks.tasks t = some (c, .asked since q k)

/-- The call that task `t` executes in an exchange, and since when it waits. -/
def exchange (s : System) (t : ℕ) : Option (Call × Instant) :=
  match s.tasks.tasks t with
  | some (c, .asked since _ _) => some (c, since)
  | _ => none

theorem inExchange_iff {s : System} {t : ℕ} {c : Call} {since : Instant} :
    s.InExchange t c since ↔ s.exchange t = some (c, since) := by
  unfold InExchange exchange
  constructor
  · rintro ⟨q, k, ht⟩
    rw [ht]
  · intro h
    split at h
    · rename_i c' since' q k ht
      cases h
      exact ⟨q, k, ht⟩
    · cases h

variable (p : Platform) (tm : TokenManager)

/-- A move of the tasks, the gateway's part done. -/
def move (s : System) (m : Move HttpReply Call) (g : Gateway) : Option (System × Returned) :=
  (SharedCell.step (Call.code p tm) s.tasks m).map fun r => (⟨r.1, g⟩, r.2)

/-- A reply may arrive while the HTTP client still waits for it. -/
def inTime (s : System) (since : Instant) : HttpReply → Bool
  | .ok _ => s.now ≤ since + tm.timeout
  | .error _ => true

def step (s : System) : Act → Option (System × Returned)
  | .tick d => s.move p tm (.tick d) s.gateway
  | .call t c => s.move p tm (.start t c) s.gateway
  | .grant t => s.move p tm (.grant t) s.gateway
  | .issue t token lifetime =>
      match s.tasks.tasks t with
      | some (_, .asked _ _ _) =>
          if (s.gateway.pending t).isNone then
            some ({ s with gateway := s.gateway.issue t ⟨token, lifetime, s.now⟩ }, none)
          else none
      | _ => none
  | .reply t x =>
      match s.tasks.tasks t with
      | some (_, .asked since _ _) =>
          if s.inTime tm since x && s.gateway.honours t (authOutcome p x) then
            s.move p tm (.reply t x) (s.gateway.settle t)
          else none
      | _ => none
  | .drop t => s.move p tm (.drop t) (s.gateway.settle t)

/-- The token manager with its callers and the gateway. -/
def lts : Lts System Act Returned := ⟨step p tm⟩

/-- The system at the test gateway. -/
abbrev testLts : Lts System Act Returned := lts testPlatform testManager

/-- The run of the given moves at the test gateway. -/
abbrev testRun (acts : List Act) : List (Entry System Act Returned) × System :=
  testLts.play (initial 0) acts

/-- Task `t` logs in, and the gateway answers at once. -/
def logIn (t : ℕ) (token json : String) : List Act :=
  [.call t .getToken, .grant t, .grant t, .issue t token 900, .reply t (.text 200 json)]

/-- Tasks 2 and 3 report `token-0` as expired; task 3 gets the lock after the deadline of the
token that task 2 fetched. -/
def replaced : List Act :=
  logIn 1 "token-0" tokenJson0 ++
    [.call 2 (.refreshAfterExpiry "token-0"), .call 3 (.refreshAfterExpiry "token-0"), .grant 2,
      .issue 2 "token-1" 900, .reply 2 (.text 200 tokenJson1), .tick (Duration.fromSecs 800),
      .grant 3]

/-- What the callers see in that run. -/
theorem testRun_replaced : (testRun replaced).1.map (fun e => (e.act, e.out)) =
    replaced.zip [none, none, none, none, some ⟨1, .getToken, some (.ok "token-0")⟩, none, none,
      none, none, some ⟨2, .refreshAfterExpiry "token-0", some (.ok "token-1")⟩, none,
      some ⟨3, .refreshAfterExpiry "token-0", some (.ok "token-1")⟩] := by
  decide +kernel

end System

end ParatroSdk
