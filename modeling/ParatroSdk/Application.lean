import ParatroSdk.Lib.Layers
import ParatroSdk.Refresh
import ParatroSdk.Send

/-! # Many API calls on one client

An application makes any number of API calls at the same time on one `MpcClient`, so they
share its token manager.  Every call goes through `send`; here its whole program runs, with
the lock and the cache of the token manager, its exchanges with the auth endpoint and its
attempts at the API.  The gateway keeps the ledger of `ParatroSdk.System` for the auth
endpoint and may answer an attempt with anything.

`send` is a program over the two token calls (`layered_code`): it makes `get_token`, then an
attempt, then perhaps `refresh_after_expiry` for the token of that attempt and one more
attempt.  So every run of the application is, for its token calls, a run of the system of
`ParatroSdk.System` (`tokenCalls_refine`). -/

namespace ParatroSdk

open Text Machine Interaction SharedCell Transition TokenManager

/-- A call of the SDK, and what the application makes of its result. -/
structure Operation (β : Type) where
  {R : Type}
  {α : Type}
  fromSlice : FromSlice R
  call : MpcClient.ApiCall R α
  wrap : α → β

namespace Operation

variable {β : Type} (p : Platform) (c : MpcClient) (op : Operation β)

def code : SdkCode (Except Error β) :=
  (op.call.run p op.fromSlice c).run >>= fun r => .ret (r.map op.wrap)

/-- What the application gets of the reply to the last attempt. -/
def result (reply : HttpReply) : Except Error β :=
  ((finalResult p op.fromSlice reply).map op.call.view).map op.wrap

/-- The request is an attempt of the operation with this token. -/
def Attempt (token : String) (q : HttpCall) : Prop :=
  ∃ build, op.call.build c = .ok build ∧ q = ⟨.api, build token⟩

end Operation

/-! ### `send` as a program over the token calls -/

/-- What a call of the SDK has got back so far, the latest first. -/
abbrev History := List (Event HttpCall HttpReply Call (Except Error String))

section layer
variable {κ β : Type} (p : Platform) (c : MpcClient) (ops : κ → Operation β)

/-- `get_token` comes first; `refresh_after_expiry` follows an attempt answered expired. -/
inductive TokenCalls (op : Operation β) : History → Call → Prop where
  | getToken : TokenCalls op [] .getToken
  | refresh {token : String} {q : HttpCall} {x : HttpReply} (hq : op.Attempt c token q)
      (hx : AnsweredExpired p x) :
      TokenCalls op [.asked q x, .called .getToken (.ok token)] (.refreshAfterExpiry token)

/-- An attempt is made with the token that the call before it returned. -/
inductive Attempts (op : Operation β) : History → HttpCall → Prop where
  | first {token : String} {q : HttpCall} (hq : op.Attempt c token q) :
      Attempts op [.called .getToken (.ok token)] q
  | second {stale token : String} {q q' : HttpCall} {x : HttpReply} (hq : op.Attempt c stale q)
      (hx : AnsweredExpired p x) (hq' : op.Attempt c token q') :
      Attempts op [.called (.refreshAfterExpiry stale) (.ok token), .asked q x,
        .called .getToken (.ok stale)] q'

/-- A call returns the error of building its request or of a token call, or what its last
attempt yields. -/
inductive Ends (op : Operation β) : History → Except Error β → Prop where
  | unbuilt {e : Error} (hb : op.call.build c = .error e) : Ends op [] (.error e)
  | noToken (e : Error) : Ends op [.called .getToken (.error e)] (.error e)
  | once {token : String} {q : HttpCall} {x : HttpReply} (hq : op.Attempt c token q)
      (hx : ¬ AnsweredExpired p x) :
      Ends op [.asked q x, .called .getToken (.ok token)] (op.result p x)
  | noRefresh {token : String} {q : HttpCall} {x : HttpReply} (e : Error)
      (hq : op.Attempt c token q) (hx : AnsweredExpired p x) :
      Ends op [.called (.refreshAfterExpiry token) (.error e), .asked q x,
        .called .getToken (.ok token)] (.error e)
  | twice {stale token : String} {q q' : HttpCall} {x : HttpReply} (x' : HttpReply)
      (hq : op.Attempt c stale q) (hx : AnsweredExpired p x) (hq' : op.Attempt c token q') :
      Ends op [.asked q' x', .called (.refreshAfterExpiry stale) (.ok token), .asked q x,
        .called .getToken (.ok stale)] (op.result p x')

/-- The calls of the SDK over the token calls. -/
def tokenLayer : Layer (Option TokenState) HttpCall HttpReply κ Call (Except Error β)
    (Except Error String) where
  sub := Call.code p c.tokenManager
  calls k := TokenCalls p c (ops k)
  asks k := Attempts p c (ops k)
  ends k := Ends p c (ops k)

variable {p c ops}

/-- The program of a call is layered over the token calls. -/
theorem layered_code (k : κ) : (tokenLayer p c ops).Layered k [] ((ops k).code p c) := by
  unfold Operation.code
  rw [MpcClient.ApiCall.run_eq]
  cases hb : (ops k).call.build c with
  | error e => exact .outer (.ret (Ends.unbuilt hb))
  | ok build =>
      have hattempt : ∀ token, (ops k).Attempt c token ⟨.api, build token⟩ :=
        fun token => ⟨build, hb, rfl⟩
      dsimp only
      rw [send_run, Program.bind_assoc, Program.bind_assoc]
      refine Layer.Layered.call (L := tokenLayer p c ops) (i := .getToken) TokenCalls.getToken
        fun r => ?_
      cases r with
      | error e => exact .ret (Ends.noToken e)
      | ok token =>
          refine Layer.Outer.request (L := tokenLayer p c ops) (Attempts.first (hattempt token))
            fun reply => ?_
          have honce : ∀ r, finalResult p (ops k).fromSlice reply = r → ¬ AnsweredExpired p reply →
              Ends p c (ops k) [.asked ⟨.api, build token⟩ reply, .called .getToken (.ok token)]
                ((r.map (ops k).call.view).map (ops k).wrap) := by
            rintro r rfl hx
            exact Ends.once (hattempt token) hx
          dsimp only
          cases ha : attempt reply with
          | error e =>
              have hx : ¬ AnsweredExpired p reply := by
                rw [answeredExpired_iff, ha]
                simp
              refine .outer (.ret (honce (.error e) ?_ hx))
              unfold finalResult
              rw [ha]
          | ok a =>
              obtain ⟨status, bytes⟩ := a
              have hexpired : AnsweredExpired p reply ↔
                  (status == 401 && isTokenExpired p bytes) = true := by
                rw [answeredExpired_iff, ha]
                simp
              dsimp only
              by_cases hx : AnsweredExpired p reply
              · rw [if_pos (hexpired.mp hx)]
                change (tokenLayer p c ops).Layered k _ ((_ >>= _) >>= _)
                rw [Program.bind_assoc]
                refine Layer.Layered.call (L := tokenLayer p c ops) (i := .refreshAfterExpiry token)
                  (TokenCalls.refresh (hattempt token) hx) fun r' => ?_
                cases r' with
                | error e => exact .ret (Ends.noRefresh e (hattempt token) hx)
                | ok token' =>
                    exact Layer.Outer.request (L := tokenLayer p c ops)
                      (Attempts.second (hattempt token) hx (hattempt token')) fun reply' =>
                        .outer (.ret (Ends.twice reply' (hattempt token) hx (hattempt token')))
              · rw [if_neg (hexpired.not.mp hx)]
                refine .outer (.ret (honce _ ?_ hx))
                unfold finalResult
                rw [ha]

end layer

/-! ### The token calls give their guards back -/

section balanced
variable (p : Platform) (tm : TokenManager)

theorem balanced_conclude (o : AuthOutcome) : Code.Balanced true true (conclude p o) := by
  cases o with
  | failed e => rfl
  | rejected status body => exact ⟨trivial, fun _ => rfl⟩
  | granted tokResp =>
      unfold conclude install
      dsimp only
      split
      · trivial
      · refine ⟨trivial, fun now => ?_⟩
        dsimp only
        split
        · trivial
        · exact ⟨trivial, fun _ => rfl⟩

theorem balanced_exchange : Code.Balanced false true (exchange p tm) := by
  refine ⟨trivial, fun reply => ?_⟩
  exact Code.Balanced.bind (balanced_conclude p (authOutcome p reply)) fun r => ⟨trivial, fun _ => rfl⟩

theorem balanced_refresh (stale : Option String) : Code.Balanced false false (refresh p tm stale).run := by
  rw [refresh_run]
  refine ⟨rfl, fun _ => ⟨trivial, fun cached => ?_⟩⟩
  cases cached with
  | none => exact balanced_exchange p tm
  | some s =>
      refine ⟨trivial, fun now => ?_⟩
      dsimp only
      split
      · exact ⟨trivial, fun _ => rfl⟩
      · exact balanced_exchange p tm

theorem balanced_getToken : Code.Balanced false false (getToken p tm).run := by
  rw [getToken_run]
  refine ⟨rfl, fun _ => ⟨trivial, fun cached => ?_⟩⟩
  cases cached with
  | none => exact ⟨trivial, fun _ => balanced_refresh p tm none⟩
  | some s =>
      refine ⟨trivial, fun now => ⟨trivial, fun _ => ?_⟩⟩
      dsimp only
      split
      · rfl
      · exact balanced_refresh p tm none

theorem balanced_call (i : Call) : Code.Balanced false false (i.code p tm) := by
  cases i with
  | getToken => exact balanced_getToken p tm
  | refreshAfterExpiry stale => exact balanced_refresh p tm (some stale)

end balanced

/-! ### The system -/

/-- The timeout of an HTTP client of the SDK. -/
def MpcClient.timeout (c : MpcClient) : HttpClient → Duration
  | .auth => c.tokenManager.timeout
  | .api => c.config.timeout

/-- A request is over when its reply is in, and when its task is dropped. -/
def Gateway.after {κ : Type} (g : Gateway) : Move HttpReply κ → Gateway
  | .reply t _ | .drop t => g.settle t
  | .tick _ | .start _ _ | .grant _ => g

structure Application (κ β : Type) where
  tasks : SharedCell.State (Option TokenState) HttpCall HttpReply κ (Except Error β)
  gateway : Gateway

/-- A move of the tasks, or a token issued by the gateway. -/
inductive ApiAct (κ : Type) where
  | task (m : Move HttpReply κ)
  | issue (t : ℕ) (token : String) (lifetime : Int64)

namespace Application

variable {κ β : Type}

/-- A new client at a clock reading, with no call yet. -/
def initial (now : Instant) : Application κ β := ⟨State.initial none now, .initial⟩

abbrev cache (s : Application κ β) : Option TokenState := s.tasks.shared.cell

abbrev now (s : Application κ β) : Instant := s.tasks.shared.clock

/-- The request task `t` waits for, and since when. -/
def waitsFor (s : Application κ β) (t : ℕ) : Option (Instant × HttpCall) :=
  match s.tasks.tasks t with
  | some (_, .asked since q _) => some (since, q)
  | _ => none

theorem asked_of_waitsFor {s : Application κ β} {t : ℕ} {since : Instant} {q : HttpCall}
    (h : s.waitsFor t = some (since, q)) :
    ∃ k kont, s.tasks.tasks t = some (k, .asked since q kont) := by
  unfold waitsFor at h
  split at h
  · rename_i k since' q' kont ht
    cases h
    exact ⟨k, kont, ht⟩
  · cases h

variable (p : Platform) (c : MpcClient) (ops : κ → Operation β)

/-- A reply may arrive while the HTTP client still waits for it; one of the auth endpoint
grants the token issued in the exchange, if any. -/
def allows (s : Application κ β) : Move HttpReply κ → Bool
  | .reply t x =>
      (s.waitsFor t).any fun (since, q) =>
        (match x with
          | .ok _ => s.now ≤ since + c.timeout q.client
          | .error _ => true) &&
        (q.client = .api || s.gateway.honours t (authOutcome p x))
  | .tick _ | .start _ _ | .grant _ | .drop _ => true

def step (s : Application κ β) :
    ApiAct κ → Option (Application κ β × Option (Finish κ (Except Error β)))
  | .task m =>
      if s.allows p c m then
        (SharedCell.step (fun k => (ops k).code p c) s.tasks m).map fun r =>
          (⟨r.1, s.gateway.after m⟩, r.2)
      else none
  | .issue t token lifetime =>
      if (s.waitsFor t).any (·.2.client = .auth) && (s.gateway.pending t).isNone then
        some ({ s with gateway := s.gateway.issue t ⟨token, lifetime, s.now⟩ }, none)
      else none

/-- The client with its callers and the gateway. -/
def lts : Lts (Application κ β) (ApiAct κ) (Option (Finish κ (Except Error β))) := ⟨step p c ops⟩

/-- Every task makes the call of the test gateway. -/
def testOps : Unit → Operation Bytes := fun _ => ⟨.ok, testCall, id⟩

/-- The application at the test gateway. -/
abbrev testLts := lts testPlatform testClient testOps

/-- The run of the given moves at the test gateway. -/
abbrev testRun (acts : List (ApiAct Unit)) := testLts.play (initial 0) acts

/-- Task 1 logs in for `token-0`, which task 2 uses too; both attempts are answered expired, and
task 1 logs in once more for both. -/
def expiredTwice : List (ApiAct Unit) :=
  [.task (.start 1 ()), .task (.grant 1), .task (.grant 1), .issue 1 "token-0" 900,
    .task (.reply 1 (.text 200 tokenJson0)), .task (.start 2 ()), .task (.grant 2),
    .task (.reply 1 (.text 401 tokenExpiredJson)), .task (.reply 2 (.text 401 tokenExpiredJson)),
    .task (.grant 1), .issue 1 "token-1" 900, .task (.reply 1 (.text 200 tokenJson1)),
    .task (.grant 2), .task (.reply 2 (.text 200 "\x7b\x7d")),
    .task (.reply 1 (.text 200 "\x7b\x7d"))]

/-- What the callers see in that run. -/
theorem testRun_expiredTwice : (testRun expiredTwice).1.map (·.out) =
    List.replicate 13 none ++ [some ⟨2, (), some (.ok (utf8 "\x7b\x7d"))⟩,
      some ⟨1, (), some (.ok (utf8 "\x7b\x7d"))⟩] := by
  decide +kernel

end Application

/-! ### What the token calls return -/

namespace Protocol

section returned
variable {p : Platform} {tm : TokenManager} {a a' : Protocol} {act : Act} {o : Returned}

/-- The cached token is one of the gateway's. -/
theorem known_of_run {now : Instant} {tr : List (Entry Protocol Act Returned)}
    (h : (lts p tm).Run (initial now) tr a) {s : TokenState} (hs : a.cache = some s) :
    a.gateway.knows s.token = true := by
  induction h generalizing s with
  | nil => cases hs
  | @snoc tr e hr htook ih =>
      have hstep := step_of_took htook
      obtain hc | ⟨t, x, i, since, -, -, hh, -, hc⟩ := hstep.cache_cases
      · exact hstep.knows_mono (ih (hc ▸ hs))
      · rw [hc] at hs
        obtain hs | ⟨tokResp, ho, htok, -⟩ := settle_cache hs
        · exact hstep.knows_mono (ih hs)
        · obtain ⟨j, hj, hjt, -⟩ := pending_of_granted hh ho
          have hk := (inv_of_run hr).pending_known hj
          rw [hjt, htok] at hk
          exact hstep.knows_mono hk

/-- A token call returns a token of the gateway. -/
theorem returned_known (hI : Inv a)
    (hknown : ∀ s, a.cache = some s → a.gateway.knows s.token = true) (h : Step p tm a act o a') {t : ℕ} {i : Call} {token : String}
    (ho : o = some ⟨t, i, some (.ok token)⟩) : a'.gateway.knows token = true := by
  obtain ⟨x, since, tokResp, j, -, -, -, -, hj, hjt⟩ | ⟨-, s, hs, hst, -⟩ := h.returned ho
  · have hk := hI.pending_known hj
    rw [hjt] at hk
    exact h.knows_mono hk
  · have hk := hknown s hs
    rw [hst] at hk
    exact h.knows_mono hk

/-- A token call returns another token than it reported. -/
theorem Reported.not_returned {token : String} (hR : Reported token a) (h : Step p tm a act o a')
    (t : ℕ) : o ≠ some ⟨t, .refreshAfterExpiry token, some (.ok token)⟩ := by
  intro ho
  rcases h.finish_cases ho with ⟨s, -, -, -, -, hr, ⟨hcall, -⟩ | ⟨-, hre⟩⟩ |
    ⟨x, since, -, hu, hh, hr, -, -⟩
  · cases hcall
  · cases hr
    simp [reusable, Call.stale] at hre
  · obtain ⟨tokResp, d, hout, htok, -⟩ := settle_ok hr
    obtain ⟨j, hj, hjt, -⟩ := pending_of_granted hh hout
    exact hR.fresh t since j hu hj (hjt.trans htok)

end returned

end Protocol

end ParatroSdk
