import ParatroSdk.CreateTransaction

/-! # Replayed replies

Any number of tasks create transactions on one client while a gateway answers them.  The
gateway keeps the body of the first answer under an idempotency key, for as long as the run
lasts, and repeats it for every further request with that key, always with status 200.  Callers
use a key for one request only.  How the gateway reads a key from its header is left open
(`readKey`): as it stands, or without the spaces around it.

An answer may be lost on its way, a request may be refused or fail, also after it was answered,
and a request that was given up may still be answered. -/

namespace ParatroSdk

open Serde Text Interaction SharedCell Transition

/-! ### The gateway -/

/-- What the gateway makes of a transaction request: a transfer queued for signing, a call that
was broadcast, or a call whose outcome is unknown. -/
inductive Verdict where
  | queued
  | broadcast
  | accepted
deriving DecidableEq, Repr

namespace Verdict

/-- The HTTP status of the original answer. -/
def httpStatus : Verdict → ℕ
  | .queued | .broadcast => 200
  | .accepted => 202

/-- The `status` in the body. -/
def status : Verdict → String
  | .queued | .accepted => statusPending
  | .broadcast => statusBroadcast

/-- The operations with this verdict. -/
def judges : Verdict → String → Bool
  | .queued, operation => operation == operationTransfer
  | .broadcast, operation | .accepted, operation =>
      operation == operationProgramCall || operation == operationContractCall

end Verdict

/-- An answer of status 2xx. -/
structure Answer where
  verdict : Verdict
  body : Bytes
deriving DecidableEq

/-- An answer on its way to the caller, with the HTTP status it is sent with. -/
structure Sent where
  status : ℕ
  answer : Answer
deriving DecidableEq

/-- The answers cached by key, and those on their way to a task. -/
structure PaymentGateway where
  cached : String → Option Answer
  sent : ℕ → Option Sent

/-- The `operation` of a body. -/
def operationIn (json : SerdeJson) (body : Bytes) : Option String :=
  match json.tree body with
  | .ok (.object ms) =>
      match member ms "operation" with
      | some (.string operation) => some operation
      | _ => none
  | _ => none

namespace PaymentGateway

def initial : PaymentGateway := ⟨fun _ => none, fun _ => none⟩

/-- The answer suits the operation in the body of the request and says so in its own. -/
def admits (json : SerdeJson) (body : Bytes) (a : Answer) : Bool :=
  (operationIn json body).any a.verdict.judges &&
    match CreateTransactionResponse.fromSlice json a.body with
    | .ok resp => resp.status == a.verdict.status
    | .error _ => false

/-- Send an answer to task `t`. -/
def send (g : PaymentGateway) (t : ℕ) (s : Sent) : PaymentGateway :=
  { g with sent := Function.update g.sent t (some s) }

/-- Keep an answer under a key. -/
def keep (g : PaymentGateway) (key : String) (a : Answer) : PaymentGateway :=
  { g with cached := Function.update g.cached key (some a) }

/-- Nothing is on its way to task `t` any more. -/
def clear (g : PaymentGateway) (t : ℕ) : PaymentGateway :=
  { g with sent := Function.update g.sent t none }

section answers
variable (readKey : String → String)

/-- The answer to an earlier request with the same key. -/
def earlier (g : PaymentGateway) (request : Request) : Option Answer :=
  (idempotencyKeyOf readKey request).bind g.cached

/-- Execute a request with the outcome `a`, which is kept under the key. -/
def execute (g : PaymentGateway) (json : SerdeJson) (request : Request) (a : Answer) :
    Option PaymentGateway :=
  if request.body.any fun body => admits json body a then
    match idempotencyKeyOf readKey request with
    | some key => some (g.keep key a)
    | none => some g
  else none

/-- Answer the request of task `t`: repeat the answer to an earlier one with its key, or execute
it. -/
def serve (g : PaymentGateway) (json : SerdeJson) (t : ℕ) (request : Request) (a : Answer) :
    Option PaymentGateway :=
  match g.earlier readKey request with
  | some original => some (g.send t ⟨200, original⟩)
  | none => (g.execute readKey json request a).map (·.send t ⟨a.verdict.httpStatus, a⟩)

/-- Answer a request that was given up, unless there is an answer to an earlier one. -/
def serveLate (g : PaymentGateway) (json : SerdeJson) (request : Request) (a : Answer) :
    Option PaymentGateway :=
  match g.earlier readKey request with
  | some _ => none
  | none => g.execute readKey json request a

end answers

end PaymentGateway

/-! ### The system -/

/-- A call returned. -/
abbrev CallReturned (json : SerdeJson) :=
  Option (Finish (CreateCall json) (Except Error CreateTransactionResponse))

/-- The tasks, the gateway, and which request the callers use a key for. -/
structure Payments (json : SerdeJson) where
  tasks : SharedCell.State (Option TokenState) HttpCall HttpReply (CreateCall json)
    (Except Error CreateTransactionResponse)
  gateway : PaymentGateway
  keys : String → Option (CreateCall json)

inductive PaymentAct (json : SerdeJson) where
  | tick (d : ℕ)
  | call (t : ℕ) (call : CreateCall json)
  | grant (t : ℕ)
  | auth (t : ℕ) (x : HttpReply)
  | serve (t : ℕ) (a : Answer)
  | serveLate (key token : String) (a : Answer)
  | deliver (t : ℕ)
  | fail (t : ℕ) (x : HttpReply)
  | drop (t : ℕ)

/-- The gateway answers. -/
def PaymentAct.serves {json : SerdeJson} : PaymentAct json → Bool
  | .serve _ _ | .serveLate _ _ _ => true
  | _ => false

/-- No answer of status 2xx: the gateway refuses, or no whole reply arrives. -/
def refuses : HttpReply → Bool
  | .error _ => true
  | .ok resp =>
      match resp.body with
      | .error _ => true
      | .ok _ => 400 ≤ resp.status

namespace Payments

variable {json : SerdeJson} (p : Platform) (c : MpcClient) (readKey : String → String)

def initial (cache : Option TokenState) (now : Instant) : Payments json :=
  ⟨State.initial cache now, .initial, fun _ => none⟩

/-- A move of the tasks, the rest done. -/
def move (s : Payments json) (m : Move HttpReply (CreateCall json)) (g : PaymentGateway)
    (keys : String → Option (CreateCall json)) : Option (Payments json × CallReturned json) :=
  (SharedCell.step (CreateCall.code p c) s.tasks m).map fun r => (⟨r.1, g, keys⟩, r.2)

/-- The request that task `t` waits on. -/
def asked (s : Payments json) (t : ℕ) : Option HttpCall :=
  match s.tasks.tasks t with
  | some (_, .asked _ q _) => some q
  | _ => none

/-- A key stands for one request. -/
def mayUse (s : Payments json) (call : CreateCall json) : Bool :=
  (call.wireKey readKey).all fun key => (s.keys key).all fun used => used.request = call.request

/-- Note the key of a call. -/
def note (s : Payments json) (call : CreateCall json) : String → Option (CreateCall json) :=
  match call.wireKey readKey with
  | some key => Function.update s.keys key (some call)
  | none => s.keys

def step (s : Payments json) : PaymentAct json → Option (Payments json × CallReturned json)
  | .tick d => s.move p c (.tick d) s.gateway s.keys
  | .call t call =>
      if s.mayUse readKey call then s.move p c (.start t call) s.gateway (s.note readKey call)
      else none
  | .grant t => s.move p c (.grant t) s.gateway s.keys
  | .auth t x =>
      match s.asked t with
      | some ⟨.auth, _⟩ => s.move p c (.reply t x) s.gateway s.keys
      | _ => none
  | .serve t a =>
      match s.asked t with
      | some ⟨.api, request⟩ =>
          if (s.gateway.sent t).isNone then
            (s.gateway.serve readKey json t request a).map fun g => ({ s with gateway := g }, none)
          else none
      | _ => none
  | .serveLate key token a =>
      match s.keys key with
      | some used =>
          (s.gateway.serveLate readKey json (used.build c token) a).map fun g =>
            ({ s with gateway := g }, none)
      | none => none
  | .deliver t =>
      match s.gateway.sent t with
      | some sent =>
          s.move p c (.reply t (.ok ⟨sent.status, .ok sent.answer.body⟩)) (s.gateway.clear t) s.keys
      | none => none
  | .fail t x =>
      match s.asked t with
      | some ⟨.api, _⟩ =>
          if refuses x then s.move p c (.reply t x) (s.gateway.clear t) s.keys else none
      | _ => none
  | .drop t => s.move p c (.drop t) (s.gateway.clear t) s.keys

/-- The callers with the gateway. -/
def lts : Lts (Payments json) (PaymentAct json) (CallReturned json) := ⟨step p c readKey⟩

/-! ### What an action does -/

/-- The moves of the tasks, with the gateway and the keys they leave. -/
inductive Moves (readKey : String → String) (s : Payments json) :
    Move HttpReply (CreateCall json) → PaymentGateway → (String → Option (CreateCall json)) → Prop
  | tick (d : ℕ) : Moves readKey s (.tick d) s.gateway s.keys
  | call (t : ℕ) {call : CreateCall json} (h : s.mayUse readKey call = true) :
      Moves readKey s (.start t call) s.gateway (s.note readKey call)
  | grant (t : ℕ) : Moves readKey s (.grant t) s.gateway s.keys
  | auth {t : ℕ} (x : HttpReply) {request : Request} (h : s.asked t = some ⟨.auth, request⟩) :
      Moves readKey s (.reply t x) s.gateway s.keys
  | deliver {t : ℕ} {x : Sent} (h : s.gateway.sent t = some x) :
      Moves readKey s (.reply t (.ok ⟨x.status, .ok x.answer.body⟩)) (s.gateway.clear t) s.keys
  | fail (t : ℕ) {x : HttpReply} (h : refuses x = true) :
      Moves readKey s (.reply t x) (s.gateway.clear t) s.keys
  | drop (t : ℕ) : Moves readKey s (.drop t) (s.gateway.clear t) s.keys

theorem Moves.cached_eq {s : Payments json} {m : Move HttpReply (CreateCall json)}
    {g : PaymentGateway} {keys : String → Option (CreateCall json)} (h : s.Moves readKey m g keys) :
    g.cached = s.gateway.cached := by
  cases h <;> rfl

/-- The gateway answers a request under way, or one that was given up. -/
inductive Serves (c : MpcClient) (readKey : String → String) (s : Payments json) :
    PaymentAct json → PaymentGateway → Prop
  | serve {t : ℕ} {request : Request} {a : Answer} {g : PaymentGateway}
      (hasked : s.asked t = some ⟨.api, request⟩)
      (h : s.gateway.serve readKey json t request a = some g) : Serves c readKey s (.serve t a) g
  | late {key token : String} {used : CreateCall json} {a : Answer} {g : PaymentGateway}
      (hused : s.keys key = some used)
      (h : s.gateway.serveLate readKey json (used.build c token) a = some g) :
      Serves c readKey s (.serveLate key token a) g

section steps
variable {p : Platform} {c : MpcClient} {readKey : String → String} {s s' : Payments json}
  {o : CallReturned json}

theorem move_eq_some {m : Move HttpReply (CreateCall json)} {g : PaymentGateway}
    {keys : String → Option (CreateCall json)} (h : s.move p c m g keys = some (s', o)) :
    ∃ st', SharedCell.step (CreateCall.code p c) s.tasks m = some (st', o) ∧
      s' = ⟨st', g, keys⟩ := by
  obtain ⟨r, hr, heq⟩ := Option.map_eq_some_iff.mp h
  cases heq
  exact ⟨r.1, hr, rfl⟩

/-- An action moves the tasks or lets the gateway answer. -/
theorem step_cases {act : PaymentAct json} (h : step p c readKey s act = some (s', o)) :
    (∃ m g keys st', s.Moves readKey m g keys ∧
      SharedCell.step (CreateCall.code p c) s.tasks m = some (st', o) ∧ s' = ⟨st', g, keys⟩ ∧
        act.serves = false) ∨
    ∃ g, s.Serves c readKey act g ∧ s' = { s with gateway := g } ∧ o = none := by
  have hmoves : ∀ {m g keys}, act.serves = false → s.Moves readKey m g keys →
      s.move p c m g keys = some (s', o) → ∃ m g keys st', s.Moves readKey m g keys ∧
        SharedCell.step (CreateCall.code p c) s.tasks m = some (st', o) ∧ s' = ⟨st', g, keys⟩ ∧
          act.serves = false := by
    intro m g keys hact hm hmove
    obtain ⟨st', hst', hs'⟩ := move_eq_some hmove
    exact ⟨m, g, keys, st', hm, hst', hs', hact⟩
  cases act with
  | tick d => exact .inl (hmoves rfl (.tick d) h)
  | grant t => exact .inl (hmoves rfl (.grant t) h)
  | drop t => exact .inl (hmoves rfl (.drop t) h)
  | call t call =>
      unfold step at h
      dsimp only at h
      split at h
      · exact .inl (hmoves rfl (.call t (by assumption)) h)
      · cases h
  | auth t x =>
      unfold step at h
      dsimp only at h
      split at h
      · exact .inl (hmoves rfl (.auth x (by assumption)) h)
      · cases h
  | deliver t =>
      unfold step at h
      dsimp only at h
      split at h
      · exact .inl (hmoves rfl (.deliver (by assumption)) h)
      · cases h
  | fail t x =>
      unfold step at h
      dsimp only at h
      split at h
      · split at h
        · exact .inl (hmoves rfl (.fail t (by assumption)) h)
        · cases h
      · cases h
  | serve t a =>
      unfold step at h
      dsimp only at h
      split at h
      · rename_i request hasked
        split at h
        · obtain ⟨g, hserve, heq⟩ := Option.map_eq_some_iff.mp h
          cases heq
          exact .inr ⟨g, .serve hasked hserve, rfl, rfl⟩
        · cases h
      · cases h
  | serveLate key token a =>
      unfold step at h
      dsimp only at h
      split at h
      · rename_i used hused
        obtain ⟨g, hserve, heq⟩ := Option.map_eq_some_iff.mp h
        cases heq
        exact .inr ⟨g, .late hused hserve, rfl, rfl⟩
      · cases h

end steps

end Payments

/-! ### What the gateway reads of a request -/

/-- The answer is one to the request: its verdict suits the operation, and its body has the
verdict's status. -/
structure Answer.Suits (json : SerdeJson) (a : Answer) (req : CreateTransactionRequest) : Prop where
  judges : a.verdict.judges req.operation = true
  reads : ∃ resp, CreateTransactionResponse.fromSlice json a.body = .ok resp ∧
    resp.status = a.verdict.status

section requests
variable {json : SerdeJson} {p : Platform} {c : MpcClient}

/-- The gateway reads the operation that the request carries. -/
theorem operationIn_serialize {req : CreateTransactionRequest} (h : json.RoundTrips req.serialize) :
    operationIn json (json.toVec req.serialize) = some req.operation := by
  obtain ⟨ms, hms, -, hmember⟩ := req.hasMember_operation
  unfold operationIn
  rw [h, hms]
  dsimp only
  rw [hmember]

theorem suits_of_admits {req : CreateTransactionRequest} (h : json.RoundTrips req.serialize)
    {a : Answer} (ha : PaymentGateway.admits json (json.toVec req.serialize) a = true) :
    a.Suits json req := by
  unfold PaymentGateway.admits at ha
  rw [operationIn_serialize h, Option.any_some, Bool.and_eq_true] at ha
  obtain ⟨hjudges, hbody⟩ := ha
  refine ⟨hjudges, ?_⟩
  split at hbody
  · rename_i resp hresp
    exact ⟨resp, hresp, beq_iff_eq.mp hbody⟩
  · cases hbody

/-- A request under way is one that its call builds. -/
theorem build_of_asked {s : Payments json} (hf : s.tasks.Followed (CreateCall.code p c)) {t : ℕ}
    {call : CreateCall json} {since : Instant} {request : Request}
    {k : HttpReply → SdkCode (Except Error CreateTransactionResponse)}
    (htask : s.tasks.tasks t = some (call, .asked since ⟨.api, request⟩ k)) :
    ∃ token, request = call.build c token := by
  obtain ⟨es, es', r, htrace⟩ := hf.asked htask (alone none 0 [] [])
  have hmem : (⟨.api, request⟩, .error ⟨"connection refused"⟩) ∈
      apiAttempts (es ++ ⟨.request ⟨.api, request⟩, .error ⟨"connection refused"⟩⟩ :: es') := by
    rw [apiAttempts_append]
    exact List.mem_append_right _ List.mem_cons_self
  exact CreateCall.attempt_build htrace _ hmem

end requests

/-! ### The invariant -/

/-- An answer on its way to a call: the original one, or one repeated under the call's key. -/
structure Sent.Replies {json : SerdeJson} (readKey : String → String) (s : Sent)
    (g : PaymentGateway) (call : CreateCall json) : Prop where
  suits : s.answer.Suits json call.request
  status : s.status = s.answer.verdict.httpStatus ∨ s.status = 200
  original : ∀ key, call.wireKey readKey = some key → g.cached key = some s.answer

namespace Payments

variable {json : SerdeJson} {p : Platform} {c : MpcClient} {readKey : String → String}

structure Inv (p : Platform) (c : MpcClient) (readKey : String → String) (s : Payments json) :
    Prop where
  followed : s.tasks.Followed (CreateCall.code p c)
  keyed : ∀ t call w key, s.tasks.tasks t = some (call, w) → call.wireKey readKey = some key →
    ∃ used, s.keys key = some used ∧ used.request = call.request
  named : ∀ key used, s.keys key = some used → used.wireKey readKey = some key
  cached : ∀ key a, s.gateway.cached key = some a →
    ∃ used, s.keys key = some used ∧ a.Suits json used.request
  sent : ∀ t x, s.gateway.sent t = some x → ∃ call since request k,
    s.tasks.tasks t = some (call, .asked since ⟨.api, request⟩ k) ∧ x.Replies readKey s.gateway call

theorem inv_initial (cache : Option TokenState) (now : Instant) :
    (initial cache now : Payments json).Inv p c readKey where
  followed := followed_initial _ _ _
  keyed t call w key htask := by cases htask
  named key used hused := by cases hused
  cached key a ha := by cases ha
  sent t x hx := by cases hx

/-- An action that lets a task go on finds no answer on its way to it, or takes it. -/
theorem Inv.not_sent {s : Payments json} (h : s.Inv p c readKey) {t : ℕ}
    (ht : ∀ request, s.asked t ≠ some ⟨.api, request⟩) {u : ℕ} {x : Sent}
    (hx : s.gateway.sent u = some x) : some t ≠ some u := by
  rintro hut
  obtain rfl := Option.some.inj hut
  obtain ⟨call, since, request, k, htask, -⟩ := h.sent t x hx
  refine ht request ?_
  unfold asked
  rw [htask]

theorem sent_clear {g : PaymentGateway} {t u : ℕ} {x : Sent} (h : (g.clear t).sent u = some x) :
    g.sent u = some x ∧ some t ≠ some u := by
  unfold PaymentGateway.clear at h
  dsimp only at h
  rw [Function.update_apply] at h
  split at h
  · cases h
  · rename_i hne
    exact ⟨h, fun hut => hne (Option.some.inj hut).symm⟩

/-- What is cached stays cached. -/
def Extends (g g' : PaymentGateway) : Prop :=
  ∀ key a, g.cached key = some a → g'.cached key = some a

theorem extends_keep {g : PaymentGateway} {key : String} (a : Answer) (h : g.cached key = none) :
    Extends g (g.keep key a) := by
  intro key' a' ha
  have hne : key' ≠ key := by
    rintro rfl
    rw [h] at ha
    cases ha
  exact (Function.update_of_ne hne _ _).trans ha

/-- What executing a request does to the gateway. -/
theorem execute_cases {g g' : PaymentGateway} {request : Request} {a : Answer}
    (h : g.execute readKey json request a = some g') :
    (request.body.any fun body => PaymentGateway.admits json body a) = true ∧
      ((∃ key, idempotencyKeyOf readKey request = some key ∧ g' = g.keep key a) ∨
        idempotencyKeyOf readKey request = none ∧ g' = g) := by
  unfold PaymentGateway.execute at h
  split at h
  · rename_i hadmits
    refine ⟨hadmits, ?_⟩
    cases hkey : idempotencyKeyOf readKey request with
    | none =>
        rw [hkey] at h
        exact .inr ⟨rfl, (Option.some.inj h).symm⟩
    | some key =>
        rw [hkey] at h
        exact .inl ⟨key, rfl, (Option.some.inj h).symm⟩
  · cases h

/-- How a request is answered. -/
theorem serve_cases {g g' : PaymentGateway} {t : ℕ} {request : Request} {a : Answer}
    (h : g.serve readKey json t request a = some g') :
    (∃ key original, idempotencyKeyOf readKey request = some key ∧ g.cached key = some original ∧
      g' = g.send t ⟨200, original⟩) ∨
    (g.earlier readKey request = none ∧ ∃ g₁, g.execute readKey json request a = some g₁ ∧
      g' = g₁.send t ⟨a.verdict.httpStatus, a⟩) := by
  unfold PaymentGateway.serve at h
  split at h
  · rename_i original horiginal
    obtain ⟨key, hkey, hcached⟩ := Option.bind_eq_some_iff.mp horiginal
    exact .inl ⟨key, original, hkey, hcached, (Option.some.inj h).symm⟩
  · rename_i hnone
    obtain ⟨g₁, hg₁, heq⟩ := Option.map_eq_some_iff.mp h
    exact .inr ⟨hnone, g₁, hg₁, heq.symm⟩

theorem serveLate_cases {g g' : PaymentGateway} {request : Request} {a : Answer}
    (h : g.serveLate readKey json request a = some g') :
    g.earlier readKey request = none ∧ g.execute readKey json request a = some g' := by
  unfold PaymentGateway.serveLate at h
  split at h
  · cases h
  · exact ⟨by assumption, h⟩

theorem extends_execute {g g' : PaymentGateway} {request : Request} {a : Answer}
    (hnone : g.earlier readKey request = none) (h : g.execute readKey json request a = some g') :
    Extends g g' := by
  obtain ⟨-, ⟨key, hkey, rfl⟩ | ⟨-, rfl⟩⟩ := execute_cases h
  · unfold PaymentGateway.earlier at hnone
    rw [hkey] at hnone
    exact extends_keep a hnone
  · exact fun _ _ ha => ha

theorem extends_serve {g g' : PaymentGateway} {t : ℕ} {request : Request} {a : Answer}
    (h : g.serve readKey json t request a = some g') : Extends g g' := by
  obtain ⟨key, original, -, -, rfl⟩ | ⟨hnone, g₁, hg₁, rfl⟩ := serve_cases h
  · exact fun _ _ ha => ha
  · have hext : Extends g g₁ := extends_execute hnone hg₁
    exact hext

theorem Serves.extends {s : Payments json} {act : PaymentAct json} {g : PaymentGateway}
    (h : s.Serves c readKey act g) : Extends s.gateway g := by
  cases h with
  | serve hasked hserve => exact extends_serve hserve
  | late hused hserve =>
      obtain ⟨hnone, hexec⟩ := serveLate_cases hserve
      exact extends_execute hnone hexec

theorem replies_of_extends {x : Sent} {g g' : PaymentGateway} {call : CreateCall json}
    (h : x.Replies readKey g call) (hext : Extends g g') : x.Replies readKey g' call :=
  ⟨h.suits, h.status, fun key hkey => hext key _ (h.original key hkey)⟩

/-- The gateway keeps the invariant with an answer that suits the request of its key and one
that replies to the call it is sent to. -/
theorem Inv.of_gateway {s : Payments json} {g : PaymentGateway} (h : s.Inv p c readKey)
    (hext : Extends s.gateway g)
    (hcached : ∀ key a, g.cached key = some a → s.gateway.cached key = some a ∨
      ∃ used, s.keys key = some used ∧ a.Suits json used.request)
    (hsent : ∀ t x, g.sent t = some x → s.gateway.sent t = some x ∨ ∃ call since request k,
      s.tasks.tasks t = some (call, .asked since ⟨.api, request⟩ k) ∧ x.Replies readKey g call) :
    Inv p c readKey { s with gateway := g } where
  followed := h.followed
  keyed := h.keyed
  named := h.named
  cached key a ha := by
    obtain ha | hnew := hcached key a ha
    · exact h.cached key a ha
    · exact hnew
  sent t x hx := by
    obtain hx | hnew := hsent t x hx
    · obtain ⟨call, since, request, k, htask, hreplies⟩ := h.sent t x hx
      exact ⟨call, since, request, k, htask, replies_of_extends hreplies hext⟩
    · exact hnew

theorem asked_eq_some {s : Payments json} {t : ℕ} {q : HttpCall} (h : s.asked t = some q) :
    ∃ call since k, s.tasks.tasks t = some (call, .asked since q k) := by
  unfold asked at h
  split at h
  · rename_i call since q' k htask
    obtain rfl := Option.some.inj h
    exact ⟨call, since, k, htask⟩
  · cases h

theorem sent_send {g : PaymentGateway} {t u : ℕ} {x y : Sent} (h : (g.send t x).sent u = some y) :
    u = t ∧ y = x ∨ g.sent u = some y := by
  unfold PaymentGateway.send at h
  dsimp only at h
  rw [Function.update_apply] at h
  split at h
  · rename_i hut
    exact .inl ⟨hut, (Option.some.inj h).symm⟩
  · exact .inr h

theorem cached_keep {g : PaymentGateway} {key key' : String} {a a' : Answer}
    (h : (g.keep key a).cached key' = some a') : key' = key ∧ a' = a ∨ g.cached key' = some a' := by
  unfold PaymentGateway.keep at h
  dsimp only at h
  rw [Function.update_apply] at h
  split at h
  · rename_i hk
    exact .inl ⟨hk, (Option.some.inj h).symm⟩
  · exact .inr h

/-- A fresh answer suits the request of the call that it is the answer to, and what is cached
suits the requests of the keys. -/
theorem executed {s : Payments json} {call : CreateCall json} {token : String} {a : Answer}
    {g : PaymentGateway}
    (hkeyed : ∀ key, call.wireKey readKey = some key →
      ∃ used, s.keys key = some used ∧ used.request = call.request)
    (hexec : s.gateway.execute readKey json (call.build c token) a = some g) :
    a.Suits json call.request ∧ (∀ key, call.wireKey readKey = some key → g.cached key = some a) ∧
      (∀ key a', g.cached key = some a' → s.gateway.cached key = some a' ∨
        ∃ used, s.keys key = some used ∧ a'.Suits json used.request) ∧
      g.sent = s.gateway.sent := by
  obtain ⟨hadmits, hkey⟩ := execute_cases hexec
  have hsuits : a.Suits json call.request := suits_of_admits call.exact hadmits
  rw [CreateCall.idempotencyKeyOf_build] at hkey
  refine ⟨hsuits, ?_⟩
  obtain ⟨key, hk, rfl⟩ | ⟨hk, rfl⟩ := hkey
  · obtain ⟨used, hused, hreq⟩ := hkeyed key hk
    refine ⟨fun key' hk' => ?_, fun key' a' ha' => ?_, rfl⟩
    · obtain rfl := Option.some.inj (hk.symm.trans hk')
      exact Function.update_self _ _ _
    · obtain ⟨rfl, rfl⟩ | ha' := cached_keep ha'
      · exact .inr ⟨used, hused, hreq ▸ hsuits⟩
      · exact .inl ha'
  · refine ⟨fun key hk' => ?_, fun _ _ ha' => .inl ha', rfl⟩
    cases hk.symm.trans hk'

theorem Inv.serve {s : Payments json} {t : ℕ} {request : Request} {a : Answer} {g : PaymentGateway}
    (h : s.Inv p c readKey) (hasked : s.asked t = some ⟨.api, request⟩)
    (hserve : s.gateway.serve readKey json t request a = some g) :
    Inv p c readKey { s with gateway := g } := by
  obtain ⟨call, since, k, htask⟩ := asked_eq_some hasked
  obtain ⟨token, rfl⟩ := build_of_asked h.followed htask
  have hkeyed : ∀ key, call.wireKey readKey = some key →
      ∃ used, s.keys key = some used ∧ used.request = call.request :=
    fun key hk => h.keyed t call _ key htask hk
  have hext := extends_serve hserve
  -- the answer goes to this task, the others keep theirs
  have hsend : ∀ {g₁ : PaymentGateway} {x : Sent}, g₁.sent = s.gateway.sent →
      x.Replies readKey (g₁.send t x) call → ∀ u y, (g₁.send t x).sent u = some y →
        s.gateway.sent u = some y ∨ ∃ call since request k,
          s.tasks.tasks u = some (call, .asked since ⟨.api, request⟩ k) ∧
            y.Replies readKey (g₁.send t x) call := by
    intro g₁ x hg₁ hx u y hy
    obtain ⟨rfl, rfl⟩ | hy := sent_send hy
    · exact .inr ⟨call, since, _, k, htask, hx⟩
    · exact .inl (hg₁ ▸ hy)
  obtain ⟨key, original, hk, hcached, rfl⟩ | ⟨-, g₁, hexec, rfl⟩ := serve_cases hserve
  · -- the key is known, so its first answer suits this request as well
    rw [CreateCall.idempotencyKeyOf_build] at hk
    obtain ⟨used, hused, hsuits⟩ := h.cached key original hcached
    obtain ⟨used', hused', hreq⟩ := hkeyed key hk
    obtain rfl := Option.some.inj (hused.symm.trans hused')
    refine h.of_gateway hext (fun _ _ ha => .inl ha) (hsend rfl ⟨hreq ▸ hsuits, .inr rfl, ?_⟩)
    intro key' hk'
    obtain rfl := Option.some.inj (hk.symm.trans hk')
    exact hcached
  · obtain ⟨hsuits, hcached, hcache, hsent⟩ := executed hkeyed hexec
    exact h.of_gateway hext hcache (hsend hsent ⟨hsuits, .inl rfl, hcached⟩)

/-- A key that may be used is noted for the same request. -/
theorem note_spec {s : Payments json} {call : CreateCall json} (h : s.mayUse readKey call = true) :
    (∀ key used, s.keys key = some used →
      ∃ used', s.note readKey call key = some used' ∧ used'.request = used.request) ∧
    ∀ key, call.wireKey readKey = some key →
      ∃ used, s.note readKey call key = some used ∧ used.request = call.request := by
  unfold mayUse at h
  unfold note
  cases hkey : call.wireKey readKey with
  | none => exact ⟨fun key used hused => ⟨used, hused, rfl⟩, nofun⟩
  | some key =>
      rw [hkey, Option.all_some] at h
      dsimp only
      refine ⟨fun key' used hused => ?_, fun key' hk => ?_⟩
      · rw [Function.update_apply]
        split
        · rename_i hk
          subst hk
          rw [hused, Option.all_some, decide_eq_true_eq] at h
          exact ⟨call, rfl, h.symm⟩
        · exact ⟨used, hused, rfl⟩
      · obtain rfl := Option.some.inj hk
        exact ⟨call, Function.update_self _ _ _, rfl⟩

/-- A key is noted for calls with that key. -/
theorem note_named {s : Payments json} {call : CreateCall json}
    (h : ∀ key used, s.keys key = some used → used.wireKey readKey = some key) {key : String}
    {used : CreateCall json} (hused : s.note readKey call key = some used) :
    used.wireKey readKey = some key := by
  unfold note at hused
  cases hkey : call.wireKey readKey with
  | none =>
      rw [hkey] at hused
      exact h key used hused
  | some key' =>
      rw [hkey] at hused
      dsimp only at hused
      rw [Function.update_apply] at hused
      split at hused
      · rename_i heq
        rw [← Option.some.inj hused, heq, hkey]
      · exact h key used hused

section moves
variable {s : Payments json} {m : Move HttpReply (CreateCall json)} {g : PaymentGateway}
  {keys : String → Option (CreateCall json)} {o : CallReturned json}
  {st' : SharedCell.State (Option TokenState) HttpCall HttpReply (CreateCall json)
    (Except Error CreateTransactionResponse)}

/-- Keys stay noted, and the key of a call that starts is. -/
theorem Moves.noted (hm : s.Moves readKey m g keys) :
    (∀ key used, s.keys key = some used →
      ∃ used', keys key = some used' ∧ used'.request = used.request) ∧
    ∀ t call, m = .start t call → ∀ key, call.wireKey readKey = some key →
      ∃ used, keys key = some used ∧ used.request = call.request := by
  cases hm with
  | call t hmay =>
      obtain ⟨hnoted, hcall⟩ := note_spec hmay
      refine ⟨hnoted, fun u call' hm => ?_⟩
      cases hm
      exact hcall
  | tick d | grant t | auth x h | deliver h | fail t h | drop t =>
      exact ⟨fun key used hused => ⟨used, hused, rfl⟩, fun u call hm => by cases hm⟩

theorem Moves.named (hm : s.Moves readKey m g keys)
    (h : ∀ key used, s.keys key = some used → used.wireKey readKey = some key) :
    ∀ key used, keys key = some used → used.wireKey readKey = some key := by
  cases hm with
  | call t hmay => exact fun key used hused => note_named h hused
  | tick d | grant t | auth x h' | deliver h' | fail t h' | drop t => exact h

/-- An answer stays on its way only to a task that is not moved. -/
theorem Inv.unmoved (h : s.Inv p c readKey) (hm : s.Moves readKey m g keys)
    (hstep : SharedCell.step (CreateCall.code p c) s.tasks m = some (st', o)) {t : ℕ} {x : Sent}
    (hx : g.sent t = some x) : s.gateway.sent t = some x ∧ m.task ≠ some t := by
  cases hm with
  | tick d => exact ⟨hx, fun hm => by cases hm⟩
  | call u hmay =>
      refine ⟨hx, h.not_sent (fun r hr => ?_) hx⟩
      unfold asked at hr
      rw [tasks_of_start hstep] at hr
      cases hr
  | grant u =>
      refine ⟨hx, h.not_sent (fun r hr => ?_) hx⟩
      obtain ⟨call, m, q, htask⟩ := tasks_of_grant hstep
      unfold asked at hr
      rw [htask] at hr
      cases hr
  | auth y hasked =>
      refine ⟨hx, h.not_sent (fun r hr => ?_) hx⟩
      rw [hasked] at hr
      cases hr
  | deliver hy => exact sent_clear hx
  | fail u hrefuses => exact sent_clear hx
  | drop u => exact sent_clear hx

theorem Inv.moves (h : s.Inv p c readKey) (hm : s.Moves readKey m g keys)
    (hstep : SharedCell.step (CreateCall.code p c) s.tasks m = some (st', o)) :
    Inv p c readKey ⟨st', g, keys⟩ where
  followed := h.followed.step hstep
  keyed t call w key htask hkey := by
    obtain ⟨hkeys, hstart⟩ := hm.noted
    obtain heq | ⟨w', htask'⟩ := h.followed.call hstep htask
    · exact hstart t call heq key hkey
    · obtain ⟨used, hused, hreq⟩ := h.keyed t call w' key htask' hkey
      obtain ⟨used', hused', hreq'⟩ := hkeys key used hused
      exact ⟨used', hused', hreq'.trans hreq⟩
  named := hm.named h.named
  cached key a ha := by
    obtain ⟨used, hused, hsuits⟩ := h.cached key a ((congrFun hm.cached_eq key).symm.trans ha)
    obtain ⟨used', hused', hreq'⟩ := hm.noted.1 key used hused
    exact ⟨used', hused', hreq' ▸ hsuits⟩
  sent t x hx := by
    obtain ⟨hx', ht⟩ := h.unmoved hm hstep hx
    obtain ⟨call, since, request, k, htask, hreplies⟩ := h.sent t x hx'
    exact ⟨call, since, request, k, (tasks_step_of_ne hstep ht).trans htask, hreplies.suits,
      hreplies.status,
      fun key hkey => (congrFun hm.cached_eq key).trans (hreplies.original key hkey)⟩

end moves

theorem Inv.serves {s : Payments json} {act : PaymentAct json} {g : PaymentGateway}
    (h : s.Inv p c readKey) (hg : s.Serves c readKey act g) :
    Inv p c readKey { s with gateway := g } := by
  cases hg with
  | serve hasked hserve => exact h.serve hasked hserve
  | @late key token used a g hused hserve =>
      obtain ⟨hnone, hexec⟩ := serveLate_cases hserve
      have hkeyed : ∀ key', used.wireKey readKey = some key' →
          ∃ used', s.keys key' = some used' ∧ used'.request = used.request := by
        intro key' hk
        obtain rfl := Option.some.inj ((h.named key used hused).symm.trans hk)
        exact ⟨used, hused, rfl⟩
      obtain ⟨-, -, hcache, hsent⟩ := executed hkeyed hexec
      exact h.of_gateway (extends_execute hnone hexec) hcache fun t x hx => .inl (hsent ▸ hx)

/-- **One action of the tasks or the gateway keeps the invariant.** -/
theorem inv_step {e : Entry (Payments json) (PaymentAct json) (CallReturned json)}
    (h : e.before.Inv p c readKey) (ht : (lts p c readKey).Took e) : e.after.Inv p c readKey := by
  obtain ⟨m, g, keys, st', hm, hstep, hafter, -⟩ | ⟨g, hg, hafter, -⟩ := step_cases ht
  · rw [hafter]
    exact h.moves hm hstep
  · rw [hafter]
    exact h.serves hg

theorem inv_run {cache : Option TokenState} {now : Instant} {s : Payments json}
    {tr : List (Entry (Payments json) (PaymentAct json) (CallReturned json))}
    (h : (lts p c readKey).Run (initial cache now) tr s) : s.Inv p c readKey :=
  h.invariant (Inv p c readKey) (inv_initial cache now) fun _ => inv_step

/-- **No action takes an answer out of the cache or replaces it.** -/
theorem extends_step {e : Entry (Payments json) (PaymentAct json) (CallReturned json)}
    (ht : (lts p c readKey).Took e) : Extends e.before.gateway e.after.gateway := by
  obtain ⟨m, g, keys, st', hm, -, hafter, -⟩ | ⟨g, hg, hafter, -⟩ := step_cases ht
  · rw [hafter]
    intro key a ha
    exact (congrFun hm.cached_eq key).trans ha
  · rw [hafter]
    exact hg.extends

theorem extends_run {s₀ s : Payments json}
    {tr : List (Entry (Payments json) (PaymentAct json) (CallReturned json))}
    (h : (lts p c readKey).Run s₀ tr s) : Extends s₀.gateway s.gateway :=
  h.invariant (fun s => Extends s₀.gateway s.gateway) (fun _ _ ha => ha)
    fun _ he ht key a ha => extends_step ht key a (he key a ha)

end Payments

end ParatroSdk
