import ParatroSdk.System

/-! # The refresh protocol

The system of `ParatroSdk.System` in terms of what matters between two waits: the cached
token, the clock, who holds the write lock, and for each task whether it waits for the read
lock, for the write lock or for the auth endpoint.  `Protocol.step` says what each move does
in these terms, and `step_conc` proves that the programs of `src/token.rs` do exactly that,
so every run of the system is the image of a run of the protocol (`run_conc`).  `Step`
lists the moves of the protocol by what they do; the invariants are proved from it. -/

namespace ParatroSdk

open Machine Interaction SharedCell Transition TokenManager

/-- Where a task waits; only `get_token` ever waits for the read lock. -/
inductive Waiting where
  | reading
  | queued (c : Call)
  | exchanging (c : Call) (since : Instant)
deriving DecidableEq, Repr

/-- The call a task is executing. -/
def Waiting.call : Waiting → Call
  | .reading => .getToken
  | .queued c => c
  | .exchanging c _ => c

/-- Where a call waits first. -/
def Call.entry : Call → Waiting
  | .getToken => .reading
  | .refreshAfterExpiry stale => .queued (.refreshAfterExpiry stale)

theorem Call.call_entry (c : Call) : c.entry.call = c := by
  cases c <;> rfl

structure Protocol where
  cache : Option TokenState
  now : Instant
  writer : Option ℕ
  tasks : ℕ → Option Waiting
  gateway : Gateway

namespace Protocol

def initial (now : Instant) : Protocol := ⟨none, now, none, fun _ => none, .initial⟩

variable (p : Platform) (tm : TokenManager)

/-! ### The protocol as the system -/

/-- The suspended program of a waiting task. -/
def suspend : Waiting → Call × Suspended (Option TokenState) HttpCall HttpReply (Except Error String)
  | .reading => (.getToken, .waiting .read (getTokenLocked p tm))
  | .queued c => (c, .waiting .write (refreshLocked p tm c.stale))
  | .exchanging c since => (c, .asked since ⟨.auth, tm.authRequest⟩ (concludeRefresh p))

def conc (a : Protocol) : System where
  tasks := ⟨⟨a.cache, ⟨[], a.writer⟩, a.now⟩, Option.map (suspend p tm) ∘ a.tasks⟩
  gateway := a.gateway

/-! ### The moves -/

/-- Task `t` waits at `w`. -/
def park (a : Protocol) (t : ℕ) (w : Waiting) : Protocol :=
  { a with tasks := Function.update a.tasks t (some w) }

/-- Task `t` is gone, with its write guard if it held one. -/
def leave (a : Protocol) (t : ℕ) : Protocol :=
  { a with
    tasks := Function.update a.tasks t none
    writer := if a.writer = some t then none else a.writer }

/-- Task `t` returns `r` from call `c`. -/
def finish (a : Protocol) (t : ℕ) (c : Call) (r : Option (Except Error String)) :
    Protocol × Returned := (a.leave t, some ⟨t, c, r⟩)

/-- What the outcome of an exchange does to the cache, and what the call returns. -/
def settle (cache : Option TokenState) (now : Instant) :
    AuthOutcome → Option TokenState × Option (Except Error String)
  | .failed e => (cache, some (.error e))
  | .rejected status body => (none, some (.error (.api status body)))
  | .granted tokResp =>
      match deadline p.overflowChecks now tokResp.expiresIn with
      | none => (cache, none)
      | some expiresAt => (some ⟨tokResp.token, expiresAt⟩, some (.ok tokResp.token))

/-- The lock is granted to task `t` waiting at `w`. -/
def granted (a : Protocol) (t : ℕ) : Waiting → Option (Protocol × Returned)
  | .reading =>
      match a.cache with
      | some s =>
          if a.now < s.expiresAt then some (a.finish t .getToken (some (.ok s.token)))
          else some (a.park t (.queued .getToken), none)
      | none => some (a.park t (.queued .getToken), none)
  | .queued c =>
      match a.cache with
      | some s =>
          if reusable c.stale s a.now then some (a.finish t c (some (.ok s.token)))
          else some ({ a.park t (.exchanging c a.now) with writer := some t }, none)
      | none => some ({ a.park t (.exchanging c a.now) with writer := some t }, none)
  | .exchanging _ _ => none

def step (a : Protocol) : Act → Option (Protocol × Returned)
  | .tick d => some ({ a with now := a.now + d }, none)
  | .call t c =>
      match a.tasks t with
      | none => some (a.park t c.entry, none)
      | some _ => none
  | .grant t =>
      match a.tasks t with
      | some w => if a.writer.isNone then a.granted t w else none
      | none => none
  | .issue t token lifetime =>
      match a.tasks t with
      | some (.exchanging _ _) =>
          if (a.gateway.pending t).isNone then
            some ({ a with gateway := a.gateway.issue t ⟨token, lifetime, a.now⟩ }, none)
          else none
      | _ => none
  | .reply t x =>
      match a.tasks t with
      | some (.exchanging c since) =>
          if (conc p tm a).inTime tm since x && a.gateway.honours t (authOutcome p x) then
            let r := settle p a.cache a.now (authOutcome p x)
            some ({ a with cache := r.1, gateway := a.gateway.settle t }.finish t c r.2)
          else none
      | _ => none
  | .drop t =>
      match a.tasks t with
      | some _ => some ({ a.leave t with gateway := a.gateway.settle t }, none)
      | none => none

/-- The protocol as a transition system. -/
def lts : Lts Protocol Act Returned := ⟨step p tm⟩

/-! ### The programs do what the protocol says -/

theorem advance_getTokenLocked (t : ℕ) (s : Shared (Option TokenState)) :
    advance t (getTokenLocked p tm) s =
      match s.cell with
      | none => (.waiting .write (refreshLocked p tm none), { s with lock := s.lock.drop t })
      | some st =>
          if s.clock < st.expiresAt then
            (.ended (some (.ok st.token)), { s with lock := s.lock.drop t })
          else (.waiting .write (refreshLocked p tm none), { s with lock := s.lock.drop t }) := by
  obtain ⟨cell, lock, clock⟩ := s
  cases cell with
  | none =>
      simp only [getTokenLocked, advance_load, advance_release, refresh_run, advance_acquire]
  | some st =>
      simp only [getTokenLocked, advance_load, advance_clock, advance_release]
      by_cases h : clock < st.expiresAt
      · simp only [if_pos h, advance_ret, Lock.drop_drop]
      · simp only [if_neg h, refresh_run, advance_acquire]

theorem advance_refreshLocked (t : ℕ) (stale : Option String) (s : Shared (Option TokenState)) :
    advance t (refreshLocked p tm stale) s =
      match s.cell with
      | none => (.asked s.clock ⟨.auth, tm.authRequest⟩ (concludeRefresh p), s)
      | some st =>
          if reusable stale st s.clock then
            (.ended (some (.ok st.token)), { s with lock := s.lock.drop t })
          else (.asked s.clock ⟨.auth, tm.authRequest⟩ (concludeRefresh p), s) := by
  obtain ⟨cell, lock, clock⟩ := s
  cases cell with
  | none => rfl
  | some st =>
      simp only [refreshLocked, advance_load, advance_clock]
      by_cases h : reusable stale st clock = true
      · simp only [if_pos h, advance_release, advance_ret, Lock.drop_drop]
      · simp only [if_neg h]
        rfl

theorem advance_concludeRefresh (t : ℕ) (reply : HttpReply) (s : Shared (Option TokenState)) :
    advance t (concludeRefresh p reply) s =
      (.ended (settle p s.cell s.clock (authOutcome p reply)).2,
        { s with
          cell := (settle p s.cell s.clock (authOutcome p reply)).1
          lock := s.lock.drop t }) := by
  unfold concludeRefresh
  cases authOutcome p reply with
  | failed e => simp [conclude, settle]
  | rejected status body => simp [conclude, settle]
  | granted tokResp =>
      simp only [conclude, install, settle, deadline]
      cases hsecs : expiresInSecs p.overflowChecks tokResp.expiresIn with
      | none => simp
      | some secs =>
          simp only [Program.ask_bind, advance_clock, Option.bind_some]
          cases hadd : Instant.add s.clock (Duration.fromSecs secs) <;> simp

theorem tasks_conc (a : Protocol) (t : ℕ) :
    (conc p tm a).tasks.tasks t = (a.tasks t).map (suspend p tm) := rfl

theorem conc_park (a : Protocol) (t : ℕ) (w : Waiting) :
    Function.update (Option.map (suspend p tm) ∘ a.tasks) t (some (suspend p tm w)) =
      Option.map (suspend p tm) ∘ (a.park t w).tasks :=
  (Function.comp_update (Option.map (suspend p tm)) a.tasks t (some w)).symm

theorem conc_leave (a : Protocol) (t : ℕ) :
    Function.update (Option.map (suspend p tm) ∘ a.tasks) t none =
      Option.map (suspend p tm) ∘ (a.leave t).tasks :=
  (Function.comp_update (Option.map (suspend p tm)) a.tasks t none).symm

theorem code_entry (c : Call) (t : ℕ) (s : Shared (Option TokenState)) :
    ∃ m q, advance t (c.code p tm) s = (.waiting m q, s) ∧
      suspend p tm c.entry = (c, .waiting m q) := by
  cases c with
  | getToken =>
      refine ⟨.read, getTokenLocked p tm, ?_, rfl⟩
      unfold Call.code
      rw [getToken_run]
      rfl
  | refreshAfterExpiry stale =>
      refine ⟨.write, refreshLocked p tm (some stale), ?_, rfl⟩
      unfold Call.code refreshAfterExpiry
      dsimp only
      rw [refresh_run]
      rfl

/-- A task that ends in the system leaves in the protocol. -/
theorem settle_ended (a : Protocol) (t : ℕ) (c : Call) (r : Option (Except Error String)) :
    (conc p tm a).tasks.settle t c
        (.ended r, { (conc p tm a).tasks.shared with lock := (conc p tm a).tasks.shared.lock.drop t }) =
      ((conc p tm (a.leave t)).tasks, some ⟨t, c, r⟩) :=
  Prod.ext (congrArg (State.mk _) (conc_leave p tm a t)) rfl

/-- A task that waits in the system is parked in the protocol. -/
theorem settle_parked (a : Protocol) (t : ℕ) (w : Waiting) :
    (conc p tm a).tasks.settle t w.call ((suspend p tm w).2, (conc p tm a).tasks.shared) =
      ((conc p tm (a.park t w)).tasks, none) := by
  cases w with
  | reading => exact Prod.ext (congrArg (State.mk _) (conc_park p tm a t .reading)) rfl
  | queued c => exact Prod.ext (congrArg (State.mk _) (conc_park p tm a t (.queued c))) rfl
  | exchanging c since =>
      exact Prod.ext (congrArg (State.mk _) (conc_park p tm a t (.exchanging c since))) rfl

theorem step_conc_call (a : Protocol) (t : ℕ) (c : Call) :
    System.step p tm (conc p tm a) (.call t c) =
      (step p tm a (.call t c)).map fun r => (conc p tm r.1, r.2) := by
  unfold System.step step
  simp only [System.move, SharedCell.step, tasks_conc]
  cases a.tasks t with
  | some w => rfl
  | none =>
      obtain ⟨m, q, hadv, hsus⟩ := code_entry p tm c t (conc p tm a).tasks.shared
      simp only [Option.map_none, hadv, Option.map_some]
      have := settle_parked p tm a t c.entry
      rw [hsus, c.call_entry] at this
      rw [this]
      rfl

theorem step_conc_grant (a : Protocol) (t : ℕ) :
    System.step p tm (conc p tm a) (.grant t) =
      (step p tm a (.grant t)).map fun r => (conc p tm r.1, r.2) := by
  have hread : (Lock.take ⟨[], none⟩ t .read).drop t = ⟨[], none⟩ := Lock.drop_take_free t .read
  have hwrite : (Lock.take ⟨[], none⟩ t .write).drop t = ⟨[], none⟩ := Lock.drop_take_free t .write
  unfold System.step step
  simp only [System.move, SharedCell.step, tasks_conc]
  cases ht : a.tasks t with
  | none => rfl
  | some w =>
      obtain ⟨cache, now, writer, tasks, gateway⟩ := a
      have hend := fun c r => congrArg (fun q => some (System.mk q.1 gateway, q.2))
        (settle_ended p tm ⟨cache, now, none, tasks, gateway⟩ t c r)
      have hpark := fun w => congrArg (fun q => some (System.mk q.1 gateway, q.2))
        (settle_parked p tm ⟨cache, now, none, tasks, gateway⟩ t w)
      cases writer with
      | some u =>
          cases w with
          | reading => rfl
          | queued c => rfl
          | exchanging c since => rfl
      | none =>
          cases w with
          | exchanging c since => rfl
          | reading =>
              simp only [Option.map_some, suspend, advance_getTokenLocked, conc, hread, granted]
              cases cache with
              | none => exact hpark (.queued .getToken)
              | some s =>
                  dsimp only
                  by_cases h : now < s.expiresAt
                  · rw [if_pos h, if_pos h]
                    exact hend .getToken _
                  · rw [if_neg h, if_neg h]
                    exact hpark (.queued .getToken)
          | queued c =>
              simp only [Option.map_some, suspend, advance_refreshLocked, conc, hwrite, granted]
              have hasked := congrArg (fun q => some (System.mk q.1 gateway, q.2))
                (settle_parked p tm ⟨cache, now, some t, tasks, gateway⟩ t (.exchanging c now))
              cases cache with
              | none => exact hasked
              | some s =>
                  dsimp only
                  by_cases h : reusable c.stale s now = true
                  · rw [if_pos h, if_pos h]
                    exact hend c _
                  · rw [if_neg h, if_neg h]
                    exact hasked

theorem step_conc_reply (a : Protocol) (t : ℕ) (x : HttpReply) :
    System.step p tm (conc p tm a) (.reply t x) =
      (step p tm a (.reply t x)).map fun r => (conc p tm r.1, r.2) := by
  unfold System.step step
  simp only [System.move, SharedCell.step, tasks_conc]
  cases ht : a.tasks t with
  | none => rfl
  | some w =>
      cases w with
      | reading => rfl
      | queued c => rfl
      | exchanging c since =>
          simp only [Option.map_some, suspend, advance_concludeRefresh]
          by_cases h : ((conc p tm a).inTime tm since x &&
              a.gateway.honours t (authOutcome p x)) = true
          · have h' : ((conc p tm a).inTime tm since x &&
                (conc p tm a).gateway.honours t (authOutcome p x)) = true := h
            rw [if_pos h, if_pos h']
            refine congrArg some (Prod.ext ?_ rfl)
            have := settle_ended p tm
              { a with cache := (settle p a.cache a.now (authOutcome p x)).1 } t c
              (settle p a.cache a.now (authOutcome p x)).2
            exact congrArg (fun q => System.mk q.1 (a.gateway.settle t)) this
          · have h' : ¬ ((conc p tm a).inTime tm since x &&
                (conc p tm a).gateway.honours t (authOutcome p x)) = true := h
            rw [if_neg h, if_neg h']
            rfl

/-- The system moves from the image of a protocol state as the protocol does. -/
theorem step_conc (a : Protocol) (act : Act) :
    System.step p tm (conc p tm a) act = (step p tm a act).map fun r => (conc p tm r.1, r.2) := by
  cases act with
  | tick d => rfl
  | call t c => exact step_conc_call p tm a t c
  | grant t => exact step_conc_grant p tm a t
  | issue t token lifetime =>
      unfold System.step step
      simp only [tasks_conc]
      cases a.tasks t with
      | none => rfl
      | some w =>
          cases w with
          | reading => rfl
          | queued c => rfl
          | exchanging c since =>
              simp only [Option.map_some, suspend]
              by_cases h : (a.gateway.pending t).isNone = true
              · have h' : ((conc p tm a).gateway.pending t).isNone = true := h
                rw [if_pos h, if_pos h']
                rfl
              · have h' : ¬ ((conc p tm a).gateway.pending t).isNone = true := h
                rw [if_neg h, if_neg h']
                rfl
  | reply t x => exact step_conc_reply p tm a t x
  | drop t =>
      unfold System.step step
      simp only [System.move, SharedCell.step, tasks_conc]
      cases a.tasks t with
      | none => rfl
      | some w =>
          have := settle_ended p tm a t w.call none
          exact congrArg (fun q => some (System.mk q.1 (a.gateway.settle t), none)) this

/-- **Every run of the system is the image of a run of the protocol.** -/
theorem run_conc {now : Instant} {tr : List (Entry System Act Returned)} {s : System}
    (h : (System.lts p tm).Run (System.initial now) tr s) :
    ∃ tr' a, (lts p tm).Run (initial now) tr' a ∧ tr = tr'.map (Lts.mapEntry (conc p tm)) ∧
      s = conc p tm a :=
  Lts.Run.lift (step_conc p tm) h

/-- A run of the system split at one move is the image of a run of the protocol split there. -/
theorem run_conc_split {now : Instant} {pre post : List (Entry System Act Returned)}
    {e : Entry System Act Returned} {s : System}
    (h : (System.lts p tm).Run (System.initial now) (pre ++ e :: post) s) :
    ∃ pre' e' post' a, (lts p tm).Run (initial now) pre' e'.before ∧ (lts p tm).Took e' ∧
      (lts p tm).Run e'.after post' a ∧ pre = pre'.map (Lts.mapEntry (conc p tm)) ∧
        e = Lts.mapEntry (conc p tm) e' ∧ post = post'.map (Lts.mapEntry (conc p tm)) := by
  obtain ⟨tr', a, hrun, htr, -⟩ := run_conc p tm h
  obtain ⟨pre', rest, rfl, hpre, hrest⟩ := List.map_eq_append_iff.mp htr.symm
  obtain ⟨e', post', rfl, he, hpost⟩ := List.map_eq_cons_iff.mp hrest
  obtain ⟨h₁, h₂, h₃⟩ := hrun.split
  exact ⟨pre', e', post', a, h₁, h₂, h₃, hpre.symm, he.symm, hpost.symm⟩

/-! ### What one move does -/

section fields
variable (a : Protocol) (t u : ℕ) (w : Waiting)

@[simp] theorem park_cache : (a.park t w).cache = a.cache := rfl
@[simp] theorem park_now : (a.park t w).now = a.now := rfl
@[simp] theorem park_writer : (a.park t w).writer = a.writer := rfl
@[simp] theorem park_gateway : (a.park t w).gateway = a.gateway := rfl
@[simp] theorem leave_cache : (a.leave t).cache = a.cache := rfl
@[simp] theorem leave_now : (a.leave t).now = a.now := rfl
@[simp] theorem leave_gateway : (a.leave t).gateway = a.gateway := rfl

theorem park_tasks : (a.park t w).tasks u = if u = t then some w else a.tasks u :=
  Function.update_apply a.tasks t (some w) u

theorem leave_tasks : (a.leave t).tasks u = if u = t then none else a.tasks u :=
  Function.update_apply a.tasks t none u

theorem leave_writer : (a.leave t).writer = if a.writer = some t then none else a.writer := rfl

variable {a t u w}

/-- Who waits once a task is parked is that task, or waited before. -/
theorem of_park_tasks {w' : Waiting} (h : (a.park t w).tasks u = some w') :
    (u = t ∧ w' = w) ∨ (u ≠ t ∧ a.tasks u = some w') := by
  rw [park_tasks] at h
  split at h
  · rename_i hut
    exact .inl ⟨hut, (Option.some.inj h).symm⟩
  · rename_i hut
    exact .inr ⟨hut, h⟩

/-- Who waits once a task has left is another task, and waited before. -/
theorem of_leave_tasks {w' : Waiting} (h : (a.leave t).tasks u = some w') :
    u ≠ t ∧ a.tasks u = some w' := by
  rw [leave_tasks] at h
  split at h
  · cases h
  · rename_i hut
    exact ⟨hut, h⟩

end fields

/-- The moves of the protocol by what they do: what they need, what the caller sees, and
the state after. -/
inductive Step (a : Protocol) : Act → Returned → Protocol → Prop where
  | tick (d : ℕ) : Step a (.tick d) none { a with now := a.now + d }
  | call {t : ℕ} {c : Call} : a.tasks t = none → Step a (.call t c) none (a.park t c.entry)
  | readHit {t : ℕ} {s : TokenState} : a.tasks t = some .reading → a.writer = none →
      a.cache = some s → a.now < s.expiresAt →
      Step a (.grant t) (some ⟨t, .getToken, some (.ok s.token)⟩) (a.leave t)
  | readMiss {t : ℕ} : a.tasks t = some .reading → a.writer = none →
      Step a (.grant t) none (a.park t (.queued .getToken))
  | reuse {t : ℕ} {c : Call} {s : TokenState} : a.tasks t = some (.queued c) → a.writer = none →
      a.cache = some s → reusable c.stale s a.now = true →
      Step a (.grant t) (some ⟨t, c, some (.ok s.token)⟩) (a.leave t)
  | exchange {t : ℕ} {c : Call} : a.tasks t = some (.queued c) → a.writer = none →
      (∀ s, a.cache = some s → reusable c.stale s a.now = false) →
      Step a (.grant t) none { a.park t (.exchanging c a.now) with writer := some t }
  | issue {t : ℕ} {token : String} {lifetime : Int64} {c : Call} {since : Instant} :
      a.tasks t = some (.exchanging c since) → a.gateway.pending t = none →
      Step a (.issue t token lifetime) none
        { a with gateway := a.gateway.issue t ⟨token, lifetime, a.now⟩ }
  | reply {t : ℕ} {x : HttpReply} {c : Call} {since : Instant} :
      a.tasks t = some (.exchanging c since) →
      (∀ resp, x = .ok resp → a.now ≤ since + tm.timeout) →
      a.gateway.honours t (authOutcome p x) = true →
      Step a (.reply t x) (some ⟨t, c, (settle p a.cache a.now (authOutcome p x)).2⟩)
        ({ a with
          cache := (settle p a.cache a.now (authOutcome p x)).1
          gateway := a.gateway.settle t }.leave t)
  | drop {t : ℕ} {w : Waiting} : a.tasks t = some w →
      Step a (.drop t) none { a.leave t with gateway := a.gateway.settle t }

variable {p tm}

theorem step_grant {a a' : Protocol} {t : ℕ} {o : Returned}
    (h : step p tm a (.grant t) = some (a', o)) : Step p tm a (.grant t) o a' := by
  simp only [step] at h
  cases ht : a.tasks t with
  | none => rw [ht] at h; cases h
  | some w =>
      rw [ht] at h
      dsimp only at h
      cases hw : a.writer with
      | some u => rw [hw] at h; cases h
      | none =>
          rw [hw, if_pos Option.isNone_none] at h
          cases w with
          | exchanging c since => cases h
          | reading =>
              cases hc : a.cache with
              | none =>
                  simp only [granted, hc] at h
                  cases h
                  exact .readMiss ht hw
              | some s =>
                  simp only [granted, hc] at h
                  split at h
                  · rename_i hlt
                    cases h
                    exact .readHit ht hw hc hlt
                  · cases h
                    exact .readMiss ht hw
          | queued c =>
              cases hc : a.cache with
              | none =>
                  simp only [granted, hc] at h
                  cases h
                  exact .exchange ht hw (by simp [hc])
              | some s =>
                  simp only [granted, hc] at h
                  split at h
                  · rename_i hre
                    cases h
                    exact .reuse ht hw hc hre
                  · rename_i hre
                    cases h
                    exact .exchange ht hw (by simpa [hc] using hre)

theorem step_cases {a a' : Protocol} {act : Act} {o : Returned}
    (h : step p tm a act = some (a', o)) : Step p tm a act o a' := by
  cases act with
  | tick d =>
      cases h
      exact .tick d
  | call t c =>
      simp only [step] at h
      cases ht : a.tasks t with
      | some w => rw [ht] at h; cases h
      | none =>
          rw [ht] at h
          cases h
          exact .call ht
  | grant t => exact step_grant h
  | issue t token lifetime =>
      simp only [step] at h
      split at h
      · rename_i c since ht
        split at h
        · rename_i hc
          cases h
          exact .issue ht (Option.isNone_iff_eq_none.mp hc)
        · cases h
      · cases h
  | reply t x =>
      simp only [step] at h
      split at h
      · rename_i c since ht
        split at h
        · rename_i hc
          cases h
          rw [Bool.and_eq_true] at hc
          refine .reply ht (fun resp hx => ?_) hc.2
          subst hx
          exact of_decide_eq_true hc.1
        · cases h
      · cases h
  | drop t =>
      simp only [step] at h
      cases ht : a.tasks t with
      | none => rw [ht] at h; cases h
      | some w =>
          rw [ht] at h
          cases h
          exact .drop ht

theorem step_of_took {e : Entry Protocol Act Returned} (h : (lts p tm).Took e) :
    Step p tm e.before e.act e.out e.after := step_cases h

/-! ### What the system shows of the protocol -/

theorem inExchange_conc {a : Protocol} {t : ℕ} {c : Call} {since : Instant} :
    (conc p tm a).InExchange t c since ↔ a.tasks t = some (.exchanging c since) := by
  unfold System.InExchange
  rw [tasks_conc]
  constructor
  · rintro ⟨q, k, h⟩
    obtain ⟨w, hw, hs⟩ := Option.map_eq_some_iff.mp h
    cases w with
    | reading => cases hs
    | queued c' => cases hs
    | exchanging c' since' => cases hs; exact hw
  · intro h
    rw [h]
    exact ⟨_, _, rfl⟩

end Protocol

end ParatroSdk
