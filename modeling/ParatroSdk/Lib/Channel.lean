import ParatroSdk.Lib.Transition

/-! # A signed channel with clocks

A signer puts packets on the wire, whoever has the wire delivers what he likes to a verifier,
in any order, again or altered.  The signer and the verifier read clocks of their own, which
are off by at most `skew` seconds.  What nobody but the signer can make is a parameter
(`presentable`): a packet is delivered only if it can be made from what was signed before.

`sent_iff` says what is on the wire, `elapsed` how the clocks tell the time between two steps. -/

namespace Channel

open Transition

/-- What is signed at a reading `κ` of the clock, and what a verifier makes of a packet. -/
structure Scheme (κ π μ ο : Type) where
  secs : κ → ℕ
  sign : κ → π → Option μ
  verify : κ → μ → ο
  presentable : List μ → μ → Bool

/-- The time in seconds, and the packets that were signed. -/
structure Wire (μ : Type) where
  now : ℕ
  sent : List μ

inductive Act (κ π μ : Type) where
  | wait (secs : ℕ)
  | sign (clock : κ) (payload : π)
  | deliver (clock : κ) (packet : μ)

inductive Out (μ ο : Type) where
  | waited
  | signed (packet : μ)
  | verdict (o : ο)
deriving DecidableEq

section system
variable {κ π μ ο : Type} (S : Scheme κ π μ ο) (skew : ℕ)

/-- The clock is off by at most `skew`. -/
def InStep (now : ℕ) (clock : κ) : Prop := now ≤ S.secs clock + skew ∧ S.secs clock ≤ now + skew

instance (now : ℕ) (clock : κ) : Decidable (InStep S skew now clock) :=
  inferInstanceAs (Decidable (_ ∧ _))

def step (s : Wire μ) : Act κ π μ → Option (Wire μ × Out μ ο)
  | .wait secs => some (⟨s.now + secs, s.sent⟩, .waited)
  | .sign clock payload =>
      if InStep S skew s.now clock then
        (S.sign clock payload).map fun packet => (⟨s.now, packet :: s.sent⟩, .signed packet)
      else none
  | .deliver clock packet =>
      if InStep S skew s.now clock ∧ S.presentable s.sent packet = true then
        some (s, .verdict (S.verify clock packet))
      else none

def lts : Lts (Wire μ) (Act κ π μ) (Out μ ο) := ⟨step S skew⟩

/-- Nothing was signed yet. -/
def Wire.initial (now : ℕ) : Wire μ := ⟨now, []⟩

/-- In this step the packet is signed, at this reading of the signer's clock. -/
def Signs (e : Entry (Wire μ) (Act κ π μ) (Out μ ο)) (clock : κ) (payload : π) (packet : μ) : Prop :=
  e.act = .sign clock payload ∧ e.out = .signed packet

end system

section runs
variable {κ π μ ο : Type} {S : Scheme κ π μ ο} {skew : ℕ} {now : ℕ} {s : Wire μ}
  {tr : List (Entry (Wire μ) (Act κ π μ) (Out μ ο))} {e : Entry (Wire μ) (Act κ π μ) (Out μ ο)}

theorem took_deliver (ht : (lts S skew).Took e) {clock : κ} {packet : μ}
    (hact : e.act = .deliver clock packet) :
    InStep S skew e.before.now clock ∧ S.presentable e.before.sent packet = true ∧
      e.after = e.before ∧ e.out = .verdict (S.verify clock packet) := by
  unfold Lts.Took lts at ht
  dsimp only at ht
  rw [hact] at ht
  simp only [step] at ht
  split at ht
  · rename_i h
    obtain ⟨hafter, hout⟩ := Prod.mk.inj (Option.some.inj ht)
    exact ⟨h.1, h.2, hafter.symm, hout.symm⟩
  · cases ht

theorem took_sign (ht : (lts S skew).Took e) {clock : κ} {payload : π}
    (hact : e.act = .sign clock payload) :
    InStep S skew e.before.now clock ∧ ∃ packet, S.sign clock payload = some packet ∧
      e.after = ⟨e.before.now, packet :: e.before.sent⟩ ∧ e.out = .signed packet := by
  unfold Lts.Took lts at ht
  dsimp only at ht
  rw [hact] at ht
  simp only [step] at ht
  split at ht
  · rename_i h
    obtain ⟨packet, hpacket, heq⟩ := Option.map_eq_some_iff.mp ht
    obtain ⟨hafter, hout⟩ := Prod.mk.inj heq
    exact ⟨h, packet, hpacket, hafter.symm, hout.symm⟩
  · cases ht

theorem took_wait (ht : (lts S skew).Took e) {secs : ℕ} (hact : e.act = .wait secs) :
    e.after = ⟨e.before.now + secs, e.before.sent⟩ ∧ e.out = .waited := by
  unfold Lts.Took lts at ht
  dsimp only at ht
  rw [hact] at ht
  obtain ⟨hafter, hout⟩ := Prod.mk.inj (Option.some.inj ht)
  exact ⟨hafter.symm, hout.symm⟩

theorem took_of_sign {clock : κ} {payload : π} {packet : μ} (h : InStep S skew s.now clock)
    (hsign : S.sign clock payload = some packet) :
    (lts S skew).Took ⟨s, .sign clock payload, .signed packet, ⟨s.now, packet :: s.sent⟩⟩ := by
  simp [Lts.Took, lts, step, h, hsign]

theorem took_of_deliver {clock : κ} {packet : μ} (h : InStep S skew s.now clock)
    (hpresentable : S.presentable s.sent packet = true) :
    (lts S skew).Took ⟨s, .deliver clock packet, .verdict (S.verify clock packet), s⟩ := by
  simp [Lts.Took, lts, step, h, hpresentable]

/-- Time does not go back. -/
theorem now_step (ht : (lts S skew).Took e) : e.before.now ≤ e.after.now := by
  cases hact : e.act with
  | wait secs =>
      rw [(took_wait ht hact).1]
      exact Nat.le_add_right _ _
  | sign clock payload =>
      obtain ⟨-, packet, -, hafter, -⟩ := took_sign ht hact
      exact Nat.le_of_eq (by rw [hafter])
  | deliver clock packet => exact Nat.le_of_eq (by rw [(took_deliver ht hact).2.2.1])

theorem now_run {s₀ : Wire μ} (h : (lts S skew).Run s₀ tr s) : s₀.now ≤ s.now :=
  h.invariant (fun s => s₀.now ≤ s.now) (Nat.le_refl _) fun _ hle ht =>
    Nat.le_trans hle (now_step ht)

/-- What is signed in a step of a run is what the signer makes. -/
theorem sign_of_signs {s₀ : Wire μ} (h : (lts S skew).Run s₀ tr s) (he : e ∈ tr) {clock : κ}
    {payload : π} {packet : μ} (hsigns : Signs e clock payload packet) :
    S.sign clock payload = some packet := by
  obtain ⟨-, -, ht⟩ := h.entry he
  obtain ⟨-, packet', hsign, -, hout⟩ := took_sign ht hsigns.1
  rw [hsigns.2] at hout
  rw [hsign, Out.signed.inj hout]

/-- On the wire is what was signed in the run. -/
theorem sent_iff (h : (lts S skew).Run (.initial now) tr s) {packet : μ} :
    packet ∈ s.sent ↔ ∃ e ∈ tr, ∃ clock payload, Signs e clock payload packet := by
  induction h with
  | nil => simp [Wire.initial]
  | @snoc tr e _ ht ih =>
      have hsplit : (∃ e' ∈ tr ++ [e], ∃ clock payload, Signs e' clock payload packet) ↔
          packet ∈ e.before.sent ∨ ∃ clock payload, Signs e clock payload packet := by
        rw [ih]
        simp [or_and_right, exists_or]
      rw [hsplit]
      cases hact : e.act with
      | wait secs =>
          rw [(took_wait ht hact).1]
          simp [Signs, hact]
      | sign clock payload =>
          obtain ⟨-, signed, -, hafter, hout⟩ := took_sign ht hact
          rw [hafter]
          simp [Signs, hact, hout, eq_comm, or_comm]
      | deliver clock packet' =>
          rw [(took_deliver ht hact).2.2.1]
          simp [Signs, hact]

/-- The time between a step of the signer and a delivery, told from the clocks. -/
theorem elapsed {s₀ : Wire μ} {pre post : List (Entry (Wire μ) (Act κ π μ) (Out μ ο))}
    (h : (lts S skew).Run s₀ (pre ++ e :: post) s)
    {e₀ : Entry (Wire μ) (Act κ π μ) (Out μ ο)} (he₀ : e₀ ∈ pre) {clock₀ clock : κ} {payload : π}
    {packet packet₀ : μ} (hsigns : Signs e₀ clock₀ payload packet₀)
    (hact : e.act = .deliver clock packet) :
    e₀.before.now ≤ e.before.now ∧
      e.before.now + S.secs clock₀ ≤ e₀.before.now + S.secs clock + 2 * skew ∧
      e₀.before.now + S.secs clock ≤ e.before.now + S.secs clock₀ + 2 * skew := by
  obtain ⟨hpre, ht, -⟩ := h.split
  obtain ⟨before, after, rfl⟩ := List.append_of_mem he₀
  obtain ⟨-, ht₀, hafter⟩ := hpre.split
  have hmono := Nat.le_trans (now_step ht₀) (now_run hafter)
  obtain ⟨⟨hlow, hhigh⟩, -⟩ := took_deliver ht hact
  obtain ⟨⟨hlow₀, hhigh₀⟩, -⟩ := took_sign ht₀ hsigns.1
  exact ⟨hmono, by omega, by omega⟩

end runs

end Channel
