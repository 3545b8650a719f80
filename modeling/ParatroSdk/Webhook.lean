import ParatroSdk.Config
import ParatroSdk.Lib.Int64
import Mathlib.Data.Set.Function

/-! # Webhook signatures

`sign_payload` and `verify_payload` of `src/webhook.rs`, over the keyed hash and the hex
encoder of other crates, the overflow checks of the build and the reading of the system
clock.  `none` is a panic.

`verifyPayload_eq` is the specification of the verification: a decision on the timestamp,
its distance from the clock and the signature.  The timestamp of an accepted delivery is a
numeral, so it has no dot, and the signed text `timestamp.payload` splits in one way only:
a signature belongs to one delivery (`oneDelivery`). -/

namespace ParatroSdk

open Text Machine

/-- HMAC-SHA256 of a key and a message, and `hex::encode`. -/
structure Digests where
  hmacSha256 : Bytes → Bytes → Bytes
  hexEncode : Bytes → String

/-- Whole seconds since the epoch; a system clock keeps them in a signed 64-bit field. -/
structure UnixTime where
  secs : ℕ
  inRange : secs < 2 ^ 63

/-- `SystemTime::now().duration_since(UNIX_EPOCH)`; `none` for a clock before the epoch. -/
abbrev ClockReading := Option UnixTime

def signatureVersion : String := "v1"

inductive WebhookError where
  | invalidTimestamp (timestamp : String)
  | timestampExpired (ageSecs toleranceSecs : ℕ)
  | signatureMismatch
deriving DecidableEq, Repr

/-- The signed text: `timestamp.payload`. -/
def canonical (timestamp : String) (payload : Bytes) : Bytes :=
  utf8 timestamp ++ '.'.val.toUInt8 :: payload

section functions
variable (d : Digests) (m : OverflowChecks)

/-- Build the canonical string and compute HMAC-SHA256. -/
def computeSignature (secret timestamp : String) (payload : Bytes) : String :=
  signatureVersion ++ "=" ++ d.hexEncode (d.hmacSha256 (utf8 secret) (canonical timestamp payload))

/-- Constant-time byte comparison. -/
def constantTimeEq (a b : Bytes) : Bool :=
  if a.length ≠ b.length then false
  else (a.zip b).foldl (fun acc p => acc ||| (p.1 ^^^ p.2)) 0 == 0

/-- Sign a payload at the clock's time. -/
def signPayload (now : ClockReading) (secret : String) (payload : Bytes) : Option (String × String) := do
  let now ← now
  let ts := now.secs.repr
  return (ts, computeSignature d secret ts payload)

/-- Sign a payload with a given timestamp. -/
def signPayloadWithTimestamp (secret : String) (payload : Bytes) (timestamp : String) : String :=
  computeSignature d secret timestamp payload

/-- The distance of the clock from the timestamp: `(now - ts).unsigned_abs()`. -/
def timestampAge (now : ClockReading) (ts : Int64) : Option ℕ := do
  let now ← now
  let diff ← sub m (Int64.ofNat now.secs) ts
  return diff.toInt.natAbs

def verifyPayload (now : ClockReading) (secret timestamp : String) (payload : Bytes)
    (signature : String) (tolerance : Duration) : ExceptT WebhookError Option Unit := do
  match parse timestamp with
  | none => throw (.invalidTimestamp timestamp)
  | some ts =>
      if tolerance ≠ 0 then
        let diff ← (timestampAge m now ts : Option ℕ)
        if tolerance.asSecs < diff then
          throw (.timestampExpired diff tolerance.asSecs)
      let expected := computeSignature d secret timestamp payload
      if !constantTimeEq (utf8 expected) (utf8 signature) then
        throw .signatureMismatch

end functions

/-! ### The comparison -/

theorem foldl_or_xor_eq_zero (l : List (UInt8 × UInt8)) : ∀ acc : UInt8,
    l.foldl (fun acc p => acc ||| (p.1 ^^^ p.2)) acc = 0 ↔ acc = 0 ∧ ∀ p ∈ l, p.1 = p.2 := by
  induction l with
  | nil => intro acc; simp
  | cons p l ih =>
      intro acc
      rw [List.foldl_cons, ih, UInt8.or_eq_zero_iff, UInt8.xor_eq_zero_iff, List.forall_mem_cons,
        and_assoc]

/-- The accumulated differences are zero exactly when the byte strings are equal. -/
theorem constantTimeEq_iff {a b : Bytes} : constantTimeEq a b = true ↔ a = b := by
  unfold constantTimeEq
  split
  · rename_i hlen
    refine iff_of_false Bool.false_ne_true ?_
    rintro rfl
    exact hlen rfl
  · rename_i hlen
    rw [beq_iff_eq, foldl_or_xor_eq_zero]
    constructor
    · rintro ⟨-, hall⟩
      refine List.ext_getElem (not_not.mp hlen) fun i hi hj => ?_
      have hz : i < (a.zip b).length := by rw [List.length_zip]; omega
      have := hall _ (List.getElem_mem hz)
      rwa [List.getElem_zip] at this
    · rintro rfl
      refine ⟨rfl, fun p hp => ?_⟩
      obtain ⟨i, hi, rfl⟩ := List.getElem_of_mem hp
      rw [List.getElem_zip]

/-! ### The decision -/

/-- The string is an optionally signed decimal numeral of a 64-bit value. -/
def Numeral (timestamp : String) (ts : ℤ) : Prop := Denotes timestamp ts ∧ Fits ts

/-- The tolerance is in force and the clock is further away from the timestamp. -/
def TooFar (now ts : ℤ) (tolerance : Duration) : Prop :=
  tolerance ≠ 0 ∧ (tolerance.asSecs : ℤ) < |now - ts|

theorem numeral_iff {s : String} {ts : ℤ} : Numeral s ts ↔ ∃ v, parse s = some v ∧ v.toInt = ts := by
  constructor
  · rintro ⟨hd, hf⟩
    have hv : (Int64.ofInt ts).toInt = ts := toInt_ofInt hf
    exact ⟨_, parse_eq_some_iff.mpr (by rwa [hv]), hv⟩
  · rintro ⟨v, hp, rfl⟩
    exact ⟨parse_eq_some_iff.mp hp, fits_toInt v⟩

/-- A numeral has no dot. -/
theorem Numeral.dot_notMem {s : String} {ts : ℤ} (h : Numeral s ts) :
    '.'.val.toUInt8 ∉ utf8 s := by
  intro hm
  have hdot := mem_of_ascii_mem_utf8 (by decide) hm
  obtain h | h | h := h.1.mem hdot
  all_goals exact absurd h (by decide)

section verify
variable {d : Digests} {m : OverflowChecks} {now : UnixTime} {secret timestamp signature : String}
  {payload : Bytes} {tolerance : Duration}

theorem toInt_secs (now : UnixTime) : (Int64.ofNat now.secs).toInt = now.secs :=
  Int64.toInt_ofNat_of_lt now.inRange

theorem timestampAge_eq {ts : Int64} (h : Fits (now.secs - ts.toInt)) :
    timestampAge m (some now) ts = some (now.secs - ts.toInt : ℤ).natAbs := by
  rw [← toInt_secs now] at h ⊢
  obtain ⟨diff, hsub, hval⟩ := sub_of_fits m h
  unfold timestampAge
  simp only [Option.bind_eq_bind, Option.bind_some, hsub, hval, Option.pure_def]

/-- The verdict on the signature, once the timestamp is accepted. -/
def compareSignature (d : Digests) (secret timestamp : String) (payload : Bytes) (signature : String) :
    Except WebhookError Unit :=
  if signature = computeSignature d secret timestamp payload then .ok () else .error .signatureMismatch

theorem run_compare : (if !constantTimeEq (utf8 (computeSignature d secret timestamp payload))
      (utf8 signature) then throw .signatureMismatch else pure () :
      ExceptT WebhookError Option Unit).run =
    some (compareSignature d secret timestamp payload signature) := by
  unfold compareSignature
  by_cases h : signature = computeSignature d secret timestamp payload
  · rw [if_pos h, constantTimeEq_iff.mpr (congrArg utf8 h.symm)]
    rfl
  · have hne : constantTimeEq (utf8 (computeSignature d secret timestamp payload)) (utf8 signature) =
        false := by
      rw [Bool.eq_false_iff, Ne, constantTimeEq_iff]
      exact fun he => h (utf8_injective he).symm
    rw [if_neg h, hne]
    rfl

theorem verifyPayload_invalid {now : ClockReading} (h : parse timestamp = none) :
    (verifyPayload d m now secret timestamp payload signature tolerance).run =
      some (.error (.invalidTimestamp timestamp)) := by
  unfold verifyPayload
  rw [h]
  rfl

/-- Without a tolerance the clock is not read. -/
theorem verifyPayload_zero {now : ClockReading} {ts : Int64} (h : parse timestamp = some ts) :
    (verifyPayload d m now secret timestamp payload signature 0).run =
      some (compareSignature d secret timestamp payload signature) := by
  unfold verifyPayload
  rw [h]
  exact run_compare

/-- With a tolerance the timestamp's age is computed first; that may panic. -/
theorem verifyPayload_pos {now : ClockReading} {ts : Int64} (h : parse timestamp = some ts)
    (ht : tolerance ≠ 0) :
    (verifyPayload d m now secret timestamp payload signature tolerance).run =
      (timestampAge m now ts).map fun age =>
        if tolerance.asSecs < age then .error (.timestampExpired age tolerance.asSecs)
        else compareSignature d secret timestamp payload signature := by
  unfold verifyPayload
  rw [h]
  dsimp only
  rw [if_pos ht]
  cases timestampAge m now ts with
  | none => rfl
  | some age =>
      by_cases hage : tolerance.asSecs < age
      · simp only [Option.map_some, if_pos hage]
        show (ExceptT.run (if tolerance.asSecs < age then _ else _)) = _
        rw [if_pos hage]
        rfl
      · simp only [Option.map_some, if_neg hage]
        show (ExceptT.run (if tolerance.asSecs < age then _ else _)) = _
        rw [if_neg hage]
        exact run_compare

/-- **Verification of a numeral timestamp whose distance from the clock fits in 64 bits.** -/
theorem verifyPayload_eq {now : UnixTime} {ts : ℤ} (h : Numeral timestamp ts)
    (hfit : Fits (now.secs - ts)) :
    (TooFar now.secs ts tolerance →
      (verifyPayload d m (some now) secret timestamp payload signature tolerance).run =
        some (.error (.timestampExpired (now.secs - ts : ℤ).natAbs tolerance.asSecs))) ∧
    (¬ TooFar now.secs ts tolerance →
      (verifyPayload d m (some now) secret timestamp payload signature tolerance).run =
        some (compareSignature d secret timestamp payload signature)) := by
  obtain ⟨v, hparse, rfl⟩ := numeral_iff.mp h
  have hfar : TooFar now.secs v.toInt tolerance ↔
      tolerance ≠ 0 ∧ tolerance.asSecs < (now.secs - v.toInt : ℤ).natAbs := by
    unfold TooFar
    rw [Int.abs_eq_natAbs, Int.ofNat_lt]
  by_cases ht : tolerance = 0
  · subst ht
    refine ⟨fun hf => absurd rfl hf.1, fun _ => verifyPayload_zero hparse⟩
  · rw [verifyPayload_pos hparse ht, timestampAge_eq hfit, Option.map_some, hfar]
    refine ⟨fun hf => ?_, fun hf => ?_⟩
    · rw [if_pos hf.2]
    · rw [if_neg fun hlt => hf ⟨ht, hlt⟩]

/-- An accepted delivery has a numeral timestamp and the signature computed for it. -/
theorem accepted {now : ClockReading}
    (h : (verifyPayload d m now secret timestamp payload signature tolerance).run = some (.ok ())) :
    (∃ ts, Numeral timestamp ts) ∧ signature = computeSignature d secret timestamp payload := by
  have hcompare : compareSignature d secret timestamp payload signature = .ok () →
      signature = computeSignature d secret timestamp payload := by
    unfold compareSignature
    split
    · intro; assumption
    · intro hc; cases hc
  cases hparse : parse timestamp with
  | none =>
      rw [verifyPayload_invalid hparse] at h
      cases h
  | some v =>
      refine ⟨⟨_, numeral_iff.mpr ⟨v, hparse, rfl⟩⟩, hcompare ?_⟩
      by_cases ht : tolerance = 0
      · subst ht
        rw [verifyPayload_zero hparse] at h
        exact Option.some.inj h
      · rw [verifyPayload_pos hparse ht] at h
        obtain ⟨age, -, hage⟩ := Option.map_eq_some_iff.mp h
        split at hage
        · cases hage
        · exact hage

end verify

/-! ### A test delivery -/

/-- Two lowercase digits for every byte. -/
def hexEncode (bytes : Bytes) : String :=
  String.ofList (bytes.flatMap fun b => [(b.toNat / 16).digitChar, (b.toNat % 16).digitChar])

theorem digitChar_inj : ∀ a < 16, ∀ b < 16, Nat.digitChar a = Nat.digitChar b → a = b := by decide

theorem hexEncode_injective : Function.Injective hexEncode := by
  intro a b h
  have hflat := String.ofList_injective h
  clear h
  induction a generalizing b with
  | nil =>
      cases b with
      | nil => rfl
      | cons y b => cases hflat
  | cons x a ih =>
      cases b with
      | nil => cases hflat
      | cons y b =>
          obtain ⟨hhigh, hflat⟩ := List.cons.inj hflat
          obtain ⟨hlow, hflat⟩ := List.cons.inj hflat
          have hx := x.toNat_lt
          have hy := y.toNat_lt
          have hdiv := digitChar_inj _ (by omega) _ (by omega) hhigh
          have hmod := digitChar_inj _ (by omega) _ (by omega) hlow
          have hxy : x = y := UInt8.toNat_inj.mp (by omega)
          rw [hxy, ih hflat]

def testSecret : String := "whsec_test_secret_key_12345"

def testPayload : Bytes := utf8 "\x7b\x7d"

def testSignature : String := "v1=c9148205b7d101143d6c76d59b31669c05cdaed05d50c012ea816df19d2969e0"

/-- The keyed hash at the test secret and the test payload, sent twice, a minute apart. -/
def testDigests : Digests where
  hmacSha256 key message :=
    if key = utf8 testSecret ∧ message = canonical "1700000000" testPayload then
      [201, 20, 130, 5, 183, 209, 1, 20, 61, 108, 118, 213, 155, 49, 102, 156, 5, 205, 174, 208, 93,
        80, 192, 18, 234, 129, 109, 241, 157, 41, 105, 224]
    else if key = utf8 testSecret ∧ message = canonical "1700000060" testPayload then
      [200, 137, 96, 24, 64, 194, 128, 41, 51, 7, 80, 154, 150, 159, 151, 111, 197, 205, 25, 221,
        171, 99, 30, 40, 53, 4, 72, 246, 85, 58, 214, 206]
    else []
  hexEncode := hexEncode

/-! ### One signature, one delivery -/

theorem canonical_inj {t₁ t₂ : String} {p₁ p₂ : Bytes} {n₁ n₂ : ℤ} (h₁ : Numeral t₁ n₁)
    (h₂ : Numeral t₂ n₂) (h : canonical t₁ p₁ = canonical t₂ p₂) : t₁ = t₂ ∧ p₁ = p₂ := by
  obtain ⟨ht, hp⟩ := append_cons_inj_of_notMem h₁.dot_notMem h₂.dot_notMem h
  exact ⟨utf8_injective ht, hp⟩

theorem computeSignature_inj {d : Digests} {secret : String} {M : Set Bytes}
    (hmac : Set.InjOn (d.hmacSha256 (utf8 secret)) M) (hex : Function.Injective d.hexEncode)
    {t₁ t₂ : String} {p₁ p₂ : Bytes} (h₁ : canonical t₁ p₁ ∈ M) (h₂ : canonical t₂ p₂ ∈ M)
    (h : computeSignature d secret t₁ p₁ = computeSignature d secret t₂ p₂) :
    canonical t₁ p₁ = canonical t₂ p₂ := by
  unfold computeSignature at h
  exact hmac h₁ h₂ (hex (String.append_right_inj _ |>.mp h))

/-- **Two deliveries accepted with one secret and one signature are the same delivery.** -/
theorem oneDelivery {d : Digests} {secret signature : String} {M : Set Bytes}
    (hmac : Set.InjOn (d.hmacSha256 (utf8 secret)) M) (hex : Function.Injective d.hexEncode)
    {m₁ m₂ : OverflowChecks} {now₁ now₂ : ClockReading} {t₁ t₂ : String} {p₁ p₂ : Bytes}
    {tol₁ tol₂ : Duration} (hM₁ : canonical t₁ p₁ ∈ M) (hM₂ : canonical t₂ p₂ ∈ M)
    (h₁ : (verifyPayload d m₁ now₁ secret t₁ p₁ signature tol₁).run = some (.ok ()))
    (h₂ : (verifyPayload d m₂ now₂ secret t₂ p₂ signature tol₂).run = some (.ok ())) :
    t₁ = t₂ ∧ p₁ = p₂ := by
  obtain ⟨⟨n₁, hn₁⟩, hs₁⟩ := accepted h₁
  obtain ⟨⟨n₂, hn₂⟩, hs₂⟩ := accepted h₂
  exact canonical_inj hn₁ hn₂ (computeSignature_inj hmac hex hM₁ hM₂ (hs₁.symm.trans hs₂))

/-- The test delivery is accepted a hundred seconds later, and again without a tolerance, by a
hash that tells it from the one sent a minute later. -/
theorem oneDelivery_replayed : "1700000000" = "1700000000" ∧ testPayload = testPayload :=
  oneDelivery (M := {canonical "1700000000" testPayload, canonical "1700000060" testPayload})
    ((Set.injOn_pair).mpr fun h => absurd h (show testDigests.hmacSha256 (utf8 testSecret)
      (canonical "1700000000" testPayload) ≠ testDigests.hmacSha256 (utf8 testSecret)
        (canonical "1700000060" testPayload) by decide +kernel))
    hexEncode_injective (.inl rfl) (.inl rfl)
    (show (verifyPayload testDigests .on (some ⟨1700000100, by decide⟩) testSecret "1700000000"
      testPayload testSignature (Duration.fromSecs 300)).run = some (.ok ()) by decide +kernel)
    (show (verifyPayload testDigests .off none testSecret "1700000000" testPayload testSignature
      0).run = some (.ok ()) by decide +kernel)

/-! ### The decision, documented -/

/-- `v1=` and the hex HMAC of `timestamp.payload`. -/
def documentedSignature (d : Digests) (secret timestamp : String) (payload : Bytes) : String :=
  "v1=" ++ d.hexEncode (d.hmacSha256 (utf8 secret) (utf8 (timestamp ++ ".") ++ payload))

theorem computeSignature_eq (d : Digests) (secret timestamp : String) (payload : Bytes) :
    computeSignature d secret timestamp payload = documentedSignature d secret timestamp payload := by
  have hdot : utf8 "." = ['.'.val.toUInt8] := by decide
  have hversion : signatureVersion ++ "=" = "v1=" := by decide
  unfold computeSignature documentedSignature canonical
  rw [hversion, utf8_append, hdot, List.append_assoc, List.singleton_append]

/-- The outcome `r` of a verification at `now` is the documented one. -/
structure Decided (d : Digests) (now : ℤ) (secret timestamp : String) (payload : Bytes)
    (signature : String) (tolerance : Duration) (r : Option (Except WebhookError Unit)) : Prop where
  invalid : r = some (.error (.invalidTimestamp timestamp)) ↔ ¬ ∃ ts, Numeral timestamp ts
  expired : (∃ age, r = some (.error (.timestampExpired age tolerance.asSecs))) ↔
    ∃ ts, Numeral timestamp ts ∧ TooFar now ts tolerance
  mismatch : r = some (.error .signatureMismatch) ↔
    (∃ ts, Numeral timestamp ts ∧ ¬ TooFar now ts tolerance) ∧
      signature ≠ documentedSignature d secret timestamp payload
  accepted : r = some (.ok ()) ↔
    (∃ ts, Numeral timestamp ts ∧ ¬ TooFar now ts tolerance) ∧
      signature = documentedSignature d secret timestamp payload

theorem Numeral.unique {s : String} {i j : ℤ} (hi : Numeral s i) (hj : Numeral s j) : i = j := by
  obtain ⟨v, hv, rfl⟩ := numeral_iff.mp hi
  obtain ⟨w, hw, rfl⟩ := numeral_iff.mp hj
  rw [Option.some.inj (hv.symm.trans hw)]

section decision
variable {d : Digests} {m : OverflowChecks} {now : UnixTime} {secret timestamp signature : String}
  {payload : Bytes} {tolerance : Duration}

theorem decided (hfit : ∀ ts, Numeral timestamp ts → Fits (now.secs - ts)) :
    Decided d now.secs secret timestamp payload signature tolerance
      (verifyPayload d m (some now) secret timestamp payload signature tolerance).run := by
  by_cases hnum : ∃ ts, Numeral timestamp ts
  · obtain ⟨ts, hts⟩ := hnum
    have hex : ∀ P : ℤ → Prop, (∃ i, Numeral timestamp i ∧ P i) ↔ P ts := fun P =>
      ⟨fun ⟨i, hi, hP⟩ => hi.unique hts ▸ hP, fun hP => ⟨ts, hts, hP⟩⟩
    by_cases ht : TooFar now.secs ts tolerance
    · rw [(verifyPayload_eq hts (hfit ts hts)).1 ht]
      refine ⟨?_, ?_, ?_, ?_⟩
      · exact iff_of_false (by simp) (not_not.mpr ⟨ts, hts⟩)
      · exact iff_of_true ⟨_, rfl⟩ ((hex _).mpr ht)
      · exact iff_of_false (by simp) fun h => (hex (¬ TooFar now.secs · tolerance)).mp h.1 ht
      · exact iff_of_false (by simp) fun h => (hex (¬ TooFar now.secs · tolerance)).mp h.1 ht
    · have hts' := (hex (¬ TooFar now.secs · tolerance)).mpr ht
      rw [(verifyPayload_eq hts (hfit ts hts)).2 ht]
      unfold compareSignature
      rw [computeSignature_eq]
      refine ⟨?_, ?_, ?_, ?_⟩
      · refine iff_of_false ?_ (not_not.mpr ⟨ts, hts⟩)
        split <;> simp
      · refine iff_of_false ?_ (fun h => ht ((hex _).mp h))
        split <;> simp
      · rw [and_iff_right hts']
        split <;> simp [*]
      · rw [and_iff_right hts']
        split <;> simp [*]
  · have hparse : parse timestamp = none := by
      rw [Option.eq_none_iff_forall_ne_some]
      exact fun v hv => hnum ⟨_, numeral_iff.mpr ⟨v, hv, rfl⟩⟩
    have hno : ∀ P : ℤ → Prop, ¬ ∃ ts, Numeral timestamp ts ∧ P ts := fun P ⟨ts, hts, _⟩ =>
      hnum ⟨ts, hts⟩
    rw [verifyPayload_invalid hparse]
    refine ⟨iff_of_true rfl hnum, ?_, ?_, ?_⟩
    · exact iff_of_false (by simp) (hno _)
    · exact iff_of_false (by simp) fun h => hno _ h.1
    · exact iff_of_false (by simp) fun h => hno _ h.1

/-- What is signed with a timestamp is accepted exactly when the timestamp is. -/
theorem verify_signWithTimestamp (hfit : ∀ ts, Numeral timestamp ts → Fits (now.secs - ts)) :
    (verifyPayload d m (some now) secret timestamp payload
        (signPayloadWithTimestamp d secret payload timestamp) tolerance).run = some (.ok ()) ↔
      ∃ ts, Numeral timestamp ts ∧ ¬ TooFar now.secs ts tolerance := by
  unfold signPayloadWithTimestamp
  rw [(decided hfit).accepted, computeSignature_eq, and_iff_left rfl]

/-- What is signed at one time is accepted at another within the tolerance. -/
theorem verify_sign (d : Digests) (m : OverflowChecks) (secret : String) (payload : Bytes)
    (tolerance : Duration) (t₁ t₂ : UnixTime) :
    ∃ ts sig, signPayload d (some t₁) secret payload = some (ts, sig) ∧
      ((verifyPayload d m (some t₂) secret ts payload sig tolerance).run = some (.ok ()) ↔
        tolerance = 0 ∨ |(t₂.secs : ℤ) - t₁.secs| ≤ tolerance.asSecs) := by
  refine ⟨_, _, rfl, ?_⟩
  have h₁ := t₁.inRange
  have h₂ := t₂.inRange
  have hnum : Numeral t₁.secs.repr t₁.secs := ⟨denotes_repr _, by omega, by omega⟩
  have hfit : ∀ ts, Numeral t₁.secs.repr ts → Fits (t₂.secs - ts) := by
    intro ts hts
    rw [hts.unique hnum]
    exact ⟨by omega, by omega⟩
  refine (verify_signWithTimestamp hfit).trans ?_
  constructor
  · rintro ⟨ts, hts, hnear⟩
    rw [hts.unique hnum] at hnear
    unfold TooFar at hnear
    by_contra hno
    rw [not_or, not_le] at hno
    exact hnear hno
  · intro h
    refine ⟨_, hnum, ?_⟩
    rintro ⟨hne, hlt⟩
    obtain h | h := h
    · exact hne h
    · omega

/-- **Verification decides as documented, and accepts what was signed within the tolerance.** -/
theorem decisionProcedure (d : Digests) (m : OverflowChecks) (secret : String) (payload : Bytes)
    (tolerance : Duration) :
    (∀ (now : UnixTime) timestamp signature,
      (∀ ts, Numeral timestamp ts → Fits (now.secs - ts)) →
        Decided d now.secs secret timestamp payload signature tolerance
          (verifyPayload d m (some now) secret timestamp payload signature tolerance).run) ∧
    ∀ t₁ t₂ : UnixTime, ∃ ts sig, signPayload d (some t₁) secret payload = some (ts, sig) ∧
      ((verifyPayload d m (some t₂) secret ts payload sig tolerance).run = some (.ok ()) ↔
        tolerance = 0 ∨ |(t₂.secs : ℤ) - t₁.secs| ≤ tolerance.asSecs) :=
  ⟨fun _ _ _ hfit => decided hfit, verify_sign d m secret payload tolerance⟩

end decision

theorem decisionProcedure_early :
    Decided testDigests 1699999900 testSecret "1700000000" testPayload testSignature
      (Duration.fromSecs 300) (verifyPayload testDigests .on (some ⟨1699999900, by decide⟩) testSecret
        "1700000000" testPayload testSignature (Duration.fromSecs 300)).run := by
  refine (decisionProcedure testDigests .on testSecret testPayload (Duration.fromSecs 300)).1
    ⟨1699999900, by decide⟩ _ _ fun ts hts => ?_
  have hnum : Numeral "1700000000" 1700000000 := numeral_iff.mpr ⟨1700000000, by decide +kernel, rfl⟩
  rw [hts.unique hnum]
  decide

end ParatroSdk
