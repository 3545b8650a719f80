import ParatroSdk.Webhook

/-! # The freshness of a webhook timestamp

`verify_payload` takes the distance of the clock from the timestamp as the absolute value of
a 64-bit difference (`src/webhook.rs`).  The timestamp is a header of the delivery, so it may
be any 64-bit value, and the distance of two of those needs 65 bits.

A build with overflow checks panics where the difference does not fit.  A build without them
wraps, and takes the timestamp to be as near as the wrapped difference says; that goes
unnoticed at the distance `2 ^ 63` and where the tolerance is larger still
(`freshnessExact_iff`). -/

namespace ParatroSdk

open Text Machine

/-- The distance of the clock from the timestamp. -/
def timestampDistance (now : UnixTime) (ts : ℤ) : ℕ := (now.secs - ts).natAbs

/-- The verification completes, and reports an expired timestamp exactly when its distance
exceeds the whole seconds of the tolerance, with that distance as its age. -/
structure ReportsAge (d : Digests) (m : OverflowChecks) (now : UnixTime) (secret timestamp : String)
    (payload : Bytes) (signature : String) (tolerance : Duration) (ts : ℤ) : Prop where
  completes :
    (verifyPayload d m (some now) secret timestamp payload signature tolerance).run ≠ none
  expired : ∀ age toleranceSecs,
    (verifyPayload d m (some now) secret timestamp payload signature tolerance).run =
        some (.error (.timestampExpired age toleranceSecs)) ↔
      tolerance.asSecs < timestampDistance now ts ∧ age = timestampDistance now ts ∧
        toleranceSecs = tolerance.asSecs

/-- Where the build reports the age of a timestamp as it is. -/
def AgeInRange : OverflowChecks → UnixTime → ℤ → Duration → Prop
  | .on, now, ts, _ => Fits (now.secs - ts)
  | .off, now, ts, tolerance =>
      timestampDistance now ts ≤ 2 ^ 63 ∨ timestampDistance now ts ≤ tolerance.asSecs

/-- The whole claim of exactness: the 64-bit difference does not overflow either. -/
structure FreshnessExact (d : Digests) (m : OverflowChecks) (now : UnixTime)
    (secret timestamp : String) (payload : Bytes) (signature : String) (tolerance : Duration)
    (ts : Int64) : Prop extends
    ReportsAge d m now secret timestamp payload signature tolerance ts.toInt where
  noOverflow : checkedSub (Int64.ofNat now.secs) ts ≠ none

section age
variable {d : Digests} {m : OverflowChecks} {now : UnixTime} {secret timestamp signature : String}
  {payload : Bytes} {tolerance : Duration} {ts : Int64}

/-- The wrapped difference is as far from `2 ^ 64` as the distance. -/
theorem timestampAge_wrapped (h : ¬ Fits (now.secs - ts.toInt)) :
    timestampAge .off (some now) ts = some (2 ^ 64 - timestampDistance now ts.toInt) := by
  have hnow := now.inRange
  have hle := ts.le_toInt
  have hlt := ts.toInt_lt
  have hfar : 2 ^ 63 ≤ now.secs - ts.toInt := by
    unfold Fits at h
    omega
  have hval := toInt_sub_wrapped (a := Int64.ofNat now.secs) (b := ts) (-1) (by
    rw [toInt_secs]
    unfold Fits
    omega)
  rw [toInt_secs] at hval
  unfold timestampAge timestampDistance
  simp only [Option.bind_eq_bind, Option.bind_some, sub, hval, Option.pure_def]
  congr 1
  omega

theorem timestampAge_on_none (h : ¬ Fits (now.secs - ts.toInt)) :
    timestampAge .on (some now) ts = none := by
  unfold timestampAge
  rw [← toInt_secs now] at h
  simp only [Option.bind_eq_bind, Option.bind_some, sub_on_of_not_fits h, Option.bind_none]

theorem compareSignature_ne_expired {age toleranceSecs : ℕ} :
    compareSignature d secret timestamp payload signature ≠
      .error (.timestampExpired age toleranceSecs) := by
  unfold compareSignature
  split <;> simp

/-- An age is reported rightly when it is the distance, or when neither of the two exceeds the
tolerance. -/
theorem reportsAge_iff_age (hparse : parse timestamp = some ts) (ht : tolerance ≠ 0) {age : ℕ}
    (hage : timestampAge m (some now) ts = some age) :
    ReportsAge d m now secret timestamp payload signature tolerance ts.toInt ↔
      age = timestampDistance now ts.toInt ∨
        age ≤ tolerance.asSecs ∧ timestampDistance now ts.toInt ≤ tolerance.asSecs := by
  have hrun : (verifyPayload d m (some now) secret timestamp payload signature tolerance).run = _ :=
    verifyPayload_pos hparse ht
  rw [hage, Option.map_some] at hrun
  have hexpired : ∀ age' toleranceSecs,
      (verifyPayload d m (some now) secret timestamp payload signature tolerance).run =
          some (.error (.timestampExpired age' toleranceSecs)) ↔
        tolerance.asSecs < age ∧ age' = age ∧ toleranceSecs = tolerance.asSecs := by
    intro age' toleranceSecs
    rw [hrun]
    by_cases hlt : tolerance.asSecs < age
    · rw [if_pos hlt]
      constructor
      · intro h
        cases h
        exact ⟨hlt, rfl, rfl⟩
      · rintro ⟨-, rfl, rfl⟩
        rfl
    · rw [if_neg hlt]
      refine iff_of_false (fun h => ?_) fun h => hlt h.1
      exact compareSignature_ne_expired (Option.some.inj h)
  constructor
  · intro h
    by_cases hfar : tolerance.asSecs < timestampDistance now ts.toInt
    · have hreport := (h.expired _ _).mpr ⟨hfar, rfl, rfl⟩
      exact .inl ((hexpired _ _).mp hreport).2.1.symm
    · by_cases hlt : tolerance.asSecs < age
      · have hreport := (hexpired _ _).mpr ⟨hlt, rfl, rfl⟩
        exact absurd ((h.expired _ _).mp hreport).1 hfar
      · exact .inr ⟨by omega, by omega⟩
  · intro h
    refine ⟨?_, fun age' toleranceSecs => (hexpired age' toleranceSecs).trans ?_⟩
    · rw [hrun]
      exact Option.some_ne_none _
    · obtain rfl | ⟨hage, hdist⟩ := h
      · rfl
      · exact iff_of_false (fun h => by omega) fun h => by omega

theorem reportsAge_iff (hparse : parse timestamp = some ts) (ht : tolerance ≠ 0) :
    ReportsAge d m now secret timestamp payload signature tolerance ts.toInt ↔
      AgeInRange m now ts.toInt tolerance := by
  by_cases hfit : Fits (now.secs - ts.toInt)
  · rw [reportsAge_iff_age hparse ht (timestampAge_eq hfit)]
    refine iff_of_true (.inl rfl) ?_
    cases m with
    | on => exact hfit
    | off =>
        left
        unfold timestampDistance
        have hlow := hfit.1
        have hhigh := hfit.2
        omega
  · cases m with
    | on =>
        refine iff_of_false (fun h => h.completes ?_) hfit
        rw [verifyPayload_pos hparse ht, timestampAge_on_none hfit]
        rfl
    | off =>
        rw [reportsAge_iff_age hparse ht (timestampAge_wrapped hfit)]
        have hnow := now.inRange
        have hle := ts.le_toInt
        have hlt := ts.toInt_lt
        unfold AgeInRange
        unfold Fits at hfit
        unfold timestampDistance
        omega

/-- **The freshness check is exact where the difference fits 64 bits, and what it reports is
right there, and in a wrapping build at the distance `2 ^ 63` and within the tolerance.** -/
theorem freshnessExact_iff (d : Digests) (m : OverflowChecks) (now : UnixTime) (secret : String)
    (payload : Bytes) (signature : String) (hparse : parse timestamp = some ts)
    (ht : tolerance ≠ 0) :
    (FreshnessExact d m now secret timestamp payload signature tolerance ts ↔
        Fits (now.secs - ts.toInt)) ∧
      (ReportsAge d m now secret timestamp payload signature tolerance ts.toInt ↔
        AgeInRange m now ts.toInt tolerance) := by
  refine ⟨⟨fun h => ?_, fun hfit => ?_⟩, reportsAge_iff hparse ht⟩
  · by_contra hfit
    apply h.noOverflow
    rw [checkedSub, ofIntChecked, toInt_secs, if_neg hfit]
  · have hreports : ReportsAge d m now secret timestamp payload signature tolerance ts.toInt :=
      (reportsAge_iff_age hparse ht (timestampAge_eq hfit)).mpr (.inl rfl)
    refine ⟨hreports, ?_⟩
    rw [checkedSub, ofIntChecked, toInt_secs, if_pos hfit]
    exact Option.some_ne_none _

end age

theorem freshnessExact_early :
    FreshnessExact testDigests .on ⟨1699999900, by decide⟩ testSecret "1700000000" testPayload
      testSignature (Duration.fromSecs 300) 1700000000 :=
  (freshnessExact_iff testDigests .on ⟨1699999900, by decide⟩ testSecret testPayload testSignature
    (by decide +kernel) (by decide)).1.mpr (by decide)

/-- The earliest timestamp makes a build with overflow checks panic; a build without them
reports it as nearer than it is. -/
theorem not_freshnessExact_min :
    ¬ FreshnessExact testDigests .on ⟨1700000000, by decide⟩ testSecret "-9223372036854775808"
        testPayload testSignature (Duration.fromSecs 300) (-9223372036854775808) ∧
      ¬ FreshnessExact testDigests .off ⟨1700000000, by decide⟩ testSecret "-9223372036854775808"
        testPayload testSignature (Duration.fromSecs 300) (-9223372036854775808) := by
  have hparse : parse "-9223372036854775808" = some (-9223372036854775808) := by decide +kernel
  constructor
  · intro h
    have hreports := (reportsAge_iff hparse (by decide)).mp h.toReportsAge
    exact absurd hreports (show ¬ Fits _ by decide)
  · intro h
    have hreports := (reportsAge_iff hparse (by decide)).mp h.toReportsAge
    exact absurd hreports (show ¬ (_ ∨ _) by decide)

end ParatroSdk
