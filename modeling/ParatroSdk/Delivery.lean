import ParatroSdk.Lib.Channel
import ParatroSdk.WebhookEvent
import ParatroSdk.Webhook

/-! # Webhooks on their way

The sender signs every body with `sign_payload` at the time of its clock.  Whoever has the wire
delivers packets to `handle_webhook` of the README, which verifies them with `verify_payload`
and parses the body: in any order, late, again, or altered.  What he cannot do without the
secret is to sign a text that the sender did not sign (`presentable`).

`genuine_of_run` says which deliveries are handled in any run: the packets of the sender, each
as long as it is within the tolerance.  Nothing in `webhook.rs` keeps a packet from being
handled twice in that time. -/

namespace ParatroSdk

open Text Machine Channel Transition

/-- `DEFAULT_TOLERANCE`: five minutes. -/
def defaultTolerance : Duration := Duration.fromSecs (5 * 60)

inductive HandlerError where
  | webhook (e : WebhookError)
  | json (e : SerdeJsonError)
deriving DecidableEq

/-- The headers and the body of a webhook. -/
@[ext] structure WebhookPacket where
  timestamp : String
  signature : String
  payload : Bytes
deriving DecidableEq

section handler
variable (d : Digests) (m : OverflowChecks) (json : SerdeJson)

/-- `handle_webhook` of the README, up to the event. -/
def handleWebhook (now : ClockReading) (secret timestamp : String) (payload : Bytes)
    (signature : String) (tolerance : Duration) : Option (Except HandlerError WebhookEvent) := do
  match ← (verifyPayload d m now secret timestamp payload signature tolerance).run with
  | .error e => return .error (.webhook e)
  | .ok () =>
      match parseEvent json payload with
      | .error e => return .error (.json e)
      | .ok event => return .ok event

/-- The packet has another signature than its text, or its text was signed before. -/
def presentable (secret : String) (sent : List WebhookPacket) (packet : WebhookPacket) : Bool :=
  packet.signature != computeSignature d secret packet.timestamp packet.payload ||
    sent.any fun packet₀ =>
      canonical packet₀.timestamp packet₀.payload == canonical packet.timestamp packet.payload

/-- Webhooks under a secret, handled with a tolerance. -/
def webhooks (secret : String) (tolerance : Duration) :
    Scheme UnixTime Bytes WebhookPacket (Option (Except HandlerError WebhookEvent)) where
  secs := UnixTime.secs
  sign clock payload :=
    (signPayload d (some clock) secret payload).map fun (ts, sig) => ⟨ts, sig, payload⟩
  verify clock packet :=
    handleWebhook d m json (some clock) secret packet.timestamp packet.payload packet.signature
      tolerance
  presentable := presentable d secret

end handler

abbrev WebhookEntry := Entry (Wire WebhookPacket) (Channel.Act UnixTime Bytes WebhookPacket)
  (Out WebhookPacket (Option (Except HandlerError WebhookEvent)))

section verify
variable {d : Digests} {m : OverflowChecks} {json : SerdeJson} {secret : String}
  {tolerance : Duration} {clock clock₀ : UnixTime} {payload : Bytes} {packet : WebhookPacket}

theorem handleWebhook_eq_ok_iff {now : ClockReading} {timestamp signature : String}
    {event : WebhookEvent} :
    handleWebhook d m json now secret timestamp payload signature tolerance = some (.ok event) ↔
      (verifyPayload d m now secret timestamp payload signature tolerance).run = some (.ok ()) ∧
        parseEvent json payload = .ok event := by
  unfold handleWebhook
  cases (verifyPayload d m now secret timestamp payload signature tolerance).run with
  | none => simp
  | some r =>
      cases r with
      | error e => simp
      | ok u => cases hp : parseEvent json payload <;> simp

theorem handleWebhook_eq_none_iff {now : ClockReading} {timestamp signature : String} :
    handleWebhook d m json now secret timestamp payload signature tolerance = none ↔
      (verifyPayload d m now secret timestamp payload signature tolerance).run = none := by
  unfold handleWebhook
  cases (verifyPayload d m now secret timestamp payload signature tolerance).run with
  | none => simp
  | some r =>
      cases r with
      | error e => simp
      | ok u => cases hp : parseEvent json payload <;> simp

theorem sign_eq (h : (webhooks d m json secret tolerance).sign clock₀ payload = some packet) :
    packet = ⟨clock₀.secs.repr, computeSignature d secret clock₀.secs.repr payload, payload⟩ :=
  (Option.some.inj h).symm

theorem numeral_secs (clock : UnixTime) : Numeral clock.secs.repr clock.secs := by
  have h := clock.inRange
  exact ⟨denotes_repr _, by omega, by omega⟩

/-- Two clocks are never too far apart for a 64-bit difference. -/
theorem fits_secs {ts : ℤ} (h : Numeral clock₀.secs.repr ts) : Fits (clock.secs - ts) := by
  rw [h.unique (numeral_secs clock₀)]
  have h := clock.inRange
  have h₀ := clock₀.inRange
  exact ⟨by omega, by omega⟩

/-- A timestamp of the sender does not make the verification panic. -/
theorem verify_completes {signature : String} :
    (verifyPayload d m (some clock) secret clock₀.secs.repr payload signature tolerance).run ≠
      none := by
  have hnum := numeral_secs clock₀
  by_cases hfar : TooFar clock.secs clock₀.secs tolerance
  · rw [(verifyPayload_eq hnum (fits_secs hnum)).1 hfar]
    exact Option.some_ne_none _
  · rw [(verifyPayload_eq hnum (fits_secs hnum)).2 hfar]
    exact Option.some_ne_none _

/-- What was signed at one time is accepted at another within the tolerance. -/
theorem verify_signed (h : (webhooks d m json secret tolerance).sign clock₀ payload = some packet) :
    (verifyPayload d m (some clock) secret packet.timestamp packet.payload packet.signature
        tolerance).run = some (.ok ()) ↔
      tolerance = 0 ∨ |(clock.secs : ℤ) - clock₀.secs| ≤ tolerance.asSecs := by
  obtain ⟨ts, sig, hsign, hverify⟩ := verify_sign d m secret payload tolerance clock₀ clock
  rw [sign_eq h]
  cases hsign
  exact hverify

end verify

/-- What is made of a packet that is delivered after the steps `pre`, by their clocks and in
real time. -/
structure Genuine (d : Digests) (m : OverflowChecks) (json : SerdeJson) (secret : String)
    (tolerance : Duration) (skew : ℕ) (pre : List WebhookEntry) (e : WebhookEntry)
    (clock : UnixTime) (packet : WebhookPacket) : Prop where
  handled_iff : ∀ event, e.out = .verdict (some (.ok event)) ↔
    parseEvent json packet.payload = .ok event ∧ ∃ e₀ ∈ pre, ∃ clock₀ payload,
      Signs e₀ clock₀ payload packet ∧
        (tolerance = 0 ∨ |(clock.secs : ℤ) - clock₀.secs| ≤ tolerance.asSecs)
  recent : ∀ event, e.out = .verdict (some (.ok event)) → tolerance ≠ 0 →
    ∃ e₀ ∈ pre, ∃ clock₀ payload, Signs e₀ clock₀ payload packet ∧
      e₀.before.now ≤ e.before.now ∧
        e.before.now ≤ e₀.before.now + tolerance.asSecs + 2 * skew
  arrives : ∀ e₀ ∈ pre, ∀ clock₀ payload, Signs e₀ clock₀ payload packet →
    e.before.now + 2 * skew ≤ e₀.before.now + tolerance.asSecs →
      ∀ event, parseEvent json packet.payload = .ok event → e.out = .verdict (some (.ok event))
  completes : ∀ e₀ ∈ pre, ∀ clock₀ payload packet₀, Signs e₀ clock₀ payload packet₀ →
    packet.timestamp = packet₀.timestamp → e.out ≠ .verdict none

section runs
variable {d : Digests} {m : OverflowChecks} {json : SerdeJson} {secret : String}
  {tolerance : Duration} {skew now : ℕ} {s : Wire WebhookPacket} {tr : List WebhookEntry}

/-- A packet that is accepted was signed before. -/
theorem signed_of_accepted
    (h : (lts (webhooks d m json secret tolerance) skew).Run (.initial now) tr s)
    {clock : UnixTime} {packet : WebhookPacket}
    (hpresentable : presentable d secret s.sent packet = true)
    (haccepted : (verifyPayload d m (some clock) secret packet.timestamp packet.payload
      packet.signature tolerance).run = some (.ok ())) :
    ∃ e₀ ∈ tr, ∃ clock₀ payload, Signs e₀ clock₀ payload packet := by
  obtain ⟨⟨ts, hts⟩, hsig⟩ := accepted haccepted
  have hsigned : ∃ packet₀ ∈ s.sent, canonical packet₀.timestamp packet₀.payload =
      canonical packet.timestamp packet.payload := by
    simpa [presentable, hsig] using hpresentable
  obtain ⟨packet₀, hmem, hcanonical⟩ := hsigned
  obtain ⟨e₀, he₀, clock₀, payload, hsigns⟩ := (sent_iff h).mp hmem
  -- the text splits in one way only
  have hpacket₀ := sign_eq (sign_of_signs h he₀ hsigns)
  have hnum : Numeral packet₀.timestamp clock₀.secs := by
    rw [hpacket₀]
    exact numeral_secs clock₀
  obtain ⟨htimestamp, hpayload⟩ := canonical_inj hnum hts hcanonical
  have hsig₀ : packet₀.signature = computeSignature d secret packet₀.timestamp packet₀.payload := by
    rw [hpacket₀]
  rw [htimestamp, hpayload, ← hsig] at hsig₀
  obtain rfl : packet₀ = packet := WebhookPacket.ext htimestamp hsig₀ hpayload
  exact ⟨e₀, he₀, clock₀, payload, hsigns⟩

/-- **Exactly the packets of the sender are handled, each as long as it is within the
tolerance.** -/
theorem genuine_of_run {pre post : List WebhookEntry} {e : WebhookEntry}
    (h : (lts (webhooks d m json secret tolerance) skew).Run (.initial now) (pre ++ e :: post) s)
    {clock : UnixTime} {packet : WebhookPacket} (hact : e.act = .deliver clock packet) :
    Genuine d m json secret tolerance skew pre e clock packet := by
  obtain ⟨hpre, ht, -⟩ := h.split
  obtain ⟨-, hpresentable, -, hout⟩ := took_deliver ht hact
  have hiff : ∀ event, e.out = .verdict (some (.ok event)) ↔
      parseEvent json packet.payload = .ok event ∧ ∃ e₀ ∈ pre, ∃ clock₀ payload,
        Signs e₀ clock₀ payload packet ∧
          (tolerance = 0 ∨ |(clock.secs : ℤ) - clock₀.secs| ≤ tolerance.asSecs) := by
    intro event
    rw [hout, Out.verdict.injEq]
    refine handleWebhook_eq_ok_iff.trans ⟨?_, ?_⟩
    · rintro ⟨haccepted, hparse⟩
      obtain ⟨e₀, he₀, clock₀, payload, hsigns⟩ :=
        signed_of_accepted hpre hpresentable haccepted
      have hnear := (verify_signed (sign_of_signs hpre he₀ hsigns)).mp haccepted
      exact ⟨hparse, e₀, he₀, clock₀, payload, hsigns, hnear⟩
    · rintro ⟨hparse, e₀, he₀, clock₀, payload, hsigns, hnear⟩
      exact ⟨(verify_signed (sign_of_signs hpre he₀ hsigns)).mpr hnear, hparse⟩
  refine ⟨hiff, ?_, ?_, ?_⟩
  · intro event hevent htolerance
    obtain ⟨-, e₀, he₀, clock₀, payload, hsigns, hnear⟩ := (hiff event).mp hevent
    have hnear := hnear.resolve_left htolerance
    rw [Int.abs_eq_natAbs] at hnear
    obtain ⟨hmono, hlate, -⟩ := elapsed h he₀ hsigns hact
    change _ + clock₀.secs ≤ _ + clock.secs + _ at hlate
    exact ⟨e₀, he₀, clock₀, payload, hsigns, hmono, by omega⟩
  · intro e₀ he₀ clock₀ payload hsigns hintime event hparse
    obtain ⟨hmono, hlate, hearly⟩ := elapsed h he₀ hsigns hact
    change _ + clock₀.secs ≤ _ + clock.secs + _ at hlate
    change _ + clock.secs ≤ _ + clock₀.secs + _ at hearly
    refine (hiff event).mpr ⟨hparse, e₀, he₀, clock₀, payload, hsigns, .inr ?_⟩
    rw [Int.abs_eq_natAbs]
    omega
  · intro e₀ he₀ clock₀ payload packet₀ hsigns htimestamp hnone
    rw [hout, Out.verdict.injEq] at hnone
    have hrun := handleWebhook_eq_none_iff.mp hnone
    rw [htimestamp, sign_eq (sign_of_signs hpre he₀ hsigns)] at hrun
    exact verify_completes hrun

end runs

/-! ### A delivery after a hundred seconds -/

/-- The keyed hash at the test secret and one event. -/
def deliveryDigests : Digests where
  hmacSha256 key message :=
    if key = utf8 testSecret ∧ message = canonical "1700000000" (utf8 legacyBody) then
      [127, 137, 248, 5, 71, 158, 59, 12, 112, 114, 191, 6, 63, 97, 241, 237, 179, 210, 37, 38, 38,
        23, 135, 40, 220, 236, 72, 63, 255, 205, 189, 11]
    else []
  hexEncode := hexEncode

def deliveryPacket : WebhookPacket where
  timestamp := "1700000000"
  signature := "v1=7f89f805479e3b0c7072bf063f61f1edb3d2252626178728dcec483fffcdbd0b"
  payload := utf8 legacyBody

def deliveryWebhooks := webhooks deliveryDigests .on legacyJson testSecret defaultTolerance

/-- The clock of the sender is three seconds late, the clock of the receiver two. -/
def deliverySigned : WebhookEntry :=
  ⟨⟨1700000003, []⟩, .sign ⟨1700000000, by decide⟩ (utf8 legacyBody), .signed deliveryPacket,
    ⟨1700000003, [deliveryPacket]⟩⟩

def deliveryWaited : WebhookEntry :=
  ⟨⟨1700000003, [deliveryPacket]⟩, .wait 100, .waited, ⟨1700000103, [deliveryPacket]⟩⟩

def deliveryMade : WebhookEntry :=
  ⟨⟨1700000103, [deliveryPacket]⟩, .deliver ⟨1700000101, by decide⟩ deliveryPacket,
    .verdict (deliveryWebhooks.verify ⟨1700000101, by decide⟩ deliveryPacket),
    ⟨1700000103, [deliveryPacket]⟩⟩

theorem sign_delivery : deliveryWebhooks.sign ⟨1700000000, by decide⟩ (utf8 legacyBody) =
    some deliveryPacket := by
  have hsig : computeSignature deliveryDigests testSecret "1700000000" (utf8 legacyBody) =
      deliveryPacket.signature := by
    unfold computeSignature deliveryDigests
    dsimp only
    rw [if_pos ⟨Eq.refl (utf8 testSecret), Eq.refl (canonical "1700000000" (utf8 legacyBody))⟩]
    decide +kernel
  have htimestamp : (1700000000 : ℕ).repr = "1700000000" := by decide +kernel
  unfold deliveryWebhooks webhooks signPayload
  simp [htimestamp, hsig, deliveryPacket]

theorem run_delivery : (lts deliveryWebhooks 5).Run (.initial 1700000003)
    ([deliverySigned, deliveryWaited] ++ [deliveryMade]) deliveryMade.after := by
  have hsigned : (lts deliveryWebhooks 5).Took deliverySigned :=
    took_of_sign (s := ⟨1700000003, []⟩) (by decide) sign_delivery
  have hwaited : (lts deliveryWebhooks 5).Took deliveryWaited := rfl
  have hpresentable : deliveryWebhooks.presentable [deliveryPacket] deliveryPacket = true := by
    simp [deliveryWebhooks, webhooks, presentable]
  have hmade : (lts deliveryWebhooks 5).Took deliveryMade :=
    took_of_deliver (s := ⟨1700000103, [deliveryPacket]⟩) (by decide) hpresentable
  exact ((Lts.Run.nil.snoc hsigned).snoc hwaited).snoc hmade

theorem genuine_delivery :
    Genuine deliveryDigests .on legacyJson testSecret defaultTolerance 5
      [deliverySigned, deliveryWaited] deliveryMade ⟨1700000101, by decide⟩ deliveryPacket ∧
        deliveryMade.out = .verdict (some (.ok legacyEvent)) := by
  have hgenuine : Genuine deliveryDigests .on legacyJson testSecret defaultTolerance 5
      [deliverySigned, deliveryWaited] deliveryMade ⟨1700000101, by decide⟩ deliveryPacket :=
    genuine_of_run run_delivery rfl
  have htree : legacyJson.tree (utf8 legacyBody) =
      .ok (.object (Serde.remove (WebhookEvent.record.members legacyEvent) "operation")) := by
    unfold legacyJson
    dsimp only
    rw [if_pos (Eq.refl (utf8 legacyBody))]
  have hparse : parseEvent legacyJson (utf8 legacyBody) = .ok legacyEvent :=
    SerdeJson.fromSlice_ok_iff.mpr ⟨_, htree, by decide +kernel⟩
  have hpayload : deliveryPacket.payload = utf8 legacyBody := by simp only [deliveryPacket]
  rw [← hpayload] at hparse
  have hintime : deliveryMade.before.now + 2 * 5 ≤
      deliverySigned.before.now + defaultTolerance.asSecs := by decide +kernel
  exact ⟨hgenuine, hgenuine.arrives deliverySigned (by simp) _ _ ⟨rfl, rfl⟩ hintime _ hparse⟩

end ParatroSdk
