import ParatroSdk.Lib.Record

/-! # x402 facilitator requests

The payload and the requirements of a payment are any JSON values, and the requirements may be
absent (`src/x402.rs`).  Absent requirements are not written, and `null` is read as absent ones,
so a request is read back as it was written unless its requirements are `null`
(`deserialize_serialize_iff`).  Those are written like no other request
(`serialize_injective`). -/

namespace ParatroSdk

open Serde Json

/-- Body of `POST /x402/verify` and `POST /x402/settle`; the requirements are for version 1. -/
structure X402FacilitatorRequest where
  x402Version : Int32
  paymentPayload : Value
  paymentRequirements : Option Value

namespace X402FacilitatorRequest

def x402VersionField : Serde.Field Int32 := .required "x402Version" .int32
def paymentPayloadField : Serde.Field Value := .required "paymentPayload" .value
def paymentRequirementsField : Serde.Field (Option Value) := .optional "paymentRequirements" .value

def record : Record X402FacilitatorRequest where
  Row := _
  fields := .cons x402VersionField <| .cons paymentPayloadField <|
    .cons paymentRequirementsField .nil
  toRow r := (r.x402Version, r.paymentPayload, r.paymentRequirements, ())
  ofRow := fun (x402Version, paymentPayload, paymentRequirements, ()) =>
    { x402Version, paymentPayload, paymentRequirements }
  ofRow_toRow _ := rfl
  toRow_ofRow _ := rfl
  distinct := by decide +kernel

def serialize (r : X402FacilitatorRequest) : Json := record.encode r

def deserialize (j : Json) : Option X402FacilitatorRequest := record.decode j

theorem has_x402Version :
    record.Has x402VersionField (·.x402Version) fun r v => { r with x402Version := v } :=
  ⟨_, _, .head _, fun _ => rfl, fun _ _ => rfl⟩

theorem has_paymentPayload :
    record.Has paymentPayloadField (·.paymentPayload) fun r v => { r with paymentPayload := v } :=
  ⟨_, _, .tail _ (.head _), fun _ => rfl, fun _ _ => rfl⟩

theorem has_paymentRequirements : record.Has paymentRequirementsField (·.paymentRequirements)
    fun r v => { r with paymentRequirements := v } :=
  ⟨_, _, .tail _ (.tail _ (.head _)), fun _ => rfl, fun _ _ => rfl⟩

theorem ok_iff {r : X402FacilitatorRequest} :
    record.Ok r ↔ r.paymentRequirements ≠ some Value.null := by
  constructor
  · intro hok hnull
    exact (has_paymentRequirements.ok hok Value.null hnull).2 rfl
  · intro hne
    refine ⟨trivial, trivial, fun v hv => ⟨trivial, fun hnull => hne ?_⟩, trivial⟩
    have hv' : r.paymentRequirements = some v := hv
    rw [hv']
    exact congrArg some (Subtype.ext hnull)

/-- **A request is read back as it was written unless its requirements are `null`.** -/
theorem deserialize_serialize_iff (r : X402FacilitatorRequest) :
    deserialize r.serialize = some r ↔ r.paymentRequirements ≠ some Value.null :=
  Record.decode_encode_iff.trans ok_iff

/-- Requirements that are `null` are lost. -/
theorem deserialize_serialize_null (r : X402FacilitatorRequest) :
    deserialize (serialize { r with paymentRequirements := some Value.null }) =
      some { r with paymentRequirements := none } := by
  have hnone : record.decode (record.encode { r with paymentRequirements := none }) =
      some { r with paymentRequirements := none } :=
    (deserialize_serialize_iff { r with paymentRequirements := none }).mpr nofun
  have hset := has_paymentRequirements.decode_set (j := .null) (v := none) hnone rfl
  have hperm := List.perm_append_singleton (paymentRequirementsField.name, Json.null)
    (record.members { r with paymentRequirements := none })
  rw [← hset]
  exact Record.decode_perm hperm

/-- **Two requests are never written alike.** -/
theorem serialize_injective : Function.Injective serialize := by
  intro r r' h
  have hmembers : record.members r = record.members r' := Json.object.inj h
  have hversion := has_x402Version.member_members r
  have hpayload := has_paymentPayload.member_members r
  have hrequirements := has_paymentRequirements.member_members r
  rw [hmembers, has_x402Version.member_members] at hversion
  rw [hmembers, has_paymentPayload.member_members] at hpayload
  rw [hmembers, has_paymentRequirements.member_members] at hrequirements
  obtain ⟨version, payload, requirements⟩ := r
  obtain ⟨version', payload', requirements'⟩ := r'
  obtain rfl : version' = version :=
    Codec.write_injective (c := .int32) (fun _ => trivial) (Option.some.inj hversion)
  obtain rfl : payload' = payload :=
    Codec.write_injective (c := .value) (fun _ => trivial) (Option.some.inj hpayload)
  obtain rfl : requirements' = requirements :=
    Option.map_injective (Codec.write_injective (c := .value) fun _ => trivial) hrequirements
  rfl

/-- Which requests are read back as they were written, and what is left of the others. -/
theorem serialize_faithful (r r' : X402FacilitatorRequest) :
    (deserialize r.serialize = some r ↔ r.paymentRequirements ≠ some Value.null) ∧
      (r.paymentRequirements = some Value.null →
        deserialize r.serialize = some { r with paymentRequirements := none }) ∧
      (r.serialize = r'.serialize → r = r') := by
  refine ⟨deserialize_serialize_iff r, fun hnull => ?_, fun h => serialize_injective h⟩
  have hread := deserialize_serialize_null r
  rw [← hnull] at hread
  exact hread

/-- A request of version 1 with requirements that are `null`. -/
def withNullRequirements : X402FacilitatorRequest where
  x402Version := 1
  paymentPayload := ⟨.object [], by simp [IsValue, AllMembers]⟩
  paymentRequirements := some Value.null

theorem not_faithful_null :
    deserialize withNullRequirements.serialize ≠ some withNullRequirements := by
  rw [Ne, deserialize_serialize_iff, not_not]
  rfl

end X402FacilitatorRequest

end ParatroSdk
