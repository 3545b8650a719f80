import ParatroSdk.Token
import ParatroSdk.Lib.Tagged

/-! # JSON texts

The bytes of a JSON text and its tree.  What `serde_json` does with bytes is a parameter
(`SerdeJson`); what the types of the SDK do with trees is in their own modules. -/

namespace ParatroSdk

open Text

/-- `serde_json` on bytes: the text it writes for a tree, the tree it reads from a text, and
the error for a tree that is not one of the type that is read. -/
structure SerdeJson where
  toVec : Json → Bytes
  tree : Bytes → Except SerdeJsonError Json
  mismatch : String → Bytes → SerdeJsonError

namespace SerdeJson

variable {α : Type} (t : SerdeJson)

/-- `serde_json::from_slice` of a type, by its name and what it makes of a tree. -/
def fromSlice (name : String) (deserialize : Json → Option α) : FromSlice α := fun bytes =>
  match t.tree bytes with
  | .error e => .error e
  | .ok j =>
      match deserialize j with
      | some a => .ok a
      | none => .error (t.mismatch name bytes)

/-- The tree is read back from the text written for it. -/
def RoundTrips (j : Json) : Prop := t.tree (t.toVec j) = .ok j

variable {t} {name : String} {deserialize : Json → Option α}

theorem fromSlice_ok_iff {bytes : Bytes} {a : α} :
    t.fromSlice name deserialize bytes = .ok a ↔
      ∃ j, t.tree bytes = .ok j ∧ deserialize j = some a := by
  unfold fromSlice
  cases t.tree bytes with
  | error e => simp
  | ok j => cases hd : deserialize j <;> simp [hd]

/-- Two texts are read alike when their trees are. -/
theorem fromSlice_of_tree {bytes bytes' : Bytes} {j j' : Json} {a a' : α}
    (hj : t.tree bytes = .ok j) (hj' : t.tree bytes' = .ok j') (h : deserialize j = some a → deserialize j' = some a')
    (ha : t.fromSlice name deserialize bytes = .ok a) :
    t.fromSlice name deserialize bytes' = .ok a' := by
  obtain ⟨i, hi, hread⟩ := fromSlice_ok_iff.mp ha
  obtain rfl := Except.ok.inj (hj.symm.trans hi)
  exact fromSlice_ok_iff.mpr ⟨j', hj', h hread⟩

/-- A text that round-trips is read as its tree is. -/
theorem fromSlice_toVec_ok_iff {j : Json} (h : t.RoundTrips j) {a : α} :
    t.fromSlice name deserialize (t.toVec j) = .ok a ↔ deserialize j = some a := by
  rw [fromSlice_ok_iff, h]
  simp

end SerdeJson

end ParatroSdk
