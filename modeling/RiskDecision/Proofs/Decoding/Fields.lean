import RiskDecision.Proofs.Decoding.Success
import RiskDecision.Proofs.Json.Range

/-!
# The fields of a record

A record is an object or an array, and its fields are members or items of it. What a decoder takes
from a field is therefore a default or comes from a part of the record.
-/

namespace RiskDecision.Json

variable {α : Type} {decode : Json → Except DecodeError α} {field : Option Json} {default a : α}

theorem record_object (declared : List String) (decode : Fields → Except DecodeError α)
    (members : List (String × Json)) :
    (Json.object members).record declared decode
      = decode fun name => Dictionary.find? name members := by
  show (decode _ >>= fun a => _) = _
  cases decode fun name => Dictionary.find? name members <;> rfl

/-- A record that is written with its declared fields is decoded from what is written. -/
theorem record_ofMembers {declared : List String} {members : List (String × Json)}
    (keys : Dictionary.keys members = declared) (distinct : declared.Nodup)
    (decode : Fields → Except DecodeError α) :
    (Json.ofMembers members).record declared decode
      = decode fun name => Dictionary.find? name members := by
  rw [ofMembers, record_object]
  congr 1
  funext name
  exact Dictionary.find?_ofList (keys ▸ distinct) name

/-- A record is decoded from its fields. -/
theorem record_eq_ok {declared : List String} {decode : Fields → Except DecodeError α} {j : Json}
    {a : α} (h : j.record declared decode = .ok a) :
    ∃ get, j.fields declared = .ok get ∧ decode get = .ok a := by
  rw [record] at h
  obtain ⟨get, hget, h⟩ := bind_eq_ok_iff.mp h
  obtain ⟨a', ha, h⟩ := bind_eq_ok_iff.mp h
  obtain ⟨-, -, h⟩ := bind_eq_ok_iff.mp h
  cases h
  exact ⟨get, hget, ha⟩

/-- The fields of a record that is in range are in range, whether they are given by name or by
position. -/
theorem inRange_of_fields {declared : List String} {j : Json} {get : Fields}
    (hj : j.inRange = true) (h : j.fields declared = .ok get) {name : String} {v : Json}
    (hv : get name = some v) : v.inRange = true := by
  cases j with
  | object members =>
      cases h
      exact membersInRange_iff.mp hj _ (Dictionary.mem_of_find? hv)
  | array items =>
      cases h
      have hmem : (name, v) ∈ declared.zip items := Dictionary.mem_of_find? hv
      exact itemsInRange_iff.mp hj v (List.of_mem_zip hmem).2
  | _ => exact nomatch h

/-! ## Fields that may be absent -/

/-- A field that may be absent and not null is decoded from what is there. -/
theorem withDefault_eq_ok (h : withDefault default decode field = .ok a) :
    a = default ∨ ∃ j, field = some j ∧ decode j = .ok a := by
  cases field with
  | none =>
      cases h
      exact Or.inl rfl
  | some j => exact Or.inr ⟨j, rfl, h⟩

theorem nullable_eq_ok (h : nullable default decode field = .ok a) :
    a = default ∨ ∃ j, field = some j ∧ decode j = .ok a := by
  rw [nullable.eq_def] at h
  split at h
  · cases h
    exact Or.inl rfl
  · cases h
    exact Or.inl rfl
  · next j _ => exact Or.inr ⟨j, rfl, h⟩

theorem optional_eq_ok {a? : Option α} (h : optional decode field = .ok a?) :
    a? = none ∨ ∃ j a, field = some j ∧ decode j = .ok a ∧ a? = some a := by
  rw [optional.eq_def] at h
  split at h
  · cases h
    exact Or.inl rfl
  · cases h
    exact Or.inl rfl
  · next j _ =>
      obtain ⟨a, ha, rfl⟩ := map_eq_ok_iff.mp h
      exact Or.inr ⟨j, a, rfl, ha, rfl⟩

/-- A field counts as missing if it is absent or null, and not otherwise. -/
theorem optional_eq_ok_none_iff :
    optional decode field = .ok none ↔ field = none ∨ field = some .null := by
  constructor
  · intro h
    rw [optional.eq_def] at h
    split at h
    · exact Or.inl rfl
    · exact Or.inr rfl
    · obtain ⟨a, -, ha⟩ := map_eq_ok_iff.mp h
      exact nomatch ha
  · rintro (rfl | rfl) <;> rfl

/-! ## Fields that were written -/

theorem withDefault_ofFloat {x : Float} (finite : x.isFinite = true) (default : Float) :
    withDefault default asFloat (some (ofFloat x)) = .ok x := by
  rw [ofFloat, if_pos finite]
  rfl

theorem withDefault_int {n : Int} {bits : Nat} (fits : Decimal.fitsSigned bits n = true)
    (default : Int) : withDefault default (asInt bits) (some (.int n)) = .ok n :=
  if_pos fits

theorem withDefault_bool (default b : Bool) :
    withDefault default asBool (some (.bool b)) = .ok b := rfl

theorem optional_ofText? (s? : Option String) : optional asText (some (ofText? s?)) = .ok s? := by
  cases s? <;> rfl

theorem optional_ofMembers {members : List (String × Json)}
    (h : decode (ofMembers members) = .ok a) :
    optional decode (some (ofMembers members)) = .ok (some a) := by
  show (decode (ofMembers members)).map some = .ok (some a)
  rw [h]
  rfl

end RiskDecision.Json
