import RiskDecision.Proofs.Decoding.Success
import RiskDecision.Proofs.Json.Range
import RiskDecision.Value.Json

/-!
# Values survive being written

A number that is not finite is written as the null value; everything else in a value comes back from
JSON as it was, at any depth of lists. Values that were decoded from JSON in range hold finite
numbers only, so they always come back.
-/

namespace RiskDecision.Value

mutual

/-- Every number in the value is finite. -/
def isFinite : Value → Bool
  | .number x => x.isFinite
  | .list items => itemsFinite items
  | _ => true

/-- Every number in the items is finite. -/
def itemsFinite : List Value → Bool
  | [] => true
  | item :: rest => item.isFinite && itemsFinite rest

end

mutual

/-- **LITERALS.** A value with finite numbers is decoded from what it is written as. -/
theorem decode_toJson : ∀ v : Value, v.isFinite = true → decode v.toJson = .ok v
  | .null, _ => rfl
  | .bool b, _ => rfl
  | .text s, _ => rfl
  | .number x, h => by
      have hx : x.isFinite = true := h
      rw [toJson, Json.ofFloat, if_pos hx]
      rfl
  | .list items, h => by
      rw [toJson, decode, decodeItems_itemsToJson items h]
      rfl

theorem decodeItems_itemsToJson :
    ∀ items : List Value, itemsFinite items = true → decodeItems (itemsToJson items) = .ok items
  | [], _ => rfl
  | item :: rest, h => by
      rw [itemsFinite, Bool.and_eq_true] at h
      rw [itemsToJson, decodeItems, decode_toJson item h.1, decodeItems_itemsToJson rest h.2]
      rfl

end

mutual

/-- A value that is decoded from JSON in range has finite numbers. -/
theorem isFinite_of_decode :
    ∀ (j : Json) (v : Value), j.inRange = true → decode j = .ok v → v.isFinite = true
  | .null, v, _, h => by
      cases h
      rfl
  | .bool b, v, _, h => by
      cases h
      rfl
  | .text s, v, _, h => by
      cases h
      rfl
  | .int n, v, hj, h => by
      cases h
      exact Json.isFinite_ofInt_of_fitsWord hj
  | .float x, v, hj, h => by
      cases h
      exact hj
  | .object members, v, _, h => nomatch h
  | .array items, v, hj, h => by
      rw [decode] at h
      obtain ⟨values, hvalues, h⟩ := bind_eq_ok_iff.mp h
      cases h
      exact itemsFinite_of_decodeItems items values hj hvalues

theorem itemsFinite_of_decodeItems :
    ∀ (items : List Json) (values : List Value), Json.itemsInRange items = true →
      decodeItems items = .ok values → itemsFinite values = true
  | [], values, _, h => by
      cases h
      rfl
  | item :: rest, values, hj, h => by
      rw [Json.itemsInRange, Bool.and_eq_true] at hj
      rw [decodeItems] at h
      obtain ⟨value, hvalue, h⟩ := bind_eq_ok_iff.mp h
      obtain ⟨values', hvalues, h⟩ := bind_eq_ok_iff.mp h
      cases h
      rw [itemsFinite, isFinite_of_decode item value hj.1 hvalue,
        itemsFinite_of_decodeItems rest values' hj.2 hvalues]
      rfl

end

end RiskDecision.Value
