import RiskDecision.Proofs.Decimal.Integers
import RiskDecision.Proofs.Json.Range
import RiskDecision.Value.Json

/-!
# Two ways from JSON to a value

Decoding refuses objects and conversion writes them out as text; on everything else the two agree
(`decode_eq_ok_iff`), though they go different ways. A decoder that knows nothing but the kinds of
values tries them one after the other and takes the first that fits, at every item of every list
anew (`firstKind?`). What a JSON value stands for is said apart from both (`StandsFor`): an integer
stands for the nearest double. A value that was written comes back by either way, with null for the
numbers that are not finite (`ofJson_toJson`).
-/

namespace RiskDecision

/-- A JSON value stands in another one, at any depth. -/
inductive Json.OccursIn (part : Json) : Json → Prop
  | here : OccursIn part part
  | item {items : List Json} {item : Json} :
      item ∈ items → OccursIn part item → OccursIn part (.array items)
  | member {members : List (String × Json)} {e : String × Json} :
      e ∈ members → OccursIn part e.2 → OccursIn part (.object members)

/-- There is no object in the value, at any depth. -/
def Json.NoObject (j : Json) : Prop := ∀ members, ¬ (Json.object members).OccursIn j

namespace Json

theorem noObject_array_iff {items : List Json} :
    (Json.array items).NoObject ↔ ∀ item ∈ items, item.NoObject := by
  constructor
  · intro h item hitem members hoccurs
    exact h members (.item hitem hoccurs)
  · rintro h members (_ | ⟨hitem, hoccurs⟩)
    exact h _ hitem members hoccurs

theorem not_noObject_object (members : List (String × Json)) :
    ¬ (Json.object members).NoObject := fun h => h members .here

/-- Values of the kinds without parts hold no object. -/
theorem noObject_of_leaf (j : Json) (hitems : ∀ items, j ≠ .array items)
    (hmembers : ∀ members, j ≠ .object members) : j.NoObject := by
  rintro members (_ | _ | _)
  · exact hmembers members rfl
  · exact hitems _ rfl
  · exact hmembers _ rfl

end Json

namespace Value

/-! ## Trying the kinds in order -/

/-- The kinds in the order in which they are tried. -/
def Kind.all : List Kind := [.null, .bool, .number, .text, .list]

mutual

/-- What a JSON value is as a value of some kind, if it can be one. -/
def readAs? : Kind → Json → Option Value
  | .null, .null => some .null
  | .bool, .bool b => some (.bool b)
  | .number, .int n => some (.number (Float.ofInt n))
  | .number, .float x => some (.number x)
  | .text, .text s => some (.text s)
  | .list, .array items => (readItems? items).map .list
  | _, _ => none

/-- The items of an array, each of the first kind that fits it. -/
def readItems? : List Json → Option (List Value)
  | [] => some []
  | item :: rest =>
    match Kind.all.findSome? fun kind => readAs? kind item with
    | none => none
    | some value => (readItems? rest).map (value :: ·)

end

/-- What a JSON value is as a value of the first kind that fits. -/
def firstKind? (j : Json) : Option Value := Kind.all.findSome? fun kind => readAs? kind j

mutual

/-- **KIND BY KIND**: the first kind that fits gives what decoding gives, and none fits where
decoding fails. -/
theorem firstKind?_eq : ∀ j : Json, firstKind? j = (decode j).toOption
  | .null => rfl
  | .bool b => rfl
  | .int n => rfl
  | .float x => rfl
  | .text s => rfl
  | .object members => rfl
  | .array items => by
      have hlist : firstKind? (.array items) = (readItems? items).map .list := by
        rw [firstKind?, Kind.all]
        simp only [List.findSome?_cons, List.findSome?_nil, readAs?]
        cases readItems? items <;> rfl
      rw [hlist, readItems?_eq items, decode]
      cases decodeItems items <;> rfl

theorem readItems?_eq : ∀ items : List Json, readItems? items = (decodeItems items).toOption
  | [] => rfl
  | item :: rest => by
      have hitem := firstKind?_eq item
      rw [firstKind?] at hitem
      rw [readItems?, hitem, readItems?_eq rest, decodeItems]
      cases decode item with
      | error e => rfl
      | ok value => cases decodeItems rest <;> rfl

end

/-! ## Decoding and converting -/

/-- A value without parts is decoded to what it is converted to. -/
theorem ok_eq_ok_iff_of_noObject {j : Json} (h : j.NoObject) {v w : Value} :
    (Except.ok w : Except DecodeError Value) = .ok v ↔ v = w ∧ j.NoObject := by
  rw [Except.ok.injEq, eq_comm, and_iff_left h]

mutual

/-- **DECODING** succeeds exactly on values without objects and then gives what converting gives. -/
theorem decode_eq_ok_iff : ∀ (j : Json) (v : Value), decode j = .ok v ↔ v = ofJson j ∧ j.NoObject
  | .null, v => ok_eq_ok_iff_of_noObject (Json.noObject_of_leaf .null nofun nofun)
  | .bool b, v => ok_eq_ok_iff_of_noObject (Json.noObject_of_leaf (.bool b) nofun nofun)
  | .int n, v => ok_eq_ok_iff_of_noObject (Json.noObject_of_leaf (.int n) nofun nofun)
  | .float x, v => ok_eq_ok_iff_of_noObject (Json.noObject_of_leaf (.float x) nofun nofun)
  | .text s, v => ok_eq_ok_iff_of_noObject (Json.noObject_of_leaf (.text s) nofun nofun)
  | .object members, v => iff_of_false nofun fun h => Json.not_noObject_object members h.2
  | .array items, v => by
      rw [decode, bind_eq_ok_iff, ofJson, Json.noObject_array_iff]
      constructor
      · rintro ⟨values, hvalues, hv⟩
        obtain ⟨rfl, hitems⟩ := (decodeItems_eq_ok_iff items values).mp hvalues
        cases hv
        exact ⟨rfl, hitems⟩
      · rintro ⟨rfl, hitems⟩
        exact ⟨_, (decodeItems_eq_ok_iff items _).mpr ⟨rfl, hitems⟩, rfl⟩

theorem decodeItems_eq_ok_iff : ∀ (items : List Json) (values : List Value),
    decodeItems items = .ok values ↔ values = ofItems items ∧ ∀ item ∈ items, item.NoObject
  | [], values => by
      rw [decodeItems, Except.ok.injEq, ofItems, eq_comm]
      exact (and_iff_left fun _ h => absurd h List.not_mem_nil).symm
  | item :: rest, values => by
      rw [decodeItems, bind_eq_ok_iff, ofItems, List.forall_mem_cons]
      constructor
      · rintro ⟨value, hvalue, hrest⟩
        obtain ⟨values', hvalues', hv⟩ := bind_eq_ok_iff.mp hrest
        obtain ⟨rfl, hitem⟩ := (decode_eq_ok_iff item value).mp hvalue
        obtain ⟨rfl, hitems⟩ := (decodeItems_eq_ok_iff rest values').mp hvalues'
        cases hv
        exact ⟨rfl, hitem, hitems⟩
      · rintro ⟨rfl, hitem, hitems⟩
        exact ⟨_, (decode_eq_ok_iff item _).mpr ⟨rfl, hitem⟩,
          bind_eq_ok_iff.mpr ⟨_, (decodeItems_eq_ok_iff rest _).mpr ⟨rfl, hitems⟩, rfl⟩⟩

end

/-! ## What a JSON value stands for -/

mutual

/-- What a JSON value stands for: an array stands for a list, an object for its text, and an integer
of 64 bits for the nearest double. -/
inductive StandsFor : Json → Value → Prop
  | null : StandsFor .null .null
  | bool (b : Bool) : StandsFor (.bool b) (.bool b)
  | int {n : Int} {x : Float} :
      (Json.fitsWord n = true → Decimal.IsNearest x n) → StandsFor (.int n) (.number x)
  | float (x : Float) : StandsFor (.float x) (.number x)
  | text (s : String) : StandsFor (.text s) (.text s)
  | array {items : List Json} {values : List Value} :
      AllStandFor items values → StandsFor (.array items) (.list values)
  | object (members : List (String × Json)) :
      StandsFor (.object members) (.text (Json.object members).toText)

/-- What several JSON values stand for, one by one. -/
inductive AllStandFor : List Json → List Value → Prop
  | nil : AllStandFor [] []
  | cons {j : Json} {v : Value} {js : List Json} {vs : List Value} :
      StandsFor j v → AllStandFor js vs → AllStandFor (j :: js) (v :: vs)

end

mutual

/-- **CONVERTING** always gives what the value stands for. -/
theorem standsFor_ofJson : ∀ j : Json, StandsFor j (ofJson j)
  | .null => .null
  | .bool b => .bool b
  | .int _ => .int fun h => Decimal.isNearest_ofInt (Json.bounds_of_fitsWord h)
  | .float x => .float x
  | .text s => .text s
  | .array items => .array (allStandFor_ofItems items)
  | .object members => .object members

theorem allStandFor_ofItems : ∀ items : List Json, AllStandFor items (ofItems items)
  | [] => .nil
  | item :: rest => .cons (standsFor_ofJson item) (allStandFor_ofItems rest)

end

/-! ## Writing and reading back -/

mutual

/-- The value with null in place of every number that is not finite. -/
def finitePart : Value → Value
  | .number x => if x.isFinite then .number x else .null
  | .list items => .list (finiteParts items)
  | v => v

/-- The items with null in place of every number that is not finite. -/
def finiteParts : List Value → List Value
  | [] => []
  | item :: rest => item.finitePart :: finiteParts rest

end

mutual

/-- **READING BACK** by converting gives the value with null for what cannot be written. -/
theorem ofJson_toJson : ∀ v : Value, ofJson v.toJson = v.finitePart
  | .null => rfl
  | .bool b => rfl
  | .text s => rfl
  | .number x => by
      rw [toJson, Json.ofFloat, finitePart]
      split <;> rfl
  | .list items => congrArg Value.list (ofItems_itemsToJson items)

theorem ofItems_itemsToJson :
    ∀ items : List Value, ofItems (itemsToJson items) = finiteParts items
  | [] => rfl
  | item :: rest => congrArg₂ List.cons (ofJson_toJson item) (ofItems_itemsToJson rest)

end

mutual

/-- No value is written as an object. -/
theorem noObject_toJson : ∀ v : Value, v.toJson.NoObject
  | .null => Json.noObject_of_leaf .null nofun nofun
  | .bool b => Json.noObject_of_leaf (.bool b) nofun nofun
  | .text s => Json.noObject_of_leaf (.text s) nofun nofun
  | .number x => by
      rw [toJson, Json.ofFloat]
      split <;> exact Json.noObject_of_leaf _ nofun nofun
  | .list items => Json.noObject_array_iff.mpr (noObject_itemsToJson items)

theorem noObject_itemsToJson : ∀ items : List Value, ∀ j ∈ itemsToJson items, j.NoObject
  | [], _, h => absurd h List.not_mem_nil
  | item :: rest, j, h => by
      rcases List.mem_cons.mp h with rfl | h
      · exact noObject_toJson item
      · exact noObject_itemsToJson rest j h

end

/-- **TWO WAYS.** Decoding tries the kinds of values in order and succeeds exactly on JSON values in
which no object occurs at any depth; then it gives what converting gives. Converting gives, for
every JSON value, what it stands for: outermost objects become texts, and integers of 64 bits the
nearest doubles. Either way brings a value back from JSON with null in place of exactly the numbers
that are not finite. -/
theorem decode_agrees (j : Json) (v : Value) :
    firstKind? j = (decode j).toOption ∧
    (∀ w, decode j = .ok w ↔ w = ofJson j ∧ ∀ members, ¬ (Json.object members).OccursIn j) ∧
    StandsFor j (ofJson j) ∧
    decode v.toJson = .ok v.finitePart ∧ ofJson v.toJson = v.finitePart := by
  have hback := ofJson_toJson v
  refine ⟨firstKind?_eq j, decode_eq_ok_iff j, standsFor_ofJson j, ?_, hback⟩
  exact (decode_eq_ok_iff _ _).mpr ⟨hback.symm, noObject_toJson v⟩

end Value

end RiskDecision
