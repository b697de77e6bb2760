import RiskDecision.Proofs.Evaluation.Resolution
import RiskDecision.Record.Transaction

/-!
# The paths of declared fields

The fields of a record are declared under names of two styles, and rules reach them under one: the
words of a name run together and all but the first are capitalised (`Text.camelCase`). A field of
the client context stands behind the segment of the context. `Transaction.declared` lists the fields
of a record and of its context, each with its path and its value. Accessors have names of their own,
so it is a fact about two tables for each of the six records that the paths lead to the fields
(`View.InPlace`). The main statement, `Case.resolve_declared`, says that every declared field is
reached by its path, with or without an alias in front.
-/

namespace RiskDecision

/-- The name in the style of paths. -/
def Text.camelCase (name : String) : String :=
  match split '_' name with
  | [] => name
  | first :: rest => String.join (first :: rest.map capitalize)

/-! ## Accessors and their places -/

/-- The value of a path that ends at the slot. -/
def Slot.reading : Slot → Value
  | .scalar x => x
  | .nested inner => .text inner.typeName

namespace View

/-- The names of the accessors. -/
def names : View → List String
  | .mk _ accessors => accessors.map Prod.fst

/-- What the accessors give. -/
def slots : View → List Slot
  | .mk _ accessors => accessors.map Prod.snd

/-- The place among accessors of the one that a segment leads to. -/
def place? (names : List String) (segment : String) : Option Nat :=
  (candidates segment).findSome? (names.idxOf? ·)

theorem slot?_eq_getElem? (v : View) (accessor : String) :
    v.slot? accessor = (v.names.idxOf? accessor).bind (v.slots[·]?) := by
  obtain ⟨typeName, accessors⟩ := v
  induction accessors with
  | nil => rfl
  | cons e rest ih =>
      have hslot : (View.mk typeName (e :: rest)).slot? accessor
          = if e.1 == accessor then some e.2 else (View.mk typeName rest).slot? accessor := by
        rw [slot?, slot?, List.lookup_cons, BEq.comm]
        cases e.1 == accessor <;> rfl
      rw [hslot, names, List.map_cons, List.idxOf?_cons]
      cases e.1 == accessor with
      | true => rfl
      | false =>
          rw [if_neg Bool.false_ne_true, if_neg Bool.false_ne_true, ih, Option.bind_map]
          rfl

theorem lt_length_slots_of_idxOf? {v : View} {accessor : String} {i : Nat}
    (h : v.names.idxOf? accessor = some i) : i < v.slots.length := by
  have hlt := (List.findIdx?_eq_some_iff_findIdx_eq.mp h).1
  obtain ⟨typeName, accessors⟩ := v
  rw [names, List.length_map] at hlt
  rw [slots, List.length_map]
  exact hlt

theorem hit?_eq_findSome? (v : View) (segment : String) :
    v.hit? segment = (candidates segment).findSome? v.slot? := by
  rw [hit?, candidates]
  by_cases hempty : segment = ""
  · rw [if_pos hempty, if_pos hempty]
    rfl
  · rw [if_neg hempty, if_neg hempty, List.findSome?_cons, List.findSome?_cons,
      List.findSome?_singleton]
    cases v.slot? ("get" ++ Text.capitalize segment) with
    | some slot => rfl
    | none => cases v.slot? ("is" ++ Text.capitalize segment) <;> rfl

/-- **ACCESSORS**: what a segment leads to stands at the place of its accessor. -/
theorem hit?_of_place {v : View} {segment : String} {i : Nat}
    (h : place? v.names segment = some i) : v.hit? segment = v.slots[i]? := by
  rw [hit?_eq_findSome?]
  rw [place?] at h
  generalize candidates segment = accessors at h
  induction accessors with
  | nil => cases h
  | cons accessor rest ih =>
      rw [List.findSome?_cons] at h ⊢
      rw [slot?_eq_getElem?]
      cases hplace : v.names.idxOf? accessor with
      | none =>
          rw [hplace] at h
          exact ih h
      | some j =>
          rw [hplace] at h
          obtain rfl := Option.some.inj h
          rw [Option.bind_some, List.getElem?_eq_getElem (lt_length_slots_of_idxOf? hplace)]

/-- Names lead to slots, each to the one that is given with it. -/
def Shows (v : View) (names : List String) (slots : List Slot) : Prop :=
  ∀ p ∈ names.zip slots, v.hit? (Text.camelCase p.1) = some p.2

/-- The accessors that names lead to stand in the order of the names. -/
def InPlace (accessors names : List String) : Prop :=
  ∀ q ∈ names.zipIdx, place? accessors (Text.camelCase q.1) = some q.2

instance (accessors names : List String) : Decidable (InPlace accessors names) :=
  inferInstanceAs (Decidable (∀ _ ∈ _, _))

theorem shows_of_inPlace {v : View} {names : List String} {slots : List Slot}
    (hslots : v.slots = slots) (places : InPlace v.names names) : v.Shows names slots := by
  intro p hp
  obtain ⟨i, hi⟩ := List.mem_iff_getElem?.mp hp
  obtain ⟨hname, hslot⟩ := List.getElem?_zip_eq_some.mp hi
  rw [hit?_of_place (places (p.1, i) (List.mem_zipIdx_iff_getElem?.mpr hname)), hslots, hslot]

end View

/-! ## Six records

Of every record the slots of its fields are listed in the order of the declaration. -/

/-- What rules see of the fields, in the order of their declaration. -/
def BankContext.slots (r : BankContext) : List Slot :=
  [.number r.balanceBefore, .flag r.isNewDevice, .flag r.isForeignLocation, .flag r.isNight,
    .count r.hourlyCount, .number r.averageAmount, .count r.secondsSinceLast,
    .count r.accountAgeDays, .flag r.isNewBeneficiary, .flag r.usesVpnOrProxy, .count r.hourOfDay]

theorem BankContext.view_shows (r : BankContext) : r.view.Shows fieldNames r.slots := by
  have hplaces : View.InPlace ({} : BankContext).view.names fieldNames := by decide +kernel
  exact View.shows_of_inPlace rfl hplaces

/-- What rules see of the fields, in the order of their declaration. -/
def BankTransaction.slots (r : BankTransaction) : List Slot :=
  [.text r.userId, .number r.amount, .text r.transactionType, .text r.timestamp,
    .text r.currency, .child (r.clientContext.map BankContext.view)]

theorem BankTransaction.view_shows (r : BankTransaction) : r.view.Shows fieldNames r.slots := by
  have hplaces : View.InPlace ({} : BankTransaction).view.names fieldNames := by decide +kernel
  exact View.shows_of_inPlace rfl hplaces

/-- What rules see of the fields, in the order of their declaration. -/
def OrderContext.slots (r : OrderContext) : List Slot :=
  [.number r.secondsSinceLast, .number r.averageAmount]

theorem OrderContext.view_shows (r : OrderContext) : r.view.Shows fieldNames r.slots := by
  have hplaces : View.InPlace ({} : OrderContext).view.names fieldNames := by decide +kernel
  exact View.shows_of_inPlace rfl hplaces

/-- What rules see of the fields, in the order of their declaration. -/
def OrderTransaction.slots (r : OrderTransaction) : List Slot :=
  [.number r.amount, .text r.currency, .count r.itemCount, .text r.productCategory,
    .text r.paymentMethod, .text r.userId, .text r.ipAddressCountry, .flag r.isGuestCheckout,
    .count r.accountAgeDays, .text r.emailDomain, .text r.shippingCountry, .text r.billingCountry,
    .child (r.clientContext.map OrderContext.view)]

theorem OrderTransaction.view_shows (r : OrderTransaction) : r.view.Shows fieldNames r.slots := by
  have hplaces : View.InPlace ({} : OrderTransaction).view.names fieldNames := by decide +kernel
  exact View.shows_of_inPlace rfl hplaces

/-- What rules see of the fields, in the order of their declaration. -/
def MobileMoneyContext.slots (r : MobileMoneyContext) : List Slot :=
  [.flag r.isNewDevice, .flag r.isForeignLocation, .count r.hourlyCount,
    .number r.averageAmount, .count r.secondsSinceLast, .text r.currency, .text r.country]

theorem MobileMoneyContext.view_shows (r : MobileMoneyContext) :
    r.view.Shows fieldNames r.slots := by
  have hplaces : View.InPlace ({} : MobileMoneyContext).view.names fieldNames := by
    decide +kernel
  exact View.shows_of_inPlace rfl hplaces

/-- What rules see of the fields, in the order of their declaration. -/
def MobileMoneyTransaction.slots (r : MobileMoneyTransaction) : List Slot :=
  [.text r.userId, .text r.recipientId, .number r.amount, .text r.transactionType,
    .text r.timestamp, .number r.balanceBefore,
    .child (r.clientContext.map MobileMoneyContext.view)]

theorem MobileMoneyTransaction.view_shows (r : MobileMoneyTransaction) :
    r.view.Shows fieldNames r.slots := by
  have hplaces : View.InPlace ({} : MobileMoneyTransaction).view.names fieldNames := by
    decide +kernel
  exact View.shows_of_inPlace rfl hplaces

/-! ## Declared fields -/

/-- The segment of the client context. -/
def contextSegment : String := "clientContext"

/-- A field that is declared in a record or in its client context. -/
structure DeclaredField where
  /-- The name in the declaration. -/
  name : String
  /-- The path by which rules name it. -/
  path : String
  value : Value

/-- The fields of one record, whose paths begin alike. -/
def declaredIn (start : String) (names : List String) (slots : List Slot) : List DeclaredField :=
  (names.zip slots).map fun p => ⟨p.1, start ++ Text.camelCase p.1, p.2.reading⟩

/-- The fields of a record and those of the context inside it. -/
def declaredFields {α : Type} (names : List String) (slots : List Slot) (contextNames : List String)
    (context : Option α) (contextSlots : α → List Slot) : List DeclaredField :=
  declaredIn "" names slots ++ context.toList.flatMap fun c =>
    declaredIn (contextSegment ++ ".") contextNames (contextSlots c)

/-- The declared fields of a record and of its client context. -/
def Transaction.declared : Transaction → List DeclaredField
  | .bank r => declaredFields BankTransaction.fieldNames r.slots
    BankContext.fieldNames r.clientContext BankContext.slots
  | .order r => declaredFields OrderTransaction.fieldNames r.slots
    OrderContext.fieldNames r.clientContext OrderContext.slots
  | .mobileMoney r => declaredFields MobileMoneyTransaction.fieldNames r.slots
    MobileMoneyContext.fieldNames r.clientContext MobileMoneyContext.slots

/-- The names under which the fields of a record and of its client context are declared. -/
def BusinessDomain.fieldNames : BusinessDomain → List String
  | .bank => BankTransaction.fieldNames ++ BankContext.fieldNames
  | .ecommerce => OrderTransaction.fieldNames ++ OrderContext.fieldNames
  | .mobileMoney => MobileMoneyTransaction.fieldNames ++ MobileMoneyContext.fieldNames

namespace Case

/-- The ways to write a path: as it is, or behind an alias. -/
inductive Spelling (aliases : List String) (path : String) : String → Prop
  | plain : Spelling aliases path path
  | prefixed {a : String} (point : '.' ∉ a.toList) (free : a ≠ "preprocessed")
      (named : ∃ b ∈ aliases, Text.lower b = Text.lower a) :
      Spelling aliases path (a ++ "." ++ path)

variable {aliases : List String} {c : Case}

theorem resolve_spelling {path written : String} (h : Spelling aliases path written)
    (onRecord : OnRecord path) (noAlias : ¬ BeginsWithAlias aliases path) :
    c.resolve aliases written = c.record.follow (Text.split '.' path) := by
  cases h with
  | plain => rw [resolve_onRecord onRecord, lookedUp, if_neg noAlias]
  | prefixed point free named => exact (resolve_alias c point named).2.1 free path

end Case

/-- The name is a segment that can be followed on a record. -/
structure IsSegment (segment : String) : Prop where
  noPoint : '.' ∉ segment.toList
  onRecord : Case.OnRecord segment

theorem BusinessDomain.isSegment_camelCase {d : BusinessDomain} :
    ∀ name ∈ d.fieldNames, IsSegment (Text.camelCase name) := by
  have hchars : ∀ name ∈ d.fieldNames, '.' ∉ (Text.camelCase name).toList ∧
      Text.isAllBlank (Text.camelCase name) = false ∧
      Text.sameIgnoringCase (Text.camelCase name) Case.scorePath = false := by
    cases d <;> decide +kernel
  intro name hname
  obtain ⟨noPoint, notBlank, notScore⟩ := hchars name hname
  refine ⟨noPoint, notBlank, notScore, ?_⟩
  intro hstart
  exact noPoint (hstart.subset (by decide))

/-- A declared field is found on a record by its path. -/
structure DeclaredField.FoundIn (v : View) (field : DeclaredField) : Prop where
  onRecord : Case.OnRecord field.path
  noAlias : ∀ aliases, (∀ a ∈ aliases, Text.lower a ≠ Text.lower contextSegment) →
    ¬ Case.BeginsWithAlias aliases field.path
  value : (v.follow (Text.split '.' field.path)).value = field.value

section FoundIn

variable {v inner : View} {names : List String} {slots : List Slot} {field : DeclaredField}

theorem View.value_follow_singleton {segment : String} {slot : Slot}
    (h : v.hit? segment = some slot) : (v.follow [segment]).value = slot.reading := by
  rw [follow, firstSlot_candidates, h]
  cases slot <;> rfl

theorem View.value_follow_nested {segment next : String} {rest : List String}
    (h : v.hit? segment = some (.nested inner)) :
    (v.follow (segment :: next :: rest)).value = (inner.follow (next :: rest)).value := by
  rw [follow, firstSlot_candidates, h]

/-- **FIELDS OF A RECORD** are found by one segment. -/
theorem foundIn_of_mem_own (shows : v.Shows names slots)
    (segments : ∀ name ∈ names, IsSegment (Text.camelCase name))
    (h : field ∈ declaredIn "" names slots) : field.FoundIn v := by
  obtain ⟨p, hp, rfl⟩ := List.mem_map.mp h
  obtain ⟨noPoint, onRecord⟩ := segments p.1 (List.of_mem_zip hp).1
  rw [String.empty_append]
  refine ⟨onRecord, ?_, ?_⟩
  · intro aliases free hbegins
    have hlong := hbegins.1
    rw [Text.split_of_not_mem noPoint] at hlong
    exact absurd hlong (by simp)
  · rw [Text.split_of_not_mem noPoint]
    exact View.value_follow_singleton (shows p hp)

/-- **FIELDS OF THE CONTEXT** are found by the segment of the context and their own. -/
theorem foundIn_of_mem_context (context : v.hit? contextSegment = some (.nested inner))
    (shows : inner.Shows names slots)
    (segments : ∀ name ∈ names, IsSegment (Text.camelCase name))
    (h : field ∈ declaredIn (contextSegment ++ ".") names slots) : field.FoundIn v := by
  have noPoint : '.' ∉ contextSegment.toList := by decide +kernel
  obtain ⟨p, hp, rfl⟩ := List.mem_map.mp h
  have hsegment := segments p.1 (List.of_mem_zip hp).1
  refine ⟨Case.onRecord_alias noPoint (by decide +kernel) _, ?_, ?_⟩
  · rintro aliases free ⟨-, first, hfirst, a, ha, named⟩
    rw [Case.split_alias noPoint] at hfirst
    obtain rfl := Option.some.inj hfirst
    exact free a ha named
  · rw [Case.split_alias noPoint, Text.split_of_not_mem hsegment.noPoint,
      View.value_follow_nested context]
    exact View.value_follow_singleton (shows p hp)

theorem foundIn_of_mem_declaredFields {α : Type} {contextNames : List String} {context : Option α}
    {contextView : α → View} {contextSlots : α → List Slot} {d : BusinessDomain}
    (hnames : d.fieldNames = names ++ contextNames) (shows : v.Shows names slots)
    (hcontext : (contextSegment, Slot.child (context.map contextView)) ∈ names.zip slots)
    (contextShows : ∀ c, (contextView c).Shows contextNames (contextSlots c))
    (h : field ∈ declaredFields names slots contextNames context contextSlots) :
    field.FoundIn v := by
  have hsegments := d.isSegment_camelCase
  rw [hnames, List.forall_mem_append] at hsegments
  rcases List.mem_append.mp h with hown | hinside
  · exact foundIn_of_mem_own shows hsegments.1 hown
  · obtain ⟨c, hc, hfield⟩ := List.mem_flatMap.mp hinside
    have hhit := shows _ hcontext
    have hsegment : Text.camelCase contextSegment = contextSegment := by decide +kernel
    rw [hsegment, Option.mem_toList.mp hc] at hhit
    exact foundIn_of_mem_context hhit (contextShows c) hsegments.2 hfield

end FoundIn

/-- **ALL DECLARED FIELDS** are found on the record. -/
theorem Transaction.foundIn_declared {t : Transaction} {field : DeclaredField}
    (h : field ∈ t.declared) : field.FoundIn t.view := by
  cases t with
  | bank r =>
      have hcontext :=
        List.mem_of_getElem? (l := BankTransaction.fieldNames.zip r.slots) (i := 5) rfl
      exact foundIn_of_mem_declaredFields (d := .bank) rfl r.view_shows hcontext
        BankContext.view_shows h
  | order r =>
      have hcontext :=
        List.mem_of_getElem? (l := OrderTransaction.fieldNames.zip r.slots) (i := 12) rfl
      exact foundIn_of_mem_declaredFields (d := .ecommerce) rfl r.view_shows hcontext
        OrderContext.view_shows h
  | mobileMoney r =>
      have hcontext :=
        List.mem_of_getElem? (l := MobileMoneyTransaction.fieldNames.zip r.slots) (i := 6) rfl
      exact foundIn_of_mem_declaredFields (d := .mobileMoney) rfl r.view_shows hcontext
        MobileMoneyContext.view_shows h

/-- **PATHS OF DECLARED FIELDS** lead to their values, in whatever way they are written. -/
theorem Case.resolve_declared {aliases : List String} {c : Case} {t : Transaction}
    (hrecord : c.record = t.view)
    (free : ∀ a ∈ aliases, Text.lower a ≠ Text.lower contextSegment) {field : DeclaredField}
    (h : field ∈ t.declared) {written : String} (hwritten : Spelling aliases field.path written) :
    (c.resolve aliases written).value = field.value := by
  obtain ⟨onRecord, noAlias, value⟩ := Transaction.foundIn_declared h
  rw [resolve_spelling hwritten onRecord (noAlias aliases free), hrecord, value]

end RiskDecision
