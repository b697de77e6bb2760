import RiskDecision.Proofs.Evaluation.Exchange
import RiskDecision.Proofs.Features.Names
import RiskDecision.Proofs.Record.Declared

/-!
# Features that are passed on

Most features are fields of the record or of its client context under another name. Such a name
differs from that of the field in its style only, so which field a feature comes from can be told by
the names (`LikeNamed`). `BusinessDomain.places` does so for all features of a domain, and the
features at these places have the values of the fields (`Transaction.Derived.find?_of_likeNamed`).
So a rule may name such a datum by the path of the feature or by a path on the record
(`Form`). The main statement, `Transaction.features_agree`, says that it makes no difference which.
-/

namespace RiskDecision

/-- The characters of a name without the marks of its style: underscores and the case of letters. -/
def Text.unstyled (name : String) : List Char := (name.toList.filter (· ≠ '_')).map Char.toLower

/-- Two names are the same but for their style. -/
def LikeNamed (a b : String) : Prop := Text.unstyled a = Text.unstyled b

instance (a b : String) : Decidable (LikeNamed a b) := inferInstanceAs (Decidable (_ = _))

namespace BusinessDomain

/-- The features of a domain that are not fields but computed from them. -/
def computed : BusinessDomain → List String
  | .bank => ["amount_to_balance_ratio", "amount_vs_user_avg_ratio"]
  | .ecommerce => ["amount_vs_user_avg_ratio", "billingequalsshipping"]
  | .mobileMoney =>
    ["balance_after", "amount_to_balance_ratio", "is_account_drain", "amount_vs_user_avg_ratio",
      "is_night"]

/-- The places of features, each with the place of a field that is named like it. -/
def places (d : BusinessDomain) : List (Nat × Nat) :=
  d.featureNames.zipIdx.flatMap fun key =>
    (d.fieldNames.zipIdx.filter fun name => LikeNamed key.1 name.1).map fun name => (key.2, name.2)

theorem mem_places {d : BusinessDomain} {key name : String} {i j : Nat}
    (hkey : d.featureNames[i]? = some key) (hname : d.fieldNames[j]? = some name)
    (like : LikeNamed key name) : (i, j) ∈ d.places := by
  refine List.mem_flatMap.mpr ⟨(key, i), List.mem_zipIdx_iff_getElem?.mpr hkey, ?_⟩
  refine List.mem_map.mpr ⟨(name, j), ?_, rfl⟩
  exact List.mem_filter.mpr ⟨List.mem_zipIdx_iff_getElem?.mpr hname, decide_eq_true like⟩

theorem places_bank : places .bank
    = [(0, 1), (1, 6), (2, 10), (3, 11), (4, 12), (7, 7), (8, 8), (9, 9), (10, 2)] := by
  decide +kernel

theorem places_ecommerce : places .ecommerce
    = [(0, 0), (1, 2), (2, 8), (3, 1), (4, 3), (5, 9), (6, 10), (7, 11), (8, 4), (9, 6), (10, 13),
      (11, 14), (13, 7)] := by
  decide +kernel

theorem places_mobileMoney : places .mobileMoney
    = [(0, 2), (1, 5), (2, 9), (3, 11), (4, 3), (5, 12), (6, 13), (7, 10), (13, 7), (14, 8)] := by
  decide +kernel

/-- The computed features are those that no field is named like. -/
theorem exists_likeNamed_iff {d : BusinessDomain} :
    ∀ key ∈ d.featureNames, (∃ name ∈ d.fieldNames, LikeNamed key name) ↔ key ∉ d.computed := by
  cases d <;> decide +kernel

end BusinessDomain

/-- A feature has the value of the field that is named like it, if values at such places agree. -/
theorem Dictionary.find?_of_places {entries : List (String × Value)} {declared : List DeclaredField}
    {d : BusinessDomain} (hkeys : entries.map Prod.fst = d.featureNames)
    (hnames : declared.map (·.name) = d.fieldNames)
    (agree : d.places.map (fun p => (entries.map Prod.snd)[p.1]?)
      = d.places.map fun p => (declared.map (·.value))[p.2]?)
    {key : String} (hkey : key ∈ d.featureNames) {field : DeclaredField} (hfield : field ∈ declared)
    (like : LikeNamed key field.name) : (ofList entries).find? key = some field.value := by
  obtain ⟨i, hi⟩ := List.mem_iff_getElem?.mp hkey
  obtain ⟨j, hj⟩ := List.mem_iff_getElem?.mp hfield
  have hname : d.fieldNames[j]? = some field.name := by
    rw [← hnames, List.getElem?_map, hj]
    rfl
  have hagree := List.map_inj_left.mp agree (i, j) (BusinessDomain.mem_places hi hname like)
  rw [find?_ofList_of_getElem? hkeys d.nodup_featureNames hi]
  refine hagree.trans ?_
  rw [List.getElem?_map, hj]
  rfl

namespace Transaction

variable {t : Transaction} {f : Features}

/-- All declared fields of a record with a context are listed. -/
theorem Derived.names_declared (h : Derived t f) :
    t.declared.map (·.name) = t.domain.fieldNames := by
  cases h with
  | bank context => rw [declared, context]; rfl
  | order context => rw [declared, context]; rfl
  | mobileMoney context => rw [declared, context]; rfl

/-- **PASSED ON**: a feature that is named like a declared field has its value. -/
theorem Derived.find?_of_likeNamed (h : Derived t f) {key : String} (hkey : key ∈ Dictionary.keys f)
    {field : DeclaredField} (hfield : field ∈ t.declared) (like : LikeNamed key field.name) :
    f.find? key = some field.value := by
  have hnames := h.names_declared
  rw [h.mem_keys_iff] at hkey
  cases h with
  | bank context =>
      refine Dictionary.find?_of_places rfl hnames ?_ hkey hfield like
      rw [declared, context, domain, BusinessDomain.places_bank]
      rfl
  | order context =>
      refine Dictionary.find?_of_places rfl hnames ?_ hkey hfield like
      rw [declared, context, domain, BusinessDomain.places_ecommerce]
      rfl
  | mobileMoney context =>
      refine Dictionary.find?_of_places rfl hnames ?_ hkey hfield like
      rw [declared, context, domain, BusinessDomain.places_mobileMoney]
      rfl

/-- The paths by which a rule may name a feature: that of the feature, and any way to write the path
of a field that is named like it. -/
inductive Form (aliases : List String) (t : Transaction) (key : String) : String → Prop
  | feature : Form aliases t key (Case.featureStart ++ key)
  | field {field : DeclaredField} (declared : field ∈ t.declared) (like : LikeNamed key field.name)
      {written : String} (spelling : Case.Spelling aliases field.path written) :
      Form aliases t key written

/-- Two clauses that are the same, or the same but for the form in which they name a feature. -/
structure SameForm (aliases : List String) (t : Transaction) (f : Features) (a b : Clause) :
    Prop where
  operator : b.operator = a.operator
  literal : b.literal = a.literal
  field : b.field = a.field ∨
    ∃ key ∈ Dictionary.keys f, Form aliases t key a.field ∧ Form aliases t key b.field

section Agreement

variable {aliases : List String} {c : Case}

/-- **FORMS** of a feature lead to its value. -/
theorem Derived.resolve_form (h : Derived t f) (hrecord : c.record = t.view)
    (hfeatures : c.features = f)
    (free : ∀ a ∈ aliases, Text.lower a ≠ Text.lower contextSegment) {key : String}
    (hkey : key ∈ Dictionary.keys f) {path : String} (hform : Form aliases t key path) :
    (c.resolve aliases path).value = f.value key := by
  cases hform with
  | feature => rw [Case.resolve_feature, hfeatures]
  | field declared like spelling =>
      rw [Case.resolve_declared hrecord free declared spelling, Features.value,
        h.find?_of_likeNamed hkey declared like]
      rfl

/-- Clauses that name a feature in different forms hold alike. -/
theorem Derived.holds_of_sameForm (h : Derived t f) (hrecord : c.record = t.view)
    (hfeatures : c.features = f)
    (free : ∀ a ∈ aliases, Text.lower a ≠ Text.lower contextSegment) {a b : Clause}
    (same : SameForm aliases t f a b) : b.holds aliases c = a.holds aliases c := by
  have hvalue : (c.resolve aliases b.field).value = (c.resolve aliases a.field).value := by
    rcases same.field with hfield | ⟨key, hkey, ha, hb⟩
    · rw [hfield]
    · rw [h.resolve_form hrecord hfeatures free hkey ha,
        h.resolve_form hrecord hfeatures free hkey hb]
  rw [Clause.holds, Clause.holds, same.operator, same.literal, hvalue]

end Agreement

/-- **AGREEMENT OF FEATURES AND FIELDS.** A record with a client context has the features of its
domain. In the case of the record and its features, every declared field of the record and of its
context is reached by its path in the style of paths, with or without an alias in front. A feature
is computed exactly if no declared field is named like it. Every other one is found by its own path
with the value, absent or not, that the path of the field named like it leads to. So a rule matches
as before if its clauses name features in other forms. -/
theorem features_agree {t : Transaction} (hcontext : t.contextView?.isSome = true)
    {aliases : List String}
    (free : ∀ a ∈ aliases, Text.lower a ≠ Text.lower contextSegment) :
    ∃ f, t.features = .ok f ∧
      (∀ key, key ∈ Dictionary.keys f ↔ key ∈ t.domain.featureNames) ∧
      t.declared.map (·.name) = t.domain.fieldNames ∧
      (∀ key ∈ Dictionary.keys f,
        (∃ field ∈ t.declared, LikeNamed key field.name) ↔ key ∉ t.domain.computed) ∧
      ∀ (score : Float) (clientContext : Option (Dictionary Json)),
        let c : Case := ⟨t.view, score, f, clientContext⟩
        (∀ field ∈ t.declared, ∀ written, Case.Spelling aliases field.path written →
          (c.resolve aliases written).value = field.value) ∧
        (∀ key ∈ Dictionary.keys f, ∀ field ∈ t.declared, LikeNamed key field.name →
          ∀ written, Case.Spelling aliases field.path written →
            (c.resolve aliases (Case.featureStart ++ key)).value
              = (c.resolve aliases written).value) ∧
        ∀ r r' : Rule, r.Exchanged (SameForm aliases t f) r' →
          (runConditions aliases c r'.conditions).matched
            = (runConditions aliases c r.conditions).matched := by
  obtain ⟨context, hsome⟩ := Option.isSome_iff_exists.mp hcontext
  obtain ⟨f, hf⟩ := features_of_some hsome
  have hderived := derived_of_features hf
  refine ⟨f, hf, fun _ => hderived.mem_keys_iff, hderived.names_declared, ?_, ?_⟩
  · intro key hkey
    have hiff := BusinessDomain.exists_likeNamed_iff key (hderived.mem_keys_iff.mp hkey)
    rw [← hiff, ← hderived.names_declared]
    simp only [List.mem_map, exists_exists_and_eq_and]
  · intro score clientContext c
    refine ⟨?_, ?_, ?_⟩
    · intro field hfield written hwritten
      exact Case.resolve_declared rfl free hfield hwritten
    · intro key hkey field hfield like written hwritten
      rw [hderived.resolve_form rfl rfl free hkey .feature,
        hderived.resolve_form rfl rfl free hkey (.field hfield like hwritten)]
    · intro r r' h
      exact h.matched_eq fun a b same => hderived.holds_of_sameForm rfl rfl free same

/-- A transfer of no known type from a new device. One rule names the type as a feature and the
device as a field, another rule does it the other way round. -/
theorem features_agree_transfer :
    let t : Transaction := .bank { amount := 20, clientContext := some { isNewDevice := true } }
    let aliases := ["rawInput"]
    let rule (typePath devicePath : String) : Rule :=
      ⟨"R-DEVICE", none, none, true, 1,
        some ⟨.and, [.clause ⟨typePath, .isNull, .null, none⟩,
          .clause ⟨devicePath, .equals, .bool true, none⟩]⟩, []⟩
    let before := rule "preprocessed.transaction_type" "clientContext.isNewDevice"
    let after := rule "rawInput.transactionType" "preprocessed.is_new_device"
    t.contextView?.isSome = true ∧
      (∀ a ∈ aliases, Text.lower a ≠ Text.lower contextSegment) ∧
      ∃ f, t.features = .ok f ∧
        let c : Case := ⟨t.view, 0.5, f, none⟩
        (c.resolve aliases "preprocessed.transaction_type").value = .null ∧
        (c.resolve aliases "preprocessed.is_new_device").value = .bool true ∧
        before.Exchanged (SameForm aliases t f) after ∧
        (runConditions aliases c after.conditions).matched
          = (runConditions aliases c before.conditions).matched := by
  intro t aliases rule before after
  have hfree : ∀ a ∈ aliases, Text.lower a ≠ Text.lower contextSegment :=
    List.forall_mem_singleton.mpr (by decide +kernel)
  have htype : ⟨"transactionType", "transactionType", .null⟩ ∈ t.declared := by
    have hpath : "" ++ Text.camelCase "transactionType" = "transactionType" := by decide +kernel
    rw [← hpath]
    exact List.mem_of_getElem? (i := 2) rfl
  have hdevice : ⟨"is_new_device", "clientContext.isNewDevice", .bool true⟩ ∈ t.declared := by
    have hpath : contextSegment ++ "." ++ Text.camelCase "is_new_device"
        = "clientContext.isNewDevice" := by decide +kernel
    rw [← hpath]
    exact List.mem_of_getElem? (i := 7) rfl
  have likeType : LikeNamed "transaction_type" "transactionType" := by decide +kernel
  have likeDevice : LikeNamed "is_new_device" "is_new_device" := rfl
  have prefixed : Case.Spelling aliases "transactionType" "rawInput.transactionType" :=
    .prefixed (a := "rawInput") (by decide +kernel) (by decide +kernel) ⟨"rawInput", by decide⟩
  obtain ⟨f, hf, hnames, -, -, hcase⟩ := features_agree (t := t) rfl hfree
  obtain ⟨hfields, hagree, hrules⟩ := hcase 0.5 none
  have hkeys : "transaction_type" ∈ Dictionary.keys f ∧ "is_new_device" ∈ Dictionary.keys f := by
    rw [hnames, hnames]
    exact (by decide +kernel : "transaction_type" ∈ BusinessDomain.bank.featureNames ∧
      "is_new_device" ∈ BusinessDomain.bank.featureNames)
  have hexchanged : before.Exchanged (SameForm aliases t f) after := by
    refine .some (.group _ (.cons (.clause ⟨rfl, rfl, .inr ⟨_, hkeys.1, ?_, ?_⟩⟩)
      (.cons (.clause ⟨rfl, rfl, .inr ⟨_, hkeys.2, ?_, ?_⟩⟩) .nil)))
    · exact .feature
    · exact .field htype likeType prefixed
    · exact .field hdevice likeDevice .plain
    · exact .feature
  refine ⟨rfl, hfree, f, hf, ?_, ?_, hexchanged, hrules before after hexchanged⟩
  · exact (hagree _ hkeys.1 _ htype likeType _ prefixed).trans (hfields _ htype _ prefixed)
  · exact (hagree _ hkeys.2 _ hdevice likeDevice _ .plain).trans (hfields _ hdevice _ .plain)

end Transaction

end RiskDecision
