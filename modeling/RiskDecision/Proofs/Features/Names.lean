import RiskDecision.Features.Derivation
import RiskDecision.Proofs.Dictionary.Keys

/-!
# The names of features

A transaction has features if it has a client context, and which ones depends on its domain only.
They are written down as entries with distinct names, so a feature is found by the place of its name
(`find?_ofList_of_getElem?`), whatever the values are.
-/

namespace RiskDecision

/-- The names of the features of a domain, in the order in which they are written down. -/
def BusinessDomain.featureNames : BusinessDomain → List String
  | .bank =>
    ["transaction_amount", "balance_before", "velocity_txn_count_1h", "avg_txn_amt_for_user",
      "time_since_last_txn_seconds", "amount_to_balance_ratio", "amount_vs_user_avg_ratio",
      "is_new_device", "is_foreign_location", "is_night", "transaction_type"]
  | .ecommerce =>
    ["transactionamount", "itemcount", "accountageindays", "currency", "productcategory",
      "emaildomain", "shippingcountry", "billingcountry", "paymentmethod", "ipaddresscountry",
      "time_since_last_txn_seconds", "avg_txn_amt_for_user", "amount_vs_user_avg_ratio",
      "isguestcheckout", "billingequalsshipping"]
  | .mobileMoney =>
    ["transaction_amount", "balance_before", "velocity_txn_count_1h",
      "time_since_last_txn_seconds", "transaction_type", "currency", "country",
      "avg_txn_amt_for_user", "balance_after", "amount_to_balance_ratio", "is_account_drain",
      "amount_vs_user_avg_ratio", "is_night", "is_new_device", "is_foreign_location"]

theorem BusinessDomain.nodup_featureNames (d : BusinessDomain) : d.featureNames.Nodup := by
  cases d <;> decide +kernel

/-- Entries with distinct names are found by their places. -/
theorem Dictionary.find?_ofList_of_getElem? {α : Type} {entries : List (String × α)}
    {names : List String} (keys : entries.map Prod.fst = names) (distinct : names.Nodup) {i : Nat}
    {name : String} (place : names[i]? = some name) :
    (ofList entries).find? name = (entries.map Prod.snd)[i]? := by
  subst keys
  rw [find?_ofList distinct]
  induction entries generalizing i with
  | nil => exact nomatch place
  | cons e rest ih =>
      obtain ⟨hhead, htail⟩ := List.nodup_cons.mp distinct
      rw [find?_cons]
      cases i with
      | zero => rw [if_pos (Option.some.inj place).symm]; rfl
      | succ i =>
          have hrest : (rest.map Prod.fst)[i]? = some name := place
          rw [if_neg, ih htail hrest]
          · rfl
          · rintro rfl
            exact hhead (List.mem_of_getElem? hrest)

namespace Transaction

/-- A record without the context of the client has no features. -/
theorem features_of_none {t : Transaction} (h : t.contextView? = none) :
    t.features = .error (.missingClientContext t.domain) := by
  cases t with
  | bank r => rw [features, Option.map_eq_none_iff.mp h]
  | order r => rw [features, Option.map_eq_none_iff.mp h]
  | mobileMoney r => rw [features, Option.map_eq_none_iff.mp h]

theorem features_of_some {t : Transaction} {v : View} (h : t.contextView? = some v) :
    ∃ features, t.features = .ok features := by
  cases t with
  | bank r =>
      obtain ⟨context, hcontext, -⟩ := Option.map_eq_some_iff.mp h
      exact ⟨_, by rw [features, hcontext]⟩
  | order r =>
      obtain ⟨context, hcontext, -⟩ := Option.map_eq_some_iff.mp h
      exact ⟨_, by rw [features, hcontext]⟩
  | mobileMoney r =>
      obtain ⟨context, hcontext, -⟩ := Option.map_eq_some_iff.mp h
      exact ⟨_, by rw [features, hcontext]⟩

/-- How a transaction comes by its features. -/
inductive Derived : Transaction → Features → Prop
  | bank {r : BankTransaction} {c : BankContext} (context : r.clientContext = some c) :
      Derived (.bank r) (Features.ofBank r c)
  | order {r : OrderTransaction} {c : OrderContext} (context : r.clientContext = some c) :
      Derived (.order r) (Features.ofOrder r c)
  | mobileMoney {r : MobileMoneyTransaction} {c : MobileMoneyContext}
      (context : r.clientContext = some c) : Derived (.mobileMoney r) (Features.ofMobileMoney r c)

variable {t : Transaction} {f : Features}

theorem derived_of_features (h : t.features = .ok f) : Derived t f := by
  cases t with
  | bank r =>
      cases hcontext : r.clientContext with
      | none => rw [features, hcontext] at h; exact nomatch h
      | some c =>
          have hf : Features.ofBank r c = f := Except.ok.inj (by rw [← h, features, hcontext])
          exact hf ▸ .bank hcontext
  | order r =>
      cases hcontext : r.clientContext with
      | none => rw [features, hcontext] at h; exact nomatch h
      | some c =>
          have hf : Features.ofOrder r c = f := Except.ok.inj (by rw [← h, features, hcontext])
          exact hf ▸ .order hcontext
  | mobileMoney r =>
      cases hcontext : r.clientContext with
      | none => rw [features, hcontext] at h; exact nomatch h
      | some c =>
          have hf : Features.ofMobileMoney r c = f :=
            Except.ok.inj (by rw [← h, features, hcontext])
          exact hf ▸ .mobileMoney hcontext

/-- **NAMES**: the derived features are those of the domain. -/
theorem Derived.mem_keys_iff (h : Derived t f) {name : String} :
    name ∈ Dictionary.keys f ↔ name ∈ t.domain.featureNames := by
  cases h <;> exact Dictionary.mem_keys_ofList _

end Transaction

end RiskDecision
