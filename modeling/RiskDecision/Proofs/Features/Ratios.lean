import RiskDecision.Json.Parser
import RiskDecision.Proofs.Decimal.Sum
import RiskDecision.Proofs.Features.Names

/-!
# Ratios and their denominators

A ratio feature compares the amount of a transaction with an amount that is usual for the user. Its
denominator is the usual amount and a little more, so that a usual amount of zero does no harm. What
is added is a number like any other, though, and nothing keeps a usual amount from being its
opposite: then the denominator is zero, and only then (`denominator_beq_zero_iff`). No other amount
comes near enough for the sum to be rounded to zero.
-/

namespace RiskDecision

namespace Features

/-- **DENOMINATORS** are zero for one usual amount only. -/
theorem denominator_beq_zero_iff {usual : Float} :
    (denominator usual == 0) = true ↔ (usual == -smoothing) = true := by
  have hunpack : smoothing.toModel.unpack
      = .finite .positive 4722366482869645 (-72) (by decide) := rfl
  exact Decimal.add_beq_zero_iff hunpack

/-- Amounts that are not negative are compared with something else than zero. -/
theorem denominator_ne_zero_of_nonneg {usual : Float} (h : 0 ≤ usual) :
    (denominator usual == 0) = false := by
  rw [Bool.eq_false_iff, ne_eq, denominator_beq_zero_iff]
  intro hopposite
  have hle := (Decimal.congr_of_beq hopposite 0).2.2
  rw [decide_eq_true h] at hle
  have hnegative : decide (0 ≤ -smoothing) = false := by decide +kernel
  exact Bool.false_ne_true (hnegative.symm.trans hle.symm)

end Features

namespace Transaction

/-- The amount of a transaction. -/
def amount : Transaction → Float
  | .bank r => r.amount
  | .order r => r.amount
  | .mobileMoney r => r.amount

/-- The ratio features of a transaction, each with the usual amount that it compares with. -/
def usualAmounts : Transaction → List (String × Float)
  | .bank r => r.clientContext.toList.flatMap fun c =>
    [("amount_to_balance_ratio", c.balanceBefore), ("amount_vs_user_avg_ratio", c.averageAmount)]
  | .order r => r.clientContext.toList.map fun c => ("amount_vs_user_avg_ratio", c.averageAmount)
  | .mobileMoney r => r.clientContext.toList.flatMap fun c =>
    [("amount_to_balance_ratio", r.balanceBefore), ("amount_vs_user_avg_ratio", c.averageAmount)]

variable {t : Transaction} {f : Features}

theorem Derived.ratio (h : Derived t f) : ∀ p ∈ t.usualAmounts,
    f.find? p.1 = some (.number (Features.ratio t.amount p.2)) := by
  have hbank := BusinessDomain.nodup_featureNames .bank
  have horder := BusinessDomain.nodup_featureNames .ecommerce
  have hmobile := BusinessDomain.nodup_featureNames .mobileMoney
  cases h with
  | @bank r c context =>
      rw [usualAmounts, context]
      refine List.forall_mem_cons.mpr ⟨?_, List.forall_mem_singleton.mpr ?_⟩
      · refine (Dictionary.find?_ofList_of_getElem? ?_ hbank (i := 5) ?_).trans ?_ <;> rfl
      · refine (Dictionary.find?_ofList_of_getElem? ?_ hbank (i := 6) ?_).trans ?_ <;> rfl
  | @order r c context =>
      rw [usualAmounts, context]
      refine List.forall_mem_singleton.mpr ?_
      refine (Dictionary.find?_ofList_of_getElem? ?_ horder (i := 12) ?_).trans ?_ <;> rfl
  | @mobileMoney r c context =>
      rw [usualAmounts, context]
      refine List.forall_mem_cons.mpr ⟨?_, List.forall_mem_singleton.mpr ?_⟩
      · refine (Dictionary.find?_ofList_of_getElem? ?_ hmobile (i := 9) ?_).trans ?_ <;> rfl
      · refine (Dictionary.find?_ofList_of_getElem? ?_ hmobile (i := 11) ?_).trans ?_ <;> rfl

/-- No other feature is named a ratio. -/
theorem Derived.mem_usualAmounts (h : Derived t f) {name : String}
    (hname : name ∈ Dictionary.keys f) (isRatio : "_ratio".toList <:+ name.toList) :
    name ∈ t.usualAmounts.map Prod.fst := by
  have hratios : ∀ d : BusinessDomain, ∀ name ∈ d.featureNames, "_ratio".toList <:+ name.toList →
      name ∈ ["amount_to_balance_ratio", "amount_vs_user_avg_ratio"] ∧
        (d = .ecommerce → name = "amount_vs_user_avg_ratio") := by
    intro d
    cases d <;> decide +kernel
  obtain ⟨hmem, honly⟩ := hratios t.domain name (h.mem_keys_iff.mp hname) isRatio
  cases h with
  | bank context => rw [usualAmounts, context]; exact hmem
  | order context => rw [usualAmounts, context]; exact List.mem_singleton.mpr (honly rfl)
  | mobileMoney context => rw [usualAmounts, context]; exact hmem

/-- Whether an account is drained is a question about the ratio to the balance. -/
theorem Derived.drain (h : Derived t f) {drained : Value}
    (hdrained : f.find? "is_account_drain" = some drained) :
    ∃ balance, ("amount_to_balance_ratio", balance) ∈ t.usualAmounts ∧
      drained = .bool (Features.ratio t.amount balance > Features.drainRatio) := by
  have hname : "is_account_drain" ∈ t.domain.featureNames := by
    rw [← h.mem_keys_iff]
    exact List.mem_map_of_mem (Dictionary.mem_of_find? hdrained)
  have hother : "is_account_drain" ∉ BusinessDomain.bank.featureNames ∧
      "is_account_drain" ∉ BusinessDomain.ecommerce.featureNames := by decide +kernel
  cases h with
  | bank context => exact absurd hname hother.1
  | order context => exact absurd hname hother.2
  | @mobileMoney r c context =>
      refine ⟨r.balanceBefore, ?_, ?_⟩
      · rw [usualAmounts, context]
        exact List.mem_cons_self
      · have hvalue : (Features.ofMobileMoney r c).find? "is_account_drain"
            = some (.bool (Features.ratio r.amount r.balanceBefore > Features.drainRatio)) := by
          refine (Dictionary.find?_ofList_of_getElem? ?_
            (BusinessDomain.nodup_featureNames .mobileMoney) (i := 10) ?_).trans ?_ <;> rfl
        exact Option.some.inj (hdrained.symm.trans hvalue)

/-- **RATIOS.** A transaction with a client context has features, and it compares its amount with
the usual amounts of its domain: these are all features named a ratio, each is the quotient by the
smoothed usual amount, and a drained account is told by the one for the balance. The denominator is
zero if the usual amount is the opposite of what is added to it, which takes a negative amount, and
never else. Then the ratio is no finite number. -/
theorem ratios_of_features {t : Transaction} (hcontext : t.contextView?.isSome = true) :
    ∃ f, t.features = .ok f ∧
      (∀ name ∈ Dictionary.keys f, "_ratio".toList <:+ name.toList →
        name ∈ t.usualAmounts.map Prod.fst) ∧
      (∀ p ∈ t.usualAmounts,
        f.find? p.1 = some (.number (t.amount / Features.denominator p.2)) ∧
        ((Features.denominator p.2 == 0) = true ↔ (p.2 == -Features.smoothing) = true) ∧
        (0 ≤ p.2 → (Features.denominator p.2 == 0) = false) ∧
        ((Features.denominator p.2 == 0) = true →
          (t.amount / Features.denominator p.2).isFinite = false)) ∧
      (∀ drained, f.find? "is_account_drain" = some drained →
        ∃ balance, ("amount_to_balance_ratio", balance) ∈ t.usualAmounts ∧
          drained = .bool (t.amount / Features.denominator balance > Features.drainRatio)) := by
  obtain ⟨context, hsome⟩ := Option.isSome_iff_exists.mp hcontext
  obtain ⟨f, hf⟩ := features_of_some hsome
  have hderived := derived_of_features hf
  refine ⟨f, hf, fun name hname isRatio => hderived.mem_usualAmounts hname isRatio, ?_, ?_⟩
  · intro p hp
    exact ⟨hderived.ratio p hp, Features.denominator_beq_zero_iff,
      Features.denominator_ne_zero_of_nonneg, Decimal.isFinite_div_of_zero⟩
  · intro drained hdrained
    exact hderived.drain hdrained

/-- A new user has no average yet. -/
theorem ratios_of_features_new :
    let t : Transaction := .order { amount := 20, clientContext := some {} }
    t.contextView?.isSome = true ∧
      (∃ f, t.features = .ok f ∧
        f.find? "amount_vs_user_avg_ratio" = some (.number (20 / Features.denominator 0))) ∧
      (Features.denominator 0 == 0) = false := by
  intro t
  have hmem : ("amount_vs_user_avg_ratio", 0) ∈ t.usualAmounts := List.mem_singleton_self _
  have hnonneg : (0 : Float) ≤ 0 := by decide +kernel
  obtain ⟨f, hf, -, hratio, -⟩ := ratios_of_features (t := t) rfl
  exact ⟨rfl, ⟨f, hf, (hratio _ hmem).1⟩, (hratio _ hmem).2.2.1 hnonneg⟩

/-- A record that can be read, with a balance that makes a denominator zero. -/
theorem denominator_of_negative :
    let text :=
      "\x7b\"transactionAmount\":0,\"clientContext\":\x7b\"balance_before\":-0.000001\x7d\x7d"
    let t? := (Json.ofText text).toOption.bind fun j => (decode .bank j).toOption
    t?.map (fun t => t.features.toOption.isSome) = some true ∧
      t?.map (fun t => t.usualAmounts.map fun p => Features.denominator p.2 == 0)
        = some [true, false] := by
  decide +kernel

end Transaction

end RiskDecision
