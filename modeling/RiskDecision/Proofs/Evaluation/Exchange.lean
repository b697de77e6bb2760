import Mathlib.Data.Option.Basic
import RiskDecision.Proofs.Evaluation.Nodes

/-!
# Exchanging clauses

Whoever writes the clauses of a rule in another way leaves its condition tree as it is and exchanges
the clauses for others, some or all of them. `Condition.Exchanged` says so for any relation between
the old clauses and the new ones. The tree comes to the same truth if related clauses do
(`Condition.truth_of_exchanged`), and then a rule applies to the same cases
(`Rule.Exchanged.applies_eq`).
-/

namespace RiskDecision

mutual

/-- Every clause of a tree is exchanged for a related one, and the groups stay. -/
inductive Condition.Exchanged (related : Clause → Clause → Prop) : Condition → Condition → Prop
  | clause {clause clause' : Clause} (h : related clause clause') :
      Condition.Exchanged related (.clause clause) (.clause clause')
  | group (k : Connective) {children children' : List Condition}
      (each : AllExchanged related children children') :
      Condition.Exchanged related (.group k children) (.group k children')

/-- The trees of one list are those of the other one with clauses exchanged. -/
inductive AllExchanged (related : Clause → Clause → Prop) : List Condition → List Condition → Prop
  | nil : AllExchanged related [] []
  | cons {child child' : Condition} {rest rest' : List Condition}
      (first : Condition.Exchanged related child child')
      (others : AllExchanged related rest rest') :
      AllExchanged related (child :: rest) (child' :: rest')

end

/-- The conditions of two rules differ in clauses that are related. -/
def Rule.Exchanged (related : Clause → Clause → Prop) (r r' : Rule) : Prop :=
  Option.Rel (fun root root' : Group => root.tree.Exchanged related root'.tree)
    r.conditions r'.conditions

variable {related : Clause → Clause → Prop} {v : Clause → Bool}

mutual

/-- **NODES**: clauses that hold alike can take each other's places, at every depth. -/
theorem Condition.truth_of_exchanged (alike : ∀ a b, related a b → v b = v a) :
    ∀ {t t' : Condition}, t.Exchanged related t' → t'.truth v = t.truth v
  | .clause clause, _, h => by
      cases h with
      | clause h => exact alike _ _ h
  | .group k children, _, h => by
      cases h with
      | group _ each => rw [Condition.truth, Condition.truth, truths_of_allExchanged alike each]

theorem truths_of_allExchanged (alike : ∀ a b, related a b → v b = v a) :
    ∀ {children children' : List Condition}, AllExchanged related children children' →
      truths v children' = truths v children
  | [], _, h => by
      cases h with
      | nil => rfl
  | child :: rest, _, h => by
      cases h with
      | cons first others =>
          rw [truths, truths, Condition.truth_of_exchanged alike first,
            truths_of_allExchanged alike others]

end

/-- **RULES** apply to a case as before if the exchanged clauses hold alike in it. -/
theorem Rule.Exchanged.applies_eq {aliases : List String} {c : Case} {r r' : Rule}
    (h : r.Exchanged related r')
    (alike : ∀ a b, related a b → b.holds aliases c = a.holds aliases c) :
    r'.applies aliases c = r.applies aliases c := by
  rw [applies, applies]
  rw [Rule.Exchanged] at h
  generalize r.conditions = old, r'.conditions = new at h
  cases h with
  | none => rfl
  | some hroot => exact Condition.truth_of_exchanged alike hroot

/-- Then their conditions match as before. -/
theorem Rule.Exchanged.matched_eq {aliases : List String} {c : Case} {r r' : Rule}
    (h : r.Exchanged related r')
    (alike : ∀ a b, related a b → b.holds aliases c = a.holds aliases c) :
    (runConditions aliases c r'.conditions).matched
      = (runConditions aliases c r.conditions).matched := by
  rw [runConditions_matched, runConditions_matched]
  exact h.applies_eq alike

end RiskDecision
