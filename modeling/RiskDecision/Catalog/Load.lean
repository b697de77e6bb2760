import RiskDecision.Catalog.Basic
import RiskDecision.Json.Parser
import RiskDecision.Rule.Json
import RiskDecision.Rule.Validity

/-!
# Loading a catalog

A catalog is written as an array of rules. Each entry is read on its own: one that is no valid rule
is rejected with its index and the reason, and the others are loaded as if it were not there.
-/

namespace RiskDecision

/-- An entry that is no valid rule. -/
structure Rejection where
  index : Nat
  /-- The identifier that the entry gives itself, if it is an object with a text for it. -/
  ruleId : Option String
  fault : Fault
  deriving Repr

/-- What became of the entries of a catalog. -/
structure LoadReport where
  domain : DomainName
  loaded : Nat
  rejected : List Rejection

namespace LoadReport

/-- No entry was rejected. -/
def isClean (r : LoadReport) : Bool := r.rejected.isEmpty

end LoadReport

namespace Catalog

/-- Reads an entry. -/
def readEntry (entry : Json) : Except Fault Rule := do
  let rule ← (Rule.decode entry).mapError .ruleShape
  rule.validate
  return rule

/-- The rule of an entry, if it has a valid one. -/
def accepted? (entry : Json) : Option Rule := (readEntry entry).toOption

/-- The rejection of the entry at an index, if it has no valid rule. -/
def rejection? (entry : Json × Nat) : Option Rejection :=
  match readEntry entry.1 with
  | .ok _ => none
  | .error fault => some ⟨entry.2, (entry.1.member? "ruleId").bind Json.text?, fault⟩

/-- Loads the entries of a catalog. -/
def ofEntries (domain : String) (entries : List Json) : Catalog × LoadReport :=
  let rules := entries.filterMap accepted?
  (ofRules domain rules,
    ⟨.ofText domain, rules.length, entries.zipIdx.filterMap rejection?⟩)

/-- Loads a catalog from a JSON value, which has to be an array. -/
def ofJson (domain : String) : Json → Except Fault (Catalog × LoadReport)
  | .array entries => .ok (ofEntries domain entries)
  | j => .error (.catalogKind domain j.kind)

/-- Loads a catalog from a text. -/
def ofText (domain text : String) : Except Fault (Catalog × LoadReport) := do
  let j ← (Json.ofText text).mapError (.catalogText domain)
  ofJson domain j

end Catalog

end RiskDecision
