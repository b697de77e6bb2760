import RiskDecision.Record.View
import RiskDecision.Text.Split
import RiskDecision.Text.Uppercase

/-!
# Following a path on a record

A path is a sequence of segments. At each segment up to three accessors are tried, `getX`, `isX` and
the segment itself, and the first one that the record has decides, also when it gives the null
value. A path that leaves the record gives the null value. Every accessor that is tried is logged,
because which fields a rule looks at is as observable as what it finds.
-/

namespace RiskDecision

/-- One attempt to use an accessor. -/
structure Probe where
  typeName : String
  accessor : String
  deriving Repr, DecidableEq

/-- The text of a probe. -/
def Probe.text (p : Probe) : String := p.typeName ++ "." ++ p.accessor

/-- A value that was looked up, with the probes made for it in their order. -/
structure Lookup where
  value : Value
  probes : List Probe
  deriving Repr

namespace View

/-- The accessors that a segment may mean, in the order in which they are tried. -/
def candidates (segment : String) : List String :=
  if segment = "" then []
  else ["get" ++ Text.capitalize segment, "is" ++ Text.capitalize segment, segment]

/-- Tries accessors in turn until the record has one. -/
def firstSlot (v : View) : List String → Option Slot × List Probe
  | [] => (none, [])
  | accessor :: rest =>
    let probe : Probe := ⟨v.typeName, accessor⟩
    match v.slot? accessor with
    | some slot => (some slot, [probe])
    | none =>
      let (slot, probes) := v.firstSlot rest
      (slot, probe :: probes)

/-- Follows the segments of a path. A path that ends at a nested record gives its type name. -/
def follow (v : View) : List String → Lookup
  | [] => ⟨.null, []⟩
  | segment :: rest =>
    let (slot, probes) := v.firstSlot (candidates segment)
    match slot, rest with
    | none, _ => ⟨.null, probes⟩
    | some (.scalar value), [] => ⟨value, probes⟩
    | some (.scalar _), _ :: _ => ⟨.null, probes⟩
    | some (.nested inner), [] => ⟨.text inner.typeName, probes⟩
    | some (.nested inner), _ :: _ =>
      let lookup := inner.follow rest
      ⟨lookup.value, probes ++ lookup.probes⟩

end View

end RiskDecision
