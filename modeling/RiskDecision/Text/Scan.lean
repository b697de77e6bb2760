/-!
# Reading the front of a text

A scan takes the characters at hand and gives what it read with the characters that follow, or
nothing if the text is not well formed there.
-/

namespace RiskDecision

/-- A reader of the front of a text. -/
abbrev Scan (α : Type) := List Char → Option (α × List Char)

end RiskDecision
