import RiskDecision.Text.Ascii

/-!
# Domains

A catalog belongs to a domain, a name that is compared without regard to case and surrounding
blanks; `DomainName` is such a name in its normal form. Three business domains have transaction
records of their own.
-/

namespace RiskDecision

/-- A domain name in its normal form: trimmed, ASCII letters in lower case. -/
structure DomainName where
  text : String
  normal : Text.normalize text = text

namespace DomainName

/-- The domain that a spelling names. -/
def ofText (spelling : String) : DomainName :=
  ⟨Text.normalize spelling, Text.normalize_normalize spelling⟩

@[ext] theorem ext {a b : DomainName} (h : a.text = b.text) : a = b := by
  cases a
  cases b
  cases h
  rfl

instance : DecidableEq DomainName := fun a b =>
  if h : a.text = b.text then isTrue (ext h) else isFalse fun e => h (e ▸ rfl)

@[simp] theorem text_ofText (spelling : String) :
    (ofText spelling).text = Text.normalize spelling := rfl

theorem ofText_text (d : DomainName) : ofText d.text = d :=
  ext (by rw [text_ofText, d.normal])

theorem ofText_eq_iff {a b : String} :
    ofText a = ofText b ↔ Text.normalize a = Text.normalize b := by
  constructor
  · intro h
    rw [← text_ofText, ← text_ofText, h]
  · intro h
    exact ext (by rw [text_ofText, text_ofText, h])

theorem lower_text (d : DomainName) : Text.lower d.text = d.text := by
  rw [← d.normal, Text.normalize, Text.lower_lower]

theorem trim_text (d : DomainName) : Text.trim d.text = d.text := by
  rw [← d.normal, Text.normalize, Text.trim_lower, Text.trim_trim]

end DomainName

/-- The domains with transaction records of their own. -/
inductive BusinessDomain
  | bank
  | ecommerce
  | mobileMoney
  deriving Repr, DecidableEq

namespace BusinessDomain

/-- The name of a business domain. -/
def name : BusinessDomain → String
  | .bank => "bank"
  | .ecommerce => "ecommerce"
  | .mobileMoney => "mobile_money"

/-- The business domain of a spelling. -/
def ofText? (spelling : String) : Option BusinessDomain :=
  match Text.normalize spelling with
  | "bank" => some .bank
  | "ecommerce" => some .ecommerce
  | "mobile_money" => some .mobileMoney
  | _ => none

end BusinessDomain

end RiskDecision
