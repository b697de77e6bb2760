import RiskDecision.Fault
import RiskDecision.Record.Bank
import RiskDecision.Record.MobileMoney
import RiskDecision.Record.Order

/-!
# Transactions

The record of a transaction in any of the business domains. The domain of a record follows from its
kind; a JSON value does not say which domain it belongs to, so decoding is told.
-/

namespace RiskDecision

/-- The record of a transaction. -/
inductive Transaction
  | bank (r : BankTransaction)
  | order (r : OrderTransaction)
  | mobileMoney (r : MobileMoneyTransaction)
  deriving Repr

namespace Transaction

/-- The domain that the record belongs to. -/
def domain : Transaction → BusinessDomain
  | .bank _ => .bank
  | .order _ => .ecommerce
  | .mobileMoney _ => .mobileMoney

/-- Reads a record of a domain. -/
def decode (domain : BusinessDomain) (j : Json) : Except DecodeError Transaction :=
  match domain with
  | .bank => (BankTransaction.decode j).map .bank
  | .ecommerce => (OrderTransaction.decode j).map .order
  | .mobileMoney => (MobileMoneyTransaction.decode j).map .mobileMoney

/-- Reads the record of a transaction that is to be decided. -/
def ofJson (domain : BusinessDomain) (j : Json) : Except Fault Transaction :=
  (decode domain j).mapError .jsonShape

/-- Writes a record. -/
def toJson : Transaction → Json
  | .bank r => r.toJson
  | .order r => r.toJson
  | .mobileMoney r => r.toJson

/-- What rules see of a record. -/
def view : Transaction → View
  | .bank r => r.view
  | .order r => r.view
  | .mobileMoney r => r.view

/-- What rules see of the client context, if the record has one. -/
def contextView? : Transaction → Option View
  | .bank r => r.clientContext.map (·.view)
  | .order r => r.clientContext.map (·.view)
  | .mobileMoney r => r.clientContext.map (·.view)

/-- A decoded record belongs to the domain that it was decoded for. -/
theorem domain_of_decode {d : BusinessDomain} {j : Json} {r : Transaction}
    (h : decode d j = .ok r) : r.domain = d := by
  cases d <;> simp only [decode] at h
  · cases hb : BankTransaction.decode j <;> simp [hb, Except.map] at h
    subst h
    rfl
  · cases hb : OrderTransaction.decode j <;> simp [hb, Except.map] at h
    subst h
    rfl
  · cases hb : MobileMoneyTransaction.decode j <;> simp [hb, Except.map] at h
    subst h
    rfl

end Transaction

end RiskDecision
