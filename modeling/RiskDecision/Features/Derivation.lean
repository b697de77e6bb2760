import RiskDecision.Features.Basic
import RiskDecision.Record.Transaction
import RiskDecision.Timestamp

/-!
# Features of a transaction

Each kind of record has its own features: fields that are passed on under a feature name, ratios of
the amount to something usual for the user, and a few judgements. All of them need the context that
the client sends along, so a record without one has no features.
-/

namespace RiskDecision

namespace Features

/-- What is added to the denominator of a ratio. -/
def smoothing : Float := 1e-6

/-- The denominator of a ratio. -/
def denominator (x : Float) : Float := x + smoothing

/-- A ratio with a smoothed denominator. -/
def ratio (x y : Float) : Float := x / denominator y

/-- An amount above this part of the balance drains the account. -/
def drainRatio : Float := 0.9

/-- The kinds of mobile money transfers that increase the balance. -/
def inflowTypes : List String := ["cash_in", "receive_money"]

/-- A text that may be absent. -/
def ofText? (s : Option String) : Value := (s.map Value.text).getD .null

/-- An integer. -/
def ofInt (n : Int) : Value := .number (Float.ofInt n)

/-- The features of a bank transaction. -/
def ofBank (r : BankTransaction) (c : BankContext) : Features := Dictionary.ofList [
  ("transaction_amount", .number r.amount),
  ("balance_before", .number c.balanceBefore),
  ("velocity_txn_count_1h", ofInt c.hourlyCount),
  ("avg_txn_amt_for_user", .number c.averageAmount),
  ("time_since_last_txn_seconds", ofInt c.secondsSinceLast),
  ("amount_to_balance_ratio", .number (ratio r.amount c.balanceBefore)),
  ("amount_vs_user_avg_ratio", .number (ratio r.amount c.averageAmount)),
  ("is_new_device", .bool c.isNewDevice),
  ("is_foreign_location", .bool c.isForeignLocation),
  ("is_night", .bool c.isNight),
  ("transaction_type", ofText? r.transactionType)]

/-- Both countries are known and the same. -/
def sameCountry : Option String → Option String → Bool
  | some a, some b => Text.sameIgnoringCase a b
  | _, _ => false

/-- The features of an order. -/
def ofOrder (r : OrderTransaction) (c : OrderContext) : Features := Dictionary.ofList [
  ("transactionamount", .number r.amount),
  ("itemcount", ofInt r.itemCount),
  ("accountageindays", ofInt r.accountAgeDays),
  ("currency", ofText? r.currency),
  ("productcategory", ofText? r.productCategory),
  ("emaildomain", ofText? r.emailDomain),
  ("shippingcountry", ofText? r.shippingCountry),
  ("billingcountry", ofText? r.billingCountry),
  ("paymentmethod", ofText? r.paymentMethod),
  ("ipaddresscountry", ofText? r.ipAddressCountry),
  ("time_since_last_txn_seconds", .number c.secondsSinceLast),
  ("avg_txn_amt_for_user", .number c.averageAmount),
  ("amount_vs_user_avg_ratio", .number (ratio r.amount c.averageAmount)),
  ("isguestcheckout", .bool r.isGuestCheckout),
  ("billingequalsshipping", .bool (sameCountry r.billingCountry r.shippingCountry))]

/-- The transfer increases the balance. -/
def isInflow (r : MobileMoneyTransaction) : Bool :=
  r.transactionType.any inflowTypes.contains

/-- The balance after a mobile money transfer. -/
def balanceAfter (r : MobileMoneyTransaction) : Float :=
  if isInflow r then r.balanceBefore + r.amount else r.balanceBefore - r.amount

/-- The transfer happened at night. One whose time is not known did not. -/
def happenedAtNight (r : MobileMoneyTransaction) : Bool :=
  (r.timestamp.bind Timestamp.read?).any Timestamp.isNight

/-- The features of a mobile money transfer. -/
def ofMobileMoney (r : MobileMoneyTransaction) (c : MobileMoneyContext) : Features :=
  Dictionary.ofList [
    ("transaction_amount", .number r.amount),
    ("balance_before", .number r.balanceBefore),
    ("velocity_txn_count_1h", ofInt c.hourlyCount),
    ("time_since_last_txn_seconds", ofInt c.secondsSinceLast),
    ("transaction_type", ofText? r.transactionType),
    ("currency", ofText? c.currency),
    ("country", ofText? c.country),
    ("avg_txn_amt_for_user", .number c.averageAmount),
    ("balance_after", .number (balanceAfter r)),
    ("amount_to_balance_ratio", .number (ratio r.amount r.balanceBefore)),
    ("is_account_drain", .bool (ratio r.amount r.balanceBefore > drainRatio)),
    ("amount_vs_user_avg_ratio", .number (ratio r.amount c.averageAmount)),
    ("is_night", .bool (happenedAtNight r)),
    ("is_new_device", .bool c.isNewDevice),
    ("is_foreign_location", .bool c.isForeignLocation)]

end Features

/-- The features of a transaction. -/
def Transaction.features (t : Transaction) : Except Fault Features :=
  let ofContext {α : Type} (context : Option α) (derive : α → Features) : Except Fault Features :=
    match context with
    | some c => .ok (derive c)
    | none => .error (.missingClientContext t.domain)
  match t with
  | .bank r => ofContext r.clientContext (Features.ofBank r)
  | .order r => ofContext r.clientContext (Features.ofOrder r)
  | .mobileMoney r => ofContext r.clientContext (Features.ofMobileMoney r)

/-- The features that were given along with a transaction, or else those derived from it. -/
def Transaction.featuresOr (t : Transaction) : Option Features → Except Fault Features
  | some features => .ok features
  | none => t.features

end RiskDecision
