import RiskDecision.Decoding
import RiskDecision.Record.View

/-!
# Bank transactions

The record of a bank transaction and the context that the client sends along. Both are written with
every field optional; the fields of the context have names of their own style.
-/

namespace RiskDecision

/-- What the client knows around a bank transaction. -/
structure BankContext where
  balanceBefore : Float := 0
  isNewDevice : Bool := false
  isForeignLocation : Bool := false
  isNight : Bool := false
  /-- Transactions of the user within the last hour. -/
  hourlyCount : Int := 0
  /-- Average amount of the transactions of the user. -/
  averageAmount : Float := 0
  secondsSinceLast : Int := 0
  accountAgeDays : Int := 0
  isNewBeneficiary : Bool := false
  usesVpnOrProxy : Bool := false
  hourOfDay : Int := 0
  deriving Repr

namespace BankContext

/-- The fields in the order of their declaration. -/
def fieldNames : List String :=
  ["balance_before", "is_new_device", "is_foreign_location", "is_night",
   "velocity_txn_count_1h", "avg_txn_amt_for_user", "time_since_last_txn_seconds",
   "account_age_days", "is_new_beneficiary", "is_using_vpn_proxy", "hour_of_day"]

/-- Reads what the client knows around a bank transaction. -/
def decode (j : Json) : Except DecodeError BankContext :=
  j.record fieldNames fun get => do
    let balanceBefore ← Json.withDefault 0 Json.asFloat (get "balance_before")
    let isNewDevice ← Json.withDefault false Json.asBool (get "is_new_device")
    let isForeignLocation ← Json.withDefault false Json.asBool (get "is_foreign_location")
    let isNight ← Json.withDefault false Json.asBool (get "is_night")
    let hourlyCount ← Json.withDefault 0 (Json.asInt 64) (get "velocity_txn_count_1h")
    let averageAmount ← Json.withDefault 0 Json.asFloat (get "avg_txn_amt_for_user")
    let secondsSinceLast ← Json.withDefault 0 (Json.asInt 64) (get "time_since_last_txn_seconds")
    let accountAgeDays ← Json.withDefault 0 (Json.asInt 64) (get "account_age_days")
    let isNewBeneficiary ← Json.withDefault false Json.asBool (get "is_new_beneficiary")
    let usesVpnOrProxy ← Json.withDefault false Json.asBool (get "is_using_vpn_proxy")
    let hourOfDay ← Json.withDefault 0 (Json.asInt 64) (get "hour_of_day")
    return ⟨balanceBefore, isNewDevice, isForeignLocation, isNight, hourlyCount, averageAmount,
      secondsSinceLast, accountAgeDays, isNewBeneficiary, usesVpnOrProxy, hourOfDay⟩

/-- Writes what the client knows around a bank transaction. -/
def toJson (r : BankContext) : Json :=
  .ofMembers [
    ("balance_before", Json.ofFloat r.balanceBefore),
    ("is_new_device", Json.bool r.isNewDevice),
    ("is_foreign_location", Json.bool r.isForeignLocation),
    ("is_night", Json.bool r.isNight),
    ("velocity_txn_count_1h", Json.int r.hourlyCount),
    ("avg_txn_amt_for_user", Json.ofFloat r.averageAmount),
    ("time_since_last_txn_seconds", Json.int r.secondsSinceLast),
    ("account_age_days", Json.int r.accountAgeDays),
    ("is_new_beneficiary", Json.bool r.isNewBeneficiary),
    ("is_using_vpn_proxy", Json.bool r.usesVpnOrProxy),
    ("hour_of_day", Json.int r.hourOfDay)]

/-- What rules see of it. -/
def view (r : BankContext) : View :=
  .mk "BankClientContext" [
    ("getBalanceBefore", Slot.number r.balanceBefore),
    ("isNewDevice", Slot.flag r.isNewDevice),
    ("isForeignLocation", Slot.flag r.isForeignLocation),
    ("isNight", Slot.flag r.isNight),
    ("getVelocityTxnCount1h", Slot.count r.hourlyCount),
    ("getAvgTxnAmtForUser", Slot.number r.averageAmount),
    ("getTimeSinceLastTxnSeconds", Slot.count r.secondsSinceLast),
    ("getAccountAgeDays", Slot.count r.accountAgeDays),
    ("isNewBeneficiary", Slot.flag r.isNewBeneficiary),
    ("isUsingVpnProxy", Slot.flag r.usesVpnOrProxy),
    ("getHourOfDay", Slot.count r.hourOfDay)]

end BankContext

/-- A bank transaction. -/
structure BankTransaction where
  userId : Option String := none
  amount : Float := 0
  transactionType : Option String := none
  timestamp : Option String := none
  currency : Option String := none
  clientContext : Option BankContext := none
  deriving Repr

namespace BankTransaction

/-- The fields in the order of their declaration. -/
def fieldNames : List String :=
  ["userId", "transactionAmount", "transactionType", "timestamp", "currency", "clientContext"]

/-- Reads a bank transaction. -/
def decode (j : Json) : Except DecodeError BankTransaction :=
  j.record fieldNames fun get => do
    let userId ← Json.optional Json.asText (get "userId")
    let amount ← Json.withDefault 0 Json.asFloat (get "transactionAmount")
    let transactionType ← Json.optional Json.asText (get "transactionType")
    let timestamp ← Json.optional Json.asText (get "timestamp")
    let currency ← Json.optional Json.asText (get "currency")
    let clientContext ← Json.optional BankContext.decode (get "clientContext")
    return ⟨userId, amount, transactionType, timestamp, currency, clientContext⟩

/-- Writes a bank transaction. -/
def toJson (r : BankTransaction) : Json :=
  .ofMembers [
    ("userId", Json.ofText? r.userId),
    ("transactionAmount", Json.ofFloat r.amount),
    ("transactionType", Json.ofText? r.transactionType),
    ("timestamp", Json.ofText? r.timestamp),
    ("currency", Json.ofText? r.currency),
    ("clientContext", match r.clientContext with
      | none => .null
      | some c => c.toJson)]

/-- What rules see of it. -/
def view (r : BankTransaction) : View :=
  .mk "BankTransaction" [
    ("getUserId", Slot.text r.userId),
    ("getTransactionAmount", Slot.number r.amount),
    ("getTransactionType", Slot.text r.transactionType),
    ("getTimestamp", Slot.text r.timestamp),
    ("getCurrency", Slot.text r.currency),
    ("getClientContext", Slot.child (r.clientContext.map BankContext.view))]

end BankTransaction

end RiskDecision
