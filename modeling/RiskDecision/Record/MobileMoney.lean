import RiskDecision.Decoding
import RiskDecision.Record.View

/-!
# Mobile money transfers

The record of a mobile money transfer and the context that the client sends along. Every field is
optional in writing. Currency and country belong to the context.
-/

namespace RiskDecision

/-- What the client knows around a mobile money transfer. -/
structure MobileMoneyContext where
  isNewDevice : Bool := false
  isForeignLocation : Bool := false
  /-- Transactions of the user within the last hour. -/
  hourlyCount : Int := 0
  /-- Average amount of the transactions of the user. -/
  averageAmount : Float := 0
  secondsSinceLast : Int := 0
  currency : Option String := none
  country : Option String := none
  deriving Repr

namespace MobileMoneyContext

/-- The fields in the order of their declaration. -/
def fieldNames : List String :=
  ["is_new_device", "is_foreign_location", "velocity_txn_count_1h", "avg_txn_amt_for_user",
   "time_since_last_txn_seconds", "currency", "country"]

/-- Reads what the client knows around a mobile money transfer. -/
def decode (j : Json) : Except DecodeError MobileMoneyContext :=
  j.record fieldNames fun get => do
    let isNewDevice ← Json.withDefault false Json.asBool (get "is_new_device")
    let isForeignLocation ← Json.withDefault false Json.asBool (get "is_foreign_location")
    let hourlyCount ← Json.withDefault 0 (Json.asInt 64) (get "velocity_txn_count_1h")
    let averageAmount ← Json.withDefault 0 Json.asFloat (get "avg_txn_amt_for_user")
    let secondsSinceLast ← Json.withDefault 0 (Json.asInt 64) (get "time_since_last_txn_seconds")
    let currency ← Json.optional Json.asText (get "currency")
    let country ← Json.optional Json.asText (get "country")
    return ⟨isNewDevice, isForeignLocation, hourlyCount, averageAmount, secondsSinceLast,
      currency, country⟩

/-- Writes what the client knows around a mobile money transfer. -/
def toJson (r : MobileMoneyContext) : Json :=
  .ofMembers [
    ("is_new_device", Json.bool r.isNewDevice),
    ("is_foreign_location", Json.bool r.isForeignLocation),
    ("velocity_txn_count_1h", Json.int r.hourlyCount),
    ("avg_txn_amt_for_user", Json.ofFloat r.averageAmount),
    ("time_since_last_txn_seconds", Json.int r.secondsSinceLast),
    ("currency", Json.ofText? r.currency),
    ("country", Json.ofText? r.country)]

/-- What rules see of it. -/
def view (r : MobileMoneyContext) : View :=
  .mk "MobileMoneyClientContext" [
    ("isNewDevice", Slot.flag r.isNewDevice),
    ("isForeignLocation", Slot.flag r.isForeignLocation),
    ("getVelocityTxnCount1h", Slot.count r.hourlyCount),
    ("getAvgTxnAmtForUser", Slot.number r.averageAmount),
    ("getTimeSinceLastTxnSeconds", Slot.count r.secondsSinceLast),
    ("getCurrency", Slot.text r.currency),
    ("getCountry", Slot.text r.country)]

end MobileMoneyContext

/-- A mobile money transfer. -/
structure MobileMoneyTransaction where
  userId : Option String := none
  recipientId : Option String := none
  amount : Float := 0
  transactionType : Option String := none
  /-- Date and time, as in 2025-03-26 12:00:00. -/
  timestamp : Option String := none
  balanceBefore : Float := 0
  clientContext : Option MobileMoneyContext := none
  deriving Repr

namespace MobileMoneyTransaction

/-- The fields in the order of their declaration. -/
def fieldNames : List String :=
  ["userId", "recipientId", "transactionAmount", "transactionType", "timestamp",
   "balanceBefore", "clientContext"]

/-- Reads a mobile money transfer. -/
def decode (j : Json) : Except DecodeError MobileMoneyTransaction :=
  j.record fieldNames fun get => do
    let userId ← Json.optional Json.asText (get "userId")
    let recipientId ← Json.optional Json.asText (get "recipientId")
    let amount ← Json.withDefault 0 Json.asFloat (get "transactionAmount")
    let transactionType ← Json.optional Json.asText (get "transactionType")
    let timestamp ← Json.optional Json.asText (get "timestamp")
    let balanceBefore ← Json.withDefault 0 Json.asFloat (get "balanceBefore")
    let clientContext ← Json.optional MobileMoneyContext.decode (get "clientContext")
    return ⟨userId, recipientId, amount, transactionType, timestamp, balanceBefore,
      clientContext⟩

/-- Writes a mobile money transfer. -/
def toJson (r : MobileMoneyTransaction) : Json :=
  .ofMembers [
    ("userId", Json.ofText? r.userId),
    ("recipientId", Json.ofText? r.recipientId),
    ("transactionAmount", Json.ofFloat r.amount),
    ("transactionType", Json.ofText? r.transactionType),
    ("timestamp", Json.ofText? r.timestamp),
    ("balanceBefore", Json.ofFloat r.balanceBefore),
    ("clientContext", match r.clientContext with
      | none => .null
      | some c => c.toJson)]

/-- What rules see of it. -/
def view (r : MobileMoneyTransaction) : View :=
  .mk "MobileMoneyTransaction" [
    ("getUserId", Slot.text r.userId),
    ("getRecipientId", Slot.text r.recipientId),
    ("getTransactionAmount", Slot.number r.amount),
    ("getTransactionType", Slot.text r.transactionType),
    ("getTimestamp", Slot.text r.timestamp),
    ("getBalanceBefore", Slot.number r.balanceBefore),
    ("getClientContext", Slot.child (r.clientContext.map MobileMoneyContext.view))]

end MobileMoneyTransaction

end RiskDecision
