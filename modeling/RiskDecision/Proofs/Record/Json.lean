import RiskDecision.Proofs.Decoding.Fields
import RiskDecision.Record.Transaction

/-!
# Records survive being written

A record is written with every field, each under its declared name. If its numbers can be written,
that is, if the doubles are finite and the integers have 64 bits, then reading what was written
gives the record back (`Transaction.decode_toJson`). The integers of a record that is held in memory
always have 64 bits; a double may be infinite or no number, and is then lost.
-/

namespace RiskDecision

/-! ## Client contexts -/

namespace BankContext

/-- The doubles in the context. -/
def floats (c : BankContext) : List Float := [c.balanceBefore, c.averageAmount]

/-- The integers in the context. -/
def integers (c : BankContext) : List Int :=
  [c.hourlyCount, c.secondsSinceLast, c.accountAgeDays, c.hourOfDay]

theorem decode_toJson {c : BankContext} (floats : ∀ x ∈ c.floats, x.isFinite = true)
    (integers : ∀ n ∈ c.integers, Decimal.fitsSigned 64 n = true) : decode c.toJson = .ok c := by
  simp only [BankContext.floats, BankContext.integers, List.forall_mem_cons] at floats integers
  have distinct : fieldNames.Nodup := by decide
  refine (Json.record_ofMembers (by rfl) distinct _).trans ?_
  simp only [Dictionary.find?_cons, String.reduceEq, reduceIte, Json.withDefault_ofFloat,
    Json.withDefault_int, Json.withDefault_bool, floats, integers]
  rfl

end BankContext

namespace MobileMoneyContext

/-- The doubles in the context. -/
def floats (c : MobileMoneyContext) : List Float := [c.averageAmount]

/-- The integers in the context. -/
def integers (c : MobileMoneyContext) : List Int := [c.hourlyCount, c.secondsSinceLast]

theorem decode_toJson {c : MobileMoneyContext} (floats : ∀ x ∈ c.floats, x.isFinite = true)
    (integers : ∀ n ∈ c.integers, Decimal.fitsSigned 64 n = true) : decode c.toJson = .ok c := by
  simp only [MobileMoneyContext.floats, MobileMoneyContext.integers, List.forall_mem_cons]
    at floats integers
  have distinct : fieldNames.Nodup := by decide
  refine (Json.record_ofMembers (by rfl) distinct _).trans ?_
  simp only [Dictionary.find?_cons, String.reduceEq, reduceIte, Json.withDefault_ofFloat,
    Json.withDefault_int, Json.withDefault_bool, Json.optional_ofText?, floats, integers]
  rfl

end MobileMoneyContext

namespace OrderContext

/-- The doubles in the context. -/
def floats (c : OrderContext) : List Float := [c.secondsSinceLast, c.averageAmount]

theorem decode_toJson {c : OrderContext} (floats : ∀ x ∈ c.floats, x.isFinite = true) :
    decode c.toJson = .ok c := by
  simp only [OrderContext.floats, List.forall_mem_cons] at floats
  have distinct : fieldNames.Nodup := by decide
  refine (Json.record_ofMembers (by rfl) distinct _).trans ?_
  simp only [Dictionary.find?_cons, String.reduceEq, reduceIte, Json.withDefault_ofFloat, floats]
  rfl

end OrderContext

/-! ## Records with their contexts -/

namespace BankTransaction

/-- The doubles in the record. -/
def floats (r : BankTransaction) : List Float :=
  r.amount :: r.clientContext.toList.flatMap BankContext.floats

/-- The integers in the record. -/
def integers (r : BankTransaction) : List Int :=
  r.clientContext.toList.flatMap BankContext.integers

theorem decode_toJson {r : BankTransaction} (floats : ∀ x ∈ r.floats, x.isFinite = true)
    (integers : ∀ n ∈ r.integers, Decimal.fitsSigned 64 n = true) : decode r.toJson = .ok r := by
  simp only [BankTransaction.floats, BankTransaction.integers, List.forall_mem_cons,
    List.forall_mem_flatMap, Option.mem_toList] at floats integers
  have written : ∀ c, r.clientContext = some c →
      Json.optional BankContext.decode (some c.toJson) = .ok (some c) := fun c hc =>
    Json.optional_ofMembers (BankContext.decode_toJson (floats.2 c hc) (integers c hc))
  have distinct : fieldNames.Nodup := by decide
  obtain ⟨_, _, _, _, _, context⟩ := r
  refine (Json.record_ofMembers (by rfl) distinct _).trans ?_
  simp only [Dictionary.find?_cons, String.reduceEq, reduceIte, Json.withDefault_ofFloat,
    Json.optional_ofText?, floats]
  cases context with
  | none => rfl
  | some c =>
      rw [written c rfl]
      rfl

end BankTransaction

namespace MobileMoneyTransaction

/-- The doubles in the record. -/
def floats (r : MobileMoneyTransaction) : List Float :=
  r.amount :: r.balanceBefore :: r.clientContext.toList.flatMap MobileMoneyContext.floats

/-- The integers in the record. -/
def integers (r : MobileMoneyTransaction) : List Int :=
  r.clientContext.toList.flatMap MobileMoneyContext.integers

theorem decode_toJson {r : MobileMoneyTransaction} (floats : ∀ x ∈ r.floats, x.isFinite = true)
    (integers : ∀ n ∈ r.integers, Decimal.fitsSigned 64 n = true) : decode r.toJson = .ok r := by
  simp only [MobileMoneyTransaction.floats, MobileMoneyTransaction.integers, List.forall_mem_cons,
    List.forall_mem_flatMap, Option.mem_toList] at floats integers
  have written : ∀ c, r.clientContext = some c →
      Json.optional MobileMoneyContext.decode (some c.toJson) = .ok (some c) := fun c hc =>
    Json.optional_ofMembers (MobileMoneyContext.decode_toJson (floats.2.2 c hc) (integers c hc))
  have distinct : fieldNames.Nodup := by decide
  obtain ⟨_, _, _, _, _, _, context⟩ := r
  refine (Json.record_ofMembers (by rfl) distinct _).trans ?_
  simp only [Dictionary.find?_cons, String.reduceEq, reduceIte, Json.withDefault_ofFloat,
    Json.optional_ofText?, floats]
  cases context with
  | none => rfl
  | some c =>
      rw [written c rfl]
      rfl

end MobileMoneyTransaction

namespace OrderTransaction

/-- The doubles in the record. -/
def floats (r : OrderTransaction) : List Float :=
  r.amount :: r.clientContext.toList.flatMap OrderContext.floats

/-- The integers in the record. -/
def integers (r : OrderTransaction) : List Int := [r.itemCount, r.accountAgeDays]

theorem decode_toJson {r : OrderTransaction} (floats : ∀ x ∈ r.floats, x.isFinite = true)
    (integers : ∀ n ∈ r.integers, Decimal.fitsSigned 64 n = true) : decode r.toJson = .ok r := by
  simp only [OrderTransaction.floats, OrderTransaction.integers, List.forall_mem_cons,
    List.forall_mem_flatMap, Option.mem_toList] at floats integers
  have written : ∀ c, r.clientContext = some c →
      Json.optional OrderContext.decode (some c.toJson) = .ok (some c) := fun c hc =>
    Json.optional_ofMembers (OrderContext.decode_toJson (floats.2 c hc))
  have distinct : fieldNames.Nodup := by decide
  obtain ⟨_, _, _, _, _, _, _, _, _, _, _, _, context⟩ := r
  refine (Json.record_ofMembers (by rfl) distinct _).trans ?_
  simp only [Dictionary.find?_cons, String.reduceEq, reduceIte, Json.withDefault_ofFloat,
    Json.withDefault_int, Json.withDefault_bool, Json.optional_ofText?, floats, integers]
  cases context with
  | none => rfl
  | some c =>
      rw [written c rfl]
      rfl

end OrderTransaction

/-! ## Records of any domain -/

namespace Transaction

/-- The doubles in the record. -/
def floats : Transaction → List Float
  | .bank r => r.floats
  | .order r => r.floats
  | .mobileMoney r => r.floats

/-- The integers in the record. -/
def integers : Transaction → List Int
  | .bank r => r.integers
  | .order r => r.integers
  | .mobileMoney r => r.integers

/-- **ROUND TRIP.** A record whose numbers can be written is read back as it was. -/
theorem decode_toJson {t : Transaction} (floats : ∀ x ∈ t.floats, x.isFinite = true)
    (integers : ∀ n ∈ t.integers, Decimal.fitsSigned 64 n = true) :
    decode t.domain t.toJson = .ok t := by
  cases t with
  | bank r =>
      have hr : BankTransaction.decode r.toJson = .ok r :=
        BankTransaction.decode_toJson floats integers
      simp only [domain, toJson, decode, hr, Except.map]
  | order r =>
      have hr : OrderTransaction.decode r.toJson = .ok r :=
        OrderTransaction.decode_toJson floats integers
      simp only [domain, toJson, decode, hr, Except.map]
  | mobileMoney r =>
      have hr : MobileMoneyTransaction.decode r.toJson = .ok r :=
        MobileMoneyTransaction.decode_toJson floats integers
      simp only [domain, toJson, decode, hr, Except.map]

end Transaction

end RiskDecision
