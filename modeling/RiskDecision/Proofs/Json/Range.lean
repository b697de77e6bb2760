import RiskDecision.Json.Parser
import RiskDecision.Proofs.Decimal.Reader
import RiskDecision.Proofs.Decoding.Success
import RiskDecision.Proofs.Dictionary.Keys

/-!
# The numbers of JSON values

An integer is kept if it fits into 64 bits, with a sign or without; every other number is a finite
double. `inRange` says so of every number in a value, and every value that a text denotes is in
range: a number that is neither is refused when it is read.
-/

namespace RiskDecision.Json

/-- The integer fits into 64 bits, with a sign or without. -/
def fitsWord (n : Int) : Bool :=
  Decimal.fitsSigned 64 n || (0 ≤ n && Decimal.fitsNatural 64 n.toNat)

mutual

/-- Every number in the value is an integer of 64 bits or a finite double. -/
def inRange : Json → Bool
  | .int n => fitsWord n
  | .float x => x.isFinite
  | .array items => itemsInRange items
  | .object members => membersInRange members
  | _ => true

/-- Every item is in range. -/
def itemsInRange : List Json → Bool
  | [] => true
  | item :: rest => item.inRange && itemsInRange rest

/-- The value of every member is in range. -/
def membersInRange : List (String × Json) → Bool
  | [] => true
  | (_, member) :: rest => member.inRange && membersInRange rest

end

theorem itemsInRange_iff {items : List Json} :
    itemsInRange items = true ↔ ∀ item ∈ items, item.inRange = true := by
  induction items with
  | nil => simp [itemsInRange]
  | cons item rest ih => rw [itemsInRange, Bool.and_eq_true, ih, List.forall_mem_cons]

theorem membersInRange_iff {members : List (String × Json)} :
    membersInRange members = true ↔ ∀ e ∈ members, e.2.inRange = true := by
  induction members with
  | nil => simp [membersInRange]
  | cons e rest ih =>
      obtain ⟨key, member⟩ := e
      rw [membersInRange, Bool.and_eq_true, ih, List.forall_mem_cons]

/-- An integer of 64 bits lies between the powers of two. -/
theorem bounds_of_fitsWord {n : Int} (h : fitsWord n = true) : -2 ^ 64 < n ∧ n < 2 ^ 64 := by
  rw [fitsWord, Bool.or_eq_true, Bool.and_eq_true] at h
  cases n with
  | ofNat n =>
      rw [Int.ofNat_eq_natCast] at h ⊢
      rcases h with hsigned | ⟨-, hnatural⟩
      · have hn : n < 2 ^ 63 := of_decide_eq_true hsigned
        exact ⟨by omega, by omega⟩
      · have hn : n < 2 ^ 64 := of_decide_eq_true hnatural
        exact ⟨by omega, by omega⟩
  | negSucc n =>
      rcases h with hsigned | ⟨hneg, -⟩
      · have hn : n < 2 ^ 63 := of_decide_eq_true hsigned
        exact ⟨by omega, by omega⟩
      · exact absurd (of_decide_eq_true hneg) (by omega)

/-- An integer of 64 bits becomes a finite double. -/
theorem isFinite_ofInt_of_fitsWord {n : Int} (h : fitsWord n = true) :
    (Float.ofInt n).isFinite = true :=
  Decimal.isFinite_ofInt (bounds_of_fitsWord h)

/-! ## Reading -/

/-- A number that is read as a double is read as a finite one. -/
theorem Numeral.inRange_toFloat {n : Numeral} {j : Json} (h : n.toFloat = .ok j) :
    j.inRange = true := by
  rw [Numeral.toFloat] at h
  split at h
  · exact nomatch h
  · next hinf =>
      cases h
      have hfinite := Decimal.Written.isFinite_magnitude (Bool.not_eq_true _ ▸ hinf)
      rw [inRange]
      -- the sign is put on last
      split
      · exact Decimal.isFinite_neg hfinite
      · exact hfinite

theorem Numeral.inRange_value {n : Numeral} {j : Json} (h : n.value = .ok j) :
    j.inRange = true := by
  rw [Numeral.value] at h
  split at h
  · exact inRange_toFloat h
  · split at h
    · split at h
      · next hfits =>
          cases h
          rw [Bool.and_eq_true] at hfits
          rw [inRange, fitsWord, hfits.2, Bool.true_or]
      · exact inRange_toFloat h
    · split at h
      · next hfits =>
          cases h
          rw [inRange, fitsWord, Int.toNat_natCast, hfits, decide_eq_true (Int.natCast_nonneg _),
            Bool.and_self, Bool.or_true]
      · exact inRange_toFloat h

mutual

/-- A written value that is meant to be something is in range. -/
theorem Written.inRange_valueWithin :
    ∀ (w : Written) (depth : Nat) (j : Json), w.valueWithin depth = .ok j → j.inRange = true
  | .null, depth, j, h => by
      cases h
      rfl
  | .bool b, depth, j, h => by
      cases h
      rfl
  | .number n, depth, j, h => Numeral.inRange_value h
  | .text s, depth, j, h => by
      rw [Written.valueWithin] at h
      obtain ⟨text, -, hj⟩ := bind_eq_ok_iff.mp h
      cases hj
      rfl
  | .array items, 0, j, h => nomatch h
  | .array items, depth + 1, j, h => by
      rw [Written.valueWithin] at h
      obtain ⟨js, hjs, hj⟩ := bind_eq_ok_iff.mp h
      cases hj
      exact Written.inRange_itemsWithin items depth js hjs
  | .object members, 0, j, h => nomatch h
  | .object members, depth + 1, j, h => by
      rw [Written.valueWithin] at h
      obtain ⟨es, hes, hj⟩ := bind_eq_ok_iff.mp h
      cases hj
      have hrange := Written.inRange_membersWithin members depth es hes
      rw [membersInRange_iff] at hrange
      rw [ofMembers, inRange, membersInRange_iff]
      intro e he
      exact hrange e (Dictionary.mem_of_mem_ofList he)

theorem Written.inRange_itemsWithin :
    ∀ (items : List Written) (depth : Nat) (js : List Json),
      Written.itemsWithin depth items = .ok js → itemsInRange js = true
  | [], depth, js, h => by
      cases h
      rfl
  | item :: rest, depth, js, h => by
      rw [Written.itemsWithin] at h
      obtain ⟨j, hj, h⟩ := bind_eq_ok_iff.mp h
      obtain ⟨js', hjs, h⟩ := bind_eq_ok_iff.mp h
      cases h
      rw [itemsInRange, Written.inRange_valueWithin item depth j hj,
        Written.inRange_itemsWithin rest depth js' hjs]
      rfl

theorem Written.inRange_membersWithin :
    ∀ (members : List (Quoted × Written)) (depth : Nat) (es : List (String × Json)),
      Written.membersWithin depth members = .ok es → membersInRange es = true
  | [], depth, es, h => by
      cases h
      rfl
  | (key, member) :: rest, depth, es, h => by
      rw [Written.membersWithin] at h
      obtain ⟨name, -, h⟩ := bind_eq_ok_iff.mp h
      obtain ⟨j, hj, h⟩ := bind_eq_ok_iff.mp h
      obtain ⟨es', hes, h⟩ := bind_eq_ok_iff.mp h
      cases h
      rw [membersInRange, Written.inRange_valueWithin member depth j hj,
        Written.inRange_membersWithin rest depth es' hes]
      rfl

end

/-- **READING.** A value that a text denotes is in range. -/
theorem inRange_of_ofText {text : String} {j : Json} (h : ofText text = .ok j) :
    j.inRange = true := by
  rw [ofText] at h
  obtain ⟨w, -, hw⟩ := bind_eq_ok_iff.mp h
  exact Written.inRange_valueWithin w maxDepth j hw

end RiskDecision.Json
