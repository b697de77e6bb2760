/-!
# Lenient reading of UTF-8

Every sequence of bytes is read as a text. A byte that cannot continue the character before it
begins anew, and what was begun without being finished, as well as a byte that begins nothing, is
replaced by one U+FFFD. The main statement, `decodeFrom_ascii`, is that bytes of one character each
are read one by one, whatever follows them.
-/

namespace RiskDecision.Text.Utf8

/-- The character in place of bytes that are none. -/
def replacement : Char := '\uFFFD'

/-- A character whose first bytes were read. -/
structure Begun where
  /-- The bits of its code so far. -/
  bits : Nat
  /-- The number of bytes that are still missing. -/
  missing : Nat
  /-- The least byte that may come next. -/
  low : Nat
  /-- The greatest byte that may come next. -/
  high : Nat

/-- What a first byte of 2, 3 or 4 begins. -/
def begin? (b : Nat) : Option Begun :=
  if b < 0xC2 then none
  else if b ≤ 0xDF then some ⟨b - 0xC0, 1, 0x80, 0xBF⟩
  else if b = 0xE0 then some ⟨0, 2, 0xA0, 0xBF⟩
  else if b = 0xED then some ⟨0xD, 2, 0x80, 0x9F⟩
  else if b ≤ 0xEF then some ⟨b - 0xE0, 2, 0x80, 0xBF⟩
  else if b = 0xF0 then some ⟨0, 3, 0x90, 0xBF⟩
  else if b ≤ 0xF3 then some ⟨b - 0xF0, 3, 0x80, 0xBF⟩
  else if b = 0xF4 then some ⟨4, 3, 0x80, 0x8F⟩
  else none

/-- Reads a byte between characters. -/
def readFirst (b : Nat) : List Char × Option Begun :=
  if b < 0x80 then ([Char.ofNat b], none)
  else
    match begin? b with
    | some begun => ([], some begun)
    | none => ([replacement], none)

/-- Reads a byte within a character. -/
def readNext (begun : Begun) (b : Nat) : List Char × Option Begun :=
  if begun.low ≤ b && b ≤ begun.high then
    let bits := 64 * begun.bits + (b - 0x80)
    if begun.missing ≤ 1 then ([Char.ofNat bits], none)
    else ([], some ⟨bits, begun.missing - 1, 0x80, 0xBF⟩)
  else
    let (cs, begun) := readFirst b
    (replacement :: cs, begun)

/-- Reads a byte. -/
def readByte : Option Begun → Nat → List Char × Option Begun
  | none, b => readFirst b
  | some begun, b => readNext begun b

/-- The characters of bytes, after those of a character that was begun. -/
def decodeFrom (begun : Option Begun) : List UInt8 → List Char
  | [] => if begun.isSome then [replacement] else []
  | b :: bs =>
    let (cs, begun) := readByte begun b.toNat
    cs ++ decodeFrom begun bs

/-- The bytes without a mark of their encoding at the front. -/
def withoutMark : List UInt8 → List UInt8
  | 0xEF :: 0xBB :: 0xBF :: bs => bs
  | bs => bs

/-- The text of bytes, without a mark of their encoding at the front. -/
def decode (bytes : List UInt8) : String := String.ofList (decodeFrom none (withoutMark bytes))

theorem decodeFrom_ascii (bs rest : List UInt8) (h : ∀ b ∈ bs, b.toNat < 0x80) :
    decodeFrom none (bs ++ rest) =
      bs.map (fun b => Char.ofNat b.toNat) ++ decodeFrom none rest := by
  induction bs with
  | nil => rfl
  | cons b bs ih =>
    have hb : b.toNat < 0x80 := h b List.mem_cons_self
    have step : readByte none b.toNat = ([Char.ofNat b.toNat], none) := by
      simp [readByte, readFirst, hb]
    simp only [List.cons_append, decodeFrom, step, List.map_cons, List.nil_append]
    rw [ih fun x hx => h x (List.mem_cons_of_mem b hx)]

end RiskDecision.Text.Utf8
