import RiskDecision.Json.Written
import RiskDecision.Text.Digits

/-!
# Tokens of a JSON text

The text is cut into tokens by one pass that looks at every character once. Between tokens stand
spaces, tabs, line feeds and carriage returns only; a word or number ends where such a blank or a
punctuation mark begins.
-/

namespace RiskDecision.Json

/-- A token of a JSON text. -/
inductive Token
  | openArray
  | closeArray
  | openObject
  | closeObject
  | comma
  | colon
  | null
  | bool (b : Bool)
  | number (n : Numeral)
  | text (s : Quoted)

/-- A quoted text in the course of reading. -/
structure OpenText where
  /-- The characters so far, the last one first. -/
  chars : List Char
  /-- The first half of a surrogate pair that waits for the second half. -/
  half : Option Nat
  /-- No half of a pair stood alone so far. -/
  paired : Bool

namespace OpenText

/-- A text of which nothing is read yet. -/
def empty : OpenText := ⟨[], none, true⟩

/-- Takes a character that is written as itself or by a short escape. -/
def push (t : OpenText) (c : Char) : OpenText :=
  ⟨c :: t.chars, none, t.paired && t.half.isNone⟩

/-- Takes the code unit of a four-digit escape. -/
def pushUnit (t : OpenText) (unit : Nat) : OpenText :=
  if 0xD800 ≤ unit && unit ≤ 0xDBFF then
    ⟨t.chars, some unit, t.paired && t.half.isNone⟩
  else if 0xDC00 ≤ unit && unit ≤ 0xDFFF then
    match t.half with
    | some high =>
      ⟨Char.ofNat (0x10000 + (high - 0xD800) * 0x400 + (unit - 0xDC00)) :: t.chars, none, t.paired⟩
    | none => ⟨t.chars, none, false⟩
  else t.push (Char.ofNat unit)

/-- The text at its closing quote. -/
def close (t : OpenText) : Quoted :=
  if t.paired && t.half.isNone then some (String.ofList t.chars.reverse) else none

end OpenText

/-- Where in a token the next character stands. -/
inductive Mode
  | between
  | bare (chars : List Char)
  | quoted (t : OpenText)
  | escape (t : OpenText)
  | code (t : OpenText) (count : Nat) (unit : Nat)

/-- The tokens so far, the last one first, and the mode. -/
structure Lexer where
  tokens : List Token
  mode : Mode

namespace Lexer

/-- Before the first character. -/
def start : Lexer := ⟨[], .between⟩

/-- The token that a word or number makes. -/
def bareToken (chars : List Char) : Except Flaw Token :=
  match String.ofList chars with
  | "null" => .ok .null
  | "true" => .ok (.bool true)
  | "false" => .ok (.bool false)
  | word =>
    match Numeral.ofChars? chars with
    | some n => .ok (.number n)
    | none => .error (.strayWord word)

/-- Ends the word or number that is being read, if any. -/
def settle (l : Lexer) : Except Flaw Lexer :=
  match l.mode with
  | .bare chars => return ⟨(← bareToken chars.reverse) :: l.tokens, .between⟩
  | _ => .ok l

/-- The token of a punctuation mark. -/
def mark? : Char → Option Token
  | '[' => some .openArray
  | ']' => some .closeArray
  | '{' => some .openObject
  | '}' => some .closeObject
  | ',' => some .comma
  | ':' => some .colon
  | _ => none

/-- The characters that may stand between tokens. -/
def isGap (c : Char) : Bool := c == ' ' || c == '\t' || c == '\n' || c == '\r'

/-- The character of a short escape. -/
def shortEscape? : Char → Option Char
  | '"' => some '"'
  | '\\' => some '\\'
  | '/' => some '/'
  | 'b' => some '\x08'
  | 'f' => some '\x0c'
  | 'n' => some '\n'
  | 'r' => some '\r'
  | 't' => some '\t'
  | _ => none

/-- Takes a character outside of quoted texts. -/
def stepPlain (l : Lexer) (c : Char) : Except Flaw Lexer :=
  match mark? c with
  | some mark => do
    let l ← l.settle
    return ⟨mark :: l.tokens, .between⟩
  | none =>
    if isGap c then l.settle
    else if c = '"' then do
      let l ← l.settle
      return ⟨l.tokens, .quoted .empty⟩
    else
      match l.mode with
      | .bare chars => .ok ⟨l.tokens, .bare (c :: chars)⟩
      | _ => .ok ⟨l.tokens, .bare [c]⟩

/-- Takes one character. -/
def step (l : Lexer) (c : Char) : Except Flaw Lexer :=
  match l.mode with
  | .between | .bare _ => l.stepPlain c
  | .quoted t =>
    if c = '"' then .ok ⟨.text t.close :: l.tokens, .between⟩
    else if c = '\\' then .ok ⟨l.tokens, .escape t⟩
    else if c.toNat < 0x20 then .error (.strayCharacter c)
    else .ok ⟨l.tokens, .quoted (t.push c)⟩
  | .escape t =>
    if c = 'u' then .ok ⟨l.tokens, .code t 0 0⟩
    else
      match shortEscape? c with
      | some d => .ok ⟨l.tokens, .quoted (t.push d)⟩
      | none => .error .badEscape
  | .code t count unit =>
    match Text.hexValue? c with
    | none => .error .badEscape
    | some digit =>
      if count = 3 then .ok ⟨l.tokens, .quoted (t.pushUnit (16 * unit + digit))⟩
      else .ok ⟨l.tokens, .code t (count + 1) (16 * unit + digit)⟩

end Lexer

/-- The tokens of a text. -/
def tokens (s : String) : Except Flaw (List Token) := do
  let l ← s.toList.foldlM Lexer.step Lexer.start
  let l ← l.settle
  match l.mode with
  | .between => return l.tokens.reverse
  | _ => throw .openText

end RiskDecision.Json
