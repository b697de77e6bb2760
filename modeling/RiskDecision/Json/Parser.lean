import RiskDecision.Json.Lexer

/-!
# Reading a JSON text

The tokens are taken one by one. Containers that are not closed yet wait on a stack, so that a text
can be nested to any depth; how deep a value may be is decided when its value is taken.
-/

namespace RiskDecision.Json

/-- A container that is not closed yet; its contents come last one first. A member whose value is
being read stands above its object. -/
inductive Frame
  | array (items : List Written)
  | object (members : List (Quoted × Written))
  | member (key : Quoted)

/-- What the next token may be. -/
inductive Expectation
  | value
  | firstItem
  | firstKey
  | key
  | colon (key : Quoted)
  | more
  | nothing (result : Written)

/-- The open containers, innermost first, and what comes next. -/
structure Parser where
  stack : List Frame
  next : Expectation

namespace Parser

/-- Before the first token. -/
def start : Parser := ⟨[], .value⟩

/-- Puts a complete value where it belongs. -/
def complete (w : Written) : List Frame → Except Flaw Parser
  | [] => .ok ⟨[], .nothing w⟩
  | .array items :: stack => .ok ⟨.array (w :: items) :: stack, .more⟩
  | .member key :: .object members :: stack => .ok ⟨.object ((key, w) :: members) :: stack, .more⟩
  | _ => .error .misplaced

/-- Takes the first token of a value. -/
def beginValue (stack : List Frame) : Token → Except Flaw Parser
  | .null => complete .null stack
  | .bool b => complete (.bool b) stack
  | .number n => complete (.number n) stack
  | .text s => complete (.text s) stack
  | .openArray => .ok ⟨.array [] :: stack, .firstItem⟩
  | .openObject => .ok ⟨.object [] :: stack, .firstKey⟩
  | _ => .error .misplaced

/-- Closes the innermost container. -/
def close : List Frame → Token → Except Flaw Parser
  | .array items :: stack, .closeArray => complete (.array items.reverse) stack
  | .object members :: stack, .closeObject => complete (.object members.reverse) stack
  | _, _ => .error .misplaced

/-- Takes one token. -/
def step (p : Parser) (t : Token) : Except Flaw Parser :=
  match p.next, t with
  | .nothing _, _ => .error .misplaced
  | .value, t => beginValue p.stack t
  | .firstItem, .closeArray => close p.stack t
  | .firstItem, t => beginValue p.stack t
  | .firstKey, .closeObject => close p.stack t
  | .firstKey, .text key => .ok ⟨p.stack, .colon key⟩
  | .firstKey, _ => .error .misplaced
  | .key, .text key => .ok ⟨p.stack, .colon key⟩
  | .key, _ => .error .misplaced
  | .colon key, .colon => .ok ⟨.member key :: p.stack, .value⟩
  | .colon _, _ => .error .misplaced
  | .more, .comma =>
    match p.stack with
    | .object _ :: _ => .ok ⟨p.stack, .key⟩
    | _ => .ok ⟨p.stack, .value⟩
  | .more, t => close p.stack t

end Parser

/-- The written form of a text that holds one JSON value and nothing else. -/
def Written.ofText (s : String) : Except Flaw Written := do
  let p ← (← tokens s).foldlM Parser.step Parser.start
  match p.next with
  | .nothing w => return w
  | _ => throw .unfinished

/-- The JSON value that a text denotes. -/
def ofText (s : String) : Except Flaw Json := do (← Written.ofText s).value

end RiskDecision.Json
