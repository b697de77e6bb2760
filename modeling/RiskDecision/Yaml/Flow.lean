import RiskDecision.Yaml.Text

/-!
# Nodes of YAML within brackets

Lists and tables may stand in brackets, with commas between their items, and then go on in any
number of lines. In front of any node may stand a name by which it can be repeated, and a tag.
-/

namespace RiskDecision.Yaml

/-- What stands in front of a node. -/
structure Properties where
  name : Option String
  tag : Option String

namespace Properties

/-- There is something in front of the node. -/
def any (p : Properties) : Bool := p.name.isSome || p.tag.isSome

/-- The node with its properties; from now on it can be repeated by its name. -/
def give (p : Properties) (node : Node) : Move Node := do
  let node := p.tag.elim node fun tag => node.tagged tag
  if let some name := p.name then
    modify fun c => { c with named := (name, node) :: c.named }
  return node

end Properties

/-- A character of a name or tag. -/
def isWordChar (c : Char) : Bool := !isSpace c && c != '\n' && !isFlowMark c

/-- A name behind the mark of its kind. -/
def scanName : Move String := do
  skip 1
  let name := (← ahead).takeWhile isWordChar
  ensure !name.isEmpty
  skip name.length
  return String.ofList name

/-- The beginning of the standard tags in their long form. -/
def standardTag : String := "tag:yaml.org,2002:"

/-- A tag, short or in angle brackets. -/
def scanTag : Move String := do
  match ← ahead with
  | '!' :: '<' :: cs => do
    let tag := cs.takeWhile fun c => c != '>' && c != '\n'
    ensure (tag.length < cs.length && cs[tag.length]? == some '>')
    skip (tag.length + 3)
    let tag := String.ofList tag
    return ((Text.after? standardTag tag).map ("!!" ++ ·)).getD tag
  | cs => do
    let tag := cs.takeWhile isWordChar
    skip tag.length
    return String.ofList tag

/-- Properties in either order, with the blanks behind them. -/
def scanProperties (p : Properties) : Nat → Move Properties
  | 0 => return p
  | fuel + 1 => do
    match (← ahead).head?, p.name, p.tag with
    | some '&', none, _ => do
      let name ← scanName
      ensure (endsWord (← ahead) || (← ahead).head?.any isFlowMark)
      skipSpaces
      scanProperties { p with name := some name } fuel
    | some '!', _, none => do
      let tag ← scanTag
      ensure (endsWord (← ahead) || (← ahead).head?.any isFlowMark)
      skipSpaces
      scanProperties { p with tag := some tag } fuel
    | _, _, _ => return p

/-- The properties at the cursor. -/
def properties : Move Properties := scanProperties ⟨none, none⟩ 2

/-- The node that is repeated by its name. -/
def scanRepeated : Move Node := do
  let name ← scanName
  ((← get).named.lookup name).elim failure pure

/-- Moves to the next token within brackets. No line may be indented less than the block around. -/
def flowGap (least : Nat) : Move Unit := do
  if ← nextToken true then ensure (least ≤ (← get).column)

/-- The cursor is at the colon of a value. Behind a quoted key it needs no blank. -/
def atFlowValue (quoted : Bool) : Move Bool := do
  match ← ahead with
  | ':' :: cs => return quoted || endsWord cs || cs.head?.any isFlowMark
  | _ => return false

/-- The configured value of a node that has one. -/
def settingOf (node : Node) : Move Setting := node.setting?.elim failure pure

/-- The scalar of a node that is one. -/
def scalarOf (node : Node) : Move Scalar := node.scalar?.elim failure pure

/-- The table of entries. -/
def tableOf (entries : List (Scalar × Setting)) : Move Node :=
  (Node.ofEntries? entries).elim failure pure

mutual

/-- A node within brackets. -/
def flowNode (least : Nat) : Nat → Move Node
  | 0 => failure
  | fuel + 1 => do
    let p ← properties
    if p.any then flowGap least
    match ← ahead with
    | '*' :: _ => do
      ensure !p.any
      scanRepeated
    | '[' :: _ => do
      skip 1
      flowGap least
      p.give (.list (← flowItems least fuel))
    | '\x7b' :: _ => do
      skip 1
      flowGap least
      p.give (← tableOf (← flowEntries least fuel))
    | '"' :: _ | '\'' :: _ => do p.give (.scalar (.text (← scanQuoted least)))
    | cs => do
      if p.any && !beginsPlain true cs then p.give (.plain "")
      else p.give (.plain (← scanPlain true least))

/-- The value behind a colon within brackets; it may be missing. -/
def flowValue (least : Nat) : Nat → Move Setting
  | 0 => failure
  | fuel + 1 => do
    skip 1
    flowGap least
    match (← ahead).head? with
    | some ',' | some ']' | some '\x7d' => return .null
    | _ => do settingOf (← flowNode least fuel)

/-- The items of a list up to its closing bracket. A key with a value is a table of its own. -/
def flowItems (least : Nat) : Nat → Move (List Setting)
  | 0 => failure
  | fuel + 1 => do
    let here ← get
    if here.rest.head? == some ']' then
      skip 1
      return []
    let quoted := here.rest.head?.any fun c => c == '"' || c == '\''
    let node ← flowNode least fuel
    flowGap least
    let item ← if ← atFlowValue quoted then do
        ensure ((← get).line = here.line)
        settingOf (← tableOf [(← scalarOf node, ← flowValue least fuel)])
      else settingOf node
    flowGap least
    match (← ahead).head? with
    | some ',' => do
      skip 1
      flowGap least
      return item :: (← flowItems least fuel)
    | some ']' => do
      skip 1
      return [item]
    | _ => failure

/-- The entries of a table up to its closing brace. -/
def flowEntries (least : Nat) : Nat → Move (List (Scalar × Setting))
  | 0 => failure
  | fuel + 1 => do
    let here ← get
    if here.rest.head? == some '\x7d' then
      skip 1
      return []
    if here.atLone '?' then
      skip 1
      flowGap least
    let quoted := (← ahead).head?.any fun c => c == '"' || c == '\''
    let key ← scalarOf (← flowNode least fuel)
    flowGap least
    let value ← if ← atFlowValue quoted then flowValue least fuel else pure .null
    flowGap least
    match (← ahead).head? with
    | some ',' => do
      skip 1
      flowGap least
      return (key, value) :: (← flowEntries least fuel)
    | some '\x7d' => do
      skip 1
      return [(key, value)]
    | _ => failure

end

end RiskDecision.Yaml
