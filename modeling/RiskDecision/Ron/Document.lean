import RiskDecision.Ron.Token
import RiskDecision.Text.Split

/-!
# Named records and maps

The format of files that is called RON: records in round brackets with their fields by name or by
position, lists in square brackets and maps in braces. A record may have a name in front; a name
alone, an empty pair of brackets and an absent option all stand for nothing.
-/

namespace RiskDecision.Ron

/-- The text that a key denotes. -/
def keyOf? : Setting → Option String
  | .text s => some s
  | _ => none

mutual

/-- A value, in which parts are nested and repeated at most `fuel` times. -/
def scanValue (fuel : Nat) (cs : List Char) : Option (Setting × List Char) :=
  match fuel, cs with
  | 0, _ => none
  | _, '"' :: cs => (scanText cs.length [] cs).map fun (s, rest) => (.text s, rest)
  | _, '\'' :: cs => (scanChar cs).map fun (s, rest) => (.text s, rest)
  | _, 'r' :: '"' :: cs => (scanRaw 0 [] cs).map fun (s, rest) => (.text s, rest)
  | _, 'r' :: '#' :: cs =>
    let signs := (cs.takeWhile (· == '#')).length
    match cs.drop signs with
    | '"' :: cs => (scanRaw (signs + 1) [] cs).map fun (s, rest) => (.text s, rest)
    | _ => none
  | fuel + 1, '[' :: cs => do
    let (items, rest) ← scanItems fuel ']' (← gap cs)
    return (.list items, rest)
  | fuel + 1, '\x7b' :: cs => do
    let (entries, rest) ← scanEntries fuel (← gap cs)
    return (.table (Dictionary.ofList entries), rest)
  | _, '(' :: ')' :: rest => some (.null, rest)
  | fuel + 1, '(' :: cs => scanRecord fuel cs
  | fuel + 1, cs =>
    match scanName cs with
    | none => scanNumber cs
    | some ("true", rest) => some (.bool true, rest)
    | some ("false", rest) => some (.bool false, rest)
    | some ("None", rest) => some (.null, rest)
    | some ("Some", rest) => do
      match ← gap rest with
      | '(' :: rest =>
        match ← scanItems fuel ')' (← gap rest) with
        | ([s], rest) => return (s, rest)
        | _ => none
      | _ => none
    | some (name, rest) => do
      match namedNumber? name, ← gap rest with
      | some x, _ => return (.float x, rest)
      | none, '(' :: rest => scanRecord fuel rest
      | none, _ => return (.null, rest)

/-- A record from behind its opening bracket: fields by name if a colon follows the first name. -/
def scanRecord (fuel : Nat) (cs : List Char) : Option (Setting × List Char) :=
  match fuel with
  | 0 => none
  | fuel + 1 => do
    let cs ← gap cs
    let named := ((scanName cs).bind fun (_, rest) => gap rest).any (·.head? == some ':')
    if named then
      let (fields, rest) ← scanFields fuel cs
      return (.table (Dictionary.ofList fields), rest)
    else
      let (items, rest) ← scanItems fuel ')' cs
      return (.list items, rest)

/-- Values up to a closing bracket. -/
def scanItems (fuel : Nat) (close : Char) (cs : List Char) :
    Option (List Setting × List Char) :=
  match fuel, cs with
  | 0, _ | _, [] => none
  | fuel + 1, c :: cs => do
    if c = close then return ([], cs)
    let (item, rest) ← scanValue fuel (c :: cs)
    match ← gap rest with
    | ',' :: rest =>
      let (items, rest) ← scanItems fuel close (← gap rest)
      return (item :: items, rest)
    | d :: rest => if d = close then return ([item], rest) else none
    | [] => none

/-- Keys with values up to a closing brace. -/
def scanEntries (fuel : Nat) (cs : List Char) : Option (List (String × Setting) × List Char) :=
  match fuel, cs with
  | _, '\x7d' :: rest => some ([], rest)
  | 0, _ => none
  | fuel + 1, cs => do
    let (key, rest) ← scanValue fuel cs
    match ← gap rest with
    | ':' :: rest =>
      let (value, rest) ← scanValue fuel (← gap rest)
      let entry := (← keyOf? key, value)
      match ← gap rest with
      | '\x7d' :: rest => return ([entry], rest)
      | ',' :: rest =>
        let (entries, rest) ← scanEntries fuel (← gap rest)
        return (entry :: entries, rest)
      | _ => none
    | _ => none

/-- Fields by name up to a closing bracket. -/
def scanFields (fuel : Nat) (cs : List Char) : Option (List (String × Setting) × List Char) :=
  match fuel, cs with
  | _, ')' :: rest => some ([], rest)
  | 0, _ => none
  | fuel + 1, cs => do
    let (name, rest) ← scanName cs
    match ← gap rest with
    | ':' :: rest =>
      let (value, rest) ← scanValue fuel (← gap rest)
      match ← gap rest with
      | ')' :: rest => return ([(name, value)], rest)
      | ',' :: rest =>
        let (fields, rest) ← scanFields fuel (← gap rest)
        return ((name, value) :: fields, rest)
      | _ => none
    | _ => none

end

/-- The extensions of the notation that a text may ask for. -/
def extensions : List String :=
  ["unwrap_newtypes", "implicit_some", "unwrap_variant_newtypes", "explicit_struct_names"]

/-- The text behind requests for extensions. They change nothing where any value may stand. -/
def skipExtensions : Nat → List Char → Option (List Char)
  | 0, _ => none
  | fuel + 1, cs =>
    match cs with
    | '#' :: cs => do
      let '!' :: cs ← gap cs | none
      let '[' :: cs ← gap cs | none
      let ("enable", cs) ← scanName (← gap cs) | none
      let '(' :: cs ← gap cs | none
      let names := cs.takeWhile (· != ')')
      let asked ← (Text.splitChars ',' names).mapM fun name => do
        let (name, rest) ← scanName (← gap name)
        if (← gap rest).isEmpty then return name else none
      let ')' :: cs ← gap (cs.drop names.length) | none
      let ']' :: cs ← gap cs | none
      if asked.all extensions.contains then skipExtensions fuel (← gap cs) else none
    | cs => some cs

/-- The top entries of a text, or nothing if it is not well formed or no table. -/
def read? (text : String) : Option (List (String × Setting)) := do
  let cs := text.toList
  let fuel := 2 * cs.length + 2
  let (value, rest) ← scanValue fuel (← skipExtensions fuel (← gap cs))
  match value, ← gap rest with
  | .table entries, [] => return entries
  | _, _ => none

end RiskDecision.Ron
