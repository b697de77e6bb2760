import RiskDecision.Record.Path

/-!
# A path as a walk

A path is followed by a recursion that looks up a segment, descends and collects what it tried. The
same can be told without it: a walk stands on a record, on a plain value or nowhere, each segment
moves it on, and where it stands in the end gives the value of the path. What is tried for a segment
depends on where the walk stands before it, and off the records nothing is tried. The main
statement, `View.follow_eq_walk`, says that following a path is this walk.
-/

namespace RiskDecision

/-- Where a walk along a path stands. -/
inductive Position
  | record (v : View)
  | value (x : Value)
  | nowhere

namespace View

/-- What a segment leads to: the first hit among `getX`, `isX` and the segment itself. A null value
is a hit. -/
def hit? (v : View) (segment : String) : Option Slot :=
  if segment = "" then none
  else
    ((v.slot? ("get" ++ Text.capitalize segment)).or
      (v.slot? ("is" ++ Text.capitalize segment))).or (v.slot? segment)

/-- The accessors that are tried for a segment, up to the first hit. -/
def attempts (v : View) (segment : String) : List Probe :=
  let getter := "get" ++ Text.capitalize segment
  let question := "is" ++ Text.capitalize segment
  let names :=
    if segment = "" then []
    else if (v.slot? getter).isSome then [getter]
    else if (v.slot? question).isSome then [getter, question]
    else [getter, question, segment]
  names.map fun name => ⟨v.typeName, name⟩

end View

namespace Position

/-- A segment moves a walk on. There is no way on from a plain value. -/
def step : Position → String → Position
  | .record v, segment =>
    match v.hit? segment with
    | some (.nested inner) => .record inner
    | some (.scalar x) => .value x
    | none => .nowhere
  | .value _, _ => .nowhere
  | .nowhere, _ => .nowhere

/-- The value of a path that ends here. A record stands for the name of its type. -/
def reading : Position → Value
  | .record v => .text v.typeName
  | .value x => x
  | .nowhere => .null

/-- The accessors that are tried for a segment from here. -/
def attempts : Position → String → List Probe
  | .record v, segment => v.attempts segment
  | .value _, _ => []
  | .nowhere, _ => []

/-- A walk along segments: the reading at its end, and what is tried at each position passed. -/
def walk (start : Position) (segments : List String) : Lookup :=
  ⟨(segments.foldl step start).reading,
    (List.zipWith attempts (segments.scanl step start) segments).flatten⟩

theorem walk_cons (start : Position) (segment : String) (rest : List String) :
    start.walk (segment :: rest)
      = ⟨((start.step segment).walk rest).value,
          start.attempts segment ++ ((start.step segment).walk rest).probes⟩ := by
  rw [walk, List.scanl_cons]
  rfl

/-- Off the records a walk with at least one more segment ends nowhere and tries nothing. -/
theorem walk_nowhere (segments : List String) : nowhere.walk segments = ⟨.null, []⟩ := by
  induction segments with
  | nil => rfl
  | cons segment rest ih =>
      rw [walk_cons, step, ih]
      rfl

theorem walk_value_cons (x : Value) (segment : String) (rest : List String) :
    (Position.value x).walk (segment :: rest) = ⟨.null, []⟩ := by
  rw [walk_cons, step, walk_nowhere]
  rfl

end Position

namespace View

/-- **ONE SEGMENT**: trying the names of a segment in turn finds the first hit, after the attempts up
to it. -/
theorem firstSlot_candidates (v : View) (segment : String) :
    v.firstSlot (candidates segment) = (v.hit? segment, v.attempts segment) := by
  rw [candidates, hit?, attempts]
  by_cases hempty : segment = ""
  · rw [if_pos hempty, if_pos hempty]
    simp only [if_pos hempty]
    rfl
  · simp only [if_neg hempty, firstSlot]
    cases v.slot? ("get" ++ Text.capitalize segment) with
    | some slot => rfl
    | none =>
        cases v.slot? ("is" ++ Text.capitalize segment) with
        | some slot => rfl
        | none => cases v.slot? segment <;> rfl

/-- **ALL SEGMENTS**: following a path with at least one segment is a walk from the record. -/
theorem follow_eq_walk (v : View) (segments : List String) (hne : segments ≠ []) :
    v.follow segments = (Position.record v).walk segments := by
  induction segments generalizing v with
  | nil => exact absurd rfl hne
  | cons segment rest ih =>
      rw [follow, firstSlot_candidates, Position.walk_cons, Position.step]
      cases hhit : v.hit? segment with
      | none =>
          dsimp only
          rw [Position.walk_nowhere, List.append_nil]
          rfl
      | some slot =>
          cases slot with
          | scalar x =>
              cases rest with
              | nil => exact congrArg (Lookup.mk x) (List.append_nil _).symm
              | cons next rest =>
                  dsimp only
                  rw [Position.walk_value_cons, List.append_nil]
                  rfl
          | nested inner =>
              cases rest with
              | nil => exact congrArg (Lookup.mk _) (List.append_nil _).symm
              | cons next rest =>
                  dsimp only
                  rw [ih inner (List.cons_ne_nil next rest)]
                  rfl

end View

end RiskDecision
