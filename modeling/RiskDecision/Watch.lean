import RiskDecision.Service.Files

/-!
# Watching a catalog directory

A watcher loads catalog files again when they change. Starting it subscribes to the changes in its
directory and sets a loop going that waits for them; a loop that went before gets no changes any
more. It reacts to files that are written or moved into the directory; a file that is gone leaves
its catalog in force, and so does one that cannot be loaded.

A watcher is stopped by a switch that all its loops look at when they learn that it was turned. The
switch is never turned on again, and a loop knows at its beginning only of those turns that the
watcher itself knows of.
-/

namespace RiskDecision

/-- A switch that can be turned off. -/
structure Switch where
  isOff : Bool
  /-- How often it was turned off. -/
  turns : Nat

namespace Switch

/-- A switch that nobody has touched. -/
def untouched : Switch := ⟨false, 0⟩

/-- The switch after it was turned off, for the first time or again. -/
def turnOff (switch : Switch) : Switch := ⟨true, switch.turns + 1⟩

end Switch

/-- A change at a path. -/
inductive Change
  /-- A file or directory was written or moved there. -/
  | put (entry : Entry)
  /-- What was there was moved away. -/
  | movedAway
  /-- What was there was deleted. -/
  | deleted

namespace Change

/-- The change is passed on. A deletion is not. -/
def isPassedOn : Change → Bool
  | .deleted => false
  | _ => true

/-- The file that is found at the path afterwards. -/
def file? : Change → Option Entry
  | .put entry => if entry.isDirectory then none else some entry
  | _ => none

end Change

/-- A loop that waits for changes. -/
structure WatchLoop where
  /-- Changes are passed to this loop. -/
  subscribed : Bool
  /-- The turns of the switch that it knows of. -/
  seenTurns : Nat

namespace WatchLoop

/-- The loop after its subscription was given up. -/
def unsubscribed (l : WatchLoop) : WatchLoop := { l with subscribed := false }

/-- What becomes of the loop when nothing but the switch happens: it waits on, unless it learns of a
turn and sees that the switch is off. -/
def settle (switch : Switch) (l : WatchLoop) : Option WatchLoop :=
  if l.seenTurns = switch.turns then some l
  else if switch.isOff then none
  else some { l with seenTurns := switch.turns }

end WatchLoop

/-- A watcher of a directory. -/
structure Watcher where
  /-- The path of the directory. -/
  directory : String
  switch : Switch
  /-- The turns of the switch that a new loop knows of. -/
  seenTurns : Nat
  /-- The loops that have not ended. -/
  loops : List WatchLoop

namespace Watcher

/-- A watcher that was not started yet. -/
def create (directory : String) : Watcher := ⟨directory, .untouched, 0, []⟩

/-- Gives up every subscription. -/
def unsubscribe (w : Watcher) : Watcher :=
  { w with loops := w.loops.map WatchLoop.unsubscribed }

/-- The watcher when every loop waits again. -/
def settle (w : Watcher) : Watcher :=
  { w with loops := w.loops.filterMap (WatchLoop.settle w.switch) }

/-- Starts a watcher, given what is found at its path. Only if there is something, a new loop takes
the place of the one that had the subscription. -/
def start (w : Watcher) (target : Option Entry) : Option Watcher :=
  target.map fun _ =>
    settle { w.unsubscribe with loops := w.unsubscribe.loops ++ [⟨true, w.seenTurns⟩] }

/-- Stops a watcher. -/
def stop (w : Watcher) : Watcher := settle { w.unsubscribe with switch := w.switch.turnOff }

/-- A change at the path is one that the watcher sees: the path lies directly in the directory, or
is the very path that is watched. -/
def sees (w : Watcher) (path : String) : Bool :=
  Path.parentNames path == Entry.names w.directory || Entry.names path == Entry.names w.directory

/-- Loads the file at a path again, if there is one after the change. -/
def reload (s : Service) (path : String) (change : Change) : Service :=
  match change.file? with
  | some file => s.after (Service.loadFile (Path.fileName path) (some file))
  | none => s

/-- The service after a change. Every loop that is passed the change reloads the file. -/
def afterAnyChange (w : Watcher) (s : Service) (path : String) (change : Change) : Service :=
  if w.sees path && change.isPassedOn && Path.isCatalogName (Path.fileName path) then
    (w.loops.filter (·.subscribed)).foldl (fun s _ => reload s path change) s
  else s

/-- The service after a file was written or moved to a path. -/
def afterChange (w : Watcher) (s : Service) (path : String) (entry : Entry) : Service :=
  w.afterAnyChange s path (.put entry)

/-- The files of a directory that are new or hold something else than before, in ascending order of
their names. -/
def changed (before after : List (String × Entry)) : List (String × Entry) :=
  (Service.catalogFiles after).filter fun e =>
    (before.lookup e.1).bind Entry.content? != e.2.content?

/-- The service after the content of the directory went from one state to another. -/
def afterChanges (w : Watcher) (s : Service) (before after : List (String × Entry)) : Service :=
  (changed before after).foldl (fun s e => w.afterChange s (Path.join w.directory e.1) e.2) s

end Watcher

end RiskDecision
