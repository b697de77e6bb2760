import RiskDecision.Proofs.Files.Names
import RiskDecision.Proofs.Service.Atomicity
import RiskDecision.Proofs.Service.History
import RiskDecision.Watch

/-!
# What a watcher reacts to

A watcher is started and stopped while files come and go in its directory. Its life has three
phases: before the first start it has no loop, then there is exactly one that changes are passed to,
and from the first stop on there is none ever again, since a new loop finds the switch turned and
ends. `Phase` is the invariant; which phase it is can be read off the history (`reacting`).

The main statement, `effect_after_run`, tells what one more event does to the service after any
history. Starting after a stop, as harmless as it looks, is of no use
(`not_reloaded_after_restart`).
-/

namespace RiskDecision

/-- A service with a watcher of a directory. -/
structure Watched where
  watcher : Watcher
  service : Service

namespace Watched

/-- What happens to a watched directory and the service. -/
inductive Event
  /-- The watcher is started, with what is found at its path. -/
  | start (target : Option Entry)
  | stop
  /-- Something changes at a path, and the loops have the time to react. -/
  | change (path : String) (change : Change)
  /-- The service is used by others. -/
  | other (e : Service.Event)

namespace Event

/-- The watcher is started and there is something to watch. -/
def starts : Event → Bool
  | .start target => target.isSome
  | _ => false

/-- The watcher is stopped. -/
def stops : Event → Bool
  | .stop => true
  | _ => false

end Event

/-- A service whose watcher was not started yet. -/
def create (directory : String) (s : Service) : Watched := ⟨.create directory, s⟩

/-- What an event makes of the two. A start that fails leaves the watcher as it was. -/
def step (w : Watched) : Event → Watched
  | .start target => { w with watcher := (w.watcher.start target).getD w.watcher }
  | .stop => { w with watcher := w.watcher.stop }
  | .change path change =>
    { w with service := w.watcher.afterAnyChange w.service path change }
  | .other e => { w with service := w.service.afterEvent e }

/-- What a history makes of the two. -/
def run (w : Watched) (events : List Event) : Watched := events.foldl step w

/-- After such a history changes are reacted to: there was a start, and no stop at all. -/
def reacting (events : List Event) : Bool := events.any Event.starts && !events.any Event.stops

/-- A path at which a watcher of the directory sees changes. -/
def Sighted (directory path : String) : Prop :=
  Path.parentNames path = Entry.names directory ∨ Entry.names path = Entry.names directory

/-- What becomes of a service when a file is loaded again that has the given name and content. -/
inductive Reloaded (s : Service) (name : String) (file : Entry) : Service → Prop
  /-- Nothing can be loaded. -/
  | kept (h : s.closed = true ∨ Service.entriesOfFile? (some file) = none) :
    Reloaded s name file s
  /-- The catalog of the domain that the file is named for is replaced, and no other one. -/
  | replaced {entries : List Json} {report : LoadReport} {s' : Service}
    (isOpen : s.closed = false) (content : Service.entriesOfFile? (some file) = some entries)
    (h : s.Replaced (Path.stem name) entries report s') : Reloaded s name file s'

/-- What an event does to the service. -/
inductive Effect (directory : String) (reacting : Bool) (s : Service) : Event → Service → Prop
  | start (target : Option Entry) : Effect directory reacting s (.start target) s
  | stop : Effect directory reacting s .stop s
  /-- A file is put into the directory whose name is that of a catalog file. -/
  | reloaded {path : String} {content : ByteArray} {s' : Service} (h : reacting = true)
    (place : Sighted directory path) (name : Path.isCatalogName (Path.fileName path) = true)
    (result : Reloaded s (Path.fileName path) (.file content) s') :
    Effect directory reacting s (.change path (.put (.file content))) s'
  /-- Any other change, or no reaction. -/
  | ignored {path : String} {change : Change}
    (h : ¬ (reacting = true ∧ Sighted directory path ∧
      Path.isCatalogName (Path.fileName path) = true ∧
      ∃ content, change = .put (.file content))) :
    Effect directory reacting s (.change path change) s
  | other (e : Service.Event) : Effect directory reacting s (.other e) (s.afterEvent e)

/-! ## The phases of a watcher -/

/-- How far a watcher has come that was started and stopped or not. -/
inductive Phase (directory : String) : Bool → Bool → Watcher → Prop
  | idle : Phase directory false false (.create directory)
  /-- Loops that went before linger on without changes. -/
  | active (lingering : Nat) :
    Phase directory true false
      ⟨directory, .untouched, 0, List.replicate lingering ⟨false, 0⟩ ++ [⟨true, 0⟩]⟩
  | ended (started : Bool) (turns : Nat) :
    Phase directory started true ⟨directory, ⟨true, turns + 1⟩, 0, []⟩

variable {directory : String} {started stopped : Bool} {w : Watcher}

/-- A loop that knows of every turn waits on. -/
theorem filterMap_settle_eq_self {switch : Switch} {loops : List WatchLoop}
    (h : ∀ l ∈ loops, l.seenTurns = switch.turns) :
    loops.filterMap (WatchLoop.settle switch) = loops := by
  have hsome : loops.filterMap (WatchLoop.settle switch) = loops.filterMap some := by
    refine List.filterMap_congr ?_
    intro l hl
    rw [WatchLoop.settle, if_pos (h l hl)]
  rw [hsome, List.filterMap_some]

/-- A loop that learns of the switch being off ends. -/
theorem filterMap_settle_eq_nil {switch : Switch} {loops : List WatchLoop}
    (hoff : switch.isOff = true) (h : ∀ l ∈ loops, l.seenTurns ≠ switch.turns) :
    loops.filterMap (WatchLoop.settle switch) = [] := by
  rw [List.filterMap_eq_nil_iff]
  intro l hl
  rw [WatchLoop.settle, if_neg (h l hl), if_pos hoff]

/-- No loop of a watcher that has not been stopped knows of a turn. -/
theorem Phase.seenTurns (phase : Phase directory started stopped w) :
    w.seenTurns = 0 ∧ ∀ l ∈ w.loops, l.seenTurns = 0 := by
  cases phase with
  | idle => exact ⟨rfl, fun l hl => nomatch hl⟩
  | active lingering =>
      refine ⟨rfl, ?_⟩
      intro l hl
      rcases List.mem_append.mp hl with hl | hl
      · rw [List.eq_of_mem_replicate hl]
      · rw [List.mem_singleton.mp hl]
  | ended started turns => exact ⟨rfl, fun l hl => nomatch hl⟩

/-- A successful start. -/
theorem Phase.start (phase : Phase directory started stopped w) (target : Entry) :
    ∃ w', w.start (some target) = some w' ∧ Phase directory true stopped w' := by
  refine ⟨_, rfl, ?_⟩
  cases phase with
  | idle => exact .active 0
  | active lingering =>
      have hloops : (List.replicate lingering (WatchLoop.mk false 0) ++ [WatchLoop.mk true 0]).map
            WatchLoop.unsubscribed ++ [WatchLoop.mk true 0]
          = List.replicate (lingering + 1) (WatchLoop.mk false 0) ++ [⟨true, 0⟩] := by
        rw [List.map_append, List.map_replicate, List.replicate_succ']
        rfl
      -- neither the loops that linger nor the new one have a turn to learn of
      have hphase : Phase directory true false _ := .active (lingering + 1)
      rw [Watcher.settle]
      dsimp only [Watcher.unsubscribe]
      rw [hloops, filterMap_settle_eq_self hphase.seenTurns.2]
      exact hphase
  | ended started turns => exact .ended true turns

/-- A stop. -/
theorem Phase.stop (phase : Phase directory started stopped w) :
    Phase directory started true w.stop := by
  have hseen := phase.seenTurns.2
  have hgone : ∀ turns, (w.loops.map WatchLoop.unsubscribed).filterMap
      (WatchLoop.settle ⟨true, turns + 1⟩) = [] := by
    intro turns
    refine filterMap_settle_eq_nil rfl ?_
    intro l hl
    obtain ⟨l', hl', rfl⟩ := List.mem_map.mp hl
    show l'.seenTurns ≠ turns + 1
    rw [hseen l' hl']
    exact (Nat.succ_ne_zero turns).symm
  have hstop : w.stop = ⟨w.directory, w.switch.turnOff, w.seenTurns, []⟩ := by
    rw [Watcher.stop, Watcher.settle]
    dsimp only [Watcher.unsubscribe, Switch.turnOff]
    rw [hgone]
  rw [hstop]
  cases phase with
  | idle => exact .ended false 0
  | active lingering => exact .ended true 0
  | ended started turns => exact .ended started (turns + 1)

/-- **SUBSCRIPTIONS**: a change is passed to one loop or to none. -/
theorem Phase.filter_subscribed (phase : Phase directory started stopped w) :
    w.loops.filter (·.subscribed) = if started && !stopped then [⟨true, 0⟩] else [] := by
  cases phase with
  | idle => rfl
  | active lingering =>
      rw [List.filter_append, List.filter_replicate_of_neg Bool.false_ne_true]
      rfl
  | ended started turns =>
      rw [Bool.not_true, Bool.and_false]
      rfl

theorem Phase.directory_eq (phase : Phase directory started stopped w) :
    w.directory = directory := by
  cases phase <;> rfl

/-- **ONE EVENT** takes the watcher to the phase that its history then tells. -/
theorem phase_step {w : Watched} (phase : Phase directory started stopped w.watcher) (e : Event) :
    Phase directory (started || e.starts) (stopped || e.stops) (w.step e).watcher := by
  cases e with
  | start target =>
      cases target with
      | none =>
          show Phase directory (started || false) (stopped || false) w.watcher
          rw [Bool.or_false, Bool.or_false]
          exact phase
      | some entry =>
          obtain ⟨w', hstart, hphase⟩ := phase.start entry
          show Phase directory (started || true) (stopped || false)
            ((w.watcher.start (some entry)).getD w.watcher)
          rw [hstart, Bool.or_true, Bool.or_false]
          exact hphase
  | stop =>
      show Phase directory (started || false) (stopped || true) w.watcher.stop
      rw [Bool.or_false, Bool.or_true]
      exact phase.stop
  | change path change =>
      show Phase directory (started || false) (stopped || false) w.watcher
      rw [Bool.or_false, Bool.or_false]
      exact phase
  | other e =>
      show Phase directory (started || false) (stopped || false) w.watcher
      rw [Bool.or_false, Bool.or_false]
      exact phase

/-- **A HISTORY** takes the watcher to the phase that it tells. -/
theorem phase_run {w : Watched} (phase : Phase directory started stopped w.watcher)
    (events : List Event) :
    Phase directory (started || events.any Event.starts) (stopped || events.any Event.stops)
      (w.run events).watcher := by
  induction events generalizing w started stopped with
  | nil =>
      rw [List.any_nil, List.any_nil, Bool.or_false, Bool.or_false]
      exact phase
  | cons e rest ih =>
      rw [List.any_cons, List.any_cons, ← Bool.or_assoc, ← Bool.or_assoc]
      exact ih (phase_step phase e)

/-! ## Reactions -/

/-- Loading a file again has the effect of a load. -/
theorem reloaded_reload (s : Service) (path : String) (content : ByteArray) :
    Reloaded s (Path.fileName path) (.file content)
      (Watcher.reload s path (.put (.file content))) := by
  show Reloaded s _ _ (s.after (Service.loadFile (Path.fileName path) (some (.file content))))
  cases hclosed : s.closed with
  | true =>
      obtain ⟨f, hf⟩ := Service.run_loadFile_of_closed hclosed (Path.fileName path)
        (some (.file content))
      rw [Service.after_of_error hf]
      exact .kept (Or.inl hclosed)
  | false =>
      have hload := Service.allOrNothing_loaded hclosed
        (Service.toOption_catalogOfFile (Path.fileName path) (some (.file content)))
      rw [← Service.run_loadFile hclosed] at hload
      generalize hentries : Service.entriesOfFile? (some (.file content)) = entries at hload
      generalize hrun : (Service.loadFile (Path.fileName path) (some (.file content))).run s
        = result at hload
      cases hload with
      | nothing fault =>
          rw [Service.after_of_error hrun]
          exact .kept (Or.inr hentries)
      | all h =>
          rw [Service.after_of_ok hrun]
          exact .replaced hclosed hentries h

/-- A change where no file is found afterwards is nothing to react to. -/
theorem reload_of_not_file {change : Change} (h : ¬ ∃ content, change = .put (.file content))
    (s : Service) (path : String) : Watcher.reload s path change = s := by
  cases change with
  | put entry =>
      cases entry with
      | file content => exact absurd ⟨content, rfl⟩ h
      | directory entries => rfl
  | movedAway => rfl
  | deleted => rfl

theorem sees_iff (w : Watcher) (path : String) :
    w.sees path = true ↔ Sighted w.directory path := by
  rw [Watcher.sees, Bool.or_eq_true, beq_iff_eq, beq_iff_eq, Sighted]

/-- **ONE CHANGE** is reacted to once or not at all. -/
theorem effect_change (phase : Phase directory started stopped w) (s : Service) (path : String)
    (change : Change) :
    Effect directory (started && !stopped) s (.change path change)
      (w.afterAnyChange s path change) := by
  rw [Watcher.afterAnyChange, phase.filter_subscribed]
  by_cases hfile : ∃ content, change = .put (.file content)
  · obtain ⟨content, rfl⟩ := hfile
    by_cases hrelevant : (started && !stopped) = true ∧ Sighted directory path ∧
        Path.isCatalogName (Path.fileName path) = true
    · obtain ⟨hreacting, hplace, hname⟩ := hrelevant
      have hsees : w.sees path = true := (sees_iff w path).mpr (phase.directory_eq ▸ hplace)
      rw [hsees, hname, hreacting]
      exact .reloaded rfl hplace hname (reloaded_reload s path content)
    · have hignored : Effect directory (started && !stopped) s
          (.change path (.put (.file content))) s :=
        .ignored fun h => hrelevant ⟨h.1, h.2.1, h.2.2.1⟩
      split
      · rename_i h
        rw [Bool.and_eq_true, Bool.and_eq_true, sees_iff, phase.directory_eq] at h
        rw [if_neg fun hreacting => hrelevant ⟨hreacting, h.1.1, h.2⟩]
        exact hignored
      · exact hignored
  · have hsame : ∀ loops : List WatchLoop,
        loops.foldl (fun s _ => Watcher.reload s path change) s = s := by
      intro loops
      induction loops with
      | nil => rfl
      | cons l rest ih => rw [List.foldl_cons, reload_of_not_file hfile]; exact ih
    rw [hsame, ite_self]
    exact .ignored fun h => hfile h.2.2.2

/-- The files of the directory are sighted under their names. -/
theorem sighted_join (directory : String) (name : FileName) :
    Sighted directory (Path.join directory name.text) :=
  Or.inl (name.parentNames_join directory)

/-- **ONE FILE** of the directory that is written. -/
theorem Effect.of_file {s s' : Service} {name : FileName} {content : ByteArray} {reacting : Bool}
    (h : Effect directory reacting s
      (.change (Path.join directory name.text) (.put (.file content))) s') :
    if reacting && Path.isCatalogName name.text then Reloaded s name.text (.file content) s'
    else s' = s := by
  have hname := name.fileName_join directory
  cases h with
  | reloaded hreacting place hcatalog result =>
      rw [hname] at hcatalog result
      rw [hreacting, hcatalog]
      exact result
  | ignored h =>
      rw [hname] at h
      rw [if_neg]
      intro hboth
      obtain ⟨hreacting, hcatalog⟩ := Bool.and_eq_true_iff.mp hboth
      exact h ⟨hreacting, sighted_join directory name, hcatalog, content, rfl⟩

/-- **REACTIONS.** After any history of starts, stops, changes and uses of the service, the watcher
changes the service only when a file is put into its directory that has the name of a catalog file,
and then only if it was started and never stopped: the catalog of the domain that the file is named
for is replaced by that of the content, or nothing changes if there is none in it. Starts, stops,
deletions, anything that is no file, and whatever happens after a stop leave the service alone, even
if the watcher was started again since. -/
theorem effect_after_run (directory : String) (s : Service) (events : List Event) :
    let w := (create directory s).run events
    (∀ e, Effect directory (reacting events) w.service e (w.step e).service) ∧
    ∀ (name : FileName) (content : ByteArray),
      let written := .change (Path.join directory name.text) (.put (.file content))
      if reacting events && Path.isCatalogName name.text then
        Reloaded w.service name.text (.file content) (w.step written).service
      else (w.step written).service = w.service := by
  intro w
  have hphase : Phase directory _ _ w.watcher := phase_run .idle events
  rw [Bool.false_or, Bool.false_or] at hphase
  have heffect : ∀ e, Effect directory (reacting events) w.service e (w.step e).service := by
    intro e
    cases e with
    | start target => exact .start target
    | stop => exact .stop
    | change path change => exact effect_change hphase _ path change
    | other e => exact .other e
  exact ⟨heffect, fun name content => (heffect _).of_file⟩

/-- A watcher that is started, stopped and started again overlooks a file that could be loaded. -/
theorem not_reloaded_after_restart :
    let found : Option Entry := some .emptyDirectory
    let file : Entry := .file ⟨#[91, 93]⟩
    let w := (create "rules" (.start {})).run [.start found, .stop, .start found]
    (w.step (.change "rules/bank.json" (.put file))).service.store.get? "bank" = none ∧
      ((w.service.after (Service.loadFile "bank.json" (some file))).store.get? "bank").isSome
        = true := by
  decide +kernel

end Watched

end RiskDecision
