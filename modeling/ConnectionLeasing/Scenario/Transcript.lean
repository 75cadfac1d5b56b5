import ConnectionLeasing.Scenario.Perform

/-!
# Transcripts

A script is a list of actions; its transcript has one step per action: the reply, the time, the
events, and the state of whatever looks different from when it was last shown. Neighbouring
disconnects are sorted by handle, neighbouring journal lines of one message by their text, so that
the order in which equals are taken does not show.
-/

namespace ConnectionLeasing.Scenario

structure Script where
  actions : List Action
  /-- Slots are counted only, and what says which slot was taken is left out. -/
  countOnly : Bool
  journaling : Bool

/-- A connection as it is shown. -/
structure ConnectionView where
  channel : Channel
  connected : Bool
  disconnects : Nat
  deriving DecidableEq

/-- One step of a transcript. -/
structure TranscriptStep where
  reply : Reply
  millis : Nat
  events : List Event
  /-- Things that look different, by name. -/
  things : List (String × ThingView)
  /-- All connections, if any looks different. -/
  connections : Option (List ConnectionView)
  journal : Option (List JournalLine)

/-- Sorts every run of neighbours that `same` holds together. -/
def sortRuns {α : Type} (same le : α → α → Bool) (list : List α) : List α :=
  (list.splitBy same).flatMap fun group => group.mergeSort le

/-- Events with neighbouring disconnects sorted by handle. -/
def sortedEvents (events : List Event) : List Event :=
  sortRuns
    (fun a b => match a, b with | .disconnect _, .disconnect _ => true | _, _ => false)
    (fun a b => match a, b with | .disconnect h, .disconnect k => h ≤ k | _, _ => true)
    events

/-- Journal lines with neighbours of one message sorted by their text. -/
def sortedJournal (journal : Journal) : List JournalLine :=
  sortRuns (fun a b => a.message = b.message) (fun a b => decide (a.text ≤ b.text))
    (journal.toList.map (·.line))

/-! ### Views of the world -/

def World.monitorView (w : World) (id : Nat) : MonitorView :=
  let m := w.monitor id
  Scenario.monitorView m.schedule m.observers

def World.rows (w : World) (directory : Nat) : List PoolStatistics :=
  sortedBy (fun x => x) ((w.poolRows directory).map (·.2))

def World.targetView (countOnly : Bool) (w : World) : Target → TargetView
  | .registry id => .registry (entryViews countOnly w.slots (w.registry id))
  | .directory id => .directory (w.rows id)

def World.view (countOnly : Bool) (w : World) : Thing → ThingView
  | .basic id =>
    let m := w.basic id
    .basic (w.monitorView m.monitor) (entryViews countOnly w.slots (w.registry m.registry))
      (w.metrics id)
  | .pooled id =>
    let m := w.pooled id
    .pooled (w.monitorView m.monitor) (w.rows m.directory)
  | .pool id => poolView ((w.pools[id]?.map (·.pool)).getD (.create "" {}))
  | .monitor id => .monitor (w.monitorView id) (w.targetView countOnly (w.monitor id).target)
  | .factory f => .factory (Channel.all.map f.supports)

def World.connectionViews (w : World) : List ConnectionView :=
  w.backend.connections.map fun c => ⟨c.channel, c.connected, c.disconnects⟩

/-! ### Running a script -/

/-- What was shown last. -/
structure Shown where
  things : List (String × ThingView) := []
  connections : Option (List ConnectionView) := none

/-- The reply to a borrow without saying what was lent; only a try says it all the same. -/
def Action.withoutHandle : Action → Reply → Reply
  | .borrow .., .lent _ | .borrow .., .guarded .. | .borrowAsync .., .guarded .. => .text "ok"
  | _, reply => reply

/-- Performs one action and shows what came of it. -/
def showStep (script : Script) (depth : Nat) (a : Action) (w : World) (shown : Shown) :
    World × Shown × TranscriptStep :=
  let (w, reply) := perform depth a { w with events := #[], journal := #[] }
  let views := w.things.map fun t => (t.1, w.view script.countOnly t.2)
  let changed := views.filter fun v => Keyed.get? shown.things v.1 ≠ some v.2
  let connections := w.connectionViews
  let different := shown.connections ≠ some connections
  let shown : Shown :=
    ⟨changed.foldl (fun m v => Keyed.put m v.1 v.2) shown.things, some connections⟩
  (w, shown,
    { reply := if script.countOnly then a.withoutHandle reply else reply
      millis := momentMillis w.now
      events := if script.countOnly then [] else sortedEvents w.events.toList
      things := changed
      connections := if different && !script.countOnly then some connections else none
      journal := if script.journaling then some (sortedJournal w.journal) else none })

/-- The steps of the remaining actions. -/
def transcriptFrom (script : Script) (depth : Nat) :
    List Action → World → Shown → List TranscriptStep
  | [], _, _ => []
  | a :: actions, w, shown =>
    let (w, shown, step) := showStep script depth a w shown
    step :: transcriptFrom script depth actions w shown

/-- The transcript of a script that starts from nothing. -/
def Script.transcript (script : Script) : List TranscriptStep :=
  transcriptFrom script (Action.weights script.actions) script.actions
    { journaling := script.journaling } {}

end ConnectionLeasing.Scenario
