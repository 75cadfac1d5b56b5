import ConnectionLeasing.Affine.Operation
import ConnectionLeasing.Chronicle
import ConnectionLeasing.Pooled.Operation
import ConnectionLeasing.Scenario.Action

/-!
# The world of a scenario

Named things, simulated connections, a clock that moves only when told to, and what is due later.
Registries, directories, pools, slots and monitors are kept in tables by number, because a monitor
may share what a manager works on, a slot may sit in two registries, and a lent handle may outlive
the manager it came from.

A `Site` is a place in the world where a machine works: how to cut the machine's state out of the
world, and how to put it back.
-/

namespace ConnectionLeasing.Scenario

/-- What a monitor watches. -/
inductive Target
  | registry (id : Nat)
  | directory (id : Nat)
  deriving DecidableEq, Inhabited

/-- Who announces calls through a monitor. -/
inductive Owner
  | basic (id : Nat)
  | pooled (id : Nat)
  | nobody
  deriving DecidableEq, Inhabited

structure Monitor where
  owner : Owner
  target : Target
  observers : List Observer
  schedule : Schedule
  deriving Inhabited

structure BasicManager where
  settings : ManagerSettings
  factory : Factory
  registry : Nat
  monitor : Nat
  ledger : Ledger
  deriving Inhabited

structure PooledManager where
  settings : ManagerSettings
  factory : Factory
  directory : Nat
  monitor : Nat
  deriving Inhabited

inductive Thing
  | basic (id : Nat)
  | pooled (id : Nat)
  | pool (id : Nat)
  | monitor (id : Nat)
  | factory (f : Factory)
  deriving DecidableEq

/-- A lent object that goes back to its pool when the guard is dropped. -/
structure Guard where
  pool : Nat
  item : Item Handle
  /-- Whether the pool belongs to a manager. -/
  managed : Bool

/-- Actions put off to a moment. -/
structure Postponed where
  due : Nat
  actions : List Action

structure World where
  now : Nat := 0
  /-- The context the main thread is bound to. -/
  context : ContextId := ⟨1⟩
  backend : Backend := {}
  /-- Actions waiting for a key, in the order they were queued. -/
  hooks : List (String × List Action) := []
  /-- In the order they were put off. -/
  postponed : List Postponed := []
  slots : List Slot := []
  registries : List Registry := []
  directories : List Pooled.Directory := []
  pools : List HandlePool := []
  monitors : List Monitor := []
  basics : List BasicManager := []
  pooleds : List PooledManager := []
  things : List (String × Thing) := []
  /-- Things that running actions work with. -/
  inUse : List Thing := []
  guards : List (String × Guard) := []
  /-- Slots kept under a name. -/
  kept : List (String × Nat) := []
  /-- The turn of the next wait of a schedule. -/
  turn : Nat := 0
  /-- Why the task that starts at a turn gets no thread, if it gets none. -/
  spawnFault : Nat → Option String := fun _ => none
  /-- What has happened to the schedules of the monitors. -/
  chronicle : Array Happened := #[]
  events : Array Event := #[]
  /-- Whether notices are kept. -/
  journaling : Bool := false
  journal : Journal := #[]

namespace World

def event (w : World) (e : Event) : World := { w with events := w.events.push e }

/-- Enters something that happens now into the chronicle. -/
def record (w : World) (h : Happening) : World :=
  { w with chronicle := w.chronicle.push ⟨w.now, h⟩ }

def keepJournal (w : World) (j : Journal) : World :=
  if w.journaling then { w with journal := j } else w

def notice (w : World) (n : Notice) : World := w.keepJournal (w.journal.push n)

def notices (w : World) (ns : List Notice) : World := ns.foldl notice w

def thing? (w : World) (name : String) : Option Thing := Keyed.get? w.things name

def monitor (w : World) (id : Nat) : Monitor := w.monitors[id]?.getD default

def mapMonitor (w : World) (id : Nat) (f : Monitor → Monitor) : World :=
  { w with monitors := w.monitors.modify id f }

def basic (w : World) (id : Nat) : BasicManager := w.basics[id]?.getD default

def pooled (w : World) (id : Nat) : PooledManager := w.pooleds[id]?.getD default

def registry (w : World) (id : Nat) : Registry := w.registries[id]?.getD {}

def directory (w : World) (id : Nat) : Pooled.Directory := w.directories[id]?.getD []

/-- The monitor of a thing that has one. -/
def monitorOf? (w : World) (name : String) : Option Nat :=
  match w.thing? name with
  | some (.basic id) => some (w.basic id).monitor
  | some (.pooled id) => some (w.pooled id).monitor
  | some (.monitor id) => some id
  | _ => none

def targetOf? (w : World) (name : String) : Option Target :=
  (w.monitorOf? name).map fun m => (w.monitor m).target

/-- What a manager works on. -/
def managed? (w : World) (name : String) : Option Target :=
  match w.thing? name with
  | some (.basic id) => some (.registry (w.basic id).registry)
  | some (.pooled id) => some (.directory (w.pooled id).directory)
  | _ => none

/-- The registry of a thing that works on one. -/
def registryOf? (w : World) (name : String) : Option Nat :=
  match w.targetOf? name with
  | some (.registry id) => some id
  | _ => none

/-- What an observer sees of a target. -/
def sight (w : World) : Target → Sight
  | .registry id => .registry (w.registry id).size (w.registry id).totalSlots
  | .directory id => .directory (w.directory id).length

def statistics (w : World) (registry : Nat) : List IdentityStatistics :=
  (w.registry registry).statistics w.slots

end World

/-! ### Sites -/

/-- Where in the world a machine with states `S` works. -/
structure Site (S : Type) where
  read : World → S
  write : World → S → World
  /-- What the observers it tells can see. -/
  target : Target

namespace Site

/-- A context-affine manager's state from its parts in the world. -/
def affineState (w : World) (m : BasicManager) (registry : Nat) (observers : List Observer) :
    Affine.State where
  settings := m.settings
  factory := m.factory
  observers
  registry := w.registry registry
  slots := w.slots
  ledger := m.ledger
  journal := w.journal

def writeAffine (w : World) (registry : Nat) (s : Affine.State) : World :=
  { w with
    registries := w.registries.set registry s.registry
    slots := s.slots }.keepJournal s.journal

/-- A context-affine manager, with the observers of a monitor. -/
def basic (w : World) (id monitor : Nat) : Site Affine.State where
  read w :=
    let m := w.basic id
    affineState w m m.registry (w.monitor monitor).observers
  write w s :=
    { writeAffine w (w.basic id).registry s with
      basics := w.basics.modify id fun m => { m with ledger := s.ledger } }
  target := .registry (w.basic id).registry

/-- A monitor that nobody owns, on a registry. -/
def bareRegistry (monitor registry : Nat) : Site Affine.State where
  read w := affineState w default registry (w.monitor monitor).observers
  write w s := writeAffine w registry s
  target := .registry registry

def pooledState (w : World) (m : PooledManager) (directory : Nat) (observers : List Observer) :
    Pooled.State where
  settings := m.settings
  factory := m.factory
  observers
  directory := w.directory directory
  pools := w.pools
  journal := w.journal

def writePooled (w : World) (directory : Nat) (s : Pooled.State) : World :=
  { w with
    directories := w.directories.set directory s.directory
    pools := s.pools }.keepJournal s.journal

/-- A pooled manager, with the observers of a monitor. -/
def pooled (w : World) (id monitor : Nat) : Site Pooled.State where
  read w :=
    let m := w.pooled id
    pooledState w m m.directory (w.monitor monitor).observers
  write w s := writePooled w (w.pooled id).directory s
  target := .directory (w.pooled id).directory

/-- A monitor that nobody owns, on a directory. -/
def bareDirectory (monitor directory : Nat) : Site Pooled.State where
  read w := pooledState w default directory (w.monitor monitor).observers
  write w s := writePooled w directory s
  target := .directory directory

/-- The table of pools by itself. -/
def pools : Site Pooled.State where
  read w := { pooledState w default 0 [] with directory := [] }
  write w s := { w with pools := s.pools }.keepJournal s.journal
  target := .directory 0

end Site

/-! ### Machines -/

/-- A machine: the call each frame waits for, and how it goes on with the answer. -/
structure Machine (S F R : Type) where
  call : F → Call
  resume : S → Nat → (f : F) → (call f).Answer → S × Progress F R

def affine : Machine Affine.State Affine.Frame Affine.Result := ⟨Affine.Frame.call, Affine.resume⟩

def pooling : Machine Pooled.State Pooled.Frame Pooled.Result := ⟨Pooled.Frame.call, Pooled.resume⟩

end ConnectionLeasing.Scenario
