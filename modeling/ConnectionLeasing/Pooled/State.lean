import ConnectionLeasing.Journal
import ConnectionLeasing.Pool.Operation

/-!
# A pooled manager

It keeps one pool of handles for every identity and channel that was asked for, in a directory. Any
caller may get any idle handle of the right pool. A pool outlives its place in the directory as long
as a handle of it is lent, so pools are known by number in a table.
-/

namespace ConnectionLeasing

/-- Where the handles of a pool come from and how they leave it. -/
structure Source where
  identity : Identity
  channel : Channel
  /-- What the constructed handles carry. -/
  produces : Channel
  timeout : Duration
  /-- Whether opened connections and failed disconnects are reported. -/
  reported : Bool
  deriving Inhabited

/-- A pool of handles with its source. -/
structure HandlePool where
  pool : Pool Handle
  source : Source

/-- Which handles share a pool. -/
structure PoolKey where
  identity : Identity
  channel : Channel
  deriving DecidableEq, Inhabited

/-- The empty pool of a key. -/
def HandlePool.ofKey (settings : ManagerSettings) (key : PoolKey) (produces : Channel) :
    HandlePool where
  pool := .create s!"{key.identity.display}/{key.channel.name}" settings.pool
  source := ⟨key.identity, key.channel, produces, settings.connectTimeout, true⟩

namespace PoolStatistics

/-- The counts of a pool, under its key. -/
def ofPool (key : PoolKey) (p : Pool Handle) : PoolStatistics where
  host := key.identity.host
  port := key.identity.port
  username := key.identity.username
  channel := key.channel
  idle := p.idle.length
  active := p.active
  max := p.settings.maxSize

def json (s : PoolStatistics) : String :=
  Text.Json.object [("host", Text.Json.string s.host), ("port", toString s.port),
    ("username", Text.Json.string s.username), ("kind", s.channel.json),
    ("idle", toString s.idle), ("active", toString s.active), ("max", toString s.max)]

end PoolStatistics

namespace Pooled

/-- The pools in use: their numbers by key. -/
abbrev Directory := List (PoolKey × Nat)

/-- The counts of every pool, each with its identity. -/
def Directory.rows (d : Directory) (pools : List HandlePool) : List (Identity × PoolStatistics) :=
  d.filterMap fun k => pools[k.2]?.map fun p => (k.1.identity, .ofPool k.1 p.pool)

/-- The long text of a directory. -/
def Directory.debug (d : Directory) : String :=
  Text.record "PoolDirectory" [("pools", toString d.length)]

structure State where
  settings : ManagerSettings
  factory : Factory
  observers : List Observer
  directory : Directory
  /-- Every pool ever made, by number. -/
  pools : List HandlePool
  journal : Journal

namespace State

/-- A manager that has done nothing yet, with the built-in observers. -/
def initial (settings : ManagerSettings) (factory : Factory) : State where
  settings
  factory
  observers := [.log, .poolInspector]
  directory := []
  pools := []
  journal := #[]

def note (s : State) (n : Notice) : State := { s with journal := s.journal.push n }

/-- The counts of the pools of the directory. -/
def statistics (s : State) : List (Identity × PoolStatistics) :=
  Directory.rows s.directory s.pools

/-- The counts of the pools of one identity. -/
def statisticsFor (s : State) (i : Identity) : List PoolStatistics :=
  (s.statistics.filter fun x => x.1 = i).map (·.2)

/-- Writes the counts of every pool to the journal. -/
def summarize (s : State) : State :=
  s.statistics.foldl (fun s x => s.note (.poolConnections x.2))
    (s.note (.poolSummary s.directory.length))

/-- Writes the counts of the pools of one identity to the journal. -/
def summarizeFor (s : State) (i : Identity) : State :=
  (s.statisticsFor i).foldl (fun s x => s.note (.poolState i x)) s

end State

end Pooled

/-- The notice that a pool's note stands for. -/
def Pool.Note.notice (pool : String) : Pool.Note → Notice
  | stale id => .staleObject pool id
  | created id => .createdObject pool id
  | evicted n => .evictedObjects pool n

end ConnectionLeasing
