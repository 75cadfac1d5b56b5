import ConnectionLeasing.Text.Record
import ConnectionLeasing.Time

/-!
# Settings of managers and pools

Limits and timeouts with their defaults. A pooled manager derives the settings of its pools from
its own: the same limit, the same idle timeout, the same longest wait.
-/

namespace ConnectionLeasing

/-- Settings of one object pool. -/
structure PoolSettings where
  /-- Objects alive at once, idle and borrowed together. -/
  maxSize : Nat := 8
  /-- Objects idle for longer are destroyed; without it they never expire. -/
  idleTimeout : Option Duration := none
  /-- How long a blocking borrow waits for an object. -/
  maxWait : Duration := .ofMillis 60000
  deriving DecidableEq, Inhabited

/-- Settings of a connection manager. -/
structure ManagerSettings where
  /-- Connections of one identity, over all contexts. -/
  maxConnections : Nat := 8
  /-- A slot borrowed for longer is forced back to idle. -/
  borrowTimeout : Duration := .ofMillis 3600000
  /-- A slot idle for longer is closed. -/
  idleTimeout : Duration := .ofMillis 300000
  /-- Handed to a connection that is being opened. -/
  connectTimeout : Duration := .ofMillis 5000
  /-- Period of the scheduled inspection. -/
  schedulePeriod : Duration := .ofMillis 600000
  /-- Whether the scheduled inspection runs from the start. -/
  autoInspect : Bool := true
  /-- How long a pooled borrow waits for a free connection. -/
  borrowMaxWait : Duration := .ofMillis 60000
  deriving DecidableEq, Inhabited

namespace PoolSettings

def debug (s : PoolSettings) : String :=
  Text.record "PoolConfiguration" [("max_pool_size", toString s.maxSize),
    ("idle_timeout", Text.optional (s.idleTimeout.map Duration.text)),
    ("max_wait", s.maxWait.text)]

/-- How many idle objects a pool has room for; never less than one. -/
def capacity (s : PoolSettings) : Nat := max s.maxSize 1

end PoolSettings

namespace ManagerSettings

def debug (s : ManagerSettings) : String :=
  Text.record "ManagerConfiguration" [("max_connection_size", toString s.maxConnections),
    ("borrow_timeout", s.borrowTimeout.text), ("idle_timeout", s.idleTimeout.text),
    ("connect_timeout", s.connectTimeout.text), ("schedule_period", s.schedulePeriod.text),
    ("auto_inspect", Text.bool s.autoInspect), ("borrow_max_wait", s.borrowMaxWait.text)]

/-- The settings of the pools of a pooled manager. -/
def pool (s : ManagerSettings) : PoolSettings where
  maxSize := s.maxConnections
  idleTimeout := some s.idleTimeout
  maxWait := s.borrowMaxWait

end ManagerSettings

end ConnectionLeasing
