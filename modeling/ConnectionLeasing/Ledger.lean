import ConnectionLeasing.Registry

/-!
# The ledger

Counters of what a manager did, and the metrics made from them together with a snapshot of the
registry. A metric is exported under its name, in one fixed order.

The counters are unbounded here. Kept in machine words they wrap, so what is said of them is about
runs in which no counter comes to 2^64.
-/

namespace ConnectionLeasing

/-- How often each thing happened. -/
structure Ledger where
  /-- Borrows that succeeded, however they were served. -/
  borrowed : Nat := 0
  /-- Borrows served by the context's own idle slot. -/
  reused : Nat := 0
  /-- Borrows served by another context's idle slot. -/
  stolen : Nat := 0
  /-- Borrows that opened a connection. -/
  created : Nat := 0
  /-- Explicit releases. -/
  released : Nat := 0
  /-- Explicit closes. -/
  closed : Nat := 0
  /-- Slots forced back to idle after the borrow timeout. -/
  evictedReleased : Nat := 0
  /-- Slots closed by the idle timeout or the limit. -/
  evictedClosed : Nat := 0
  /-- Borrows refused at the limit. -/
  overLimit : Nat := 0
  /-- Disconnects that reported an error. -/
  disconnectFailures : Nat := 0
  deriving DecidableEq, Inhabited

/-- The ledger together with what is registered right now. -/
structure Metrics extends Ledger where
  identities : Nat := 0
  openConnections : Nat := 0
  borrowedConnections : Nat := 0
  deriving DecidableEq, Inhabited

namespace Metrics

/-- The metrics of a ledger and the statistics of a registry. -/
def ofStatistics (l : Ledger) (statistics : List IdentityStatistics) : Metrics where
  toLedger := l
  identities := statistics.length
  openConnections := IdentityStatistics.total (·.contexts) statistics
  borrowedConnections := IdentityStatistics.total (·.borrowed) statistics

/-- Registered slots that are not lent out. -/
def idleConnections (m : Metrics) : Nat := m.openConnections - m.borrowedConnections

/-- Every metric by name, in declaration order. -/
def fields (m : Metrics) : List (String × Nat) :=
  [("total_borrowed", m.borrowed), ("total_reused", m.reused), ("total_stolen", m.stolen),
    ("total_created", m.created), ("total_released", m.released), ("total_closed", m.closed),
    ("evicted_released", m.evictedReleased), ("evicted_closed", m.evictedClosed),
    ("over_limit_rejections", m.overLimit), ("disconnect_failures", m.disconnectFailures),
    ("identities", m.identities), ("open_connections", m.openConnections),
    ("borrowed_connections", m.borrowedConnections)]

/-- The metrics with their values as text. -/
def exported (m : Metrics) : List (String × String) := m.fields.map fun f => (f.1, toString f.2)

def json (m : Metrics) : String := Text.Json.object m.exported

end Metrics

end ConnectionLeasing
