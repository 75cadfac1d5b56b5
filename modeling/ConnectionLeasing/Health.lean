import ConnectionLeasing.Number.Binary64
import ConnectionLeasing.Registry

/-!
# Health

A report on the statistics of a manager: one warning for each identity at its limit, in the order
of the statistics, and one more when the slots in use come too close to the capacity of all known
identities. A manager is unhealthy when an identity has nothing left to lend or when utilisation is
too high.

Sums and capacity are computed in machine words, and there is no report if one of them does not fit;
the utilisation is a double-precision quotient.
-/

namespace ConnectionLeasing

structure HealthStatus where
  healthy : Bool
  utilization : Number.Binary64
  identities : Nat
  openConnections : Nat
  borrowedConnections : Nat
  maxPerIdentity : Nat
  warnings : List String
  deriving DecidableEq

/-- A number of a report is too large for a machine word. -/
inductive Overflow
  | sum
  | product
  deriving DecidableEq

def Overflow.message : Overflow → String
  | sum => "attempt to add with overflow"
  | product => "attempt to multiply with overflow"

namespace HealthStatus

/-- Utilisation above this is a warning: nine tenths, in double precision. -/
def highUtilization : Number.Binary64 := .ofRatio 9 10

/-- Room for connections over all identities. -/
def capacity (identities max : Nat) : Nat := identities * max

/-- Connections over capacity, both in double precision; zero without capacity. -/
def utilizationOf (connections capacity : Nat) : Number.Binary64 :=
  if capacity = 0 then .zero else (Number.Binary64.ofNat connections).div (.ofNat capacity)

/-- An identity that may not open another connection. -/
def atLimit (max : Nat) (s : IdentityStatistics) : Bool := max ≤ s.contexts

/-- An identity at its limit with every connection lent out. -/
def exhausted (max : Nat) (s : IdentityStatistics) : Bool := atLimit max s && max ≤ s.borrowed

def limitWarning (max : Nat) (s : IdentityStatistics) : String :=
  s!"{s.username}@{s.host}:{s.port} is at its connection limit ({s.contexts}/{max})"

def utilizationWarning (utilization : Number.Binary64) : String :=
  s!"High utilization: {(utilization.mul (.ofNat 100)).oneDecimal}%"

/-- What there is to report on a list of statistics under a limit per identity. -/
def ofStatistics (statistics : List IdentityStatistics) (max : Nat) : HealthStatus :=
  let connections := IdentityStatistics.total (·.contexts) statistics
  let utilization := utilizationOf connections (capacity statistics.length max)
  let high := highUtilization.lt utilization
  { healthy := !high && !statistics.any (exhausted max)
    utilization
    identities := statistics.length
    openConnections := connections
    borrowedConnections := IdentityStatistics.total (·.borrowed) statistics
    maxPerIdentity := max
    warnings := (statistics.filter (atLimit max)).map (limitWarning max) ++
      (if high then [utilizationWarning utilization] else []) }

/-- Whether the connections, all and lent ones, can be counted in machine words. -/
def CountsFit (statistics : List IdentityStatistics) : Prop :=
  IdentityStatistics.total (·.contexts) statistics < UInt64.size ∧
    IdentityStatistics.total (·.borrowed) statistics < UInt64.size

instance (statistics : List IdentityStatistics) : Decidable (CountsFit statistics) :=
  inferInstanceAs (Decidable (_ ∧ _))

/-- The report, or what stands in its way. -/
def report (statistics : List IdentityStatistics) (max : Nat) : Except Overflow HealthStatus :=
  if CountsFit statistics then
    if capacity statistics.length max < UInt64.size then .ok (ofStatistics statistics max)
    else .error .product
  else .error .sum

def warningCount (h : HealthStatus) : Nat := h.warnings.length

def idleConnections (h : HealthStatus) : Nat := h.openConnections - h.borrowedConnections

end HealthStatus

end ConnectionLeasing
