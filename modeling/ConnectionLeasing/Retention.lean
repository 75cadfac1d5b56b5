import ConnectionLeasing.Settings

/-!
# Retention: how long a slot may stay borrowed or idle

The timeout rules, the verdict they give on one slot, and the report of a sweep. Both timeouts are
exceeded only strictly: at the very moment a timeout is reached the slot is still kept.
-/

namespace ConnectionLeasing

/-- Timeouts and the limit that slots are held to. -/
structure RetentionPolicy where
  borrowTimeout : Duration
  idleTimeout : Duration
  maxConnections : Nat
  deriving DecidableEq, Inhabited

/-- What the timeout rules say about one slot. -/
inductive Verdict
  /-- Leave the slot alone. -/
  | keep
  /-- The borrow timed out: back to idle. -/
  | release
  /-- The idle time ran out: disconnect and remove. -/
  | close
  deriving DecidableEq, Inhabited

def Verdict.debug : Verdict → String
  | keep => "Keep"
  | release => "Release"
  | close => "Close"

/-- The retention rules a manager's settings ask for. -/
def ManagerSettings.retention (s : ManagerSettings) : RetentionPolicy :=
  ⟨s.borrowTimeout, s.idleTimeout, s.maxConnections⟩

namespace RetentionPolicy

def borrowExpired (p : RetentionPolicy) (borrowTime now : Nat) : Bool :=
  p.borrowTimeout.nanos < (Duration.elapsed now borrowTime).nanos

def idleExpired (p : RetentionPolicy) (releaseTime now : Nat) : Bool :=
  p.idleTimeout.nanos < (Duration.elapsed now releaseTime).nanos

theorem borrowExpired_iff (p : RetentionPolicy) (borrowTime now : Nat) :
    p.borrowExpired borrowTime now ↔ borrowTime + p.borrowTimeout.nanos < now := by
  rw [borrowExpired, decide_eq_true_iff, Duration.lt_elapsed_iff]

theorem idleExpired_iff (p : RetentionPolicy) (releaseTime now : Nat) :
    p.idleExpired releaseTime now ↔ releaseTime + p.idleTimeout.nanos < now := by
  rw [idleExpired, decide_eq_true_iff, Duration.lt_elapsed_iff]

/-- The verdict on a slot with the given flag and times. -/
def verdict (p : RetentionPolicy) (borrowed : Bool) (borrowTime releaseTime now : Nat) : Verdict :=
  if borrowed then
    if p.borrowExpired borrowTime now then .release else .keep
  else if p.idleExpired releaseTime now then .close
  else .keep

def debug (p : RetentionPolicy) : String :=
  Text.record "EvictionPolicy" [("borrow_timeout", p.borrowTimeout.text),
    ("idle_timeout", p.idleTimeout.text), ("max_connections", toString p.maxConnections)]

end RetentionPolicy

/-- What a sweep did. -/
structure SweepReport where
  /-- Borrowed slots released after the borrow timeout. -/
  released : Nat := 0
  /-- Idle slots closed after the idle timeout. -/
  closedIdle : Nat := 0
  /-- Idle slots closed to get back under the limit. -/
  closedSurplus : Nat := 0
  deriving DecidableEq, Inhabited

namespace SweepReport

def closed (r : SweepReport) : Nat := r.closedIdle + r.closedSurplus

/-- Two sweeps taken together. -/
def merge (a b : SweepReport) : SweepReport :=
  ⟨a.released + b.released, a.closedIdle + b.closedIdle, a.closedSurplus + b.closedSurplus⟩

end SweepReport

end ConnectionLeasing
