import ConnectionLeasing.Observer
import ConnectionLeasing.Retention

/-!
# The journal

What managers and pools report of their work. A notice is a value of the domain; its line has a
level, a message and named fields. Identities appear by their short text or by host, port and user
only, so no line shows a password.
-/

namespace ConnectionLeasing

inductive Level
  | debug
  | info
  | error
  deriving DecidableEq

def Level.name : Level → String
  | debug => "debug"
  | info => "info"
  | error => "error"

/-- One line of the journal. -/
structure JournalLine where
  level : Level
  message : String
  fields : List (String × String)

/-- The fields, each as `name=value`. -/
def JournalLine.text (l : JournalLine) : String :=
  " ".intercalate (l.fields.map fun f => f.1 ++ "=" ++ f.2)

/-- The counts of one pool. -/
structure PoolStatistics where
  host : String
  port : Nat
  username : String
  channel : Channel
  idle : Nat
  active : Nat
  max : Nat
  deriving DecidableEq, Inhabited, Ord

/-- One thing worth reporting. -/
inductive Notice
  -- borrowing
  | ownUnusable (identity : Identity) (context : ContextId)
  | ownOfAnotherKind (identity : Identity) (context : ContextId) (channel : Channel)
  | reused (identity : Identity) (context : ContextId)
  | tookOver (identity : Identity) (source target : ContextId)
  | registered (identity : Identity) (context : ContextId) (channel : Channel)
  | tooMany (identity : Identity) (context : ContextId) (current max : Nat)
  | unsupported (channel : Channel)
  | opened (identity : Identity) (channel : Channel)
  -- giving back
  | nothingToRelease (identity : Identity) (context : ContextId)
  | released (identity : Identity) (context : ContextId)
  | nothingToClose (identity : Identity) (context : ContextId)
  | disconnectFailed (identity : Identity) (context : ContextId) (error : LeaseError)
  | removed (identity : Identity) (context : ContextId)
  | closedAll (closed : Nat)
  -- inspecting
  | borrowTimedOut (identity : Identity) (context : ContextId)
  | idleTimedOut (identity : Identity) (context : ContextId)
  | inspected (identity : Identity) (context : ContextId) (verdict : Verdict)
  | swept (identity : Identity) (report : SweepReport) (remaining : Nat)
  | forgot (identity : Identity)
  -- pools
  | staleObject (pool : String) (id : Nat)
  | createdObject (pool : String) (id : Nat)
  | evictedObjects (pool : String) (evicted : Nat)
  | poolDisconnectFailed (identity : Identity) (channel : Channel) (error : LeaseError)
  | createdPool (identity : Identity) (channel : Channel)
  | evictedConnections (evicted : Nat)
  | releasedByDropping (identity : Identity) (context : ContextId)
  | closedPools (identity : Identity) (context : ContextId) (destroyed : Nat)
  | poolsShutDown (destroyed : Nat)
  -- observing
  | managerCall (announcement : Announcement)
  | connectionSummary (identities slots : Nat)
  | identityConnections (host : String) (port : Nat) (username : String) (contexts borrowed : Nat)
  | poolSummary (pools : Nat)
  | poolConnections (statistics : PoolStatistics)
  | poolState (identity : Identity) (statistics : PoolStatistics)
  -- scheduling
  | scheduleStarted (period : Duration)
  | scheduleFailed (fault : String)
  | scheduleStopped
  | tickPanicked
  | autoInspection (enabled : Bool)

namespace Notice

/-- The field of an identity's short text. -/
def who (i : Identity) : String × String := ("identity", i.display)

def host (i : Identity) : String × String := ("host", i.host)

def port (i : Identity) : String × String := ("port", toString i.port)

def context (c : ContextId) : String × String := ("context", c.display)

def kind (c : Channel) : String × String := ("kind", c.name)

/-- The line of a notice. -/
def line : Notice → JournalLine
  | ownUnusable i c => ⟨.debug, "own connection is no longer valid", [who i, context c]⟩
  | ownOfAnotherKind i c k =>
    ⟨.debug, "own connection is of another kind", [who i, context c, kind k]⟩
  | reused i c => ⟨.debug, "reused own connection", [who i, context c]⟩
  | tookOver i a b =>
    ⟨.debug, "took over idle connection", [who i, ("from", a.display), ("to", b.display)]⟩
  | registered i c k => ⟨.debug, "registered new connection", [who i, context c, kind k]⟩
  | tooMany i c current max =>
    ⟨.error, "too many connections",
      [who i, context c, ("current", toString current), ("max", toString max)]⟩
  | unsupported k => ⟨.error, "connection kind is not supported", [kind k]⟩
  | opened i k => ⟨.debug, "opened connection", [host i, port i, kind k]⟩
  | nothingToRelease i c => ⟨.info, "no connection to release", [who i, context c]⟩
  | released i c => ⟨.debug, "released connection", [who i, context c]⟩
  | nothingToClose i c => ⟨.info, "no connection to close", [who i, context c]⟩
  | disconnectFailed i c e =>
    ⟨.error, "failed to disconnect", [host i, context c, ("error", e.message)]⟩
  | removed i c => ⟨.info, "connection removed", [host i, port i, context c]⟩
  | closedAll n => ⟨.info, "closed all connections", [("closed", toString n)]⟩
  | borrowTimedOut i c => ⟨.debug, "borrow timed out, released to idle", [host i, context c]⟩
  | idleTimedOut i c => ⟨.debug, "idle timed out, closed", [host i, context c]⟩
  | inspected i c v => ⟨.debug, "inspected slot", [who i, context c, ("verdict", v.debug)]⟩
  | swept i r remaining =>
    ⟨.debug, "swept connections",
      [host i, port i, ("released", toString r.released), ("closed_idle", toString r.closedIdle),
        ("closed_over_limit", toString r.closedSurplus), ("remaining", toString remaining)]⟩
  | forgot i => ⟨.debug, "forgot identity without connections", [host i, port i]⟩
  | staleObject pool id =>
    ⟨.debug, "discarding stale pooled object", [("pool", pool), ("id", toString id)]⟩
  | createdObject pool id =>
    ⟨.debug, "created pooled object", [("pool", pool), ("id", toString id)]⟩
  | evictedObjects pool n =>
    ⟨.debug, "evicted idle pooled objects", [("pool", pool), ("evicted", toString n)]⟩
  | poolDisconnectFailed i k e =>
    ⟨.error, "failed to disconnect pooled connection", [who i, kind k, ("error", e.message)]⟩
  | createdPool i k => ⟨.debug, "created connection pool", [who i, kind k]⟩
  | evictedConnections n => ⟨.debug, "evicted idle pooled connections", [("evicted", toString n)]⟩
  | releasedByDropping i c =>
    ⟨.info, "pooled connections are released by dropping them", [who i, context c]⟩
  | closedPools i c n =>
    ⟨.info, "closed connection pools", [who i, context c, ("destroyed", toString n)]⟩
  | poolsShutDown n => ⟨.info, "pooled connection manager shut down", [("destroyed", toString n)]⟩
  | managerCall a =>
    ⟨.debug, "manager call", [("operation", a.operation.name), who a.identity, context a.context]⟩
  | connectionSummary identities slots =>
    ⟨.debug, "connection summary",
      [("identities", toString identities), ("slots", toString slots)]⟩
  | identityConnections h p u contexts borrowed =>
    ⟨.debug, "identity connections", [("host", h), ("port", toString p), ("username", u),
      ("contexts", toString contexts), ("borrowed", toString borrowed)]⟩
  | poolSummary n => ⟨.debug, "pool summary", [("pools", toString n)]⟩
  | poolConnections s =>
    ⟨.debug, "pool connections", [("host", s.host), ("port", toString s.port), kind s.channel,
      ("idle", toString s.idle), ("active", toString s.active), ("max", toString s.max)]⟩
  | poolState i s =>
    ⟨.debug, "pool state",
      [who i, kind s.channel, ("idle", toString s.idle), ("active", toString s.active)]⟩
  | scheduleStarted period => ⟨.info, "scheduled inspection started", [("period", period.text)]⟩
  | scheduleFailed fault =>
    ⟨.error, "failed to start scheduled inspection", [("error", fault)]⟩
  | scheduleStopped => ⟨.info, "scheduled inspection stopped", []⟩
  | tickPanicked => ⟨.error, "scheduled inspection panicked", []⟩
  | autoInspection enabled =>
    ⟨.debug, "auto inspection changed", [("enabled", Text.bool enabled)]⟩

end Notice

/-- Notices in the order in which they were made. -/
abbrev Journal := Array Notice

end ConnectionLeasing
