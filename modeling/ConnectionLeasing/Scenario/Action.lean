import ConnectionLeasing.Health
import ConnectionLeasing.Ledger
import ConnectionLeasing.Scenario.Backend
import ConnectionLeasing.Scenario.View

/-!
# Actions, replies and events

A scenario is a list of actions on named things: managers, pools, monitors and factories. Each
action has a reply; what happens to the simulated connections and observers meanwhile is a list of
events.
-/

namespace ConnectionLeasing.Scenario

/-- The constructors of a factory: those of a factory thing, or a list. -/
structure Recipe where
  named : Option String
  constructors : List (Channel × Channel)

/-- How a manager is set up. -/
structure Setup where
  settings : ManagerSettings
  recipe : Recipe

/-- What a bare monitor watches: what the manager of a name works on, or something new if there is
no such manager. -/
structure Watched where
  manager : String
  /-- Whether something new is a directory; it is a registry otherwise. -/
  directory : Bool

inductive Action
  -- making things
  | basic (name : String) (setup : Setup)
  | pooled (name : String) (setup : Setup)
  | pool (name title : String) (max : Option Nat) (idleTimeout : Option Duration)
  | monitor (name : String) (watched : Watched) (period : Duration)
  | factory (name : String) (recipe : Recipe)
  | register (name : String) (channel produces : Channel)
  | create (name : String) (identity : Identity) (channel : Channel) (timeout : Duration)
  | drop (name : String)
  -- the world
  | advance (span : Duration)
  | later (span : Duration) (actions : List Action)
  | hook (key : String) (actions : List Action)
  | connectFault (fault : Option Fault)
  | disconnectFault (fault : Option LeaseError)
  | setHandle (number : Nat) (valid closed connected : Option Bool)
  | enter (context : ContextId)
  | current
  -- managers and pools
  | borrow (name : String) (identity : Identity) (channel : Channel) (context : Option ContextId)
      (guard : String) (wait : Duration)
  | borrowAsync (name : String) (identity : Identity) (channel : Channel) (guard : String)
      (wait : Duration)
  | tryBorrow (name guard : String)
  | giveBack (guard : String)
  | release (name : String) (identity : Identity) (context : Option ContextId)
  | close (name : String) (identity : Identity) (context : Option ContextId)
  | sweep (name : String)
  | inspect (name : String)
  | closeAll (name : String)
  | shutdown (name : String)
  | evictIdle (name : String)
  | closeIdentity (name : String) (identity : Identity)
  | statisticsFor (name : String) (identity : Identity)
  | info (name : String)
  | serialized (name : String)
  | health (name : String)
  | metrics (name : String)
  | exposition (name manager : String) (tags : List (String × String))
  -- monitors
  | attach (name : String) (observer : Observer)
  | notify (name : String) (announcement : Announcement)
  | tick (name : String)
  | setAuto (name : String) (enabled : Bool)
  | setPeriod (name : String) (period : Duration)
  | stop (name : String)
  -- registries
  | slot (name : String) (identity : Identity) (context : ContextId) (keep : String) (quiet : Bool)
  | remove (name : String) (identity : Identity) (context : ContextId) (keep : String)
      (quiet : Bool)
  | put (name : String) (identity : Identity) (context : ContextId) (slot keep : String)
      (quiet : Bool)
  | slotInfo (slot : String)
  | entry (name : String) (identity : Identity)
  | registry (name : String) (identity : Identity)

namespace Action

/-- The name of an action in events. -/
def name : Action → String
  | basic .. => "basic"
  | pooled .. => "pooled"
  | pool .. => "pool"
  | monitor .. => "monitor"
  | factory .. => "factory"
  | register .. => "register"
  | create .. => "create"
  | drop .. => "drop"
  | advance .. => "advance"
  | later .. => "later"
  | hook .. => "hook"
  | connectFault .. => "connect_error"
  | disconnectFault .. => "disconnect_error"
  | setHandle .. => "set_handle"
  | enter .. => "enter"
  | current => "current"
  | borrow .. => "borrow"
  | borrowAsync .. => "borrow_async"
  | tryBorrow .. => "try_borrow"
  | giveBack .. => "return"
  | release .. => "release"
  | close .. => "close"
  | sweep .. => "sweep"
  | inspect .. => "inspect"
  | closeAll .. => "close_all"
  | shutdown .. => "shutdown"
  | evictIdle .. => "evict_idle"
  | closeIdentity .. => "close_identity"
  | statisticsFor .. => "statistics_for"
  | info .. => "info"
  | serialized .. => "serialized"
  | health .. => "health"
  | metrics .. => "metrics"
  | exposition .. => "prometheus"
  | attach .. => "attach"
  | notify .. => "notify"
  | tick .. => "tick"
  | setAuto .. => "set_auto"
  | setPeriod .. => "set_period"
  | stop .. => "stop"
  | slot .. => "slot"
  | remove .. => "remove"
  | put .. => "put"
  | slotInfo .. => "slot_info"
  | entry .. => "entry"
  | registry .. => "registry"

/-- The name of the thing that an action works with for as long as it runs. -/
def subject? : Action → Option String
  | borrow name .. => some name
  | borrowAsync name .. => some name
  | tryBorrow name _ => some name
  | release name .. => some name
  | close name .. => some name
  | sweep name => some name
  | inspect name => some name
  | closeAll name => some name
  | shutdown name => some name
  | evictIdle name => some name
  | closeIdentity name _ => some name
  | notify name _ => some name
  | tick name => some name
  | _ => none

mutual

/-- How many actions an action consists of, itself included. -/
def weight : Action → Nat
  | later _ actions => weights actions + 1
  | hook _ actions => weights actions + 1
  | _ => 1

/-- How many actions a list consists of. -/
def weights : List Action → Nat
  | [] => 0
  | a :: actions => a.weight + weights actions

end

end Action

/-- What an action answers. -/
inductive Reply
  | nothing
  | flag (b : Bool)
  | number (n : Nat)
  | text (s : String)
  | texts (list : List String)
  | lent (handle : Nat)
  | guarded (handle id : Nat)
  /-- A handle went back to the pool of a manager. -/
  | returnedConnection (id : Nat) (channel : Channel)
  /-- An object went back to a bare pool. -/
  | returnedObject (id handle : Nat)
  | failed (error : LeaseError)
  | panicked (message : String)
  | created (handle : Nat) (channel : Channel) (valid closed : Bool)
  | probed (valid closed : Bool)
  | swept (report : SweepReport)
  | slot (view : SlotView)
  | entry (size : Nat) (vacant : Bool) (pending : Nat) (slots : List (ContextId × SlotView))
  | registry (size : Nat) (vacant : Bool) (totalSlots slotCount : Nat)
  | statistics (rows : List PoolStatistics) (pools : Nat) (vacant : Bool)
  | health (status : HealthStatus)
  | metrics (m : Metrics)

/-- What an observer sees of its target. -/
inductive Sight
  | registry (identities slots : Nat)
  | directory (pools : Nat)

inductive Event
  | connect (handle : Nat) (channel : Channel) (identity : Identity) (timeout : Duration)
  | disconnect (handle : Nat)
  | hook (key : String)
  | later (moment : Nat)
  /-- An action of a hook, or one that was put off, ran. -/
  | did (action : String) (reply : Reply)
  | visit (observer : String) (announcement : Announcement) (sight : Sight)
  | tick (observer : String) (sight : Sight)

end ConnectionLeasing.Scenario
