import ConnectionLeasing.Pooled.Operation
import ConnectionLeasing.Proofs.Affine.Run
import ConnectionLeasing.Proofs.Life

/-!
# Runs of a pooled manager

As for a context-affine manager, a `System` is a manager with the operations it has in progress and
with everything that has been seen of the run so far; beyond that it has the guards that keep lent
objects, each with the number of the pool it goes back to. `Moves` is one move of a run. Any
operation may move while others wait, whatever they wait for.

A borrow finds its pool and then tries to borrow from it. The tries of a borrower who waits, and
what others do while it sleeps, are moves of the run as well.
-/

namespace ConnectionLeasing.Pooled

/-- An operation in progress: what was asked for, and the call it waits for. -/
structure Ongoing where
  command : Command
  frame : Frame

/-- What is seen of a run from outside. -/
inductive Event
  /-- An operation makes a call. -/
  | called (command : Command) (call : Call)
  /-- A call made by an operation is answered. -/
  | answered (command : Command) (call : Call) (answer : call.Answer)
  /-- An operation ends. -/
  | returned (command : Command) (result : Result)

namespace Event

/-- The handle that is built. -/
def built? : Event → Option Handle
  | answered _ (.connect ..) c => some c.handle
  | _ => none

/-- The handle whose disconnect is through. -/
def gone? : Event → Option Handle
  | answered _ (.disconnect h) _ => some h
  | _ => none

def milestone? : Event → Option Milestone
  | answered _ (.connect ..) c => some c.milestone
  | called _ (.disconnect h) => some (.disconnected h)
  | returned _ (.pool (.lent x)) => some (.lent x.value)
  | _ => none

end Event

/-- The object that is given back, with the number of its pool. -/
def Command.given : Command → List (Nat × Item Handle)
  | .inPool id (.giveBack x) => [(id, x)]
  | _ => []

/-- The operation that is still in progress after a move, if any. -/
def left (k : Command) : Progress Frame Result → List Ongoing
  | .paused f => [⟨k, f⟩]
  | .done _ => []

/-- What is seen at the end of a move. -/
def shown (k : Command) : Progress Frame Result → Event
  | .paused f => .called k f.call
  | .done r => .returned k r

/-- The guard of the object that is lent at the end of a move, if any. -/
def lent : Command → Progress Frame Result → List (Nat × Item Handle)
  | .inPool id _, .done (.pool (.lent x)) => [(id, x)]
  | _, _ => []

structure System where
  state : State
  now : Nat
  /-- The operations in progress; one that has just moved comes first. -/
  ongoing : List Ongoing
  /-- The lent objects that have not been dropped, with the numbers of their pools. -/
  guards : List (Nat × Item Handle)
  /-- Everything seen so far, in order. -/
  events : List Event

namespace System

/-- A new manager with nothing in progress. -/
def initial (settings : ManagerSettings) (factory : Factory) (now : Nat) : System :=
  ⟨.initial settings factory, now, [], [], []⟩

/-- Every handle built so far. -/
def built (m : System) : List Handle := m.events.filterMap Event.built?

/-- The handles that have been disconnected, once for each time. -/
def gone (m : System) : List Handle := m.events.filterMap Event.gone?

/-- What has been seen of handles. -/
def milestones (m : System) : List Milestone := m.events.filterMap Event.milestone?

/-- The answers a call can have: a handle that is built is new and of the channel asked for. -/
def Admits (m : System) : (call : Call) → call.Answer → Prop
  | .connect channel _ _, c => c.handle ∉ m.built ∧ c.handle.channel = channel
  | .visit .., _ => True
  | .tick _, _ => True
  | .check _, _ => True
  | .disconnect _, _ => True

/-- The system after an operation has moved: it saw `seen` on the way, and `rest` did not move. -/
def moved (m : System) (k : Command) (seen : List Event) (rest : List Ongoing)
    (guards : List (Nat × Item Handle)) (step : Step) : System where
  state := step.1
  now := m.now
  ongoing := left k step.2 ++ rest
  guards := lent k step.2 ++ guards
  events := m.events ++ seen ++ [shown k step.2]

/-- The system after an operation has started; `guards` are those it did not take an object from. -/
def started (m : System) (k : Command) (guards : List (Nat × Item Handle)) : System :=
  m.moved k [] m.ongoing guards (start m.state m.now k)

/-- The system after an operation has gone on with the answer to its call. -/
def resumed (m : System) (o : Ongoing) (a : o.frame.call.Answer) (rest : List Ongoing) : System :=
  m.moved o.command [.answered o.command o.frame.call a] rest m.guards
    (resume m.state m.now o.frame a)

end System

inductive Moves : System → System → Prop
  /-- An operation starts. An object that is given back is taken from its guard. -/
  | start (m : System) (k : Command) (guards : List (Nat × Item Handle))
      (hk : m.guards.Perm (k.given ++ guards)) : Moves m (m.started k guards)
  /-- An operation goes on. -/
  | resume (m : System) (before : List Ongoing) (o : Ongoing) (later : List Ongoing)
      (a : o.frame.call.Answer) (hm : m.ongoing = before ++ o :: later)
      (ha : m.Admits o.frame.call a) : Moves m (m.resumed o a (before ++ later))
  /-- An operation ends because an observer fails. -/
  | fail (m : System) (before : List Ongoing) (o : Ongoing) (later : List Ongoing)
      (hm : m.ongoing = before ++ o :: later) (ho : o.frame.call.tells) :
      Moves m { m with ongoing := before ++ later }
  /-- An observer is attached. -/
  | attach (m : System) (o : Observer) :
      Moves m { m with state := { m.state with observers := m.state.observers ++ [o] } }
  /-- Time passes. -/
  | pass (m : System) (t : Nat) (h : m.now ≤ t) : Moves m { m with now := t }

/-- The systems a manager gets to. -/
inductive Reachable : System → Prop
  | initial (settings : ManagerSettings) (factory : Factory) (now : Nat) :
      Reachable (.initial settings factory now)
  | next {m m' : System} : Reachable m → Moves m m' → Reachable m'

end ConnectionLeasing.Pooled
