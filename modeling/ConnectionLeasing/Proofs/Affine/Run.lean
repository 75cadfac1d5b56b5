import ConnectionLeasing.Affine.Operation

/-!
# Runs of a context-affine manager

A `System` is a manager with the operations it has in progress, each waiting at a call, and with
everything that has been seen of the run so far. `Moves` is one move of a run: an operation starts,
goes on with the answer to its call, or is ended by an observer that fails; an observer is attached;
time passes.

Which operations may move while others wait is a parameter, an `Overlap`:

* `Overlap.any`: every operation may move while any other waits.
* `Overlap.calm`: checks and disconnects do not call back, so nothing moves while one is answered;
  while a connection opens, or an observer is being told, everything may.
* `Overlap.sparing i`: moreover nobody closes everything while a connection of `i` opens.
* `Overlap.orderly`: nobody closes everything while any connection opens.

A constructor builds a new handle on each call, of the channel it is asked for (`System.Admits`).
-/

namespace ConnectionLeasing

/-- Whether other operations may move while the call is answered. -/
def Call.yields : Call → Bool
  | .check _ | .disconnect _ => false
  | _ => true

/-- Whether the call tells an observer, who may fail. -/
def Call.tells : Call → Bool
  | .visit .. | .tick _ => true
  | _ => false

/-- The handle that an answer has connected, with the identity it is connected to. -/
def Call.opened? : (call : Call) → call.Answer → Option (Identity × Handle)
  | .connect _ i _, c => if c.failure.isNone then some (i, c.handle) else none
  | .visit .., _ => none
  | .tick _, _ => none
  | .check _, _ => none
  | .disconnect _, _ => none

namespace Affine

/-- An operation in progress: what was asked for, and the call it waits for. -/
structure Ongoing where
  command : Command
  frame : Frame

/-- What is seen of a run from outside. -/
inductive Event
  /-- An operation makes a call. -/
  | called (command : Command) (call : Call)
  /-- A call made by an operation is answered. -/
  | answered (command : Command) (call : Call) (answer : call.Answer)
  /-- An operation ends. -/
  | returned (command : Command) (result : Result)

namespace Event

/-- The handle that is built. -/
def built? : Event → Option Handle
  | answered _ (.connect ..) c => some c.handle
  | _ => none

/-- The handle that is connected, with the identity it is connected to. -/
def opened? : Event → Option (Identity × Handle)
  | answered _ call answer => call.opened? answer
  | _ => none

/-- The handle that is asked to disconnect. -/
def disconnected? : Event → Option Handle
  | called _ (.disconnect h) => some h
  | _ => none

/-- The handle that is lent. -/
def lent? : Event → Option Handle
  | returned _ (.lent h) => some h
  | _ => none

end Event

/-- The operation that is still in progress after a move, if any. -/
def left (k : Command) : Progress Frame Result → List Ongoing
  | .paused f => [⟨k, f⟩]
  | .done _ => []

/-- What is seen at the end of a move. -/
def shown (k : Command) : Progress Frame Result → Event
  | .paused f => .called k f.call
  | .done r => .returned k r

structure System where
  state : State
  now : Nat
  /-- The operations in progress; one that has just moved comes first. -/
  ongoing : List Ongoing
  /-- Everything seen so far, in order. -/
  events : List Event

namespace System

/-- A new manager with nothing in progress. -/
def initial (settings : ManagerSettings) (factory : Factory) (now : Nat) : System :=
  ⟨.initial settings factory, now, [], []⟩

/-- Every handle built so far. -/
def built (m : System) : List Handle := m.events.filterMap Event.built?

/-- Every handle connected so far, with the identity it was connected to. -/
def opened (m : System) : List (Identity × Handle) := m.events.filterMap Event.opened?

/-- The handles asked to disconnect so far, once for each time. -/
def disconnected (m : System) : List Handle := m.events.filterMap Event.disconnected?

/-- The handles of an identity that are connected and have not been asked to disconnect. -/
def openFor (m : System) (i : Identity) : List Handle :=
  ((m.opened.filter (·.1 = i)).map (·.2)).filter (· ∉ m.disconnected)

/-- The answers a call can have: a handle that is built is new and of the channel asked for. -/
def Admits (m : System) : (call : Call) → call.Answer → Prop
  | .connect channel _ _, c => c.handle ∉ m.built ∧ c.handle.channel = channel
  | .visit .., _ => True
  | .tick _, _ => True
  | .check _, _ => True
  | .disconnect _, _ => True

/-- The system after an operation has moved: it saw `seen` on the way, and `rest` did not move. -/
def moved (m : System) (k : Command) (seen : List Event) (rest : List Ongoing) (step : Step) :
    System :=
  { m with
    state := step.1
    ongoing := left k step.2 ++ rest
    events := m.events ++ seen ++ [shown k step.2] }

/-- The system after an operation has started. -/
def started (m : System) (k : Command) : System :=
  m.moved k [] m.ongoing (start m.state m.now k)

/-- The system after an operation has gone on with the answer to its call. -/
def resumed (m : System) (o : Ongoing) (a : o.frame.call.Answer) (rest : List Ongoing) : System :=
  m.moved o.command [.answered o.command o.frame.call a] rest (resume m.state m.now o.frame a)

end System

/-- Whether an operation may move while another waits for the answer to a call. -/
abbrev Overlap := Call → Command → Prop

namespace Overlap

def any : Overlap := fun _ _ => True

def calm : Overlap := fun call _ => call.yields

def sparing (i : Identity) : Overlap := fun call k =>
  call.yields ∧ ∀ channel timeout, call = .connect channel i timeout → k ≠ .closeAll

def orderly : Overlap := fun call k => ∀ i, sparing i call k

end Overlap

/-- One move of a run, with the operation that moves, if any. -/
inductive Moves (may : Overlap) : System → Option Command → System → Prop
  /-- An operation starts. -/
  | start (m : System) (k : Command) (h : ∀ o ∈ m.ongoing, may o.frame.call k) :
      Moves may m (some k) (m.started k)
  /-- An operation goes on. -/
  | resume (m : System) (before : List Ongoing) (o : Ongoing) (later : List Ongoing)
      (a : o.frame.call.Answer) (hm : m.ongoing = before ++ o :: later)
      (h : ∀ p ∈ before ++ later, may p.frame.call o.command) (ha : m.Admits o.frame.call a) :
      Moves may m (some o.command) (m.resumed o a (before ++ later))
  /-- An operation ends because an observer fails. -/
  | fail (m : System) (before : List Ongoing) (o : Ongoing) (later : List Ongoing)
      (hm : m.ongoing = before ++ o :: later)
      (h : ∀ p ∈ before ++ later, may p.frame.call o.command) (ho : o.frame.call.tells) :
      Moves may m (some o.command) { m with ongoing := before ++ later }
  /-- An observer is attached. -/
  | attach (m : System) (o : Observer) :
      Moves may m none
        { m with state := { m.state with observers := m.state.observers ++ [o] } }
  /-- Time passes. -/
  | pass (m : System) (t : Nat) (h : m.now ≤ t) : Moves may m none { m with now := t }

/-- The systems a manager gets to under an overlap. -/
inductive Reachable (may : Overlap) : System → Prop
  | initial (settings : ManagerSettings) (factory : Factory) (now : Nat) :
      Reachable may (.initial settings factory now)
  | next {m m' : System} {k : Option Command} :
      Reachable may m → Moves may m k m' → Reachable may m'

theorem Moves.mono {may must : Overlap} (h : ∀ call k, may call k → must call k) {m m' : System}
    {k : Option Command} (hm : Moves may m k m') : Moves must m k m' := by
  cases hm with
  | start k hk => exact .start m k fun o ho => h _ _ (hk o ho)
  | resume before o later a hm ho ha =>
    exact .resume m before o later a hm (fun p hp => h _ _ (ho p hp)) ha
  | fail before o later hm ho ht => exact .fail m before o later hm (fun p hp => h _ _ (ho p hp)) ht
  | attach o => exact .attach m o
  | pass t ht => exact .pass m t ht

theorem Reachable.mono {may must : Overlap} (h : ∀ call k, may call k → must call k) {m : System}
    (hm : Reachable may m) : Reachable must m := by
  induction hm with
  | initial settings factory now => exact .initial settings factory now
  | next _ hstep ih => exact .next ih (hstep.mono h)

end Affine

end ConnectionLeasing
