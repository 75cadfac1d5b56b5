import ConnectionLeasing.Observer
import ConnectionLeasing.Time

/-!
# What happens to schedules

A chronicle says in order, and with its moment, what was done to each schedule and what its tasks
did: schedules are made, given a period, switched and stopped, and their ticks begin and end. It
also says which observers were shown a tick, on a schedule or off it.
-/

namespace ConnectionLeasing

/-- A tick of a task: of which schedule, of which of its tasks, and when it began. -/
structure Tick where
  schedule : Nat
  task : Nat
  moment : Nat
  deriving DecidableEq

inductive Happening
  /-- There is a new schedule, switched off. -/
  | added (schedule : Nat) (period : Duration)
  /-- A period is stored for the next task. -/
  | stored (schedule : Nat) (period : Duration)
  /-- Inspections are switched on or off; a fault may keep the task from starting. -/
  | switched (schedule : Nat) (enabled : Bool) (fault : Option String)
  | stopped (schedule : Nat)
  /-- A tick begins, for the observers that are attached then. -/
  | began (tick : Tick) (observers : List Observer)
  /-- An observer from outside is shown a tick. -/
  | shown (observer : Recorder)
  /-- A tick ends, with the message of what ended it early. -/
  | ended (tick : Tick) (failure : Option String)
  deriving DecidableEq

structure Happened where
  moment : Nat
  what : Happening
  deriving DecidableEq

end ConnectionLeasing
