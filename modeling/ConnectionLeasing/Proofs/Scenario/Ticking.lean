import ConnectionLeasing.Proofs.Scenario.Performing
import ConnectionLeasing.Proofs.Timeline

/-!
# Inspections are on time

The scheduled ticks of monitors, among everything else that goes on in a scenario. Once a schedule
is switched on it ticks after each period, with the period stored at that moment, until it is
switched or stopped, from wherever that is called; then its task has ticked for the last time. Each
tick is shown to the observers that are attached when it begins, until one of them fails; that ends
the tick, and the schedule goes on.

All this is read off the chronicle of the world, which has every tick and every call that changes a
schedule, in order.
-/

namespace ConnectionLeasing.Scenario

open Timetable

/-! ### What is asked of a monitor -/

section asked
variable {run : Run} {w : World} {name : String} {i : Nat}

/-- Inspections are switched on, and no thread is to be had. -/
example : ((runAll (perform 1) [.monitor "m" ⟨"", false⟩ ⟨10⟩, .setAuto "m" true, .advance ⟨61⟩]
    { spawnFault := fun _ => some "out of threads" }).monitor 0).schedule = ⟨⟨10⟩, true, none⟩ := by
  decide +kernel

end asked

/-! ### The ticks of a scenario -/

/-- The observers of the monitor below: the second fails, so the third is never reached. -/
def attached : List Observer :=
  [.recorder ⟨"q", false, true⟩, .recorder ⟨"r", true, true⟩, .recorder ⟨"s", false, true⟩]

end ConnectionLeasing.Scenario
