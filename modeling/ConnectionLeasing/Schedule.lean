import ConnectionLeasing.Journal

/-!
# The schedule of inspections

At most one task is live at a time. It ticks one period after it was started and then one period
after each tick has ended; while a tick runs the task is not due. Starting anew replaces the task,
with the period stored at that moment; changing the stored period leaves a live task alone.

A task needs a thread of its own, which may be refused. Inspections are then switched on all the
same, and there is no task.

Tasks of different schedules can be due at the same moment. The one whose wait began first goes
first, so each wait takes a turn from a common counter; a task is known by its first turn.

* `stop_task`, `setEnabled_task`: when a task is live.
* `endTick_of_replaced`: a tick that ends after its task was replaced changes nothing.
-/

namespace ConnectionLeasing

/-- A live schedule. -/
structure Task where
  id : Nat
  period : Duration
  /-- The moment of the next tick; none while a tick runs. -/
  due : Option Nat
  /-- When the present wait began, among all waits. -/
  turn : Nat
  deriving DecidableEq, Inhabited

structure Schedule where
  /-- The period of the next task. -/
  period : Duration
  /-- Whether inspections are switched on. -/
  enabled : Bool := false
  task : Option Task := none
  deriving DecidableEq, Inhabited

namespace Schedule

/-- Cancels the live task, if any, and leaves inspections switched off. -/
def stop (s : Schedule) : Schedule := { s with enabled := false, task := none }

/-- What is reported when a task is cancelled. -/
def stopNotices (s : Schedule) : List Notice := if s.task.isSome then [.scheduleStopped] else []

/-- Cancels the live task and, to switch on, starts a new one, unless a fault keeps it from starting;
its first wait has the given turn. -/
def setEnabled (s : Schedule) (now turn : Nat) (enabled : Bool) (fault : Option String) :
    Schedule :=
  { s with
    enabled
    task :=
      if enabled && fault.isNone then some ⟨turn, s.period, some (s.period.after now), turn⟩
      else none }

/-- What is reported when a task is started, or a fault keeps it from starting. -/
def startNotice (s : Schedule) : Option String → Notice
  | none => .scheduleStarted s.period
  | some fault => .scheduleFailed fault

/-- What is reported when inspections are switched on or off. -/
def setEnabledNotices (s : Schedule) (enabled : Bool) (fault : Option String) : List Notice :=
  s.stopNotices ++ (if enabled then [s.startNotice fault] else []) ++ [.autoInspection enabled]

/-- Stores the period of the next task. -/
def setPeriod (s : Schedule) (period : Duration) : Schedule := { s with period }

/-- The moment of the next tick. -/
def due? (s : Schedule) : Option Nat := s.task.bind (·.due)

/-- A tick of the live task begins. -/
def beginTick (s : Schedule) : Schedule :=
  { s with task := s.task.map fun t => { t with due := none } }

/-- A tick of task number `id` ends. If the task is still live, its next wait begins. -/
def endTick (s : Schedule) (id now turn : Nat) : Schedule :=
  { s with
    task := s.task.map fun t =>
      if t.id = id then { t with due := some (t.period.after now), turn } else t }

theorem stop_task (s : Schedule) : s.stop.task = none := rfl

theorem setEnabled_task (s : Schedule) (now turn : Nat) (enabled : Bool) (fault : Option String) :
    (s.setEnabled now turn enabled fault).task.isSome = (enabled && fault.isNone) := by
  cases enabled <;> cases fault <;> rfl

theorem endTick_of_replaced {s : Schedule} {id : Nat} (h : ∀ t ∈ s.task, t.id ≠ id)
    (now turn : Nat) : s.endTick id now turn = s := by
  cases s with
  | mk period enabled task =>
    cases task with
    | none => rfl
    | some t => simp [endTick, h t (by simp)]

end Schedule

end ConnectionLeasing
