import ConnectionLeasing.Chronicle
import Mathlib.Data.List.Induction

/-!
# What a chronicle says of schedules

Everything that is to be known of schedules can be read off the chronicle: which ticks have begun,
which of them run, which period is stored, and why a schedule that is switched on has no task. Each
of these grows with the chronicle entry by entry.
-/

namespace ConnectionLeasing

/-- What has happened, in order. -/
abbrev Chronicle := List Happened

namespace Happening

/-- The schedule that is switched or stopped. -/
def resets? : Happening → Option Nat
  | switched i .. | stopped i => some i
  | added .. | stored .. | began .. | shown _ | ended .. => none

/-- The tick that begins. -/
def begun? : Happening → Option Tick
  | began t _ => some t
  | added .. | stored .. | switched .. | stopped _ | shown _ | ended .. => none

/-- The tick that ends. -/
def ended? : Happening → Option Tick
  | ended t _ => some t
  | added .. | stored .. | switched .. | stopped _ | began .. | shown _ => none

/-- The observer that is shown a tick. -/
def shown? : Happening → Option Recorder
  | shown o => some o
  | added .. | stored .. | switched .. | stopped _ | began .. | ended .. => none

/-- The tick that begins or ends. -/
def tick? : Happening → Option Tick
  | began t _ | ended t _ => some t
  | added .. | stored .. | switched .. | stopped _ | shown _ => none

/-- The ticks that run then, if those of `r` ran before. -/
def running (r : List Tick) : Happening → List Tick
  | began t _ => t :: r
  | ended t _ => r.erase t
  | added .. | stored .. | switched .. | stopped _ | shown _ => r

/-- The schedule whose task starts. -/
def starts? : Happening → Option Nat
  | switched i true none => some i
  | switched .. | stopped _ | added .. | stored .. | began .. | shown _ | ended .. => none

/-- The period stored for schedule `i` then, if there is one, and `p` was stored before. -/
def period? (i : Nat) (p : Option Duration) : Happening → Option Duration
  | added j q => if j = i then some q else p
  | stored j q => if j = i then p.map fun _ => q else p
  | switched .. | stopped _ | began .. | shown _ | ended .. => p

/-- What keeps schedule `i` from having a task while it is switched on, if `f` did before. -/
def fault? (i : Nat) (f : Option String) : Happening → Option String
  | switched j on fault => if j = i then (if on then fault else none) else f
  | stopped j | added j _ => if j = i then none else f
  | stored .. | began .. | shown _ | ended .. => f

theorem eq_of_starts? {h : Happening} {i : Nat} (hi : h.starts? = some i) :
    h = .switched i true none := by
  cases h with
  | switched j on fault => cases on <;> cases fault <;> cases hi; rfl
  | added | stored | stopped | began | shown | ended => cases hi

theorem resets?_of_starts? {h : Happening} {i : Nat} (hi : h.starts? = some i) :
    h.resets? = some i := by
  rw [eq_of_starts? hi]
  rfl

theorem begun?_of_resets? {h : Happening} {i : Nat} (hi : h.resets? = some i) :
    h.begun? = none := by
  cases h with
  | began => cases hi
  | added | stored | switched | stopped | shown | ended => rfl

end Happening

namespace Chronicle

/-- The ticks that have begun. -/
def ticks (l : Chronicle) : List Tick := l.filterMap (·.what.begun?)

def ticksOf (l : Chronicle) (i : Nat) : List Tick := l.ticks.filter (·.schedule = i)

/-- The ticks that have begun and not ended. -/
def running (l : Chronicle) : List Tick := l.foldl (fun r h => h.what.running r) []

/-- How many ticks of a task are running. -/
def runningOf (l : Chronicle) (i id : Nat) : Nat :=
  l.running.countP fun t => t.schedule = i ∧ t.task = id

/-- The observers that were shown a tick. -/
def shown (l : Chronicle) : List Recorder := l.filterMap (·.what.shown?)

/-- The period stored for the next task of a schedule, if there is such a schedule. -/
def period? (l : Chronicle) (i : Nat) : Option Duration :=
  l.foldl (fun p h => h.what.period? i p) none

/-- Why a schedule that is switched on has no task, if so. -/
def fault? (l : Chronicle) (i : Nat) : Option String :=
  l.foldl (fun f h => h.what.fault? i f) none

/-- No tick has taken any time until now. -/
def Instant (l : Chronicle) (now : Nat) : Prop :=
  (∀ h ∈ l, ∀ t ∈ h.what.ended?, h.moment = t.moment) ∧ ∀ t ∈ l.running, t.moment = now

instance (l : Chronicle) (now : Nat) : Decidable (l.Instant now) :=
  inferInstanceAs (Decidable (_ ∧ _))

/-- The schedule is neither switched nor stopped. -/
def Spares (l : Chronicle) (i : Nat) : Prop := ∀ h ∈ l, h.what.resets? ≠ some i

instance (l : Chronicle) (i : Nat) : Decidable (l.Spares i) :=
  inferInstanceAs (Decidable (∀ h ∈ l, h.what.resets? ≠ some i))

/-- The moment at which a chronicle begins; `now` if nothing happens in it. -/
def beginning (l : Chronicle) (now : Nat) : Nat := (l.head?.map (·.moment)).getD now

section append
variable (l : Chronicle) (h : Happened) (i : Nat)

theorem ticks_concat : ticks (l ++ [h]) = l.ticks ++ h.what.begun?.toList := by
  rw [ticks, List.filterMap_append]
  cases hb : h.what.begun? <;> simp [ticks, hb]

theorem ticks_append (l' : Chronicle) : ticks (l ++ l') = l.ticks ++ l'.ticks :=
  List.filterMap_append

theorem ticksOf_append (l' : Chronicle) : ticksOf (l ++ l') i = l.ticksOf i ++ l'.ticksOf i := by
  rw [ticksOf, ticks_append, List.filter_append]
  rfl

theorem ticksOf_cut {h : Happened} {i : Nat} (hi : h.what.resets? = some i) (l' : Chronicle) :
    ticksOf (l ++ h :: l') i = l.ticksOf i ++ l'.ticksOf i := by
  rw [ticksOf_append]
  simp [ticksOf, ticks, Happening.begun?_of_resets? hi]

theorem ticksOf_concat :
    ticksOf (l ++ [h]) i = l.ticksOf i ++ h.what.begun?.toList.filter (·.schedule = i) := by
  rw [ticksOf, ticks_concat, List.filter_append]
  rfl

theorem shown_append (l' : Chronicle) : shown (l ++ l') = l.shown ++ l'.shown :=
  List.filterMap_append

theorem running_concat : running (l ++ [h]) = h.what.running l.running := by
  rw [running, List.foldl_append]
  rfl

theorem period?_concat : period? (l ++ [h]) i = h.what.period? i (l.period? i) := by
  rw [period?, List.foldl_append]
  rfl

theorem fault?_concat : fault? (l ++ [h]) i = h.what.fault? i (l.fault? i) := by
  rw [fault?, List.foldl_append]
  rfl

end append

theorem mem_ticks_of_running {l : Chronicle} {t : Tick} (ht : t ∈ l.running) : t ∈ l.ticks := by
  induction l using List.reverseRecOn with
  | nil => cases ht
  | append_singleton l h ih =>
    rw [running_concat] at ht
    rw [ticks_concat]
    cases hw : h.what with
    | began t' observers =>
      rw [hw] at ht
      rcases List.mem_cons.mp ht with rfl | ht
      · exact List.mem_append_right _ (List.mem_singleton_self _)
      · exact List.mem_append_left _ (ih ht)
    | ended t' failure =>
      rw [hw] at ht
      exact List.mem_append_left _ (ih (List.mem_of_mem_erase ht))
    | added | stored | switched | stopped | shown =>
      rw [hw] at ht
      exact List.mem_append_left _ (ih ht)

end Chronicle

end ConnectionLeasing
