import ConnectionLeasing.Pool.Operation
import ConnectionLeasing.Waiting

/-!
# Runs of a pool

A `System` is a pool with the operations it has in progress, each waiting at a callback, with the
guards that keep lent objects, and with everything that has been seen of the run so far. `Moves` is
one move of a run: an operation starts, or goes on with the answer to its callback, or time passes.
Callbacks are answered in any way, and any operation may start while others wait.

A `Regime` restricts the order of moves: whether operations end in the reverse order of their
starts, as they do when each callback runs its operations to their end before it answers, and which
operations may start when.

A borrower that waits, blocking or polling, makes a series of tries while others move, so its borrow
is a part of a run as well (`Run.block`, `Run.poll`).

* `Run.keeps`: what every move keeps is kept by every run.
-/

namespace ConnectionLeasing

/-! ### Waiting -/

namespace Waiting

variable {W β : Type} {S : Surroundings W β} {P : W → Prop}

theorem blockUntil_keeps (ha : ∀ w, P w → P (S.attempt w).1)
    (hs : ∀ moment woken w, P w → P (S.sleep moment woken w)) (timeout : Duration)
    (deadline tries : Nat) {w : W} (hw : P w) :
    P (blockUntil S timeout deadline tries w).1 := by
  induction tries generalizing w with
  | zero => exact hw
  | succ tries ih =>
    have hw := ha w hw
    rw [blockUntil]
    split
    · rename_i w' x h
      rwa [h] at hw
    · rename_i w' e h
      rwa [h] at hw
    · rename_i w' h
      rw [h] at hw
      dsimp only
      split
      · exact hw
      · exact ih (hs _ _ _ hw)

theorem pollUntil_keeps (ha : ∀ w, P w → P (S.attempt w).1)
    (hs : ∀ moment woken w, P w → P (S.sleep moment woken w)) (timeout : Duration)
    (deadline tries : Nat) {w : W} (hw : P w) :
    P (pollUntil S timeout deadline tries w).1 := by
  induction tries generalizing w with
  | zero => exact hw
  | succ tries ih =>
    have hw := ha w hw
    rw [pollUntil]
    split
    · rename_i w' x h
      rwa [h] at hw
    · rename_i w' e h
      rwa [h] at hw
    · rename_i w' h
      rw [h] at hw
      dsimp only
      split
      · exact hw
      · have hw := hs (min (slice.after (S.now w')) deadline) (fun _ => false) w' hw
        split
        · exact hw
        · exact ih hw

end Waiting

namespace Pool

variable {α : Type}

/-! ### What operations have in hand -/

def Check.items : Check α → List (Item α)
  | returned x => [x]
  | lending x _ => [x.toItem]
  | evicting x run => x.toItem :: run.keep.map (·.toItem)

/-- The objects an operation has set aside while another one is destroyed. -/
def Disposal.items : Disposal α → List (Item α)
  | returned | stale _ | drained .. => []
  | evicted run => run.keep.map (·.toItem)
  | rejected others _ => others.map (·.toItem)

/-- The objects in the hands of a waiting operation. -/
def Frame.items : Frame α → List (Item α)
  | creating => []
  | checking c => c.items
  | destroying x d => x :: d.items

def Frame.isCreating : Frame α → Bool
  | creating => true
  | checking _ | destroying .. => false

def Command.items : Command α → List (Item α)
  | giveBack x => [x]
  | tryBorrow | evictIdle | close => []

/-- The operation that is still in progress after a move, if any. -/
def left : Progress (Frame α) (Result α) → List (Frame α)
  | .paused f => [f]
  | .done _ => []

def lent : Progress (Frame α) (Result α) → List (Item α)
  | .done (.lent x) => [x]
  | _ => []

/-- The object that is checked, destroyed or lent at the end of a move. -/
def handled? : Progress (Frame α) (Result α) → Option (Item α)
  | .paused .creating => none
  | .paused (.checking c) => some c.item
  | .paused (.destroying x _) => some x
  | .done (.lent x) => some x
  | .done _ => none

/-! ### Events -/

/-- A move of an operation: how it came about, and how far the operation got. -/
inductive Event (α : Type)
  | started (k : Command α) (next : Progress (Frame α) (Result α))
  | resumed (f : Frame α) (answer : f.callback.Answer) (next : Progress (Frame α) (Result α))

namespace Event

def next : Event α → Progress (Frame α) (Result α)
  | started _ next => next
  | resumed _ _ next => next

/-- The object that was made, under the number it is lent with. -/
def made? : Event α → Option (Item α)
  | resumed .creating (.ok value) (.done (.lent x)) => some ⟨x.id, value⟩
  | _ => none

def produced? : Event α → Option α
  | resumed .creating (.ok value) _ => some value
  | _ => none

/-- The object whose destruction is through. -/
def destroyed? : Event α → Option (Item α)
  | resumed (.destroying x _) _ _ => some x
  | _ => none

/-- The object that is handed over for destruction. -/
def doomed? (e : Event α) : Option (Item α) :=
  match e.next with
  | .paused (.destroying x _) => some x
  | _ => none

end Event

/-! ### Systems -/

structure System (α : Type) where
  pool : Pool α
  now : Nat
  /-- The operations in progress; one that has just moved comes first. -/
  ongoing : List (Frame α)
  /-- The lent objects that have not been dropped. -/
  guards : List (Item α)
  /-- Everything seen so far, in order. -/
  events : List (Event α)

namespace System

def initial (name : String) (settings : PoolSettings) (now : Nat) : System α :=
  ⟨.create name settings, now, [], [], []⟩

/-- The objects in the hands of operations in progress. -/
def hands (m : System α) : List (Item α) := m.ongoing.flatMap Frame.items

/-- The objects being made. -/
def rooms (m : System α) : Nat := m.ongoing.countP Frame.isCreating

def made (m : System α) : List (Item α) := m.events.filterMap Event.made?

def produced (m : System α) : List α := m.events.filterMap Event.produced?

/-- The objects destroyed so far, once for each time. -/
def destroyed (m : System α) : List (Item α) := m.events.filterMap Event.destroyed?

/-- The system after an operation has moved: it was seen as `seen`, and `rest` did not move. -/
def moved (m : System α) (seen : Progress (Frame α) (Result α) → Event α) (rest : List (Frame α))
    (guards : List (Item α)) (step : Step α) : System α where
  pool := step.pool
  now := m.now
  ongoing := left step.next ++ rest
  guards := lent step.next ++ guards
  events := m.events ++ [seen step.next]

def started (m : System α) (k : Command α) (guards : List (Item α)) : System α :=
  m.moved (.started k) m.ongoing guards (start m.pool m.now k)

def resumed (m : System α) (f : Frame α) (a : f.callback.Answer) (rest : List (Frame α)) :
    System α :=
  m.moved (.resumed f a) rest m.guards (resume m.pool m.now f a)

section moved
variable {m : System α} {seen : Progress (Frame α) (Result α) → Event α} {rest : List (Frame α)}
  {guards : List (Item α)} {step : Step α}

theorem made_moved :
    (m.moved seen rest guards step).made = m.made ++ (seen step.next).made?.toList := by
  rw [made, moved, List.filterMap_append]
  cases h : (seen step.next).made? <;> simp [made, h]

theorem produced_moved :
    (m.moved seen rest guards step).produced =
      m.produced ++ (seen step.next).produced?.toList := by
  rw [produced, moved, List.filterMap_append]
  cases h : (seen step.next).produced? <;> simp [produced, h]

theorem destroyed_moved :
    (m.moved seen rest guards step).destroyed =
      m.destroyed ++ (seen step.next).destroyed?.toList := by
  rw [destroyed, moved, List.filterMap_append]
  cases h : (seen step.next).destroyed? <;> simp [destroyed, h]

end moved

end System

/-! ### Runs -/

structure Regime (α : Type) where
  /-- Operations end in the reverse order of their starts. -/
  stacked : Prop
  /-- Which operations may start in a system. -/
  admits : System α → Command α → Prop

namespace Regime

def any : Regime α := ⟨False, fun _ _ => True⟩

/-- A callback runs its operations to their end before it answers. -/
def nesting : Regime α := ⟨True, fun _ _ => True⟩

end Regime

inductive Moves (R : Regime α) : System α → System α → Prop
  /-- An operation starts. An object that is given back is taken from its guard. -/
  | start (m : System α) (k : Command α) (guards : List (Item α))
      (hk : m.guards.Perm (k.items ++ guards)) (h : R.admits m k) : Moves R m (m.started k guards)
  /-- An operation goes on, whatever the answer to its callback. -/
  | resume (m : System α) (before : List (Frame α)) (f : Frame α) (later : List (Frame α))
      (a : f.callback.Answer) (hm : m.ongoing = before ++ f :: later)
      (h : R.stacked → before = []) : Moves R m (m.resumed f a (before ++ later))
  /-- Time passes. -/
  | pass (m : System α) (t : Nat) (h : m.now ≤ t) : Moves R m { m with now := t }

/-- The runs of a pool, with borrowers that wait: each try and each sleep of such a borrower is a
run of its own. -/
inductive Run (R : Regime α) : System α → System α → Prop
  | refl (m : System α) : Run R m m
  | next {m m' m'' : System α} : Run R m m' → Moves R m' m'' → Run R m m''
  | block {m m' : System α} {β : Type} (S : Waiting.Surroundings (System α) β)
      (hattempt : ∀ w, Run R w (S.attempt w).1)
      (hsleep : ∀ moment woken w, Run R w (S.sleep moment woken w)) (timeout : Duration)
      (tries : Nat) : Run R m m' → Run R m (Waiting.block S timeout tries m').1
  | poll {m m' : System α} {β : Type} (S : Waiting.Surroundings (System α) β)
      (hattempt : ∀ w, Run R w (S.attempt w).1)
      (hsleep : ∀ moment woken w, Run R w (S.sleep moment woken w)) (timeout : Duration)
      (tries : Nat) : Run R m m' → Run R m (Waiting.poll S timeout tries m').1

def Reachable (R : Regime α) (m : System α) : Prop :=
  ∃ name settings now, Run R (.initial name settings now) m

section runs
variable {R : Regime α} {m m' : System α}

/-- **What every move keeps is kept by every run.** -/
theorem Run.keeps {P : System α → Prop} (hP : ∀ m m', Moves R m m' → P m → P m')
    (h : Run R m m') : P m → P m' := by
  -- the tries and sleeps of a borrower that waits are runs too, so they keep it by induction
  induction h with
  | refl m => exact id
  | next _ hmove ih => exact fun hm => hP _ _ hmove (ih hm)
  | block S _ _ timeout tries _ hattempt hsleep ih =>
    exact fun hm => Waiting.blockUntil_keeps hattempt hsleep timeout _ tries (ih hm)
  | poll S _ _ timeout tries _ hattempt hsleep ih =>
    exact fun hm => Waiting.pollUntil_keeps hattempt hsleep timeout _ tries (ih hm)

theorem Reachable.initial (name : String) (settings : PoolSettings) (now : Nat) :
    Reachable R (.initial name settings now : System α) :=
  ⟨name, settings, now, .refl _⟩

theorem Reachable.next (h : Reachable R m) (hmove : Moves R m m') : Reachable R m' := by
  obtain ⟨name, settings, now, hrun⟩ := h
  exact ⟨name, settings, now, hrun.next hmove⟩

end runs

end Pool

end ConnectionLeasing
