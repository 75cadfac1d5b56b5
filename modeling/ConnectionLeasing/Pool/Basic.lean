import ConnectionLeasing.Observer
import ConnectionLeasing.Settings

/-!
# Bounded pools of objects

A pool makes objects on demand up to a fixed number, lends them, and keeps those given back in a
queue, oldest first. Making, validating and destroying an object is up to a callback, which may use
the pool again; `Frame` is an operation that waits for one.

Objects in the hands of a waiting operation are in no queue and lent to nobody: they live in its
frame. `total` counts them too.

The numbers of objects, and the counts of those made and destroyed, are unbounded here. Kept in
machine words they wrap, and two objects share a number, only once a pool has made 2^64 objects; what
is said of them is about runs before that.
-/

namespace ConnectionLeasing

/-- An object with its number in the pool, which it keeps for life. -/
structure Item (α : Type) where
  id : Nat
  value : α
  deriving DecidableEq, Inhabited

/-- An object that waits to be lent. -/
structure IdleItem (α : Type) extends Item α where
  since : Nat
  deriving DecidableEq, Inhabited

structure Pool (α : Type) where
  name : String
  settings : PoolSettings
  /-- Objects given back, oldest first. -/
  idle : List (IdleItem α) := []
  /-- Objects alive, and objects being made. -/
  total : Nat := 0
  created : Nat := 0
  destroyed : Nat := 0
  /-- The number of the next object. -/
  nextId : Nat := 0
  closed : Bool := false
  /-- How often waiting borrowers were woken. -/
  signals : Nat := 0

namespace Pool

/-- An eviction of idle objects, in progress. -/
structure Eviction (α : Type) where
  /-- The moment the idle times are measured at. -/
  start : Nat
  /-- Objects that stay, in the order of the queue. -/
  keep : List (IdleItem α) := []
  evicted : Nat := 0

/-- What asked for the validation of an object. -/
inductive Check (α : Type)
  /-- It was given back. -/
  | returned (item : Item α)
  /-- It is next in line for a borrow that began at `start`. -/
  | lending (item : IdleItem α) (start : Nat)
  | evicting (item : IdleItem α) (run : Eviction α)

def Check.item {α : Type} : Check α → Item α
  | returned x => x
  | lending x _ => x.toItem
  | evicting x _ => x.toItem

/-- What empties the queue of a closed pool. -/
inductive Drain
  | close
  /-- An object was put back into a pool that was closed. -/
  | returned
  deriving DecidableEq

/-- What follows the destruction of an object. -/
inductive Disposal (α : Type)
  /-- It was given back to no avail; nothing follows. -/
  | returned
  /-- It was stale; the borrow that began at `start` goes on. -/
  | stale (start : Nat)
  | evicted (run : Eviction α)
  /-- There was no room to put it back; the others that stay are put back. -/
  | rejected (others : List (IdleItem α)) (evicted : Nat)
  /-- The queue is being emptied, `drained` objects so far. -/
  | drained (drained : Nat) (cause : Drain)

/-- An operation that waits for a callback. -/
inductive Frame (α : Type)
  /-- An object is being made in reserved room. -/
  | creating
  | checking (c : Check α)
  | destroying (item : Item α) (d : Disposal α)

/-- A callback. -/
inductive Callback (α : Type)
  | create
  | validate (item : Item α)
  | destroy (item : Item α)

/-- What a callback is answered with. -/
@[reducible] def Callback.Answer {α : Type} : Callback α → Type
  | create => Except LeaseError α
  | validate _ => Bool
  | destroy _ => Unit

@[reducible] def Frame.callback {α : Type} : Frame α → Callback α
  | creating => .create
  | checking c => .validate c.item
  | destroying x _ => .destroy x

/-- What an operation ends with. -/
inductive Result (α : Type)
  | lent (item : Item α)
  /-- Every object is out and there is no room for another. -/
  | exhausted
  | failed (error : LeaseError)
  | returned
  | evicted (n : Nat)
  | closed (drained : Nat)

/-- What a pool reports of an operation. -/
inductive Note
  | stale (id : Nat)
  | created (id : Nat)
  | evicted (n : Nat)

/-- The pool an operation leaves, how far it got, and what there is to report. -/
structure Step (α : Type) where
  pool : Pool α
  next : Progress (Frame α) (Result α)
  notes : List Note := []

variable {α : Type}

/-- A pool that has made nothing yet. -/
def create (name : String) (settings : PoolSettings) : Pool α where
  name
  settings

/-- Lent objects and objects in the hands of operations. -/
def active (p : Pool α) : Nat := p.total - p.idle.length

/-- Wakes waiting borrowers. -/
def signal (p : Pool α) : Pool α := { p with signals := p.signals + 1 }

def expired (p : Pool α) (x : IdleItem α) (now : Nat) : Bool :=
  p.settings.idleTimeout.any fun t => t.nanos < (Duration.elapsed now x.since).nanos

/-- An object is kept at the very moment its timeout is reached. -/
theorem expired_iff (p : Pool α) (x : IdleItem α) (now : Nat) :
    p.expired x now ↔ ∃ t ∈ p.settings.idleTimeout, x.since + t.nanos < now := by
  rw [expired, Option.any_eq_true]
  refine exists_congr fun t => and_congr_right fun _ => ?_
  rw [decide_eq_true_iff, Duration.lt_elapsed_iff]

/-- The pool with one more idle object, if there is room. -/
def push? (p : Pool α) (x : IdleItem α) : Option (Pool α) :=
  if p.idle.length < p.settings.capacity then some { p with idle := p.idle ++ [x] } else none

/-- Ends an operation. -/
def finish (p : Pool α) (r : Result α) (notes : List Note) : Step α := ⟨p, .done r, notes⟩

/-- Waits for a callback. -/
def await (p : Pool α) (f : Frame α) (notes : List Note) : Step α := ⟨p, .paused f, notes⟩

end Pool

end ConnectionLeasing
