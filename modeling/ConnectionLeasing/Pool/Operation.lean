import ConnectionLeasing.Pool.Basic

/-!
# Operations of a pool

Borrowing without waiting, giving back, evicting idle objects and closing. Each runs to its next
callback or to its end; `resume` goes on with the answer. Between two callbacks at most one object
leaves the queue, so no step contains a loop over the queue.
-/

namespace ConnectionLeasing.Pool

variable {α : Type}

/-! ### Borrowing -/

/-- Looks at the next idle object; without one, makes a new one if there is room. -/
def lend (p : Pool α) (start : Nat) : Step α :=
  match p.idle with
  | x :: idle =>
    let p := { p with idle }
    if p.expired x start then
      p.await (.destroying x.toItem (.stale start)) [.stale x.id]
    else p.await (.checking (.lending x start)) []
  | [] =>
    if p.total < p.settings.maxSize then { p with total := p.total + 1 }.await .creating []
    else p.finish .exhausted []

/-- Borrows without waiting. -/
def tryBorrow (p : Pool α) (now : Nat) : Step α :=
  if p.closed then p.finish (.failed (.poolClosed p.name)) [] else p.lend now

/-- Lends the object that was made, or gives its room back. -/
def resumeCreating (p : Pool α) : Except LeaseError α → Step α
  | .ok value =>
    { p with nextId := p.nextId + 1, created := p.created + 1 }.finish
      (.lent ⟨p.nextId, value⟩) [.created p.nextId]
  | .error e => { p with total := p.total - 1 }.signal.finish (.failed e) []

/-! ### Emptying a closed pool -/

/-- Destroys the next idle object; after the last one, wakes every borrower. -/
def drain (p : Pool α) (drained : Nat) (cause : Drain) : Step α :=
  match p.idle with
  | x :: idle => { p with idle }.await (.destroying x.toItem (.drained drained cause)) []
  | [] =>
    p.signal.finish (match cause with | .close => .closed drained | .returned => .returned) []

/-- Refuses further borrows and destroys every idle object. -/
def close (p : Pool α) : Step α := { p with closed := true }.drain 0 .close

/-! ### Giving back -/

/-- Takes an object back: a closed pool destroys it at once, an open one asks whether it is still
valid. -/
def giveBack (p : Pool α) (x : Item α) : Step α :=
  if p.closed then p.await (.destroying x .returned) []
  else p.await (.checking (.returned x)) []

/-- Queues a valid object. The pool may have been closed since; then the queue is emptied again. -/
def requeue (p : Pool α) (now : Nat) (x : Item α) : Step α :=
  match p.push? ⟨x, now⟩ with
  | none => p.await (.destroying x .returned) []
  | some p => if p.closed then p.drain 0 .returned else p.signal.finish .returned []

/-! ### Evicting -/

/-- Puts back the objects that stay. -/
def restore (p : Pool α) (evicted : Nat) : List (IdleItem α) → Step α
  | [] => p.finish (.evicted evicted) (if evicted = 0 then [] else [.evicted evicted])
  | x :: others =>
    match p.push? x with
    | some p => p.restore evicted others
    | none => p.await (.destroying x.toItem (.rejected others evicted)) []

/-- Looks at the next idle object; after the last one, puts back those that stay. -/
def evict (p : Pool α) (run : Eviction α) : Step α :=
  match p.idle with
  | x :: idle =>
    let p := { p with idle }
    if p.expired x run.start then p.await (.destroying x.toItem (.evicted run)) []
    else p.await (.checking (.evicting x run)) []
  | [] => p.restore run.evicted run.keep

/-- Destroys the idle objects that are expired or no longer valid. -/
def evictIdle (p : Pool α) (now : Nat) : Step α := p.evict { start := now }

/-! ### The machine -/

/-- What can be asked of a pool. -/
inductive Command (α : Type)
  | tryBorrow
  | giveBack (item : Item α)
  | evictIdle
  | close

/-- Starts an operation. -/
def start (p : Pool α) (now : Nat) : Command α → Step α
  | .tryBorrow => p.tryBorrow now
  | .giveBack x => p.giveBack x
  | .evictIdle => p.evictIdle now
  | .close => p.close

/-- Goes on after a validation. -/
def resumeChecking (p : Pool α) (now : Nat) (valid : Bool) : Check α → Step α
  | .returned x => if valid then p.requeue now x else p.await (.destroying x .returned) []
  | .lending x start =>
    if valid then p.finish (.lent x.toItem) []
    else p.await (.destroying x.toItem (.stale start)) [.stale x.id]
  | .evicting x run =>
    if valid then p.evict { run with keep := run.keep ++ [x] }
    else p.await (.destroying x.toItem (.evicted run)) []

/-- Books a destroyed object. -/
def bookDestroyed (p : Pool α) : Pool α :=
  { p with total := p.total - 1, destroyed := p.destroyed + 1 }.signal

/-- Goes on after a destruction that has been booked. -/
def resumeDestroying (p : Pool α) : Disposal α → Step α
  | .returned => p.finish .returned []
  | .stale start => p.lend start
  | .evicted run => p.evict { run with evicted := run.evicted + 1 }
  | .rejected others evicted => p.restore (evicted + 1) others
  | .drained drained cause => p.drain (drained + 1) cause

/-- Goes on with an operation that has its answer. -/
def resume (p : Pool α) (now : Nat) : (f : Frame α) → f.callback.Answer → Step α
  | .creating, made => p.resumeCreating made
  | .checking c, valid => p.resumeChecking now valid c
  | .destroying _ d, _ => p.bookDestroyed.resumeDestroying d

end ConnectionLeasing.Pool
