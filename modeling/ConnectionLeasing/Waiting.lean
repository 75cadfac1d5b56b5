import ConnectionLeasing.Error

/-!
# Waiting for a pooled object

Two ways to borrow when a pool is exhausted. A blocking borrower sleeps until something is given
back or destroyed or the pool is closed, and at most ten milliseconds; it tries again whenever it
wakes, and gives up after a try at its deadline. An asynchronous borrower tries every ten
milliseconds and gives up at its deadline; where a try falls on the deadline, the try comes first.

Both are written against `Surroundings`: a clock, a way to let time pass, and a way to try. The
loops are bounded by a number of tries; they answer `none` only if that is used up.
-/

namespace ConnectionLeasing.Waiting

/-- What a waiting borrower of objects `α` knows of a world `W`. -/
structure Surroundings (W α : Type) where
  now : W → Nat
  /-- How often borrowers of this pool were woken. -/
  signals : W → Nat
  /-- One try: an object, nothing, or an error. -/
  attempt : W → W × Except LeaseError (Option α)
  /-- Lets time pass up to a moment, or until the world satisfies a condition. -/
  sleep : Nat → (W → Bool) → W → W

/-- The longest sleep between two tries. -/
def slice : Duration := .ofMillis 10

variable {W α : Type}

/-- Tries until there is an object, an error, or the deadline has passed at a try. -/
def blockUntil (S : Surroundings W α) (timeout : Duration) (deadline : Nat) :
    Nat → W → W × Option (Except LeaseError α)
  | 0, w => (w, none)
  | tries + 1, w =>
    match S.attempt w with
    | (w, .ok (some x)) => (w, some (.ok x))
    | (w, .error e) => (w, some (.error e))
    | (w, .ok none) =>
      if deadline ≤ S.now w then (w, some (.error (.timeout timeout)))
      else
        let signals := S.signals w
        let wake := min deadline (slice.after (S.now w))
        blockUntil S timeout deadline tries (S.sleep wake (fun v => S.signals v ≠ signals) w)

/-- A blocking borrow that starts now. -/
def block (S : Surroundings W α) (timeout : Duration) (tries : Nat) (w : W) :
    W × Option (Except LeaseError α) :=
  blockUntil S timeout (timeout.after (S.now w)) tries w

/-- Tries every slice until there is an object, an error, or the deadline comes before the next
try. No time passes after a try at the deadline or past it. A sleep that lasts longer than it should
and reaches the next try is followed by that try, whatever the deadline. -/
def pollUntil (S : Surroundings W α) (timeout : Duration) (deadline : Nat) :
    Nat → W → W × Option (Except LeaseError α)
  | 0, w => (w, none)
  | tries + 1, w =>
    match S.attempt w with
    | (w, .ok (some x)) => (w, some (.ok x))
    | (w, .error e) => (w, some (.error e))
    | (w, .ok none) =>
      if deadline ≤ S.now w then (w, some (.error (.timeout timeout)))
      else
        let next := slice.after (S.now w)
        let w := S.sleep (min next deadline) (fun _ => false) w
        if S.now w < next then (w, some (.error (.timeout timeout)))
        else pollUntil S timeout deadline tries w

/-- An asynchronous borrow that starts now. -/
def poll (S : Surroundings W α) (timeout : Duration) (tries : Nat) (w : W) :
    W × Option (Except LeaseError α) :=
  pollUntil S timeout (timeout.after (S.now w)) tries w

end ConnectionLeasing.Waiting
