/-!
# Time

A moment is a natural number, the nanoseconds since a common origin; a duration is a structure, so
that the two are not mixed up. The text of a duration uses its largest unit with a non-zero integer
part among `s`, `ms`, `µs` and `ns`, with the fraction cut after its last non-zero digit.

* `elapsed_eq_zero`: of a moment that lies ahead, nothing has elapsed.
* `lt_elapsed_iff`: when more than a duration has elapsed.
* `elapsed_after`: a duration after a moment, that duration has elapsed.
-/

namespace ConnectionLeasing

/-- A span of time. -/
structure Duration where
  nanos : Nat
  deriving DecidableEq, Inhabited, Ord

namespace Duration

def ofSeconds (seconds nanos : Nat) : Duration := ⟨seconds * 1000000000 + nanos⟩

def ofMillis (millis : Nat) : Duration := ⟨millis * 1000000⟩

/-- Whole seconds. -/
def seconds (d : Duration) : Nat := d.nanos / 1000000000

/-- What is left after the whole seconds. -/
def subsecond (d : Duration) : Nat := d.nanos % 1000000000

/-- Whole milliseconds. -/
def millis (d : Duration) : Nat := d.nanos / 1000000

/-- The fraction `part / 10 ^ places` with its leading point, or nothing if it is zero. -/
def fraction (part places : Nat) : String :=
  if part = 0 then ""
  else
    let digits := (Nat.toDigits 10 part).leftpad places '0'
    "." ++ String.ofList (digits.reverse.dropWhile (· = '0')).reverse

/-- The text of a duration in its largest fitting unit. -/
def text (d : Duration) : String :=
  if d.nanos < 1000 then s!"{d.nanos}ns"
  else if d.nanos < 1000000 then s!"{d.nanos / 1000}{fraction (d.nanos % 1000) 3}µs"
  else if d.nanos < 1000000000 then s!"{d.nanos / 1000000}{fraction (d.nanos % 1000000) 6}ms"
  else s!"{d.seconds}{fraction d.subsecond 9}s"

/-- Time gone by at `now` since `earlier`; nothing if `earlier` lies ahead. -/
def elapsed (now earlier : Nat) : Duration := ⟨now - earlier⟩

/-- The moment this duration after `moment`. -/
def after (d : Duration) (moment : Nat) : Nat := moment + d.nanos

theorem elapsed_eq_zero {now earlier : Nat} (h : now ≤ earlier) :
    elapsed now earlier = ⟨0⟩ := by
  simp only [elapsed, mk.injEq]; omega

/-- More than a duration has elapsed only after the moment it is over. -/
theorem lt_elapsed_iff (d : Duration) (now earlier : Nat) :
    d.nanos < (elapsed now earlier).nanos ↔ earlier + d.nanos < now := by
  show d.nanos < now - earlier ↔ _
  omega

theorem elapsed_after (d : Duration) (moment : Nat) : elapsed (d.after moment) moment = d := by
  simp [elapsed, after]

end Duration

/-- Whole milliseconds from the origin to a moment. -/
def momentMillis (moment : Nat) : Nat := moment / 1000000

end ConnectionLeasing
