import ConnectionLeasing.Proofs.Pool.Effort

/-!
# What an operation does when its callbacks only answer

`Replies` fixes the answers: which objects are valid, and what comes of making another. An operation
whose callbacks answer so and leave the pool alone runs in one way (`Settles`), which is the way in
which `Conduct.alone` carries it out.

* `System.Underway`: how far such an operation has got, with the callbacks it has made so far and
  the objects they have destroyed; `Underway.resume` goes on with an answer.
* `Settles.run_eq`: what an operation settles at is what `Conduct.alone` gives.
-/

namespace ConnectionLeasing.Pool

variable {α : Type}

/-! ### Answers -/

/-- What callbacks answer. -/
structure Replies (α : Type) where
  /-- Whether an object can still be lent. -/
  valid : Item α → Bool
  /-- What comes of making an object. -/
  made : Except LeaseError α

/-- Callbacks answer so and do nothing else. -/
def Replies.reaction (b : Replies α) : Reaction α := fun _ f =>
  match f with
  | .creating => b.made
  | .checking c => b.valid c.item
  | .destroying _ _ => ()

/-! ### Callbacks -/

/-- The object that a callback is asked to destroy. -/
def Callback.doomed? : Callback α → Option (Item α)
  | create | validate _ => none
  | destroy x => some x

/-- The callback that an operation waits for. -/
def called : Progress (Frame α) (Result α) → List (Callback α)
  | .paused f => [f.callback]
  | .done _ => []

/-- The object whose destruction is through when the operation goes on. -/
def Frame.dismissed : Frame α → List (Item α)
  | creating | checking _ => []
  | destroying x _ => [x]

namespace System

/-- Every callback of the run so far, in order. -/
def calls (m : System α) : List (Callback α) := m.events.flatMap fun e => called e.next

theorem calls_moved (m : System α) (seen : Progress (Frame α) (Result α) → Event α)
    (hseen : ∀ next, (seen next).next = next) (rest : List (Frame α)) (guards : List (Item α))
    (step : Step α) : (m.moved seen rest guards step).calls = m.calls ++ called step.next := by
  rw [calls, moved, List.flatMap_append]
  simp [calls, hseen]

/-! ### An operation under way -/

/-- An operation that was started in `m`, above operations that wait, has come to the step `s` in
`m'`. It has made the callbacks `calls` before that, and the objects `gone` were destroyed. -/
structure Underway (m : System α) (below : List (Frame α)) (guards : List (Item α))
    (calls : List (Callback α)) (gone : List (Item α)) (s : Step α) (m' : System α) : Prop where
  now : m'.now = m.now
  pool : m'.pool = s.pool
  ongoing : m'.ongoing = left s.next ++ below
  guards : m'.guards = lent s.next ++ guards
  calls : m'.calls = m.calls ++ (calls ++ called s.next)
  destroyed : m'.destroyed = m.destroyed ++ gone

theorem underway_started (m : System α) (k : Command α) (guards : List (Item α)) :
    m.Underway m.ongoing guards [] [] (start m.pool m.now k) (m.started k guards) where
  now := rfl
  pool := rfl
  ongoing := rfl
  guards := rfl
  calls := m.calls_moved _ (fun _ => rfl) ..
  destroyed := destroyed_moved

theorem Underway.resume {m m' : System α} {below : List (Frame α)} {guards gone : List (Item α)}
    {calls : List (Callback α)} {p : Pool α} {f : Frame α} {notes : List Note}
    (h : m.Underway below guards calls gone (p.await f notes) m') (a : f.callback.Answer) :
    m.Underway below guards (calls ++ [f.callback]) (gone ++ f.dismissed)
      (Pool.resume p m.now f a) (m'.resumed f a below) := by
  have hpool : m'.pool = p := h.pool
  have hstep : Pool.resume m'.pool m'.now f a = Pool.resume p m.now f a := by rw [hpool, h.now]
  rw [← hstep]
  refine ⟨h.now, rfl, rfl, ?_, ?_, ?_⟩
  · exact congrArg (_ ++ ·) h.guards
  · have hcalls := m'.calls_moved (.resumed f a) (fun _ => rfl) below m'.guards
      (Pool.resume m'.pool m'.now f a)
    rw [h.calls, List.append_assoc] at hcalls
    exact hcalls
  · rw [resumed, destroyed_moved, h.destroyed, List.append_assoc]
    cases f <;> rfl

theorem Underway.calls_eq {m m' : System α} {below : List (Frame α)} {guards gone : List (Item α)}
    {calls : List (Callback α)} {p : Pool α} {r : Result α} {notes : List Note}
    (h : m.Underway below guards calls gone (p.finish r notes) m') :
    m'.calls = m.calls ++ calls := by
  have hcalls : m'.calls = m.calls ++ (calls ++ []) := h.calls
  rw [hcalls, List.append_nil]

end System

/-! ### Settling -/

/-- An operation that has got as far as `next` comes to the result `r` and leaves the system `m'`,
if its callbacks answer by `react` and do nothing else. -/
inductive Settles (react : Reaction α) (below : List (Frame α)) :
    Progress (Frame α) (Result α) → System α → Result α → System α → Prop
  | done (r : Result α) (m : System α) : Settles react below (.done r) m r m
  | paused {f : Frame α} {m m' : System α} {r : Result α}
      (h : Settles react below (resume m.pool m.now f (react m f)).next
        (m.resumed f (react m f) below) r m') : Settles react below (.paused f) m r m'

section settles
variable {react : Reaction α} {below : List (Frame α)} {next : Progress (Frame α) (Result α)}
  {m m' : System α} {r : Result α}

theorem Settles.settle_eq (h : Settles react below next m r m') {steps : Nat}
    (hsteps : Step.effort ⟨m.pool, next, []⟩ ≤ steps) :
    settle react below steps next m = (r, m') := by
  induction h generalizing steps with
  | done r m => cases steps <;> rfl
  | @paused f m m' r h ih =>
    have hcost := effort_resume m.pool m.now f (react m f)
    have hframe : f.effort m.pool.idle.length ≤ steps := hsteps
    cases steps with
    | zero => omega
    | succ steps =>
      apply ih
      exact Nat.le_of_lt_succ (Nat.lt_of_lt_of_le hcost hframe)

theorem Settles.run_eq [DecidableEq α] {k : Command α}
    (h : Settles react m.ongoing (start m.pool m.now k).next
      (m.started k (k.spare m.guards)) r m') :
    (Conduct.alone react).run m k = (r, m') := h.settle_eq (Nat.le_refl _)

theorem System.Underway.answered {m₀ : System α} {guards gone : List (Item α)}
    {calls : List (Callback α)} {p : Pool α} {f : Frame α} {notes : List Note}
    (hm : m₀.Underway below guards calls gone (p.await f notes) m) {a : f.callback.Answer}
    (ha : react m f = a)
    (h : Settles react below (Pool.resume p m₀.now f a).next (m.resumed f a below) r m') :
    Settles react below (p.await f notes).next m r m' := by
  have hpool : m.pool = p := hm.pool
  subst ha
  rw [← hpool, ← hm.now] at h
  exact .paused h

end settles

end ConnectionLeasing.Pool
