import ConnectionLeasing.Context

/-!
# Sessions on execution contexts

Threads that allocate ids, ask for their own and bind themselves to ids seen before. An id is
reported by where it was first seen and how far it lies after the first id of the session, so that
a report does not depend on where the numbering starts.
-/

namespace ConnectionLeasing.Scenario

inductive ContextStep
  | current
  | allocate
  /-- Binds the thread to the id seen at an index. -/
  | enter (index : Nat)
  /-- Runs steps in a new thread. -/
  | thread (steps : List ContextStep)

inductive ContextReport
  | id (firstSeen : Nat) (offset : Int) (notBefore wellNamed : Bool)
  | unbound
  | thread (reports : List ContextReport)

structure ContextSession where
  contexts : Contexts
  /-- The first id, and then every reported id. -/
  seen : List ContextId
  nextThread : Nat

namespace ContextSession

/-- A session of one thread, which has allocated an id. -/
def initial : ContextSession :=
  let (contexts, id) := Contexts.initial.allocate
  ⟨contexts, [id], 1⟩

def first (s : ContextSession) : ContextId := s.seen.headD ⟨0⟩

/-- Reports an id, which counts as seen from then on. -/
def report (s : ContextSession) (id : ContextId) : ContextSession × ContextReport :=
  let seen := s.seen ++ [id]
  let first := s.first
  ({ s with seen },
    .id (seen.idxOf id) ((id.number : Int) - first.number) (decide (first.number ≤ id.number))
      (id.display = s!"ctx-{id.number}"))

mutual

/-- One step of a thread. -/
def step (s : ContextSession) (thread : Nat) : ContextStep → ContextSession × ContextReport
  | .current =>
    let (contexts, id) := s.contexts.current thread
    { s with contexts }.report id
  | .allocate =>
    let (contexts, id) := s.contexts.allocate
    { s with contexts }.report id
  | .enter index =>
    let (contexts, previous) := s.contexts.enter thread (s.seen[index]?.getD s.first)
    match previous with
    | some id => { s with contexts }.report id
    | none => ({ s with contexts }, .unbound)
  | .thread steps =>
    let (s, reports) := run { s with nextThread := s.nextThread + 1 } s.nextThread steps
    (s, .thread reports)

/-- The steps of a thread in order. -/
def run (s : ContextSession) (thread : Nat) :
    List ContextStep → ContextSession × List ContextReport
  | [] => (s, [])
  | x :: steps =>
    let (s, report) := step s thread x
    let (s, reports) := run s thread steps
    (s, report :: reports)

end

end ContextSession

/-- The reports of the steps of a session. -/
def contextReports (steps : List ContextStep) : List ContextReport :=
  (ContextSession.initial.run 0 steps).2

end ConnectionLeasing.Scenario
