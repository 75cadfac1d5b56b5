import ConnectionLeasing.Keyed
import ConnectionLeasing.Text.Record

/-!
# Execution contexts

A context is the caller whose affinity decides which slot it may reuse. Ids are numbered from one
in the order of their allocation; the number is a machine word. A thread gets an id when it first
asks for its own, or is bound to one that was made elsewhere.
-/

namespace ConnectionLeasing

/-- The number of one execution context. -/
structure ContextId where
  number : Nat
  deriving DecidableEq, Inhabited, Ord

namespace ContextId

def display (c : ContextId) : String := s!"ctx-{c.number}"

def debug (c : ContextId) : String := Text.tagged "ExecutionContextId" (toString c.number)

end ContextId

/-- The ids handed out so far and the id each thread is bound to. -/
structure Contexts where
  next : Nat
  bindings : List (Nat × ContextId)
  deriving Inhabited

namespace Contexts

/-- Nothing allocated and no thread bound. -/
def initial : Contexts := ⟨1, []⟩

/-- A fresh id, bound to no thread. After the largest word the numbers start again from zero. -/
def allocate (c : Contexts) : Contexts × ContextId :=
  ({ c with next := (c.next + 1) % UInt64.size }, ⟨c.next⟩)

/-- The id a thread is bound to, if any. -/
def binding? (c : Contexts) (thread : Nat) : Option ContextId := Keyed.get? c.bindings thread

/-- Binds a thread to an id and gives its previous binding. -/
def enter (c : Contexts) (thread : Nat) (id : ContextId) : Contexts × Option ContextId :=
  ({ c with bindings := Keyed.put c.bindings thread id }, c.binding? thread)

/-- The id of a thread, allocated and bound when it has none yet. -/
def current (c : Contexts) (thread : Nat) : Contexts × ContextId :=
  match c.binding? thread with
  | some id => (c, id)
  | none =>
    let (c, id) := c.allocate
    ((c.enter thread id).1, id)

end Contexts

end ConnectionLeasing
