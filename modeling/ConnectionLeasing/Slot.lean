import ConnectionLeasing.Context
import ConnectionLeasing.Factory

/-!
# Slots

The lifecycle record of one open connection: the context it is registered under, the handle until
it is closed, whether it is lent out, and when it was last lent and last given back.

* `openFor_eq_some`: a slot answers to a context only as its owner and only while open.
-/

namespace ConnectionLeasing

structure Slot where
  /-- The context the slot is registered under. -/
  owner : ContextId
  /-- The connection; none once the slot has been closed. -/
  handle : Option Handle
  borrowed : Bool
  borrowTime : Nat
  releaseTime : Nat
  deriving DecidableEq, Inhabited

namespace Slot

/-- A freshly opened connection, lent to the context that opened it. -/
def lentTo (owner : ContextId) (handle : Handle) (now : Nat) : Slot :=
  ⟨owner, some handle, true, now, now⟩

/-- The open handle, if the slot belongs to `context`. -/
def openFor (s : Slot) (context : ContextId) : Option Handle :=
  if s.owner = context then s.handle else none

def markBorrowed (s : Slot) (now : Nat) : Slot := { s with borrowed := true, borrowTime := now }

def markIdle (s : Slot) (now : Nat) : Slot := { s with borrowed := false, releaseTime := now }

/-- The slot in the hands of another context. -/
def takenOver (s : Slot) (owner : ContextId) (now : Nat) : Slot :=
  { s with owner, borrowed := true, borrowTime := now }

def isOpen (s : Slot) : Bool := s.handle.isSome

theorem openFor_eq_some {s : Slot} {c : ContextId} {h : Handle} :
    s.openFor c = some h ↔ s.owner = c ∧ s.handle = some h := by
  unfold openFor; split <;> simp_all

end Slot

end ConnectionLeasing
