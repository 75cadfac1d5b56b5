import ConnectionLeasing.Pooled.State

/-!
# Operations of a pooled manager, in progress

As for a context-affine manager, a frame is an operation that waits for the answer to a call. Most
frames are an operation on one pool together with what the manager does when that is through.
-/

namespace ConnectionLeasing.Pooled

/-- What follows once every observer has been told of a call. -/
inductive Purpose
  /-- The pool to borrow from is looked up, or made. -/
  | select (channel : Channel)
  | release
  | close
  /-- Nothing: the call was only announced. -/
  | tell

/-- A manager call that observers are being told of. -/
structure Telling where
  announcement : Announcement
  purpose : Purpose

/-- What follows the closing of some pools. -/
inductive AfterClosing
  /-- The number of destroyed handles is the result. -/
  | counted
  /-- A manager call asked for it. -/
  | called (announcement : Announcement)
  | shutDown

/-- What follows the eviction from all pools. -/
inductive AfterEvicting
  | counted
  /-- The tick goes on with the other observers. -/
  | tick (observers : List Observer)

/-- What follows an operation on one pool. -/
inductive AfterPool
  /-- Its result is handed to the caller. -/
  | caller
  | closing (keys : List PoolKey) (destroyed : Nat) (after : AfterClosing)
  | evicting (pools : List Nat) (evicted : Nat) (after : AfterEvicting)

/-- An operation that waits for an answer. -/
inductive Frame
  | telling (observer : Recorder) (observers : List Observer) (telling : Telling)
  | ticking (observer : Recorder) (observers : List Observer)
  | inPool (pool : Nat) (source : Source) (frame : Pool.Frame Handle) (after : AfterPool)

/-- The call a frame waits for. -/
@[reducible] def Frame.call : Frame → Call
  | telling o _ t => .visit o t.announcement
  | ticking o _ => .tick o
  | inPool _ s .creating _ => .connect s.produces s.identity s.timeout
  | inPool _ _ (.checking c) _ => .check c.item.value
  | inPool _ _ (.destroying x _) _ => .disconnect x.value

/-- What an operation ends with. -/
inductive Result
  /-- The number of the pool to borrow from. -/
  | selected (pool : Nat)
  | refused (error : LeaseError)
  | pool (result : Pool.Result Handle)
  | counted (n : Nat)
  | told

/-- The state an operation leaves and how far it got. -/
abbrev Step := State × Progress Frame Result

end ConnectionLeasing.Pooled
