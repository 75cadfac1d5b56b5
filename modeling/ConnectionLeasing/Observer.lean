import ConnectionLeasing.Error
import ConnectionLeasing.Factory

/-!
# Observers and what they are told

Every manager call is announced to the attached observers before it runs, in the order of their
attachment; every scheduled tick is shown to them as well. Three observers are built in: one writes
counts to the journal, one inspects the slots of a context-affine manager, one inspects pools. Any
other is a recorder, which lives outside and is called.

The calls that an operation makes to the outside are collected in `Call`, each with the type of its
answer.
-/

namespace ConnectionLeasing

/-- The manager calls that are announced. -/
inductive Operation
  | borrow
  | release
  | close
  deriving DecidableEq, Inhabited

namespace Operation

def all : List Operation := [borrow, release, close]

def name : Operation → String
  | borrow => "borrow"
  | release => "release"
  | close => "close"

def debug : Operation → String
  | borrow => "Borrow"
  | release => "Release"
  | close => "Close"

end Operation

/-- One manager call: what is done, for which identity, on behalf of which context. -/
structure Announcement where
  operation : Operation
  identity : Identity
  context : ContextId
  deriving DecidableEq, Inhabited

/-- An observer from outside. -/
structure Recorder where
  name : String
  /-- Whether it fails after it has been told. -/
  panics : Bool
  /-- Whether it wants the scheduled ticks too. -/
  ticks : Bool
  deriving DecidableEq, Inhabited

inductive Observer
  /-- Writes counts to the journal. -/
  | log
  /-- Holds the slots of a context-affine manager to its retention policy. -/
  | inspector
  /-- Evicts stale objects from pools. -/
  | poolInspector
  | recorder (r : Recorder)
  deriving DecidableEq, Inhabited

/-- What came of opening a connection: the handle that was built, and why it did not connect. -/
structure Connected where
  handle : Handle
  failure : Option LeaseError

/-- A call to the outside. -/
inductive Call
  /-- Tells an observer of a manager call. -/
  | visit (observer : Recorder) (announcement : Announcement)
  /-- Shows an observer a tick. -/
  | tick (observer : Recorder)
  /-- Asks whether a handle is valid and not closed. -/
  | check (handle : Handle)
  /-- Builds a handle that carries `channel` and connects it. -/
  | connect (channel : Channel) (identity : Identity) (timeout : Duration)
  /-- Closes a handle's session. -/
  | disconnect (handle : Handle)

/-- What a call is answered with. -/
@[reducible] def Call.Answer : Call → Type
  | visit .. => Unit
  | tick _ => Unit
  | check _ => Bool
  | connect .. => Connected
  | disconnect _ => Option LeaseError

/-- How far an operation got: it waits for the answer to a call, or it is done. -/
inductive Progress (Frame Result : Type)
  | paused (frame : Frame)
  | done (result : Result)

end ConnectionLeasing
