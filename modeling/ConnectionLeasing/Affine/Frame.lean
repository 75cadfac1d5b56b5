import ConnectionLeasing.Affine.State

/-!
# Operations of a context-affine manager, in progress

An operation runs by itself up to its next call to the outside and waits there. A frame is such a
waiting operation: the call it made, and all it needs to go on once it has the answer. The manager
may be called again meanwhile, so several frames can exist at once.
-/

namespace ConnectionLeasing.Affine

/-- A borrow: a connection for an identity, on behalf of a context, carrying a channel. -/
structure Request where
  identity : Identity
  context : ContextId
  channel : Channel
  deriving DecidableEq

/-- What follows once every observer has been told of a call. -/
inductive Purpose
  | borrow (channel : Channel)
  | release
  | close
  /-- Nothing: the call was only announced. -/
  | tell

/-- A manager call that observers are being told of. -/
structure Telling where
  announcement : Announcement
  purpose : Purpose

/-- What follows a sweep of all identities. -/
inductive AfterSweep
  /-- The report is the result. -/
  | report
  /-- The tick goes on with the other observers. -/
  | tick (observers : List Observer)

/-- The sweep of one identity. -/
structure Sweep where
  identity : Identity
  entry : Nat
  /-- The moment its timeouts are measured at. -/
  start : Nat
  report : SweepReport

/-- What is left of a sweep of all identities after the present one. -/
structure SweepRest where
  entries : List (Identity × Nat)
  total : SweepReport
  after : AfterSweep

/-- What follows the closing of a slot. -/
inductive AfterClosing
  /-- It was idle for too long when its context made a call; the telling goes on. -/
  | inspected (observers : List Observer) (telling : Telling)
  /-- A borrow found it of no use to its own context; the borrow goes on. -/
  | ownUseless (r : Request) (entry : Nat)
  /-- The slot `taken` over from `source` displaced it. -/
  | displacedByTaken (r : Request) (source : ContextId) (taken : Handle)
  /-- A newly opened connection displaced it. -/
  | displacedByOpened (r : Request) (opened : Handle)
  /-- It was closed on request. -/
  | requested
  /-- All slots are being closed. -/
  | drained (slots : List (ContextId × Nat)) (entries : List (Identity × Nat)) (closed : Nat)
  /-- A sweep found it idle for too long. -/
  | sweptIdle (sweep : Sweep) (slots : List (ContextId × Nat)) (rest : SweepRest)
  /-- A sweep found its identity over the limit. -/
  | sweptSurplus (sweep : Sweep) (slots : List (ContextId × Nat)) (rest : SweepRest)

/-- An operation that waits for an answer. -/
inductive Frame
  | telling (observer : Recorder) (observers : List Observer) (telling : Telling)
  | ticking (observer : Recorder) (observers : List Observer)
  /-- Is the context's own connection usable? -/
  | checkingOwn (r : Request) (entry slot : Nat) (handle : Handle)
  /-- Is it still, now that it is known not to be lent? -/
  | recheckingOwn (r : Request) (entry slot : Nat) (handle : Handle)
  /-- Is the idle connection of another context usable? `others` are the candidates after it. -/
  | checkingOther (r : Request) (entry : Nat) (owner : ContextId) (slot : Nat) (handle : Handle)
      (others : List (ContextId × Nat))
  /-- A connection is being opened in the room claimed in `entry`. -/
  | opening (r : Request) (entry : Nat) (produces : Channel) (timeout : Duration)
  | closing (c : Closing) (after : AfterClosing)

/-- The call a frame waits for. -/
@[reducible] def Frame.call : Frame → Call
  | telling o _ t => .visit o t.announcement
  | ticking o _ => .tick o
  | checkingOwn _ _ _ h => .check h
  | recheckingOwn _ _ _ h => .check h
  | checkingOther _ _ _ _ h _ => .check h
  | opening r _ produces timeout => .connect produces r.identity timeout
  | closing c _ => .disconnect c.handle

/-- What an operation ends with. -/
inductive Result
  | lent (handle : Handle)
  | refused (error : LeaseError)
  /-- Whether there was something to release. -/
  | released (held : Bool)
  /-- Whether there was something to close. -/
  | closed (held : Bool)
  | swept (report : SweepReport)
  | closedAll (closed : Nat)
  | told

/-- The state an operation leaves and how far it got. -/
abbrev Step := State × Progress Frame Result

/-- Starts closing a slot. -/
def State.close (s : State) (c : Closing) (after : AfterClosing) : Step :=
  (s.beginClosing c, .paused (.closing c after))

end ConnectionLeasing.Affine
