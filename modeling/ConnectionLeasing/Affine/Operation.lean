import ConnectionLeasing.Affine.Borrow
import ConnectionLeasing.Affine.Sweep

/-!
# The operations of a context-affine manager

`start` runs an operation to its first call or to its end, `resume` goes on from a frame with the
answer to its call. Borrow, release and close are announced to every observer first; the inspector
checks the slot of the calling context then.
-/

namespace ConnectionLeasing.Affine

/-- What can be asked of a manager. -/
inductive Command
  | borrow (r : Request)
  | release (identity : Identity) (context : ContextId)
  | close (identity : Identity) (context : ContextId)
  /-- Only tells the observers. -/
  | tell (announcement : Announcement)
  /-- Shows every observer a tick. -/
  | tick
  /-- Sweeps every identity, past the observers. -/
  | sweep
  /-- Closes every slot of every identity. -/
  | closeAll

/-! ### Giving back -/

/-- Marks the context's slot idle. -/
def release (s : State) (now : Nat) (i : Identity) (context : ContextId) : Step :=
  match (s.registry.slot? i context).bind fun id => (s.openHandle? context id).map fun _ => id with
  | some id =>
    (((s.mapSlot id (·.markIdle now)).count fun l => { l with released := l.released + 1 }).note
        (.released i context), .done (.released true))
  | none => (s.note (.nothingToRelease i context), .done (.released false))

/-- Disconnects and removes the context's slot. -/
def closeOwn (s : State) (i : Identity) (context : ContextId) : Step :=
  match (s.registry.entryId? i).bind fun e => s.ownClosing? i e context with
  | some c => s.close c .requested
  | none => (s.note (.nothingToClose i context), .done (.closed false))

/-- Closes the slots of some entries that the registry has forgotten, `closed` so far. -/
def closeEntries (s : State) (closed : Nat) : List (Identity × Nat) → Step
  | [] => (s.note (.closedAll closed), .done (.closedAll closed))
  | (i, e) :: entries =>
    match s.firstOpen? (fun _ => true) i e (s.slotsOf e) with
    | some (c, slots) => s.close c (.drained slots entries closed)
    | none => closeEntries s closed entries

/-- Forgets every identity and closes what was registered. -/
def closeAll (s : State) : Step :=
  let (registry, entries) := s.registry.drain
  closeEntries { s with registry } 0 entries

/-! ### Telling observers -/

/-- Checks the slot of the calling context. A slot idle for too long is handed back for closing. -/
def inspect (s : State) (now : Nat) (a : Announcement) : State × Option Closing :=
  match (s.registry.entryId? a.identity).bind fun e => s.ownClosing? a.identity e a.context with
  | none => (s, none)
  | some c =>
    match (s.slot? c.slot).map fun x =>
        s.policy.verdict x.borrowed x.borrowTime x.releaseTime now with
    | some .release =>
      let s := (s.mapSlot c.slot (·.markIdle now)).count fun l =>
        { l with evictedReleased := l.evictedReleased + 1 }
      ((s.note (.borrowTimedOut a.identity a.context)).note
        (.inspected a.identity a.context .release), none)
    | some .close => (s, some c)
    | _ => (s, none)

/-- Books a slot that was closed by the inspection of its context. -/
def afterInspection (s : State) (a : Announcement) : State :=
  ((s.count fun l => { l with evictedClosed := l.evictedClosed + 1 }).note
    (.idleTimedOut a.identity a.context)).note (.inspected a.identity a.context .close)

/-- Does what a call was announced for. -/
def perform (s : State) (now : Nat) (t : Telling) : Step :=
  let a := t.announcement
  match t.purpose with
  | .borrow channel => borrow s ⟨a.identity, a.context, channel⟩
  | .release => release s now a.identity a.context
  | .close => closeOwn s a.identity a.context
  | .tell => (s, .done .told)

/-- Tells observers of a call one after the other, then does what it was announced for. -/
def tell (now : Nat) (t : Telling) : State → List Observer → Step
  | s, [] => perform s now t
  | s, .log :: observers => tell now t (s.note (.managerCall t.announcement)).summarize observers
  | s, .inspector :: observers =>
    match inspect s now t.announcement with
    | (s, some c) => s.close c (.inspected observers t)
    | (s, none) => tell now t s observers
  | s, .poolInspector :: observers => tell now t s observers
  | s, .recorder o :: observers => (s, .paused (.telling o observers t))

/-- Shows observers a tick one after the other. -/
def tick (now : Nat) : State → List Observer → Step
  | s, [] => (s, .done .told)
  | s, .log :: observers => tick now s.summarize observers
  | s, .inspector :: observers =>
    sweepAll now (.tick observers) (fun s _ => tick now s observers) s {} s.registry.known
  | s, .poolInspector :: observers => tick now s observers
  | s, .recorder o :: observers =>
    if o.ticks then (s, .paused (.ticking o observers)) else tick now s observers

/-- What a finished sweep goes on with. -/
def AfterSweep.continue (now : Nat) : AfterSweep → State → SweepReport → Step
  | report => fun s total => (s, .done (.swept total))
  | tick observers => fun s _ => Affine.tick now s observers

/-! ### Going on after a closing -/

/-- Goes on with a sweep of all identities after the one that is through. -/
def SweepRest.continue (rest : SweepRest) (now : Nat) (s : State) (w : Sweep) : Step :=
  sweepAll now rest.after (rest.after.continue now) (endSweep s w) (rest.total.merge w.report)
    rest.entries

def resumeClosing (s : State) (now : Nat) (c : Closing) : AfterClosing → Step
  | .inspected observers t => tell now t (afterInspection s t.announcement) observers
  | .ownUseless r e => takeOver s r e (s.slotsOf e)
  | .displacedByTaken r source taken => lendTaken s r source taken
  | .displacedByOpened r opened => lendOpened s r opened
  | .requested =>
    (s.count fun l => { l with closed := l.closed + 1 }, .done (.closed true))
  | .drained slots entries closed =>
    match s.firstOpen? (fun _ => true) c.identity c.entry slots with
    | some (c, slots) => s.close c (.drained slots entries (closed + 1))
    | none => closeEntries s (closed + 1) entries
  | .sweptIdle w slots rest =>
    let w := { w with report := { w.report with closedIdle := w.report.closedIdle + 1 } }
    sweepIdle s w rest slots (rest.continue now)
  | .sweptSurplus w slots rest =>
    let w := { w with report := { w.report with closedSurplus := w.report.closedSurplus + 1 } }
    sweepSurplus s w rest slots (rest.continue now)

/-! ### The machine -/

/-- Starts an operation. -/
def start (s : State) (now : Nat) : Command → Step
  | .borrow r => tell now ⟨⟨.borrow, r.identity, r.context⟩, .borrow r.channel⟩ s s.observers
  | .release i c => tell now ⟨⟨.release, i, c⟩, .release⟩ s s.observers
  | .close i c => tell now ⟨⟨.close, i, c⟩, .close⟩ s s.observers
  | .tell a => tell now ⟨a, .tell⟩ s s.observers
  | .tick => tick now s s.observers
  | .sweep => sweepAll now .report (AfterSweep.report.continue now) s {} s.registry.known
  | .closeAll => closeAll s

/-- Goes on with an operation that has its answer. -/
def resume (s : State) (now : Nat) : (f : Frame) → f.call.Answer → Step
  | .telling _ observers t, _ => tell now t s observers
  | .ticking _ observers, _ => tick now s observers
  | .checkingOwn r e id h, usable => resumeOwn s r e id h usable
  | .recheckingOwn r e id h, usable => resumeOwnAgain s now r e id h usable
  | .checkingOther r e owner id h others, usable => resumeOther s now r e owner id h others usable
  | .opening r e _ _, connected => resumeOpening s now r e connected
  | .closing c after, failure => resumeClosing (s.finishClosing c failure) now c after

end ConnectionLeasing.Affine
