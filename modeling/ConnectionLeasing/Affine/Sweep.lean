import ConnectionLeasing.Affine.Frame

/-!
# Sweeps

A sweep of one identity makes three passes at one moment: slots borrowed for too long go back to
idle; slots idle for too long are closed; and while the identity is over its limit, idle slots are
closed, the least recently released first. A sweep of all identities takes them one by one and
forgets those left without a slot.

Each pass that closes slots stops at every disconnect, so it is written as "find the next one":
`sweepIdle` and `sweepSurplus` end either at a closing or with `k`, which continues the sweep.
-/

namespace ConnectionLeasing.Affine

/-- Marks idle every keyed slot that was lent for too long, and counts them. -/
def releaseExpired (s : State) (now : Nat) : List (ContextId × Nat) → State × Nat
  | [] => (s, 0)
  | (context, id) :: rest =>
    let expired := (s.slot? id).any fun x =>
      (x.openFor context).isSome && x.borrowed && s.policy.borrowExpired x.borrowTime now
    if expired then
      let (s, n) := releaseExpired (s.mapSlot id (·.markIdle now)) now rest
      (s, n + 1)
    else releaseExpired s now rest

/-- The idle slots of an entry, least recently released first. -/
def surplusCandidates (s : State) (e : Nat) : List (ContextId × Nat) :=
  let idle := (s.slotsOf e).filterMap fun k =>
    (s.slot? k.2).bind fun x =>
      if x.borrowed || (x.openFor k.1).isNone then none else some (x.releaseTime, k)
  (idle.mergeSort fun a b => decide (a.1 ≤ b.1)).map (·.2)

/-- Closes the next of some idle slots while the identity is over its limit. -/
def sweepSurplus (s : State) (w : Sweep) (rest : SweepRest) (slots : List (ContextId × Nat))
    (k : State → Sweep → Step) : Step :=
  if (s.registry.entry w.entry).size ≤ s.policy.maxConnections then k s w
  else
    match s.firstOpen? (fun x => !x.borrowed) w.identity w.entry slots with
    | some (c, slots) => s.close c (.sweptSurplus w slots rest)
    | none => k s w

/-- Closes the next slot that was idle for too long; after the last one, the surplus. -/
def sweepIdle (s : State) (w : Sweep) (rest : SweepRest) (slots : List (ContextId × Nat))
    (k : State → Sweep → Step) : Step :=
  let expired := fun x : Slot => !x.borrowed && s.policy.idleExpired x.releaseTime w.start
  match s.firstOpen? expired w.identity w.entry slots with
  | some (c, slots) => s.close c (.sweptIdle w slots rest)
  | none => sweepSurplus s w rest (surplusCandidates s w.entry) k

/-- Starts the sweep of one identity with the pass over lent slots. -/
def beginSweep (s : State) (now : Nat) (i : Identity) (e : Nat) : State × Sweep :=
  let (s, released) := releaseExpired s now (s.slotsOf e)
  (s, ⟨i, e, now, { released }⟩)

/-- Books the sweep of one identity and forgets the identity if nothing is left of it. -/
def endSweep (s : State) (w : Sweep) : State :=
  let s := s.count fun l => { l with
    evictedReleased := l.evictedReleased + w.report.released
    evictedClosed := l.evictedClosed + w.report.closed }
  let s := if w.report = {} then s
    else s.note (.swept w.identity w.report (s.registry.entry w.entry).size)
  if s.registry.isForgettable w.identity w.entry then
    { s with registry := s.registry.forget w.identity }.note (.forgot w.identity)
  else s

/-- Sweeps identities one by one; `k` gets the sum of their reports. -/
def sweepAll (now : Nat) (after : AfterSweep) (k : State → SweepReport → Step) :
    State → SweepReport → List (Identity × Nat) → Step
  | s, total, [] => k s total
  | s, total, (i, e) :: entries =>
    let (s, w) := beginSweep s now i e
    sweepIdle s w ⟨entries, total, after⟩ (s.slotsOf e) fun s w =>
      sweepAll now after k (endSweep s w) (total.merge w.report) entries

end ConnectionLeasing.Affine
