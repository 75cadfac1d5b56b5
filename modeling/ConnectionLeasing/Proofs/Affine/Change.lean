import ConnectionLeasing.Affine.Operation
import ConnectionLeasing.Proofs.Registry
import Mathlib.Logic.Relation

/-!
# What an operation does to a manager, in small changes

Between two calls an operation changes the manager in a few ways only, listed as `Change`. Every
invariant is proved once for each change, and every function of the manager is shown to be a `Trail`
of changes, so no invariant has to know the functions.

A `Stage` is the manager's state in the middle of an operation, with what the operation has in hand
(a claim of room, a slot it has displaced, a slot it is closing) and with what has become of handles
so far. Two lists that only grow tie numbers to their meaning: the identity each entry was made for,
and the entry each slot was made in.

The guards under `calm` are those that need the slots to stay as they are while a handle is checked
or disconnected.
-/

namespace ConnectionLeasing.Affine

/-! ### Who asks -/

/-- The identity and context a command is about. -/
def Command.caller? : Command → Option (Identity × ContextId)
  | .borrow r => some (r.identity, r.context)
  | .release i c | .close i c => some (i, c)
  | .tell a => some (a.identity, a.context)
  | .tick | .sweep | .closeAll => none

/-- Whether a command asks for something to be done with its caller's slot. -/
def Command.acts : Command → Bool
  | .borrow _ | .release .. | .close .. => true
  | .tell _ | .tick | .sweep | .closeAll => false

/-- Whether a command sweeps all identities. -/
def Command.sweeps : Command → Bool
  | .tick | .sweep => true
  | _ => false

/-! ### Slots by number -/

namespace State

/-- The context a slot belongs to. -/
def owner? (s : State) (id : Nat) : Option ContextId := (s.slot? id).map (·.owner)

/-- The handle in a slot, as long as it is open. -/
def handle? (s : State) (id : Nat) : Option Handle := (s.slot? id).bind (·.handle)

/-- Whether a slot is lent out. -/
def isLent (s : State) (id : Nat) : Bool := (s.slot? id).any (·.borrowed)

/-- Whether a slot has been lent out for too long. -/
def isOverdue (s : State) (now id : Nat) : Bool :=
  (s.slot? id).any fun x => x.borrowed && s.policy.borrowExpired x.borrowTime now

/-- The slot number a context has in an entry. -/
def slotIn? (s : State) (e : Nat) (c : ContextId) : Option Nat := s.registry.slotIn? e c

end State

/-! ### Stages -/

structure Stage where
  state : State
  /-- The identity each entry was made for, by number. -/
  homes : List Identity
  /-- The entry each slot was made in, by number. -/
  places : List Nat
  /-- The entry in which room is claimed. -/
  claim : Option Nat
  /-- A slot that has lost its place to another and is still open. -/
  displaced : Option Nat
  /-- The slot whose handle is being disconnected. -/
  closing : Option Closing
  /-- The handles connected so far. -/
  opened : List (Identity × Handle)
  /-- The handles asked to disconnect so far. -/
  disconnected : List Handle

namespace Stage

/-- The stage with another state. -/
def withState (g : Stage) (s : State) : Stage := { g with state := s }

/-- The stage with another registry. -/
def withRegistry (g : Stage) (r : Registry) : Stage := g.withState { g.state with registry := r }

/-- Whether slot `id` is the one the caller of a command has in its own entry. -/
def Own (g : Stage) (k : Command) (id : Nat) : Prop :=
  ∃ i c e, k.caller? = some (i, c) ∧ g.homes[e]? = some i ∧ g.state.slotIn? e c = some id

/-- The stage after a new slot was registered in the room claimed in entry `e`. -/
def register (g : Stage) (now : Nat) (r : Request) (e : Nat) (h : Handle) : Stage := { g with
  state := { g.state with
    slots := g.state.slots ++ [Slot.lentTo r.context h now]
    registry := (g.state.registry.commit e r.context g.state.slots.length).1 }
  places := g.places ++ [e]
  claim := none
  displaced := g.state.slotIn? e r.context
  opened := g.opened ++ [(r.identity, h)] }

/-- The stage after slot `id` moved from one context to another. -/
def move (g : Stage) (now : Nat) (r : Request) (e : Nat) (source : ContextId) (id : Nat) : Stage :=
  let registry := g.state.registry.detach e source id
  { g with
    state := { g.state with registry := (registry.insert e r.context id).1 }.mapSlot id
      (·.takenOver r.context now)
    displaced := registry.slotIn? e r.context }

/-- The stage after the handle was taken out of a slot. -/
def take (g : Stage) (c : Closing) : Stage := { g with
  state := g.state.beginClosing c
  displaced := none
  closing := some c
  disconnected := g.disconnected ++ [c.handle] }

/-- The stage after the disconnect of a slot was answered. -/
def finish (g : Stage) (c : Closing) (failure : Option LeaseError) : Stage :=
  { g.withState (g.state.finishClosing c failure) with closing := none }

end Stage

/-! ### Changes -/

/-- One change that an operation `k` makes at moment `now`. -/
inductive Change (calm : Prop) (k : Command) (now : Nat) : Stage → Stage → Prop
  /-- Something is written down. -/
  | silent (g : Stage) (observers : List Observer) (ledger : Ledger) (journal : Journal) :
      Change calm k now g (g.withState { g.state with observers, ledger, journal })
  /-- An identity becomes known. -/
  | know (g : Stage) (i : Identity) (h : g.state.registry.entryId? i = none) :
      Change calm k now g
        { g.withRegistry (g.state.registry.ensure i).1 with homes := g.homes ++ [i] }
  /-- Room is claimed. -/
  | claim (g : Stage) (i : Identity) (e : Nat) (hi : g.state.registry.entryId? i = some e)
      (room : (g.state.registry.entry e).hasRoom g.state.settings.maxConnections)
      (hg : g.claim = none) :
      Change calm k now g { g.withRegistry (g.state.registry.claim e) with claim := some e }
  /-- Claimed room is given back. -/
  | cancel (g : Stage) (e : Nat) (hg : g.claim = some e) :
      Change calm k now g { g.withRegistry (g.state.registry.cancel e) with claim := none }
  /-- A new connection is registered in claimed room. -/
  | register (g : Stage) (r : Request) (e : Nat) (h : Handle) (hk : calm → k = .borrow r)
      (hg : g.claim = some e) (hd : calm → g.displaced = none ∧ g.closing = none)
      (he : calm → g.homes[e]? = some r.identity) (hh : calm → ∀ p ∈ g.opened, p.2 ≠ h) :
      Change calm k now g (g.register now r e h)
  /-- A slot goes back to idle: its context releases it, or it was lent for too long and is the
  caller's own or met by a sweep. -/
  | idle (g : Stage) (id : Nat)
      (h : calm → (g.Own k id ∧ ∃ i c, k = .release i c) ∨
        (g.Own k id ∨ k.sweeps) ∧ g.state.isOverdue now id) :
      Change calm k now g (g.withState (g.state.mapSlot id (·.markIdle now)))
  /-- The caller's own slot is lent again. -/
  | lend (g : Stage) (r : Request) (id : Nat) (hk : calm → k = .borrow r)
      (h : calm → g.Own k id) :
      Change calm k now g (g.withState (g.state.mapSlot id (·.markBorrowed now)))
  /-- An idle slot moves to the caller. -/
  | move (g : Stage) (r : Request) (e : Nat) (source : ContextId) (id : Nat)
      (hk : calm → k = .borrow r)
      (hs : g.state.slotIn? e source = some id)
      (hd : calm → g.displaced = none ∧ g.closing = none)
      (hne : calm → source ≠ r.context) (he : calm → g.homes[e]? = some r.identity)
      (ho : calm → (g.state.handle? id).isSome) (hl : calm → g.state.isLent id = false) :
      Change calm k now g (g.move now r e source id)
  /-- The handle is taken out of a slot that is idle, that the caller has and asks something of, or
  that is displaced, or out of any slot while everything is closed. -/
  | take (g : Stage) (c : Closing) (hh : calm → g.state.handle? c.slot = some c.handle)
      (ho : calm → g.state.owner? c.slot = some c.owner)
      (hp : calm → g.places[c.slot]? = some c.entry)
      (hd : calm → g.displaced = none ∨ g.displaced = some c.slot)
      (hw : calm → g.state.isLent c.slot = false ∨ (g.Own k c.slot ∧ k.acts) ∨
        g.displaced = some c.slot ∨ k = .closeAll) (hc : calm → g.closing = none) :
      Change calm k now g (g.take c)
  /-- A slot whose handle was disconnected is removed. -/
  | finish (g : Stage) (c : Closing) (failure : Option LeaseError) (hc : g.closing = some c) :
      Change calm k now g (g.finish c failure)
  /-- An identity of which nothing is left is forgotten. -/
  | forget (g : Stage) (i : Identity) (e : Nat) (h : g.state.registry.isForgettable i e) :
      Change calm k now g (g.withRegistry (g.state.registry.forget i))
  /-- All identities are forgotten. -/
  | drain (g : Stage) (hk : k = .closeAll) :
      Change calm k now g (g.withRegistry g.state.registry.drain.1)

/-- The changes that an operation makes one after the other. -/
abbrev Trail (calm : Prop) (k : Command) (now : Nat) : Stage → Stage → Prop :=
  Relation.ReflTransGen (Change calm k now)

end ConnectionLeasing.Affine
