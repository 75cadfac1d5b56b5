import ConnectionLeasing.Journal
import ConnectionLeasing.Ledger

/-!
# A context-affine manager

It keeps at most one slot per identity and context. Its state is the registry with the table of all
slots ever made, the ledger, the observers and the journal; `Closing` names a slot on its way out,
between the moment its handle is taken and the moment its disconnect is answered.

* `slot?_mapSlot_self`, `slot?_mapSlot_of_ne`: changing a slot changes that slot only.
-/

namespace ConnectionLeasing.Affine

structure State where
  settings : ManagerSettings
  factory : Factory
  observers : List Observer
  registry : Registry
  /-- Every slot ever made, by number. -/
  slots : List Slot
  ledger : Ledger
  journal : Journal

/-- A slot whose handle is being disconnected. -/
structure Closing where
  identity : Identity
  entry : Nat
  slot : Nat
  /-- The context the slot belonged to when its handle was taken. -/
  owner : ContextId
  handle : Handle

namespace State

/-- A manager that has done nothing yet, with the built-in observers. -/
def initial (settings : ManagerSettings) (factory : Factory) : State where
  settings
  factory
  observers := [.log, .inspector]
  registry := {}
  slots := []
  ledger := {}
  journal := #[]

def note (s : State) (n : Notice) : State := { s with journal := s.journal.push n }

def count (s : State) (f : Ledger → Ledger) : State := { s with ledger := f s.ledger }

def policy (s : State) : RetentionPolicy := s.settings.retention

def slot? (s : State) (id : Nat) : Option Slot := s.slots[id]?

def mapSlot (s : State) (id : Nat) (f : Slot → Slot) : State :=
  { s with slots := s.slots.modify id f }

/-- The slots registered in an entry. -/
def slotsOf (s : State) (e : Nat) : List (ContextId × Nat) := (s.registry.entry e).slots

/-- The open handle of slot `id`, if that slot belongs to `context`. -/
def openHandle? (s : State) (context : ContextId) (id : Nat) : Option Handle :=
  (s.slot? id).bind (·.openFor context)

/-- The same for a slot that is not lent out. -/
def idleHandle? (s : State) (context : ContextId) (id : Nat) : Option Handle :=
  (s.slot? id).bind fun x => if x.borrowed then none else x.openFor context

/-- The closing of the slot that `context` holds in an entry, if it is open. -/
def ownClosing? (s : State) (i : Identity) (e : Nat) (context : ContextId) : Option Closing :=
  ((s.registry.entry e).slot? context).bind fun id =>
    (s.openHandle? context id).map fun h => ⟨i, e, id, context, h⟩

/-- The closing of slot `id` whoever owns it, if it is open. -/
def anyClosing? (s : State) (i : Identity) (e id : Nat) : Option Closing :=
  (s.slot? id).bind fun x => x.handle.map fun h => ⟨i, e, id, x.owner, h⟩

/-- The first of some keyed slots that is open under its key and satisfies `p`, and the keyed slots
after it. -/
def firstOpen? (s : State) (p : Slot → Bool) (i : Identity) (e : Nat) :
    List (ContextId × Nat) → Option (Closing × List (ContextId × Nat))
  | [] => none
  | (context, id) :: rest =>
    match (s.slot? id).bind fun x => if p x then x.openFor context else none with
    | some h => some (⟨i, e, id, context, h⟩, rest)
    | none => s.firstOpen? p i e rest

/-- Takes the handle out of a slot; the disconnect is under way. -/
def beginClosing (s : State) (c : Closing) : State :=
  s.mapSlot c.slot fun x => { x with handle := none }

/-- Removes the slot once the disconnect is answered, failed or not. -/
def finishClosing (s : State) (c : Closing) (failure : Option LeaseError) : State :=
  let s := match failure with
    | none => s
    | some e =>
      (s.count fun l => { l with disconnectFailures := l.disconnectFailures + 1 }).note
        (.disconnectFailed c.identity c.owner e)
  let s := s.mapSlot c.slot fun x => { x with borrowed := false }
  { s with registry := s.registry.detach c.entry c.owner c.slot }.note (.removed c.identity c.owner)

def statistics (s : State) : List IdentityStatistics := s.registry.statistics s.slots

def metrics (s : State) : Metrics := .ofStatistics s.ledger s.statistics

/-- Writes the counts of every identity to the journal. -/
def summarize (s : State) : State :=
  s.statistics.foldl
    (fun s x => s.note (.identityConnections x.host x.port x.username x.contexts x.borrowed))
    (s.note (.connectionSummary s.registry.size s.registry.totalSlots))

@[simp] theorem slot?_mapSlot_self (s : State) (id : Nat) (f : Slot → Slot) :
    (s.mapSlot id f).slot? id = (s.slot? id).map f := by
  simp [mapSlot, slot?]

theorem slot?_mapSlot_of_ne (s : State) {id other : Nat} (f : Slot → Slot) (h : id ≠ other) :
    (s.mapSlot id f).slot? other = s.slot? other := by
  simp [mapSlot, slot?, h]

end State

end ConnectionLeasing.Affine
