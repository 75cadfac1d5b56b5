import ConnectionLeasing.Identity
import ConnectionLeasing.Slot
import ConnectionLeasing.Text.Json

/-!
# The registry

For every known identity an entry: the slots registered under it by context, and how many more are
being opened. Slots and entries are known by number, because a slot may sit in a table after it
left its entry, and a reservation keeps its entry even when the registry has forgotten the identity
meanwhile.

Room for a slot is claimed before its connection opens (`reserve`) and settled afterwards, either by
registering the slot (`commit`) or by giving the room back (`cancel`).

* `reserve_eq_none`: a claim is refused exactly at the limit.
* `slot?_entry`: the slot of a context is the one its identity's entry holds.
-/

namespace ConnectionLeasing

/-- All slots of one identity. -/
structure Entry where
  /-- The slot number of each context. -/
  slots : List (ContextId × Nat) := []
  /-- Connections being opened that are not registered yet. -/
  pending : Nat := 0
  deriving DecidableEq, Inhabited

namespace Entry

def size (e : Entry) : Nat := e.slots.length

def slot? (e : Entry) (context : ContextId) : Option Nat := Keyed.get? e.slots context

/-- Room for one more connection under the limit `max`. -/
def hasRoom (e : Entry) (max : Nat) : Bool := e.size + e.pending < max

/-- No slot registered and none on its way. -/
def isVacant (e : Entry) : Bool := e.pending = 0 && e.slots.isEmpty

/-- Removes slot number `slot` from under `context`, unless another slot took the key meanwhile. -/
def detach (e : Entry) (context : ContextId) (slot : Nat) : Entry :=
  if e.slot? context = some slot then { e with slots := Keyed.erase e.slots context } else e

end Entry

/-- Connection counts of one identity. -/
structure IdentityStatistics where
  host : String
  port : Nat
  username : String
  contexts : Nat
  borrowed : Nat
  deriving DecidableEq, Inhabited, Ord

/-- The sum of a count over rows. -/
def IdentityStatistics.total (count : IdentityStatistics → Nat) : List IdentityStatistics → Nat
  | [] => 0
  | s :: rows => count s + total count rows

def IdentityStatistics.json (s : IdentityStatistics) : String :=
  Text.Json.object [("host", Text.Json.string s.host), ("port", toString s.port),
    ("username", Text.Json.string s.username), ("contexts", toString s.contexts),
    ("borrowed", toString s.borrowed)]

/-- The known identities, and every entry there ever was by number. -/
structure Registry where
  known : List (Identity × Nat) := []
  entries : List Entry := []
  deriving DecidableEq, Inhabited

namespace Registry

/-- No identity known. -/
def empty : Registry := {}

def entryId? (r : Registry) (i : Identity) : Option Nat := Keyed.get? r.known i

def entry (r : Registry) (e : Nat) : Entry := r.entries[e]?.getD {}

/-- The entry of an identity; empty if it is not known. -/
def entryOf (r : Registry) (i : Identity) : Entry :=
  match r.entryId? i with
  | some e => r.entry e
  | none => {}

def mapEntry (r : Registry) (e : Nat) (f : Entry → Entry) : Registry :=
  { r with entries := r.entries.modify e f }

def slot? (r : Registry) (i : Identity) (context : ContextId) : Option Nat :=
  (r.entryId? i).bind fun e => (r.entry e).slot? context

/-- The entry of an identity, made empty if it is not known yet. -/
def ensure (r : Registry) (i : Identity) : Registry × Nat :=
  match r.entryId? i with
  | some e => (r, e)
  | none => (⟨Keyed.put r.known i r.entries.length, r.entries ++ [{}]⟩, r.entries.length)

/-- Claims room for one more slot of an identity, which becomes known even if it has none. -/
def reserve (r : Registry) (i : Identity) (max : Nat) : Registry × Option Nat :=
  let (r, e) := r.ensure i
  if (r.entry e).hasRoom max then
    (r.mapEntry e fun x => { x with pending := x.pending + 1 }, some e)
  else (r, none)

/-- Gives the claimed room back. -/
def cancel (r : Registry) (e : Nat) : Registry :=
  r.mapEntry e fun x => { x with pending := x.pending - 1 }

/-- Registers a slot in an entry, with the slot it replaces. -/
def insert (r : Registry) (e : Nat) (context : ContextId) (slot : Nat) : Registry × Option Nat :=
  (r.mapEntry e fun x => { x with slots := Keyed.put x.slots context slot },
    (r.entry e).slot? context)

/-- Turns claimed room into a registered slot, with the slot it replaces. -/
def commit (r : Registry) (e : Nat) (context : ContextId) (slot : Nat) : Registry × Option Nat :=
  (r.cancel e).insert e context slot

/-- Registers a slot without a limit, with the slot it replaces. -/
def put (r : Registry) (i : Identity) (context : ContextId) (slot : Nat) : Registry × Option Nat :=
  let (r, e) := r.ensure i
  r.insert e context slot

def detach (r : Registry) (e : Nat) (context : ContextId) (slot : Nat) : Registry :=
  r.mapEntry e fun x => x.detach context slot

/-- Moves a slot from one context to another. Nothing happens unless it is still registered under
the first; otherwise the slot that the second held before is handed back, if any. -/
def reassign? (r : Registry) (e : Nat) (source target : ContextId) (slot : Nat) :
    Option (Registry × Option Nat) :=
  if (r.entry e).slot? source = some slot then some ((r.detach e source slot).insert e target slot)
  else none

/-- Takes the slot of a context out of the registry. -/
def remove (r : Registry) (i : Identity) (context : ContextId) : Registry × Option Nat :=
  match r.entryId? i with
  | none => (r, none)
  | some e =>
    (r.mapEntry e fun x => { x with slots := Keyed.erase x.slots context },
      (r.entry e).slot? context)

/-- Whether an identity is known by this very entry and has nothing left in it. -/
def isForgettable (r : Registry) (i : Identity) (e : Nat) : Bool :=
  r.entryId? i = some e && (r.entry e).isVacant

def forget (r : Registry) (i : Identity) : Registry := { r with known := Keyed.erase r.known i }

/-- Forgets every identity. The entries stay behind for those who still hold them. -/
def drain (r : Registry) : Registry × List (Identity × Nat) := ({ r with known := [] }, r.known)

def size (r : Registry) : Nat := r.known.length

def slotCount (r : Registry) (i : Identity) : Nat := (r.entryOf i).size

/-- The slots of all known identities. -/
def totalSlots (r : Registry) : Nat := r.known.foldr (fun k n => (r.entry k.2).size + n) 0

/-- The counts of one identity, with the slots looked up in the table `slots`. -/
def statisticsOf (r : Registry) (slots : List Slot) (i : Identity) (e : Nat) :
    IdentityStatistics where
  host := i.host
  port := i.port
  username := i.username
  contexts := (r.entry e).size
  borrowed := (r.entry e).slots.countP fun s => slots[s.2]?.any (·.borrowed)

/-- The counts of every known identity. -/
def statistics (r : Registry) (slots : List Slot) : List IdentityStatistics :=
  r.known.map fun k => r.statisticsOf slots k.1 k.2

theorem reserve_eq_none (r : Registry) (i : Identity) (max : Nat) :
    (r.reserve i max).2 = none ↔ max ≤ ((r.ensure i).1.entry (r.ensure i).2).size +
      ((r.ensure i).1.entry (r.ensure i).2).pending := by
  simp only [reserve, Entry.hasRoom, decide_eq_true_eq]
  split <;> simp <;> omega

theorem slot?_entry {r : Registry} {i : Identity} {e : Nat} (h : r.entryId? i = some e)
    (c : ContextId) : r.slot? i c = (r.entry e).slot? c := by
  simp [slot?, h]

end Registry

end ConnectionLeasing
