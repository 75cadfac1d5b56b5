import ConnectionLeasing.Affine.Frame

/-!
# Borrowing

A borrow looks for a connection in three places, in this order: the context's own slot, the idle
slots of other contexts, and a new connection below the limit. An own slot that is unusable or of
another channel is closed on the way.

The definitions are in the opposite order, each place before the one that falls back on it.
-/

namespace ConnectionLeasing.Affine

/-- Books a borrow that was served and hands out its connection. -/
def State.lend (s : State) (served : Ledger → Ledger) (n : Notice) (h : Handle) : Step :=
  ((s.count fun l => { served l with borrowed := l.borrowed + 1 }).note n, .done (.lent h))

def lendReused (s : State) (r : Request) (h : Handle) : Step :=
  s.lend (fun l => { l with reused := l.reused + 1 }) (.reused r.identity r.context) h

def lendTaken (s : State) (r : Request) (source : ContextId) (h : Handle) : Step :=
  s.lend (fun l => { l with stolen := l.stolen + 1 }) (.tookOver r.identity source r.context) h

def lendOpened (s : State) (r : Request) (h : Handle) : Step :=
  s.lend (fun l => { l with created := l.created + 1 })
    (.registered r.identity r.context r.channel) h

/-! ### A new connection -/

/-- Opens a connection in the room claimed in an entry. -/
def openNew (s : State) (r : Request) (e : Nat) : Step :=
  match s.factory.produces? r.channel with
  | some produces => (s, .paused (.opening r e produces s.settings.connectTimeout))
  | none =>
    ({ s with registry := s.registry.cancel e }.note (.unsupported r.channel),
      .done (.refused (.unsupported r.channel)))

/-- Refuses a borrow at the limit. -/
def refuseOverLimit (s : State) (r : Request) : Step :=
  let current := s.registry.slotCount r.identity
  let max := s.settings.maxConnections
  ((s.count fun l => { l with overLimit := l.overLimit + 1 }).note
      (.tooMany r.identity r.context current max),
    .done (.refused (.limitExceeded r.identity r.context current max)))

/-- Claims room for a new connection and opens it. -/
def claim (s : State) (r : Request) : Step :=
  match s.registry.reserve r.identity s.settings.maxConnections with
  | (registry, some e) => openNew { s with registry } r e
  | (registry, none) => refuseOverLimit { s with registry } r

/-- Registers the connection that was opened, or gives its room back. A slot that took the key
meanwhile is displaced and closed. -/
def resumeOpening (s : State) (now : Nat) (r : Request) (e : Nat) (c : Connected) : Step :=
  match c.failure with
  | some error => ({ s with registry := s.registry.cancel e }, .done (.refused error))
  | none =>
    let s := s.note (.opened r.identity r.channel)
    let id := s.slots.length
    let s := { s with slots := s.slots ++ [Slot.lentTo r.context c.handle now] }
    let (registry, displaced) := s.registry.commit e r.context id
    let s := { s with registry }
    match displaced.bind (s.anyClosing? r.identity e) with
    | some closing => s.close closing (.displacedByOpened r c.handle)
    | none => lendOpened s r c.handle

/-! ### The idle slot of another context -/

/-- Asks after the first idle slot of another context; without one, a new connection is needed. -/
def takeOver (s : State) (r : Request) (e : Nat) : List (ContextId × Nat) → Step
  | [] => claim s r
  | (owner, id) :: others =>
    if owner = r.context then takeOver s r e others
    else
      match s.idleHandle? owner id with
      | some h => (s, .paused (.checkingOther r e owner id h others))
      | none => takeOver s r e others

/-- Moves the slot over if it is usable and carries the right channel; otherwise tries the next. -/
def resumeOther (s : State) (now : Nat) (r : Request) (e : Nat) (owner : ContextId) (id : Nat)
    (h : Handle) (others : List (ContextId × Nat)) (usable : Bool) : Step :=
  if usable && h.channel = r.channel then
    match s.registry.reassign? e owner r.context id with
    | none => takeOver s r e others
    | some (registry, displaced) =>
      let s := { s with registry }.mapSlot id (·.takenOver r.context now)
      match displaced.bind (s.anyClosing? r.identity e) with
      | some closing => s.close closing (.displacedByTaken r owner h)
      | none => lendTaken s r owner h
  else takeOver s r e others

/-! ### The context's own slot -/

/-- Asks after the context's own slot; without one, other contexts are looked at. -/
def reuse (s : State) (r : Request) (e : Nat) : Step :=
  match s.ownClosing? r.identity e r.context with
  | some c => (s, .paused (.checkingOwn r e c.slot c.handle))
  | none => takeOver s r e (s.slotsOf e)

/-- Closes the own slot, which is of no use for this borrow. -/
def closeUseless (s : State) (r : Request) (e id : Nat) (h : Handle) : Step :=
  s.close ⟨r.identity, e, id, r.context, h⟩ (.ownUseless r e)

/-- An unusable connection is closed; a usable one that is lent already refuses the borrow. -/
def resumeOwn (s : State) (r : Request) (e id : Nat) (h : Handle) (usable : Bool) : Step :=
  if !usable then closeUseless (s.note (.ownUnusable r.identity r.context)) r e id h
  else if (s.slot? id).any (·.borrowed) then
    (s, .done (.refused (.alreadyBorrowed r.identity r.context)))
  else (s, .paused (.recheckingOwn r e id h))

/-- A usable idle connection of the right channel is lent again; any other is closed. -/
def resumeOwnAgain (s : State) (now : Nat) (r : Request) (e id : Nat) (h : Handle)
    (usable : Bool) : Step :=
  if usable && h.channel = r.channel then
    lendReused (s.mapSlot id (·.markBorrowed now)) r h
  else closeUseless (s.note (.ownOfAnotherKind r.identity r.context r.channel)) r e id h

/-- Starts the walk. -/
def borrow (s : State) (r : Request) : Step :=
  match s.registry.entryId? r.identity with
  | some e => reuse s r e
  | none => claim s r

end ConnectionLeasing.Affine
