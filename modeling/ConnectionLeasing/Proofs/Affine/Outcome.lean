import ConnectionLeasing.Proofs.Affine.Lookup
import ConnectionLeasing.Proofs.Affine.Sound

/-!
# What a move of an operation comes to

`Outcome` says of a function of the manager that it is a trail of changes, and that what the
operation has in hand at the end is what its frame shows: a claim of room while it waits for a
connection, a slot without its handle while it waits for a disconnect, and nothing otherwise.
Whatever the frame tells of the manager is true then (`Frame.Holds`), and a handle that is lent is
in the caller's slot (`Result.Holds`).

Functions that start with empty hands do so in a `Ready` stage.
-/

namespace ConnectionLeasing.Affine

/-! ### What frames and results tell -/

/-- What the observers are told of a command. -/
def Command.telling? : Command → Option Telling
  | .borrow r => some ⟨⟨.borrow, r.identity, r.context⟩, .borrow r.channel⟩
  | .release i c => some ⟨⟨.release, i, c⟩, .release⟩
  | .close i c => some ⟨⟨.close, i, c⟩, .close⟩
  | .tell a => some ⟨a, .tell⟩
  | .tick | .sweep | .closeAll => none

/-- The entry in which an operation has claimed room. -/
def Frame.claim? : Frame → Option Nat
  | .opening _ e _ _ => some e
  | _ => none

/-- The slot that an operation is closing. -/
def Frame.closing? : Frame → Option Closing
  | .closing c _ => some c
  | _ => none

namespace Stage

/-- The handle is in the slot that the context has in the entry of the identity, and lent out. -/
def Lent (g : Stage) (i : Identity) (c : ContextId) (h : Handle) : Prop :=
  ∃ e id, g.homes[e]? = some i ∧ g.state.slotIn? e c = some id ∧ g.state.handle? id = some h ∧
    g.state.isLent id = true

/-- All these slots were made in the entry. -/
def Made (g : Stage) (e : Nat) (slots : List (ContextId × Nat)) : Prop :=
  ∀ p ∈ slots, g.places[p.2]? = some e

end Stage

/-- What an operation relies on after a slot was closed. -/
def AfterClosing.Holds (k : Command) (g : Stage) (c : Closing) : AfterClosing → Prop
  | .inspected _ t => k.telling? = some t
  | .ownUseless r e => k = .borrow r ∧ g.homes[e]? = some r.identity
  | .displacedByTaken r _ taken => k = .borrow r ∧ g.Lent r.identity r.context taken
  | .displacedByOpened r opened => k = .borrow r ∧ g.Lent r.identity r.context opened
  | .requested => ∃ i d, k = .close i d
  | .drained slots _ _ => k = .closeAll ∧ g.Made c.entry slots
  | .sweptIdle w slots _ => k.sweeps ∧ g.Made w.entry slots
  | .sweptSurplus w slots _ => k.sweeps ∧ g.Made w.entry slots

/-- What a frame tells of the manager. -/
def Frame.Holds (k : Command) (g : Stage) : Frame → Prop
  | .telling _ _ t => k.telling? = some t
  | .ticking _ _ => k.sweeps
  | .checkingOwn r e id h => k = .borrow r ∧ g.homes[e]? = some r.identity ∧
    g.state.slotIn? e r.context = some id ∧ g.state.handle? id = some h
  | .recheckingOwn r e id h => k = .borrow r ∧ g.homes[e]? = some r.identity ∧
    g.state.slotIn? e r.context = some id ∧ g.state.handle? id = some h
  | .checkingOther r e owner id h others => k = .borrow r ∧ g.homes[e]? = some r.identity ∧
    owner ≠ r.context ∧ g.state.handle? id = some h ∧ g.state.isLent id = false ∧
    g.Made e others
  | .opening r e _ _ => k = .borrow r ∧ g.homes[e]? = some r.identity
  | .closing c after => after.Holds k g c

/-- What a result tells of the manager. -/
def Result.Holds (k : Command) (g : Stage) : Result → Prop
  | .lent h => ∃ r, k = .borrow r ∧ g.Lent r.identity r.context h
  | _ => True

section progress

/-- The entry in which room is still claimed after a move. -/
def claimOf : Progress Frame Result → Option Nat
  | .paused f => f.claim?
  | .done _ => none

/-- The slot that is being closed after a move. -/
def closingOf : Progress Frame Result → Option Closing
  | .paused f => f.closing?
  | .done _ => none

/-- What the end of a move tells of the manager. -/
def HoldsOf (k : Command) (g : Stage) : Progress Frame Result → Prop
  | .paused f => f.Holds k g
  | .done r => r.Holds k g

end progress

/-! ### Outcomes -/

namespace Stage

/-- The stage in which a move ends. `O` are the handles that have been opened by then, `D` those
asked to disconnect before the call that is made at the end. -/
structure Ends (calm : Prop) (k : Command) (D : List Handle) (O : List (Identity × Handle))
    (g : Stage) (step : Step) : Prop where
  state : g.state = step.1
  claim : g.claim = claimOf step.2
  closing : g.closing = closingOf step.2
  opened : g.opened = O
  disconnected : g.disconnected = D ++ (closingOf step.2).toList.map (·.handle)
  settled : calm → g.displaced = none
  holds : calm → HoldsOf k g step.2

/-- A stage without a claim of room and without a slot being closed. -/
structure Free (calm : Prop) (D : List Handle) (O : List (Identity × Handle)) (g : Stage) :
    Prop where
  claim : g.claim = none
  closing : g.closing = none
  opened : g.opened = O
  disconnected : g.disconnected = D
  sound : calm → g.Sound

/-- A stage with nothing in hand at all. -/
structure Ready (calm : Prop) (D : List Handle) (O : List (Identity × Handle)) (g : Stage) :
    Prop extends g.Free calm D O where
  settled : calm → g.displaced = none

/-- A stage in which an operation waits at a frame. -/
structure Awaits (calm : Prop) (k : Command) (f : Frame) (D : List Handle)
    (O : List (Identity × Handle)) (g : Stage) : Prop where
  claim : g.claim = f.claim?
  closing : g.closing = f.closing?
  opened : g.opened = O
  disconnected : g.disconnected = D
  settled : calm → g.displaced = none
  sound : calm → g.Sound
  holds : calm → f.Holds k g

end Stage

/-- A move that starts in a stage is a trail of changes and ends as its frame or result shows. -/
def Outcome (calm : Prop) (k : Command) (now : Nat) (D : List Handle)
    (O : List (Identity × Handle)) (g : Stage) (step : Step) : Prop :=
  ∃ g', Trail calm k now g g' ∧ g'.Ends calm k D O step

/-! ### Writing things down -/

theorem State.exists_journal_summarize (s : State) : ∃ journal, s.summarize = { s with journal } := by
  have h : ∀ (l : List IdentityStatistics) (t : State), ∃ journal, l.foldl
      (fun s x => s.note (.identityConnections x.host x.port x.username x.contexts x.borrowed)) t =
        { t with journal } := by
    intro l
    induction l with
    | nil => exact fun t => ⟨t.journal, rfl⟩
    | cons x l ih =>
      intro t
      obtain ⟨journal, hl⟩ := ih (t.note (.identityConnections x.host x.port x.username x.contexts
        x.borrowed))
      exact ⟨journal, hl⟩
  obtain ⟨journal, hl⟩ := h s.statistics
    (s.note (.connectionSummary s.registry.size s.registry.totalSlots))
  exact ⟨journal, hl⟩

/-- Two states that differ only in what is written down. -/
def State.SameTables (s s' : State) : Prop :=
  ∃ observers ledger journal, s' = { s with observers, ledger, journal }

namespace State.SameTables

variable {s s' s'' : State}

theorem refl (s : State) : s.SameTables s := ⟨s.observers, s.ledger, s.journal, rfl⟩

theorem trans (h : s.SameTables s') (h' : s'.SameTables s'') : s.SameTables s'' := by
  obtain ⟨_, _, _, rfl⟩ := h
  obtain ⟨o, l, j, rfl⟩ := h'
  exact ⟨o, l, j, rfl⟩

theorem note (s : State) (n : Notice) : s.SameTables (s.note n) :=
  ⟨s.observers, s.ledger, s.journal.push n, rfl⟩

theorem count (s : State) (f : Ledger → Ledger) : s.SameTables (s.count f) :=
  ⟨s.observers, f s.ledger, s.journal, rfl⟩

theorem summarize (s : State) : s.SameTables s.summarize := by
  obtain ⟨journal, hs⟩ := s.exists_journal_summarize
  exact ⟨s.observers, s.ledger, journal, hs⟩

end State.SameTables

section outcome
variable {calm : Prop} {k : Command} {now : Nat} {D : List Handle} {O : List (Identity × Handle)}
  {g g' : Stage} {step : Step}

theorem Outcome.after (h : Change calm k now g g') (ho : Outcome calm k now D O g' step) :
    Outcome calm k now D O g step := by
  obtain ⟨g'', ht, he⟩ := ho
  exact ⟨g'', .head h ht, he⟩

theorem Change.written {s : State} (h : g.state.SameTables s) :
    Change calm k now g (g.withState s) := by
  obtain ⟨o, l, j, rfl⟩ := h
  exact .silent g o l j

theorem Outcome.written {s : State} (h : g.state.SameTables s)
    (ho : Outcome calm k now D O (g.withState s) step) : Outcome calm k now D O g step :=
  .after (.written h) ho

theorem Stage.Awaits.ready {f : Frame} (hg : g.Awaits calm k f D O) (claim : f.claim? = none)
    (closing : f.closing? = none) : g.Ready calm D O :=
  ⟨⟨hg.claim.trans claim, hg.closing.trans closing, hg.opened, hg.disconnected, hg.sound⟩,
    hg.settled⟩

theorem Stage.Lent.written {i : Identity} {c : ContextId} {h : Handle} (hl : g.Lent i c h)
    {s : State} (hs : g.state.SameTables s) : (g.withState s).Lent i c h := by
  obtain ⟨_, _, _, rfl⟩ := hs
  exact hl

namespace Stage.Free

theorem change (hg : g.Free calm D O) (h : Change calm k now g g') (claim : g'.claim = none)
    (closing : g'.closing = none) (opened : g'.opened = g.opened)
    (disconnected : g'.disconnected = g.disconnected) : g'.Free calm D O where
  claim := claim
  closing := closing
  opened := opened.trans hg.opened
  disconnected := disconnected.trans hg.disconnected
  sound hc := h.sound hc (hg.sound hc)

theorem close (hg : g.Free calm D O) {c : Closing} {after : AfterClosing}
    (hh : calm → g.state.handle? c.slot = some c.handle)
    (ho : calm → g.state.owner? c.slot = some c.owner)
    (hp : calm → g.places[c.slot]? = some c.entry)
    (hd : calm → g.displaced = none ∨ g.displaced = some c.slot)
    (hw : calm → g.state.isLent c.slot = false ∨ (g.Own k c.slot ∧ k.acts) ∨
      g.displaced = some c.slot ∨ k = .closeAll) (ha : calm → after.Holds k (g.take c) c) :
    Outcome calm k now D O g (g.state.close c after) := by
  refine ⟨g.take c, .single (.take g c hh ho hp hd hw fun _ => hg.closing), rfl, hg.claim, rfl,
    hg.opened, ?_, fun _ => rfl, ha⟩
  show g.disconnected ++ [c.handle] = _
  rw [hg.disconnected]
  rfl

/-- A slot that was displaced is closed. While slots stay as they are it is open, so without a
closing there is no displaced slot. -/
theorem displace (hg : g.Free calm D O) {i : Identity} {e : Nat} {after : AfterClosing}
    (hp : calm → ∀ id, g.displaced = some id → g.places[id]? = some e)
    (ha : calm → ∀ c, g.displaced = some c.slot → after.Holds k (g.take c) c)
    (ho : g.Ready calm D O → Outcome calm k now D O g step) :
    Outcome calm k now D O g
      (match g.displaced.bind (g.state.anyClosing? i e) with
      | some c => g.state.close c after
      | none => step) := by
  split
  · rename_i c hc
    obtain ⟨id, hid, hc⟩ := Option.bind_eq_some_iff.mp hc
    obtain ⟨_, he, hslot, howner, hhandle⟩ := State.anyClosing?_eq_some hc
    rw [← hslot] at hid
    refine hg.close (fun _ => hhandle) (fun _ => howner) (fun h => ?_) (fun _ => .inr hid)
      (fun _ => .inr (.inr (.inl hid))) fun h => ha h c hid
    rw [he]
    exact hp h _ hid
  · rename_i hc
    refine ho ⟨hg, fun h => ?_⟩
    cases hd : g.displaced with
    | none => rfl
    | some id =>
      rw [hd] at hc
      obtain ⟨_, x, hx⟩ := (hg.sound h).placed.displaced id hd
      rw [State.handle?_of_anyClosing? hc] at hx
      cases hx

end Stage.Free

namespace Stage.Ready

theorem change (hg : g.Ready calm D O) (h : Change calm k now g g') (claim : g'.claim = none)
    (closing : g'.closing = none) (opened : g'.opened = g.opened)
    (disconnected : g'.disconnected = g.disconnected) (displaced : g'.displaced = g.displaced) :
    g'.Ready calm D O :=
  ⟨hg.toFree.change h claim closing opened disconnected, fun hc => displaced.trans (hg.settled hc)⟩

theorem written (hg : g.Ready calm D O) {s : State} (h : g.state.SameTables s) :
    (g.withState s).Ready calm D O :=
  have hchange : Change calm .tick 0 g (g.withState s) := .written h
  hg.change hchange hg.claim hg.closing rfl rfl rfl

theorem paused (hg : g.Ready calm D O) {f : Frame} (h : calm → f.Holds k g)
    (claim : f.claim? = none) (closing : f.closing? = none) :
    Outcome calm k now D O g (g.state, .paused f) := by
  refine ⟨g, .refl, rfl, hg.claim.trans claim.symm, hg.closing.trans closing.symm, hg.opened, ?_,
    hg.settled, h⟩
  rw [hg.disconnected, closingOf, closing]
  simp

theorem done (hg : g.Ready calm D O) {r : Result} (h : calm → r.Holds k g) :
    Outcome calm k now D O g (g.state, .done r) := by
  refine ⟨g, .refl, rfl, hg.claim, hg.closing, hg.opened, ?_, hg.settled, h⟩
  rw [hg.disconnected]
  simp [closingOf]

theorem lend (hg : g.Ready calm D O) {r : Request} {h : Handle}
    (hl : calm → k = .borrow r ∧ g.Lent r.identity r.context h) (served : Ledger → Ledger)
    (n : Notice) : Outcome calm k now D O g (g.state.lend served n h) := by
  have hw : g.state.SameTables (g.state.lend served n h).1 := (State.SameTables.count _ _).trans
    (State.SameTables.note _ _)
  exact .written hw ((hg.written hw).done fun hc => ⟨r, (hl hc).1, (hl hc).2.written hw⟩)

theorem close (hg : g.Ready calm D O) {c : Closing} {after : AfterClosing}
    (hh : calm → g.state.handle? c.slot = some c.handle)
    (ho : calm → g.state.owner? c.slot = some c.owner)
    (hp : calm → g.places[c.slot]? = some c.entry)
    (hw : calm → g.state.isLent c.slot = false ∨ (g.Own k c.slot ∧ k.acts) ∨ k = .closeAll)
    (ha : calm → after.Holds k (g.take c) c) :
    Outcome calm k now D O g (g.state.close c after) :=
  hg.toFree.close hh ho hp (fun h => .inl (hg.settled h))
    (fun h => (hw h).imp_right (·.imp_right .inr)) ha

end Stage.Ready

end outcome

end ConnectionLeasing.Affine
