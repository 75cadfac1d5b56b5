import ConnectionLeasing.Affine.Operation
import ConnectionLeasing.Proofs.Renaming

/-!
# A context-affine manager under other passwords

A manager under other passwords does what it did before, under other passwords: every function on
states commutes with a renaming that keeps identities apart.

* `State.statistics_rename`, `State.metrics_rename`: its figures.
* `start_rename`, `resume_rename`: its operations.
-/

namespace ConnectionLeasing

namespace Affine

/-! ### What is renamed -/

section rename
variable (π : Renaming)

def Closing.rename (c : Closing) : Closing := { c with identity := c.identity.rename π }

def State.rename (s : State) : State :=
  { s with registry := s.registry.rename π, journal := Journal.rename π s.journal }

def Request.rename (r : Request) : Request := { r with identity := r.identity.rename π }

def Telling.rename (t : Telling) : Telling := { t with announcement := t.announcement.rename π }

def Sweep.rename (w : Sweep) : Sweep := { w with identity := w.identity.rename π }

def SweepRest.rename (rest : SweepRest) : SweepRest :=
  { rest with entries := rest.entries.map (Prod.map (·.rename π) id) }

def AfterClosing.rename : AfterClosing → AfterClosing
  | inspected observers t => inspected observers (t.rename π)
  | ownUseless r e => ownUseless (r.rename π) e
  | displacedByTaken r source taken => displacedByTaken (r.rename π) source taken
  | displacedByOpened r opened => displacedByOpened (r.rename π) opened
  | requested => requested
  | drained slots entries closed => drained slots (entries.map (Prod.map (·.rename π) id)) closed
  | sweptIdle w slots rest => sweptIdle (w.rename π) slots (rest.rename π)
  | sweptSurplus w slots rest => sweptSurplus (w.rename π) slots (rest.rename π)

def Frame.rename : Frame → Frame
  | telling o observers t => telling o observers (t.rename π)
  | ticking o observers => ticking o observers
  | checkingOwn r e id h => checkingOwn (r.rename π) e id h
  | recheckingOwn r e id h => recheckingOwn (r.rename π) e id h
  | checkingOther r e owner id h others => checkingOther (r.rename π) e owner id h others
  | opening r e produces timeout => opening (r.rename π) e produces timeout
  | closing c after => closing (c.rename π) (after.rename π)

/-- The same answer under other passwords. -/
def Frame.renameAnswer : (f : Frame) → f.call.Answer → (f.rename π).call.Answer
  | telling .., _ => ()
  | ticking .., _ => ()
  | checkingOwn .., usable => usable
  | recheckingOwn .., usable => usable
  | checkingOther .., usable => usable
  | opening .., c => c.rename π
  | closing .., failure => failure.map (·.rename π)

def Result.rename : Result → Result
  | refused e => refused (e.rename π)
  | result => result

def Step.rename (step : Step) : Step :=
  (step.1.rename π, step.2.map (·.rename π) (·.rename π))

def Command.rename : Command → Command
  | borrow r => borrow (r.rename π)
  | release i c => release (i.rename π) c
  | close i c => close (i.rename π) c
  | tell a => tell (a.rename π)
  | tick => tick
  | sweep => sweep
  | closeAll => closeAll

end rename

variable {π : Renaming} {s : State}

/-! ### States -/

namespace State

@[simp] theorem rename_note (n : Notice) :
    (s.note n).rename π = (s.rename π).note (n.rename π) :=
  congrArg (fun journal => { s with registry := s.registry.rename π, journal })
    (Journal.rename_push s.journal n)

theorem rename_withRegistry (s : State) (registry : Registry) :
    ({ s with registry } : State).rename π = { s.rename π with registry := registry.rename π } :=
  rfl

theorem rename_mapSlot (id : Nat) (f : Slot → Slot) :
    (s.mapSlot id f).rename π = (s.rename π).mapSlot id f := rfl

theorem statistics_rename : (s.rename π).statistics = s.statistics :=
  s.registry.statistics_rename s.slots

theorem metrics_rename : (s.rename π).metrics = s.metrics := by
  rw [metrics, metrics, statistics_rename]
  rfl

theorem rename_summarize : s.summarize.rename π = (s.rename π).summarize := by
  have hrows : ∀ (rows : List IdentityStatistics) (s : State), (rows.foldl (fun s x => s.note
      (.identityConnections x.host x.port x.username x.contexts x.borrowed)) s).rename π =
        rows.foldl (fun s x => s.note
          (.identityConnections x.host x.port x.username x.contexts x.borrowed)) (s.rename π) := by
    intro rows
    induction rows with
    | nil => exact fun _ => rfl
    | cons x rows ih =>
      intro s
      rw [List.foldl_cons, List.foldl_cons, ih, rename_note]
      rfl
  rw [summarize, summarize, hrows, rename_note, statistics_rename, rename, Registry.size_rename,
    Registry.totalSlots_rename]
  rfl

theorem ownClosing?_rename (i : Identity) (e : Nat) (c : ContextId) :
    (s.rename π).ownClosing? (i.rename π) e c = (s.ownClosing? i e c).map (·.rename π) := by
  simp only [ownClosing?, Option.map_bind, Function.comp_def, Option.map_map]
  rfl

theorem anyClosing?_rename (i : Identity) (e id : Nat) :
    (s.rename π).anyClosing? (i.rename π) e id = (s.anyClosing? i e id).map (·.rename π) := by
  simp only [anyClosing?, Option.map_bind, Function.comp_def, Option.map_map]
  rfl

theorem firstOpen?_rename (p : Slot → Bool) (i : Identity) (e : Nat) (l : List (ContextId × Nat)) :
    (s.rename π).firstOpen? p (i.rename π) e l =
      (s.firstOpen? p i e l).map (Prod.map (·.rename π) id) := by
  induction l with
  | nil => rfl
  | cons k l ih =>
    obtain ⟨c, id⟩ := k
    have hslot : (s.rename π).slot? id = s.slot? id := rfl
    rw [firstOpen?, firstOpen?, hslot]
    cases (s.slot? id).bind fun x => if p x then x.openFor c else none with
    | some h => rfl
    | none => exact ih

theorem rename_finishClosing (c : Closing) (failure : Option LeaseError) :
    (s.finishClosing c failure).rename π =
      (s.rename π).finishClosing (c.rename π) (failure.map (·.rename π)) := by
  cases failure with
  | none =>
    rw [finishClosing, rename_note]
    rfl
  | some e =>
    rw [finishClosing, rename_note, rename_withRegistry, rename_mapSlot, rename_note]
    rfl

end State

/-! ### Borrows -/

/-- A borrow is served once the slot that was displaced is closed, if there is one. -/
def State.serveAfter (s : State) (i : Identity) (e : Nat) (displaced : Option Nat)
    (after : AfterClosing) (serve : State → Step) : Step :=
  match displaced.bind (s.anyClosing? i e) with
  | some closing => s.close closing after
  | none => serve s

/-- The state in which a connection that was opened has its slot. -/
def State.registering (s : State) (now : Nat) (r : Request) (e : Nat) (h : Handle) : State :=
  let s := s.note (.opened r.identity r.channel)
  { s with
    slots := s.slots ++ [Slot.lentTo r.context h now]
    registry := (s.registry.commit e r.context s.slots.length).1 }

theorem resumeOpening_ok (s : State) (now : Nat) (r : Request) (e : Nat) (h : Handle) :
    resumeOpening s now r e ⟨h, none⟩ = (s.registering now r e h).serveAfter r.identity e
      (s.registry.commit e r.context s.slots.length).2 (.displacedByOpened r h)
      fun s => lendOpened s r h := rfl

section borrow
variable (r : Request) (e id now : Nat) (h : Handle)

theorem rename_lend (served : Ledger → Ledger) (n : Notice) :
    (s.lend served n h).rename π = (s.rename π).lend served (n.rename π) h := by
  rw [State.lend, State.lend, Step.rename, State.rename_note]
  rfl

theorem State.rename_serveAfter (i : Identity) (displaced : Option Nat) (after : AfterClosing)
    {f g : State → Step} (hserve : ∀ s, (f s).rename π = g (s.rename π)) :
    (s.serveAfter i e displaced after f).rename π =
      (s.rename π).serveAfter (i.rename π) e displaced (after.rename π) g := by
  have hclosing : displaced.bind ((s.rename π).anyClosing? (i.rename π) e) =
      (displaced.bind (s.anyClosing? i e)).map (·.rename π) := by
    cases displaced with
    | none => rfl
    | some id => exact State.anyClosing?_rename i e id
  rw [serveAfter, serveAfter, hclosing]
  cases displaced.bind (s.anyClosing? i e) with
  | some closing => rfl
  | none => exact hserve s

theorem State.rename_registering : (s.registering now r e h).rename π =
    (s.rename π).registering now (r.rename π) e h :=
  congrArg (fun journal => ({ s with
    slots := s.slots ++ [Slot.lentTo r.context h now]
    registry := (s.registry.commit e r.context s.slots.length).1.rename π
    journal } : State)) (Journal.rename_push s.journal (.opened r.identity r.channel))

theorem rename_openNew : (openNew s r e).rename π = openNew (s.rename π) (r.rename π) e := by
  have hproduces : (s.rename π).factory.produces? (r.rename π).channel =
    s.factory.produces? r.channel := rfl
  rw [openNew, openNew, hproduces]
  cases s.factory.produces? r.channel with
  | some produces => rfl
  | none =>
    rw [Step.rename, State.rename_note]
    rfl

theorem rename_resumeOpening (c : Connected) : (resumeOpening s now r e c).rename π =
    resumeOpening (s.rename π) now (r.rename π) e (c.rename π) := by
  obtain ⟨h, failure⟩ := c
  cases failure with
  | some error => rfl
  | none =>
    rw [resumeOpening_ok, State.rename_serveAfter (g := fun s => lendOpened s (r.rename π) h) e
      r.identity _ _ fun s => rename_lend h _ _, State.rename_registering]
    rfl

theorem rename_closeUseless : (closeUseless s r e id h).rename π =
    closeUseless (s.rename π) (r.rename π) e id h := rfl

theorem rename_resumeOwn (usable : Bool) : (resumeOwn s r e id h usable).rename π =
    resumeOwn (s.rename π) (r.rename π) e id h usable := by
  have hlent : ((s.rename π).slot? id).any (·.borrowed) = (s.slot? id).any (·.borrowed) := rfl
  rw [resumeOwn, resumeOwn, hlent]
  cases usable with
  | false =>
    rw [if_pos (by rfl), if_pos (by rfl), rename_closeUseless, State.rename_note]
    rfl
  | true =>
    simp only [Bool.not_true, Bool.false_eq_true, if_false]
    split <;> rfl

theorem rename_resumeOwnAgain (usable : Bool) : (resumeOwnAgain s now r e id h usable).rename π =
    resumeOwnAgain (s.rename π) now (r.rename π) e id h usable := by
  have hchannel : (r.rename π).channel = r.channel := rfl
  rw [resumeOwnAgain, resumeOwnAgain, hchannel]
  split
  · exact rename_lend h _ _
  · rw [rename_closeUseless, State.rename_note]
    rfl

section injective
variable (hπ : Function.Injective (Identity.rename π))
include hπ

theorem rename_refuseOverLimit :
    (refuseOverLimit s r).rename π = refuseOverLimit (s.rename π) (r.rename π) := by
  have hcount : (s.rename π).registry.slotCount (r.rename π).identity =
      s.registry.slotCount r.identity := s.registry.slotCount_rename r.identity hπ
  rw [refuseOverLimit, refuseOverLimit, hcount, Step.rename, State.rename_note]
  rfl

theorem rename_claim : (claim s r).rename π = claim (s.rename π) (r.rename π) := by
  have hreserve : (s.rename π).registry.reserve (r.rename π).identity
      (s.rename π).settings.maxConnections = _ :=
    s.registry.reserve_rename r.identity hπ s.settings.maxConnections
  rw [claim, claim, hreserve]
  cases s.registry.reserve r.identity s.settings.maxConnections with
  | mk registry claimed =>
    cases claimed with
    | some e => exact rename_openNew r e
    | none => exact rename_refuseOverLimit r hπ

theorem rename_takeOver (l : List (ContextId × Nat)) :
    (takeOver s r e l).rename π = takeOver (s.rename π) (r.rename π) e l := by
  induction l with
  | nil => exact rename_claim r hπ
  | cons k l ih =>
    obtain ⟨owner, id⟩ := k
    have hidle : (s.rename π).idleHandle? owner id = s.idleHandle? owner id := rfl
    rw [takeOver, takeOver, hidle]
    by_cases hc : owner = r.context
    · rw [if_pos hc, if_pos (show owner = (r.rename π).context from hc)]
      exact ih
    · rw [if_neg hc, if_neg (show ¬ owner = (r.rename π).context from hc)]
      cases s.idleHandle? owner id with
      | some h => rfl
      | none => exact ih

theorem rename_resumeOther (owner : ContextId) (others : List (ContextId × Nat)) (usable : Bool) :
    (resumeOther s now r e owner id h others usable).rename π =
      resumeOther (s.rename π) now (r.rename π) e owner id h others usable := by
  have hrest := rename_takeOver (s := s) r e hπ others
  have hreassign : (s.rename π).registry.reassign? e owner (r.rename π).context id = _ :=
    s.registry.reassign?_rename e owner r.context id
  rw [resumeOther, resumeOther, hreassign]
  by_cases hsuits : (usable && h.channel = r.channel) = true
  · have hsuits' : (usable && h.channel = (r.rename π).channel) = true := hsuits
    rw [if_pos hsuits, if_pos hsuits']
    cases s.registry.reassign? e owner r.context id with
    | none => exact hrest
    | some x =>
      exact State.rename_serveAfter (f := fun s => lendTaken s r owner h)
        (g := fun s => lendTaken s (r.rename π) owner h) e r.identity x.2
        (.displacedByTaken r owner h) fun s => rename_lend h _ _
  · have hsuits' : ¬ (usable && h.channel = (r.rename π).channel) = true := hsuits
    rw [if_neg hsuits, if_neg hsuits']
    exact hrest

theorem rename_reuse : (reuse s r e).rename π = reuse (s.rename π) (r.rename π) e := by
  have hown : (s.rename π).ownClosing? (r.rename π).identity e (r.rename π).context = _ :=
    State.ownClosing?_rename r.identity e r.context
  rw [reuse, reuse, hown]
  cases s.ownClosing? r.identity e r.context with
  | some c => rfl
  | none => exact rename_takeOver r e hπ _

theorem rename_borrow : (borrow s r).rename π = borrow (s.rename π) (r.rename π) := by
  have hentry : (s.rename π).registry.entryId? (r.rename π).identity = _ :=
    s.registry.entryId?_rename r.identity hπ
  rw [borrow, borrow, hentry]
  cases s.registry.entryId? r.identity with
  | some e => exact rename_reuse r e hπ
  | none => exact rename_claim r hπ

end injective

end borrow

/-! ### Sweeps -/

section sweep
variable (now : Nat) (w : Sweep) (rest : SweepRest)

/-- The state in which the sweep of one identity is booked. -/
def State.reporting (s : State) (w : Sweep) : State :=
  let s := s.count fun l => { l with
    evictedReleased := l.evictedReleased + w.report.released
    evictedClosed := l.evictedClosed + w.report.closed }
  if w.report = {} then s
  else s.note (.swept w.identity w.report (s.registry.entry w.entry).size)

/-- The state without an identity that has nothing left in its entry. -/
def State.forgetting (s : State) (i : Identity) (e : Nat) : State :=
  if s.registry.isForgettable i e then { s with registry := s.registry.forget i }.note (.forgot i)
  else s

theorem endSweep_eq (s : State) (w : Sweep) :
    endSweep s w = (s.reporting w).forgetting w.identity w.entry := rfl

theorem releaseExpired_rename (l : List (ContextId × Nat)) :
    releaseExpired (s.rename π) now l = Prod.map (·.rename π) id (releaseExpired s now l) := by
  induction l generalizing s with
  | nil => rfl
  | cons k l ih =>
    obtain ⟨c, id⟩ := k
    have hmarked := ih (s := s.mapSlot id (·.markIdle now))
    rw [State.rename_mapSlot] at hmarked
    rw [releaseExpired, releaseExpired, apply_ite (Prod.map _ _), hmarked, ih]
    rfl

theorem rename_sweepSurplus {k l : State → Sweep → Step}
    (hk : ∀ s w, (k s w).rename π = l (s.rename π) (w.rename π)) (slots : List (ContextId × Nat)) :
    (sweepSurplus s w rest slots k).rename π =
      sweepSurplus (s.rename π) (w.rename π) (rest.rename π) slots l := by
  have hfirst : (s.rename π).firstOpen? (fun x => !x.borrowed) (w.rename π).identity
      (w.rename π).entry slots = _ := State.firstOpen?_rename _ w.identity w.entry slots
  have hsize : ((s.rename π).registry.entry (w.rename π).entry).size =
    (s.registry.entry w.entry).size := rfl
  have hmax : (s.rename π).policy.maxConnections = s.policy.maxConnections := rfl
  rw [sweepSurplus, sweepSurplus, hfirst, hsize, hmax]
  split
  · exact hk s w
  · cases s.firstOpen? (fun x => !x.borrowed) w.identity w.entry slots with
    | some x => rfl
    | none => exact hk s w

theorem rename_sweepIdle {k l : State → Sweep → Step}
    (hk : ∀ s w, (k s w).rename π = l (s.rename π) (w.rename π)) (slots : List (ContextId × Nat)) :
    (sweepIdle s w rest slots k).rename π =
      sweepIdle (s.rename π) (w.rename π) (rest.rename π) slots l := by
  have hfirst : (s.rename π).firstOpen?
      (fun x => !x.borrowed && (s.rename π).policy.idleExpired x.releaseTime (w.rename π).start)
      (w.rename π).identity (w.rename π).entry slots = _ :=
    State.firstOpen?_rename (fun x => !x.borrowed && s.policy.idleExpired x.releaseTime w.start)
      w.identity w.entry slots
  rw [sweepIdle, sweepIdle, hfirst]
  cases s.firstOpen? (fun x => !x.borrowed && s.policy.idleExpired x.releaseTime w.start)
      w.identity w.entry slots with
  | some x => rfl
  | none => exact rename_sweepSurplus w rest hk _

theorem beginSweep_rename (i : Identity) (e : Nat) : beginSweep (s.rename π) now (i.rename π) e =
    Prod.map (·.rename π) (·.rename π) (beginSweep s now i e) := by
  have hslots : (s.rename π).slotsOf e = s.slotsOf e := rfl
  rw [beginSweep, beginSweep, hslots, releaseExpired_rename]
  rfl

section injective
variable (hπ : Function.Injective (Identity.rename π))
include hπ

theorem rename_endSweep : (endSweep s w).rename π = endSweep (s.rename π) (w.rename π) := by
  have hreporting : (s.reporting w).rename π = (s.rename π).reporting (w.rename π) := by
    rw [State.reporting, State.reporting, apply_ite (State.rename π), State.rename_note]
    rfl
  have hforgettable := (s.reporting w).registry.isForgettable_rename w.identity hπ w.entry
  have hforget := (s.reporting w).registry.forget_rename w.identity hπ
  rw [endSweep_eq, endSweep_eq, ← hreporting, State.forgetting, State.forgetting,
    apply_ite (State.rename π), State.rename_note, State.rename_withRegistry, ← hforget,
    ← hforgettable]
  rfl

theorem rename_sweepAll {after : AfterSweep} {k l : State → SweepReport → Step}
    (hk : ∀ s total, (k s total).rename π = l (s.rename π) total) (total : SweepReport)
    (entries : List (Identity × Nat)) : (sweepAll now after k s total entries).rename π =
      sweepAll now after l (s.rename π) total (entries.map (Prod.map (·.rename π) id)) := by
  induction entries generalizing s total with
  | nil => exact hk s total
  | cons p entries ih =>
    obtain ⟨i, e⟩ := p
    rw [List.map_cons, Prod.map, sweepAll, sweepAll]
    dsimp only
    rw [beginSweep_rename]
    refine rename_sweepIdle _ _ (fun s w => ?_) _
    rw [ih, rename_endSweep w hπ]
    rfl

end injective

end sweep

/-! ### Operations -/

section operations
variable (now : Nat) (i : Identity) (c : ContextId) (a : Announcement) (t : Telling)

theorem rename_done (result : Result) :
    Step.rename π (s, .done result) = (s.rename π, .done (result.rename π)) := rfl

theorem rename_closeEntries (closed : Nat) (entries : List (Identity × Nat)) :
    (closeEntries s closed entries).rename π =
      closeEntries (s.rename π) closed (entries.map (Prod.map (·.rename π) id)) := by
  induction entries with
  | nil =>
    rw [List.map_nil, closeEntries, closeEntries, rename_done, State.rename_note]
    rfl
  | cons p entries ih =>
    obtain ⟨i, e⟩ := p
    have hslots : (s.rename π).slotsOf e = s.slotsOf e := rfl
    rw [List.map_cons, Prod.map, closeEntries, closeEntries, State.firstOpen?_rename, id, hslots]
    cases s.firstOpen? (fun _ => true) i e (s.slotsOf e) with
    | some x => rfl
    | none => exact ih

theorem rename_closeAll : (closeAll s).rename π = closeAll (s.rename π) :=
  rename_closeEntries _ _

theorem rename_afterInspection :
    (afterInspection s a).rename π = afterInspection (s.rename π) (a.rename π) := by
  rw [afterInspection, State.rename_note, State.rename_note]
  rfl

section injective
variable (hπ : Function.Injective (Identity.rename π))
include hπ

theorem rename_release :
    (release s now i c).rename π = release (s.rename π) now (i.rename π) c := by
  have hslot : (s.rename π).registry.slot? (i.rename π) c = _ := s.registry.slot?_rename i hπ c
  have hopen : ∀ id, (s.rename π).openHandle? c id = s.openHandle? c id := fun _ => rfl
  rw [release, release, hslot]
  simp only [hopen]
  cases (s.registry.slot? i c).bind fun id => (s.openHandle? c id).map fun _ => id with
  | some id =>
    rw [rename_done, State.rename_note]
    rfl
  | none =>
    rw [rename_done, State.rename_note]
    rfl

theorem ownClosing?_rename :
    ((s.rename π).registry.entryId? (i.rename π)).bind
        (fun e => (s.rename π).ownClosing? (i.rename π) e c) =
      ((s.registry.entryId? i).bind fun e => s.ownClosing? i e c).map (·.rename π) := by
  have hentry : (s.rename π).registry.entryId? (i.rename π) = _ := s.registry.entryId?_rename i hπ
  rw [hentry]
  cases s.registry.entryId? i with
  | none => rfl
  | some e => exact State.ownClosing?_rename i e c

theorem rename_closeOwn : (closeOwn s i c).rename π = closeOwn (s.rename π) (i.rename π) c := by
  rw [closeOwn, closeOwn, ownClosing?_rename i c hπ]
  cases (s.registry.entryId? i).bind fun e => s.ownClosing? i e c with
  | some x => rfl
  | none =>
    rw [rename_done, State.rename_note]
    rfl

theorem inspect_rename : inspect (s.rename π) now (a.rename π) =
    Prod.map (·.rename π) (Option.map (·.rename π)) (inspect s now a) := by
  have hown : ((s.rename π).registry.entryId? (a.rename π).identity).bind
      (fun e => (s.rename π).ownClosing? (a.rename π).identity e (a.rename π).context) = _ :=
    ownClosing?_rename a.identity a.context hπ
  rw [inspect, inspect, hown]
  cases (s.registry.entryId? a.identity).bind fun e => s.ownClosing? a.identity e a.context with
  | none => rfl
  | some x =>
    have hverdict : ((s.rename π).slot? (x.rename π).slot).map (fun y =>
        (s.rename π).policy.verdict y.borrowed y.borrowTime y.releaseTime now) =
      (s.slot? x.slot).map fun y =>
        s.policy.verdict y.borrowed y.borrowTime y.releaseTime now := rfl
    rw [Option.map_some]
    dsimp only
    rw [hverdict]
    split
    · rw [Prod.map, State.rename_note, State.rename_note]
      rfl
    · rfl
    · rfl

theorem rename_perform : (perform s now t).rename π = perform (s.rename π) now (t.rename π) := by
  have hpurpose : (t.rename π).purpose = t.purpose := rfl
  rw [perform, perform, hpurpose]
  cases t.purpose with
  | borrow channel => exact rename_borrow _ hπ
  | release => exact rename_release now _ _ hπ
  | close => exact rename_closeOwn _ _ hπ
  | tell => rfl

theorem rename_tell (observers : List Observer) :
    (tell now t s observers).rename π = tell now (t.rename π) (s.rename π) observers := by
  induction observers generalizing s with
  | nil =>
    rw [tell, tell]
    exact rename_perform now t hπ
  | cons observer observers ih =>
    cases observer with
    | log =>
      rw [tell, tell, ih, State.rename_summarize, State.rename_note]
      rfl
    | inspector =>
      have hinspect : inspect (s.rename π) now (t.rename π).announcement = _ :=
        inspect_rename now t.announcement hπ
      rw [tell, tell, hinspect]
      cases inspect s now t.announcement with
      | mk s' x =>
        cases x with
        | none => exact ih
        | some x => rfl
    | poolInspector =>
      rw [tell, tell]
      exact ih
    | recorder o =>
      rw [tell, tell]
      rfl

theorem rename_tick (observers : List Observer) :
    (tick now s observers).rename π = tick now (s.rename π) observers := by
  induction observers generalizing s with
  | nil =>
    rw [tick, tick]
    rfl
  | cons observer observers ih =>
    cases observer with
    | log => rw [tick, tick, ih, State.rename_summarize]
    | inspector =>
      rw [tick, tick]
      exact rename_sweepAll now hπ (fun s _ => ih) {} s.registry.known
    | poolInspector =>
      rw [tick, tick]
      exact ih
    | recorder o =>
      rw [tick, tick]
      split <;> first | rfl | exact ih

theorem rename_continue (after : AfterSweep) (total : SweepReport) :
    (after.continue now s total).rename π = after.continue now (s.rename π) total := by
  cases after with
  | report => rfl
  | tick observers => exact rename_tick now hπ observers

theorem rename_sweepRest (rest : SweepRest) (w : Sweep) :
    (rest.continue now s w).rename π = (rest.rename π).continue now (s.rename π) (w.rename π) := by
  rw [SweepRest.continue, SweepRest.continue, rename_sweepAll now hπ
    (fun s total => rename_continue now hπ rest.after total), rename_endSweep w hπ]
  rfl

theorem rename_resumeClosing (x : Closing) (after : AfterClosing) :
    (resumeClosing s now x after).rename π =
      resumeClosing (s.rename π) now (x.rename π) (after.rename π) := by
  cases after with
  | inspected observers t =>
    rw [AfterClosing.rename, resumeClosing, resumeClosing, rename_tell now t hπ,
      rename_afterInspection]
    rfl
  | ownUseless r e => exact rename_takeOver r e hπ _
  | displacedByTaken r source taken => exact rename_lend taken _ _
  | displacedByOpened r opened => exact rename_lend opened _ _
  | requested => rfl
  | drained slots entries closed =>
    have hfirst : (s.rename π).firstOpen? (fun _ => true) (x.rename π).identity (x.rename π).entry
      slots = _ := State.firstOpen?_rename _ x.identity x.entry slots
    rw [AfterClosing.rename, resumeClosing, resumeClosing, hfirst]
    cases s.firstOpen? (fun _ => true) x.identity x.entry slots with
    | some y => rfl
    | none => exact rename_closeEntries _ _
  | sweptIdle w slots rest =>
    exact rename_sweepIdle _ rest (fun s w => rename_sweepRest now hπ rest w) slots
  | sweptSurplus w slots rest =>
    exact rename_sweepSurplus _ rest (fun s w => rename_sweepRest now hπ rest w) slots

/-- **An operation starts under other passwords.** -/
theorem start_rename (k : Command) :
    start (s.rename π) now (k.rename π) = (start s now k).rename π := by
  symm
  cases k with
  | borrow r => exact rename_tell now _ hπ _
  | release i c => exact rename_tell now _ hπ _
  | close i c => exact rename_tell now _ hπ _
  | tell a => exact rename_tell now _ hπ _
  | tick => exact rename_tick now hπ _
  | sweep => exact rename_sweepAll now hπ (fun s total => rename_continue now hπ .report total) {} _
  | closeAll => exact rename_closeAll

/-- **An operation goes on under other passwords.** -/
theorem resume_rename (f : Frame) (x : f.call.Answer) :
    resume (s.rename π) now (f.rename π) (f.renameAnswer π x) = (resume s now f x).rename π := by
  symm
  cases f with
  | telling o observers t => exact rename_tell now t hπ observers
  | ticking o observers => exact rename_tick now hπ observers
  | checkingOwn r e id h => exact rename_resumeOwn r e id h x
  | recheckingOwn r e id h => exact rename_resumeOwnAgain r e id now h x
  | checkingOther r e owner id h others => exact rename_resumeOther r e id now h hπ owner others x
  | opening r e produces timeout => exact rename_resumeOpening r e now x
  | closing c after =>
    show (resumeClosing (s.finishClosing c x) now c after).rename π = _
    rw [rename_resumeClosing now hπ, State.rename_finishClosing]
    rfl

end injective

end operations

end Affine

end ConnectionLeasing
