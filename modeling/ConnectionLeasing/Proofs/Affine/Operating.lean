import ConnectionLeasing.Proofs.Affine.Run
import ConnectionLeasing.Proofs.Affine.Sweeping

/-!
# Every operation as a trail of changes

* `outcome_tell`, `outcome_tick`: observers are told one by one; the inspector touches the caller's
  own slot only, and hands it back for closing only if it is idle.
* `outcome_closeEntries`: everything registered is closed, slot by slot.
* `outcome_resumeClosing`: what follows the disconnect of a slot.
* `outcome_start`, `outcome_resume`: every move of an operation.
-/

namespace ConnectionLeasing

namespace RetentionPolicy

variable {p : RetentionPolicy} {borrowed : Bool} {borrowTime releaseTime now : Nat}

theorem verdict_eq_release (h : p.verdict borrowed borrowTime releaseTime now = .release) :
    borrowed = true ∧ p.borrowExpired borrowTime now = true := by
  unfold verdict at h
  split at h
  · split at h
    · exact ⟨‹_›, ‹_›⟩
    · cases h
  · split at h <;> cases h

theorem verdict_eq_close (h : p.verdict borrowed borrowTime releaseTime now = .close) :
    borrowed = false := by
  unfold verdict at h
  split at h
  · split at h <;> cases h
  · simpa using ‹¬ borrowed = true›

end RetentionPolicy

namespace Affine

variable {calm : Prop} {k : Command} {now : Nat} {D : List Handle} {O : List (Identity × Handle)}
  {g : Stage}

theorem Command.caller?_of_telling? {t : Telling} (h : k.telling? = some t) :
    k.caller? = some (t.announcement.identity, t.announcement.context) := by
  cases k <;> cases h <;> rfl

/-! ### Giving back -/

theorem outcome_release {i : Identity} {c : ContextId} (hg : g.Ready calm D O)
    (hk : calm → k = .release i c) : Outcome calm k now D O g (release g.state now i c) := by
  unfold release
  split
  · rename_i id hid
    obtain ⟨id', hs, hmap⟩ := Option.bind_eq_some_iff.mp hid
    obtain ⟨h, -, rfl⟩ := Option.map_eq_some_iff.mp hmap
    obtain ⟨e, he, hs⟩ := Option.bind_eq_some_iff.mp hs
    have hidle : Change calm k now g (g.withState (g.state.mapSlot id' (·.markIdle now))) := by
      refine .idle g id' fun hc => .inl ⟨⟨i, c, e, ?_, (hg.sound hc).home he, hs⟩, i, c, hk hc⟩
      rw [hk hc]
      rfl
    have hw := (State.SameTables.count (g.state.mapSlot id' (·.markIdle now)) fun l =>
      { l with released := l.released + 1 }).trans (.note _ (.released i c))
    have hr := hg.change hidle hg.claim hg.closing rfl rfl rfl
    exact .after hidle (.written hw ((hr.written hw).done fun _ => trivial))
  · exact .written (.note _ _) ((hg.written (.note _ _)).done fun _ => trivial)

theorem Stage.Ready.closeOwn {i : Identity} {d : ContextId} {e : Nat} {c : Closing}
    {after : AfterClosing} (hg : g.Ready calm D O) (he : g.state.registry.entryId? i = some e)
    (hc : g.state.ownClosing? i e d = some c)
    (hw : calm → g.state.isLent c.slot = false ∨ k.caller? = some (i, d) ∧ k.acts)
    (ha : calm → after.Holds k (g.take c) c) :
    Outcome calm k now D O g (g.state.close c after) := by
  obtain ⟨-, rfl, rfl, hs, ho, hh⟩ := State.ownClosing?_eq_some hc
  exact hg.close (fun _ => hh) (fun _ => ho) (fun h => (hg.sound h).placed.place _ _ _ hs)
    (fun h => (hw h).imp_right fun hk =>
      .inl ⟨⟨i, c.owner, c.entry, hk.1, (hg.sound h).home he, hs⟩, hk.2⟩) ha

theorem outcome_closeOwn {i : Identity} {c : ContextId} (hg : g.Ready calm D O)
    (hk : calm → k = .close i c) : Outcome calm k now D O g (closeOwn g.state i c) := by
  unfold closeOwn
  split
  · rename_i x hx
    obtain ⟨e, he, hx⟩ := Option.bind_eq_some_iff.mp hx
    exact hg.closeOwn he hx (fun h => .inr (by rw [hk h]; exact ⟨rfl, rfl⟩)) fun h => ⟨i, c, hk h⟩
  · exact .written (.note _ _) ((hg.written (.note _ _)).done fun _ => trivial)

theorem outcome_closeEntries (hg : g.Ready calm D O) (hk : calm → k = .closeAll) (closed : Nat)
    (entries : List (Identity × Nat)) :
    Outcome calm k now D O g (closeEntries g.state closed entries) := by
  induction entries with
  | nil => exact .written (.note _ _) ((hg.written (.note _ _)).done fun _ => trivial)
  | cons p entries ih =>
    obtain ⟨i, e⟩ := p
    rw [closeEntries]
    split
    · rename_i c slots hx
      have hm : calm → g.Made e (g.state.slotsOf e) := fun h => (hg.sound h).made_slotsOf e
      refine hg.closeFirst hx hm (fun h => .inr (hk h)) fun h => ⟨hk h, ?_⟩
      rw [((hm h).rest hx).1]
      exact ((hm h).rest hx).2.2
    · exact ih

theorem outcome_closeAll (hg : g.Ready calm D O) (hk : k = .closeAll) :
    Outcome calm k now D O g (closeAll g.state) := by
  have hdrain : Change calm k now g (g.withRegistry g.state.registry.drain.1) := .drain g hk
  exact .after hdrain (outcome_closeEntries (hg.change hdrain hg.claim hg.closing rfl rfl rfl)
    (fun _ => hk) 0 _)

/-! ### Telling observers -/

theorem trail_inspect {a : Announcement} {s : State} (hg : g.Ready calm D O)
    (hk : calm → k.caller? = some (a.identity, a.context))
    (hs : inspect g.state now a = (s, none)) :
    Trail calm k now g (g.withState s) ∧ (g.withState s).Ready calm D O := by
  unfold inspect at hs
  split at hs
  · cases hs
    exact ⟨.refl, hg⟩
  · rename_i c hc
    obtain ⟨e, he, hc⟩ := Option.bind_eq_some_iff.mp hc
    obtain ⟨-, -, -, hslot, -, -⟩ := State.ownClosing?_eq_some hc
    split at hs
    · rename_i hv
      obtain ⟨y, hy, hv⟩ := Option.map_eq_some_iff.mp hv
      obtain ⟨hb, hexp⟩ := RetentionPolicy.verdict_eq_release hv
      have hidle : Change calm k now g (g.withState (g.state.mapSlot c.slot (·.markIdle now))) := by
        refine .idle g c.slot fun h => .inr ⟨.inl ⟨_, _, e, hk h, (hg.sound h).home he, hslot⟩, ?_⟩
        rw [State.isOverdue, hy]
        simp [hb, hexp]
      have hw := ((State.SameTables.count (g.state.mapSlot c.slot (·.markIdle now)) fun l =>
        { l with evictedReleased := l.evictedReleased + 1 }).trans
        (.note _ (.borrowTimedOut a.identity a.context))).trans
        (.note _ (.inspected a.identity a.context .release))
      cases hs
      exact ⟨.head hidle (.single (.written hw)),
        (hg.change hidle hg.claim hg.closing rfl rfl rfl).written hw⟩
    · cases hs
    · cases hs
      exact ⟨.refl, hg⟩

/-- An inspection that hands a slot back for closing has changed nothing, and the slot is the
caller's own and idle. -/
theorem inspect_eq_some {s s' : State} {a : Announcement} {c : Closing}
    (hs : inspect s now a = (s', some c)) :
    s' = s ∧ s.isLent c.slot = false ∧ ∃ e, s.registry.entryId? a.identity = some e ∧
      s.ownClosing? a.identity e a.context = some c := by
  unfold inspect at hs
  split at hs
  · cases hs
  · rename_i x hx
    obtain ⟨e, he, hx⟩ := Option.bind_eq_some_iff.mp hx
    split at hs
    · cases hs
    · rename_i hv
      obtain ⟨y, hy, hclose⟩ := Option.map_eq_some_iff.mp hv
      cases hs
      refine ⟨rfl, ?_, e, he, hx⟩
      rw [State.isLent, hy]
      exact RetentionPolicy.verdict_eq_close hclose
    · cases hs

theorem outcome_perform {t : Telling} (hg : g.Ready calm D O)
    (ht : calm → k.telling? = some t) : Outcome calm k now D O g (perform g.state now t) := by
  obtain ⟨a, purpose⟩ := t
  cases purpose with
  | borrow channel =>
    refine outcome_borrow hg fun hc => ?_
    have h := ht hc
    cases k <;> cases h
    rfl
  | release =>
    refine outcome_release hg fun hc => ?_
    have h := ht hc
    cases k <;> cases h
    rfl
  | close =>
    refine outcome_closeOwn hg fun hc => ?_
    have h := ht hc
    cases k <;> cases h
    rfl
  | tell => exact hg.done fun _ => trivial

theorem outcome_tell {t : Telling} (ht : calm → k.telling? = some t) (observers : List Observer)
    (hg : g.Ready calm D O) : Outcome calm k now D O g (tell now t g.state observers) := by
  have hk : calm → k.caller? = some (t.announcement.identity, t.announcement.context) :=
    fun h => Command.caller?_of_telling? (ht h)
  induction observers generalizing g with
  | nil => exact outcome_perform hg ht
  | cons o observers ih =>
    cases o with
    | log =>
      have hw := (State.SameTables.note g.state (.managerCall t.announcement)).trans (.summarize _)
      exact .written hw (ih (hg.written hw))
    | inspector =>
      rw [tell]
      split
      · rename_i s c hs
        obtain ⟨rfl, hidle, e, he, hc⟩ := inspect_eq_some hs
        exact hg.closeOwn he hc (fun _ => .inl hidle) ht
      · rename_i s hs
        obtain ⟨htrail, hr⟩ := trail_inspect hg hk hs
        exact .trail htrail (ih hr)
    | poolInspector => exact ih hg
    | recorder o => exact hg.paused ht rfl rfl

theorem outcome_tick (hk : calm → k.sweeps) (observers : List Observer) (hg : g.Ready calm D O) :
    Outcome calm k now D O g (tick now g.state observers) := by
  induction observers generalizing g with
  | nil => exact hg.done fun _ => trivial
  | cons o observers ih =>
    cases o with
    | log => exact .written (.summarize _) (ih (hg.written (.summarize _)))
    | inspector => exact outcome_sweepAll hk (fun g _ hg => ih hg) _ hg
    | poolInspector => exact ih hg
    | recorder o =>
      rw [tick]
      split
      · exact hg.paused hk rfl rfl
      · exact ih hg

theorem outcome_continue (hk : calm → k.sweeps) (after : AfterSweep) (total : SweepReport)
    (hg : g.Ready calm D O) : Outcome calm k now D O g (after.continue now g.state total) := by
  cases after with
  | report => exact hg.done fun _ => trivial
  | tick observers => exact outcome_tick hk observers hg

theorem outcome_sweepRest (hk : calm → k.sweeps) (rest : SweepRest) (w : Sweep)
    (hg : g.Ready calm D O) : Outcome calm k now D O g (rest.continue now g.state w) := by
  obtain ⟨ht, hr⟩ : Trail calm k now g (g.withState (endSweep g.state w)) ∧ _ := trail_endSweep hg w
  exact .trail ht (outcome_sweepAll hk (fun _ total hg => outcome_continue hk _ total hg) _ hr)

/-! ### Going on after a closing -/

section closing
variable {c : Closing} {failure : Option LeaseError} {after : AfterClosing}

theorem Stage.Lent.finish {i : Identity} {d : ContextId} {h : Handle} (hl : g.Lent i d h)
    (hs : g.Placed) (hc : g.closing = some c) : (g.finish c failure).Lent i d h := by
  obtain ⟨e, id, he, hr, hh, hb⟩ := hl
  have hne : c.slot ≠ id := by
    rintro rfl
    rw [(hs.closing c hc).1] at hh
    cases hh
  refine ⟨e, id, he, ?_, (State.handle?_finishClosing c failure id).trans hh, ?_⟩
  · refine (State.slotIn?_finishClosing c failure e d).trans ?_
    rw [if_neg, hr]
    rintro ⟨-, -, h'⟩
    exact hne (Option.some.inj (hr.symm.trans h')).symm
  · show ((g.state.finishClosing c failure).slot? id).any (·.borrowed) = true
    rw [State.slot?_finishClosing, State.slot?_mapSlot, if_neg hne]
    exact hb

theorem AfterClosing.Holds.finish (h : after.Holds k g c) (hs : g.Placed)
    (hc : g.closing = some c) : after.Holds k (g.finish c failure) c := by
  cases after with
  | displacedByTaken r source taken => exact ⟨h.1, h.2.finish hs hc⟩
  | displacedByOpened r opened => exact ⟨h.1, h.2.finish hs hc⟩
  | _ => exact h

theorem outcome_resumeClosing (hg : g.Ready calm D O) (ha : calm → after.Holds k g c) :
    Outcome calm k now D O g (resumeClosing g.state now c after) := by
  cases after with
  | inspected observers t =>
    have hw := ((State.SameTables.count g.state fun l =>
      { l with evictedClosed := l.evictedClosed + 1 }).trans
      (.note _ (.idleTimedOut t.announcement.identity t.announcement.context))).trans
      (.note _ (.inspected t.announcement.identity t.announcement.context .close))
    exact .written hw (outcome_tell ha observers (hg.written hw))
  | ownUseless r e =>
    exact outcome_takeOver hg (fun h => (ha h).1) (fun h => (ha h).2) _
      fun h => (hg.sound h).made_slotsOf e
  | displacedByTaken r source taken => exact hg.lend ha _ _
  | displacedByOpened r opened => exact hg.lend ha _ _
  | requested =>
    have hw := State.SameTables.count g.state fun l => { l with closed := l.closed + 1 }
    exact .written hw ((hg.written hw).done fun _ => trivial)
  | drained slots entries closed =>
    rw [resumeClosing]
    split
    · rename_i c' slots' hx
      refine hg.closeFirst hx (fun h => (ha h).2) (fun h => .inr (ha h).1) fun h => ⟨(ha h).1, ?_⟩
      rw [((ha h).2.rest hx).1]
      exact ((ha h).2.rest hx).2.2
    · exact outcome_closeEntries hg (fun h => (ha h).1) _ _
  | sweptIdle w slots rest =>
    exact outcome_sweepIdle hg (fun h => (ha h).1) (fun h => (ha h).2)
      (outcome_sweepRest (fun h => (ha h).1) rest _ hg)
  | sweptSurplus w slots rest =>
    exact outcome_sweepSurplus hg (fun h => (ha h).1) (fun h => (ha h).2)
      (outcome_sweepRest (fun h => (ha h).1) rest _ hg)

end closing

/-! ### The machine -/

theorem outcome_start (hg : g.Ready calm D O) : Outcome calm k now D O g (start g.state now k) := by
  cases k with
  | borrow r => exact outcome_tell (fun _ => rfl) _ hg
  | release i c => exact outcome_tell (fun _ => rfl) _ hg
  | close i c => exact outcome_tell (fun _ => rfl) _ hg
  | tell a => exact outcome_tell (fun _ => rfl) _ hg
  | tick => exact outcome_tick (fun _ => rfl) _ hg
  | sweep =>
    exact outcome_sweepAll (fun _ => rfl)
      (fun _ total hg => outcome_continue (fun _ => rfl) .report total hg) _ hg
  | closeAll => exact outcome_closeAll hg rfl

/-- An operation goes on with its answer, which opens a handle if a connection was waited for. -/
theorem outcome_resume {f : Frame} {a : f.call.Answer} {O' : List (Identity × Handle)}
    (hg : g.Awaits calm k f D O) (hO : O' = O ++ (f.call.opened? a).toList)
    (hnew : calm → ∀ p ∈ f.call.opened? a, ∀ q ∈ O, q.2 ≠ p.2) :
    Outcome calm k now D O' g (resume g.state now f a) := by
  cases f with
  | telling o observers t =>
    obtain rfl : O' = O := hO.trans (List.append_nil O)
    exact outcome_tell hg.holds observers (hg.ready rfl rfl)
  | ticking o observers =>
    obtain rfl : O' = O := hO.trans (List.append_nil O)
    exact outcome_tick hg.holds observers (hg.ready rfl rfl)
  | checkingOwn r e id h =>
    obtain rfl : O' = O := hO.trans (List.append_nil O)
    exact outcome_resumeOwn (hg.ready rfl rfl) hg.holds a
  | recheckingOwn r e id h =>
    obtain rfl : O' = O := hO.trans (List.append_nil O)
    exact outcome_resumeOwnAgain (hg.ready rfl rfl) hg.holds a
  | checkingOther r e owner id h others =>
    obtain rfl : O' = O := hO.trans (List.append_nil O)
    exact outcome_resumeOther (hg.ready rfl rfl) hg.holds a
  | opening r e produces timeout =>
    have ho : (Frame.opening r e produces timeout).call.opened? a =
        if (Connected.failure a).isNone then some (r.identity, Connected.handle a) else none := rfl
    cases hx : Connected.failure a with
    | none =>
      rw [hx] at ho
      rw [hO, ho]
      exact outcome_resumeOpening hg hx fun hc q hq => hnew hc _ ho q hq
    | some error =>
      rw [hx] at ho
      obtain rfl : O' = O := by rw [hO, ho]; exact List.append_nil O
      exact outcome_resumeOpening_of_failure hg (by rw [hx]; rfl)
  | closing c after =>
    obtain rfl : O' = O := hO.trans (List.append_nil O)
    have hfinish : Change calm k now g (g.finish c a) := .finish g c a hg.closing
    refine .after hfinish (outcome_resumeClosing ?_ fun h =>
      (hg.holds h).finish (hg.sound h).placed hg.closing)
    exact ⟨⟨hg.claim, rfl, hg.opened, hg.disconnected, fun h => hfinish.sound h (hg.sound h)⟩,
      hg.settled⟩

end Affine

end ConnectionLeasing
