import ConnectionLeasing.Proofs.Affine.Clearing
import ConnectionLeasing.Proofs.Affine.Timely

/-!
# A tick leaves no slot that is late

A tick sweeps every identity that is known. While it waits, every registered slot that is late at
its moment is in an entry still to be swept, or is being closed, or is on the list of those to be
closed next (`Frame.Covers`); at its end there is none.

* `covers_releaseExpired`: the pass over lent slots leaves none of them late.
* `covered_sweepIdle`, `covered_sweepAll`: the passes that close slots, and all of them.
* `covered_start`, `covered_resume`: the moves of a tick.
-/

namespace ConnectionLeasing.Affine

/-- Which slots may be late at moment `t` while a slot is being closed. -/
def AfterClosing.Covers (t : Nat) (s : State) (c : Closing) : AfterClosing → Prop
  | .sweptIdle w slots rest => w.start = t ∧ s.Covers t fun e d id lent =>
    e ∈ rest.entries.map (·.2) ∨ e = w.entry ∧ lent = false ∧ (id = c.slot ∨ (d, id) ∈ slots)
  | .sweptSurplus _ _ rest => s.Covers t fun e _ _ _ => e ∈ rest.entries.map (·.2)
  | _ => s.Timely t

/-- Which slots may be late at moment `t` while a tick of that moment waits. -/
def Frame.Covers (t : Nat) (s : State) : Frame → Prop
  | .closing c after => after.Covers t s c
  | _ => s.Timely t

/-- A step of a tick of moment `t`: only what its frame shows may be late after it. -/
def Step.Covered (t : Nat) (step : Step) : Prop :=
  match step.2 with
  | .paused f => f.Covers t step.1
  | .done _ => step.1.Timely t

section sweep
variable {now t : Nat} {D : List Handle} {O : List (Identity × Handle)} {g : Stage} {s : State}
  {w : Sweep} {rest : SweepRest} {slots : List (ContextId × Nat)}

theorem State.Covers.beginClosing {P : Nat → ContextId → Nat → Bool → Prop} (h : s.Covers t P)
    (c : Closing) : (s.beginClosing c).Covers t P := by
  intro e d id x hr hx hl
  rcases State.slot?_mapSlot_cases hx with ⟨-, y, hy, rfl⟩ | ⟨-, hx⟩
  · exact h e d id y hr hy hl
  · exact h e d id x hr hx hl

theorem State.openHandle?_markIdle (s : State) (other id : Nat) (d : ContextId) :
    (s.mapSlot other (·.markIdle now)).openHandle? d id = s.openHandle? d id := by
  rw [openHandle?, slot?_mapSlot]
  split
  · cases hs : s.slot? id with
    | none => simp [openHandle?, hs]
    | some x =>
      simp [openHandle?, hs]
      rfl
  · rfl

theorem covers_releaseExpired {P : Nat → Prop} {e : Nat}
    (hopen : ∀ e d id, s.slotIn? e d = some id → ∃ h, s.openHandle? d id = some h)
    (slots : List (ContextId × Nat)) (h : s.Covers now fun e' d id lent =>
      P e' ∨ e' = e ∧ (lent = false ∨ (d, id) ∈ slots)) :
    (releaseExpired s now slots).1.Covers now fun e' _ _ lent =>
      P e' ∨ e' = e ∧ lent = false := by
  induction slots generalizing s with
  | nil =>
    refine h.imp fun e' d id lent _ hp => ?_
    simpa using hp
  | cons p rest ih =>
    obtain ⟨c, other⟩ := p
    rw [releaseExpired]
    split
    · refine ih (fun e' d id hs => ?_) fun e' d id x hr hx hl => ?_
      · rw [State.openHandle?_markIdle]
        exact hopen e' d id hs
      · rcases State.slot?_mapSlot_cases hx with ⟨-, y, -, rfl⟩ | ⟨hne, hx⟩
        · have hfresh : (y.markIdle now).Fresh now := by simp [Slot.Fresh, Slot.markIdle]
          exact absurd hl (hfresh.not_late (Nat.le_refl now))
        · refine (h e' d id x hr hx hl).imp_right (And.imp_right (Or.imp_right fun hm => ?_))
          refine (List.mem_cons.mp hm).resolve_left fun heq => hne ?_
          rw [Prod.mk.injEq] at heq
          exact heq.2.symm
    · rename_i hkept
      refine ih hopen fun e' d id x hr hx hl => ?_
      refine (h e' d id x hr hx hl).imp_right (And.imp_right fun hlent => ?_)
      rcases hlent with hidle | hm
      · exact .inl hidle
      · rcases List.mem_cons.mp hm with heq | hm
        · -- a slot that the pass has left alone, though it is late and open, is not lent
          cases heq
          left
          rw [Bool.eq_false_iff]
          intro hb
          obtain ⟨y, hy⟩ := hopen e' c other hr.2
          rw [State.openHandle?, hx] at hy
          have hfor : x.openFor c = some y := hy
          refine hkept ?_
          rw [hx]
          simp [hb, hfor, (RetentionPolicy.late_of_lent hb).mp hl]
        · exact .inr hm

theorem covered_sweepSurplus {cont : State → Sweep → Step}
    (hc : s.Covers t fun e _ _ _ => e ∈ rest.entries.map (·.2))
    (hk : (cont s w).Covered t) : (sweepSurplus s w rest slots cont).Covered t := by
  rw [sweepSurplus]
  split
  · exact hk
  · split
    · exact hc.beginClosing _
    · exact hk

theorem covered_sweepIdle {cont : State → Sweep → Step} (hw : w.start = t)
    (hopen : ∀ e d id, s.slotIn? e d = some id → ∃ h, s.openHandle? d id = some h)
    (hc : s.Covers t fun e d id lent =>
      e ∈ rest.entries.map (·.2) ∨ e = w.entry ∧ lent = false ∧ (d, id) ∈ slots)
    (hk : s.Covers t (fun e _ _ _ => e ∈ rest.entries.map (·.2)) → (cont s w).Covered t) :
    (sweepIdle s w rest slots cont).Covered t := by
  -- an idle slot that is late is one that the pass looks for
  have sought : ∀ {id : Nat} {x : Slot}, s.slot? id = some x → x.borrowed = false →
      s.policy.Late t x → ∀ y, s.slot? id = some y →
      (!y.borrowed && s.policy.idleExpired y.releaseTime w.start) = true := by
    intro id x hx hb hl y hy
    obtain rfl : x = y := Option.some.inj (hx.symm.trans hy)
    rw [hw, hb, (RetentionPolicy.late_of_idle hb).mp hl]
    rfl
  simp only [sweepIdle]
  split
  · rename_i c later hx
    refine ⟨hw, State.Covers.beginClosing (fun e d id x hr hs hl => ?_) c⟩
    rcases hc e d id x hr hs hl with hin | ⟨he, hb, hm⟩
    · exact .inl hin
    · exact .inr ⟨he, hb, firstOpen?_covers hx hm (hopen e d id hr.2) (sought hs hb hl)⟩
  · rename_i hx
    have hrest : s.Covers t fun e _ _ _ => e ∈ rest.entries.map (·.2) := by
      intro e d id x hr hs hl
      rcases hc e d id x hr hs hl with hin | ⟨-, hb, hm⟩
      · exact hin
      · exact (not_passed (hopen e d id hr.2) fun y hy =>
          State.openFor_of_firstOpen? hx (d, id) hm y hy (sought hs hb hl y hy)).elim
    exact covered_sweepSurplus hrest (hk hrest)

theorem Stage.Ready.upright (hg : g.Ready True D O) (e : Nat) (d : ContextId) (id : Nat)
    (hs : g.state.slotIn? e d = some id) : ∃ h, g.state.openHandle? d id = some h :=
  (hg.sound trivial).openHandle? hg.closing hs

theorem covered_sweepAll {after : AfterSweep} {cont : State → SweepReport → Step}
    (hcont : ∀ (g : Stage) (total : SweepReport), g.Ready True D O → g.state.Timely now →
      (cont g.state total).Covered now)
    (entries : List (Identity × Nat)) {total : SweepReport} (hg : g.Ready True D O)
    (hc : g.state.Covers now fun e _ _ _ => e ∈ entries.map (·.2)) :
    (sweepAll now after cont g.state total entries).Covered now := by
  induction entries generalizing g total with
  | nil => exact hcont g total hg (hc.imp fun e d id lent _ hm => absurd hm List.not_mem_nil)
  | cons p entries ih =>
    obtain ⟨i, e⟩ := p
    have hreleased := covers_releaseExpired (e := e) hg.upright (g.state.slotsOf e)
      (P := (· ∈ entries.map (·.2))) (hc.imp fun e' d id lent hs hm => ?_)
    · obtain ⟨-, hr⟩ : Trail True .tick now g _ ∧ _ :=
        trail_releaseExpired hg (fun _ => rfl) (g.state.slotsOf e)
      rw [sweepAll, beginSweep]
      refine covered_sweepIdle rfl hr.upright (hreleased.imp fun e' d id lent hs hm => ?_)
        fun hrest => ?_
      · rcases hm with hin | ⟨he, hb⟩
        · exact .inl hin
        · rw [he] at hs
          exact .inr ⟨he, hb, Registry.mem_of_slotIn? hs⟩
      · obtain ⟨ht, hr'⟩ : Trail True .tick now _ _ ∧ _ := trail_endSweep hr
          ⟨i, e, now, { released := (releaseExpired g.state now (g.state.slotsOf e)).2 }⟩
        exact ih hr' (ht.covers (hr.sound trivial) (Nat.le_refl now) hrest)
    · rcases List.mem_cons.mp hm with he | hm
      · rw [he] at hs
        exact .inr ⟨he, .inr (Registry.mem_of_slotIn? hs)⟩
      · exact .inl hm

end sweep

/-! ### The moves of a tick -/

section tick
variable {now : Nat} {D : List Handle} {O : List (Identity × Handle)} {g : Stage}

theorem Stage.Ready.timely {s : State} (hg : g.Ready True D O) (h : g.state.Timely now)
    (hs : g.state.SameTables s) : s.Timely now :=
  have hwritten : Change True .tick now g (g.withState s) := .written hs
  hwritten.covers (hg.sound trivial) (Nat.le_refl now) h

theorem covered_tick (observers : List Observer) (hg : g.Ready True D O)
    (h : g.state.Timely now) : (tick now g.state observers).Covered now := by
  induction observers generalizing g with
  | nil => exact h
  | cons o observers ih =>
    cases o with
    | log => exact ih (hg.written (.summarize _)) (hg.timely h (.summarize _))
    | inspector =>
      exact covered_sweepAll (fun g _ hg h => ih hg h) _ hg (h.imp fun _ _ _ _ _ => False.elim)
    | poolInspector => exact ih hg h
    | recorder o =>
      rw [tick]
      split
      · exact h
      · exact ih hg h

/-- A tick that is shown to the inspector before anything can wait leaves nothing late. -/
theorem covered_start {observers : List Observer}
    (ho : g.state.observers = .log :: .inspector :: observers) (hg : g.Ready True D O) :
    (start g.state now .tick).Covered now := by
  have hstart : start g.state now .tick = sweepAll now (.tick observers)
      (fun s _ => tick now s observers) g.state.summarize {} g.state.summarize.registry.known := by
    rw [start, ho]
    rfl
  rw [hstart]
  refine covered_sweepAll (g := g.withState g.state.summarize) (fun g _ hg h =>
    covered_tick observers hg h) _ (hg.written (.summarize _)) ?_
  rintro e d id x ⟨⟨i, hi⟩, -⟩ - -
  exact List.mem_map_of_mem (Keyed.mem_of_get? hi)

theorem covered_continue {rest : SweepRest} (w : Sweep) (hg : g.Ready True D O)
    (hc : g.state.Covers now fun e _ _ _ => e ∈ rest.entries.map (·.2)) :
    (rest.continue now g.state w).Covered now := by
  obtain ⟨ht, hr⟩ : Trail True .tick now g (g.withState (endSweep g.state w)) ∧ _ :=
    trail_endSweep hg w
  refine covered_sweepAll (fun g total hg h => ?_) _ hr
    (ht.covers (hg.sound trivial) (Nat.le_refl now) hc)
  cases rest.after with
  | report => exact h
  | tick observers => exact covered_tick observers hg h

theorem covered_resume {f : Frame} {a : f.call.Answer} (hg : g.Awaits True .tick f D O)
    (hf : f.Covers now g.state) : (resume g.state now f a).Covered now := by
  have hholds := hg.holds trivial
  cases f with
  | telling o observers t => cases hholds
  | ticking o observers => exact covered_tick observers (hg.ready rfl rfl) hf
  | checkingOwn | recheckingOwn | checkingOther | opening => cases hholds.1
  | closing c after =>
    have hfinish : Change True .tick now g (g.finish c a) := .finish g c a hg.closing
    have hready : (g.finish c a).Ready True D O :=
      ⟨⟨hg.claim, rfl, hg.opened, hg.disconnected, fun h => hfinish.sound h (hg.sound h)⟩,
        hg.settled⟩
    have hcovers : ∀ {P}, g.state.Covers now P → (g.finish c a).state.Covers now P := fun h =>
      hfinish.covers (hg.sound trivial) (Nat.le_refl now) h
    cases after with
    | sweptIdle w slots rest =>
      -- the slot that was closed is not registered any more
      have hleft : (g.finish c a).state.Covers now fun e d id lent =>
          e ∈ rest.entries.map (·.2) ∨ e = w.entry ∧ lent = false ∧ (d, id) ∈ slots := by
        refine (hcovers hf.2).imp fun e d id lent hs hp => hp.imp_right fun ⟨he, hb, hid⟩ => ?_
        exact ⟨he, hb, hid.resolve_left ((hg.sound trivial).placed.slotIn?_finish hg.closing hs).2⟩
      exact covered_sweepIdle (s := (g.finish c a).state) hf.1 hready.upright hleft fun hrest =>
        covered_continue (g := g.finish c a) _ hready hrest
    | sweptSurplus w slots rest =>
      exact covered_sweepSurplus (s := (g.finish c a).state) (hcovers hf)
        (covered_continue (g := g.finish c a) _ hready (hcovers hf))
    | inspected observers t => cases hholds
    | ownUseless | displacedByTaken | displacedByOpened | drained => cases hholds.1
    | requested =>
      obtain ⟨i, d, hk⟩ := hholds
      cases hk

end tick

end ConnectionLeasing.Affine
