import ConnectionLeasing.Proofs.Affine.Borrowing

/-!
# A sweep as a trail of changes

The passes of a sweep, each up to its next disconnect or to what the sweep goes on with.

* `trail_releaseExpired`, `trail_endSweep`: the parts that never wait.
* `Ready.closeFirst`: the first open slot of a list is closed.
* `outcome_sweepIdle`, `outcome_sweepSurplus`: the passes that close slots.
* `outcome_sweepAll`: all of them, identity by identity.
-/

namespace ConnectionLeasing.Affine

variable {calm : Prop} {k : Command} {now : Nat} {D : List Handle} {O : List (Identity × Handle)}
  {g g' : Stage} {step : Step}

theorem Outcome.trail (h : Trail calm k now g g') (ho : Outcome calm k now D O g' step) :
    Outcome calm k now D O g step := by
  obtain ⟨g'', ht, he⟩ := ho
  exact ⟨g'', h.trans ht, he⟩

/-! ### The parts that never wait -/

theorem trail_releaseExpired (hg : g.Ready calm D O) (hk : calm → k.sweeps)
    (slots : List (ContextId × Nat)) :
    Trail calm k now g (g.withState (releaseExpired g.state now slots).1) ∧
      (g.withState (releaseExpired g.state now slots).1).Ready calm D O := by
  induction slots generalizing g with
  | nil => exact ⟨.refl, hg⟩
  | cons p rest ih =>
    obtain ⟨c, id⟩ := p
    rw [releaseExpired]
    split
    · rename_i expired
      have hover : g.state.isOverdue now id := by
        obtain ⟨y, hy, he⟩ := Option.any_eq_true .. |>.mp expired
        rw [State.isOverdue, hy]
        simp only [Bool.and_eq_true] at he
        simp [he.1.2, he.2]
      have hidle : Change calm k now g (g.withState (g.state.mapSlot id (·.markIdle now))) :=
        .idle g id fun h => .inr ⟨.inr (hk h), hover⟩
      obtain ⟨ht, hr⟩ := ih (hg.change hidle hg.claim hg.closing rfl rfl rfl)
      exact ⟨.head hidle ht, hr⟩
    · exact ih hg

theorem trail_endSweep (hg : g.Ready calm D O) (w : Sweep) :
    Trail calm k now g (g.withState (endSweep g.state w)) ∧
      (g.withState (endSweep g.state w)).Ready calm D O := by
  have hcount := State.SameTables.count g.state fun l => { l with
    evictedReleased := l.evictedReleased + w.report.released
    evictedClosed := l.evictedClosed + w.report.closed }
  have hwritten : ∀ {s : State}, g.state.SameTables s →
      Trail calm k now g (g.withState (if s.registry.isForgettable w.identity w.entry then
        { s with registry := s.registry.forget w.identity }.note (.forgot w.identity) else s)) ∧
      (g.withState (if s.registry.isForgettable w.identity w.entry then
        { s with registry := s.registry.forget w.identity }.note (.forgot w.identity)
        else s)).Ready calm D O := by
    intro s hs
    have hr := hg.written hs
    split
    · rename_i hf
      have hforget : Change calm k now (g.withState s) ((g.withState s).withRegistry
          (s.registry.forget w.identity)) := .forget _ w.identity w.entry hf
      have hnote := State.SameTables.note { s with registry := s.registry.forget w.identity }
        (.forgot w.identity)
      refine ⟨.head (.written hs) (.head hforget (.single (.written hnote))), ?_⟩
      exact (hr.change hforget hr.claim hr.closing rfl rfl rfl).written hnote
    · exact ⟨.single (.written hs), hr⟩
  unfold endSweep
  split
  · exact hwritten hcount
  · exact hwritten (hcount.trans (.note _ _))

/-! ### Closing slots of a list -/

theorem Stage.Made.rest {p : Slot → Bool} {i : Identity} {e : Nat}
    {slots rest : List (ContextId × Nat)} {c : Closing} (hm : g.Made e slots)
    (hx : g.state.firstOpen? p i e slots = some (c, rest)) :
    c.entry = e ∧ g.places[c.slot]? = some e ∧ g.Made e rest := by
  obtain ⟨-, he, -, -, -, passed, rfl, -⟩ := State.firstOpen?_eq_some hx
  refine ⟨he, hm _ (List.mem_append_right _ List.mem_cons_self), fun q hq => hm q ?_⟩
  exact List.mem_append_right _ (List.mem_cons_of_mem _ hq)

theorem Stage.Ready.closeFirst {p : Slot → Bool} {i : Identity} {e : Nat}
    {slots rest : List (ContextId × Nat)} {c : Closing} {after : AfterClosing}
    (hg : g.Ready calm D O) (hx : g.state.firstOpen? p i e slots = some (c, rest))
    (hm : calm → g.Made e slots)
    (hw : calm → (∀ y, p y = true → y.borrowed = false) ∨ k = .closeAll)
    (ha : calm → after.Holds k (g.take c) c) :
    Outcome calm k now D O g (g.state.close c after) := by
  obtain ⟨-, -, ⟨y, hy, hp⟩, ho, hh, -⟩ := State.firstOpen?_eq_some hx
  refine hg.close (fun _ => hh) (fun _ => ho) (fun h => ?_) (fun h => ?_) ha
  · rw [((hm h).rest hx).1]
    exact ((hm h).rest hx).2.1
  · rcases hw h with hidle | hall
    · left
      rw [State.isLent, hy]
      exact hidle y hp
    · exact .inr (.inr hall)

theorem mem_slotsOf_of_surplus {s : State} {e : Nat} {p : ContextId × Nat}
    (hp : p ∈ surplusCandidates s e) : p ∈ s.slotsOf e := by
  obtain ⟨x, hx, rfl⟩ := List.mem_map.mp hp
  obtain ⟨q, hq, hidle⟩ := List.mem_filterMap.mp (List.mem_mergeSort.mp hx)
  obtain ⟨y, -, hy⟩ := Option.bind_eq_some_iff.mp hidle
  split at hy
  · cases hy
  · cases hy
    exact hq

/-! ### The passes that close slots -/

section passes
variable {w : Sweep} {rest : SweepRest} {slots : List (ContextId × Nat)}
  {cont : State → Sweep → Step}

theorem outcome_sweepSurplus (hg : g.Ready calm D O) (hk : calm → k.sweeps)
    (hm : calm → g.Made w.entry slots) (hc : Outcome calm k now D O g (cont g.state w)) :
    Outcome calm k now D O g (sweepSurplus g.state w rest slots cont) := by
  rw [sweepSurplus]
  split
  · exact hc
  · split
    · rename_i c slots' hx
      refine hg.closeFirst hx hm (fun _ => .inl fun y hy => ?_) fun h =>
        ⟨hk h, ((hm h).rest hx).2.2⟩
      simpa using hy
    · exact hc

theorem outcome_sweepIdle (hg : g.Ready calm D O) (hk : calm → k.sweeps)
    (hm : calm → g.Made w.entry slots) (hc : Outcome calm k now D O g (cont g.state w)) :
    Outcome calm k now D O g (sweepIdle g.state w rest slots cont) := by
  simp only [sweepIdle]
  split
  · rename_i c slots' hx
    refine hg.closeFirst hx hm (fun _ => .inl fun y hy => ?_) fun h =>
      ⟨hk h, ((hm h).rest hx).2.2⟩
    simp only [Bool.and_eq_true, Bool.not_eq_true'] at hy
    exact hy.1
  · exact outcome_sweepSurplus hg hk
      (fun h p hp => (hg.sound h).made_slotsOf w.entry p (mem_slotsOf_of_surplus hp)) hc

end passes

theorem outcome_sweepAll {after : AfterSweep} {cont : State → SweepReport → Step}
    (hk : calm → k.sweeps)
    (hc : ∀ (g : Stage) (total : SweepReport), g.Ready calm D O →
      Outcome calm k now D O g (cont g.state total))
    (entries : List (Identity × Nat)) {total : SweepReport} (hg : g.Ready calm D O) :
    Outcome calm k now D O g (sweepAll now after cont g.state total entries) := by
  induction entries generalizing g total with
  | nil => exact hc g total hg
  | cons p entries ih =>
    obtain ⟨i, e⟩ := p
    obtain ⟨ht, hr⟩ : Trail calm k now g _ ∧ _ := trail_releaseExpired hg hk (g.state.slotsOf e)
    rw [sweepAll, beginSweep]
    refine .trail ht (outcome_sweepIdle hr hk (fun h => (hr.sound h).made_slotsOf e) ?_)
    obtain ⟨ht', hr'⟩ : Trail calm k now _ _ ∧ _ := trail_endSweep hr
      ⟨i, e, now, { released := (releaseExpired g.state now (g.state.slotsOf e)).2 }⟩
    exact .trail ht' (ih hr')

end ConnectionLeasing.Affine
