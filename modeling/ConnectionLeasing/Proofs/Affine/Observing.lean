import ConnectionLeasing.Proofs.Affine.Outcome
import ConnectionLeasing.Proofs.Affine.Run

/-!
# No operation attaches or removes an observer

The list of observers is the same after every function of a manager, so in a run it only grows by
what is attached: the built-in observers stay in front.

* `observers_start`, `observers_resume`: the moves of an operation.
* `Reachable.observers`: the built-in observers come first at all times.
-/

namespace ConnectionLeasing.Affine

variable {l : List Observer} {s : State} {now e : Nat} {r : Request}

theorem observers_summarize (h : s.observers = l) : s.summarize.observers = l := by
  obtain ⟨journal, hs⟩ := s.exists_journal_summarize
  rw [hs]
  exact h

theorem observers_finishClosing (h : s.observers = l) (c : Closing) (failure : Option LeaseError) :
    (s.finishClosing c failure).observers = l := by
  cases failure <;> exact h

/-! ### Borrowing -/

theorem observers_claim (h : s.observers = l) (r : Request) : (claim s r).1.observers = l := by
  unfold claim
  split
  · unfold openNew
    split <;> exact h
  · exact h

theorem observers_takeOver (h : s.observers = l) (slots : List (ContextId × Nat)) :
    (takeOver s r e slots).1.observers = l := by
  induction slots with
  | nil => exact observers_claim h r
  | cons p others ih =>
    rw [takeOver]
    split
    · exact ih
    · split
      · exact h
      · exact ih

theorem observers_borrow (h : s.observers = l) (r : Request) : (borrow s r).1.observers = l := by
  unfold borrow
  split
  · unfold reuse
    split
    · exact h
    · exact observers_takeOver h _
  · exact observers_claim h r

theorem observers_resumeOpening (h : s.observers = l) (x : Connected) :
    (resumeOpening s now r e x).1.observers = l := by
  unfold resumeOpening
  split
  · exact h
  · dsimp only
    split <;> exact h

theorem observers_resumeOther (h : s.observers = l) {owner : ContextId} {id : Nat} {x : Handle}
    {others : List (ContextId × Nat)} {usable : Bool} :
    (resumeOther s now r e owner id x others usable).1.observers = l := by
  unfold resumeOther
  split
  · split
    · exact observers_takeOver h _
    · dsimp only
      split <;> exact h
  · exact observers_takeOver h _

theorem observers_resumeOwn (h : s.observers = l) {id : Nat} {x : Handle} {usable : Bool} :
    (resumeOwn s r e id x usable).1.observers = l := by
  unfold resumeOwn
  split
  · exact h
  · split <;> exact h

theorem observers_resumeOwnAgain (h : s.observers = l) {id : Nat} {x : Handle} {usable : Bool} :
    (resumeOwnAgain s now r e id x usable).1.observers = l := by
  unfold resumeOwnAgain
  split <;> exact h

/-! ### Sweeping -/

theorem observers_releaseExpired (h : s.observers = l) (now : Nat)
    (slots : List (ContextId × Nat)) :
    (releaseExpired s now slots).1.observers = l := by
  induction slots generalizing s with
  | nil => exact h
  | cons p rest ih =>
    rw [releaseExpired]
    split
    · exact ih (s := s.mapSlot p.2 (·.markIdle now)) h
    · exact ih h

theorem observers_endSweep (h : s.observers = l) (w : Sweep) :
    (endSweep s w).observers = l := by
  unfold endSweep
  dsimp only
  split <;> split <;> exact h

section passes
variable {w : Sweep} {rest : SweepRest} {slots : List (ContextId × Nat)}
  {cont : State → Sweep → Step}

theorem observers_sweepSurplus (h : s.observers = l) (hc : (cont s w).1.observers = l) :
    (sweepSurplus s w rest slots cont).1.observers = l := by
  unfold sweepSurplus
  split
  · exact hc
  · split
    · exact h
    · exact hc

theorem observers_sweepIdle (h : s.observers = l) (hc : (cont s w).1.observers = l) :
    (sweepIdle s w rest slots cont).1.observers = l := by
  unfold sweepIdle
  dsimp only
  split
  · exact h
  · exact observers_sweepSurplus h hc

end passes

theorem observers_sweepAll {after : AfterSweep} {cont : State → SweepReport → Step}
    (hcont : ∀ s total, s.observers = l → (cont s total).1.observers = l) (h : s.observers = l)
    (total : SweepReport) (entries : List (Identity × Nat)) :
    (sweepAll now after cont s total entries).1.observers = l := by
  induction entries generalizing s total with
  | nil => exact hcont s total h
  | cons p entries ih =>
    have hreleased := observers_releaseExpired h now (s.slotsOf p.2)
    rw [sweepAll]
    exact observers_sweepIdle hreleased (ih (observers_endSweep hreleased _) _)

/-! ### Closing everything -/

theorem observers_closeEntries (h : s.observers = l) (closed : Nat)
    (entries : List (Identity × Nat)) : (closeEntries s closed entries).1.observers = l := by
  induction entries with
  | nil => exact h
  | cons p entries ih =>
    rw [closeEntries]
    split
    · exact h
    · exact ih

/-! ### Telling observers -/

theorem observers_inspect (h : s.observers = l) (now : Nat) (a : Announcement) :
    (inspect s now a).1.observers = l := by
  unfold inspect
  split
  · exact h
  · split <;> exact h

theorem observers_perform (h : s.observers = l) (now : Nat) (t : Telling) :
    (perform s now t).1.observers = l := by
  unfold perform
  dsimp only
  split
  · exact observers_borrow h _
  · unfold release
    split <;> exact h
  · unfold closeOwn
    split <;> exact h
  · exact h

theorem observers_tell (h : s.observers = l) (now : Nat) (t : Telling)
    (observers : List Observer) : (tell now t s observers).1.observers = l := by
  induction observers generalizing s with
  | nil => exact observers_perform h now t
  | cons o observers ih =>
    cases o with
    | log => exact ih (observers_summarize h)
    | inspector =>
      have hinspect := observers_inspect h now t.announcement
      rw [tell]
      split
      · rename_i s' c hs
        rw [hs] at hinspect
        exact hinspect
      · rename_i s' hs
        rw [hs] at hinspect
        exact ih hinspect
    | poolInspector => exact ih h
    | recorder o => exact h

theorem observers_tick (h : s.observers = l) (now : Nat) (observers : List Observer) :
    (tick now s observers).1.observers = l := by
  induction observers generalizing s with
  | nil => exact h
  | cons o observers ih =>
    cases o with
    | log => exact ih (observers_summarize h)
    | inspector => exact observers_sweepAll (fun s _ hs => ih hs) h _ _
    | poolInspector => exact ih h
    | recorder o =>
      rw [tick]
      split
      · exact h
      · exact ih h

theorem observers_continue (after : AfterSweep) (h : s.observers = l) (now : Nat)
    (total : SweepReport) : (after.continue now s total).1.observers = l := by
  cases after with
  | report => exact h
  | tick observers => exact observers_tick h now observers

theorem observers_sweepRest (rest : SweepRest) (h : s.observers = l) (now : Nat) (w : Sweep) :
    (rest.continue now s w).1.observers = l :=
  observers_sweepAll (fun _ total hs => observers_continue rest.after hs now total)
    (observers_endSweep h w) _ _

/-! ### The machine -/

theorem observers_resumeClosing (h : s.observers = l) (now : Nat) (c : Closing)
    (after : AfterClosing) : (resumeClosing s now c after).1.observers = l := by
  cases after with
  | inspected observers t =>
    have hbooked : (afterInspection s t.announcement).observers = l := h
    exact observers_tell hbooked now t observers
  | ownUseless r e => exact observers_takeOver h _
  | displacedByTaken | displacedByOpened | requested => exact h
  | drained slots entries closed =>
    rw [resumeClosing]
    split
    · exact h
    · exact observers_closeEntries h _ _
  | sweptIdle w slots rest => exact observers_sweepIdle h (observers_sweepRest rest h now _)
  | sweptSurplus w slots rest => exact observers_sweepSurplus h (observers_sweepRest rest h now _)

theorem observers_start (h : s.observers = l) (now : Nat) (k : Command) :
    (start s now k).1.observers = l := by
  cases k with
  | borrow | release | close | tell => exact observers_tell h now _ _
  | tick => exact observers_tick h now _
  | sweep =>
    exact observers_sweepAll (fun _ total hs => observers_continue .report hs now total) h _ _
  | closeAll =>
    have hdrained : { s with registry := s.registry.drain.1 }.observers = l := h
    exact observers_closeEntries hdrained _ _

theorem observers_resume (h : s.observers = l) (now : Nat) (f : Frame) (a : f.call.Answer) :
    (resume s now f a).1.observers = l := by
  cases f with
  | telling o observers t => exact observers_tell h now t observers
  | ticking o observers => exact observers_tick h now observers
  | checkingOwn r e id x => exact observers_resumeOwn h
  | recheckingOwn r e id x => exact observers_resumeOwnAgain h
  | checkingOther r e owner id x others => exact observers_resumeOther h
  | opening r e produces timeout => exact observers_resumeOpening h a
  | closing c after => exact observers_resumeClosing (observers_finishClosing h c a) now c after

theorem Moves.observers {may : Overlap} {m m' : System} {k : Option Command}
    (h : Moves may m k m') : m.state.observers <+: m'.state.observers := by
  cases h with
  | start k hk => exact (observers_start rfl m.now k).symm ▸ List.prefix_refl m.state.observers
  | resume before o later a hm ho ha =>
    exact (observers_resume rfl m.now o.frame a).symm ▸ List.prefix_refl m.state.observers
  | fail before o later hm ho ht => exact List.prefix_refl _
  | attach o => exact List.prefix_append _ _
  | pass t ht => exact List.prefix_refl _

/-- **In every run the built-in observers come first.** -/
theorem Reachable.observers {may : Overlap} {m : System} (hm : Reachable may m) :
    [.log, .inspector] <+: m.state.observers := by
  induction hm with
  | initial settings factory now => exact List.prefix_refl _
  | next _ hmove ih => exact ih.trans hmove.observers

end ConnectionLeasing.Affine
