import ConnectionLeasing.Proofs.Affine.Passage

/-!
# What a borrow is served with

A borrow takes an existing connection only if that carries the channel asked for, and opens a new
one with the constructor of that channel. `Suiting` says so of a step of a borrow; a handle that it
has chosen but not yet lent stands in its frame (`Frame.Suits`).

* `suiting_tell`, `suiting_resume`: the moves of a borrow.
* `Reachable.suited`: what any borrow of a run was served with: a connection of its identity, and
  of its channel as far as the constructors go.
-/

namespace ConnectionLeasing

/-- The handle carries the channel asked for, or what the constructor of that channel builds. -/
def Factory.Suits (F : Factory) (channel : Channel) (h : Handle) : Prop :=
  h.channel = channel ∨ F.produces? channel = some h.channel

namespace Affine

/-- What a waiting borrow goes on to lend suits it. -/
def Frame.Suits (F : Factory) : Frame → Prop
  | .opening r _ produces _ => F.produces? r.channel = some produces
  | .closing _ (.displacedByTaken r _ h) => F.Suits r.channel h
  | .closing _ (.displacedByOpened r h) => F.Suits r.channel h
  | _ => True

/-- What a step of a borrow lends, or goes on to lend, suits it. -/
def Suiting (F : Factory) (r : Request) : Progress Frame Result → Prop
  | .paused f => f.Suits F
  | .done (.lent h) => F.Suits r.channel h
  | .done _ => True

/-! ### The factory stays -/

section changes
variable {calm : Prop} {k : Command} {now : Nat} {g g' : Stage}

theorem Change.factory (h : Change calm k now g g') : g'.state.factory = g.state.factory := by
  cases h with
  | finish c failure hc => cases failure <;> rfl
  | _ => rfl

theorem Trail.factory (h : Trail calm k now g g') : g'.state.factory = g.state.factory := by
  induction h with
  | refl => rfl
  | tail _ hchange ih => exact hchange.factory.trans ih

theorem factory_inspect (s : State) (now : Nat) (a : Announcement) :
    (inspect s now a).1.factory = s.factory := by
  unfold inspect
  split
  · rfl
  · split <;> rfl

theorem factory_summarize (s : State) : s.summarize.factory = s.factory := by
  obtain ⟨journal, hs⟩ := s.exists_journal_summarize
  rw [hs]

end changes

/-! ### The moves of a borrow -/

section moves
variable {F : Factory} {s : State} {r : Request} {e now : Nat}

theorem suiting_claim (hF : s.factory = F) : Suiting F r (claim s r).2 := by
  unfold claim
  split
  · unfold openNew
    split
    · rename_i produces hproduces
      rw [← hF]
      exact hproduces
    · trivial
  · trivial

theorem suiting_takeOver (hF : s.factory = F) (slots : List (ContextId × Nat)) :
    Suiting F r (takeOver s r e slots).2 := by
  induction slots with
  | nil => exact suiting_claim hF
  | cons p others ih =>
    rw [takeOver]
    split
    · exact ih
    · split
      · trivial
      · exact ih

theorem suiting_borrow (hF : s.factory = F) : Suiting F r (borrow s r).2 := by
  unfold borrow
  split
  · unfold reuse
    split
    · trivial
    · exact suiting_takeOver hF _
  · exact suiting_claim hF

theorem suiting_tell {t : Telling} (ht : (Command.borrow r).telling? = some t) (hF : s.factory = F)
    (observers : List Observer) : Suiting F r (tell now t s observers).2 := by
  induction observers generalizing s with
  | nil =>
    cases ht
    exact suiting_borrow hF
  | cons o observers ih =>
    cases o with
    | log => exact ih ((factory_summarize _).trans hF)
    | inspector =>
      have hinspect := factory_inspect s now t.announcement
      rw [tell]
      split
      · trivial
      · rename_i s' heq
        rw [heq] at hinspect
        exact ih (hinspect.trans hF)
    | poolInspector => exact ih hF
    | recorder o => trivial

theorem suiting_resumeOpening {produces : Channel} {c : Connected}
    (hproduces : F.produces? r.channel = some produces) (hc : c.handle.channel = produces) :
    Suiting F r (resumeOpening s now r e c).2 := by
  have hsuits : F.Suits r.channel c.handle := .inr (by rw [hc]; exact hproduces)
  unfold resumeOpening
  split
  · trivial
  · dsimp only
    split
    · exact hsuits
    · exact hsuits

theorem suiting_resumeOwn (id : Nat) (h : Handle) (usable : Bool) :
    Suiting F r (resumeOwn s r e id h usable).2 := by
  unfold resumeOwn
  split
  · trivial
  · split <;> trivial

theorem suiting_resumeOwnAgain (id : Nat) (h : Handle) (usable : Bool) :
    Suiting F r (resumeOwnAgain s now r e id h usable).2 := by
  unfold resumeOwnAgain
  split
  · rename_i hok
    rw [Bool.and_eq_true, decide_eq_true_eq] at hok
    exact .inl hok.2
  · trivial

theorem suiting_resumeOther (hF : s.factory = F) (owner : ContextId) (id : Nat) (h : Handle)
    (others : List (ContextId × Nat)) (usable : Bool) :
    Suiting F r (resumeOther s now r e owner id h others usable).2 := by
  unfold resumeOther
  split
  · rename_i hok
    rw [Bool.and_eq_true, decide_eq_true_eq] at hok
    split
    · exact suiting_takeOver hF others
    · dsimp only
      split
      · exact .inl hok.2
      · exact .inl hok.2
  · exact suiting_takeOver hF others

theorem suiting_resumeClosing {g : Stage} {c : Closing} {after : AfterClosing}
    (hafter : after.Holds (.borrow r) g c) (hsuits : (Frame.closing c after).Suits F)
    (hF : s.factory = F) : Suiting F r (resumeClosing s now c after).2 := by
  cases after with
  | inspected observers t =>
    exact suiting_tell (s := afterInspection s t.announcement) hafter hF observers
  | ownUseless r' e =>
    cases hafter.1
    exact suiting_takeOver hF _
  | displacedByTaken r' source taken =>
    cases hafter.1
    exact hsuits
  | displacedByOpened r' opened =>
    cases hafter.1
    exact hsuits
  | requested =>
    obtain ⟨i, c, hk⟩ := hafter
    cases hk
  | drained => cases hafter.1
  | sweptIdle => cases hafter.1
  | sweptSurplus => cases hafter.1

theorem suiting_resume {m : System} {g : Stage} {f : Frame} {a : f.call.Answer}
    (hf : f.Holds (.borrow r) g) (hsuits : f.Suits F) (hF : s.factory = F)
    (ha : m.Admits f.call a) : Suiting F r (resume s now f a).2 := by
  cases f with
  | telling o observers t => exact suiting_tell hf hF observers
  | ticking o observers => cases hf
  | checkingOwn r' e id h =>
    cases hf.1
    exact suiting_resumeOwn id h a
  | recheckingOwn r' e id h =>
    cases hf.1
    exact suiting_resumeOwnAgain id h a
  | checkingOther r' e owner id h others =>
    cases hf.1
    exact suiting_resumeOther hF owner id h others a
  | opening r' e produces timeout =>
    cases hf.1
    exact suiting_resumeOpening hsuits ha.2
  | closing c after =>
    refine suiting_resumeClosing hf hsuits ?_
    rw [← hF]
    cases a <;> rfl

end moves

/-! ### Runs -/

theorem Frame.Holds.suits {k : Command} {g : Stage} {f : Frame} (hf : f.Holds k g)
    (hk : ∀ r, k ≠ .borrow r) (F : Factory) : f.Suits F := by
  cases f with
  | opening r e produces timeout => exact absurd hf.1 (hk r)
  | closing c after =>
    cases after with
    | displacedByTaken r source taken => exact absurd hf.1 (hk r)
    | displacedByOpened r opened => exact absurd hf.1 (hk r)
    | _ => trivial
  | _ => trivial

theorem Stage.Lent.opened {g : Stage} (hs : g.Sound) {i : Identity} {c : ContextId} {h : Handle}
    (hl : g.Lent i c h) : (i, h) ∈ g.opened := by
  obtain ⟨e, id, hhome, hin, hh, -⟩ := hl
  obtain ⟨e', j, hplace, hhome', ho⟩ := hs.accounted.held id h hh
  have he : some e' = some e := hplace.symm.trans (hs.placed.place e c id hin)
  cases he
  have hj : some j = some i := hhome'.symm.trans hhome
  cases hj
  exact ho

/-- What borrows go on to lend suits them, and so does what they have lent, which is of their
identity. -/
structure System.Suited (m : System) : Prop where
  frames : ∀ o ∈ m.ongoing, o.frame.Suits m.state.factory
  lent : ∀ r h, .returned (.borrow r) (.lent h) ∈ m.events →
    (r.identity, h) ∈ m.opened ∧ m.state.factory.Suits r.channel h

section runs
variable {m m' : System} {g g' : Stage} {k : Command} {seen : List Event} {rest : List Ongoing}
  {step : Step}

theorem System.Suited.moved (hm : m.Suited) (hg : (m.moved k seen rest step).Good True g')
    (hF : step.1.factory = m.state.factory)
    (hsuiting : ∀ r, k = .borrow r → Suiting m.state.factory r step.2)
    (hrest : ∀ o ∈ rest, o ∈ m.ongoing) (hseen : ∀ e ∈ seen, ∀ k r, e ≠ .returned k r) :
    (m.moved k seen rest step).Suited := by
  refine ⟨fun o ho => ?_, fun r h hevent => ?_⟩
  · show o.frame.Suits step.1.factory
    rw [hF]
    rcases System.mem_moved ho with ⟨hcommand, hpaused⟩ | hold
    · by_cases hk : ∃ r, k = .borrow r
      · obtain ⟨r, hr⟩ := hk
        have hsuits := hsuiting r hr
        rw [hpaused] at hsuits
        exact hsuits
      · refine (hg.holds trivial o ho).suits (fun r hr => hk ⟨r, ?_⟩) _
        rw [← hcommand]
        exact hr
    · exact hm.frames o (hrest o hold)
  · have hopened : ∀ p ∈ m.opened, p ∈ (m.moved k seen rest step).opened := fun p hp => by
      rw [System.opened_moved]
      exact List.mem_append_left _ hp
    show _ ∧ step.1.factory.Suits r.channel h
    rw [hF]
    rcases List.mem_append.mp hevent with hevent | hlast
    · rcases List.mem_append.mp hevent with hevent | hevent
      · exact (hm.lent r h hevent).imp_left (hopened _)
      · exact absurd rfl (hseen _ hevent _ _)
    · have hshown : shown k step.2 = .returned (.borrow r) (.lent h) :=
        (List.mem_singleton.mp hlast).symm
      refine ⟨?_, ?_⟩
      · rw [← hg.opened]
        refine Stage.Lent.opened (hg.sound trivial) (hg.lent trivial r h ?_)
        simp [System.moved, hshown]
      · cases hnext : step.2 with
        | paused f =>
          rw [hnext] at hshown
          cases hshown
        | done result =>
          rw [hnext] at hshown
          cases hshown
          have hsuits := hsuiting r rfl
          rw [hnext] at hsuits
          exact hsuits

theorem System.Suited.next (hm : m.Suited) (hg : m.Good True g) {k : Option Command}
    (hmove : Moves .calm m k m') : m'.Suited := by
  obtain ⟨g', hpassage⟩ := hg.next (fun _ _ _ h => h) hmove
  have hF : m'.state.factory = m.state.factory := by
    obtain ⟨c, x, -, -, htrail, -⟩ := hpassage.trail
    rw [← hg.state, ← hpassage.good.state]
    exact htrail.factory
  cases hmove with
  | start x hx =>
    refine hm.moved hpassage.good hF (fun r hr => ?_) (fun o ho => ho) (by simp)
    subst hr
    exact suiting_tell rfl rfl _
  | resume before o later a hongoing ho ha =>
    have hmem : o ∈ m.ongoing := by simp [hongoing]
    refine hm.moved hpassage.good hF (fun r hr => ?_)
      (fun p hp => System.mem_ongoing hongoing hp) (by simp)
    have hholds := hg.holds trivial o hmem
    rw [hr] at hholds
    exact suiting_resume hholds (hm.frames o hmem) rfl ha
  | fail before o later hongoing ho htells =>
    exact ⟨fun p hp => hm.frames p (System.mem_ongoing hongoing hp), hm.lent⟩
  | attach o => exact ⟨hm.frames, hm.lent⟩
  | pass t ht => exact ⟨hm.frames, hm.lent⟩

/-- **Every borrow is served with a connection of its own identity**, which carries the channel
asked for or what the constructor of that channel builds. -/
theorem Reachable.suited (hm : Reachable .calm m) : m.Suited := by
  induction hm with
  | initial settings factory now =>
    refine ⟨fun o ho => ?_, fun r h hevent => ?_⟩
    · cases ho
    · cases hevent
  | next hm hmove ih =>
    obtain ⟨g, hg⟩ := hm.calm_good
    exact ih.next hg hmove

end runs

end Affine

end ConnectionLeasing
