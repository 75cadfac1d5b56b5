import ConnectionLeasing.Proofs.Affine.Operating

/-!
# The moves of a run as trails of changes

`System.Good` says in which stage a system is between two moves: nothing is in hand but what its
operations show, what they rely on is true, and what has become of handles is what has been seen of
them. `Good.next` takes a good system over a move: the move is a trail of changes, and the system is
good after it. Invariants of stages become invariants of runs this way.

Without `calm` only what needs no assumption about checks and disconnects is said.
-/

namespace ConnectionLeasing.Affine

/-! ### Lists that only grow -/

section grow
variable {calm : Prop} {k : Command} {now : Nat} {g g' : Stage}

theorem Change.grows (h : Change calm k now g g') :
    g.homes <+: g'.homes ∧ g.places <+: g'.places := by
  cases h <;> first
    | exact ⟨List.prefix_refl _, List.prefix_refl _⟩
    | exact ⟨List.prefix_append _ _, List.prefix_refl _⟩
    | exact ⟨List.prefix_refl _, List.prefix_append _ _⟩

theorem Trail.grows (h : Trail calm k now g g') :
    g.homes <+: g'.homes ∧ g.places <+: g'.places := by
  induction h with
  | refl => exact ⟨List.prefix_refl _, List.prefix_refl _⟩
  | tail _ step ih => exact ⟨ih.1.trans step.grows.1, ih.2.trans step.grows.2⟩

theorem Trail.indexed (h : Trail calm k now g g') (hs : g.Indexed) : g'.Indexed := by
  induction h with
  | refl => exact hs
  | tail _ step ih => exact step.indexed ih

end grow

/-! ### What is in hand -/

section inHand
variable {g : Stage}

theorem Stage.Indexed.inHand (h : g.Indexed) (c : Option Nat) (x : Option Closing) :
    { g with claim := c, closing := x }.Indexed :=
  ⟨h.homes, h.places, h.known, h.home, h.keys⟩

theorem Stage.Sound.inHand (h : g.Sound) (c : Option Nat) {x : Option Closing}
    (hx : x = g.closing) : { g with claim := c, closing := x }.Sound := by
  subst hx
  obtain ⟨hi, hp, ha⟩ := h
  exact ⟨hi.inHand c _, ⟨hp.place, hp.owner, hp.live, hp.kept, hp.displaced, hp.closing⟩,
    ⟨ha.nodup, ha.held, ha.once, ha.unasked, ha.asked, ha.past⟩⟩

theorem Frame.Holds.inHand {k : Command} {f : Frame} (h : f.Holds k g) (c : Option Nat)
    (x : Option Closing) : f.Holds k { g with claim := c, closing := x } := by
  cases f with
  | closing y after => cases after <;> exact h
  | _ => exact h

end inHand

/-! ### Frames while others move -/

theorem Frame.Holds.grow {k : Command} {g g' : Stage} {f : Frame} (h : f.Holds k g)
    (hf : f.call.yields) (hg : g.homes <+: g'.homes) : f.Holds k g' := by
  cases f with
  | telling o observers t => exact h
  | ticking o observers => exact h
  | opening r e produces timeout => exact ⟨h.1, Stage.getElem?_of_isPrefix hg h.2⟩
  | checkingOwn | recheckingOwn | checkingOther | closing => cases hf

theorem Frame.Holds.written {k : Command} {g : Stage} {f : Frame} (h : f.Holds k g) {s : State}
    (hs : g.state.SameTables s) : f.Holds k (g.withState s) := by
  obtain ⟨o, l, j, rfl⟩ := hs
  cases f with
  | closing c after => cases after <;> exact h
  | _ => exact h

theorem Frame.closing?_of_yields {f : Frame} (h : f.call.yields) : f.closing? = none := by
  cases f <;> first | rfl | cases h

theorem Frame.yields_of_tells {f : Frame} (h : f.call.tells) : f.call.yields := by
  cases f <;> first | rfl | cases h

theorem claimOf_resume (s : State) (now : Nat) (f : Frame) (a : f.call.Answer) :
    f.claim? = none ∨ claimOf (resume s now f a).2 = none := by
  cases f with
  | opening r e produces timeout =>
    right
    show claimOf (resumeOpening s now r e a).2 = none
    unfold resumeOpening
    split
    · rfl
    · dsimp only
      split <;> rfl
  | _ => exact .inl rfl

theorem Frame.claim?_of_tells {f : Frame} (h : f.call.tells) : f.claim? = none := by
  cases f <;> first | rfl | cases h

/-! ### Good systems -/

namespace System

/-- The slot that is being closed between two moves: only the operation that moved last can wait
for a disconnect. -/
def closing (m : System) : Option Closing := m.ongoing.head?.bind (·.frame.closing?)

/-- How many operations hold a claim of room in an entry. -/
def claims (m : System) (e : Nat) : Nat := m.ongoing.countP fun o => o.frame.claim? = some e

/-- The system is in stage `g`. -/
structure Good (calm : Prop) (m : System) (g : Stage) : Prop where
  state : g.state = m.state
  opened : g.opened = m.opened
  disconnected : g.disconnected = m.disconnected
  settled : calm → g.displaced = none
  closing : calm → g.closing = m.closing
  indexed : g.Indexed
  sound : calm → g.Sound
  yields : calm → ∀ o ∈ m.ongoing.tail, o.frame.call.yields
  holds : calm → ∀ o ∈ m.ongoing, o.frame.Holds o.command g
  built : ∀ p ∈ m.opened, p.2 ∈ m.built
  /-- A handle whose lending is the last thing seen is in the caller's slot. -/
  lent : calm → ∀ r h, m.events.getLast? = some (.returned (.borrow r) (.lent h)) →
    g.Lent r.identity r.context h

theorem closing_of_yields {m : System} (h : ∀ o ∈ m.ongoing, o.frame.call.yields) :
    m.closing = none := by
  unfold closing
  cases hl : m.ongoing with
  | nil => rfl
  | cons o later => exact Frame.closing?_of_yields (h o (by rw [hl]; exact List.mem_cons_self))

theorem not_mem_built {m : System} {call : Call} {a : call.Answer} (ha : m.Admits call a)
    {p : Identity × Handle} (hp : p ∈ call.opened? a) : p.2 ∉ m.built := by
  cases call with
  | connect channel i timeout =>
    simp only [Call.opened?] at hp
    split at hp
    · cases hp
      exact ha.1
    · cases hp
  | visit | tick | check | disconnect => cases hp

theorem built?_of_opened? {k : Command} {call : Call} {a : call.Answer} {p : Identity × Handle}
    (hp : Event.opened? (.answered k call a) = some p) :
    Event.built? (.answered k call a) = some p.2 := by
  cases call with
  | connect channel i timeout =>
    simp only [Event.opened?, Call.opened?] at hp
    split at hp
    · cases hp
      rfl
    · cases hp
  | visit | tick | check | disconnect => cases hp

section moved
variable {m : System} {k : Command} {seen : List Event} {rest : List Ongoing} {step : Step}

theorem built_moved :
    (m.moved k seen rest step).built = m.built ++ seen.filterMap Event.built? := by
  have hshown : Event.built? (shown k step.2) = none := by
    cases h : step.2 <;> rfl
  simp [built, moved, hshown]

theorem opened_moved :
    (m.moved k seen rest step).opened = m.opened ++ seen.filterMap Event.opened? := by
  have hshown : Event.opened? (shown k step.2) = none := by
    cases h : step.2 <;> rfl
  simp [opened, moved, hshown]

theorem disconnected_moved (hs : seen.filterMap Event.disconnected? = []) :
    (m.moved k seen rest step).disconnected =
      m.disconnected ++ (closingOf step.2).toList.map (·.handle) := by
  have hshown : (Event.disconnected? (shown k step.2)).toList =
      (closingOf step.2).toList.map (·.handle) := by
    cases h : step.2 with
    | done r => rfl
    | paused f => cases f <;> rfl
  simp only [disconnected, moved, List.filterMap_append, hs, List.append_nil]
  rw [← hshown]
  cases h : Event.disconnected? (shown k step.2) <;> simp [h]

theorem closing_moved (h : ∀ o ∈ rest, o.frame.call.yields) :
    (m.moved k seen rest step).closing = closingOf step.2 := by
  cases hp : step.2 with
  | paused f => simp [closing, moved, left, hp, closingOf]
  | done r =>
    refine closing_of_yields fun o ho => h o ?_
    simpa [moved, left, hp] using ho

theorem mem_moved {o : Ongoing} (ho : o ∈ (m.moved k seen rest step).ongoing) :
    (o.command = k ∧ step.2 = .paused o.frame) ∨ o ∈ rest := by
  rcases List.mem_append.mp ho with ho | ho
  · left
    cases hp : step.2 with
    | paused f =>
      rw [hp] at ho
      rw [List.mem_singleton.mp ho]
      exact ⟨rfl, rfl⟩
    | done r =>
      rw [hp] at ho
      cases ho
  · exact .inr ho

theorem claims_moved (e : Nat) : (m.moved k seen rest step).claims e =
    rest.countP (fun o => o.frame.claim? = some e) + if claimOf step.2 = some e then 1 else 0 := by
  cases hp : step.2 with
  | paused f =>
    simp only [claims, moved, left, hp, List.singleton_append, List.countP_cons,
      decide_eq_true_eq]
    rfl
  | done r => simp [claims, moved, left, hp, claimOf]

end moved

/-! ### Moves -/

section moves
variable {calm : Prop} {may : Overlap} {m m' : System} {g g' : Stage}

/-- How a move takes one stage to another. -/
structure Passage (calm : Prop) (m : System) (k : Option Command) (m' : System) (g g' : Stage) :
    Prop where
  good : m'.Good calm g'
  /-- The move is a trail of changes; `others` are the claims of those that did not move. An
  operation that settles a claim makes no new one. -/
  trail : ∃ c x, (calm → x = g.closing) ∧ (c = none ∨ g'.claim = none) ∧
    Trail calm (k.getD .tick) m.now { g with claim := c, closing := x } g' ∧
    ∃ others : Nat → Nat, ∀ e, m.claims e = others e + (if c = some e then 1 else 0) ∧
      m'.claims e = others e + if g'.claim = some e then 1 else 0
  /-- What is claimed after the move is what the operation's frame shows. -/
  hand : ∀ x seen rest step, k = some x → m' = m.moved x seen rest step →
    g'.claim = claimOf step.2
  /-- A handle that is lent by the move is in the caller's slot. -/
  lent : ∃ E, m'.events = m.events ++ E ∧ (calm → ∀ ev ∈ E, ∀ h ∈ ev.lent?, ∃ r,
    k = some (.borrow r) ∧ g'.Lent r.identity r.context h)

theorem claims_append {before later : List Ongoing} {o : Ongoing}
    (hm : m.ongoing = before ++ o :: later) (e : Nat) :
    m.claims e = (before ++ later).countP (fun o => o.frame.claim? = some e) +
      if o.frame.claim? = some e then 1 else 0 := by
  simp only [claims, hm, List.countP_append, List.countP_cons, decide_eq_true_eq]
  omega

theorem mem_ongoing {before later : List Ongoing} {o : Ongoing}
    (hm : m.ongoing = before ++ o :: later) {p : Ongoing} (hp : p ∈ before ++ later) :
    p ∈ m.ongoing := by
  rw [hm]
  rcases List.mem_append.mp hp with hp | hp
  · exact List.mem_append_left _ hp
  · exact List.mem_append_right _ (List.mem_cons_of_mem _ hp)

/-- Between two moves only the operation that moves is not yielding, if any. -/
theorem Good.closing_eq (hg : m.Good calm g) (hc : calm) {before later : List Ongoing} {o : Ongoing}
    (hm : m.ongoing = before ++ o :: later) (h : ∀ p ∈ before ++ later, p.frame.call.yields) :
    o.frame.closing? = g.closing := by
  rw [hg.closing hc, System.closing, hm]
  cases before with
  | nil => rfl
  | cons p before =>
    have ho : o ∈ m.ongoing.tail := by
      rw [hm]
      simp
    rw [Frame.closing?_of_yields (hg.yields hc o ho)]
    exact (Frame.closing?_of_yields (h p (by simp))).symm

theorem moved_inj {k : Command} {seen seen' : List Event} {rest rest' : List Ongoing}
    {step step' : Step} (h : m.moved k seen rest step = m.moved k seen' rest' step') :
    step.2 = step'.2 := by
  have hongoing : left k step.2 ++ rest = left k step'.2 ++ rest' := congrArg System.ongoing h
  have hevents : m.events ++ seen ++ [shown k step.2] = m.events ++ seen' ++ [shown k step'.2] :=
    congrArg System.events h
  have hshown : shown k step.2 = shown k step'.2 := by
    have hlast := congrArg List.getLast? hevents
    simpa using hlast
  cases hp : step.2 with
  | paused f =>
    cases hp' : step'.2 with
    | paused f' =>
      rw [hp, hp'] at hongoing
      cases hongoing
      rfl
    | done r =>
      rw [hp, hp'] at hshown
      cases hshown
  | done r =>
    cases hp' : step'.2 with
    | paused f' =>
      rw [hp, hp'] at hshown
      cases hshown
    | done r' =>
      rw [hp, hp'] at hshown
      cases hshown
      rfl

theorem length_events_moved (k : Command) (seen : List Event) (rest : List Ongoing) (step : Step) :
    m.events.length < (m.moved k seen rest step).events.length := by
  show m.events.length < (m.events ++ seen ++ [shown k step.2]).length
  simp only [List.length_append, List.length_singleton]
  omega

theorem lent?_shown {k : Command} {step : Step} {h : Handle}
    (hs : h ∈ (shown k step.2).lent?) : step.2 = .done (.lent h) := by
  cases hp : step.2 with
  | paused f =>
    rw [hp] at hs
    cases hs
  | done r =>
    rw [hp] at hs
    cases r <;> cases hs
    rfl

section moved
variable {k : Command} {seen : List Event} {rest : List Ongoing} {step : Step} {c : Option Nat}
  {x : Option Closing}

theorem Good.moved (hg : m.Good calm g) (hsub : ∀ o ∈ rest, o ∈ m.ongoing)
    (hrest : calm → ∀ o ∈ rest, o.frame.call.yields)
    (hseen : seen.filterMap Event.disconnected? = [])
    (hbuilt : ∀ p ∈ seen.filterMap Event.opened?, p.2 ∈ seen.filterMap Event.built?)
    (hx : calm → x = g.closing) (ht : Trail calm k m.now { g with claim := c, closing := x } g')
    (he : g'.Ends calm k m.disconnected (m.opened ++ seen.filterMap Event.opened?) step) :
    (m.moved k seen rest step).Good calm g' where
  state := he.state
  opened := he.opened.trans opened_moved.symm
  disconnected := he.disconnected.trans (disconnected_moved hseen).symm
  settled := he.settled
  closing hc := he.closing.trans (closing_moved (hrest hc)).symm
  indexed := ht.indexed (hg.indexed.inHand c x)
  sound hc := ht.sound hc ((hg.sound hc).inHand c (hx hc))
  yields hc o ho := by
    cases hp : step.2 with
    | paused f => exact hrest hc o (by simpa [System.moved, left, hp] using ho)
    | done r =>
      exact hrest hc o (List.mem_of_mem_tail (by simpa [System.moved, left, hp] using ho))
  holds hc o ho := by
    have hends := he.holds hc
    rcases mem_moved ho with ⟨rfl, hp⟩ | ho
    · rw [hp] at hends
      exact hends
    · exact (hg.holds hc o (hsub o ho)).grow (hrest hc o ho) ht.grows.1
  built p hp := by
    rw [opened_moved] at hp
    rw [built_moved]
    rcases List.mem_append.mp hp with hp | hp
    · exact List.mem_append_left _ (hg.built p hp)
    · exact List.mem_append_right _ (hbuilt p hp)
  lent hc r h hlast := by
    have hshown : shown k step.2 = .returned (.borrow r) (.lent h) := by
      simpa [System.moved] using hlast
    have hends := he.holds hc
    rw [lent?_shown (k := k) (h := h) (by rw [hshown]; rfl)] at hends
    obtain ⟨r', rfl, hl⟩ := hends
    rw [lent?_shown (k := .borrow r') (h := h) (by rw [hshown]; rfl)] at hshown
    cases hshown
    exact hl

theorem Good.passage (hg : m.Good calm g) (hsub : ∀ o ∈ rest, o ∈ m.ongoing)
    (hrest : calm → ∀ o ∈ rest, o.frame.call.yields)
    (hseen : ∀ ev ∈ seen, ev.disconnected? = none ∧ ev.lent? = none)
    (hbuilt : ∀ p ∈ seen.filterMap Event.opened?, p.2 ∈ seen.filterMap Event.built?)
    (hx : calm → x = g.closing) (hc : c = none ∨ claimOf step.2 = none)
    (hclaims : ∀ e, m.claims e =
      rest.countP (fun o => o.frame.claim? = some e) + if c = some e then 1 else 0)
    (ho : Outcome calm k m.now m.disconnected (m.opened ++ seen.filterMap Event.opened?)
      { g with claim := c, closing := x } step) :
    ∃ g', Passage calm m (some k) (m.moved k seen rest step) g g' := by
  obtain ⟨g', ht, he⟩ := ho
  have hnone : seen.filterMap Event.disconnected? = [] :=
    List.filterMap_eq_nil_iff.mpr fun ev hev => (hseen ev hev).1
  refine ⟨g', hg.moved hsub hrest hnone hbuilt hx ht he,
    ⟨c, x, hx, hc.imp_right he.claim.trans, ht,
      fun e => rest.countP fun o => o.frame.claim? = some e, fun e => ⟨hclaims e, ?_⟩⟩,
    fun x seen' rest' step' hx h => ?_, _, List.append_assoc _ _ _, fun hc ev hev h hl => ?_⟩
  · rw [claims_moved, he.claim]
  · cases hx
    rw [he.claim, moved_inj h]
  · rcases List.mem_append.mp hev with hev | hev
    · rw [(hseen ev hev).2] at hl
      cases hl
    · rw [List.mem_singleton.mp hev] at hl
      have hends := he.holds hc
      rw [lent?_shown hl] at hends
      obtain ⟨r, rfl, hlent⟩ := hends
      exact ⟨r, rfl, hlent⟩

end moved

/-- The passage of a move in which no operation goes on: one may be dropped, observers may be
attached, and time may pass. -/
theorem Good.still (hg : m.Good calm g) (k : Option Command)
    (hw : g.state.SameTables m'.state) (hevents : m'.events = m.events)
    (hsub : ∀ o ∈ m'.ongoing, o ∈ m.ongoing)
    (hyields : calm → ∀ o ∈ m'.ongoing.tail, o.frame.call.yields)
    (hclosing : calm → m'.closing = m.closing) (hclaims : ∀ e, m'.claims e = m.claims e) :
    ∃ g', Passage calm m k m' g g' := by
  have hwritten : Change calm (k.getD .tick) m.now g (g.withState m'.state) := .written hw
  have hgood : m'.Good calm { g.withState m'.state with claim := none } :=
    { state := rfl
      opened := by rw [System.opened, hevents]; exact hg.opened
      disconnected := by rw [System.disconnected, hevents]; exact hg.disconnected
      settled := hg.settled
      closing := fun hc => (hg.closing hc).trans (hclosing hc).symm
      indexed := (hwritten.indexed hg.indexed).inHand _ _
      sound := fun hc => (hwritten.sound hc (hg.sound hc)).inHand none rfl
      yields := hyields
      holds := fun hc o ho => ((hg.holds hc o (hsub o ho)).written hw).inHand none _
      built := by rw [System.opened, System.built, hevents]; exact hg.built
      lent := fun hc r h hlast => (hg.lent hc r h (hevents ▸ hlast)).written hw }
  refine ⟨_, hgood, ⟨none, g.closing, fun _ => rfl, .inl rfl, .single (.written hw), m.claims,
    fun e => ⟨rfl, hclaims e⟩⟩, fun x seen rest step _ h => ?_, [], ?_, by simp⟩
  · have hlt := length_events_moved (m := m) x seen rest step
    rw [← h, hevents] at hlt
    exact absurd hlt (Nat.lt_irrefl _)
  · rw [hevents, List.append_nil]

theorem Good.ready (hg : m.Good calm g) (hyields : calm → ∀ o ∈ m.ongoing, o.frame.call.yields) :
    { g with claim := none, closing := none }.Ready calm m.disconnected m.opened := by
  have hx : calm → none = g.closing := fun hc =>
    ((hg.closing hc).trans (closing_of_yields (hyields hc))).symm
  exact ⟨⟨rfl, rfl, hg.opened, hg.disconnected, fun hc => (hg.sound hc).inHand none (hx hc)⟩,
    hg.settled⟩

theorem Good.awaits (hg : m.Good calm g) {before later : List Ongoing} {o : Ongoing}
    (hongoing : m.ongoing = before ++ o :: later)
    (hyields : calm → ∀ p ∈ before ++ later, p.frame.call.yields) :
    { g with claim := o.frame.claim?, closing := o.frame.closing? }.Awaits calm o.command o.frame
      m.disconnected m.opened := by
  have hmem : o ∈ m.ongoing := by simp [hongoing]
  exact ⟨rfl, rfl, hg.opened, hg.disconnected, hg.settled,
    fun hc => (hg.sound hc).inHand _ (hg.closing_eq hc hongoing (hyields hc)),
    fun hc => (hg.holds hc o hmem).inHand _ _⟩

/-- **Every move of a run is a trail of changes between two good systems.** -/
theorem Good.next (hmay : calm → ∀ call k, may call k → call.yields) (hg : m.Good calm g)
    {k : Option Command} (hm : Moves may m k m') : ∃ g', Passage calm m k m' g g' := by
  cases hm with
  | start k hk =>
    have hyields : calm → ∀ o ∈ m.ongoing, o.frame.call.yields := fun hc o ho =>
      hmay hc _ _ (hk o ho)
    have hx : calm → none = g.closing := fun hc =>
      ((hg.closing hc).trans (closing_of_yields (hyields hc))).symm
    have ho : Outcome calm k m.now m.disconnected m.opened _ (start _ m.now k) :=
      outcome_start (hg.ready hyields)
    refine hg.passage (fun _ ho => ho) hyields (by simp) (by simp) (c := none) hx
      (.inl rfl) (fun _ => rfl) ?_
    rw [List.filterMap_nil, List.append_nil, ← hg.state]
    exact ho
  | resume before o later a hongoing ho ha =>
    have hyields : calm → ∀ p ∈ before ++ later, p.frame.call.yields := fun hc p hp =>
      hmay hc _ _ (ho p hp)
    have hx : calm → o.frame.closing? = g.closing := fun hc =>
      hg.closing_eq hc hongoing (hyields hc)
    have hnew : ∀ p ∈ o.frame.call.opened? a, ∀ q ∈ m.opened, q.2 ≠ p.2 := by
      intro p hp q hq heq
      refine absurd (hg.built q hq) ?_
      rw [heq]
      exact not_mem_built ha hp
    refine hg.passage (fun p hp => mem_ongoing hongoing hp) hyields
      (by simp [Event.disconnected?, Event.lent?]) (fun p hp => ?_) hx
      (claimOf_resume m.state m.now o.frame a) (claims_append hongoing) ?_
    · obtain ⟨ev, hev, hp⟩ := List.mem_filterMap.mp hp
      rw [List.mem_singleton.mp hev] at hp
      exact List.mem_filterMap.mpr ⟨ev, hev, List.mem_singleton.mp hev ▸ built?_of_opened? hp⟩
    · rw [← hg.state]
      refine outcome_resume (hg.awaits hongoing hyields) ?_ fun _ => hnew
      simp only [List.filterMap_cons, List.filterMap_nil, Event.opened?]
      cases o.frame.call.opened? a <;> rfl
  | fail before o later hongoing ho htells =>
    have hyields : calm → ∀ p ∈ before ++ later, p.frame.call.yields := fun hc p hp =>
      hmay hc _ _ (ho p hp)
    refine hg.still _ ?_ rfl (fun p hp => mem_ongoing hongoing hp)
      (fun hc p hp => hyields hc p (List.mem_of_mem_tail hp)) (fun hc => ?_) fun e => ?_
    · rw [hg.state]
      exact .refl _
    · rw [closing_of_yields (hyields hc), ← hg.closing hc, ← hg.closing_eq hc hongoing (hyields hc)]
      exact (Frame.closing?_of_yields (Frame.yields_of_tells htells)).symm
    · rw [claims_append hongoing e, Frame.claim?_of_tells htells]
      rfl
  | attach o =>
    refine hg.still _ ?_ rfl (fun _ ho => ho) hg.yields (fun _ => rfl) fun _ => rfl
    rw [hg.state]
    exact ⟨_, _, _, rfl⟩
  | pass t ht =>
    refine hg.still _ ?_ rfl (fun _ ho => ho) hg.yields (fun _ => rfl) fun _ => rfl
    rw [hg.state]
    exact .refl _

end moves

/-- The stage of a manager that has done nothing yet. -/
def initialStage (settings : ManagerSettings) (factory : Factory) : Stage :=
  ⟨.initial settings factory, [], [], none, none, none, [], []⟩

theorem good_initial (calm : Prop) (settings : ManagerSettings) (factory : Factory) (now : Nat) :
    (System.initial settings factory now).Good calm (initialStage settings factory) := by
  have hslot : ∀ e c, (initialStage settings factory).state.slotIn? e c = none := by
    intro e c
    simp [initialStage, State.slotIn?, Registry.slotIn?, State.initial, Registry.entry,
      Entry.slot?]
  have hhandle : ∀ id, (initialStage settings factory).state.handle? id = none := by
    intro id
    simp [initialStage, State.handle?, State.slot?, State.initial]
  have hindexed : (initialStage settings factory).Indexed :=
    ⟨rfl, rfl, List.nodup_nil, by simp [initialStage, State.initial],
      fun e => by simp [initialStage, State.initial, Registry.entry]⟩
  refine ⟨rfl, rfl, rfl, fun _ => rfl, fun _ => rfl, hindexed, fun _ => ⟨hindexed, ?_, ?_⟩,
    by simp [initial], by simp [initial], by simp [opened, initial], by simp [initial]⟩
  · refine ⟨?_, ?_, ?_, ?_, by simp [initialStage], by simp [initialStage]⟩ <;>
      simp [hslot, hhandle]
  · refine ⟨by simp [initialStage], ?_, ?_, ?_, by simp [initialStage], by simp [initialStage]⟩ <;>
      simp [hhandle]

end System

theorem Reachable.good {calm : Prop} {may : Overlap} (hmay : calm → ∀ call k, may call k →
    call.yields) {m : System} (hm : Reachable may m) : ∃ g, m.Good calm g := by
  induction hm with
  | initial settings factory now => exact ⟨_, System.good_initial calm settings factory now⟩
  | next _ hstep ih =>
    obtain ⟨g, hg⟩ := ih
    obtain ⟨g', hg'⟩ := hg.next hmay hstep
    exact ⟨g', hg'.good⟩

theorem Reachable.calm_good {m : System} (hm : Reachable .calm m) : ∃ g, m.Good True g :=
  hm.good fun _ _ _ h => h

end ConnectionLeasing.Affine
