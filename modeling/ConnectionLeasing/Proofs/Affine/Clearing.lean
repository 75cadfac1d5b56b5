import ConnectionLeasing.Proofs.Affine.Anchor

/-!
# Closing everything

Closing everything makes the registry forget all entries and then closes their slots one by one.

* `closeEntries_clears`, `resumeClosing_clears`: every slot that is still registered in an entry
  that was known is being closed or on the way to be, and in the end none is left.
* `Reachable.tidy`: in a run in which nobody closes everything while a connection of an identity
  opens, the entries of the identity that are in use are known, or just being cleared.
-/

namespace ConnectionLeasing.Affine

/-! ### Clearing entries -/

/-- Every slot registered in one of the entries is being closed or still on the way to be. -/
def Clears (entries : Nat → Prop) (s : State) : Progress Frame Result → Prop
  | .paused (.closing c (.drained slots rest _)) => ∀ e d id, entries e →
    s.slotIn? e d = some id → id = c.slot ∨ (c.entry = e ∧ (d, id) ∈ slots) ∨ ∃ j, (j, e) ∈ rest
  | .paused _ => False
  | .done _ => ∀ e d, entries e → s.slotIn? e d = none

section clears
variable {entries : Nat → Prop} {s : State}

theorem not_passed {d : ContextId} {id : Nat} (hopen : ∃ h, s.openHandle? d id = some h)
    (hpassed : ∀ y, s.slot? id = some y → y.openFor d = none) : False := by
  obtain ⟨h, hh⟩ := hopen
  obtain ⟨y, hy, hfor⟩ := Option.bind_eq_some_iff.mp hh
  rw [hpassed y hy] at hfor
  cases hfor

theorem firstOpen?_covers {p : Slot → Bool} {i : Identity} {e id : Nat}
    {slots later : List (ContextId × Nat)} {c : Closing} {d : ContextId}
    (hx : s.firstOpen? p i e slots = some (c, later)) (hm : (d, id) ∈ slots)
    (hopen : ∃ h, s.openHandle? d id = some h) (hp : ∀ y, s.slot? id = some y → p y = true) :
    id = c.slot ∨ (d, id) ∈ later := by
  obtain ⟨-, -, -, -, -, passed, rfl, hpassed⟩ := State.firstOpen?_eq_some hx
  rcases List.mem_append.mp hm with hpass | hm
  · exact (not_passed hopen fun y hy => hpassed _ hpass y hy (hp y hy)).elim
  · rcases List.mem_cons.mp hm with heq | hm
    · cases heq
      exact .inl rfl
    · exact .inr hm

theorem closeEntries_clears (hopen : ∀ e d id, s.slotIn? e d = some id →
      ∃ h, s.openHandle? d id = some h) (closed : Nat) (rest : List (Identity × Nat))
    (hcover : ∀ e d id, entries e → s.slotIn? e d = some id → ∃ j, (j, e) ∈ rest) :
    Clears entries s (closeEntries s closed rest).2 := by
  induction rest with
  | nil =>
    intro e d he
    cases hs : s.slotIn? e d with
    | none => rfl
    | some id =>
      obtain ⟨j, hj⟩ := hcover e d id he hs
      cases hj
  | cons p rest ih =>
    obtain ⟨i, e'⟩ := p
    rw [closeEntries]
    split
    · rename_i c slots hx
      have hentry : c.entry = e' := (State.firstOpen?_eq_some hx).2.1
      intro e d id he hs
      obtain ⟨j, hj⟩ := hcover e d id he hs
      rcases List.mem_cons.mp hj with heq | hj
      · obtain rfl : e = e' := by cases heq; rfl
        rcases firstOpen?_covers hx (Registry.mem_of_slotIn? hs) (hopen e d id hs)
            fun _ _ => rfl with hid | hm
        · exact .inl hid
        · exact .inr (.inl ⟨hentry, hm⟩)
      · exact .inr (.inr ⟨j, hj⟩)
    · rename_i hx
      refine ih fun e d id he hs => ?_
      obtain ⟨j, hj⟩ := hcover e d id he hs
      rcases List.mem_cons.mp hj with heq | hj
      · obtain rfl : e = e' := by cases heq; rfl
        exact (not_passed (hopen e d id hs) fun y hy =>
          State.openFor_of_firstOpen? hx (d, id) (Registry.mem_of_slotIn? hs) y hy rfl).elim
      · exact ⟨j, hj⟩

theorem resumeClosing_clears {now : Nat} {c : Closing} {slots : List (ContextId × Nat)}
    {rest : List (Identity × Nat)} {closed : Nat}
    (hopen : ∀ e d id, s.slotIn? e d = some id → ∃ h, s.openHandle? d id = some h)
    (hcover : ∀ e d id, entries e → s.slotIn? e d = some id →
      (c.entry = e ∧ (d, id) ∈ slots) ∨ ∃ j, (j, e) ∈ rest) :
    Clears entries s (resumeClosing s now c (.drained slots rest closed)).2 := by
  rw [resumeClosing]
  split
  · rename_i c' slots' hx
    have hentry : c'.entry = c.entry := (State.firstOpen?_eq_some hx).2.1
    intro e d id he hs
    rcases hcover e d id he hs with ⟨hce, hm⟩ | hj
    · rcases firstOpen?_covers hx hm (hopen e d id hs) fun _ _ => rfl with hid | hm
      · exact .inl hid
      · exact .inr (.inl ⟨hentry.trans hce, hm⟩)
    · exact .inr (.inr hj)
  · rename_i hx
    refine closeEntries_clears hopen _ rest fun e d id he hs => ?_
    rcases hcover e d id he hs with ⟨-, hm⟩ | hj
    · exact (not_passed (hopen e d id hs) fun y hy =>
        State.openFor_of_firstOpen? hx (d, id) hm y hy rfl).elim
    · exact hj

theorem registry_closeEntries (s : State) (closed : Nat) (rest : List (Identity × Nat)) :
    (closeEntries s closed rest).1.registry = s.registry := by
  induction rest with
  | nil => rfl
  | cons p rest ih =>
    obtain ⟨i, e⟩ := p
    rw [closeEntries]
    split
    · rfl
    · exact ih

theorem registry_resumeClosing_drained (s : State) (now : Nat) (c : Closing)
    (slots : List (ContextId × Nat)) (rest : List (Identity × Nat)) (closed : Nat) :
    (resumeClosing s now c (.drained slots rest closed)).1.registry = s.registry := by
  rw [resumeClosing]
  split
  · rfl
  · exact registry_closeEntries _ _ _

theorem Clears.congr {entries' : Nat → Prop} {s' : State} {p : Progress Frame Result}
    (h : Clears entries s p) (hs : s'.registry = s.registry)
    (he : ∀ e d id, entries' e → s.slotIn? e d = some id → entries e) : Clears entries' s' p := by
  have hin : ∀ e d, s'.slotIn? e d = s.slotIn? e d := fun e d => by
    rw [State.slotIn?, State.slotIn?, hs]
  cases p with
  | done r =>
    intro e d hd
    rw [hin]
    cases hslot : s.slotIn? e d with
    | none => rfl
    | some id =>
      rw [h e d (he e d id hd hslot)] at hslot
      cases hslot
  | paused f =>
    cases f with
    | closing c after =>
      cases after with
      | drained slots rest closed =>
        intro e d id hd hslot
        rw [hin] at hslot
        exact h e d id (he e d id hd hslot) hslot
      | _ => exact h
    | _ => exact h

theorem Clears.drained {f : Frame} (h : Clears entries s (.paused f)) :
    ∃ c slots rest closed, f = .closing c (.drained slots rest closed) := by
  cases f with
  | closing c after =>
    cases after with
    | drained slots rest closed => exact ⟨c, slots, rest, closed, rfl⟩
    | _ => cases h
  | _ => cases h

end clears

/-! ### Clearing in a run -/

theorem Frame.Holds.drained {g : Stage} {f : Frame} (h : f.Holds .closeAll g) :
    ∃ c slots rest closed, f = .closing c (.drained slots rest closed) := by
  cases f with
  | telling o observers t => cases h
  | ticking o observers => cases h
  | opening r e produces timeout => cases h.1
  | checkingOwn r e id x => cases h.1
  | recheckingOwn r e id x => cases h.1
  | checkingOther r e owner id x others => cases h.1
  | closing c after =>
    cases after with
    | drained slots rest closed => exact ⟨c, slots, rest, closed, rfl⟩
    | inspected observers t => cases h
    | ownUseless r e => cases h.1
    | displacedByTaken r source taken => cases h.1
    | displacedByOpened r opened => cases h.1
    | requested =>
      obtain ⟨j, d, hk⟩ := h
      cases hk
    | sweptIdle w slots rest => cases h.1
    | sweptSurplus w slots rest => cases h.1

/-- The entries that were made for an identity and have slots. -/
def Stage.Houses (g : Stage) (i : Identity) (e : Nat) : Prop :=
  g.homes[e]? = some i ∧ ∃ d id, g.state.slotIn? e d = some id

/-- The entries of an identity are known while in use, or everything is being closed: then they are
being cleared, and there is one at most. -/
structure System.Tidy (i : Identity) (m : System) (g : Stage) : Prop where
  anchored : (∀ o ∈ m.ongoing, o.command ≠ .closeAll) → ∀ e, g.Anchored i e
  clearing : ∀ o ∈ m.ongoing, o.command = .closeAll →
    Clears (g.homes[·]? = some i) g.state (.paused o.frame)
  single : ∀ e e', g.Houses i e → g.Houses i e' → e = e'

section system
variable {i : Identity} {m m' : System} {g g' : Stage} {k : Option Command}

theorem System.Good.claims_eq_zero (hg : m.Good True g)
    (h : ∀ o ∈ m.ongoing, ∀ channel timeout, o.frame.call ≠ .connect channel i timeout) {e : Nat}
    (he : g.homes[e]? = some i) : m.claims e = 0 := by
  refine List.countP_eq_zero.mpr fun o ho hclaim => ?_
  have hclaim' : o.frame.claim? = some e := of_decide_eq_true hclaim
  have hholds := hg.holds trivial o ho
  have hcall := h o ho
  cases hf : o.frame with
  | opening r e' produces timeout =>
    rw [hf] at hclaim' hholds hcall
    cases hclaim'
    have hi : some r.identity = some i := hholds.2.symm.trans he
    cases hi
    exact hcall produces timeout rfl
  | _ =>
    rw [hf] at hclaim'
    cases hclaim'

theorem System.Passage.anchored (h : System.Passage True m k m' g g') (hg : m.Good True g)
    (hm : m.Metered) (hk : k ≠ some .closeAll) {e : Nat} (ha : g.Anchored i e) :
    g'.Anchored i e := by
  obtain ⟨c, x, -, -, ht, others, hothers⟩ := h.trail
  refine ht.anchored (hg.indexed.inHand c x)
    (hg.metered hm (fun e => (hothers e).1) x) ?_ ha
  cases k with
  | none => exact Command.noConfusion
  | some k => exact fun h => hk (congrArg some h)

theorem Stage.Sound.openHandle? (hs : g.Sound) (hc : g.closing = none) {e id : Nat} {d : ContextId}
    (h : g.state.slotIn? e d = some id) : ∃ x, g.state.openHandle? d id = some x := by
  obtain ⟨x, hx⟩ := hs.placed.exists_handle hc h
  obtain ⟨y, hy, hhandle⟩ := State.slot?_of_handle? hx
  have howner := hs.placed.owner e d id h
  rw [State.owner?, hy] at howner
  refine ⟨x, Option.bind_eq_some_iff.mpr ⟨y, hy, Slot.openFor_eq_some.mpr ⟨?_, hhandle⟩⟩⟩
  exact Option.some.inj howner

theorem Stage.houses_unique (ha : ∀ e, g.Anchored i e) (e e' : Nat) (h : g.Houses i e)
    (h' : g.Houses i e') : e = e' := by
  have he := ha e h.1 (.inl h.2)
  have he' := ha e' h'.1 (.inl h'.2)
  exact Option.some.inj (he.symm.trans he')

theorem Stage.Houses.before {e : Nat} (h : g'.Houses i e) (hg : g.Indexed)
    (hhomes : g.homes <+: g'.homes)
    (hslots : ∀ d id, g'.state.slotIn? e d = some id → g.state.slotIn? e d = some id) :
    g.Houses i e := by
  obtain ⟨hhome, d, id, hs⟩ := h
  have hs' := hslots d id hs
  refine ⟨?_, d, id, hs'⟩
  have hlt : e < g.homes.length := by
    rw [hg.homes]
    exact Registry.lt_of_slotIn? hs'
  obtain ⟨t, ht⟩ := hhomes
  rw [← ht, List.getElem?_append_left hlt] at hhome
  exact hhome

/-- What a move that closes everything leaves, if it has cleared the entries of the identity as far
as its frame shows. -/
theorem System.tidy_of_clears {seen : List Event} {rest : List Ongoing} {step : Step}
    (hgood : (m.moved .closeAll seen rest step).Good True g') (hmetered : (m.moved .closeAll seen
      rest step).Metered) (hrest : ∀ o ∈ rest, o.command ≠ .closeAll)
    (hopening : ∀ o ∈ rest, ∀ channel timeout, o.frame.call ≠ .connect channel i timeout)
    (hclears : Clears (g'.homes[·]? = some i) g'.state step.2)
    (hsingle : ∀ e e', g'.Houses i e → g'.Houses i e' → e = e') :
    (m.moved .closeAll seen rest step).Tidy i g' := by
  cases hp : step.2 with
  | paused f =>
    have hongoing : (m.moved .closeAll seen rest step).ongoing = ⟨.closeAll, f⟩ :: rest := by
      simp [moved, left, hp]
    refine ⟨fun h => ?_, fun o ho hall => ?_, hsingle⟩
    · refine absurd rfl (h ⟨.closeAll, f⟩ ?_)
      rw [hongoing]
      exact List.mem_cons_self
    · rw [hongoing] at ho
      rcases List.mem_cons.mp ho with rfl | ho
      · exact hp ▸ hclears
      · exact absurd hall (hrest o ho)
  | done r =>
    have hongoing : (m.moved .closeAll seen rest step).ongoing = rest := by
      simp [moved, left, hp]
    refine ⟨fun _ e hhome hu => ?_, fun o ho hall => ?_, hsingle⟩
    · rw [hp] at hclears
      rcases hu with ⟨d, id, hs⟩ | hpending
      · rw [hclears e d hhome] at hs
        cases hs
      · rw [hgood.state, (hmetered e).1, hgood.claims_eq_zero ?_ hhome] at hpending
        · exact absurd hpending (Nat.lt_irrefl 0)
        · rw [hongoing]
          exact hopening
    · rw [hongoing] at ho
      exact absurd hall (hrest o ho)

theorem System.tidy_of_anchored (h : ∀ o ∈ m'.ongoing, o.command ≠ .closeAll)
    (ha : ∀ e, g'.Anchored i e) : m'.Tidy i g' :=
  ⟨fun _ => ha, fun o ho hall => absurd hall (h o ho), Stage.houses_unique ha⟩

theorem System.not_closeAll_moved {c : Command} {seen : List Event} {rest : List Ongoing}
    {step : Step} (hc : c ≠ .closeAll) (hrest : ∀ o ∈ rest, o.command ≠ .closeAll) :
    ∀ o ∈ (m.moved c seen rest step).ongoing, o.command ≠ .closeAll := by
  intro o ho
  rcases System.mem_moved ho with ⟨rfl, -⟩ | ho
  · exact hc
  · exact hrest o ho

theorem System.Good.not_closeAll (hg : m.Good True g) {o : Ongoing} (ho : o ∈ m.ongoing)
    (hy : o.frame.call.yields) : o.command ≠ .closeAll := by
  intro hc
  have hholds := hg.holds trivial o ho
  rw [hc] at hholds
  obtain ⟨x, slots, rest, closed, hf⟩ := hholds.drained
  rw [hf] at hy
  cases hy

theorem System.Tidy.start (ht : m.Tidy i g) (hg : m.Good True g)
    (hyields : ∀ o ∈ m.ongoing, o.frame.call.yields)
    (hopening : ∀ o ∈ m.ongoing, ∀ channel timeout, o.frame.call ≠ .connect channel i timeout)
    (hp : System.Passage True m (some .closeAll) (m.started .closeAll) g g')
    (hm : (m.started .closeAll).Metered) : (m.started .closeAll).Tidy i g' := by
  have hcommand : ∀ o ∈ m.ongoing, o.command ≠ .closeAll := fun o ho =>
    hg.not_closeAll ho (hyields o ho)
  have hclosing : g.closing = none := (hg.closing trivial).trans (closing_of_yields hyields)
  obtain ⟨_, _, -, -, htrail, -⟩ := hp.trail
  have hhomes : g.homes <+: g'.homes := htrail.grows.1
  have hregistry : g'.state.registry = m.state.registry.drain.1 :=
    hp.good.state ▸ registry_closeEntries _ _ _
  have hslots : ∀ e d id, g'.state.slotIn? e d = some id → g.state.slotIn? e d = some id := by
    intro e d id hs
    rw [State.slotIn?, hregistry] at hs
    rw [hg.state]
    exact hs
  have hbefore : ∀ {e}, g'.Houses i e → g.Houses i e := fun h =>
    h.before hg.indexed hhomes (hslots _)
  have hclears : Clears (g.homes[·]? = some i) { m.state with registry := m.state.registry.drain.1 }
      (closeAll m.state).2 := by
    refine closeEntries_clears (fun e d id hs => ?_) 0 _ fun e d id he hs => ⟨i, ?_⟩
    · have hs' : g.state.slotIn? e d = some id := by
        rw [hg.state]
        exact hs
      obtain ⟨x, hx⟩ := (hg.sound trivial).openHandle? hclosing hs'
      rw [hg.state] at hx
      exact ⟨x, hx⟩
    · have hent := ht.anchored hcommand e he (.inl ⟨d, id, by rw [hg.state]; exact hs⟩)
      rw [hg.state] at hent
      exact Keyed.mem_of_get? hent
  refine System.tidy_of_clears hp.good hm hcommand hopening (hclears.congr hregistry ?_)
    fun e e' h h' => ht.single e e' (hbefore h) (hbefore h')
  intro e d id he hs
  refine (hbefore ⟨he, d, id, ?_⟩).1
  rw [State.slotIn?, hregistry]
  exact hs

theorem System.Tidy.resume (ht : m.Tidy i g) (hg : m.Good True g) {before later : List Ongoing}
    {o : Ongoing} {a : o.frame.call.Answer} (hongoing : m.ongoing = before ++ o :: later)
    (hall : o.command = .closeAll)
    (hyields : ∀ o ∈ before ++ later, o.frame.call.yields)
    (hopening : ∀ o ∈ before ++ later, ∀ channel timeout,
      o.frame.call ≠ .connect channel i timeout)
    (hp : System.Passage True m (some .closeAll) (m.resumed o a (before ++ later)) g g')
    (hm : (m.resumed o a (before ++ later)).Metered) :
    (m.resumed o a (before ++ later)).Tidy i g' := by
  obtain ⟨k, f⟩ := o
  obtain rfl : k = .closeAll := hall
  have hmem : (⟨.closeAll, f⟩ : Ongoing) ∈ m.ongoing := by simp [hongoing]
  have hclears := ht.clearing _ hmem rfl
  obtain ⟨c, slots, rest, closed, rfl⟩ := hclears.drained
  have hclosing : g.closing = some c := (hg.closing_eq trivial hongoing hyields).symm
  have hplaced := (hg.sound trivial).placed
  have hchange : Change True .closeAll m.now g (g.finish c a) := .finish g c a hclosing
  have hfinish : (g.finish c a).Sound := hchange.sound trivial (hg.sound trivial)
  obtain ⟨_, _, -, -, htrail, -⟩ := hp.trail
  have hhomes : g.homes <+: g'.homes := htrail.grows.1
  have hregistry : g'.state.registry = (g.finish c a).state.registry := by
    rw [hp.good.state]
    refine (registry_resumeClosing_drained _ _ _ _ _ _).trans ?_
    rw [← hg.state]
    rfl
  have hslots : ∀ e d id, g'.state.slotIn? e d = some id →
      (g.finish c a).state.slotIn? e d = some id := by
    intro e d id hs
    rw [State.slotIn?, hregistry] at hs
    exact hs
  have hbefore : ∀ {e}, g'.Houses i e → g.Houses i e := fun h =>
    h.before hg.indexed hhomes fun d id hs => (hplaced.slotIn?_finish hclosing (hslots _ d id hs)).1
  have hclears' : Clears (g.homes[·]? = some i) (g.finish c a).state
      (resumeClosing (m.state.finishClosing c a) m.now c (.drained slots rest closed)).2 := by
    rw [← hg.state]
    refine resumeClosing_clears (fun e d id hs => hfinish.openHandle? rfl hs) fun e d id he hs => ?_
    obtain ⟨hs, hne⟩ := hplaced.slotIn?_finish hclosing hs
    exact (hclears e d id he hs).resolve_left hne
  refine System.tidy_of_clears hp.good hm
    (fun p hp => hg.not_closeAll (System.mem_ongoing hongoing hp) (hyields p hp)) hopening
    (hclears'.congr hregistry ?_) fun e e' h h' => ht.single e e' (hbefore h) (hbefore h')
  intro e d id he hs
  refine (hbefore ⟨he, d, id, ?_⟩).1
  rw [State.slotIn?, hregistry]
  exact hs

theorem System.Tidy.idle (ht : m.Tidy i g) (hg : m.Good True g) (hm : m.Metered)
    (hp : System.Passage True m none m' g g') (hongoing : m'.ongoing = m.ongoing)
    (hregistry : m'.state.registry = m.state.registry) : m'.Tidy i g' := by
  obtain ⟨_, _, -, -, htrail, -⟩ := hp.trail
  have hreg : g'.state.registry = g.state.registry := by
    rw [hp.good.state, hg.state]
    exact hregistry
  have hbefore : ∀ {e}, g'.Houses i e → g.Houses i e := fun h =>
    h.before hg.indexed htrail.grows.1 fun d id hs => by
      rw [State.slotIn?, hreg] at hs
      exact hs
  refine ⟨fun h e => hp.anchored hg hm (by simp) (ht.anchored (hongoing ▸ h) e),
    fun o ho hall => (ht.clearing o (hongoing ▸ ho) hall).congr hreg fun e d id he hs => ?_,
    fun e e' h h' => ht.single e e' (hbefore h) (hbefore h')⟩
  refine (hbefore ⟨he, d, id, ?_⟩).1
  rw [State.slotIn?, hreg]
  exact hs

theorem System.Tidy.next (ht : m.Tidy i g) (hg : m.Good True g) (hm : m.Metered)
    (hmove : Moves (.sparing i) m k m') (hp : System.Passage True m k m' g g') : m'.Tidy i g' := by
  have hm' : m'.Metered := hp.metered hg hm
  -- who stays behind while an operation moves
  have stay : ∀ {rest : List Ongoing} {c : Command}, (∀ o ∈ rest, o ∈ m.ongoing) →
      (∀ o ∈ rest, Overlap.sparing i o.frame.call c) → (∀ o ∈ rest, o.frame.call.yields) ∧
      (∀ o ∈ rest, o.command ≠ .closeAll) ∧ (c = .closeAll → ∀ o ∈ rest, ∀ channel timeout,
        o.frame.call ≠ .connect channel i timeout) := fun hsub hrest =>
    ⟨fun o ho => (hrest o ho).1, fun o ho => hg.not_closeAll (hsub o ho) (hrest o ho).1,
      fun hc o ho channel timeout hcall => (hrest o ho).2 channel timeout hcall hc⟩
  -- nobody closes everything, before the move and after it
  have keep : ∀ {before later : List Ongoing} {o : Ongoing}, m.ongoing = before ++ o :: later →
      (∀ p ∈ before ++ later, p.command ≠ .closeAll) → o.command ≠ .closeAll →
      k = some o.command → ∀ e, g'.Anchored i e := by
    intro before later o hongoing hrest hall hk e
    refine hp.anchored hg hm (fun h => hall (Option.some.inj (hk.symm.trans h)))
      (ht.anchored (fun p hp => ?_) e)
    rw [hongoing] at hp
    rcases List.mem_append.mp hp with hp | hp
    · exact hrest p (List.mem_append_left _ hp)
    · rcases List.mem_cons.mp hp with rfl | hp
      · exact hall
      · exact hrest p (List.mem_append_right _ hp)
  cases hmove with
  | start c hc =>
    obtain ⟨hyields, hcommand, hopening⟩ := stay (fun _ ho => ho) hc
    by_cases hall : c = .closeAll
    · subst hall
      exact ht.start hg hyields (hopening rfl) hp hm'
    · exact System.tidy_of_anchored (System.not_closeAll_moved hall hcommand) fun e =>
        hp.anchored hg hm (fun h => hall (Option.some.inj h)) (ht.anchored hcommand e)
  | resume before o later a hongoing ho ha =>
    obtain ⟨hyields, hcommand, hopening⟩ := stay (fun _ hp => System.mem_ongoing hongoing hp) ho
    by_cases hall : o.command = .closeAll
    · exact ht.resume hg hongoing hall hyields (hopening hall) (hall ▸ hp) hm'
    · exact System.tidy_of_anchored (System.not_closeAll_moved hall hcommand)
        (keep hongoing hcommand hall rfl)
  | fail before o later hongoing ho htells =>
    obtain ⟨hyields, hcommand, -⟩ := stay (fun _ hp => System.mem_ongoing hongoing hp) ho
    exact System.tidy_of_anchored hcommand (keep hongoing hcommand
      (hg.not_closeAll (by simp [hongoing]) (Frame.yields_of_tells htells)) rfl)
  | attach o => exact ht.idle hg hm hp rfl rfl
  | pass t hle => exact ht.idle hg hm hp rfl rfl

end system

/-- **Every system of a run is tidy for an identity** during whose openings nobody closes
everything. -/
theorem Reachable.tidy {i : Identity} {m : System} (hm : Reachable (.sparing i) m) :
    ∃ g, m.Good True g ∧ m.Tidy i g := by
  induction hm with
  | initial settings factory now =>
    refine ⟨_, System.good_initial True settings factory now,
      System.tidy_of_anchored (by simp [System.initial]) fun e he => ?_⟩
    simp [System.initialStage] at he
  | next hm hstep ih =>
    obtain ⟨g, hg, ht⟩ := ih
    obtain ⟨g', hp⟩ := hg.next (fun _ _ _ h => h.1) hstep
    exact ⟨g', hp.good, ht.next hg hm.metered hstep hp⟩

end ConnectionLeasing.Affine
