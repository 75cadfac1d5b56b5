import ConnectionLeasing.Proofs.Affine.Leak

/-!
# While a connection opens

A borrow that waits for a connection has claimed room in the entry its identity is known by, and so
the registry does not forget the entry when it is swept. Closing everything forgets it nevertheless,
and an entry that was forgotten is never known again. Checks and disconnects do not call back here.

* `Run`: runs from any system on, with what moved; `Opens`: the part of a run in which a borrow
  waits for its connection, up to the move in which it has the answer.
* `Reachable.emptied`: while everything is being closed, no identity is known.
* `Run.known_iff`: the entry of the claim is still the known one when the answer comes exactly if
  nobody closed everything meanwhile.
-/

namespace ConnectionLeasing.Affine

/-- A run in which every system after the first is as `stays` says, with what moved at each step. -/
inductive Run (may : Overlap) (stays : System → Prop) :
    System → List (Option Command) → System → Prop
  | refl (m : System) : Run may stays m [] m
  | next {m m' m'' : System} {ks : List (Option Command)} {k : Option Command} :
      Run may stays m ks m' → Moves may m' k m'' → stays m'' → Run may stays m (ks ++ [k]) m''

/-- A move of an operation after which it waits at a frame. -/
def System.Pauses (m : System) (k : Command) (f : Frame) (m' : System) : Prop :=
  ∃ seen rest step, m' = m.moved k seen rest step ∧ step.2 = .paused f

/-- From the move in which a borrow asks for a connection to the one in which it is answered `x`,
with what moved in between. -/
inductive Opens (r : Request) (ks : List (Option Command)) (x : Connected) :
    System → System → Prop
  | mk {m m₁ m₂ : System} {e : Nat} {produces : Channel} {timeout : Duration}
      (before later : List Ongoing) (hmove : Moves .calm m (some (.borrow r)) m₁)
      (hpause : m.Pauses (.borrow r) (.opening r e produces timeout) m₁)
      (hrun : Run .calm (⟨.borrow r, .opening r e produces timeout⟩ ∈ ·.ongoing) m₁ ks m₂)
      (hongoing : m₂.ongoing = before ++ ⟨.borrow r, .opening r e produces timeout⟩ :: later)
      (hyields : ∀ p ∈ before ++ later, p.frame.call.yields)
      (ha : m₂.Admits (.connect produces r.identity timeout) x) :
      Opens r ks x m (m₂.resumed ⟨.borrow r, .opening r e produces timeout⟩ x (before ++ later))

/-! ### The entry of a claim -/

section change
variable {calm : Prop} {k : Command} {now : Nat} {others : Nat → Nat} {g g' : Stage}
  {i : Identity} {e : Nat}

theorem Change.known (h : Change calm k now g g') (hm : g.Metered others) (hk : k ≠ .closeAll)
    (hpos : 0 < others e ∨ g.claim = some e) (hi : g.state.registry.entryId? i = some e) :
    g'.state.registry.entryId? i = some e := by
  have hu : g.InUse e := by
    right
    rw [(hm e).1]
    rcases hpos with hpos | hclaim
    · omega
    · rw [if_pos hclaim]
      omega
  rcases h.entryId?_cases i with heq | ⟨hnone, -⟩ | ⟨-, hall | ⟨e', he', hvacant⟩⟩
  · exact heq.trans hi
  · rw [hnone] at hi
    cases hi
  · exact absurd hall hk
  · rw [hi] at he'
    cases he'
    rw [hu.not_vacant] at hvacant
    cases hvacant

theorem Trail.known (h : Trail calm k now g g') (hindexed : g.Indexed) (hm : g.Metered others)
    (hk : k ≠ .closeAll) (hpos : 0 < others e) (hi : g.state.registry.entryId? i = some e) :
    g'.state.registry.entryId? i = some e := by
  induction h with
  | refl => exact hi
  | tail trail step ih => exact step.known (Trail.metered trail hindexed hm) hk (.inl hpos) ih

/-- Room is claimed in the entry that the identity is known by, and while the claim is in hand it
stays so. -/
theorem Change.claimed (h : Change calm k now g g') (hindexed : g.Indexed) (hm : g.Metered others)
    (hk : k ≠ .closeAll) (hg : ∀ e i, g.claim = some e → g.homes[e]? = some i →
      g.state.registry.entryId? i = some e) :
    ∀ e i, g'.claim = some e → g'.homes[e]? = some i → g'.state.registry.entryId? i = some e := by
  intro e i hclaim hhome
  have hkept : g.claim = some e → g'.state.registry.entryId? i = some e := by
    intro hclaim
    have hlt : e < g.homes.length := by
      rw [hindexed.homes]
      refine Registry.lt_of_pendingIn ?_
      rw [(hm e).1, if_pos hclaim]
      omega
    obtain ⟨t, ht⟩ := h.grows.1
    rw [← ht, List.getElem?_append_left hlt] at hhome
    exact h.known hm hk (.inr hclaim) (hg e i hclaim hhome)
  cases h with
  | claim j e' hn room hg' =>
    cases hclaim
    have hj : g.homes[e]? = some j := hindexed.home _ (Keyed.mem_of_get? hn)
    have hij : some j = some i := hj.symm.trans hhome
    cases hij
    exact hn
  | cancel e' hg' => cases hclaim
  | register r e' x hk' hg' hd he hh => cases hclaim
  | silent | know | idle | lend | move | take | finish | forget | drain => exact hkept hclaim

theorem Trail.claimed (h : Trail calm k now g g') (hindexed : g.Indexed) (hm : g.Metered others)
    (hk : k ≠ .closeAll) (hg : g.claim = none) {e : Nat} {i : Identity}
    (hclaim : g'.claim = some e) (hhome : g'.homes[e]? = some i) :
    g'.state.registry.entryId? i = some e := by
  have hall : ∀ e i, g'.claim = some e → g'.homes[e]? = some i →
      g'.state.registry.entryId? i = some e := by
    clear hclaim hhome
    induction h with
    | refl =>
      intro e i hclaim
      rw [hg] at hclaim
      cases hclaim
    | tail trail step ih =>
      exact step.claimed (Trail.indexed trail hindexed) (Trail.metered trail hindexed hm) hk ih
  exact hall e i hclaim hhome

end change

/-! ### Closing everything empties the registry -/

section runs
variable {m m' : System} {k : Option Command} {i : Identity} {e : Nat}

theorem known_of_closeAll (hm : Reachable .calm m)
    (hall : ∀ o ∈ m.ongoing, o.command = .closeAll → m.state.registry.known = [])
    (hmove : Moves .calm m k m') (hk : k = some .closeAll) : m'.state.registry.known = [] := by
  obtain ⟨g, hg⟩ := hm.calm_good
  cases hmove with
  | start c hc =>
    cases hk
    exact congrArg Registry.known (registry_closeEntries _ _ _)
  | resume before o later a hongoing ho ha =>
    have hmem : o ∈ m.ongoing := by simp [hongoing]
    obtain ⟨c, f⟩ := o
    obtain rfl : c = .closeAll := Option.some.inj hk
    obtain ⟨x, slots, rest, closed, rfl⟩ := (hg.holds trivial _ hmem).drained
    refine (congrArg Registry.known (registry_resumeClosing_drained _ _ _ _ _ _)).trans ?_
    rw [State.registry_finishClosing]
    exact hall _ hmem rfl
  | fail before o later hongoing ho htells =>
    exact absurd (Option.some.inj hk)
      (hg.not_closeAll (by simp [hongoing]) (Frame.yields_of_tells htells))
  | attach o => cases hk
  | pass t ht => cases hk

theorem Reachable.emptied (hm : Reachable .calm m) :
    ∀ o ∈ m.ongoing, o.command = .closeAll → m.state.registry.known = [] := by
  induction hm with
  | initial settings factory now =>
    intro o ho
    cases ho
  | @next m m' k hm hstep ih =>
    have hmoves := known_of_closeAll hm ih hstep
    obtain ⟨g, hg⟩ := hm.calm_good
    -- an operation that closes everything does not let others move
    have stay : ∀ {rest : List Ongoing}, (∀ o ∈ rest, o ∈ m.ongoing) →
        (∀ o ∈ rest, o.frame.call.yields) → ∀ o ∈ rest, o.command ≠ .closeAll :=
      fun hsub hrest o ho => hg.not_closeAll (hsub o ho) (hrest o ho)
    intro o ho hall
    cases hstep with
    | start c hc =>
      by_cases hcall : c = .closeAll
      · exact hmoves (congrArg some hcall)
      · exact absurd hall
          (System.not_closeAll_moved hcall (stay (fun _ ho => ho) hc) o ho)
    | resume before p later a hongoing hp ha =>
      by_cases hcall : p.command = .closeAll
      · exact hmoves (congrArg some hcall)
      · exact absurd hall (System.not_closeAll_moved hcall
          (stay (fun _ ho => System.mem_ongoing hongoing ho) hp) o ho)
    | fail before p later hongoing hp htells =>
      exact absurd hall (stay (fun _ ho => System.mem_ongoing hongoing ho) hp o ho)
    | attach p => exact ih o ho hall
    | pass t ht => exact ih o ho hall

/-! ### While a connection opens -/

theorem System.Pauses.known {r : Request} {produces : Channel} {timeout : Duration} {c : Command}
    (hp : m.Pauses c (.opening r e produces timeout) m') (hm : Reachable .calm m)
    (hmove : Moves .calm m (some c) m') : m'.state.registry.entryId? r.identity = some e := by
  obtain ⟨seen, rest, step, heq, hstep⟩ := hp
  obtain ⟨g, hg⟩ := hm.calm_good
  obtain ⟨g', hpassage⟩ := hg.next (fun _ _ _ h => h) hmove
  have hclaim : g'.claim = some e := by
    rw [hpassage.hand c seen rest step rfl heq, hstep]
    rfl
  obtain ⟨hc, hhome⟩ : c = .borrow r ∧ g'.homes[e]? = some r.identity := by
    refine hpassage.good.holds trivial ⟨c, .opening r e produces timeout⟩ ?_
    rw [heq]
    simp [System.moved, left, hstep]
  subst hc
  obtain ⟨claim, x, -, hnone, ht, others, hothers⟩ := hpassage.trail
  rcases hnone with rfl | hnone
  · rw [← hpassage.good.state]
    exact ht.claimed (hg.indexed.inHand none x) (hg.metered hm.metered (fun e => (hothers e).1) x)
      Command.noConfusion rfl hclaim hhome
  · rw [hclaim] at hnone
    cases hnone

theorem System.known_next (hm : Reachable .calm m) (hmove : Moves .calm m k m')
    (hk : k ≠ some .closeAll) {o : Ongoing} (ho : o ∈ m.ongoing) (ho' : o ∈ m'.ongoing)
    (hclaim : o.frame.claim? = some e) (hi : m.state.registry.entryId? i = some e) :
    m'.state.registry.entryId? i = some e := by
  obtain ⟨g, hg⟩ := hm.calm_good
  obtain ⟨g', hpassage⟩ := hg.next (fun _ _ _ h => h) hmove
  obtain ⟨claim, x, -, hnone, ht, others, hothers⟩ := hpassage.trail
  -- the mover holds no claim before the move or none after it, so somebody else does
  have hpos : 0 < others e := by
    have hbefore := System.claims_pos ho hclaim
    have hafter := System.claims_pos ho' hclaim
    rw [(hothers e).1] at hbefore
    rw [(hothers e).2] at hafter
    rcases hnone with rfl | hnone
    · simpa using hbefore
    · rw [hnone] at hafter
      simpa using hafter
  rw [← hpassage.good.state]
  rw [← hg.state] at hi
  refine ht.known (hg.indexed.inHand claim x) (hg.metered hm.metered (fun e => (hothers e).1) x)
    ?_ hpos hi
  cases k with
  | none => exact Command.noConfusion
  | some k => exact fun h => hk (congrArg some h)

theorem System.unknown_next (hm : Reachable .calm m) (hmove : Moves .calm m k m')
    (hlt : e < m.state.registry.entries.length) (hi : m.state.registry.entryId? i ≠ some e) :
    e < m'.state.registry.entries.length ∧ m'.state.registry.entryId? i ≠ some e := by
  obtain ⟨g, hg⟩ := hm.calm_good
  obtain ⟨g', hpassage⟩ := hg.next (fun _ _ _ h => h) hmove
  obtain ⟨claim, x, -, -, ht, -⟩ := hpassage.trail
  rw [← hg.state] at hlt hi
  have hlt' : e < g.homes.length := by
    rw [hg.indexed.homes]
    exact hlt
  rw [← hpassage.good.state]
  refine ⟨?_, ht.unanchored (hg.indexed.inHand claim x) hlt' hi⟩
  rw [← hpassage.good.indexed.homes]
  exact Nat.lt_of_lt_of_le hlt' ht.grows.1.length_le

/-- **While an operation waits with a claim in it, an entry stays the known one exactly if nobody
closes everything.** -/
theorem Run.known_iff {o : Ongoing} {ks : List (Option Command)}
    (hrun : Run .calm (o ∈ ·.ongoing) m ks m') (hm : Reachable .calm m) (ho : o ∈ m.ongoing)
    (hclaim : o.frame.claim? = some e) (hi : m.state.registry.entryId? i = some e) :
    Reachable .calm m' ∧ o ∈ m'.ongoing ∧
      (m'.state.registry.entryId? i = some e ↔ some .closeAll ∉ ks) := by
  induction hrun with
  | refl => exact ⟨hm, ho, by simp [hi]⟩
  | @next m₁ m₂ ks k _ hstep ho' ih =>
    obtain ⟨hm₁, ho₁, hiff⟩ := ih
    refine ⟨.next hm₁ hstep, ho', ?_⟩
    rw [List.mem_append, List.mem_singleton, not_or]
    by_cases hk : k = some .closeAll
    · have hknown := known_of_closeAll hm₁ hm₁.emptied hstep hk
      simp [Registry.entryId?, hknown, hk]
    · by_cases hks : some .closeAll ∈ ks
      · obtain ⟨hlt, hn⟩ := System.unknown_next hm₁ hstep (hm₁.lt_of_claim ho₁ hclaim)
          fun h => (hiff.mp h) hks
        exact ⟨fun h => absurd h hn, fun h => absurd hks h.1⟩
      · have hk' : some .closeAll ≠ k := fun h => hk h.symm
        exact ⟨fun _ => ⟨hks, hk'⟩, fun _ =>
          System.known_next hm₁ hstep hk ho₁ ho' hclaim (hiff.mpr hks)⟩

end runs

end ConnectionLeasing.Affine
