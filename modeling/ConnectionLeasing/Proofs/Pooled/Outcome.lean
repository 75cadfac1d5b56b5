import ConnectionLeasing.Proofs.Pooled.Change

/-!
# What a move of an operation comes to

`Outcome` says of a function of the manager that it is a trail of changes, and that at its end the
operation has in hand what its frame shows. What the frame or the result tells of the manager is
true then (`Frame.Holds`, `Result.Holds`); each function has one lemma, in the order of the
definitions.

* `outcome_start`, `outcome_resume`: the moves of an operation.
-/

namespace ConnectionLeasing.Pooled

/-! ### What frames and results tell -/

/-- What the observers are told of a command. -/
def Command.telling? : Command → Option Telling
  | .select key c => some ⟨⟨.borrow, key.identity, c⟩, .select key.channel⟩
  | .release i c => some ⟨⟨.release, i, c⟩, .release⟩
  | .close i c => some ⟨⟨.close, i, c⟩, .close⟩
  | .tell a => some ⟨a, .tell⟩
  | .tick | .closeIdentity _ | .closeAll | .evictIdle | .shutDown | .inPool .. => none

/-- The objects in the hands of a waiting operation, with the number of their pool. -/
def Frame.items : Frame → List (Nat × Item Handle)
  | inPool id _ f _ => f.items.map (id, ·)
  | telling .. | ticking .. => []

/-- The objects in the hands of an operation after a move, and the one it has lent. -/
def handsOf (k : Command) (next : Progress Frame Result) : List (Nat × Item Handle) :=
  (left k next).flatMap (·.frame.items) ++ lent k next

/-- What an operation relies on after it is through with pool number `id`. -/
def AfterPool.Holds (k : Command) (id : Nat) : AfterPool → Prop
  | caller => ∃ c, k = .inPool id c
  | closing keys _ _ => ∀ key ∈ keys, k.Closes key.identity
  | evicting .. => ∀ i, k.Concerns i

/-- What a frame tells of the manager. -/
def Frame.Holds (k : Command) (s : State) : Frame → Prop
  | telling _ _ t => k.telling? = some t
  | ticking _ _ => ∀ i, k.Concerns i
  | inPool id source _ after =>
    (∃ p, s.pools[id]? = some p ∧ p.source = source) ∧ k.Concerns source.identity ∧
      after.Holds k id

/-- What a result tells of the manager. -/
def Result.Holds (k : Command) (s : State) : Result → Prop
  | selected id => ∃ key c, k = .select key c ∧ Keyed.get? s.directory key = some id
  | refused _ | pool _ | counted _ | told => True

/-- What the end of a move tells of the manager. -/
def HoldsOf (k : Command) (s : State) : Progress Frame Result → Prop
  | .paused f => f.Holds k s
  | .done r => r.Holds k s

theorem Frame.Holds.older {k : Command} {s s' : State} {f : Frame} (h : f.Holds k s)
    (hs : s.Older s') : f.Holds k s' := by
  cases f with
  | telling | ticking => exact h
  | inPool id source f after =>
    obtain ⟨⟨p, hp, hsource⟩, hrest⟩ := h
    obtain ⟨p', hp', hsource', -⟩ := hs.pools id p hp
    exact ⟨⟨p', hp', hsource'.trans hsource⟩, hrest⟩

theorem mem_handsOf {k : Command} {next : Progress Frame Result} {y : Nat × Item Handle}
    (h : y ∈ handsOf k next) : (∃ f, next = .paused f ∧ y ∈ f.items) ∨
      next = .done (.pool (.lent y.2)) ∧ ∃ c, k = .inPool y.1 c := by
  rcases List.mem_append.mp h with h | h
  · obtain ⟨o, ho, hy⟩ := List.mem_flatMap.mp h
    cases next with
    | done r => cases ho
    | paused f =>
      rw [List.mem_singleton.mp ho] at hy
      exact .inl ⟨f, rfl, hy⟩
  · unfold lent at h
    split at h
    · rw [List.mem_singleton.mp h]
      exact .inr ⟨rfl, _, rfl⟩
    · cases h

/-! ### Outcomes -/

/-- The stage in which a move ends. -/
structure Stage.Ends (k : Command) (g : Stage) (step : Step) : Prop where
  state : g.state = step.1
  hand : ∀ y ∈ handsOf k step.2, g.hand y.1 y.2
  holds : HoldsOf k step.1 step.2

/-- A move that starts in a stage is a trail of changes and ends as its frame or result shows. -/
def Outcome (k : Command) (g : Stage) (step : Step) : Prop :=
  ∃ g', Trail k g g' ∧ g'.Ends k step

section outcome
variable {k : Command} {g g' : Stage} {s s' : State} {hand : Nat → Item Handle → Prop} {step : Step}
  {now : Nat}

theorem Outcome.after (h : Change k g g') (ho : Outcome k g' step) : Outcome k g step := by
  obtain ⟨g'', htrail, hend⟩ := ho
  exact ⟨g'', .head h htrail, hend⟩

/-- Two states that differ only in what is written down. -/
def State.Noted (s s' : State) : Prop := ∃ journal, s' = { s with journal }

namespace State.Noted

theorem refl (s : State) : s.Noted s := ⟨s.journal, rfl⟩

theorem note (s : State) (n : Notice) : s.Noted (s.note n) := ⟨_, rfl⟩

theorem trans {s s' s'' : State} (h : s.Noted s') (h' : s'.Noted s'') : s.Noted s'' := by
  obtain ⟨_, rfl⟩ := h
  obtain ⟨j, rfl⟩ := h'
  exact ⟨j, rfl⟩

theorem foldl_note {α : Type} (f : α → Notice) (l : List α) (s : State) :
    s.Noted (l.foldl (fun s x => s.note (f x)) s) := by
  induction l generalizing s with
  | nil => exact refl s
  | cons x l ih => exact (note s (f x)).trans (ih _)

theorem summarize (s : State) : s.Noted s.summarize := (note s _).trans (foldl_note _ _ _)

theorem summarizeFor (s : State) (i : Identity) : s.Noted (s.summarizeFor i) := foldl_note _ _ _

theorem took (s : State) (source : Source) (c : Connected) : s.Noted (s.took source c).1 := by
  unfold State.took
  split
  · exact refl s
  · dsimp only
    split
    · exact note s _
    · exact refl s

theorem gave (s : State) (source : Source) (failure : Option LeaseError) :
    s.Noted (s.gave source failure) := by
  unfold State.gave
  split
  · split
    · exact note s _
    · exact refl s
  · exact refl s

end State.Noted

theorem Outcome.noted (h : s.Noted s') (ho : Outcome k ⟨s', hand⟩ step) :
    Outcome k ⟨s, hand⟩ step := by
  obtain ⟨journal, rfl⟩ := h
  exact .after (.note ⟨s, hand⟩ journal) ho

theorem Frame.Holds.noted {f : Frame} (hf : f.Holds k s) (h : s.Noted s') : f.Holds k s' := by
  obtain ⟨_, rfl⟩ := h
  exact hf

theorem State.Filed.noted (hs : s.Filed) (h : s.Noted s') : s'.Filed := by
  obtain ⟨_, rfl⟩ := h
  exact ⟨hs.served, hs.closed⟩

theorem outcome_bare {next : Progress Frame Result} (hnone : handsOf k next = [])
    (hholds : HoldsOf k s next) : Outcome k ⟨s, hand⟩ (s, next) := by
  refine ⟨_, .refl, rfl, fun y hy => ?_, hholds⟩
  rw [hnone] at hy
  cases hy

theorem outcome_done {r : Result} (hr : ∀ x, r ≠ .pool (.lent x)) (hholds : r.Holds k s) :
    Outcome k ⟨s, hand⟩ (s, .done r) := by
  refine outcome_bare (List.eq_nil_iff_forall_not_mem.mpr fun y hy => ?_) hholds
  rcases mem_handsOf hy with ⟨f, hf, -⟩ | ⟨hlent, -⟩
  · cases hf
  · exact hr _ (Progress.done.inj hlent)

theorem outcome_paused {id : Nat} {p : HandlePool} {pooled : Pool.Step Handle}
    {f : Pool.Frame Handle} {after : AfterPool} (hp : s.pools[id]? = some p)
    (hf : pooled.next = .paused f) (hk : k.Concerns p.source.identity) (hafter : after.Holds k id) :
    Outcome k ⟨s.settle id pooled, fun j x => j = id ∧ x ∈ pooled.items⟩
      (s.settle id pooled, .paused (.inPool id p.source f after)) := by
  refine ⟨_, .refl, rfl, fun y hy => ?_, ⟨_, State.pools_settle_self hp, rfl⟩, hk, hafter⟩
  rcases mem_handsOf hy with ⟨g, hg, hy⟩ | ⟨hlent, -⟩
  · cases hg
    obtain ⟨x, hx, rfl⟩ := List.mem_map.mp hy
    refine ⟨rfl, ?_⟩
    simpa [Pool.Step.items, hf, Pool.left] using .inl hx
  · cases hlent

/-! ### Closing and evicting -/

theorem outcome_finishClosing (destroyed : Nat) (after : AfterClosing) :
    Outcome k ⟨s, hand⟩ (finishClosing s destroyed after) := by
  cases after with
  | counted => exact outcome_done (by simp) trivial
  | called a => exact .noted (.note s _) (outcome_done (by simp) trivial)
  | shutDown => exact .noted (.note s _) (outcome_done (by simp) trivial)

theorem outcome_closeKeys (after : AfterClosing) (destroyed : Nat) {keys : List PoolKey}
    (hs : s.Filed) (hkeys : ∀ key ∈ keys, k.Closes key.identity) :
    Outcome k ⟨s, hand⟩ (closeKeys s after destroyed keys) := by
  induction keys generalizing s hand destroyed with
  | nil => exact outcome_finishClosing destroyed after
  | cons key keys ih =>
    rw [List.forall_mem_cons] at hkeys
    rw [closeKeys]
    split
    · exact ih _ hs hkeys.2
    · rename_i id p hfound
      obtain ⟨id', hkey, hp⟩ := Option.bind_eq_some_iff.mp hfound
      obtain ⟨p', hp, heq⟩ := Option.map_eq_some_iff.mp hp
      cases heq
      obtain ⟨p', hp', hserves⟩ := hs.served key id hkey
      rw [hp] at hp'
      cases hp'
      have hchange : Change k ⟨s, hand⟩ _ := .remove ⟨s, hand⟩ key id p hkey hp hkeys.1
      refine .after hchange ?_
      dsimp only
      split
      · rename_i f hf
        refine outcome_paused (s := s.without key) hp hf ?_ hkeys.2
        rw [hserves.identity]
        exact hkeys.1.concerns
      · exact ih _ (hchange.filed hs) hkeys.2

theorem outcome_evictPools {after : AfterEvicting} {rest : State → Nat → Step}
    (hk : ∀ i, k.Concerns i) (hrest : ∀ s n hand, Outcome k ⟨s, hand⟩ (rest s n)) (evicted : Nat)
    (ids : List Nat) : Outcome k ⟨s, hand⟩ (evictPools now after rest s evicted ids) := by
  induction ids generalizing s hand evicted with
  | nil =>
    rw [evictPools]
    refine .noted ?_ (hrest _ _ _)
    split
    · exact .refl s
    · exact .note s _
  | cons id ids ih =>
    rw [evictPools]
    split
    · exact ih evicted
    · rename_i p hp
      have hevict : (p.pool.evictIdle now).Follows p.pool (hand id) :=
        (Pool.conserves_start p.pool now .evictIdle).follows.mono fun x hx => by cases hx
      refine .after (.work ⟨s, hand⟩ id p _ hp (hk _) hevict) ?_
      dsimp only
      split
      · rename_i f hf
        exact outcome_paused hp hf (hk _) hk
      · exact ih _

/-! ### Telling observers -/

theorem outcome_select {key : PoolKey} {c : ContextId} (hk : k = .select key c) :
    Outcome k ⟨s, hand⟩ (select s key) := by
  unfold select
  split
  · exact .noted (.note s _) (outcome_done (by simp) trivial)
  · rename_i produces hproduces
    split
    · rename_i id hid
      exact outcome_done (by simp) ⟨key, c, hk, hid⟩
    · rename_i hnone
      have hconcerns : k.Concerns key.identity := by rw [hk]; rfl
      refine .after (.found ⟨s, hand⟩ key produces hnone hproduces hconcerns) ?_
      refine .noted (.note _ _) (outcome_done (by simp) ⟨key, c, hk, ?_⟩)
      exact Keyed.get?_put_self s.directory key s.pools.length

theorem outcome_perform {t : Telling} (ht : k.telling? = some t) (hs : s.Filed) :
    Outcome k ⟨s, hand⟩ (perform s t) := by
  unfold Command.telling? at ht
  split at ht
  · cases ht
    exact outcome_select rfl
  · cases ht
    exact .noted (.note s _) (outcome_done (by simp) trivial)
  · rename_i i c
    cases ht
    refine outcome_closeKeys _ 0 hs fun key hkey => ?_
    have hi : key.identity = i := of_decide_eq_true (List.mem_filter.mp hkey).2
    exact hi.symm
  · cases ht
    exact outcome_done (by simp) trivial
  all_goals cases ht

theorem outcome_tell {t : Telling} (ht : k.telling? = some t) (hs : s.Filed)
    (observers : List Observer) : Outcome k ⟨s, hand⟩ (tell t s observers) := by
  induction observers generalizing s with
  | nil => exact outcome_perform ht hs
  | cons o observers ih =>
    cases o with
    | log =>
      have hnoted := (State.Noted.note s (.managerCall t.announcement)).trans (.summarize _)
      exact .noted hnoted (ih (hs.noted hnoted))
    | inspector | poolInspector =>
      have hnoted := State.Noted.summarizeFor s t.announcement.identity
      exact .noted hnoted (ih (hs.noted hnoted))
    | recorder o => exact outcome_bare (by simp [handsOf, left, lent, Frame.items]) ht

theorem outcome_tick (hk : ∀ i, k.Concerns i) (observers : List Observer) :
    Outcome k ⟨s, hand⟩ (tick now s observers) := by
  induction observers generalizing s hand with
  | nil => exact outcome_done (by simp) trivial
  | cons o observers ih =>
    cases o with
    | log => exact .noted (.summarize s) ih
    | inspector | poolInspector => exact outcome_evictPools hk (fun _ _ _ => ih) 0 _
    | recorder o =>
      rw [tick]
      split
      · exact outcome_bare (by simp [handsOf, left, lent, Frame.items]) hk
      · exact ih

theorem outcome_continue (hk : ∀ i, k.Concerns i) (after : AfterEvicting) (n : Nat) :
    Outcome k ⟨s, hand⟩ (after.continue now s n) := by
  cases after with
  | counted => exact outcome_done (by simp) trivial
  | tick observers => exact outcome_tick hk observers

/-! ### The machine -/

theorem outcome_afterStep {id : Nat} {p : HandlePool} {after : AfterPool}
    {pooled : Pool.Step Handle} (hs : s.Filed) (hp : s.pools[id]? = some p)
    (hk : k.Concerns p.source.identity) (hafter : after.Holds k id)
    (hpooled : pooled.Follows p.pool (hand id)) :
    Outcome k ⟨s, hand⟩ (afterStep s now id p.source after pooled) := by
  have hwork : Change k ⟨s, hand⟩ _ := .work ⟨s, hand⟩ id p pooled hp hk hpooled
  refine .after hwork ?_
  unfold afterStep
  dsimp only
  split
  · rename_i f hf
    exact outcome_paused hp hf hk hafter
  · rename_i r hr
    cases after with
    | caller =>
      obtain ⟨c, rfl⟩ := hafter
      refine ⟨_, .refl, rfl, fun y hy => ?_, trivial⟩
      rcases mem_handsOf hy with ⟨f, hf, -⟩ | ⟨hlent, d, hd⟩
      · cases hf
      · cases hlent
        cases hd
        refine ⟨rfl, ?_⟩
        simp [Pool.Step.items, hr, Pool.left, Pool.lent]
    | closing keys destroyed after => exact outcome_closeKeys after _ (hwork.filed hs) hafter
    | evicting ids evicted after =>
      exact outcome_evictPools hafter (fun _ n _ => outcome_continue hafter after n) _ ids

theorem outcome_resumeInPool {id : Nat} {source : Source} {after : AfterPool}
    {f : Pool Handle → Pool.Step Handle} {g : Pool.Frame Handle} (hs : s.Filed)
    (hholds : (Frame.inPool id source g after).Holds k s)
    (hf : ∀ p, s.pools[id]? = some p → (f p.pool).Follows p.pool (hand id)) :
    Outcome k ⟨s, hand⟩ (resumeInPool s now id source after f) := by
  obtain ⟨⟨p, hp, rfl⟩, hk, hafter⟩ := hholds
  unfold resumeInPool
  rw [hp]
  exact outcome_afterStep hs hp hk hafter (hf p hp)

theorem outcome_start (now : Nat) (hs : s.Filed) :
    Outcome k ⟨s, fun id x => (id, x) ∈ k.given⟩ (start s now k) := by
  cases k with
  | select key c => exact outcome_tell rfl hs _
  | release i c => exact outcome_tell rfl hs _
  | close i c => exact outcome_tell rfl hs _
  | tell a => exact outcome_tell rfl hs _
  | tick => exact outcome_tick (k := .tick) (fun _ => trivial) _
  | closeIdentity i =>
    refine outcome_closeKeys _ 0 hs fun key hkey => ?_
    have hi : key.identity = i := of_decide_eq_true (List.mem_filter.mp hkey).2
    exact hi.symm
  | closeAll => exact outcome_closeKeys _ 0 hs fun _ _ => trivial
  | evictIdle =>
    have hk : ∀ i, Command.evictIdle.Concerns i := fun _ => trivial
    exact outcome_evictPools hk (fun _ n _ => outcome_continue hk .counted n) 0 _
  | shutDown => exact outcome_closeKeys _ 0 hs fun _ _ => trivial
  | inPool id command =>
    rw [start]
    split
    · exact outcome_done (by simp) trivial
    · rename_i p hp
      refine outcome_afterStep hs hp trivial ⟨command, rfl⟩ ?_
      refine (Pool.conserves_start p.pool now command).follows.mono fun x hx => ?_
      cases command with
      | giveBack y =>
        rw [List.mem_singleton.mp hx]
        exact List.mem_singleton_self _
      | tryBorrow | evictIdle | close => cases hx

/-- The object of a pool that holds the handle an answer has built. -/
def Frame.Makes : (f : Frame) → f.call.Answer → Nat → Item Handle → Prop
  | inPool id _ .creating _, c => fun j x => j = id ∧ x.value = c.handle
  | inPool _ _ (.checking _) _, _ => fun _ _ => False
  | inPool _ _ (.destroying ..) _, _ => fun _ _ => False
  | telling .., _ => fun _ _ => False
  | ticking .., _ => fun _ _ => False

theorem outcome_resume (now : Nat) {f : Frame} (hs : s.Filed) (hf : f.Holds k s)
    (a : f.call.Answer) :
    Outcome k ⟨s, fun id x => (id, x) ∈ f.items ∨ f.Makes a id x⟩ (resume s now f a) := by
  cases f with
  | telling o observers t => exact outcome_tell hf hs observers
  | ticking o observers => exact outcome_tick hf observers
  | inPool id source f after =>
    cases f with
    | creating =>
      obtain ⟨h, failure⟩ := a
      cases failure with
      | some e =>
        show Outcome k _ (resumeInPool s now id source after (·.resumeCreating (.error e)))
        refine outcome_resumeInPool hs hf fun p hp => ⟨fun x hx => .inr ?_, ?_⟩
        · exact hx.resolve_left (by simp [Pool.resumeCreating, Pool.finish, Pool.Step.items,
            Pool.left, Pool.lent])
        · exact fun hc => hc
      | none =>
        have hnoted := State.Noted.took s source ⟨h, none⟩
        refine .noted hnoted ?_
        show Outcome k _ (resumeInPool _ now id source after (·.resumeCreating (.ok h)))
        refine outcome_resumeInPool (hs.noted hnoted) (hf.noted hnoted) fun p hp =>
          ⟨fun x hx => hx.imp (fun hx => .inr ⟨rfl, ?_⟩) fun hx => hx, fun hc => hc⟩
        simp only [Pool.resumeCreating, Pool.finish, Pool.Step.items, Pool.left, Pool.lent,
          List.flatMap_nil, List.nil_append, List.mem_singleton] at hx
        rw [hx]
    | checking c =>
      show Outcome k _ (resumeInPool s now id source after (·.resumeChecking now a c))
      refine outcome_resumeInPool hs hf fun p hp => ?_
      refine (Pool.conserves_resumeChecking p.pool now a c).follows.mono fun x hx => .inl ?_
      exact List.mem_map.mpr ⟨x, hx, rfl⟩
    | destroying x d =>
      have hnoted := State.Noted.gave s source a
      refine .noted hnoted ?_
      show Outcome k _ (resumeInPool _ now id source after (·.bookDestroyed.resumeDestroying d))
      refine outcome_resumeInPool (hs.noted hnoted) (hf.noted hnoted) fun p hp => ?_
      have hconserves := (Pool.conserves_resumeDestroying p.pool.bookDestroyed d).follows
      refine ⟨fun y hy => ?_, hconserves.closed⟩
      refine (hconserves.items y hy).imp_left fun hy => .inl ?_
      exact List.mem_map.mpr ⟨y, List.mem_cons_of_mem _ hy, rfl⟩

end outcome

end ConnectionLeasing.Pooled
