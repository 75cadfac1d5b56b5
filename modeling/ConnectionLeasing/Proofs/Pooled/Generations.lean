import ConnectionLeasing.Proofs.Pooled.Mirroring

/-!
# Generations of pools

When the pools of an identity are closed, the next borrow for it founds new ones. Pools are known by
number, and numbers tell the generations apart: every pool founded after a system `m` has a number
from `m.state.pools.length` on.

* `Run.fresh`: no handle built before gets into a pool founded after.
* `Covered`: while an operation closes the pools of an identity, each old one that is still in the
  directory is on the operation's list; so none is left when it has completed (`Completes.cleared`).
* `Run.dropped`: a handle outstanding at a closed pool is disconnected when its guard is dropped,
  and only then.
* `CalmRun.emptied`: the other handles of a closed pool are disconnected, unless somebody evicts
  from it.
* `generations_apart`: the theorem about closing the pools of one identity, or of all.
-/

namespace ConnectionLeasing.Pooled

/-! ### One operation among others -/

/-- An operation followed through a run while others move: it waited at `f` in `m`, and waits at
some frame in a later system. -/
inductive Goes (k : Command) (m : System) (f : Frame) : System → Frame → Prop
  | here (h : ⟨k, f⟩ ∈ m.ongoing) : Goes k m f m f
  /-- It waits while the system moves. -/
  | wait {m' m'' : System} {f' : Frame} (h : Goes k m f m' f') (hmove : Moves m' m'')
      (hf : ⟨k, f'⟩ ∈ m''.ongoing) : Goes k m f m'' f'
  /-- It goes on, and waits again. -/
  | go {m' : System} {f' : Frame} (before later : List Ongoing) (a : f'.call.Answer) (f'' : Frame)
      (h : Goes k m f m' f') (hm : m'.ongoing = before ++ ⟨k, f'⟩ :: later)
      (ha : m'.Admits f'.call a) (hf : (resume m'.state m'.now f' a).2 = .paused f'') :
      Goes k m f (m'.resumed ⟨k, f'⟩ a (before ++ later)) f''

/-- An operation starts in `m` and completes with a result, at once or after others have moved. -/
inductive Completes (k : Command) (m : System) : Result → System → Prop
  | atOnce (guards : List (Nat × Item Handle)) (r : Result)
      (hk : m.guards.Perm (k.given ++ guards)) (h : (start m.state m.now k).2 = .done r) :
      Completes k m r (m.started k guards)
  | later (guards : List (Nat × Item Handle)) (f : Frame) {m' : System} {f' : Frame}
      (before later : List Ongoing) (a : f'.call.Answer) (r : Result)
      (hk : m.guards.Perm (k.given ++ guards)) (h : (start m.state m.now k).2 = .paused f)
      (hgoes : Goes k (m.started k guards) f m' f')
      (hm : m'.ongoing = before ++ ⟨k, f'⟩ :: later) (ha : m'.Admits f'.call a)
      (hr : (resume m'.state m'.now f' a).2 = .done r) :
      Completes k m r (m'.resumed ⟨k, f'⟩ a (before ++ later))

/-- A move of an operation. -/
inductive Acts (k : Command) : System → System → Prop
  | start (m : System) (guards : List (Nat × Item Handle))
      (hk : m.guards.Perm (k.given ++ guards)) : Acts k m (m.started k guards)
  | resume (m : System) (before : List Ongoing) (f : Frame) (later : List Ongoing)
      (a : f.call.Answer) (hm : m.ongoing = before ++ ⟨k, f⟩ :: later) (ha : m.Admits f.call a) :
      Acts k m (m.resumed ⟨k, f⟩ a (before ++ later))

section operations
variable {k : Command} {m m' : System} {f f' : Frame} {r : Result}

theorem Goes.run (h : Goes k m f m' f') : Run m m' := by
  induction h with
  | here h => exact .refl
  | wait h hmove hf ih => exact ih.tail hmove
  | go before later a f'' h hm ha hf ih => exact ih.tail (.resume _ before ⟨k, _⟩ later a hm ha)

theorem Completes.run (h : Completes k m r m') : Run m m' := by
  cases h with
  | atOnce guards r hk h => exact .single (.start m k guards hk)
  | later guards f before later a r hk h hgoes hm ha hr =>
    have hstart : Run m (m.started k guards) := .single (.start m k guards hk)
    exact (hstart.trans hgoes.run).tail (.resume _ before ⟨k, _⟩ later a hm ha)

theorem Goes.mem (h : Goes k m f m' f') : ⟨k, f'⟩ ∈ m'.ongoing := by
  cases h with
  | here h => exact h
  | wait h hmove hf => exact hf
  | go before later a f'' h hm ha hf =>
    refine List.mem_append_left _ ?_
    show _ ∈ left k (resume _ _ _ _).2
    rw [hf]
    exact List.mem_singleton_self _

theorem Acts.spares (h : Acts k m m') (hm : m.Good) {i : Identity} (hi : ¬ k.Concerns i)
    (hk : k.given = []) (hlent : ∀ next, lent k next = []) :
    State.Spares i m.state m'.state ∧ m'.guards.Perm m.guards := by
  have hspares : ∀ {hand step}, Outcome k ⟨m.state, hand⟩ step →
      State.Spares i m.state step.1 := by
    rintro hand step ⟨g, htrail, hend⟩
    rw [← hend.state]
    exact htrail.spares hm.filed hi
  cases h with
  | start guards hperm =>
    refine ⟨hspares (outcome_start m.now hm.filed), ?_⟩
    rw [hk] at hperm
    rw [System.started, System.moved, hlent]
    exact hperm.symm
  | resume before f later a hongoing ha =>
    have hf : f.Holds k m.state := hm.frames ⟨k, f⟩ (by simp [hongoing])
    refine ⟨hspares (outcome_resume m.now hm.filed hf a), ?_⟩
    rw [System.resumed, System.moved, hlent]
    exact .refl _

end operations

/-! ### Nothing old in new pools -/

section fresh
variable {m m' : System}

/-- **No handle built before gets into a pool founded after.** -/
theorem Run.fresh (h : Run m m') (hm : Reachable m) :
    (∀ id x, m'.Has id x → m.state.pools.length ≤ id → x.value ∉ m.built) ∧
    ∀ id c x, .returned (.inPool id c) (.pool (.lent x)) ∈ m'.events →
      m.state.pools.length ≤ id → x.value ∉ m.built := by
  have hlt : ∀ {id : Nat} {p : HandlePool}, m.state.pools[id]? = some p →
      ¬ m.state.pools.length ≤ id := by
    intro id p hp hle
    rw [List.getElem?_eq_none hle] at hp
    cases hp
  induction h with
  | refl =>
    refine ⟨fun id x hx hle => ?_, fun id c x hx hle => ?_⟩
    · obtain ⟨p, hp, -⟩ := hm.bred.objects id x hx
      exact absurd hle (hlt hp)
    · obtain ⟨p, hp, -⟩ := hm.bred.lent id c x hx
      exact absurd hle (hlt hp)
  | @tail m' m'' hrun hmove ih =>
    have hpassage := (Run.reachable hrun hm).good.next hmove
    have hhas : ∀ id x, m''.Has id x → m.state.pools.length ≤ id → x.value ∉ m.built := by
      intro id x hx hle
      rcases hpassage.has id x hx with hx | ⟨hnew, -⟩
      · exact ih.1 id x hx hle
      · exact fun hbuilt => hnew (Run.built hrun hm _ hbuilt)
    refine ⟨hhas, fun id c x hx hle => ?_⟩
    obtain ⟨events, hevents, htells⟩ := hpassage.seen
    rw [hevents] at hx
    rcases List.mem_append.mp hx with hx | hx
    · exact ih.2 id c x hx hle
    · exact hhas id x (.inr (.inr (htells _ hx))) hle

/-- As long as the directory has only new pools for an identity, only new ones are found for it. -/
theorem Run.selects_new {i : Identity} {n : Nat} (h : Run m m') (hm : Reachable m)
    (hn : n ≤ m.state.pools.length) (hnew : ∀ key id, key.identity = i →
      Keyed.get? m.state.directory key = some id → n ≤ id) :
    (∀ key id, key.identity = i → Keyed.get? m'.state.directory key = some id → n ≤ id) ∧
    ∃ events, m'.events = m.events ++ events ∧ ∀ key c id, key.identity = i →
      .returned (.select key c) (.selected id) ∈ events → n ≤ id := by
  induction h with
  | refl => exact ⟨hnew, [], by simp, by simp⟩
  | @tail m' m'' hrun hmove ih =>
    obtain ⟨hdirectory, events, hevents, hselected⟩ := ih
    have hpassage := (Run.reachable hrun hm).good.next hmove
    obtain ⟨more, hmore, htells⟩ := hpassage.seen
    have hlength := (Run.older hrun hm).length
    have hnow : ∀ key id, key.identity = i →
        Keyed.get? m''.state.directory key = some id → n ≤ id := by
      intro key id hi hid
      rcases hpassage.older.directory key id hid with hold | hle
      · exact hdirectory key id hi hold
      · omega
    refine ⟨hnow, events ++ more, by rw [hmore, hevents, List.append_assoc],
      fun key c id hi hmem => ?_⟩
    rcases List.mem_append.mp hmem with hmem | hmem
    · exact hselected key c id hi hmem
    · exact hnow key id hi (htells _ hmem)

end fresh

/-! ### Closing covers what is old -/

/-- Whether an operation that waits has yet to remove the pool of a key, if there is one. -/
def Frame.Pends (key : PoolKey) : Frame → Prop
  | .telling .. => True
  | .inPool _ _ _ (.closing keys _ _) => key ∈ keys
  | .ticking .. | .inPool _ _ _ .caller | .inPool _ _ _ (.evicting ..) => False

/-- The same for an operation after a move. -/
def Pending (key : PoolKey) : Progress Frame Result → Prop
  | .paused f => f.Pends key
  | .done _ => False

/-- Every pool below `n` of an identity that is in the directory is pending. -/
def Covered (i : Identity) (n : Nat) (s : State) (pending : PoolKey → Prop) : Prop :=
  ∀ key id, key.identity = i → id < n → Keyed.get? s.directory key = some id → pending key

section covered
variable {i : Identity} {n : Nat} {s s' : State} {k : Command}

theorem Covered.older (h : Covered i n s fun _ => False) (hs : s.Older s')
    (hn : n ≤ s.pools.length) {pending : PoolKey → Prop} : Covered i n s' pending := by
  intro key id hi hid hget
  rcases hs.directory key id hget with hold | hle
  · exact (h key id hi hid hold).elim
  · omega

theorem covered_closeKeys (after : AfterClosing) (destroyed : Nat) {keys : List PoolKey}
    (hs : s.Filed) (h : Covered i n s (· ∈ keys)) :
    Covered i n (closeKeys s after destroyed keys).1
      fun key => Pending key (closeKeys s after destroyed keys).2 := by
  induction keys generalizing s destroyed with
  | nil =>
    intro key id hi hid hget
    have hsame : (finishClosing s destroyed after).1.directory = s.directory := by
      cases after <;> rfl
    rw [closeKeys, hsame] at hget
    exact absurd (h key id hi hid hget) List.not_mem_nil
  | cons key keys ih =>
    rw [closeKeys]
    split
    · rename_i hnone
      refine ih _ hs fun other id hi hid hget => ?_
      -- the key is in no directory that is in order
      refine (List.mem_cons.mp (h other id hi hid hget)).resolve_left ?_
      rintro rfl
      obtain ⟨p, hp, -⟩ := hs.served other id hget
      simp [hget, hp] at hnone
    · rename_i id p hfound
      obtain ⟨id', hkey, hp⟩ := Option.bind_eq_some_iff.mp hfound
      obtain ⟨p', hp, heq⟩ := Option.map_eq_some_iff.mp hp
      cases heq
      have hrest : Covered i n ((s.without key).settle id p.pool.close) (· ∈ keys) := by
        intro other j hi hj hget
        have hget : Keyed.get? (s.without key).directory other = some j := hget
        rw [State.get?_without] at hget
        split at hget
        · cases hget
        · rename_i hne
          exact (List.mem_cons.mp (h other j hi hj hget)).resolve_left fun heq => hne heq.symm
      have hfiled : ((s.without key).settle id p.pool.close).Filed := by
        have hchange : Change .closeAll ⟨s, fun _ _ => False⟩ _ :=
          .remove ⟨s, fun _ _ => False⟩ key id p hkey hp trivial
        exact hchange.filed hs
      dsimp only
      split
      · exact hrest
      · exact ih _ hfiled hrest

theorem mem_keysOf {key : PoolKey} {id : Nat} (h : Keyed.get? s.directory key = some id) :
    key ∈ s.directory.map (·.1) := Keyed.mem_keys (Keyed.mem_of_get? h)

theorem covered_keysOf (s : State) : Covered i n s (· ∈ s.keysOf i) := by
  intro key id hi hid hget
  exact List.mem_filter.mpr ⟨mem_keysOf hget, by simpa using hi⟩

theorem covered_tell {c : ContextId} {t : Telling} (ht : (Command.close i c).telling? = some t)
    (hs : s.Filed) (observers : List Observer) :
    Covered i n (tell t s observers).1 fun key => Pending key (tell t s observers).2 := by
  induction observers generalizing s with
  | nil =>
    cases ht
    exact covered_closeKeys _ 0 hs (covered_keysOf s)
  | cons o observers ih =>
    cases o with
    | log =>
      exact ih (hs.noted ((State.Noted.note s (.managerCall t.announcement)).trans (.summarize _)))
    | inspector | poolInspector =>
      exact ih (hs.noted (State.Noted.summarizeFor s t.announcement.identity))
    | recorder o => exact fun _ _ _ _ _ => trivial

theorem covered_start (now : Nat) (hk : k.Closes i) (hs : s.Filed) :
    Covered i n (start s now k).1 fun key => Pending key (start s now k).2 := by
  cases k with
  | close j c =>
    cases hk
    exact covered_tell rfl hs _
  | closeIdentity j =>
    cases hk
    exact covered_closeKeys _ 0 hs (covered_keysOf s)
  | closeAll => exact covered_closeKeys _ 0 hs fun key id _ _ hget => mem_keysOf hget
  | shutDown => exact covered_closeKeys _ 0 hs fun key id _ _ hget => mem_keysOf hget
  | select | release | tell | tick | evictIdle | inPool => cases hk

theorem Covered.noted {pending : PoolKey → Prop} (h : Covered i n s pending) (hs : s.Noted s') :
    Covered i n s' pending := by
  obtain ⟨journal, rfl⟩ := hs
  exact h

theorem covered_afterStep {now id : Nat} {p : HandlePool} {keys : List PoolKey} {destroyed : Nat}
    {after : AfterClosing} {pooled : Pool.Step Handle} (hs : s.Filed) (hp : s.pools[id]? = some p)
    (hc : p.pool.closed = true → pooled.pool.closed = true) (h : Covered i n s (· ∈ keys))
    (source : Source) :
    Covered i n (afterStep s now id source (.closing keys destroyed after) pooled).1
      fun key => Pending key (afterStep s now id source (.closing keys destroyed after) pooled).2 := by
  unfold afterStep
  dsimp only
  split
  · exact h
  · exact covered_closeKeys after _ (hs.work hp hc) h

theorem covered_resume (now : Nat) {f : Frame} (hk : k.Closes i) (hs : s.Filed)
    (hf : f.Holds k s) (hn : n ≤ s.pools.length) (a : f.call.Answer)
    (h : Covered i n s f.Pends) :
    Covered i n (resume s now f a).1 fun key => Pending key (resume s now f a).2 := by
  have hempty : Covered i n s (fun _ => False) →
      Covered i n (resume s now f a).1 fun key => Pending key (resume s now f a).2 := by
    intro hnone
    obtain ⟨g, htrail, hend⟩ := outcome_resume now hs hf a
    refine hnone.older ?_ hn
    rw [← hend.state]
    exact htrail.older
  cases f with
  | telling o observers t =>
    cases k with
    | close j c =>
      cases hk
      exact covered_tell hf hs observers
    | closeIdentity | closeAll | shutDown => cases hf
    | select | release | tell | tick | evictIdle | inPool => cases hk
  | ticking o observers => exact hempty h
  | inPool id source f after =>
    cases after with
    | caller => exact hempty h
    | evicting ids evicted after => exact hempty h
    | closing keys destroyed after =>
      obtain ⟨⟨p, hp, -⟩, -⟩ := hf
      have hpool : ∀ {s' : State} (g : Pool Handle → Pool.Step Handle), s.Noted s' →
          (p.pool.closed = true → (g p.pool).pool.closed = true) →
          Covered i n (resumeInPool s' now id source (.closing keys destroyed after) g).1
            fun key => Pending key
              (resumeInPool s' now id source (.closing keys destroyed after) g).2 := by
        intro s' g hnoted hc
        have hp' : s'.pools[id]? = some p := by
          obtain ⟨journal, rfl⟩ := hnoted
          exact hp
        have hcovered : Covered i n s' (· ∈ keys) := Covered.noted h hnoted
        unfold resumeInPool
        rw [hp']
        exact covered_afterStep (hs.noted hnoted) hp' hc hcovered source
      cases f with
      | creating =>
        refine hpool (·.resumeCreating (s.took source a).2) (.took s source a) fun hc => ?_
        cases (s.took source a).2 <;> exact hc
      | checking c =>
        exact hpool (·.resumeChecking now a c) (.refl s)
          (Pool.conserves_resumeChecking p.pool now a c).closed
      | destroying x d =>
        exact hpool (·.bookDestroyed.resumeDestroying d) (.gave s source a)
          (Pool.conserves_resumeDestroying p.pool.bookDestroyed d).closed

theorem Goes.covered {m m' : System} {f f' : Frame} (h : Goes k m f m' f') (hm : Reachable m)
    (hk : k.Closes i) (hn : n ≤ m.state.pools.length) (hf : Covered i n m.state f.Pends) :
    Covered i n m'.state f'.Pends := by
  induction h with
  | here h => exact hf
  | wait h hmove hmem ih =>
    have hpassage := (Run.reachable h.run hm).good.next hmove
    have hlength := (Run.older h.run hm).length
    intro key id hi hid hget
    rcases hpassage.older.directory key id hget with hold | hle
    · exact ih key id hi hid hold
    · omega
  | @go n' g' before later a f'' h hongoing ha hnext ih =>
    have hgood := (Run.reachable h.run hm).good
    have hlength := (Run.older h.run hm).length
    have hcovered := covered_resume n'.now hk hgood.filed (hgood.frames _ h.mem)
      (Nat.le_trans hn hlength) a ih
    rw [hnext] at hcovered
    exact hcovered

/-- **When the pools of an identity have been closed, none of those it had is left** in the
directory. -/
theorem Completes.cleared {m m' : System} {r : Result} (h : Completes k m r m') (hm : Reachable m)
    (hk : k.Closes i) : Covered i m.state.pools.length m'.state fun _ => False := by
  cases h with
  | atOnce guards r hperm hnext =>
    have hcovered := covered_start (n := m.state.pools.length) m.now hk hm.good.filed
    rw [hnext] at hcovered
    exact hcovered
  | @later guards f n f' before later a r hperm hnext hgoes hongoing ha hr =>
    have hstart : Run m (m.started k guards) := .single (.start m k guards hperm)
    have hlength := (hstart.older hm).length
    have hcovered := covered_start (n := m.state.pools.length) m.now hk hm.good.filed
    rw [hnext] at hcovered
    have hbefore := hgoes.covered (hstart.reachable hm) hk hlength hcovered
    have hgood := (Run.reachable (hstart.trans hgoes.run) hm).good
    have hlast := covered_resume n.now hk hgood.filed (hgood.frames _ hgoes.mem)
      (Nat.le_trans hlength (hgoes.run.older (hstart.reachable hm)).length) a hbefore
    rw [hr] at hlast
    exact hlast

end covered

/-! ### Handles outstanding at a closed pool -/

section dropped
variable {m m' : System} {id : Nat} {x : Item Handle}

theorem System.Custody.guarded (hm : m.Custody) (hx : (id, x) ∈ m.guards) :
    .disconnected x.value ∉ m.milestones ∧ x.value ∉ m.state.stock := by
  have hplaced := hm.placed x.value
  have honce := hm.lawful.count_connected_le x.value
  have hheld : 0 < m.held.count x.value :=
    List.count_pos_iff.mpr (List.mem_map.mpr ⟨(id, x), hx, rfl⟩)
  refine ⟨fun hgone => ?_, fun hstock => ?_⟩
  · rcases hm.gone x.value hgone with hgone | ⟨o, ho, hcall⟩
    · have hpos := List.count_pos_iff.mpr hgone
      omega
    · have hpos : 0 < m.hands.count x.value :=
        List.count_pos_iff.mpr (List.mem_flatMap.mpr ⟨o, ho, System.mem_handles hcall⟩)
      omega
  · have hpos := List.count_pos_iff.mpr hstock
    omega

theorem System.Custody.departed {h : Handle} (hm : m.Custody)
    (hgone : .disconnected h ∈ m.milestones) :
    h ∉ m.held ∧ h ∉ m.state.stock := by
  have hplaced := hm.placed h
  have honce := hm.lawful.count_connected_le h
  have hpos : 0 < m.gone.count h + m.hands.count h := by
    rcases hm.gone h hgone with hgone | ⟨o, ho, hcall⟩
    · have hpos := List.count_pos_iff.mpr hgone
      omega
    · have hpos : 0 < m.hands.count h :=
        List.count_pos_iff.mpr (List.mem_flatMap.mpr ⟨o, ho, System.mem_handles hcall⟩)
      omega
  refine ⟨fun hheld => ?_, fun hstock => ?_⟩
  · have hpos := List.count_pos_iff.mpr hheld
    omega
  · have hpos := List.count_pos_iff.mpr hstock
    omega

theorem milestones_giveBack {p : HandlePool} (hp : m.state.pools[id]? = some p)
    (hc : p.pool.closed = true) (guards : List (Nat × Item Handle)) :
    (m.started (.inPool id (.giveBack x)) guards).milestones =
      m.milestones ++ [.disconnected x.value] := by
  have hstart : (start m.state m.now (.inPool id (.giveBack x))).2 =
      .paused (.inPool id p.source (.destroying x .returned) .caller) := by
    simp [start, hp, Pool.start, Pool.giveBack, hc, Pool.await, afterStep]
  rw [System.started, System.milestones_moved, hstart]
  simp [shown, Event.milestone?]

theorem Run.dropped (h : Run m m') (hm : Reachable m) {p : HandlePool}
    (hp : m.state.pools[id]? = some p) (hc : p.pool.closed = true) (hx : (id, x) ∈ m.guards) :
    (id, x) ∈ m'.guards ∨ .disconnected x.value ∈ m'.milestones := by
  induction h with
  | refl => exact .inl hx
  | @tail m' m'' hrun hmove ih =>
    obtain ⟨p', hp', -, hclosed⟩ := (Run.older hrun hm).pools id p hp
    have hpassage := (Run.reachable hrun hm).good.next hmove
    obtain ⟨events, hevents, -⟩ := hpassage.seen
    have hlater : .disconnected x.value ∈ m'.milestones →
        .disconnected x.value ∈ m''.milestones := by
      intro hmem
      rw [System.milestones, hevents, List.filterMap_append]
      exact List.mem_append_left _ hmem
    rcases ih with hguard | hgone
    · cases hmove with
      | start k guards hk =>
        rcases List.mem_append.mp (hk.mem_iff.mp hguard) with hgiven | hkept
        · right
          unfold Command.given at hgiven
          split at hgiven
          · cases List.mem_singleton.mp hgiven
            rw [milestones_giveBack hp' (hclosed hc)]
            exact List.mem_append_right _ (List.mem_singleton_self _)
          · cases hgiven
        · exact .inl (List.mem_append_right _ hkept)
      | resume before o later a hongoing ha => exact .inl (List.mem_append_right _ hguard)
      | fail before o later hongoing ho => exact .inl hguard
      | attach o => exact .inl hguard
      | pass t ht => exact .inl hguard
    · exact .inr (hlater hgone)

end dropped

/-! ### Handles idle at a closed pool -/

/-- The pool is closed. -/
def System.Closed (m : System) (id : Nat) : Prop :=
  ∃ p, m.state.pools[id]? = some p ∧ p.pool.closed = true

/-- Nobody evicts from the pool if it is closed. -/
def System.Calm (m : System) (id : Nat) : Prop :=
  m.Closed id → ∀ f ∈ m.inside id, f.isEvicting = false

/-- The runs in which nobody evicts from the pool once it is closed. -/
abbrev CalmRun (id : Nat) : System → System → Prop :=
  Relation.ReflTransGen fun m m' => m.Calm id ∧ Moves m m'

section emptied
variable {m m' : System} {id : Nat} {w : Pool.System Handle}

theorem Mirrors.closed_iff (h : Mirrors id m w) : m.Closed id ↔ w.pool.closed = true := by
  obtain ⟨p, hp, hpool⟩ := h.holds
  rw [← hpool]
  refine ⟨fun ⟨q, hq, hc⟩ => ?_, fun hc => ⟨p, hp, hc⟩⟩
  obtain rfl := Option.some.inj (hp.symm.trans hq)
  exact hc

theorem CalmRun.run (h : CalmRun id m m') : Run m m' := by
  induction h with
  | refl => exact .refl
  | tail _ hmove ih => exact ih.tail hmove.2

theorem CalmRun.mirror (h : CalmRun id m m') (hm : Reachable m) (hw : Mirrors id m w)
    (hclear : w.Clear) : ∃ w', Pool.Run .any w w' ∧ Mirrors id m' w' ∧ w'.Clear := by
  induction h with
  | refl => exact ⟨w, .refl w, hw, hclear⟩
  | @tail n n' hrun hmove ih =>
    obtain ⟨hcalm, hmove⟩ := hmove
    obtain ⟨v, hv, hmirrors, hclear⟩ := ih
    obtain ⟨v', hturn, hmirrors'⟩ :=
      hmirrors.next ((CalmRun.run hrun).reachable hm).good hmove
    refine ⟨v', hturn.run hv, hmirrors', hturn.clear hclear fun hc => ?_⟩
    rw [hmirrors.ongoing]
    exact hcalm (hmirrors.closed_iff.mpr hc)

theorem System.Custody.settled (hm : m.Custody) {x : Item Handle}
    (hx : (id, x) ∈ m.guards ∨ x.value ∈ m.gone) :
    (id, x) ∈ m.guards ∧ m.gone.count x.value = 0 ∨
      x.value ∉ m.held ∧ m.gone.count x.value = 1 := by
  have hplaced := hm.placed x.value
  have honce := hm.lawful.count_connected_le x.value
  rcases hx with hguard | hgone
  · have hheld : 0 < m.held.count x.value :=
      List.count_pos_iff.mpr (List.mem_map.mpr ⟨_, hguard, rfl⟩)
    exact .inl ⟨hguard, by omega⟩
  · have hpos := List.count_pos_iff.mpr hgone
    refine .inr ⟨fun hheld => ?_, by omega⟩
    have hheld := List.count_pos_iff.mpr hheld
    omega

/-- **A pool that is closed is emptied**, unless somebody evicts from it then. Once nobody is at
work in it, each handle it had is in a guard or has been disconnected, once. -/
theorem CalmRun.emptied (h : CalmRun id m m') (hm : Reachable m) {p : HandlePool}
    (hp : m.state.pools[id]? = some p) (hopen : ¬ m.Closed id) (hclosed : m'.Closed id) :
    (∃ p', m'.state.pools[id]? = some p' ∧
      (p'.pool.idle = [] ∨ ∃ f ∈ m'.inside id, f.isDraining = true)) ∧
    (m'.inside id = [] → ∀ x, m.Has id x →
      (id, x) ∈ m'.guards ∧ m'.gone.count x.value = 0 ∨
        x.value ∉ m'.held ∧ m'.gone.count x.value = 1) := by
  obtain ⟨w, hreach, hw⟩ := hm.mirror hp
  obtain ⟨w', hrun, hw', hclear⟩ :=
    h.mirror hm hw fun hc => absurd (hw.closed_iff.mpr hc) hopen
  have hemptied := hclear (hw'.closed_iff.mp hclosed)
  rw [hw'.ongoing] at hemptied
  refine ⟨?_, fun hrest x hx => ?_⟩
  · obtain ⟨p', hp', hpool⟩ := hw'.holds
    exact ⟨p', hp', hpool ▸ hemptied⟩
  · rw [hrest] at hemptied
    have hidle : w'.pool.idle = [] := hemptied.resolve_right (by simp)
    have hbalances := hrun.keeps (fun _ _ hmove hb => hb.next hmove) hreach.balances
    have hmade : x ∈ w'.made := hrun.made (hw.made hreach.balances hx)
    exact (h.run.reachable hm).custody.settled (hw'.placed hbalances hrest hidle hmade)

end emptied

/-! ### The theorem -/

section apart
variable {m m' : System} {k : Command} {i : Identity} {r : Result}

/-- Once the pools of an identity have been closed, what is borrowed for it was built later. -/
theorem Completes.borrows_new (h : Completes k m r m') (hm : Reachable m) (hk : k.Closes i)
    {m'' : System} {events : List Event} (hrun : Run m' m'')
    (hevents : m''.events = m'.events ++ events) {key : PoolKey} (hi : key.identity = i)
    {c : ContextId} {pool : Nat} {d : Pool.Command Handle} {x : Item Handle}
    (hselected : .returned (.select key c) (.selected pool) ∈ events)
    (hlent : .returned (.inPool pool d) (.pool (.lent x)) ∈ m''.events) : x.value ∉ m.built := by
  have hm' := h.run.reachable hm
  have hcleared := h.cleared hm hk
  obtain ⟨-, events', hevents', hnew⟩ := hrun.selects_new (i := i) hm' (h.run.older hm).length
    fun key id hi hget => Nat.le_of_not_lt fun hlt => hcleared key id hi hlt hget
  rw [hevents'] at hevents
  rw [← List.append_cancel_left hevents] at hselected
  exact (Run.fresh (h.run.trans hrun) hm).2 pool d x hlent (hnew key c pool hi hselected)

/-- The pools that an identity had are closed and out of the directory. -/
theorem Completes.closed (h : Completes k m r m') (hm : Reachable m) (hk : k.Closes i)
    {key : PoolKey} (hi : key.identity = i) {pool : Nat}
    (hpool : Keyed.get? m.state.directory key = some pool) :
    (∀ other, Keyed.get? m'.state.directory other ≠ some pool) ∧ m'.Closed pool := by
  obtain ⟨p, hp, hserves⟩ := hm.good.filed.served key pool hpool
  obtain ⟨p', hp', hsource, -⟩ := (h.run.older hm).pools pool p hp
  have hlt : pool < m.state.pools.length := (List.getElem?_eq_some_iff.mp hp).1
  have hgood := (h.run.reachable hm).good
  have hnone : ∀ other, Keyed.get? m'.state.directory other ≠ some pool := by
    intro other hother
    obtain ⟨p'', hp'', hserves'⟩ := hgood.filed.served other pool hother
    rw [hp'] at hp''
    cases hp''
    refine h.cleared hm hk other pool ?_ hlt hother
    rw [← hserves'.identity, hsource, hserves.identity, hi]
  exact ⟨hnone, p', hp', hgood.filed.closed pool p' hp' hnone⟩

/-- A handle outstanding at a closed pool is disconnected once its guard is dropped, exactly once,
and is in no pool ever again. -/
theorem Run.disconnects_dropped (h : Run m m') (hm : Reachable m) {id : Nat} (hc : m.Closed id)
    {x : Item Handle} (hx : (id, x) ∈ m.guards) :
    x.value ∉ m'.state.stock ∧
      ((id, x) ∈ m'.guards ∧ m'.milestones.count (.disconnected x.value) = 0 ∨
        x.value ∉ m'.held ∧ m'.milestones.count (.disconnected x.value) = 1) := by
  obtain ⟨p, hp, hc⟩ := hc
  have hcustody := (h.reachable hm).custody
  rcases h.dropped hm hp hc hx with hguard | hgone
  · obtain ⟨hnot, hstock⟩ := hcustody.guarded hguard
    exact ⟨hstock, .inl ⟨hguard, List.count_eq_zero.mpr hnot⟩⟩
  · obtain ⟨hheld, hstock⟩ := hcustody.departed hgone
    have honce := hcustody.lawful.count_disconnected_le x.value
    have hpos := List.count_pos_iff.mpr hgone
    exact ⟨hstock, .inr ⟨hheld, by omega⟩⟩

/-- **Old and new pools of an identity do not mix.** Let a command that closes the pools of an
identity, or of all, start in `m` and complete in `m'`, whatever other operations do meanwhile and
in between. Then

* no borrow for the identity that finds its pool later is lent a handle built before the command;
* every pool the identity had is closed and out of the directory;
* if only one identity is closed, no move of the command itself touches the pools of another one,
  their idle handles or what is outstanding;
* from the moment its pool is closed, an outstanding handle is in its guard and not disconnected, or
  out of it and disconnected once, and it is in no pool;
* if nobody evicts from it then, the queue of a pool is emptied when it is closed, and when nobody is
  at work in the pool any more, each handle it had is still in its guard or disconnected once;
* nothing built before the command gets into a pool founded after it. -/
theorem generations_apart (hm : Reachable m) (hk : k.Closes i) (hdone : Completes k m r m') :
    (∀ m'' events, Run m' m'' → m''.events = m'.events ++ events → ∀ channel c pool x,
      .returned (.select ⟨i, channel⟩ c) (.selected pool) ∈ events →
      .returned (.inPool pool .tryBorrow) (.pool (.lent x)) ∈ m''.events → x.value ∉ m.built) ∧
    (∀ channel pool, Keyed.get? m.state.directory ⟨i, channel⟩ = some pool →
      (∀ key, Keyed.get? m'.state.directory key ≠ some pool) ∧ m'.Closed pool) ∧
    (∀ c, k = .closeIdentity i ∨ k = .close i c → ∀ j, j ≠ i → ∀ n n', Reachable n →
      Acts k n n' → State.Spares j n.state n'.state ∧ n'.guards.Perm n.guards) ∧
    (∀ channel pool x, Keyed.get? m.state.directory ⟨i, channel⟩ = some pool →
      ∀ n n', Run m n → n.Closed pool → (pool, x) ∈ n.guards → Run n n' →
      x.value ∉ n'.state.stock ∧
        ((pool, x) ∈ n'.guards ∧ n'.milestones.count (.disconnected x.value) = 0 ∨
          x.value ∉ n'.held ∧ n'.milestones.count (.disconnected x.value) = 1)) ∧
    (∀ channel pool, Keyed.get? m.state.directory ⟨i, channel⟩ = some pool →
      ∀ n n', Run m n → ¬ n.Closed pool → CalmRun pool n n' → n'.Closed pool →
      (∃ p, n'.state.pools[pool]? = some p ∧
        (p.pool.idle = [] ∨ ∃ f ∈ n'.inside pool, f.isDraining = true)) ∧
      (n'.inside pool = [] → ∀ x, n.Has pool x →
        (pool, x) ∈ n'.guards ∧ n'.gone.count x.value = 0 ∨
          x.value ∉ n'.held ∧ n'.gone.count x.value = 1)) ∧
    (∀ n pool x, Run m n → m.state.pools.length ≤ pool → n.Has pool x → x.value ∉ m.built) := by
  refine ⟨fun m'' events hrun hevents channel c pool x hselected hlent => ?_,
    fun channel pool hpool => hdone.closed hm hk rfl hpool,
    fun c hone j hj n n' hn hacts => ?_,
    fun channel pool x _ n n' hrun hc hx hrun' => hrun'.disconnects_dropped (hrun.reachable hm) hc hx,
    fun channel pool hpool n n' hrun hopen hrun' hclosed => ?_,
    fun n pool x hrun hle hx => (hrun.fresh hm).1 pool x hx hle⟩
  · exact hdone.borrows_new hm hk hrun hevents rfl hselected hlent
  · have hconcerns : ¬ k.Concerns j := by
      rcases hone with rfl | rfl <;> exact fun h => hj h.symm
    have hgiven : k.given = [] := by rcases hone with rfl | rfl <;> rfl
    have hlent : ∀ next, lent k next = [] := by rcases hone with rfl | rfl <;> exact fun _ => rfl
    exact hacts.spares hn.good hconcerns hgiven hlent
  · obtain ⟨p, hp, -⟩ := hm.good.filed.served _ pool hpool
    obtain ⟨p', hp', -⟩ := (hrun.older hm).pools pool p hp
    exact hrun'.emptied (hrun.reachable hm) hp' hopen hclosed

end apart

/-! ### A handle that outlives its pool -/

/-- What a pool of an account is made with. -/
def accountSource : Source :=
  ⟨⟨"host", 22, "user", "secret"⟩, .sftp, .sftp, .ofMillis 5000, true⟩

def accountKey : PoolKey := ⟨accountSource.identity, .sftp⟩

/-- The handle of an account is lent. -/
def lentOut : System :=
  ((System.initial {} .faithful 0).connecting accountKey 0).connected accountSource 0 ⟨1, .sftp⟩

/-- Its pools were closed meanwhile. -/
def closedOff : System := lentOut.started (.closeIdentity accountSource.identity) lentOut.guards

/-- The account was borrowed for again. -/
def lentAgain : System :=
  (closedOff.connecting accountKey 1).connected accountSource 1 ⟨2, .sftp⟩

theorem reachable_lentOut : Reachable lentOut := by
  have hrun : Run (.initial {} .faithful 0) lentOut :=
    (run_connecting _ accountKey 0).trans
      (run_connected _ accountSource 0 ⟨1, .sftp⟩ rfl (by decide) rfl)
  exact hrun.reachable (.initial {} .faithful 0)

theorem run_lentAgain : Run closedOff lentAgain :=
  (run_connecting _ accountKey 1).trans
    (run_connected _ accountSource 1 ⟨2, .sftp⟩ rfl (by decide) rfl)

/-- The pools of the account are closed while its handle is lent; the account is borrowed for again
before the guard of the old handle is dropped. -/
theorem generations_apart_outstanding : ∃ (m m' m'' : System) (x y : Item Handle),
    Completes (.closeIdentity accountSource.identity) m (.counted 0) m' ∧ Run m' m'' ∧
    (0, x) ∈ m'.guards ∧ m''.guards = [(1, y)] ∧ y.value ∉ m.built ∧
    x.value ∉ m''.state.stock ∧ m''.milestones.count (.disconnected x.value) = 1 := by
  let x : Item Handle := ⟨0, 1, .sftp⟩
  let y : Item Handle := ⟨0, 2, .sftp⟩
  let dropped := lentAgain.started (.inPool 0 (.giveBack x)) [(1, y)]
  have hdone : Completes (.closeIdentity accountSource.identity) lentOut (.counted 0) closedOff :=
    .atOnce lentOut.guards (.counted 0) (.refl _) rfl
  have hrun : Run closedOff dropped :=
    run_lentAgain.tail (.start lentAgain _ [(1, y)] (.swap _ _ _))
  have hcloses : (Command.closeIdentity accountSource.identity).Closes accountSource.identity := rfl
  obtain ⟨hborrows, hclosed, -, hdropped, -⟩ := generations_apart reachable_lentOut hcloses hdone
  have hevents : lentAgain.events = closedOff.events ++
      [.returned (.select accountKey ⟨1⟩) (.selected 1),
        .called (.inPool 1 .tryBorrow) (.connect .sftp accountSource.identity (.ofMillis 5000)),
        .answered (.inPool 1 .tryBorrow) (.connect .sftp accountSource.identity (.ofMillis 5000))
          ⟨y.value, none⟩,
        .returned (.inPool 1 .tryBorrow) (.pool (.lent y))] := rfl
  have hnew := hborrows lentAgain _ run_lentAgain hevents .sftp ⟨1⟩ 1 y (.head _)
    (hevents ▸ List.mem_append_right _ (.tail _ (.tail _ (.tail _ (.head _)))))
  obtain ⟨hstock, hcount⟩ := hdropped .sftp 0 x rfl closedOff dropped hdone.run
    (hclosed .sftp 0 rfl).2 (.head _) hrun
  have hout : (0, x) ∉ dropped.guards := by
    show (0, x) ∉ [(1, y)]
    simp
  exact ⟨lentOut, closedOff, dropped, x, y, hdone, hrun, .head _, rfl, hnew, hstock,
    (hcount.resolve_left fun h => hout h.1).2⟩

end ConnectionLeasing.Pooled
