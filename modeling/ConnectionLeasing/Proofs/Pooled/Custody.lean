import ConnectionLeasing.Proofs.Pool.Custody
import ConnectionLeasing.Proofs.Pooled.Run

/-!
# Every handle is in one place

A handle of a pooled manager is in the queue of one pool, in the hands of one operation, in a guard,
or disconnected. `Step.Within` says of a step that it puts no handle in two places: between two
calls, handles only move between the hands of the operation and the queues of pools. It follows from
what is known of one pool, function by function.

* `System.Custody`: the invariant; `Custody.next`: every move keeps it.
* `Custody.lawful`: hence only open handles are lent and asked to disconnect.
-/

namespace ConnectionLeasing.Pooled

/-! ### Where handles are -/

/-- The idle handles of all pools. -/
def State.stock (s : State) : List Handle := s.pools.flatMap fun p => p.pool.items.map (·.value)

/-- The handles in the hands of a waiting operation. -/
def Frame.handles : Frame → List Handle
  | inPool _ _ f _ => f.items.map (·.value)
  | telling .. | ticking .. => []

/-- The handles in the hands of the operation, and the one it has lent. -/
def carried : Progress Frame Result → List Handle
  | .paused f => f.handles
  | .done (.pool r) => (Pool.lent (.done r)).map (·.value)
  | .done _ => []

/-- On the way from a state and the handles in hand to a step, no handle gets to one more place. -/
def Step.Within (step : Step) (s : State) (hand : List Handle) : Prop :=
  ∀ h, (carried step.2).count h + step.1.stock.count h ≤ hand.count h + s.stock.count h

theorem count_flatMap_modify {α : Type} {l : List α} {i : Nat} {a : α} (h : l[i]? = some a)
    (f : α → α) (g : α → List Handle) (x : Handle) :
    ((l.modify i f).flatMap g).count x + (g a).count x =
      (l.flatMap g).count x + (g (f a)).count x := by
  induction l generalizing i with
  | nil => cases h
  | cons b l ih =>
    cases i with
    | zero =>
      cases h
      simp only [List.modify_zero_cons, List.flatMap_cons, List.count_append]
      omega
    | succ i =>
      have ih := ih (i := i) h
      simp only [List.modify_succ_cons, List.flatMap_cons, List.count_append]
      omega

section steps
variable {s s' : State} {step : Step} {hand hand' : List Handle}

theorem Step.Within.of_count (h : step.Within s' hand')
    (hle : ∀ x, hand'.count x + s'.stock.count x ≤ hand.count x + s.stock.count x) :
    step.Within s hand := fun x => Nat.le_trans (h x) (hle x)

theorem Step.Within.of_pools (h : step.Within s' hand) (hpools : s'.pools = s.pools) :
    step.Within s hand := by
  refine h.of_count fun x => ?_
  rw [State.stock, hpools]
  exact Nat.le_refl _

theorem Step.Within.drop (h : step.Within s []) : step.Within s hand :=
  h.of_count fun _ => Nat.add_le_add_right (Nat.zero_le _) _

theorem within_idle (s : State) {next : Progress Frame Result} (hnext : carried next = []) :
    Step.Within (s, next) s [] := fun x =>
  Nat.le_of_eq (congrArg (fun l => l.count x + s.stock.count x) hnext)

theorem count_settle {id : Nat} {p : HandlePool} (hp : s.pools[id]? = some p)
    {step : Pool.Step Handle} {hand : List (Item Handle)}
    (hs : (step.items ++ step.pool.items).Perm (hand ++ p.pool.items)) (x : Handle) :
    (step.items.map (·.value)).count x + (s.settle id step).stock.count x =
      (hand.map (·.value)).count x + s.stock.count x := by
  have hmodify := count_flatMap_modify hp (fun p => { p with pool := step.pool })
    (fun p => p.pool.items.map (·.value)) x
  have hstep := (hs.map (·.value)).count_eq x
  dsimp only at hmodify
  simp only [List.map_append, List.count_append] at hstep
  simp only [State.stock, State.settle]
  omega

section settle
variable {id : Nat} {p : HandlePool} {pooled : Pool.Step Handle} {items : List (Item Handle)}

theorem within_paused (hp : s.pools[id]? = some p)
    (hs : (pooled.items ++ pooled.pool.items).Perm (items ++ p.pool.items)) {f : Pool.Frame Handle}
    (hf : pooled.next = .paused f) (source : Source) (after : AfterPool) :
    Step.Within (s.settle id pooled, .paused (.inPool id source f after)) s
      (items.map (·.value)) := by
  intro x
  have hcount := count_settle hp hs x
  simp only [Pool.Step.items, hf, Pool.left, Pool.lent, List.flatMap_singleton,
    List.append_nil] at hcount
  exact Nat.le_of_eq hcount

theorem within_done (hp : s.pools[id]? = some p)
    (hs : (pooled.items ++ pooled.pool.items).Perm (items ++ p.pool.items))
    {r : Pool.Result Handle} (hr : pooled.next = .done r) :
    Step.Within (s.settle id pooled, .done (.pool r)) s (items.map (·.value)) := by
  intro x
  have hcount := count_settle hp hs x
  simp only [Pool.Step.items, hr, Pool.left, List.flatMap_nil, List.nil_append] at hcount
  exact Nat.le_of_eq hcount

theorem Step.Within.settled (hp : s.pools[id]? = some p)
    (hs : (pooled.items ++ pooled.pool.items).Perm (items ++ p.pool.items))
    (h : step.Within (s.settle id pooled) []) : step.Within s (items.map (·.value)) := by
  refine h.of_count fun x => ?_
  rw [← count_settle hp hs x]
  exact Nat.add_le_add_right (Nat.zero_le _) _

end settle

/-! ### Closing and evicting -/

theorem within_finishClosing (s : State) (destroyed : Nat) (after : AfterClosing) :
    (finishClosing s destroyed after).Within s [] := by
  cases after <;> exact (within_idle _ rfl).of_pools rfl

theorem within_closeKeys (s : State) (after : AfterClosing) (destroyed : Nat)
    (keys : List PoolKey) : (closeKeys s after destroyed keys).Within s [] := by
  induction keys generalizing s destroyed with
  | nil => exact within_finishClosing s destroyed after
  | cons key keys ih =>
    rw [closeKeys]
    split
    · exact ih s destroyed
    · rename_i id p hkey
      obtain ⟨id', -, hp⟩ := Option.bind_eq_some_iff.mp hkey
      obtain ⟨p', hp, heq⟩ := Option.map_eq_some_iff.mp hp
      cases heq
      have hclose : (p.pool.close.items ++ p.pool.close.pool.items).Perm ([] ++ p.pool.items) :=
        (Pool.conserves_start p.pool 0 .close).items
      -- the place in the directory has nothing to do with the pool
      let without : State := { s with directory := Keyed.erase s.directory key }
      have hp : without.pools[id]? = some p := hp
      refine Step.Within.of_pools ?_ (rfl : without.pools = s.pools)
      dsimp only
      split
      · rename_i f hf
        exact within_paused hp hclose hf _ _
      · exact (ih _ _).settled hp hclose

theorem within_evictPools {now : Nat} {after : AfterEvicting} {k : State → Nat → Step}
    (hk : ∀ s n, (k s n).Within s []) (s : State) (evicted : Nat) (ids : List Nat) :
    (evictPools now after k s evicted ids).Within s [] := by
  induction ids generalizing s evicted with
  | nil =>
    rw [evictPools]
    refine (hk _ _).of_pools ?_
    split <;> rfl
  | cons id ids ih =>
    rw [evictPools]
    split
    · exact ih s evicted
    · rename_i p hp
      have hevict := (Pool.conserves_start p.pool now .evictIdle).items
      dsimp only
      split
      · rename_i f hf
        exact within_paused hp hevict hf _ _
      · exact (ih _ _).settled hp hevict

/-! ### Telling observers -/

@[simp] theorem pools_note (s : State) (n : Notice) : (s.note n).pools = s.pools := rfl

theorem pools_foldl_note {α : Type} (f : α → Notice) (l : List α) (s : State) :
    (l.foldl (fun s x => s.note (f x)) s).pools = s.pools := by
  induction l generalizing s with
  | nil => rfl
  | cons x l ih =>
    rw [List.foldl_cons, ih]
    rfl

@[simp] theorem pools_summarize (s : State) : s.summarize.pools = s.pools :=
  pools_foldl_note _ _ _

@[simp] theorem pools_summarizeFor (s : State) (i : Identity) :
    (s.summarizeFor i).pools = s.pools := pools_foldl_note _ _ _

theorem within_select (s : State) (key : PoolKey) : (select s key).Within s [] := by
  unfold select
  split
  · exact (within_idle _ rfl).of_pools rfl
  · split
    · exact within_idle _ rfl
    · intro x
      simp [carried, State.stock, State.note, HandlePool.ofKey, Pool.create, Pool.items]

theorem within_perform (s : State) (t : Telling) : (perform s t).Within s [] := by
  unfold perform
  split
  · exact within_select s _
  · exact (within_idle _ rfl).of_pools rfl
  · exact within_closeKeys s _ 0 _
  · exact within_idle _ rfl

theorem within_tell (t : Telling) (s : State) (observers : List Observer) :
    (tell t s observers).Within s [] := by
  induction observers generalizing s with
  | nil => exact within_perform s t
  | cons o observers ih =>
    cases o with
    | log => exact (ih _).of_pools (by simp)
    | inspector => exact (ih _).of_pools (by simp)
    | poolInspector => exact (ih _).of_pools (by simp)
    | recorder o => exact within_idle _ rfl

theorem within_tick (now : Nat) (s : State) (observers : List Observer) :
    (tick now s observers).Within s [] := by
  induction observers generalizing s with
  | nil => exact within_idle _ rfl
  | cons o observers ih =>
    cases o with
    | log => exact (ih _).of_pools (by simp)
    | inspector => exact within_evictPools (fun s _ => ih s) s 0 _
    | poolInspector => exact within_evictPools (fun s _ => ih s) s 0 _
    | recorder o =>
      rw [tick]
      split
      · exact within_idle _ rfl
      · exact ih s

/-! ### The machine -/

theorem within_continue (now : Nat) (after : AfterEvicting) (s : State) (n : Nat) :
    (after.continue now s n).Within s [] := by
  cases after with
  | counted => exact within_idle _ rfl
  | tick observers => exact within_tick now s observers

theorem within_afterStep {id : Nat} {p : HandlePool} {pooled : Pool.Step Handle}
    {items : List (Item Handle)} (hp : s.pools[id]? = some p)
    (hs : (pooled.items ++ pooled.pool.items).Perm (items ++ p.pool.items)) (now : Nat)
    (source : Source) (after : AfterPool) :
    (afterStep s now id source after pooled).Within s (items.map (·.value)) := by
  unfold afterStep
  dsimp only
  split
  · rename_i f hf
    exact within_paused hp hs hf source after
  · rename_i r hr
    cases after with
    | caller => exact within_done hp hs hr
    | closing keys destroyed after => exact (within_closeKeys _ after _ keys).settled hp hs
    | evicting ids evicted after =>
      exact (within_evictPools (within_continue now after) _ _ ids).settled hp hs

theorem within_resumeInPool {f : Pool Handle → Pool.Step Handle} {hand : List Handle}
    (hf : ∀ p, ∃ items : List (Item Handle), items.map (·.value) = hand ∧
      ((f p).items ++ (f p).pool.items).Perm (items ++ p.items)) (s : State) (now id : Nat)
    (source : Source) (after : AfterPool) :
    (resumeInPool s now id source after f).Within s hand := by
  unfold resumeInPool
  split
  · exact (within_idle _ rfl).drop
  · rename_i p hp
    obtain ⟨items, rfl, hs⟩ := hf p.pool
    exact within_afterStep hp hs now source after

theorem within_start (s : State) (now : Nat) (k : Command) :
    (start s now k).Within s (k.given.map (·.2.value)) := by
  cases k with
  | select key c => exact within_tell _ s _
  | release i c => exact within_tell _ s _
  | close i c => exact within_tell _ s _
  | tell a => exact within_tell _ s _
  | tick => exact within_tick now s _
  | closeIdentity i => exact within_closeKeys s _ 0 _
  | closeAll => exact within_closeKeys s _ 0 _
  | evictIdle => exact within_evictPools (within_continue now _) s 0 _
  | shutDown => exact within_closeKeys s _ 0 _
  | inPool id command =>
    rw [start]
    split
    · exact (within_idle _ rfl).drop
    · rename_i p hp
      have hstart := (Pool.conserves_start p.pool now command).items
      have hgiven : (Command.inPool id command).given.map (·.2.value) =
          command.items.map (·.value) := by
        cases command <;> rfl
      rw [hgiven]
      exact within_afterStep hp hstart now p.source .caller

/-- The handles in hand once a call is answered. -/
def Frame.handed : (f : Frame) → f.call.Answer → List Handle
  | inPool _ _ .creating _, c => if c.failure.isNone then [c.handle] else []
  | inPool _ _ (.checking c) _, _ => c.items.map (·.value)
  | inPool _ _ (.destroying _ d) _, _ => d.items.map (·.value)
  | telling .., _ | ticking .., _ => []

theorem within_resume (s : State) (now : Nat) (f : Frame) (a : f.call.Answer) :
    (resume s now f a).Within s (f.handed a) := by
  cases f with
  | telling o observers t => exact within_tell t s observers
  | ticking o observers => exact within_tick now s observers
  | inPool id source f after =>
    cases f with
    | creating =>
      obtain ⟨h, failure⟩ := a
      cases failure with
      | some e =>
        refine within_resumeInPool (fun p => ⟨[], rfl, ?_⟩) s now id source after
        exact (Pool.conserves_finish _ _ _ rfl).items
      | none =>
        refine Step.Within.of_pools (within_resumeInPool (fun p => ⟨[⟨p.nextId, h⟩], rfl, ?_⟩) _
          now id source after) ?_
        · exact (Pool.conserves_finish _ _ _ rfl).items
        · show (if source.reported then _ else s).pools = s.pools
          split <;> rfl
    | checking c =>
      refine within_resumeInPool (fun p => ⟨c.items, rfl, ?_⟩) s now id source after
      exact (Pool.conserves_resumeChecking p now a c).items
    | destroying x d =>
      refine Step.Within.of_pools (within_resumeInPool (fun p => ⟨d.items, rfl, ?_⟩) _ now id
        source after) ?_
      · exact (Pool.conserves_resumeDestroying p.bookDestroyed d).items
      · cases a with
        | none => rfl
        | some e =>
          show (if source.reported then _ else s).pools = s.pools
          split <;> rfl

end steps

/-! ### Systems -/

theorem count_handed (k : Command) (f : Frame) (a : f.call.Answer) (h : Handle) :
    (f.handed a).count h + ([Event.answered k f.call a].filterMap Event.gone?).count h =
      f.handles.count h +
        ([Event.answered k f.call a].filterMap Event.milestone?).count (.connected h) := by
  cases f with
  | telling o observers t => rfl
  | ticking o observers => rfl
  | inPool id source f after =>
    cases f with
    | creating =>
      obtain ⟨h', failure⟩ := a
      cases failure with
      | some e => rfl
      | none =>
        show [h'].count h + 0 = 0 + [Milestone.connected h'].count (.connected h)
        simp [List.count_singleton]
    | checking c => rfl
    | destroying x d =>
      show (d.items.map (·.value)).count h + [x.value].count h =
        (x.value :: d.items.map (·.value)).count h + 0
      simp only [List.count_cons, List.count_nil]
      omega

namespace System

/-- The handles in the hands of operations in progress. -/
def hands (m : System) : List Handle := m.ongoing.flatMap (·.frame.handles)

/-- The handles in guards. -/
def held (m : System) : List Handle := m.guards.map (·.2.value)

/-- The handle was disconnected, or is being disconnected by one of the operations. -/
def Gone (m : System) (ongoing : List Ongoing) (h : Handle) : Prop :=
  h ∈ m.gone ∨ ∃ o ∈ ongoing, o.frame.call = .disconnect h

/-- Every handle is in one place at most. -/
structure Custody (m : System) : Prop where
  placed : ∀ h, m.gone.count h + m.hands.count h + m.held.count h + m.state.stock.count h ≤
    m.milestones.count (.connected h)
  gone : ∀ h, .disconnected h ∈ m.milestones → m.Gone m.ongoing h
  lawful : Lawful m.milestones

section moves
variable {m m' : System} {k : Command} {seen : List Event} {rest : List Ongoing}
  {guards : List (Nat × Item Handle)} {step : Step} {hand : List Handle}

theorem gone_moved : (m.moved k seen rest guards step).gone =
    m.gone ++ seen.filterMap Event.gone? := by
  have hshown : (shown k step.2).gone? = none := by
    cases step.2 <;> rfl
  simp [gone, moved, hshown]

theorem milestones_moved : (m.moved k seen rest guards step).milestones =
    m.milestones ++ seen.filterMap Event.milestone? ++ (shown k step.2).milestone?.toList := by
  cases h : (shown k step.2).milestone? <;> simp [milestones, moved, h]

theorem count_left (k : Command) (next : Progress Frame Result) (h : Handle) :
    ((left k next).flatMap (·.frame.handles)).count h + ((lent k next).map (·.2.value)).count h ≤
      (carried next).count h := by
  cases next with
  | paused f => simp [left, lent, carried]
  | done r =>
    cases r with
    | pool r => cases k <;> cases r <;> simp [left, lent, carried, Pool.lent]
    | selected | refused | counted | told => simp [left, lent, carried]

theorem shown_cases (k : Command) (next : Progress Frame Result) :
    (shown k next).milestone? = none ∨
      ∃ h ∈ carried next, (shown k next).milestone? = some (.lent h) ∨
        (shown k next).milestone? = some (.disconnected h) := by
  cases next with
  | paused f =>
    cases f with
    | telling | ticking => exact .inl rfl
    | inPool id source f after =>
      cases f with
      | creating | checking => exact .inl rfl
      | destroying x d => exact .inr ⟨x.value, List.mem_cons_self, .inr rfl⟩
  | done r =>
    cases r with
    | pool r =>
      cases r with
      | lent x => exact .inr ⟨x.value, List.mem_cons_self, .inl rfl⟩
      | exhausted | failed | returned | evicted | closed => exact .inl rfl
    | selected | refused | counted | told => exact .inl rfl

theorem shown_disconnected {next : Progress Frame Result} {h : Handle}
    (hs : (shown k next).milestone? = some (.disconnected h)) :
    ∃ f, next = .paused f ∧ f.call = .disconnect h := by
  cases next with
  | paused f =>
    cases f with
    | telling | ticking => cases hs
    | inPool id source f after =>
      cases f with
      | creating | checking => cases hs
      | destroying x d =>
        cases hs
        exact ⟨_, rfl, rfl⟩
  | done r =>
    cases r with
    | pool r => cases r <;> cases hs
    | selected | refused | counted | told => cases hs

theorem mem_handles {f : Frame} {h : Handle} (hf : f.call = .disconnect h) : h ∈ f.handles := by
  cases f with
  | telling | ticking => cases hf
  | inPool id source f after =>
    cases f with
    | creating | checking => cases hf
    | destroying x d =>
      cases hf
      exact List.mem_cons_self

theorem Custody.moved (hwithin : step.Within m.state hand)
    (hplaced : ∀ h, (m.gone ++ seen.filterMap Event.gone?).count h + hand.count h +
      (rest.flatMap (·.frame.handles)).count h + (guards.map (·.2.value)).count h +
      m.state.stock.count h ≤
        (m.milestones ++ seen.filterMap Event.milestone?).count (.connected h))
    (hgone : ∀ h, .disconnected h ∈ m.milestones ++ seen.filterMap Event.milestone? →
      (m.moved k seen rest guards step).Gone rest h)
    (hl : Lawful (m.milestones ++ seen.filterMap Event.milestone?)) :
    (m.moved k seen rest guards step).Custody := by
  have hall : ∀ h, (m.moved k seen rest guards step).gone.count h + (carried step.2).count h +
      (rest.flatMap (·.frame.handles)).count h + (guards.map (·.2.value)).count h +
      step.1.stock.count h ≤
        (m.milestones ++ seen.filterMap Event.milestone?).count (.connected h) := by
    intro h
    have hwithin := hwithin h
    have hplaced := hplaced h
    rw [gone_moved]
    omega
  refine ⟨fun h => ?_, fun h hmem => ?_, ?_⟩
  · have hall := hall h
    have hleft := count_left k step.2 h
    have hhands : (m.moved k seen rest guards step).hands =
        (left k step.2).flatMap (·.frame.handles) ++ rest.flatMap (·.frame.handles) :=
      List.flatMap_append
    have hheld : (m.moved k seen rest guards step).held =
        (lent k step.2).map (·.2.value) ++ guards.map (·.2.value) := List.map_append
    rw [hhands, hheld, milestones_moved, List.count_append, List.count_append, List.count_append]
    have hstate : (m.moved k seen rest guards step).state = step.1 := rfl
    rw [hstate]
    omega
  · rw [milestones_moved] at hmem
    rcases List.mem_append.mp hmem with hmem | hmem
    · exact (hgone h hmem).imp_right fun ⟨o, ho, hcall⟩ => ⟨o, List.mem_append_right _ ho, hcall⟩
    · obtain ⟨f, hf, hcall⟩ := shown_disconnected (Option.mem_toList.mp hmem)
      refine .inr ⟨⟨k, f⟩, List.mem_append_left _ ?_, hcall⟩
      rw [hf]
      exact List.mem_singleton_self _
  · have hopen : ∀ h ∈ carried step.2,
        Opened (m.milestones ++ seen.filterMap Event.milestone?) h := by
      intro h hmem
      have hcarried := List.count_pos_iff.mpr hmem
      have hall := hall h
      have honce := hl.count_connected_le h
      refine ⟨List.count_pos_iff.mp (by omega), fun hdisconnected => ?_⟩
      -- the handle would be in two places
      rcases hgone h hdisconnected with hgone | ⟨o, ho, hcall⟩
      · have hpos := List.count_pos_iff.mpr hgone
        omega
      · have hrest : h ∈ rest.flatMap (·.frame.handles) :=
          List.mem_flatMap.mpr ⟨o, ho, mem_handles hcall⟩
        have hpos := List.count_pos_iff.mpr hrest
        omega
    rw [milestones_moved]
    rcases shown_cases k step.2 with hnone | ⟨h, hmem, hlent | hdisconnected⟩
    · rwa [hnone, Option.toList_none, List.append_nil]
    · rw [hlent]
      exact .lend h hl (hopen h hmem)
    · rw [hdisconnected]
      exact .disconnect h hl (hopen h hmem)

theorem built_iff {h : Handle} : h ∈ m.built ↔ Begun m.milestones h := by
  simp only [milestones, built, Begun, List.mem_filterMap, ← exists_or, ← and_or_left]
  refine exists_congr fun e => and_congr_right fun _ => ?_
  cases e with
  | called k call => cases call <;> simp [Event.milestone?, Event.built?]
  | answered k call a =>
    cases call with
    | connect channel i timeout =>
      cases hf : a.failure <;> simp [Event.milestone?, Event.built?, Connected.milestone, hf]
    | visit | tick | check | disconnect => simp [Event.milestone?, Event.built?]
  | returned k r =>
    cases r with
    | pool r => cases r <;> simp [Event.milestone?, Event.built?]
    | selected | refused | counted | told => simp [Event.milestone?, Event.built?]

theorem lawful_answered (hl : Lawful m.milestones) {call : Call} {a : call.Answer}
    (ha : m.Admits call a) :
    Lawful (m.milestones ++ [Event.answered k call a].filterMap Event.milestone?) := by
  cases call with
  | connect channel i timeout =>
    refine lawful_answer hl fun hbegun => ?_
    exact ha.1 (built_iff.mpr hbegun)
  | visit | tick | check | disconnect =>
    rw [show [Event.answered k _ a].filterMap Event.milestone? = [] from rfl, List.append_nil]
    exact hl

theorem not_mem_answered {call : Call} (a : call.Answer) (h : Handle) :
    .disconnected h ∉ [Event.answered k call a].filterMap Event.milestone? := by
  cases call with
  | connect channel i timeout => cases hf : a.failure <;>
      simp [Event.milestone?, Connected.milestone, hf]
  | visit | tick | check | disconnect => simp [Event.milestone?]

theorem mem_gone_answered {call : Call} (a : call.Answer) {h : Handle}
    (hcall : call = .disconnect h) : h ∈ [Event.answered k call a].filterMap Event.gone? := by
  subst hcall
  exact List.mem_singleton_self h

theorem handles_of_tells {f : Frame} (hf : f.call.tells) : f.handles = [] := by
  cases f with
  | telling | ticking => rfl
  | inPool id source f after => cases f <;> cases hf

theorem count_hands {before later : List Ongoing} {o : Ongoing}
    (hm : m.ongoing = before ++ o :: later) (h : Handle) :
    m.hands.count h =
      o.frame.handles.count h + ((before ++ later).flatMap (·.frame.handles)).count h := by
  rw [hands, hm]
  simp only [List.flatMap_append, List.flatMap_cons, List.count_append]
  omega

theorem mem_ongoing {before later : List Ongoing} {o p : Ongoing}
    (hm : m.ongoing = before ++ o :: later) (hp : p ∈ m.ongoing) : p = o ∨ p ∈ before ++ later := by
  rw [hm] at hp
  rcases List.mem_append.mp hp with hp | hp
  · exact .inr (List.mem_append_left _ hp)
  · exact (List.mem_cons.mp hp).imp_right (List.mem_append_right _)

/-- **Every move leaves every handle in one place at most.** -/
theorem Custody.next (hm : m.Custody) (hmove : Moves m m') : m'.Custody := by
  cases hmove with
  | start k guards hk =>
    refine Custody.moved (within_start m.state m.now k) (fun h => ?_) (fun h hmem => ?_) ?_
    · have hplaced := hm.placed h
      have hguards := (hk.map (·.2.value)).count_eq h
      simp only [List.map_append, List.count_append] at hguards
      simp only [List.filterMap_nil, List.append_nil, held, hands] at hplaced ⊢
      omega
    · rw [List.filterMap_nil, List.append_nil] at hmem
      rw [Gone, gone_moved, List.filterMap_nil, List.append_nil]
      exact hm.gone h hmem
    · rw [List.filterMap_nil, List.append_nil]
      exact hm.lawful
  | resume before o later a hongoing ha =>
    refine Custody.moved (within_resume m.state m.now o.frame a) (fun h => ?_) (fun h hmem => ?_)
      (lawful_answered hm.lawful ha)
    · have hplaced := hm.placed h
      have hhanded := count_handed o.command o.frame a h
      rw [count_hands hongoing, held] at hplaced
      rw [List.count_append, List.count_append]
      omega
    · have hbefore : .disconnected h ∈ m.milestones :=
        (List.mem_append.mp hmem).resolve_right (not_mem_answered a h)
      rw [Gone, gone_moved]
      rcases hm.gone h hbefore with hgone | ⟨p, hp, hcall⟩
      · exact .inl (List.mem_append_left _ hgone)
      · rcases mem_ongoing hongoing hp with rfl | hp
        -- its disconnect is through now
        · exact .inl (List.mem_append_right _ (mem_gone_answered a hcall))
        · exact .inr ⟨p, hp, hcall⟩
  | fail before o later hongoing ho =>
    refine ⟨fun h => ?_, fun h hmem => ?_, hm.lawful⟩
    · have hplaced := hm.placed h
      rw [count_hands hongoing, handles_of_tells ho] at hplaced
      refine Nat.le_trans (Nat.le_of_eq ?_) hplaced
      rw [List.count_nil, Nat.zero_add]
      rfl
    · rcases hm.gone h hmem with hgone | ⟨p, hp, hcall⟩
      · exact .inl hgone
      · rcases mem_ongoing hongoing hp with rfl | hp
        · rw [hcall] at ho
          cases ho
        · exact .inr ⟨p, hp, hcall⟩
  | attach o => exact ⟨hm.placed, hm.gone, hm.lawful⟩
  | pass t ht => exact ⟨hm.placed, hm.gone, hm.lawful⟩

end moves

end System

theorem Reachable.custody {m : System} (hm : Reachable m) : m.Custody := by
  induction hm with
  | initial settings factory now =>
    refine ⟨fun h => ?_, fun h hmem => ?_, .nil⟩
    · exact Nat.zero_le _
    · cases hmem
  | next _ hmove ih => exact ih.next hmove

end ConnectionLeasing.Pooled
