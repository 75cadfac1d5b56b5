import ConnectionLeasing.Proofs.Origin
import ConnectionLeasing.Proofs.Pool.Episode
import ConnectionLeasing.Proofs.Pooled.Custody
import ConnectionLeasing.Proofs.Pooled.Growing

/-!
# A pool among others is a pool

Whatever a manager does with its pools, each of them goes through a run of its own, and what is
known of all runs of a pool is known of it. `Mirrors` relates a manager to such a run: the pool, the
operations at work in it and its guards are the same, and what was destroyed was disconnected. In
the course of one move of the manager a pool makes a `Turn`: it starts an operation, goes on with
one, or does nothing; and it is closed or evicted from when an operation of the manager comes by.

* `Mirrors.next`: every move of the manager is a turn of each of its pools.
* `Reachable.mirror`: every pool of a manager is a pool in a run.
* `Turn.clear`: closed outside an eviction, a pool is emptied.
-/

namespace ConnectionLeasing

namespace Pool

variable {α : Type} {w w' : System α}

/-! ### The turn of a pool -/

/-- The manager comes by. -/
def Visited (w w' : System α) : Prop :=
  ∃ k : Command α, (k = .close ∨ k = .evictIdle) ∧ w' = w.started k w.guards

abbrev Visits : System α → System α → Prop := Relation.ReflTransGen Visited

/-- What happens to a pool in the course of one move of its manager. -/
inductive Turn (w : System α) : System α → Prop
  | visits {w' : System α} (h : Visits w w') : Turn w w'
  | pass (t : Nat) (h : w.now ≤ t) : Turn w { w with now := t }
  | start (k : Command α) (guards : List (Item α)) (hk : w.guards.Perm (k.items ++ guards))
      {w' : System α} (h : Visits (w.started k guards) w') : Turn w w'
  | resume (before : List (Frame α)) (f : Frame α) (later : List (Frame α))
      (a : f.callback.Answer) (hw : w.ongoing = before ++ f :: later) {w' : System α}
      (h : Visits (w.resumed f a (before ++ later)) w') : Turn w w'

theorem lent_of_errand {next : Progress (Frame α) (Result α)} (h : errand next ≠ .borrow) :
    lent next = [] := by
  cases next with
  | paused f => rfl
  | done r =>
    cases r with
    | lent x => exact absurd rfl h
    | exhausted | failed | returned | evicted | closed => rfl

theorem errand_visit (p : Pool α) (now : Nat) {k : Command α} (hk : k = .close ∨ k = .evictIdle) :
    errand (start p now k).next ≠ .borrow := by
  rw [← Step.errand, errand_start]
  rcases hk with rfl | rfl <;> simp [Command.errand]

theorem Visits.keeps (h : Visits w w') :
    w'.now = w.now ∧ w'.guards = w.guards ∧ w'.destroyed = w.destroyed := by
  induction h with
  | refl => exact ⟨rfl, rfl, rfl⟩
  | @tail v _ _ hvisited ih =>
    obtain ⟨k, hk, rfl⟩ := hvisited
    obtain ⟨hnow, hguards, hdestroyed⟩ := ih
    refine ⟨hnow, ?_, ?_⟩
    · show lent (start v.pool v.now k).next ++ v.guards = _
      rw [lent_of_errand (errand_visit _ _ hk)]
      exact hguards
    · rw [System.started, System.destroyed_moved]
      exact (List.append_nil _).trans hdestroyed

theorem Visits.run {v : System α} (h : Visits w w') (hrun : Run .any v w) : Run .any v w' := by
  induction h with
  | refl => exact hrun
  | tail _ hvisited ih =>
    obtain ⟨k, hk, rfl⟩ := hvisited
    refine ih.next (.start _ k _ ?_ trivial)
    rcases hk with rfl | rfl <;> exact .refl _

theorem Turn.run {v : System α} (h : Turn w w') (hrun : Run .any v w) : Run .any v w' := by
  cases h with
  | visits h => exact h.run hrun
  | pass t ht => exact hrun.next (.pass w t ht)
  | start k guards hk h => exact h.run (hrun.next (.start w k guards hk trivial))
  | resume before f later a hw h => exact h.run (hrun.next (.resume w before f later a hw nofun))

theorem Run.made {R : Regime α} (h : Run R w w') {x : Item α} (hx : x ∈ w.made) : x ∈ w'.made := by
  refine h.keeps (P := fun w => x ∈ w.made) (fun m m' hmove hx => ?_) hx
  cases hmove with
  | start | resume => exact System.made_moved ▸ List.mem_append_left _ hx
  | pass => exact hx

/-! ### Emptying a closed pool -/

/-- If the pool is closed its queue is empty, or somebody empties it. -/
def System.Clear (w : System α) : Prop :=
  w.pool.closed = true → w.pool.idle = [] ∨ ∃ f ∈ w.ongoing, f.isDraining = true

theorem System.Clear.moved {seen : Progress (Frame α) (Result α) → Event α}
    {rest : List (Frame α)} {guards : List (Item α)} {step : Step α}
    (h : step.pool.closed = true → step.Clears ∨ ∃ f ∈ rest, f.isDraining = true) :
    (w.moved seen rest guards step).Clear := by
  intro hclosed
  rcases h hclosed with (hidle | ⟨f, hf, hdrain⟩) | ⟨f, hf, hdrain⟩
  · exact .inl hidle
  · exact .inr ⟨f, List.mem_append_left _ hf, hdrain⟩
  · exact .inr ⟨f, List.mem_append_right _ hf, hdrain⟩

theorem System.Clear.started (hw : w.Clear) (k : Command α) (guards : List (Item α)) :
    (w.started k guards).Clear := by
  refine .moved fun hclosed => ?_
  by_cases hk : k = .close
  · subst hk
    exact .inl (clears_drain _ 0 .close)
  · rw [(stays_start w.pool w.now hk).closed] at hclosed
    exact (hw hclosed).imp_left (clears_start w.now k hclosed)

theorem System.Clear.resumed (hw : w.Clear) {before later : List (Frame α)} {f : Frame α}
    (hongoing : w.ongoing = before ++ f :: later)
    (hcalm : w.pool.closed = true → f.isEvicting = false) (a : f.callback.Answer) :
    (w.resumed f a (before ++ later)).Clear := by
  refine .moved fun hclosed => ?_
  rw [(stays_resume w.pool w.now f a).closed] at hclosed
  have hf := hcalm hclosed
  rcases hw hclosed with hidle | ⟨g, hg, hdrain⟩
  · exact .inl (clears_resume w.now a hclosed hf (.inl hidle))
  · -- the operation that goes on, or one of the others
    rw [hongoing] at hg
    rcases List.mem_append.mp hg with hg | hg
    · exact .inr ⟨g, List.mem_append_left _ hg, hdrain⟩
    · rcases List.mem_cons.mp hg with rfl | hg
      · exact .inl (clears_resume w.now a hclosed hf (.inr hdrain))
      · exact .inr ⟨g, List.mem_append_right _ hg, hdrain⟩

theorem Visits.clear (h : Visits w w') (hw : w.Clear) : w'.Clear := by
  induction h with
  | refl => exact hw
  | tail _ hvisited ih =>
    obtain ⟨k, -, rfl⟩ := hvisited
    exact ih.started k _

/-- **A closed pool in which nobody evicts is emptied.** -/
theorem Turn.clear (h : Turn w w') (hw : w.Clear)
    (hcalm : w.pool.closed = true → ∀ f ∈ w.ongoing, f.isEvicting = false) : w'.Clear := by
  cases h with
  | visits h => exact h.clear hw
  | pass t ht => exact hw
  | start k guards hk h => exact h.clear (hw.started k guards)
  | resume before f later a hongoing h =>
    have hf : f ∈ w.ongoing := hongoing ▸ List.mem_append_right _ List.mem_cons_self
    exact h.clear (hw.resumed hongoing (fun hc => hcalm hc f hf) a)

end Pool

namespace Pooled

/-! ### One of the pools -/

/-- The operation on pool number `id` that waits in a frame, if any. -/
def Frame.inside? (id : Nat) : Frame → Option (Pool.Frame Handle)
  | inPool j _ f _ => if j = id then some f else none
  | telling .. | ticking .. => none

/-- The operations that are at work in pool number `id`. -/
def System.inside (m : System) (id : Nat) : List (Pool.Frame Handle) :=
  m.ongoing.filterMap (·.frame.inside? id)

/-- The object that a guard gives back to pool number `id`, if it does. -/
def guarded? (id : Nat) (g : Nat × Item Handle) : Option (Item Handle) :=
  if g.1 = id then some g.2 else none

/-- An operation of the manager that comes by a pool does not borrow from it. -/
def AfterPool.Fits (errand : Pool.Errand) : AfterPool → Prop
  | caller => True
  | closing .. | evicting .. => errand ≠ .borrow

def Frame.Fits : Frame → Prop
  | inPool _ _ f after => after.Fits f.errand
  | telling .. | ticking .. => True

/-- Pool number `id` is the one of `w`. -/
def State.Holds (s : State) (id : Nat) (w : Pool.System Handle) : Prop :=
  ∃ p, s.pools[id]? = some p ∧ p.pool = w.pool

/-- Pool number `id` of the manager is in the run of a pool that has got to `w`. -/
structure Mirrors (id : Nat) (m : System) (w : Pool.System Handle) : Prop where
  holds : m.state.Holds id w
  now : w.now = m.now
  ongoing : w.ongoing = m.inside id
  guards : w.guards.Perm (m.guards.filterMap (guarded? id))
  destroyed : ∀ x ∈ w.destroyed, x.value ∈ m.gone
  fits : ∀ o ∈ m.ongoing, (o.frame.inside? id).isSome → o.frame.Fits

/-- A step leaves pool number `id` as it is in `w`, where `rest` are the other operations in it and
`guards` its other guards. -/
structure Step.Shows (id : Nat) (k : Command) (rest : List (Pool.Frame Handle))
    (guards : List (Item Handle)) (w : Pool.System Handle) (step : Step) : Prop where
  holds : step.1.Holds id w
  ongoing : w.ongoing = (left k step.2).filterMap (·.frame.inside? id) ++ rest
  guards : w.guards = (lent k step.2).filterMap (guarded? id) ++ guards
  fits : ∀ f, step.2 = .paused f → (f.inside? id).isSome → f.Fits

/-- What a step does with pool number `id` from `w` on are visits. -/
def Step.Mirrored (id : Nat) (k : Command) (w : Pool.System Handle) (step : Step) : Prop :=
  ∃ w', Pool.Visits w w' ∧ step.Shows id k w.ongoing w.guards w'

/-- Pool number `id` is the one of `w` after a step in pool number `j` that ends with `next`. -/
structure State.Worked (s : State) (id j : Nat)
    (next : Progress (Pool.Frame Handle) (Pool.Result Handle)) (rest : List (Pool.Frame Handle))
    (guards : List (Item Handle)) (w : Pool.System Handle) : Prop where
  holds : s.Holds id w
  ongoing : w.ongoing = (if j = id then Pool.left next else []) ++ rest
  guards : w.guards = (if j = id then Pool.lent next else []) ++ guards

section steps
variable {id j now : Nat} {k : Command} {s s' : State} {step : Step} {w w' : Pool.System Handle}
  {rest : List (Pool.Frame Handle)} {guards : List (Item Handle)}

theorem State.Holds.noted (h : s.Holds id w) (hs : s.Noted s') : s'.Holds id w := by
  obtain ⟨journal, rfl⟩ := hs
  exact h

theorem lent_eq_nil {next : Progress Frame Result} (h : ∀ r, next ≠ .done (.pool r)) :
    lent k next = [] := by
  unfold lent
  split
  · exact absurd rfl (h _)
  · rfl

theorem lent_paused (k : Command) (f : Frame) : lent k (.paused f) = [] :=
  lent_eq_nil fun _ h => nomatch h

theorem mirrored_done (hs : s.Holds id w) {r : Result} (hr : ∀ x, r ≠ .pool x) :
    Step.Mirrored id k w (s, .done r) := by
  have hlent : lent k (.done r) = [] := lent_eq_nil fun x h => hr x (Progress.done.inj h)
  exact ⟨w, .refl, hs, rfl, by rw [hlent]; rfl, fun _ h => by cases h⟩

theorem mirrored_paused (hs : s.Holds id w) {f : Frame} (hf : f.inside? id = none) :
    Step.Mirrored id k w (s, .paused f) := by
  refine ⟨w, .refl, hs, ?_, ?_, fun g hg hinside => ?_⟩
  · simp [left, hf]
  · rw [lent_paused]
    rfl
  · cases hg
    rw [hf] at hinside
    cases hinside

theorem Step.Mirrored.after (hvisits : Pool.Visits w w') (hongoing : w'.ongoing = w.ongoing)
    (h : step.Mirrored id k w') : step.Mirrored id k w := by
  obtain ⟨v, hv, hshows⟩ := h
  rw [hongoing, hvisits.keeps.2.1] at hshows
  exact ⟨v, hvisits.trans hv, hshows⟩

theorem worked_moved {p : HandlePool} (hp : s.pools[id]? = some p) (pooled : Pool.Step Handle)
    (w : Pool.System Handle)
    (seen : Progress (Pool.Frame Handle) (Pool.Result Handle) → Pool.Event Handle)
    (rest : List (Pool.Frame Handle)) (guards : List (Item Handle)) :
    (s.settle id pooled).Worked id id pooled.next rest guards (w.moved seen rest guards pooled) where
  holds := ⟨_, State.pools_settle_self hp, rfl⟩
  ongoing := by
    rw [if_pos rfl]
    rfl
  guards := by
    rw [if_pos rfl]
    rfl

theorem State.Holds.elsewhere (hs : s.Holds id w) (hj : j ≠ id) (pooled : Pool.Step Handle) :
    (s.settle j pooled).Worked id j pooled.next w.ongoing w.guards w := by
  obtain ⟨p, hp, hpool⟩ := hs
  refine ⟨⟨p, ?_, hpool⟩, by rw [if_neg hj]; rfl, by rw [if_neg hj]; rfl⟩
  rw [State.pools_settle_of_ne hj]
  exact hp

/-- The manager comes by a pool, which may be this one. -/
theorem State.Holds.visit (hs : s.Holds id w) {p : HandlePool} (hp : s.pools[j]? = some p)
    {c : Pool.Command Handle} (hc : c = .close ∨ c = .evictIdle) :
    ∃ w', Pool.Visits w w' ∧ (s.settle j (p.pool.start w.now c)).Worked id j
      (p.pool.start w.now c).next w.ongoing w.guards w' ∧
      Pool.errand (p.pool.start w.now c).next ≠ .borrow := by
  have herrand := Pool.errand_visit p.pool w.now hc
  by_cases hj : j = id
  · subst hj
    obtain ⟨q, hq, hpool⟩ := hs
    obtain rfl := Option.some.inj (hp.symm.trans hq)
    rw [hpool] at herrand ⊢
    exact ⟨w.started c w.guards, .single ⟨c, hc, rfl⟩, worked_moved hp _ _ _ _ _, herrand⟩
  · exact ⟨w, .refl, hs.elsewhere hj _, herrand⟩

theorem State.Worked.paused {f : Pool.Frame Handle} (h : s.Worked id j (.paused f) rest guards w)
    {after : AfterPool} (hfits : j = id → after.Fits f.errand) (source : Source) :
    Step.Shows id k rest guards w (s, .paused (.inPool j source f after)) := by
  obtain ⟨hholds, hongoing, hguards⟩ := h
  refine ⟨hholds, ?_, ?_, fun g hg hinside => ?_⟩
  · rw [hongoing]
    by_cases hj : j = id <;> simp [left, Frame.inside?, Pool.left, hj]
  · rw [hguards, lent_paused, show Pool.lent (.paused f) = [] from rfl, ite_self]
    rfl
  · cases hg
    by_cases hj : j = id
    · exact hfits hj
    · simp [Frame.inside?, hj] at hinside

theorem State.Worked.done {r : Pool.Result Handle} (h : s.Worked id j (.done r) rest guards w)
    (hr : j = id → r.errand ≠ .borrow) : w.ongoing = rest ∧ w.guards = guards := by
  obtain ⟨-, hongoing, hguards⟩ := h
  refine ⟨hongoing.trans (by rw [Pool.left, ite_self]; rfl), hguards.trans ?_⟩
  split
  · rename_i hj
    have hlent : Pool.lent (.done r) = [] := Pool.lent_of_errand (hr hj)
    rw [hlent]
    rfl
  · rfl

/-! ### Closing and evicting -/

theorem mirrored_closeKeys (hs : s.Holds id w) (after : AfterClosing) (destroyed : Nat)
    (keys : List PoolKey) : Step.Mirrored id k w (closeKeys s after destroyed keys) := by
  induction keys generalizing s w destroyed with
  | nil =>
    cases after with
    | counted => exact mirrored_done hs (by simp)
    | called | shutDown => exact mirrored_done (hs.noted (.note s _)) (by simp)
  | cons key keys ih =>
    rw [closeKeys]
    split
    · exact ih hs _
    · rename_i j p hfound
      obtain ⟨j', -, hp⟩ := Option.bind_eq_some_iff.mp hfound
      obtain ⟨p', hp, heq⟩ := Option.map_eq_some_iff.mp hp
      cases heq
      have hs' : (s.without key).Holds id w := hs
      obtain ⟨w₁, hvisits, hworked, herrand⟩ := hs'.visit (j := j) hp (.inl rfl)
      rw [show p.pool.start w.now .close = p.pool.close from rfl] at hworked herrand
      dsimp only
      split
      · rename_i f hf
        rw [hf] at hworked herrand
        refine ⟨w₁, hvisits, hworked.paused (fun _ => ?_) _⟩
        exact herrand
      · rename_i r hr
        rw [hr] at hworked herrand
        obtain ⟨hongoing, -⟩ := hworked.done fun _ => herrand
        exact (ih hworked.holds _).after hvisits hongoing

theorem mirrored_evictPools {after : AfterEvicting} {rest : State → Nat → Step}
    (hrest : ∀ s n w, s.Holds id w → w.now = now → Step.Mirrored id k w (rest s n))
    (hs : s.Holds id w) (hnow : w.now = now) (evicted : Nat) (ids : List Nat) :
    Step.Mirrored id k w (evictPools now after rest s evicted ids) := by
  induction ids generalizing s w evicted with
  | nil =>
    rw [evictPools]
    split <;> exact hrest _ _ _ hs hnow
  | cons j ids ih =>
    rw [evictPools]
    split
    · exact ih hs hnow _
    · rename_i p hp
      obtain ⟨w₁, hvisits, hworked, herrand⟩ := hs.visit hp (.inr rfl)
      rw [hnow, show p.pool.start now .evictIdle = p.pool.evictIdle now from rfl] at hworked herrand
      dsimp only
      split
      · rename_i f hf
        rw [hf] at hworked herrand
        refine ⟨w₁, hvisits, hworked.paused (fun _ => ?_) _⟩
        exact herrand
      · rename_i r hr
        rw [hr] at hworked herrand
        obtain ⟨hongoing, -⟩ := hworked.done fun _ => herrand
        exact (ih hworked.holds (hvisits.keeps.1.trans hnow) _).after hvisits hongoing

/-! ### Telling observers -/

theorem mirrored_select (hs : s.Holds id w) (key : PoolKey) :
    Step.Mirrored id k w (select s key) := by
  unfold select
  split
  · exact mirrored_done (hs.noted (.note s _)) (by simp)
  · split
    · exact mirrored_done hs (by simp)
    · obtain ⟨p, hp, hpool⟩ := hs
      refine mirrored_done ⟨p, ?_, hpool⟩ (by simp)
      show (s.pools ++ [_])[id]? = some p
      rw [List.getElem?_append_left (List.getElem?_eq_some_iff.mp hp).1]
      exact hp

theorem mirrored_perform (hs : s.Holds id w) (t : Telling) :
    Step.Mirrored id k w (perform s t) := by
  unfold perform
  split
  · exact mirrored_select hs _
  · exact mirrored_done (hs.noted (.note s _)) (by simp)
  · exact mirrored_closeKeys hs _ 0 _
  · exact mirrored_done hs (by simp)

theorem mirrored_tell (hs : s.Holds id w) (t : Telling) (observers : List Observer) :
    Step.Mirrored id k w (tell t s observers) := by
  induction observers generalizing s with
  | nil => exact mirrored_perform hs t
  | cons o observers ih =>
    cases o with
    | log => exact ih (hs.noted ((State.Noted.note s _).trans (.summarize _)))
    | inspector | poolInspector => exact ih (hs.noted (.summarizeFor s _))
    | recorder o => exact mirrored_paused hs rfl

theorem mirrored_tick (hs : s.Holds id w) (hnow : w.now = now) (observers : List Observer) :
    Step.Mirrored id k w (tick now s observers) := by
  induction observers generalizing s w with
  | nil => exact mirrored_done hs (by simp)
  | cons o observers ih =>
    cases o with
    | log => exact ih (hs.noted (.summarize s)) hnow
    | inspector | poolInspector =>
      exact mirrored_evictPools (fun _ _ _ hs hnow => ih hs hnow) hs hnow 0 _
    | recorder o =>
      rw [tick]
      split
      · exact mirrored_paused hs rfl
      · exact ih hs hnow

theorem mirrored_continue (after : AfterEvicting) (hs : s.Holds id w) (hnow : w.now = now)
    (n : Nat) : Step.Mirrored id k w (after.continue now s n) := by
  cases after with
  | counted => exact mirrored_done hs (by simp)
  | tick observers => exact mirrored_tick hs hnow observers

/-! ### The machine -/

/-- After the step of a pool, here from `w` on, the manager may come by other pools. -/
theorem State.Worked.mirrored {pooled : Pool.Step Handle} {after : AfterPool} (source : Source)
    (h : (s.settle j pooled).Worked id j pooled.next rest guards w) (hnow : w.now = now)
    (hafter : after.Holds k j) (hfits : j = id → after.Fits (Pool.errand pooled.next)) :
    ∃ w', Pool.Visits w w' ∧ (afterStep s now j source after pooled).Shows id k rest guards w' := by
  unfold afterStep
  dsimp only
  split
  · rename_i f hf
    rw [hf] at h hfits
    exact ⟨w, .refl, h.paused hfits source⟩
  · rename_i r hr
    rw [hr] at h hfits
    cases after with
    | caller =>
      obtain ⟨c, rfl⟩ := hafter
      obtain ⟨hholds, hongoing, hguards⟩ := h
      refine ⟨w, .refl, hholds, ?_, ?_, fun _ h => by cases h⟩
      · rw [hongoing, show Pool.left (.done r) = [] from rfl, ite_self]
        rfl
      · rw [hguards]
        by_cases hj : j = id <;> cases r <;> simp [lent, Pool.lent, guarded?, hj]
    | closing keys destroyed after =>
      obtain ⟨hongoing, hguards⟩ := h.done hfits
      have hmirrored := mirrored_closeKeys (k := k) h.holds after (destroyed + destroyedBy r) keys
      rw [Step.Mirrored, hongoing, hguards] at hmirrored
      exact hmirrored
    | evicting ids evicted after =>
      obtain ⟨hongoing, hguards⟩ := h.done hfits
      have hmirrored : Step.Mirrored id k w (evictPools now after (after.continue now)
          (s.settle j pooled) (evicted + destroyedBy r) ids) :=
        mirrored_evictPools (fun _ n _ hs hnow => mirrored_continue after hs hnow n) h.holds hnow _ ids
      rw [Step.Mirrored, hongoing, hguards] at hmirrored
      exact hmirrored

theorem mirrored_start (hs : s.Holds id w) (hnow : w.now = now) {c : Command}
    (hc : ∀ d, c ≠ .inPool id d) : Step.Mirrored id c w (start s now c) := by
  cases c with
  | select | release | close | tell => exact mirrored_tell hs _ _
  | tick => exact mirrored_tick hs hnow _
  | closeIdentity | closeAll | shutDown => exact mirrored_closeKeys hs _ 0 _
  | evictIdle =>
    exact mirrored_evictPools (fun _ n _ hs hnow => mirrored_continue .counted hs hnow n) hs hnow 0 _
  | inPool j d =>
    have hj : j ≠ id := fun h => hc d (h ▸ rfl)
    rw [start]
    split
    · exact mirrored_done hs (by simp)
    · exact (hs.elsewhere hj _).mirrored _ hnow ⟨d, rfl⟩ fun h => absurd h hj

theorem mirrored_start_inside (hs : s.Holds id w) (hnow : w.now = now) (d : Pool.Command Handle)
    (guards : List (Item Handle)) :
    ∃ w', Pool.Visits (w.started d guards) w' ∧
      (start s now (.inPool id d)).Shows id (.inPool id d) w.ongoing guards w' := by
  obtain ⟨p, hp, hpool⟩ := hs
  subst hnow
  rw [start, hp]
  dsimp only
  rw [hpool]
  exact (worked_moved hp _ _ _ _ _).mirrored p.source rfl ⟨d, rfl⟩ fun _ => trivial

/-- An operation on a pool goes on as it would in the pool alone. -/
theorem resume_inPool (s : State) (now id : Nat) (source : Source) (f : Pool.Frame Handle)
    (after : AfterPool) (a : (Frame.inPool id source f after).call.Answer) :
    ∃ (s' : State) (a' : f.callback.Answer), s.Noted s' ∧
      resume s now (.inPool id source f after) a =
        resumeInPool s' now id source after fun p => p.resume now f a' := by
  cases f with
  | creating => exact ⟨_, _, .took s source a, rfl⟩
  | checking c => exact ⟨s, a, .refl s, rfl⟩
  | destroying x d => exact ⟨_, (), .gave s source a, rfl⟩

theorem mirrored_resume (hs : s.Holds id w) (hnow : w.now = now) {f : Frame} (hf : f.Holds k s)
    (hinside : f.inside? id = none) (a : f.call.Answer) :
    Step.Mirrored id k w (resume s now f a) := by
  cases f with
  | telling o observers t => exact mirrored_tell hs t observers
  | ticking o observers => exact mirrored_tick hs hnow observers
  | inPool j source f after =>
    obtain ⟨s', a', hnoted, hresume⟩ := resume_inPool s now j source f after a
    have hj : j ≠ id := by
      rintro rfl
      simp [Frame.inside?] at hinside
    rw [hresume, resumeInPool]
    split
    · exact mirrored_done (hs.noted hnoted) (by simp)
    · exact ((hs.noted hnoted).elsewhere hj _).mirrored source hnow hf.2.2 fun h => absurd h hj

theorem mirrored_resume_inside (hs : s.Holds id w) (hnow : w.now = now) {source : Source}
    {f : Pool.Frame Handle} {after : AfterPool} (hf : (Frame.inPool id source f after).Holds k s)
    (hfits : after.Fits f.errand) (a : (Frame.inPool id source f after).call.Answer)
    (rest : List (Pool.Frame Handle)) :
    ∃ a' w', Pool.Visits (w.resumed f a' rest) w' ∧
      (resume s now (.inPool id source f after) a).Shows id k rest w.guards w' := by
  obtain ⟨s', a', hnoted, hresume⟩ := resume_inPool s now id source f after a
  obtain ⟨p, hp, hpool⟩ := hs.noted hnoted
  have herrand := Pool.errand_resume w.pool w.now f a'
  subst hnow
  rw [hresume, resumeInPool, hp]
  dsimp only
  rw [hpool]
  refine ⟨a', (worked_moved hp _ _ _ _ _).mirrored source rfl hf.2.2 fun _ => ?_⟩
  rw [Pool.Step.errand] at herrand
  rw [herrand]
  exact hfits

end steps

/-! ### Moves -/

section moves
variable {id : Nat} {m m' : System} {k : Command} {w w' : Pool.System Handle} {step : Step}
  {seen : List Event} {rest : List Ongoing} {guards : List (Nat × Item Handle)}

theorem Step.Shows.mirrors {others : List (Item Handle)}
    (h : step.Shows id k (rest.filterMap (·.frame.inside? id)) others w) (hnow : w.now = m.now)
    (hothers : others.Perm (guards.filterMap (guarded? id)))
    (hdestroyed : ∀ x ∈ w.destroyed, x.value ∈ (m.moved k seen rest guards step).gone)
    (hfits : ∀ o ∈ rest, (o.frame.inside? id).isSome → o.frame.Fits) :
    Mirrors id (m.moved k seen rest guards step) w where
  holds := h.holds
  now := hnow
  ongoing := h.ongoing.trans (List.filterMap_append ..).symm
  guards := by
    show w.guards.Perm ((lent k step.2 ++ guards).filterMap (guarded? id))
    rw [List.filterMap_append, h.guards]
    exact hothers.append_left _
  destroyed := hdestroyed
  fits o ho hinside := by
    rcases List.mem_append.mp ho with ho | ho
    · cases hnext : step.2 with
      | done r =>
        rw [hnext] at ho
        cases ho
      | paused f =>
        rw [hnext] at ho
        obtain rfl := List.mem_singleton.mp ho
        exact h.fits f hnext hinside
    · exact hfits o ho hinside

theorem mem_gone_moved {h : Handle} (hgone : h ∈ m.gone) :
    h ∈ (m.moved k seen rest guards step).gone := by
  rw [System.gone_moved]
  exact List.mem_append_left _ hgone

theorem eq_of_inside? {f : Frame} {g : Pool.Frame Handle} (h : f.inside? id = some g) :
    ∃ source after, f = .inPool id source g after := by
  cases f with
  | telling | ticking => cases h
  | inPool j source f after =>
    rw [Frame.inside?] at h
    split at h
    · rename_i hj
      cases h
      exact ⟨source, after, by rw [hj]⟩
    · cases h

theorem inside?_of_tells {f : Frame} (h : f.call.tells) : f.inside? id = none := by
  cases f with
  | telling | ticking => rfl
  | inPool j source f after => cases f <;> cases h

theorem given_inside (d : Pool.Command Handle) :
    (Command.inPool id d).given.filterMap (guarded? id) = d.items := by
  cases d <;> simp [Command.given, guarded?, Pool.Command.items]

theorem given_elsewhere (hk : ∀ d, k ≠ .inPool id d) :
    k.given.filterMap (guarded? id) = [] := by
  unfold Command.given
  split
  · rename_i j x
    have hj : j ≠ id := by
      rintro rfl
      exact hk _ rfl
    simp [guarded?, hj]
  · rfl

theorem Mirrors.started (h : Mirrors id m w) (hk : m.guards.Perm (k.given ++ guards)) :
    ∃ w', Pool.Turn w w' ∧ Mirrors id (m.started k guards) w' := by
  have hperm := h.guards.trans (hk.filterMap (guarded? id))
  rw [List.filterMap_append] at hperm
  by_cases hinside : ∃ d, k = .inPool id d
  · obtain ⟨d, rfl⟩ := hinside
    rw [given_inside] at hperm
    obtain ⟨w', hvisits, hshows⟩ :=
      mirrored_start_inside h.holds h.now d (guards.filterMap (guarded? id))
    obtain ⟨hnow, -, hdestroyed⟩ := hvisits.keeps
    rw [h.ongoing] at hshows
    refine ⟨w', .start d _ hperm hvisits,
      hshows.mirrors (hnow.trans h.now) (.refl _) (fun x hx => ?_) h.fits⟩
    rw [hdestroyed, Pool.System.started, Pool.System.destroyed_moved] at hx
    exact mem_gone_moved (h.destroyed x (by simpa [Pool.Event.destroyed?] using hx))
  · rw [given_elsewhere fun d hd => hinside ⟨d, hd⟩] at hperm
    obtain ⟨w', hvisits, hshows⟩ := mirrored_start h.holds h.now fun d hd => hinside ⟨d, hd⟩
    obtain ⟨hnow, -, hdestroyed⟩ := hvisits.keeps
    rw [h.ongoing] at hshows
    refine ⟨w', .visits hvisits,
      hshows.mirrors (hnow.trans h.now) hperm (fun x hx => ?_) h.fits⟩
    rw [hdestroyed] at hx
    exact mem_gone_moved (h.destroyed x hx)

theorem Mirrors.resumed (h : Mirrors id m w) (hm : m.Good) {before later : List Ongoing}
    {o : Ongoing} (hongoing : m.ongoing = before ++ o :: later) (a : o.frame.call.Answer) :
    ∃ w', Pool.Turn w w' ∧ Mirrors id (m.resumed o a (before ++ later)) w' := by
  have ho : o ∈ m.ongoing := hongoing ▸ List.mem_append_right _ List.mem_cons_self
  have hfits : ∀ p ∈ before ++ later, (p.frame.inside? id).isSome → p.frame.Fits :=
    fun p hp => h.fits p (System.mem_ongoing_of_rest hongoing hp)
  have hinside := h.ongoing
  rw [System.inside, hongoing, List.filterMap_append, List.filterMap_cons] at hinside
  obtain ⟨k, f⟩ := o
  cases hf : f.inside? id with
  | none =>
    obtain ⟨w', hvisits, hshows⟩ := mirrored_resume h.holds h.now (hm.frames _ ho) hf a
    obtain ⟨hnow, -, hdestroyed⟩ := hvisits.keeps
    simp only [hf] at hinside
    rw [hinside, ← List.filterMap_append] at hshows
    refine ⟨w', .visits hvisits, hshows.mirrors (hnow.trans h.now) h.guards (fun x hx => ?_) hfits⟩
    rw [hdestroyed] at hx
    exact mem_gone_moved (h.destroyed x hx)
  | some g =>
    obtain ⟨source, after, rfl⟩ := eq_of_inside? hf
    simp only [hf] at hinside
    obtain ⟨a', w', hvisits, hshows⟩ := mirrored_resume_inside h.holds h.now (hm.frames _ ho)
      (h.fits _ ho (by rw [hf]; rfl)) a ((before ++ later).filterMap (·.frame.inside? id))
    obtain ⟨hnow, -, hdestroyed⟩ := hvisits.keeps
    rw [List.filterMap_append] at hvisits
    refine ⟨w', .resume _ g _ a' hinside hvisits,
      hshows.mirrors (hnow.trans h.now) h.guards (fun x hx => ?_) hfits⟩
    rw [hdestroyed, Pool.System.resumed, Pool.System.destroyed_moved] at hx
    rcases List.mem_append.mp hx with hx | hx
    · exact mem_gone_moved (h.destroyed x hx)
    · cases g with
      | creating | checking => cases hx
      | destroying y d =>
        rw [List.mem_singleton.mp hx, System.gone_moved]
        exact List.mem_append_right _ (List.mem_singleton_self _)

/-- **Every move of a manager is a turn of each of its pools.** -/
theorem Mirrors.next (h : Mirrors id m w) (hm : m.Good) (hmove : Moves m m') :
    ∃ w', Pool.Turn w w' ∧ Mirrors id m' w' := by
  cases hmove with
  | start k guards hk => exact h.started hk
  | resume before o later a hongoing ha => exact h.resumed hm hongoing a
  | fail before o later hongoing ho =>
    have hinside : o.frame.inside? id = none := inside?_of_tells ho
    refine ⟨w, .visits .refl, h.holds, h.now, ?_, h.guards, h.destroyed,
      fun p hp => h.fits p (System.mem_ongoing_of_rest hongoing hp)⟩
    rw [h.ongoing, System.inside, System.inside, hongoing, List.filterMap_append,
      List.filterMap_cons, hinside, ← List.filterMap_append]
  | attach o => exact ⟨w, .visits .refl, h.holds, h.now, h.ongoing, h.guards, h.destroyed, h.fits⟩
  | pass t ht =>
    exact ⟨{ w with now := t }, .pass t (h.now ▸ ht), h.holds, rfl, h.ongoing, h.guards,
      h.destroyed, h.fits⟩

/-! ### Where the objects of a pool are -/

theorem Mirrors.made (h : Mirrors id m w) (hw : w.Balances) {x : Item Handle} (hx : m.Has id x) :
    x ∈ w.made := by
  refine hw.placed.mem_iff.mp (List.mem_append_right _ ?_)
  rcases hx with ⟨p, hp, hx⟩ | ⟨o, ho, hx⟩ | hx
  · obtain ⟨q, hq, hpool⟩ := h.holds
    obtain rfl := Option.some.inj (hp.symm.trans hq)
    rw [hpool] at hx
    exact List.mem_append_right _ (List.mem_append_right _ hx)
  · refine List.mem_append_left _ (List.mem_flatMap.mpr ?_)
    rw [h.ongoing]
    obtain ⟨k, f⟩ := o
    cases f with
    | telling | ticking => cases hx
    | inPool j source f after =>
      obtain ⟨y, hy, heq⟩ := List.mem_map.mp hx
      cases heq
      exact ⟨f, List.mem_filterMap.mpr ⟨_, ho, if_pos rfl⟩, hy⟩
  · refine List.mem_append_right _ (List.mem_append_left _ ?_)
    exact h.guards.mem_iff.mpr (List.mem_filterMap.mpr ⟨_, hx, if_pos rfl⟩)

/-- When nobody is at work in the pool and its queue is empty, what was made is in guards or
gone. -/
theorem Mirrors.placed (h : Mirrors id m w) (hw : w.Balances) (hrest : m.inside id = [])
    (hidle : w.pool.idle = []) {x : Item Handle} (hx : x ∈ w.made) :
    (id, x) ∈ m.guards ∨ x.value ∈ m.gone := by
  have hplaced := hw.placed
  rw [Pool.System.hands, h.ongoing, hrest, Pool.items, hidle] at hplaced
  rcases List.mem_append.mp (hplaced.mem_iff.mpr hx) with hx | hx
  · exact .inr (h.destroyed x hx)
  · left
    have hguard : x ∈ w.guards := by simpa using hx
    obtain ⟨⟨j, y⟩, hg, hy⟩ := List.mem_filterMap.mp (h.guards.mem_iff.mp hguard)
    rw [guarded?] at hy
    split at hy
    · rename_i hj
      cases hy
      cases hj
      exact hg
    · cases hy

/-! ### Pools that are founded -/

theorem System.Good.elsewhere (hm : m.Good) (hnone : m.state.pools[id]? = none) :
    ∀ o ∈ m.ongoing, o.frame.inside? id = none := by
  intro o ho
  cases h : o.frame.inside? id with
  | none => rfl
  | some g =>
    obtain ⟨source, after, hf⟩ := eq_of_inside? h
    have hholds := hm.frames o ho
    rw [hf] at hholds
    obtain ⟨⟨p, hp, -⟩, -⟩ := hholds
    rw [hnone] at hp
    cases hp

theorem System.Bred.elsewhere (hm : m.Bred) (hnone : m.state.pools[id]? = none) :
    ∀ g ∈ m.guards, guarded? id g = none := by
  rintro ⟨j, x⟩ hg
  obtain ⟨p, hp, -⟩ := hm.objects j x (.inr (.inr hg))
  have hj : j ≠ id := by
    rintro rfl
    rw [hnone] at hp
    cases hp
  exact if_neg hj

/-- A pool that is founded has done nothing, and nobody is at work in it. -/
theorem mirrors_founded (hm : m.Good) (hbred : m.Bred) (hnone : m.state.pools[id]? = none)
    (hfounds : step.Founds m.state) (hrest : ∀ o ∈ rest, o ∈ m.ongoing)
    (hguards : ∀ g ∈ guards, g ∈ m.guards) {p : HandlePool} (hp : step.1.pools[id]? = some p) :
    Mirrors id (m.moved k seen rest guards step) (.initial p.pool.name p.pool.settings m.now) := by
  obtain ⟨settings, key, produces, n, hpools, hdone⟩ := hfounds
  rw [hpools] at hp
  rcases State.getElem?_concat_cases hp with hp' | ⟨-, rfl⟩
  · rw [hnone] at hp'
    cases hp'
  have hinside : ∀ o ∈ left k step.2 ++ rest, o.frame.inside? id = none := by
    rw [hdone]
    exact fun o ho => hm.elsewhere hnone o (hrest o ho)
  refine ⟨⟨_, hpools ▸ hp, rfl⟩, rfl, ?_, ?_, nofun, fun o ho h => ?_⟩
  · exact (List.filterMap_eq_nil_iff.mpr hinside).symm
  · show [].Perm ((lent k step.2 ++ guards).filterMap (guarded? id))
    rw [hdone, lent_eq_nil (by simp), List.nil_append, List.filterMap_eq_nil_iff.mpr fun g hg =>
      hbred.elsewhere hnone g (hguards g hg)]
  · rw [hinside o ho] at h
    cases h

/-- **Every pool of a manager is a pool in a run.** -/
theorem Reachable.mirror (hm : Reachable m) {p : HandlePool} (hp : m.state.pools[id]? = some p) :
    ∃ w, Pool.Reachable .any w ∧ Mirrors id m w := by
  induction hm generalizing p with
  | initial settings factory now => cases hp
  | @next m m' hm hmove ih =>
    cases hknown : m.state.pools[id]? with
    | some q =>
      obtain ⟨w, ⟨name, settings, now, hrun⟩, hmirrors⟩ := ih hknown
      obtain ⟨w', hturn, hmirrors'⟩ := hmirrors.next hm.good hmove
      exact ⟨w', ⟨name, settings, now, hturn.run hrun⟩, hmirrors'⟩
    | none =>
      -- the number of pools has grown, so the pool was founded in this move
      have hfounds : ∀ {step : Step}, step.Grown m.state → step.1.pools[id]? = some p →
          step.Founds m.state := by
        intro step hgrown hp
        refine hgrown.resolve_left fun hkeeps => ?_
        have hlt := (List.getElem?_eq_some_iff.mp hp).1
        rw [hkeeps] at hlt
        exact Nat.not_le_of_lt hlt (List.getElem?_eq_none_iff.mp hknown)
      cases hmove with
      | start k guards hk =>
        exact ⟨_, .initial .., mirrors_founded hm.good hm.bred hknown
          (hfounds (grown_start _ _ _) hp) (fun o ho => ho)
          (fun g hg => hk.mem_iff.mpr (List.mem_append_right _ hg)) hp⟩
      | resume before o later a hongoing ha =>
        exact ⟨_, .initial .., mirrors_founded hm.good hm.bred hknown
          (hfounds (grown_resume _ _ _ _) hp)
          (fun p hp => System.mem_ongoing_of_rest hongoing hp) (fun g hg => hg) hp⟩
      | fail | attach | pass =>
        rw [hknown] at hp
        cases hp

end moves

end Pooled

end ConnectionLeasing
