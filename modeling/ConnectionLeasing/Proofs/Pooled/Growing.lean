import ConnectionLeasing.Proofs.Pooled.Outcome

/-!
# Pools are never removed

A pool keeps its number for good: an operation adds a pool or none, and a directory that forgets a
pool leaves it where it is, for the handles that are still out. So an operation that works in a pool
finds it again, whatever else went on while it waited. Only a borrow adds a pool; it ends with that,
so nobody is at work in a new pool.
-/

namespace ConnectionLeasing.Pooled

/-- There are `n` pools after a step. -/
def Step.Keeps (n : Nat) (step : Step) : Prop := step.1.pools.length = n

/-- The step adds a new pool, and ends with that. -/
def Step.Founds (s : State) (step : Step) : Prop :=
  ∃ settings key produces id,
    step.1.pools = s.pools ++ [.ofKey settings key produces] ∧ step.2 = .done (.selected id)

/-- The step adds no pool or a new one. -/
def Step.Grown (s : State) (step : Step) : Prop :=
  step.Keeps s.pools.length ∨ step.Founds s

theorem Step.Grown.le {s : State} {step : Step} (h : step.Grown s) :
    s.pools.length ≤ step.1.pools.length := by
  rcases h with h | ⟨settings, key, produces, id, hpools, -⟩
  · exact Nat.le_of_eq h.symm
  · rw [hpools, List.length_append]
    exact Nat.le_add_right _ _

variable {s : State} {n : Nat}

theorem length_settle (s : State) (id : Nat) (step : Pool.Step Handle) :
    (s.settle id step).pools.length = s.pools.length := List.length_modify ..

theorem State.Noted.pools {s' : State} (h : s.Noted s') : s'.pools = s.pools := by
  obtain ⟨journal, rfl⟩ := h
  rfl

/-! ### Operations that add no pool -/

theorem keeps_settle (hn : s.pools.length = n) (id : Nat) (step : Pool.Step Handle) :
    (s.settle id step).pools.length = n := (length_settle s id step).trans hn

theorem keeps_closeKeys (hn : s.pools.length = n) (after : AfterClosing) (destroyed : Nat)
    (keys : List PoolKey) : (closeKeys s after destroyed keys).Keeps n := by
  induction keys generalizing s destroyed with
  | nil => cases after <;> exact hn
  | cons key keys ih =>
    rw [closeKeys]
    split
    · exact ih hn _
    · rename_i id p _
      have herased : { s with directory := Keyed.erase s.directory key }.pools.length = n := hn
      dsimp only
      split
      · exact keeps_settle herased id p.pool.close
      · exact ih (keeps_settle herased id p.pool.close) _

theorem keeps_evictPools {now : Nat} {after : AfterEvicting} {k : State → Nat → Step}
    (hk : ∀ s evicted, s.pools.length = n → (k s evicted).Keeps n) (hn : s.pools.length = n)
    (evicted : Nat) (ids : List Nat) : (evictPools now after k s evicted ids).Keeps n := by
  induction ids generalizing s evicted with
  | nil =>
    rw [evictPools]
    split <;> exact hk _ _ hn
  | cons id ids ih =>
    rw [evictPools]
    split
    · exact ih hn _
    · dsimp only
      split
      · exact keeps_settle hn _ _
      · exact ih (keeps_settle hn _ _) _

theorem keeps_tick (now : Nat) (hn : s.pools.length = n) (observers : List Observer) :
    (tick now s observers).Keeps n := by
  induction observers generalizing s with
  | nil => exact hn
  | cons o observers ih =>
    cases o with
    | log => exact ih ((congrArg List.length (State.Noted.summarize s).pools).trans hn)
    | inspector | poolInspector => exact keeps_evictPools (fun _ _ hs => ih hs) hn _ _
    | recorder o =>
      rw [tick]
      split
      · exact hn
      · exact ih hn

theorem keeps_continue (now : Nat) (after : AfterEvicting) (hn : s.pools.length = n)
    (evicted : Nat) : (after.continue now s evicted).Keeps n := by
  cases after with
  | counted => exact hn
  | tick observers => exact keeps_tick now hn observers

theorem keeps_afterStep (now id : Nat) (source : Source) (after : AfterPool)
    (step : Pool.Step Handle) (hn : s.pools.length = n) :
    (afterStep s now id source after step).Keeps n := by
  have hsettled := keeps_settle hn id step
  unfold afterStep
  dsimp only
  split
  · exact hsettled
  · split
    · exact hsettled
    · exact keeps_closeKeys hsettled _ _ _
    · exact keeps_evictPools (fun _ _ hs => keeps_continue now _ hs _) hsettled _ _

theorem keeps_resumeInPool (now id : Nat) (source : Source) (after : AfterPool)
    (f : Pool Handle → Pool.Step Handle) (hn : s.pools.length = n) :
    (resumeInPool s now id source after f).Keeps n := by
  unfold resumeInPool
  split
  · exact hn
  · exact keeps_afterStep now id source after _ hn

/-! ### Operations that may add one -/

theorem Step.Grown.noted {s' : State} {step : Step} (h : step.Grown s') (hs : s.Noted s') :
    step.Grown s := by
  rw [Step.Grown, Step.Founds, hs.pools] at h
  exact h

theorem grown_select (s : State) (key : PoolKey) : (select s key).Grown s := by
  rw [select]
  split
  · exact .inl rfl
  · rename_i produces _
    split
    · exact .inl rfl
    · exact .inr ⟨s.settings, key, produces, _, rfl, rfl⟩

theorem grown_perform (s : State) (t : Telling) : (perform s t).Grown s := by
  rw [perform]
  split
  · exact grown_select s _
  · exact .inl rfl
  · exact .inl (keeps_closeKeys rfl _ _ _)
  · exact .inl rfl

theorem grown_tell (s : State) (t : Telling) (observers : List Observer) :
    (tell t s observers).Grown s := by
  induction observers generalizing s with
  | nil => exact grown_perform s t
  | cons o observers ih =>
    cases o with
    | log => exact (ih _).noted ((State.Noted.note s _).trans (.summarize _))
    | inspector | poolInspector => exact (ih _).noted (State.Noted.summarizeFor s _)
    | recorder o => exact .inl rfl

/-- **No operation removes a pool.** -/
theorem grown_start (s : State) (now : Nat) (c : Command) : (start s now c).Grown s := by
  cases c with
  | select | release | close | tell => exact grown_tell s _ _
  | tick => exact .inl (keeps_tick now rfl _)
  | closeIdentity | closeAll | shutDown => exact .inl (keeps_closeKeys rfl _ _ _)
  | evictIdle => exact .inl (keeps_evictPools (fun _ n hs => keeps_continue now .counted hs n) rfl _ _)
  | inPool id command =>
    rw [start]
    split
    · exact .inl rfl
    · exact .inl (keeps_afterStep now id _ _ _ rfl)

theorem grown_resume (s : State) (now : Nat) (f : Frame) (a : f.call.Answer) :
    (resume s now f a).Grown s := by
  cases f with
  | telling o observers t => exact grown_tell s t observers
  | ticking o observers => exact .inl (keeps_tick now rfl observers)
  | inPool id source frame after =>
    left
    cases frame with
    | creating =>
      have htook := congrArg List.length (State.Noted.took s source a).pools
      exact keeps_resumeInPool now id source after _ htook
    | checking c => exact keeps_resumeInPool now id source after _ rfl
    | destroying x d =>
      have hgave := congrArg List.length (State.Noted.gave s source a).pools
      exact keeps_resumeInPool now id source after _ hgave

end ConnectionLeasing.Pooled
