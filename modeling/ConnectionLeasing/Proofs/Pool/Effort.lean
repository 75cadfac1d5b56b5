import ConnectionLeasing.Proofs.Pool.Episode

/-!
# Operations whose callbacks leave the pool alone

If its callbacks do nothing but answer, an operation comes to its end. Each callback costs it some
of its `effort`, a bound on the callbacks it still needs: what is idle may have to be checked and
destroyed, and what an eviction keeps may have to be destroyed when it is put back.

* `effort_resume`: going on costs effort.
* `settle_ends`: with as many steps as its effort an operation comes to its end.
* `Conduct.alone`: so callbacks that only answer are a way to carry out operations.
-/

namespace ConnectionLeasing.Pool

variable {α : Type}

/-- A bound on the callbacks an operation still needs, this one included, if `idle` objects are idle
and nobody else uses the pool. -/
def Frame.effort (idle : Nat) : Frame α → Nat
  | creating => 1
  | checking (.returned _) => idle + 2
  | checking (.lending ..) => 2 * idle + 3
  | checking (.evicting _ run) => 3 * idle + run.keep.length + 3
  | destroying _ .returned => 1
  | destroying _ (.stale _) => 2 * idle + 2
  | destroying _ (.evicted run) => 3 * idle + run.keep.length + 2
  | destroying _ (.rejected others _) => others.length + 1
  | destroying _ (.drained ..) => idle + 1

/-- The effort that is left after a step. -/
def Step.effort (s : Step α) : Nat :=
  match s.next with
  | .paused f => f.effort s.pool.idle.length
  | .done _ => 0

section effort
variable {p : Pool α}

theorem effort_lend (p : Pool α) (start : Nat) :
    (p.lend start).effort ≤ 2 * p.idle.length + 1 := by
  rw [lend]
  split
  · rename_i x idle hidle
    rw [hidle, List.length_cons]
    dsimp only
    split
    · show 2 * idle.length + 2 ≤ _
      omega
    · show 2 * idle.length + 3 ≤ _
      omega
  · split
    · exact Nat.le_add_left 1 _
    · exact Nat.zero_le _

theorem effort_drain (p : Pool α) (drained : Nat) (cause : Drain) :
    (p.drain drained cause).effort ≤ p.idle.length := by
  unfold drain
  split
  · rename_i x idle hidle
    rw [hidle]
    exact Nat.le_refl _
  · exact Nat.zero_le _

theorem effort_requeue (p : Pool α) (now : Nat) (x : Item α) :
    (p.requeue now x).effort ≤ p.idle.length + 1 := by
  rw [requeue]
  split
  · exact Nat.le_add_left 1 _
  · rename_i q hq
    obtain rfl := push?_eq_some hq
    split
    · have hdrain := effort_drain { p with idle := p.idle ++ [⟨x, now⟩] } 0 .returned
      rwa [List.length_append] at hdrain
    · exact Nat.zero_le _

theorem effort_restore (p : Pool α) (evicted : Nat) (keep : List (IdleItem α)) :
    (p.restore evicted keep).effort ≤ keep.length := by
  induction keep generalizing p with
  | nil => exact Nat.zero_le _
  | cons x others ih =>
    rw [restore]
    split
    · exact Nat.le_succ_of_le (ih _)
    · exact Nat.le_refl _

theorem effort_evict (p : Pool α) (run : Eviction α) :
    (p.evict run).effort ≤ 3 * p.idle.length + run.keep.length := by
  rw [evict]
  split
  · rename_i x idle hidle
    rw [hidle, List.length_cons]
    dsimp only
    split
    · show 3 * idle.length + run.keep.length + 2 ≤ _
      omega
    · show 3 * idle.length + run.keep.length + 3 ≤ _
      omega
  · exact Nat.le_trans (effort_restore p _ _) (Nat.le_add_left _ _)

/-- **Going on costs effort.** -/
theorem effort_resume (p : Pool α) (now : Nat) (f : Frame α) (a : f.callback.Answer) :
    (resume p now f a).effort < f.effort p.idle.length := by
  cases f with
  | creating => cases a <;> exact Nat.zero_lt_one
  | checking c =>
    cases c with
    | returned x =>
      cases a with
      | true => exact Nat.lt_succ_of_le (effort_requeue p now x)
      | false => exact Nat.succ_lt_succ (Nat.zero_lt_succ _)
    | lending x start =>
      cases a with
      | true => exact Nat.zero_lt_succ _
      | false => exact Nat.lt_succ_self _
    | evicting x run =>
      cases a with
      | true =>
        have hevict := effort_evict p { run with keep := run.keep ++ [x] }
        rw [List.length_append, List.length_singleton] at hevict
        show (p.evict { run with keep := run.keep ++ [x] }).effort <
          3 * p.idle.length + run.keep.length + 3
        omega
      | false => exact Nat.lt_succ_self _
  | destroying x d =>
    cases d with
    | returned => exact Nat.zero_lt_one
    | stale start => exact Nat.lt_succ_of_le (effort_lend p.bookDestroyed start)
    | evicted run =>
      have hevict := effort_evict p.bookDestroyed { run with evicted := run.evicted + 1 }
      exact Nat.lt_succ_of_lt (Nat.lt_succ_of_le hevict)
    | rejected others evicted => exact Nat.lt_succ_of_le (effort_restore _ _ others)
    | drained drained cause => exact Nat.lt_succ_of_le (effort_drain p.bookDestroyed _ cause)

end effort

/-! ### Carrying operations out -/

/-- How callbacks answer, each in the system it is called in. -/
abbrev Reaction (α : Type) := System α → (f : Frame α) → f.callback.Answer

/-- Answers the callbacks of an operation until it ends, within a number of steps. -/
def settle (react : Reaction α) (below : List (Frame α)) :
    Nat → Progress (Frame α) (Result α) → System α → Result α × System α
  | _, .done r, m => (r, m)
  | 0, .paused _, m => (.exhausted, m)
  | steps + 1, .paused f, m =>
    settle react below steps (resume m.pool m.now f (react m f)).next
      (m.resumed f (react m f) below)

theorem settle_ends (react : Reaction α) {below : List (Frame α)} {steps : Nat}
    {next : Progress (Frame α) (Result α)} {m : System α} (hm : m.ongoing = left next ++ below)
    (hsteps : Step.effort ⟨m.pool, next, []⟩ ≤ steps) :
    Ends below next m (settle react below steps next m).1 (settle react below steps next m).2 := by
  induction steps generalizing next m with
  | zero =>
    cases next with
    | done r => exact .done r m
    | paused f =>
      have hcost := effort_resume m.pool m.now f (react m f)
      exact absurd hsteps (Nat.not_le.mpr (Nat.zero_lt_of_lt hcost))
  | succ steps ih =>
    cases next with
    | done r => exact .done r m
    | paused f =>
      refine .paused (react m f) (.refl m) hm (ih rfl ?_)
      have hcost := effort_resume m.pool m.now f (react m f)
      exact Nat.le_of_lt_succ (Nat.lt_of_lt_of_le hcost hsteps)

section alone
variable [DecidableEq α]

/-- The guards that are left when an operation takes its object. -/
def Command.spare (k : Command α) (guards : List (Item α)) : List (Item α) :=
  match k with
  | giveBack x => guards.erase x
  | tryBorrow | evictIdle | close => guards

theorem perm_spare {k : Command α} {guards : List (Item α)} (h : ∀ x ∈ k.items, x ∈ guards) :
    guards.Perm (k.items ++ k.spare guards) := by
  cases k with
  | giveBack x => exact List.perm_cons_erase (h x (List.mem_singleton_self x))
  | tryBorrow | evictIdle | close => exact .refl _

/-- Each callback answers at once and leaves the pool alone. -/
def Conduct.alone (react : Reaction α) : Conduct α where
  run m k :=
    settle react m.ongoing (start m.pool m.now k).effort (start m.pool m.now k).next
      (m.started k (k.spare m.guards))
  does _ _ h := ⟨_, perm_spare h, settle_ends react rfl (Nat.le_refl _)⟩

end alone

end ConnectionLeasing.Pool
