import ConnectionLeasing.Proofs.Pool.Ownership

/-!
# Closing a pool amid borrows and returns

A pool may be closed at any moment outside an eviction, for example inside the callback of a borrow
or of a return. Whoever queues an object looks at the flag again afterwards, so in a closed pool the
queue is empty or somebody is emptying it. An eviction that starts in a closed pool does so inside
the callback of somebody who empties the queue, so what it puts back is destroyed after it.

* `Step.Clears`: a step leaves the queue empty, or its operation empties it; one lemma for each
  function of the pool.
* `System.Shut`: the invariant of a closed pool, `Shut.start` and `Shut.resume`: moves keep it.
* `close_strands_nothing`: what borrowers and holders of guards see of a closed pool.
-/

namespace ConnectionLeasing

namespace Pool

variable {α : Type}

/-! ### Evictions and drains -/

/-- Whether the operation is an eviction. -/
def Frame.isEvicting : Frame α → Bool
  | checking (.evicting ..) | destroying _ (.evicted _) | destroying _ (.rejected ..) => true
  | _ => false

/-- Whether the operation is emptying the queue. -/
def Frame.isDraining : Frame α → Bool
  | destroying _ (.drained ..) => true
  | _ => false

namespace Step

/-- The queue is empty, or the operation goes on to empty it. -/
def Clears (s : Step α) : Prop := s.pool.idle = [] ∨ ∃ f ∈ left s.next, f.isDraining = true

def Tame (s : Step α) : Prop := ∀ f ∈ left s.next, f.isEvicting = false

/-- The pool has kept its name and its flag. -/
structure Stays (s : Step α) (p : Pool α) : Prop where
  name : s.pool.name = p.name
  closed : s.pool.closed = p.closed

end Step

section steps
variable {p : Pool α}

/-! ### Name and flag -/

theorem stays_lend (p : Pool α) (start : Nat) : (p.lend start).Stays p := by
  rw [lend]
  split
  · dsimp only
    split <;> exact ⟨rfl, rfl⟩
  · split <;> exact ⟨rfl, rfl⟩

theorem stays_drain (p : Pool α) (drained : Nat) (cause : Drain) :
    (p.drain drained cause).Stays p := by
  unfold drain
  split <;> exact ⟨rfl, rfl⟩

theorem stays_requeue (p : Pool α) (now : Nat) (x : Item α) : (p.requeue now x).Stays p := by
  rw [requeue]
  split
  · exact ⟨rfl, rfl⟩
  · rename_i q hq
    obtain rfl := push?_eq_some hq
    split
    · obtain ⟨hname, hclosed⟩ := stays_drain { p with idle := p.idle ++ [⟨x, now⟩] } 0 .returned
      exact ⟨hname, hclosed⟩
    · exact ⟨rfl, rfl⟩

theorem stays_restore (p : Pool α) (evicted : Nat) (keep : List (IdleItem α)) :
    (p.restore evicted keep).Stays p := by
  induction keep generalizing p with
  | nil => exact ⟨rfl, rfl⟩
  | cons x others ih =>
    rw [restore]
    split
    · rename_i q hq
      obtain rfl := push?_eq_some hq
      obtain ⟨hname, hclosed⟩ := ih { p with idle := p.idle ++ [x] }
      exact ⟨hname, hclosed⟩
    · exact ⟨rfl, rfl⟩

theorem stays_evict (p : Pool α) (run : Eviction α) : (p.evict run).Stays p := by
  rw [evict]
  split
  · dsimp only
    split <;> exact ⟨rfl, rfl⟩
  · exact stays_restore p _ _

theorem stays_start (p : Pool α) (now : Nat) {k : Command α} (hk : k ≠ .close) :
    (start p now k).Stays p := by
  cases k with
  | tryBorrow =>
    rw [start, tryBorrow]
    split
    · exact ⟨rfl, rfl⟩
    · exact stays_lend p now
  | giveBack x =>
    rw [start, giveBack]
    split <;> exact ⟨rfl, rfl⟩
  | evictIdle => exact stays_evict p _
  | close => exact absurd rfl hk

theorem stays_close (p : Pool α) (now : Nat) :
    (start p now .close).Stays { p with closed := true } :=
  stays_drain _ 0 .close

theorem stays_resume (p : Pool α) (now : Nat) (f : Frame α) (a : f.callback.Answer) :
    (resume p now f a).Stays p := by
  cases f with
  | creating => cases a <;> exact ⟨rfl, rfl⟩
  | checking c =>
    cases c with
    | returned x =>
      cases a with
      | true => exact stays_requeue p now x
      | false => exact ⟨rfl, rfl⟩
    | lending x start => cases a <;> exact ⟨rfl, rfl⟩
    | evicting x run =>
      cases a with
      | true => exact stays_evict p _
      | false => exact ⟨rfl, rfl⟩
  | destroying x d =>
    have hbooked : (p.bookDestroyed.resumeDestroying d).Stays p.bookDestroyed := by
      cases d with
      | returned => exact ⟨rfl, rfl⟩
      | stale start => exact stays_lend _ start
      | evicted run => exact stays_evict _ _
      | rejected others evicted => exact stays_restore _ _ others
      | drained drained cause => exact stays_drain _ _ cause
    exact ⟨hbooked.name, hbooked.closed⟩

/-! ### Who evicts and who empties the queue -/

theorem clears_drain (p : Pool α) (drained : Nat) (cause : Drain) :
    (p.drain drained cause).Clears := by
  unfold drain
  split
  · right
    simp [await, left, Frame.isDraining]
  · rename_i hidle
    left
    exact hidle

theorem tame_drain (p : Pool α) (drained : Nat) (cause : Drain) :
    (p.drain drained cause).Tame := by
  unfold drain
  split <;> simp [Step.Tame, await, finish, left, Frame.isEvicting]

theorem clears_lend (start : Nat) (hidle : p.idle = []) : (p.lend start).Clears := by
  left
  rw [lend, hidle]
  dsimp only
  split
  · rfl
  · exact hidle

theorem tame_lend (p : Pool α) (start : Nat) : (p.lend start).Tame := by
  rw [lend]
  split
  · dsimp only
    split <;> simp [Step.Tame, await, left, Frame.isEvicting]
  · split <;> simp [Step.Tame, await, finish, left, Frame.isEvicting]

/-- A return that finds the pool closed after it has queued the object empties the queue. -/
theorem clears_requeue (now : Nat) (x : Item α) (hclosed : p.closed = true)
    (hidle : p.idle = []) : (p.requeue now x).Clears := by
  rw [requeue]
  split
  · left
    exact hidle
  · rename_i q hq
    obtain rfl := push?_eq_some hq
    rw [if_pos hclosed]
    exact clears_drain _ 0 .returned

theorem tame_requeue (p : Pool α) (now : Nat) (x : Item α) : (p.requeue now x).Tame := by
  rw [requeue]
  split
  · simp [Step.Tame, await, left, Frame.isEvicting]
  · split
    · exact tame_drain _ 0 .returned
    · simp [Step.Tame, finish, left]

theorem tame_start (p : Pool α) (now : Nat) {k : Command α} (hk : k ≠ .evictIdle) :
    (start p now k).Tame := by
  cases k with
  | tryBorrow =>
    rw [start, tryBorrow]
    split
    · simp [Step.Tame, finish, left]
    · exact tame_lend p now
  | giveBack x =>
    rw [start, giveBack]
    split <;> simp [Step.Tame, await, left, Frame.isEvicting]
  | evictIdle => exact absurd rfl hk
  | close => exact tame_drain _ 0 .close

theorem evictIdle_nil (now : Nat) (hidle : p.idle = []) :
    start p now .evictIdle = p.finish (.evicted 0) [] := by
  rw [start, evictIdle, evict, hidle]
  rfl

theorem clears_start (now : Nat) (k : Command α) (hclosed : p.closed = true)
    (hidle : p.idle = []) : (start p now k).Clears := by
  cases k with
  | tryBorrow =>
    left
    rw [start, tryBorrow, if_pos hclosed]
    exact hidle
  | giveBack x =>
    left
    rw [start, giveBack, if_pos hclosed]
    exact hidle
  | evictIdle =>
    left
    rw [evictIdle_nil now hidle]
    exact hidle
  | close => exact clears_drain _ 0 .close

theorem clears_resume (now : Nat) {f : Frame α} (a : f.callback.Answer)
    (hclosed : p.closed = true) (hf : f.isEvicting = false)
    (hidle : p.idle = [] ∨ f.isDraining = true) : (resume p now f a).Clears := by
  by_cases hdrain : f.isDraining = true
  · cases f with
    | creating | checking => cases hdrain
    | destroying x d =>
      cases d with
      | drained drained cause => exact clears_drain _ (drained + 1) cause
      | returned | stale | evicted | rejected => cases hdrain
  · replace hidle := hidle.resolve_right hdrain
    cases f with
    | creating => cases a <;> exact .inl hidle
    | checking c =>
      cases c with
      | returned x =>
        cases a with
        | true => exact clears_requeue now x hclosed hidle
        | false => exact .inl hidle
      | lending x start => cases a <;> exact .inl hidle
      | evicting => cases hf
    | destroying x d =>
      cases d with
      | returned => exact .inl hidle
      | stale start => exact clears_lend start hidle
      | evicted | rejected => cases hf
      | drained => exact absurd rfl hdrain

theorem tame_resume (now : Nat) {f : Frame α} (a : f.callback.Answer)
    (hf : f.isEvicting = false) : (resume p now f a).Tame := by
  cases f with
  | creating => cases a <;> simp [Step.Tame, resume, resumeCreating, finish, left]
  | checking c =>
    cases c with
    | returned x =>
      cases a with
      | true => exact tame_requeue p now x
      | false => simp [Step.Tame, resume, resumeChecking, await, left, Frame.isEvicting]
    | lending x start =>
      cases a <;>
        simp [Step.Tame, resume, resumeChecking, finish, await, left, Frame.isEvicting]
    | evicting => cases hf
  | destroying x d =>
    cases d with
    | returned => simp [Step.Tame, resume, resumeDestroying, finish, left]
    | stale start => exact tame_lend _ start
    | evicted | rejected => cases hf
    | drained drained cause => exact tame_drain _ (drained + 1) cause

end steps

/-! ### Closed pools -/

/-- Operations end in the reverse order of their starts, and none closes the pool inside an
eviction. -/
def Regime.closing : Regime α :=
  ⟨True, fun m k => k = .close → ∀ f ∈ m.ongoing, f.isEvicting = false⟩

/-- The pool is not closed inside an eviction. Unless callbacks run their operations to their end,
no eviction starts in a closed pool either. -/
structure Regime.Sheltered (R : Regime α) : Prop where
  close : ∀ m, R.admits m .close → ∀ f ∈ m.ongoing, f.isEvicting = false
  evict : R.stacked ∨ ∀ m, R.admits m .evictIdle → m.pool.closed = false

theorem sheltered_closing : (Regime.closing : Regime α).Sheltered :=
  ⟨fun _ h => h rfl, .inl trivial⟩

/-- Each eviction runs inside the callback of an operation that empties the queue. -/
def Covered : List (Frame α) → Prop
  | [] => True
  | f :: later => (f.isEvicting = true → ∃ g ∈ later, g.isDraining = true) ∧ Covered later

theorem covered_of_tame {l : List (Frame α)} (h : ∀ f ∈ l, f.isEvicting = false) : Covered l := by
  induction l with
  | nil => trivial
  | cons f l ih =>
    obtain ⟨hf, hl⟩ := List.forall_mem_cons.mp h
    refine ⟨fun hevicting => ?_, ih hl⟩
    rw [hf] at hevicting
    cases hevicting

/-- At most one operation is left over by a step, so it needs cover only if it is an eviction. -/
theorem covered_left {next : Progress (Frame α) (Result α)} {rest : List (Frame α)}
    (h : (∀ f ∈ left next, f.isEvicting = false) ∨ ∃ g ∈ rest, g.isDraining = true)
    (hrest : Covered rest) : Covered (left next ++ rest) := by
  cases next with
  | done r => exact hrest
  | paused f =>
    refine ⟨fun hf => ?_, hrest⟩
    rcases h with h | h
    · rw [h f (List.mem_singleton_self f)] at hf
      cases hf
    · exact h

/-- What a reader of events knows of a move in a pool that was closed before. -/
def Event.Refused (name : String) : Event α → Prop
  | started .tryBorrow next => next = .done (.failed (.poolClosed name))
  | started (.giveBack x) next => next = .paused (.destroying x .returned)
  | started .evictIdle _ | started .close _ | resumed .. => True

def Event.isClose : Event α → Bool
  | started .close _ => true
  | _ => false

theorem refused_start {p : Pool α} (now : Nat) (k : Command α) (h : p.closed = true) :
    (Event.started k (start p now k).next).Refused p.name := by
  cases k with
  | tryBorrow =>
    rw [start, tryBorrow, if_pos h]
    exact rfl
  | giveBack x =>
    rw [start, giveBack, if_pos h]
    exact rfl
  | evictIdle | close => trivial

namespace System

/-- The pool is closed and its queue empty or being emptied, also of what evictions put back. -/
structure Shut (R : Regime α) (m : System α) : Prop where
  cleared : m.pool.idle = [] ∨ ∃ f ∈ m.ongoing, f.isDraining = true
  covered : R.stacked ∧ Covered m.ongoing ∨ ∀ f ∈ m.ongoing, f.isEvicting = false

/-- The flag tells whether somebody has closed the pool. Borrows and returns after that were
refused, and nothing stays in the queue. -/
structure Closes (R : Regime α) (m : System α) : Prop where
  flag : m.pool.closed = m.events.any Event.isClose
  refused : m.events.Pairwise fun e e' => e.isClose = true → e'.Refused m.pool.name
  shut : m.pool.closed = true → m.Shut R

section moves
variable {R : Regime α} {m m' : System α} {seen : Progress (Frame α) (Result α) → Event α}
  {rest : List (Frame α)} {guards : List (Item α)} {step : Step α}

theorem Shut.moved (hcleared : step.Clears ∨ ∃ f ∈ rest, f.isDraining = true)
    (hcovered : R.stacked ∧ Covered (left step.next ++ rest) ∨
      ∀ f ∈ left step.next ++ rest, f.isEvicting = false) :
    (m.moved seen rest guards step).Shut R := by
  refine ⟨?_, hcovered⟩
  rcases hcleared with (hidle | ⟨f, hf, hdrain⟩) | ⟨f, hf, hdrain⟩
  · exact .inl hidle
  · exact .inr ⟨f, List.mem_append_left _ hf, hdrain⟩
  · exact .inr ⟨f, List.mem_append_right _ hf, hdrain⟩

theorem covered_tame (htame : step.Tame)
    (hcovered : R.stacked ∧ Covered rest ∨ ∀ f ∈ rest, f.isEvicting = false) :
    R.stacked ∧ Covered (left step.next ++ rest) ∨
      ∀ f ∈ left step.next ++ rest, f.isEvicting = false := by
  rcases hcovered with ⟨hstacked, hcovered⟩ | hcalm
  · exact .inl ⟨hstacked, covered_left (.inl htame) hcovered⟩
  · refine .inr fun f hf => ?_
    rcases List.mem_append.mp hf with hf | hf
    · exact htame f hf
    · exact hcalm f hf

theorem shut_close (hR : R.Sheltered) (hadmits : R.admits m .close) :
    (m.started .close guards).Shut R := by
  refine .moved (.inl (clears_drain _ 0 .close)) (covered_tame (tame_drain _ 0 .close) ?_)
  exact .inr (hR.close m hadmits)

theorem Shut.start (hm : m.Shut R) (hR : R.Sheltered) (hclosed : m.pool.closed = true)
    {k : Command α} (hadmits : R.admits m k) : (m.started k guards).Shut R := by
  have hcleared : (Pool.start m.pool m.now k).Clears ∨ ∃ f ∈ m.ongoing, f.isDraining = true := by
    rcases hm.cleared with hidle | hdrain
    · exact .inl (clears_start m.now k hclosed hidle)
    · exact .inr hdrain
  refine .moved hcleared ?_
  by_cases hk : k = .evictIdle
  · subst hk
    -- inside the callback of somebody who empties the queue, or with nothing to evict
    have hcover : (∀ f ∈ left (Pool.start m.pool m.now .evictIdle).next, f.isEvicting = false) ∨
        ∃ g ∈ m.ongoing, g.isDraining = true := by
      rcases hm.cleared with hidle | hdrain
      · left
        rw [evictIdle_nil m.now hidle]
        simp [finish, left]
      · exact .inr hdrain
    rcases hR.evict with hstacked | hopen
    · refine .inl ⟨hstacked, covered_left hcover ?_⟩
      rcases hm.covered with ⟨-, hcovered⟩ | hcalm
      · exact hcovered
      · exact covered_of_tame hcalm
    · have hopen := hopen m hadmits
      rw [hclosed] at hopen
      cases hopen
  · exact covered_tame (tame_start m.pool m.now hk) hm.covered

/-- An eviction that goes on in a closed pool is inside the callback of somebody who empties the
queue, and that operation goes on after it. -/
theorem Shut.resume (hm : m.Shut R) (hclosed : m.pool.closed = true)
    {before later : List (Frame α)} {f : Frame α} (hongoing : m.ongoing = before ++ f :: later)
    (hstack : R.stacked → before = []) (a : f.callback.Answer) :
    (m.resumed f a (before ++ later)).Shut R := by
  cases hf : f.isEvicting with
  | true =>
    rcases hm.covered with ⟨hstacked, hcovered⟩ | hcalm
    · obtain rfl := hstack hstacked
      rw [hongoing] at hcovered
      obtain ⟨hcover, hcovered⟩ := hcovered
      exact .moved (.inr (hcover hf)) (.inl ⟨hstacked, covered_left (.inr (hcover hf)) hcovered⟩)
    · have hcalm := hcalm f (by simp [hongoing])
      rw [hf] at hcalm
      cases hcalm
  | false =>
    refine .moved ?_ (covered_tame (tame_resume m.now a hf) ?_)
    · rcases hm.cleared with hidle | ⟨g, hg, hdrain⟩
      · exact .inl (clears_resume m.now a hclosed hf (.inl hidle))
      · rw [hongoing] at hg
        rcases List.mem_append.mp hg with hg | hg
        · exact .inr ⟨g, List.mem_append_left _ hg, hdrain⟩
        · rcases List.mem_cons.mp hg with rfl | hg
          · exact .inl (clears_resume m.now a hclosed hf (.inr hdrain))
          · exact .inr ⟨g, List.mem_append_right _ hg, hdrain⟩
    · rcases hm.covered with ⟨hstacked, hcovered⟩ | hcalm
      · obtain rfl := hstack hstacked
        rw [hongoing] at hcovered
        exact .inl ⟨hstacked, hcovered.2⟩
      · exact .inr fun g hg => hcalm g (mem_ongoing hongoing hg)

theorem Closes.moved (hm : m.Closes R) (hstep : step.Stays m.pool)
    (hseen : (seen step.next).isClose = false)
    (hrefused : m.pool.closed = true → (seen step.next).Refused m.pool.name)
    (hshut : m.pool.closed = true → (m.moved seen rest guards step).Shut R) :
    (m.moved seen rest guards step).Closes R where
  flag := by
    simp only [System.moved, hstep.closed, hm.flag, List.any_append, List.any_cons, List.any_nil,
      hseen, Bool.or_false]
  refused := by
    simp only [System.moved, hstep.name]
    refine List.pairwise_append.mpr ⟨hm.refused, List.pairwise_singleton _ _, ?_⟩
    intro e he e' he' hclose
    rw [List.mem_singleton.mp he']
    refine hrefused ?_
    rw [hm.flag]
    exact List.any_eq_true.mpr ⟨e, he, hclose⟩
  shut hclosed := hshut (hstep.closed.symm.trans hclosed)

theorem Closes.next (hm : m.Closes R) (hR : R.Sheltered) (hmove : Moves R m m') :
    m'.Closes R := by
  cases hmove with
  | start k guards hk hadmits =>
    by_cases hclose : k = .close
    · subst hclose
      obtain ⟨hname, hclosed⟩ := stays_close m.pool m.now
      refine ⟨?_, ?_, fun _ => shut_close hR hadmits⟩
      · simp [System.started, System.moved, hclosed, Event.isClose]
      · simp only [System.started, System.moved, hname]
        refine List.pairwise_append.mpr ⟨hm.refused, List.pairwise_singleton _ _, ?_⟩
        intro e he e' he' _
        rw [List.mem_singleton.mp he']
        trivial
    · refine hm.moved (stays_start m.pool m.now hclose) ?_ (refused_start m.now k) ?_
      · cases k with
        | close => exact absurd rfl hclose
        | tryBorrow | giveBack | evictIdle => rfl
      · intro hclosed
        exact (hm.shut hclosed).start hR hclosed hadmits
  | resume before f later a hongoing hstack =>
    refine hm.moved (stays_resume m.pool m.now f a) rfl (fun _ => trivial) ?_
    intro hclosed
    exact (hm.shut hclosed).resume hclosed hongoing hstack a
  | pass t ht =>
    refine ⟨hm.flag, hm.refused, fun hclosed => ?_⟩
    obtain ⟨hcleared, hcovered⟩ := hm.shut hclosed
    exact ⟨hcleared, hcovered⟩

end moves

end System

/-! ### What is seen of a closed pool -/

/-- What a borrow that is through answers to a borrower who may wait. -/
def Result.offer : Result α → Except LeaseError (Option (Item α))
  | lent x => .ok (some x)
  | failed e => .error e
  | exhausted | returned | evicted _ | closed _ => .ok none

/-- A borrower that waits tries by borrowing from the pool. What it sees of a try that waits for a
callback is left open. -/
def Tries (S : Waiting.Surroundings (System α) (Item α)) : Prop :=
  ∀ m r, (start m.pool m.now .tryBorrow).next = .done r →
    S.attempt m = (m.started .tryBorrow m.guards, r.offer)

section runs
variable {R : Regime α} {m : System α}

theorem Reachable.closes (hm : Reachable R m) (hR : R.Sheltered) : m.Closes R := by
  obtain ⟨name, settings, now, hrun⟩ := hm
  refine hrun.keeps (fun _ _ hmove hm => hm.next hR hmove) ⟨rfl, .nil, fun hclosed => ?_⟩
  cases hclosed

theorem attempt_closed {S : Waiting.Surroundings (System α) (Item α)} (hS : Tries S)
    (hclosed : m.pool.closed = true) :
    S.attempt m = (m.started .tryBorrow m.guards, .error (.poolClosed m.pool.name)) := by
  refine hS m (.failed (.poolClosed m.pool.name)) ?_
  rw [start, tryBorrow, if_pos hclosed]
  rfl

/-- A borrower whose next try comes after the pool was closed gives up at that try. -/
theorem waiting_closed {S : Waiting.Surroundings (System α) (Item α)} (hS : Tries S)
    (hclosed : m.pool.closed = true) (timeout : Duration) (deadline tries : Nat) :
    Waiting.blockUntil S timeout deadline (tries + 1) m =
        (m.started .tryBorrow m.guards, some (.error (.poolClosed m.pool.name))) ∧
      Waiting.pollUntil S timeout deadline (tries + 1) m =
        (m.started .tryBorrow m.guards, some (.error (.poolClosed m.pool.name))) := by
  rw [Waiting.blockUntil, Waiting.pollUntil, attempt_closed hS hclosed]
  exact ⟨rfl, rfl⟩

theorem System.Kept.destroyed_once (hk : m.Kept) {e : Event α} (he : e ∈ m.events) {x : Item α}
    (hx : x ∈ e.doomed?) : (m.destroyed.map (·.id)).count x.id ≤ 1 ∧
      (m.ongoing = [] → (m.destroyed.map (·.id)).count x.id = 1) := by
  have hnodup : (m.destroyed.map (·.id)).Nodup := by
    have hids := (hk.balances.placed.map (·.id)).nodup_iff.mpr hk.balances.nodup
    rw [List.map_append] at hids
    exact hids.of_append_left
  have honce : (m.destroyed.map (·.id)).count x.id ≤ 1 := List.nodup_iff_count.mp hnodup x.id
  refine ⟨honce, fun hongoing => ?_⟩
  have hpos : 0 < (m.destroyed.map (·.id)).count x.id := by
    rcases hk.gone e he x hx with hx | ⟨d, hd⟩
    · exact List.count_pos_iff.mpr (List.mem_map_of_mem hx)
    · rw [hongoing] at hd
      cases hd
  omega

/-- **A closed pool strands nothing.** Let a pool be closed at any moments outside evictions, also
inside the callbacks of borrows and returns. It is closed exactly if somebody has closed it, and
then

* each borrow fails at its first try after that, also one that has waited before;
* at rest no object is idle, and the total counts the guards;
* the object of a guard that is dropped after that goes to its destruction at once, is destroyed at
  most once, and exactly once when everything is at rest;
* once at rest without guards, as many objects were destroyed as were made. -/
theorem close_strands_nothing (hR : R.Sheltered) (hm : Reachable R m) :
    (m.pool.closed = true ↔ ∃ next, .started .close next ∈ m.events) ∧
    (m.events.Pairwise fun e e' => ∀ next, e = .started .close next →
      (∀ next', e' = .started .tryBorrow next' →
        next' = .done (.failed (.poolClosed m.pool.name))) ∧
      (∀ x next', e' = .started (.giveBack x) next' → next' = .paused (.destroying x .returned) ∧
        (m.destroyed.map (·.id)).count x.id ≤ 1 ∧
        (m.ongoing = [] → (m.destroyed.map (·.id)).count x.id = 1))) ∧
    (m.pool.closed = true → ∀ S, Tries S → ∀ timeout deadline tries,
      Waiting.blockUntil S timeout deadline (tries + 1) m =
        (m.started .tryBorrow m.guards, some (.error (.poolClosed m.pool.name))) ∧
      Waiting.pollUntil S timeout deadline (tries + 1) m =
        (m.started .tryBorrow m.guards, some (.error (.poolClosed m.pool.name)))) ∧
    (m.pool.closed = true → m.ongoing = [] →
      m.pool.idle = [] ∧ m.pool.total = m.guards.length ∧
      (m.guards = [] → m.pool.created = m.pool.destroyed)) := by
  obtain ⟨hflag, hrefused, hshut⟩ := hm.closes hR
  have hk := hm.kept
  refine ⟨?_, ?_, fun hclosed S hS timeout deadline tries =>
    waiting_closed hS hclosed timeout deadline tries, fun hclosed hongoing => ?_⟩
  · rw [hflag, List.any_eq_true]
    constructor
    · rintro ⟨e, he, hclose⟩
      rw [Event.isClose.eq_def] at hclose
      split at hclose
      · exact ⟨_, he⟩
      · cases hclose
    · rintro ⟨next, he⟩
      exact ⟨_, he, rfl⟩
  · refine hrefused.imp_of_mem ?_
    rintro e e' - he' hrefused next rfl
    replace hrefused := hrefused rfl
    refine ⟨?_, ?_⟩
    · rintro next' rfl
      exact hrefused
    · rintro x next' rfl
      have hdoomed : x ∈ (Event.started (.giveBack x) next').doomed? := by
        rw [show next' = _ from hrefused]
        rfl
      exact ⟨hrefused, hk.destroyed_once he' hdoomed⟩
  · have hidle : m.pool.idle = [] := by
      rcases (hshut hclosed).cleared with hidle | ⟨f, hf, -⟩
      · exact hidle
      · rw [hongoing] at hf
        cases hf
    have hb := hk.balances
    have htotal := hb.total
    have hplaced := hb.placed.length_eq
    rw [System.rooms, System.hands, hongoing] at htotal
    rw [System.hands, hongoing] at hplaced
    simp only [List.countP_nil, List.flatMap_nil, List.length_append, List.length_nil,
      length_items, hidle, ← hb.created, ← hb.destroyed] at htotal hplaced
    refine ⟨hidle, by omega, fun hguards => ?_⟩
    rw [hguards, List.length_nil] at hplaced
    omega

/-- A borrower that is through with each try at once, as a closed pool lets it. -/
def hasty : Waiting.Surroundings (System α) (Item α) where
  now m := m.now
  signals m := m.pool.signals
  attempt m := (m.started .tryBorrow m.guards,
    match (start m.pool m.now .tryBorrow).next with
    | .done r => r.offer
    | .paused _ => .ok none)
  sleep _ _ m := m

theorem tries_hasty : Tries (hasty : Waiting.Surroundings (System α) (Item α)) := by
  intro m r hr
  simp only [hasty, hr]

/-- The pool is closed while a returned object is validated. While that object is destroyed, a
borrow is refused and the other guard is dropped. -/
theorem close_strands_nothing_within_return : ∃ (m : System Nat) (x y : Item Nat),
    m.guards = [] ∧ m.made = [x, y] ∧ m.pool.closed = true ∧
    (m.events.Pairwise fun e e' => ∀ next, e = .started .close next →
      ∀ next', e' = .started .tryBorrow next' → next' = .done (.failed (.poolClosed "pool"))) ∧
    (m.destroyed.map (·.id)).count y.id = 1 ∧ m.pool.idle = [] ∧ m.pool.total = 0 ∧
    m.pool.created = m.pool.destroyed ∧
    Waiting.block hasty (.ofMillis 5) 1 m =
      (m.started .tryBorrow [], some (.error (.poolClosed "pool"))) := by
  let x : Item Nat := ⟨0, 7⟩
  let y : Item Nat := ⟨1, 8⟩
  let f : Frame Nat := .destroying x (.drained 0 .returned)
  let m₀ : System Nat := .initial "pool" { maxSize := 2 } 0
  let m₁ := m₀.started .tryBorrow []
  let m₂ := m₁.resumed .creating (.ok 7) []
  let m₃ := m₂.started .tryBorrow [x]
  let m₄ := m₃.resumed .creating (.ok 8) []
  let m₅ := m₄.started (.giveBack x) [y]
  let m₆ := m₅.started .close [y]
  let m₇ := m₆.resumed (.checking (.returned x)) true []
  let m₈ := m₇.started .tryBorrow [y]
  let m₉ := m₈.started (.giveBack y) []
  let m₁₀ := m₉.resumed (.destroying y .returned) () [f]
  let m₁₁ := m₁₀.resumed f () []
  have hm₁ : Reachable .closing m₁ :=
    (Reachable.initial _ _ _).next (.start m₀ .tryBorrow [] (.refl _) fun h => by cases h)
  have hm₂ : Reachable .closing m₂ :=
    hm₁.next (.resume m₁ [] .creating [] (.ok 7) (by cbv) fun _ => rfl)
  have hm₃ : Reachable .closing m₃ :=
    hm₂.next (.start m₂ .tryBorrow [x] (.refl _) fun h => by cases h)
  have hm₄ : Reachable .closing m₄ :=
    hm₃.next (.resume m₃ [] .creating [] (.ok 8) (by cbv) fun _ => rfl)
  have hm₅ : Reachable .closing m₅ :=
    hm₄.next (.start m₄ (.giveBack x) [y] (.swap x y []) fun h => by cases h)
  have hm₆ : Reachable .closing m₆ := hm₅.next (.start m₅ .close [y] (.refl _) fun _ => by decide)
  have hm₇ : Reachable .closing m₇ :=
    hm₆.next (.resume m₆ [] (.checking (.returned x)) [] true (by cbv) fun _ => rfl)
  have hm₈ : Reachable .closing m₈ :=
    hm₇.next (.start m₇ .tryBorrow [y] (.refl _) fun h => by cases h)
  have hm₉ : Reachable .closing m₉ :=
    hm₈.next (.start m₈ (.giveBack y) [] (.refl _) fun h => by cases h)
  have hm₁₀ : Reachable .closing m₁₀ :=
    hm₉.next (.resume m₉ [] (.destroying y .returned) [f] () (by cbv) fun _ => rfl)
  have hm₁₁ : Reachable .closing m₁₁ := hm₁₀.next (.resume m₁₀ [] f [] () (by cbv) fun _ => rfl)
  obtain ⟨hflag, hevents, hwait, hrest⟩ := close_strands_nothing sheltered_closing hm₁₁
  have hclosed : m₁₁.pool.closed = true := by cbv
  obtain ⟨hidle, htotal, hequal⟩ := hrest hclosed (by cbv)
  obtain ⟨hblock, -⟩ := hwait hclosed hasty tries_hasty (.ofMillis 5)
    ((Duration.ofMillis 5).after (hasty.now m₁₁)) 0
  have hname : m₁₁.pool.name = "pool" := by cbv
  have hguards : m₁₁.guards = [] := by cbv
  rw [hname, hguards] at hblock
  rw [hname] at hevents
  refine ⟨m₁₁, x, y, hguards, by cbv, hclosed, ?_, ?_, hidle, by rw [htotal, hguards]; rfl,
    hequal hguards, hblock⟩
  · exact hevents.imp fun {e e'} h next he next' he' => (h next he).1 next' he'
  · have hafter := List.pairwise_iff_getElem.mp hevents 5 8 (by cbv) (by cbv) (by decide)
    obtain ⟨-, hreturn⟩ := hafter (.done (.closed 0)) (by cbv)
    obtain ⟨-, -, honce⟩ := hreturn y (.paused (.destroying y .returned)) (by cbv)
    exact honce (by cbv)

end runs

end Pool

end ConnectionLeasing
