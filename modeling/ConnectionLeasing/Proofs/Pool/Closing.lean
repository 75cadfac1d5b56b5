import ConnectionLeasing.Proofs.Pool.Accounting

/-!
# Closing a pool while an eviction runs

An eviction puts back what it has set aside without looking whether the pool was closed meanwhile.
So the queue of the closed pool holds what the eviction has kept, and unless somebody evicts or
closes again these objects are never destroyed.

* `idle_of_evict_done`: an eviction leaves what it has kept in the queue, and nothing else.
* `Settled.next`: in a closed pool at rest, borrowing and giving back leave the queue as it is.
* `closed_emptied_iff`: what becomes of the objects of a pool that is closed when an eviction ends.
-/

namespace ConnectionLeasing.Pool

variable {α : Type}

/-! ### How an eviction ends -/

/-- What an eviction has kept once its callback is answered. -/
def Frame.kept : (f : Frame α) → f.callback.Answer → List (IdleItem α)
  | .checking (.evicting x run), valid => if valid then run.keep ++ [x] else run.keep
  | .destroying _ (.evicted run), _ => run.keep
  | _, _ => []

section ends
variable {p : Pool α} {r : Result α} {n : Nat}

theorem idle_of_evict_done {run : Eviction α}
    (h : p.idle.length + run.keep.length ≤ p.settings.capacity)
    (hr : (p.evict run).next = .done r) : (p.evict run).pool.idle = run.keep := by
  rw [evict] at hr ⊢
  split at hr
  · dsimp only at hr
    split at hr <;> cases hr
  · rename_i hp
    rw [restore_eq p _ _ h, finish, hp]
    rfl

theorem lend_ne_evicted (p : Pool α) (start : Nat) : (p.lend start).next ≠ .done (.evicted n) := by
  intro h
  rw [lend] at h
  split at h
  · dsimp only at h
    split at h <;> cases h
  · split at h <;> cases h

theorem drain_ne_evicted (p : Pool α) (drained : Nat) (cause : Drain) :
    (p.drain drained cause).next ≠ .done (.evicted n) := by
  intro h
  unfold drain at h
  split at h
  · cases h
  · cases cause <;> cases h

theorem requeue_ne_evicted (p : Pool α) (now : Nat) (x : Item α) :
    (p.requeue now x).next ≠ .done (.evicted n) := by
  intro h
  rw [requeue] at h
  split at h
  · cases h
  · split at h
    · exact drain_ne_evicted _ _ _ h
    · cases h

theorem idle_of_evicted {f : Frame α} {now : Nat} {a : f.callback.Answer}
    (h : p.idle.length + f.items.length ≤ p.settings.capacity) (hf : f.isRejected = false)
    (hend : (resume p now f a).next = .done (.evicted n)) :
    (resume p now f a).pool.idle = f.kept a := by
  cases f with
  | creating => cases a <;> cases hend
  | checking c =>
    cases c with
    | returned x =>
      cases a with
      | true => exact absurd hend (requeue_ne_evicted p now x)
      | false => cases hend
    | lending x start => cases a <;> cases hend
    | evicting x run =>
      cases a with
      | true =>
        rw [length_items_evicting] at h
        exact idle_of_evict_done h hend
      | false => cases hend
  | destroying x d =>
    cases d with
    | returned => cases hend
    | stale start => exact absurd hend (lend_ne_evicted _ start)
    | evicted run =>
      rw [length_items_evicted] at h
      exact idle_of_evict_done (Nat.le_of_succ_le h) hend
    | rejected others evicted => cases hf
    | drained drained cause => exact absurd hend (drain_ne_evicted _ _ cause)

end ends

/-! ### A closed pool in which nobody evicts -/

/-- Objects are borrowed and given back; nobody evicts or closes. -/
def Regime.exchange : Regime α := ⟨False, fun _ k => k ≠ .evictIdle ∧ k ≠ .close⟩

namespace System

/-- The pool is closed, the queue is `idle`, and operations only destroy what was given back. -/
structure Settled (idle : List (IdleItem α)) (m : System α) : Prop where
  balances : m.Balances
  closed : m.pool.closed = true
  idle : m.pool.idle = idle
  ongoing : ∀ f ∈ m.ongoing, ∃ x, f = .destroying x .returned

variable {idle : List (IdleItem α)} {m m' : System α}

theorem Settled.next (hm : m.Settled idle) (hmove : Moves .exchange m m') : m'.Settled idle := by
  have hb := hm.balances.next hmove
  -- a borrow is refused, and what is given back is destroyed without being queued
  cases hmove with
  | start k guards hk h =>
    cases k with
    | tryBorrow =>
      have hrefused : m.started .tryBorrow guards =
          m.moved (.started .tryBorrow) m.ongoing guards
            (m.pool.finish (.failed (.poolClosed m.pool.name)) []) := by
        rw [started, Pool.start, tryBorrow, if_pos hm.closed]
      rw [hrefused] at hb ⊢
      exact ⟨hb, hm.closed, hm.idle, hm.ongoing⟩
    | giveBack x =>
      have hdoomed : m.started (.giveBack x) guards =
          m.moved (.started (.giveBack x)) m.ongoing guards
            (m.pool.await (.destroying x .returned) []) := by
        rw [started, Pool.start, giveBack, if_pos hm.closed]
      rw [hdoomed] at hb ⊢
      refine ⟨hb, hm.closed, hm.idle, fun f hf => ?_⟩
      rcases List.mem_cons.mp hf with rfl | hf
      · exact ⟨x, rfl⟩
      · exact hm.ongoing f hf
    | evictIdle => exact absurd rfl h.1
    | close => exact absurd rfl h.2
  | resume before f later a hongoing h =>
    obtain ⟨x, rfl⟩ := hm.ongoing f (by simp [hongoing])
    exact ⟨hb, hm.closed, hm.idle, fun g hg => hm.ongoing g (mem_ongoing hongoing hg)⟩
  | pass t ht => exact ⟨hb, hm.closed, hm.idle, hm.ongoing⟩

end System

section runs
variable {R : Regime α} {m : System α}

/-- At rest and without guards, all objects are destroyed exactly if none is idle. -/
theorem System.Balances.emptied_iff (hb : m.Balances) (hongoing : m.ongoing = [])
    (hguards : m.guards = []) :
    m.pool.total = 0 ∧ m.destroyed.Perm m.made ↔ m.pool.idle = [] := by
  have htotal : m.pool.total = m.pool.idle.length := by
    rw [hb.total, System.rooms, System.hands, hongoing, hguards]
    simp
  have hplaced := hb.placed
  rw [System.hands, hongoing, hguards] at hplaced
  rw [htotal, List.length_eq_zero_iff]
  refine ⟨And.left, fun hidle => ⟨hidle, ?_⟩⟩
  rw [Pool.items, hidle] at hplaced
  simpa using hplaced

/-- **What becomes of the objects of a pool that is closed when an eviction ends.** The queue holds
what the eviction has kept. Whatever happens then, once everything has ended and all guards have
been dropped, all objects are destroyed exactly if the queue is empty. If nothing else was in
progress, borrowing and giving back leave the queue as it is, so all objects are destroyed exactly
if the eviction has kept none. -/
theorem closed_emptied_iff (hm : Reachable R m) {before later : List (Frame α)} {f : Frame α}
    (hongoing : m.ongoing = before ++ f :: later) {a : f.callback.Answer} {evicted : Nat}
    (hend : (resume m.pool m.now f a).next = .done (.evicted evicted))
    (hclosed : m.pool.closed = true) :
    (m.resumed f a (before ++ later)).pool.idle = f.kept a ∧
    (∀ m', Run .any (m.resumed f a (before ++ later)) m' → m'.ongoing = [] → m'.guards = [] →
      (m'.pool.total = 0 ∧ m'.destroyed.Perm m'.made ↔ m'.pool.idle = [])) ∧
    (before ++ later = [] → ∀ m', Run .exchange (m.resumed f a (before ++ later)) m' →
      m'.pool.idle = f.kept a ∧ (m'.ongoing = [] → m'.guards = [] →
        (m'.pool.total = 0 ∧ m'.destroyed.Perm m'.made ↔ f.kept a = []))) := by
  have hmem : f ∈ m.ongoing := by simp [hongoing]
  have hb : (m.resumed f a (before ++ later)).Balances := hm.balances.answer hongoing a
  have hidle : (m.resumed f a (before ++ later)).pool.idle = f.kept a :=
    idle_of_evicted (hm.balances.room hmem) (hm.unrejected f hmem) hend
  refine ⟨hidle, fun m' hrun hongoing' hguards => ?_, fun hrest m' hrun => ?_⟩
  · exact (hrun.keeps (fun _ _ hmove hb => hb.next hmove) hb).emptied_iff hongoing' hguards
  · have hsettled : (m.resumed f a (before ++ later)).Settled (f.kept a) := by
      refine ⟨hb, closed_resume m.now a hclosed, hidle, fun g hg => ?_⟩
      rw [System.resumed, System.moved, hend, hrest] at hg
      cases hg
    obtain ⟨hb', -, hidle', -⟩ := hrun.keeps (fun _ _ hmove hs => hs.next hmove) hsettled
    refine ⟨hidle', fun hongoing' hguards => ?_⟩
    rw [← hidle']
    exact hb'.emptied_iff hongoing' hguards

end runs

/-! ### An object that is kept -/

/-- The pool's only object was given back, and an eviction checks it. -/
def evictingOne : System Nat :=
  ((lentOne.started (.giveBack ⟨0, 7⟩) []).resumed (.checking (.returned ⟨0, 7⟩)) true []).started
    .evictIdle []

theorem reachable_evictingOne : Reachable .nesting evictingOne := by
  let m₁ := lentOne.started (.giveBack ⟨0, 7⟩) []
  let m₂ := m₁.resumed (.checking (.returned ⟨0, 7⟩)) true []
  have hm₁ : Reachable .nesting m₁ :=
    reachable_lentOne.next (.start lentOne (.giveBack ⟨0, 7⟩) [] (.refl _) trivial)
  have hm₂ : Reachable .nesting m₂ :=
    hm₁.next (.resume m₁ [] (.checking (.returned ⟨0, 7⟩)) [] true (by cbv) fun _ => rfl)
  exact hm₂.next (.start m₂ .evictIdle [] (.refl _) trivial)

/-- The pool is closed while the object is checked, and the object is valid. -/
theorem closed_emptied_iff_kept : ∃ (m : System Nat) (x : IdleItem Nat),
    m.pool.closed = true ∧ m.pool.idle = [x] ∧
    ¬ (m.pool.total = 0 ∧ m.destroyed.Perm m.made) := by
  let x : IdleItem Nat := ⟨⟨0, 7⟩, 0⟩
  let f : Frame Nat := .checking (.evicting x { start := 0 })
  let m := evictingOne.started .close []
  have hm : Reachable .nesting m := reachable_evictingOne.next (.start _ _ [] (.refl _) trivial)
  have hongoing : m.ongoing = [] ++ f :: [] := by cbv
  have hend : (resume m.pool m.now f true).next = .done (.evicted 0) := by cbv
  obtain ⟨hidle, -, hlast⟩ := closed_emptied_iff hm hongoing hend (by cbv)
  obtain ⟨-, hiff⟩ := hlast rfl _ (.refl _)
  refine ⟨m.resumed f true [], x, by cbv, hidle, fun h => ?_⟩
  have hkept := (hiff (by cbv) (by cbv)).mp h
  cases hkept

/-- An eviction checks the only object of a pool, the callback closes the pool and finds the object
valid. The eviction has returned, no guard is left, and the object is still there. -/
theorem kept_in_closed_pool : ∃ (m m' : System Nat), Reachable .nesting m ∧
    (∃ x run, m.ongoing = [.checking (.evicting x run)]) ∧ m.guards = [] ∧
    Moves .nesting m (m.started .close []) ∧ Moves .nesting (m.started .close []) m' ∧
    (∃ e ∈ m'.events.getLast?, e.next = .done (.evicted 0)) ∧ m'.ongoing = [] ∧ m'.guards = [] ∧
    m'.pool.closed = true ∧ m'.pool.idle ≠ [] ∧ m'.pool.total = 1 ∧ m'.made.length = 1 ∧
    m'.destroyed = [] := by
  let f : Frame Nat := .checking (.evicting ⟨⟨0, 7⟩, 0⟩ { start := 0 })
  let m' := (evictingOne.started .close []).resumed f true []
  have hongoing : (evictingOne.started .close []).ongoing = [] ++ f :: [] := by cbv
  refine ⟨evictingOne, m', reachable_evictingOne, ⟨_, _, by cbv⟩, by cbv,
    .start _ _ [] (.refl _) trivial, .resume _ [] f [] true hongoing fun _ => rfl,
    ⟨.resumed f true (.done (.evicted 0)), by cbv, rfl⟩, by cbv, by cbv, by cbv, ?_, by cbv, by cbv,
    by cbv⟩
  have hidle : m'.pool.idle = [⟨⟨0, 7⟩, 0⟩] := by cbv
  rw [hidle]
  exact List.cons_ne_nil _ _

end ConnectionLeasing.Pool
