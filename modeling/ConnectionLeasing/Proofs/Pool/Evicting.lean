import ConnectionLeasing.Proofs.Pool.Stale

/-!
# Evicting stale objects

An eviction takes every idle object from the queue, destroys the stale ones, and puts the others
back. The queue is emptied on the way, so that the others fit into it again.

* `settles_evict`: by induction on the queue, what the pass comes to with what it has kept so far.
* `evictIdle_exact`: the eviction as a whole, and that another one finds nothing more.
-/

namespace ConnectionLeasing.Pool

variable {α : Type}

/-! ### What an eviction takes and leaves -/

def outdated (p : Pool α) (b : Replies α) (now : Nat) : List (IdleItem α) :=
  p.idle.filter (p.stale b now)

/-- The pool that an eviction leaves which kept `keep` before it came to this queue. -/
def sift (p : Pool α) (b : Replies α) (now : Nat) (keep : List (IdleItem α)) : Pool α :=
  { p.discard (p.outdated b now).length with
    idle := keep ++ p.idle.filter fun x => !p.stale b now x }

section sift
variable {p : Pool α} {b : Replies α} {now : Nat} {x : IdleItem α} {idle keep : List (IdleItem α)}

theorem outdated_of_empty (hp : p.idle = []) : p.outdated b now = [] := by
  rw [outdated, hp, List.filter_nil]

theorem outdated_of_fresh (hp : p.idle = x :: idle) (hx : p.stale b now x = false) :
    p.outdated b now = { p with idle }.outdated b now := by
  rw [outdated, hp, List.filter_cons_of_neg (Bool.eq_false_iff.mp hx)]
  rfl

theorem outdated_of_stale (hp : p.idle = x :: idle) (hx : p.stale b now x = true) :
    p.outdated b now = x :: ({ p with idle }.bookDestroyed).outdated b now := by
  rw [outdated, hp, List.filter_cons_of_pos hx]
  rfl

theorem sift_of_empty (hp : p.idle = []) : p.sift b now keep = { p with idle := keep } := by
  rw [sift, outdated_of_empty hp, List.length_nil, discard_zero, hp, List.filter_nil,
    List.append_nil]

theorem sift_of_fresh (hp : p.idle = x :: idle) (hx : p.stale b now x = false) :
    p.sift b now keep = { p with idle }.sift b now (keep ++ [x]) := by
  have hkeep : (x :: idle).filter (fun y => !p.stale b now y) =
      x :: idle.filter fun y => !p.stale b now y := List.filter_cons_of_pos (by simp [hx])
  rw [sift, outdated_of_fresh hp hx, hp, hkeep, sift, List.append_assoc]
  rfl

theorem sift_of_stale (hp : p.idle = x :: idle) (hx : p.stale b now x = true) :
    p.sift b now keep = ({ p with idle }.bookDestroyed).sift b now keep := by
  have hkeep : (x :: idle).filter (fun y => !p.stale b now y) =
      idle.filter fun y => !p.stale b now y := List.filter_cons_of_neg (by simp [hx])
  rw [sift, outdated_of_stale hp hx, List.length_cons, discard_succ hp, hp, hkeep]
  rfl

theorem outdated_sift (p : Pool α) (b : Replies α) (now : Nat) :
    (p.sift b now []).outdated b now = [] := by
  rw [outdated, List.filter_eq_nil_iff]
  intro x hx
  have hfresh : (!p.stale b now x) = true := (List.mem_filter.mp hx).2
  have hsame : (p.sift b now []).stale b now = p.stale b now := stale_congr rfl b now
  rw [hsame]
  simpa using hfresh

theorem sift_of_outdated_nil (h : p.outdated b now = []) : p.sift b now [] = p := by
  have hfresh : p.idle.filter (fun x => !p.stale b now x) = p.idle := by
    rw [List.filter_eq_self]
    intro x hx
    have hx' := List.filter_eq_nil_iff.mp h x hx
    simpa using hx'
  rw [sift, h, hfresh]
  rfl

end sift

/-! ### The pass over the queue -/

theorem evict_cons {p : Pool α} {x : IdleItem α} {idle : List (IdleItem α)}
    (hp : p.idle = x :: idle) (run : Eviction α) :
    p.evict run = p.look x idle run.start (.evicting x run) (.evicted run) [] := by
  rw [evict, hp]
  rfl

section pass
variable {b : Replies α} {below : List (Frame α)} {guards gone : List (Item α)}
  {before : List (Callback α)} {p : Pool α} {m m₁ : System α}

theorem settles_evict {idle : List (IdleItem α)} (hp : p.idle = idle) (run : Eviction α)
    (hstart : run.start = m.now)
    (hroom : idle.length + run.keep.length ≤ p.settings.capacity)
    (h : m.Underway below guards before gone (p.evict run) m₁) :
    ∃ r notes m', r = .evicted (run.evicted + (p.outdated b m.now).length) ∧
      Settles b.reaction below (p.evict run).next m₁ r m' ∧
      m.Underway below guards (before ++ idle.flatMap (p.examination b m.now))
        (gone ++ (p.outdated b m.now).map (·.toItem))
        ((p.sift b m.now run.keep).finish r notes) m' := by
  induction idle generalizing p m₁ before gone run with
  | nil =>
    have hevict : p.evict run = { p with idle := run.keep }.finish (.evicted run.evicted)
        (if run.evicted = 0 then [] else [.evicted run.evicted]) := by
      rw [List.length_nil] at hroom
      rw [evict, hp]
      dsimp only
      rw [restore_eq p run.evicted run.keep (by rwa [hp]), hp, List.nil_append]
    rw [hevict] at h ⊢
    refine ⟨_, if run.evicted = 0 then [] else [.evicted run.evicted], _, ?_, .done _ _, ?_⟩
    · rw [outdated_of_empty hp]
      rfl
    · simpa only [outdated_of_empty hp, sift_of_empty hp, List.flatMap_nil, List.map_nil,
        List.append_nil] using h
  | cons x idle ih =>
    rw [List.length_cons] at hroom
    rw [evict_cons hp, hstart] at h ⊢
    cases hx : p.stale b m.now x with
    | true =>
      obtain ⟨m₂, hm₂, hgoes⟩ := look_stale rfl (fun _ => rfl) hx h
      have hfits : idle.length + run.keep.length ≤ p.settings.capacity := by omega
      obtain ⟨r, notes, m', hr, hsettles, hdone⟩ :=
        ih (p := { p with idle }.bookDestroyed) rfl { run with evicted := run.evicted + 1 } hstart
          hfits hm₂
      have hsame : ({ p with idle }.bookDestroyed).examination b m.now = p.examination b m.now :=
        examination_congr rfl b m.now
      rw [hsame] at hdone
      rw [outdated_of_stale hp hx, sift_of_stale hp hx]
      refine ⟨r, notes, m', ?_, hgoes r m' hsettles, ?_⟩
      · rw [hr, List.length_cons]
        dsimp only
        congr 1
        omega
      · simpa using hdone
    | false =>
      obtain ⟨m₂, hm₂, hgoes⟩ := look_fresh rfl hx h
      have hfits : idle.length + (run.keep ++ [x]).length ≤ p.settings.capacity := by
        rw [List.length_append, List.length_singleton]
        omega
      obtain ⟨r, notes, m', hr, hsettles, hdone⟩ :=
        ih (p := { p with idle }) rfl { run with keep := run.keep ++ [x] } hstart hfits hm₂
      have hsame : { p with idle }.examination b m.now = p.examination b m.now :=
        examination_congr rfl b m.now
      rw [hsame] at hdone
      rw [outdated_of_fresh hp hx, sift_of_fresh hp hx]
      refine ⟨r, notes, m', hr, hgoes r m' hsettles, ?_⟩
      simpa using hdone

end pass

/-! ### Evictions -/

section evictions
variable {R : Regime α} {m : System α} [DecidableEq α]

theorem run_evictIdle (b : Replies α) (hroom : m.pool.idle.length ≤ m.pool.settings.capacity) :
    ∃ m', (Conduct.alone b.reaction).run m .evictIdle =
        (.evicted (m.pool.outdated b m.now).length, m') ∧
      ∃ notes, m.Underway m.ongoing m.guards (m.pool.idle.flatMap (m.pool.examination b m.now))
        ((m.pool.outdated b m.now).map (·.toItem))
        ((m.pool.sift b m.now []).finish (.evicted (m.pool.outdated b m.now).length) notes) m' := by
  have hstarted := m.underway_started .evictIdle m.guards
  obtain ⟨r, notes, m', hr, hsettles, hdone⟩ :=
    settles_evict (b := b) rfl { start := m.now } rfl hroom hstarted
  dsimp only at hr
  rw [Nat.zero_add] at hr
  subst hr
  exact ⟨m', hsettles.run_eq, notes, hdone⟩

/-- **An eviction destroys the stale objects and no others.** It destroys them in the order of the
queue, in which the others stay as they were, and another one at the same moment finds nothing. -/
theorem evictIdle_exact (hm : Reachable R m) (b : Replies α) :
    let gone := m.pool.idle.filter (m.pool.stale b m.now)
    ∃ m', (Conduct.alone b.reaction).run m .evictIdle = (.evicted gone.length, m') ∧
      m'.calls = m.calls ++ m.pool.idle.flatMap (m.pool.examination b m.now) ∧
      m'.destroyed = m.destroyed ++ gone.map (·.toItem) ∧ (m'.destroyed.map (·.id)).Nodup ∧
      m'.pool = { m.pool with
        idle := m.pool.idle.filter fun x => !m.pool.stale b m.now x
        total := m.pool.total - gone.length
        destroyed := m.pool.destroyed + gone.length
        signals := m.pool.signals + gone.length } ∧
      m'.pool.total + gone.length = m.pool.total ∧
      m'.pool.idle.length + gone.length = m.pool.idle.length ∧
      m'.guards = m.guards ∧ m'.ongoing = m.ongoing ∧ m'.now = m.now ∧
      ∃ m'', (Conduct.alone b.reaction).run m' .evictIdle = (.evicted 0, m'') ∧
        m''.pool = m'.pool ∧ m''.destroyed = m'.destroyed ∧ m''.guards = m'.guards := by
  intro gone
  have hb := hm.balances
  have hgone : gone.Sublist m.pool.idle := List.filter_sublist
  have hsizes : m.pool.idle.length ≤ m.pool.total := by
    have htotal := hb.total
    omega
  have hroom : m.pool.idle.length ≤ m.pool.settings.capacity :=
    Nat.le_trans (Nat.le_trans hsizes hb.bound) (Nat.le_max_left _ _)
  obtain ⟨m', hrun, notes, hdone⟩ := run_evictIdle b hroom
  have hdestroyed : m'.destroyed = m.destroyed ++ gone.map (·.toItem) := hdone.destroyed
  have hpool : m'.pool = m.pool.sift b m.now [] := hdone.pool
  have hlengths : m'.pool.idle.length + gone.length = m.pool.idle.length := by
    have hlength := List.length_eq_length_filter_add (l := m.pool.idle) (m.pool.stale b m.now)
    have hkept : m'.pool.idle = m.pool.idle.filter fun x => !m.pool.stale b m.now x := by
      rw [hpool]
      rfl
    rw [hkept]
    simp only [gone] at hlength ⊢
    omega
  have htotal : m'.pool.total = m.pool.total - gone.length := by
    rw [hpool]
    rfl
  -- nothing stale is left, and so another eviction leaves the queue as it is
  have hnone : m'.pool.outdated b m'.now = [] := by
    rw [hpool, hdone.now]
    exact outdated_sift m.pool b m.now
  have hroom' : m'.pool.idle.length ≤ m'.pool.settings.capacity := by
    have hsettings : m'.pool.settings = m.pool.settings := by
      rw [hpool]
      rfl
    rw [hsettings]
    omega
  obtain ⟨m'', hrun', notes', hdone'⟩ := run_evictIdle b hroom'
  rw [hnone] at hrun' hdone'
  refine ⟨m', hrun, hdone.calls_eq, hdestroyed, ?_, hpool, ?_, hlengths, hdone.guards,
    hdone.ongoing, hdone.now, m'', hrun', ?_, ?_, hdone'.guards⟩
  · rw [hdestroyed]
    exact hb.nodup_destroyed hgone
  · have hlength := hgone.length_le
    omega
  · have hpool' : m''.pool = m'.pool.sift b m'.now [] := hdone'.pool
    rw [hpool', sift_of_outdated_nil hnone]
  · rw [hdone'.destroyed, List.map_nil, List.append_nil]

/-- The oldest of three idle objects is past the timeout and the next one is no longer valid: both
are destroyed, the first without a look at it, and the last one stays. -/
theorem evictIdle_exact_older : ∃ (b : Replies Nat) (m' : System Nat),
    Reachable .nesting threeIdle ∧ threeIdle.pool.expired ⟨⟨0, 7⟩, 0⟩ threeIdle.now ∧
      (Conduct.alone b.reaction).run threeIdle .evictIdle = (.evicted 2, m') ∧
      m'.calls = threeIdle.calls ++
        [.destroy ⟨0, 7⟩, .validate ⟨1, 8⟩, .destroy ⟨1, 8⟩, .validate ⟨2, 9⟩] ∧
      m'.destroyed = [⟨0, 7⟩, ⟨1, 8⟩] ∧ m'.pool.idle = [⟨⟨2, 9⟩, 2⟩] ∧ m'.pool.total = 1 := by
  let b : Replies Nat := ⟨fun x => decide (x.value ≠ 8), .ok 9⟩
  have hexpired : threeIdle.pool.expired ⟨⟨0, 7⟩, 0⟩ threeIdle.now :=
    (expired_iff ..).mpr ⟨⟨5⟩, rfl, by decide⟩
  obtain ⟨m', hrun, hcalls, hdestroyed, -, hpool, -⟩ := evictIdle_exact reachable_threeIdle b
  have hgone : threeIdle.pool.idle.filter (threeIdle.pool.stale b threeIdle.now) =
      [⟨⟨0, 7⟩, 0⟩, ⟨⟨1, 8⟩, 2⟩] := by cbv
  rw [hgone] at hrun hdestroyed hpool
  refine ⟨b, m', reachable_threeIdle, hexpired, hrun, hcalls.trans (by cbv), hdestroyed, ?_, ?_⟩
  · rw [hpool]
    cbv
  · rw [hpool]
    cbv

end evictions

end ConnectionLeasing.Pool
