import ConnectionLeasing.Proofs.Pool.Stale
import Mathlib.Data.List.TakeWhile

/-!
# The order of idle objects

What is given back joins the queue at its end, with the present moment. An eviction takes the whole
queue apart and puts old objects back, and others may start while it waits. But an eviction that
ends before the one below it goes on has taken its objects from what the one below has left in the
queue, and these are younger than all that the one below has set aside.

* `System.line`: what evictions have set aside, the oldest eviction first, followed by the queue.
* `Step.line`: the part of it that belongs to one operation; one lemma for each function of the
  pool says that it loses objects, or gains one of the present moment at its end.
* `System.Orderly.next`: so every move keeps the line in the order of the idle times.
* `oldest_first`: the queue after any run in which operations nest, and what is lent from it;
  `overlap_disorders`: without nesting two evictions may change the order.
-/

namespace ConnectionLeasing.Pool

variable {α : Type}

/-! ### What evictions have set aside -/

/-- The idle objects that an eviction has in hand and may put back, in the order of the queue. -/
def Frame.aside : Frame α → List (IdleItem α)
  | checking (.evicting x run) => run.keep ++ [x]
  | destroying _ (.evicted run) => run.keep
  | destroying _ (.rejected others _) => others
  | creating | checking (.returned _) | checking (.lending ..) | destroying _ .returned
  | destroying _ (.stale _) | destroying _ (.drained ..) => []

/-- What the operation has set aside, followed by the queue. -/
def Step.line (s : Step α) : List (IdleItem α) := (left s.next).flatMap Frame.aside ++ s.pool.idle

namespace System

/-- What the operations in progress have set aside, first what the one that waits longest has,
followed by the queue. -/
def line (m : System α) : List (IdleItem α) := m.ongoing.reverse.flatMap Frame.aside ++ m.pool.idle

/-- The line is in the order of the idle times, none of which lies ahead. -/
structure Orderly (m : System α) : Prop where
  sorted : m.line.Pairwise fun x y => x.since ≤ y.since
  past : ∀ x ∈ m.line, x.since ≤ m.now

end System

section steps
variable {p : Pool α}

theorem line_lend (p : Pool α) (start : Nat) : (p.lend start).line.Sublist p.idle := by
  rw [lend]
  split
  · rename_i x idle hp
    rw [hp]
    dsimp only
    split <;> exact List.sublist_cons_self x idle
  · rename_i hp
    split <;> simp [Step.line, await, finish, left, Frame.aside, hp]

theorem line_drain (p : Pool α) (drained : Nat) (cause : Drain) :
    (p.drain drained cause).line.Sublist p.idle := by
  unfold drain
  split
  · rename_i x idle hp
    rw [hp]
    exact List.sublist_cons_self x idle
  · exact .refl _

theorem line_requeue (p : Pool α) (now : Nat) (x : Item α) :
    (p.requeue now x).line.Sublist (p.idle ++ [⟨x, now⟩]) := by
  rw [requeue]
  split
  · exact List.sublist_append_left _ _
  · rename_i q hq
    obtain rfl := push?_eq_some hq
    split
    · exact line_drain _ 0 .returned
    · exact .refl _

/-- What an eviction has kept goes back in front of what has been queued since. -/
theorem line_evict (run : Eviction α)
    (h : p.idle.length + run.keep.length ≤ p.settings.capacity) :
    (p.evict run).line.Sublist (run.keep ++ p.idle) := by
  rw [evict]
  split
  · rename_i x idle hp
    rw [hp]
    dsimp only
    split
    · have hline : ({ p with idle }.await (.destroying x.toItem (.evicted run)) []).line =
          run.keep ++ idle := by simp [Step.line, await, left, Frame.aside]
      rw [hline]
      exact (List.sublist_cons_self x idle).append_left run.keep
    · have hline : ({ p with idle }.await (.checking (.evicting x run)) []).line =
          run.keep ++ x :: idle := by simp [Step.line, await, left, Frame.aside]
      rw [hline]
  · -- the queue is empty by now, so what was kept makes up all of it
    rename_i hp
    rw [restore_eq p _ _ h, hp, List.append_nil]
    exact .refl _

theorem line_start (now : Nat) (k : Command α) (h : p.idle.length ≤ p.settings.capacity) :
    (start p now k).line.Sublist p.idle := by
  cases k with
  | tryBorrow =>
    rw [start, tryBorrow]
    split
    · exact .refl _
    · exact line_lend p now
  | giveBack x =>
    rw [start, giveBack]
    split <;> exact .refl _
  | evictIdle => exact line_evict { start := now } h
  | close => exact line_drain _ 0 .close

theorem line_resume (now : Nat) {f : Frame α} (a : f.callback.Answer)
    (h : p.idle.length + f.items.length ≤ p.settings.capacity) (hf : f.isRejected = false) :
    ∃ fresh, (resume p now f a).line.Sublist (f.aside ++ p.idle ++ fresh) ∧
      ∀ x ∈ fresh, x.since = now := by
  have hloses {l : List (IdleItem α)} (hl : l.Sublist (f.aside ++ p.idle)) :
      ∃ fresh, l.Sublist (f.aside ++ p.idle ++ fresh) ∧ ∀ x ∈ fresh, x.since = now :=
    ⟨[], by rwa [List.append_nil], by simp⟩
  cases f with
  | creating => cases a <;> exact hloses (.refl _)
  | checking c =>
    cases c with
    | returned x =>
      cases a with
      | true => exact ⟨[⟨x, now⟩], line_requeue p now x, by simp⟩
      | false => exact hloses (.refl _)
    | lending x start => cases a <;> exact hloses (.refl _)
    | evicting x run =>
      cases a with
      | true =>
        rw [length_items_evicting] at h
        exact hloses (line_evict { run with keep := run.keep ++ [x] } h)
      | false =>
        have hline : (resume p now (.checking (.evicting x run)) false).line =
            run.keep ++ p.idle := by
          simp [resume, resumeChecking, Step.line, await, left, Frame.aside]
        rw [hline]
        exact hloses ((List.sublist_append_left run.keep [x]).append_right p.idle)
  | destroying x d =>
    refine hloses ?_
    cases d with
    | returned => exact .refl _
    | stale start => exact line_lend p.bookDestroyed start
    | evicted run =>
      rw [length_items_evicted] at h
      exact line_evict (p := p.bookDestroyed) { run with evicted := run.evicted + 1 }
        (Nat.le_of_succ_le h)
    | rejected others evicted => cases hf
    | drained drained cause => exact line_drain p.bookDestroyed (drained + 1) cause

end steps

/-! ### Moves -/

namespace System

variable {m m' : System α}

theorem line_moved (m : System α) (seen : Progress (Frame α) (Result α) → Event α)
    (rest : List (Frame α)) (guards : List (Item α)) (step : Step α) :
    (m.moved seen rest guards step).line = rest.reverse.flatMap Frame.aside ++ step.line := by
  have hone : (left step.next).reverse = left step.next := by cases step.next <;> rfl
  rw [line, moved, Step.line, List.reverse_append, List.flatMap_append, hone, List.append_assoc]

theorem Orderly.of_sublist (hm : m.Orderly) (hnow : m'.now = m.now) {fresh : List (IdleItem α)}
    (hfresh : ∀ x ∈ fresh, x.since = m.now) (h : m'.line.Sublist (m.line ++ fresh)) :
    m'.Orderly where
  sorted := by
    refine List.Pairwise.sublist h (List.pairwise_append.mpr ⟨hm.sorted, ?_, ?_⟩)
    · refine List.pairwise_of_forall_mem_list fun x hx y hy => ?_
      exact Nat.le_of_eq ((hfresh x hx).trans (hfresh y hy).symm)
    · intro x hx y hy
      rw [hfresh y hy]
      exact hm.past x hx
  past x hx := by
    rw [hnow]
    rcases List.mem_append.mp (h.subset hx) with hx | hx
    · exact hm.past x hx
    · exact Nat.le_of_eq (hfresh x hx)

/-- **Every move keeps the line in order**, if operations end in the reverse order of their
starts. -/
theorem Orderly.next (hm : m.Orderly) (hreach : Reachable .nesting m)
    (hmove : Moves .nesting m m') : m'.Orderly := by
  have hb := hreach.balances
  cases hmove with
  | start k guards hk h =>
    have hnone : ∀ x ∈ ([] : List (IdleItem α)), x.since = m.now := by simp
    refine hm.of_sublist rfl hnone ?_
    rw [started, line_moved, List.append_nil, line]
    exact (line_start m.now k hb.idle_le_capacity).append_left _
  | resume before f later a hongoing h =>
    -- the operation that goes on is the last one that started: its part of the line comes last
    obtain rfl : before = [] := h trivial
    have hmem : f ∈ m.ongoing := by simp [hongoing]
    obtain ⟨fresh, hline, hfresh⟩ := line_resume m.now a (hb.room hmem) (hreach.unrejected f hmem)
    refine hm.of_sublist rfl hfresh ?_
    have hparts : m.line =
        later.reverse.flatMap Frame.aside ++ (f.aside ++ m.pool.idle) := by
      rw [line, hongoing]
      simp
    rw [resumed, line_moved, List.nil_append, hparts, List.append_assoc]
    exact hline.append_left _
  | pass t ht => exact ⟨hm.sorted, fun x hx => Nat.le_trans (hm.past x hx) ht⟩

end System

theorem Reachable.orderly {m : System α} (hm : Reachable .nesting m) : m.Orderly := by
  have hboth : Reachable .nesting m ∧ m.Orderly := by
    obtain ⟨name, settings, now, hrun⟩ := hm
    refine hrun.keeps (P := fun m => Reachable .nesting m ∧ m.Orderly)
      (fun _ _ hmove h => ⟨h.1.next hmove, h.2.next h.1 hmove⟩)
      ⟨.initial name settings now, .nil, ?_⟩
    intro x hx
    cases hx
  exact hboth.2

/-! ### Expired objects and the object that is lent -/

section queue
variable {p : Pool α} {x y : IdleItem α}

theorem expired_of_since_le (h : x.since ≤ y.since) {now : Nat} (hy : p.expired y now = true) :
    p.expired x now = true := by
  rw [expired, Option.any_eq_true] at hy ⊢
  obtain ⟨timeout, htimeout, hlt⟩ := hy
  refine ⟨timeout, htimeout, ?_⟩
  have hlt : timeout.nanos < now - y.since := of_decide_eq_true hlt
  have hlonger : now - y.since ≤ now - x.since := Nat.sub_le_sub_left h now
  exact decide_eq_true (Nat.lt_of_lt_of_le hlt hlonger)

/-- In a queue in the order of the idle times the expired objects come first. -/
theorem filter_expired_prefix {idle : List (IdleItem α)}
    (h : idle.Pairwise fun x y => x.since ≤ y.since) (now : Nat) :
    (idle.filter fun x => p.expired x now) <+: idle := by
  induction idle with
  | nil => exact List.prefix_rfl
  | cons x idle ih =>
    obtain ⟨hx, hidle⟩ := List.pairwise_cons.mp h
    cases hexpired : p.expired x now with
    | true =>
      rw [List.filter_cons_of_pos (by simpa using hexpired)]
      exact (List.prefix_cons_inj x).mpr (ih hidle)
    | false =>
      -- the front has not expired, so nothing behind it has
      have hfresh : ∀ y ∈ idle, ¬ p.expired y now = true := by
        intro y hy hexpired'
        rw [expired_of_since_le (hx y hy) hexpired'] at hexpired
        cases hexpired
      rw [List.filter_cons_of_neg (by simp [hexpired]),
        List.filter_eq_nil_iff.mpr hfresh]
      exact List.nil_prefix

theorem exists_idle_discard (b : Replies α) {now : Nat} (hx : x ∈ p.idle)
    (hfresh : p.stale b now x = false) :
    ∃ y queue, (p.discard (p.front b now).length).idle = y :: queue ∧
      p.stale b now y = false := by
  cases hrest : (p.discard (p.front b now).length).idle with
  | nil =>
    have hall := front_append_discard p b now
    rw [hrest, List.append_nil] at hall
    rw [← hall] at hx
    have hstale := List.mem_takeWhile_imp hx
    rw [hfresh] at hstale
    cases hstale
  | cons y queue =>
    refine ⟨y, queue, rfl, ?_⟩
    have hdrop : p.idle.dropWhile (p.stale b now) = y :: queue := by
      have hall := front_append_discard p b now
      rw [← List.takeWhile_append_dropWhile (p := p.stale b now) (l := p.idle), hrest] at hall
      exact (List.append_cancel_left hall).symm
    have hhead := List.head?_dropWhile_not (p.stale b now) p.idle
    rw [hdrop] at hhead
    simpa using hhead

end queue

section runs
variable [DecidableEq α] {m : System α}

/-- **The queue is in the order of the idle times, oldest first.** At every moment of a run in which
operations nest, evictions within evictions among them, each idle object has been idle for at least
as long as those behind it. So at any instant the expired objects are at the front; and if an idle
object is neither expired nor invalid, a borrow whose callbacks only answer destroys what is in
front of the first such object and lends that one, which has been idle longest of them all. -/
theorem oldest_first (hm : Reachable .nesting m) :
    (m.pool.idle.Pairwise fun x y => x.since ≤ y.since) ∧
    (∀ now, (m.pool.idle.filter fun x => m.pool.expired x now) <+: m.pool.idle) ∧
    (m.pool.closed = false → ∀ b : Replies α,
      (∃ x ∈ m.pool.idle, m.pool.expired x m.now = false ∧ b.valid x.toItem = true) →
      ∃ gone x queue m', (Conduct.alone b.reaction).run m .tryBorrow = (.lent x.toItem, m') ∧
        m.pool.idle = gone ++ x :: queue ∧ m'.pool.idle = queue ∧
        m'.destroyed = m.destroyed ++ gone.map (·.toItem) ∧
        (m.pool.expired x m.now = false ∧ b.valid x.toItem = true) ∧
        ∀ y ∈ m.pool.idle, m.pool.expired y m.now = false → b.valid y.toItem = true →
          x.since ≤ y.since) := by
  have hsorted : m.pool.idle.Pairwise fun x y => x.since ≤ y.since :=
    (List.pairwise_append.mp hm.orderly.sorted).2.1
  refine ⟨hsorted, filter_expired_prefix hsorted, fun hopen b husable => ?_⟩
  obtain ⟨z, hz, hfresh⟩ := husable
  obtain ⟨x, queue, hrest, hx⟩ := exists_idle_discard b hz (stale_eq_false.mpr hfresh)
  obtain ⟨calls, r, q, notes, m', hrun, hserved, hdone⟩ := run_tryBorrow hopen b
  obtain ⟨-, rfl, hq⟩ := hserved.of_cons hrest
  have hpool : m'.pool = q := hdone.pool
  have hsplit : m.pool.idle = m.pool.front b m.now ++ x :: queue := by
    rw [← hrest]
    exact (front_append_discard m.pool b m.now).symm
  refine ⟨m.pool.front b m.now, x, queue, m', hrun, hsplit, ?_, hdone.destroyed,
    stale_eq_false.mp hx, fun y hy hexpired hvalid => ?_⟩
  · rw [hpool, hq]
  · -- everything in front of `x` is stale, and what is behind it is younger
    rw [hsplit] at hy hsorted
    rcases List.mem_append.mp hy with hy | hy
    · have hstale := List.mem_takeWhile_imp hy
      rw [stale_eq_false.mpr ⟨hexpired, hvalid⟩] at hstale
      cases hstale
    · rcases List.mem_cons.mp hy with rfl | hy
      · exact Nat.le_refl _
      · exact (List.pairwise_cons.mp (List.pairwise_append.mp hsorted).2.1).1 y hy

end runs

/-! ### Evictions within evictions -/

/-- One of two objects was given back at the start, the other one is still lent. -/
def oneIdle : System Nat :=
  let x : Item Nat := ⟨0, 7⟩
  let m₀ : System Nat := .initial "pool" { maxSize := 2, idleTimeout := some ⟨7⟩ } 0
  let m₂ := (m₀.started .tryBorrow []).resumed .creating (.ok 7) []
  let m₄ := (m₂.started .tryBorrow [x]).resumed .creating (.ok 8) []
  { (m₄.started (.giveBack x) [⟨1, 8⟩]).resumed (.checking (.returned x)) true [] with now := 5 }

theorem reachable_oneIdle {R : Regime Nat} (hR : ∀ m k, R.admits m k) : Reachable R oneIdle := by
  let x : Item Nat := ⟨0, 7⟩
  let m₀ : System Nat := .initial "pool" { maxSize := 2, idleTimeout := some ⟨7⟩ } 0
  let m₁ := m₀.started .tryBorrow []
  let m₂ := m₁.resumed .creating (.ok 7) []
  let m₃ := m₂.started .tryBorrow [x]
  let m₄ := m₃.resumed .creating (.ok 8) []
  let m₅ := m₄.started (.giveBack x) [⟨1, 8⟩]
  let m₆ := m₅.resumed (.checking (.returned x)) true []
  have hm₀ : Reachable R m₀ := .initial _ _ _
  have hm₁ : Reachable R m₁ := hm₀.next (.start m₀ .tryBorrow [] (.refl _) (hR _ _))
  have hm₂ : Reachable R m₂ := hm₁.next (.resume m₁ [] .creating [] (.ok 7) rfl fun _ => rfl)
  have hm₃ : Reachable R m₃ := hm₂.next (.start m₂ .tryBorrow [x] (.refl _) (hR _ _))
  have hm₄ : Reachable R m₄ := hm₃.next (.resume m₃ [] .creating [] (.ok 8) rfl fun _ => rfl)
  have hm₅ : Reachable R m₅ :=
    hm₄.next (.start m₄ (.giveBack x) [⟨1, 8⟩] (.swap x ⟨1, 8⟩ []) (hR _ _))
  have hm₆ : Reachable R m₆ :=
    hm₅.next (.resume m₅ [] (.checking (.returned x)) [] true (by cbv) fun _ => rfl)
  exact hm₆.next (.pass m₆ 5 (by cbv))

/-- While an eviction checks the idle object, the other one is given back and a second eviction
checks that one. Both stay, in the order of their idle times. Later the older one has expired, and a
borrow lends the other one. -/
theorem oldest_first_nested : ∃ (m : System Nat) (x y : IdleItem Nat) (b : Replies Nat)
    (m' : System Nat), m.pool.idle = [x, y] ∧ x.since < y.since ∧
      (m.pool.idle.filter fun z => m.pool.expired z m.now) = [x] ∧ [x] <+: m.pool.idle ∧
      (Conduct.alone b.reaction).run m .tryBorrow = (.lent y.toItem, m') ∧ m'.pool.idle = [] := by
  let x : IdleItem Nat := ⟨⟨0, 7⟩, 0⟩
  let y : IdleItem Nat := ⟨⟨1, 8⟩, 5⟩
  let outer : Frame Nat := .checking (.evicting x { start := 5 })
  let outer' : Frame Nat := .checking (.evicting y { start := 5, keep := [x] })
  let inner : Frame Nat := .checking (.evicting y { start := 5 })
  let m₁ := oneIdle.started .evictIdle [y.toItem]
  let m₂ := m₁.started (.giveBack y.toItem) []
  let m₃ := m₂.resumed (.checking (.returned y.toItem)) true [outer]
  let m₄ := m₃.started .evictIdle []
  let m₅ := m₄.resumed inner true [outer]
  let m₆ := m₅.resumed outer true []
  let m₇ := m₆.resumed outer' true []
  let m₈ : System Nat := { m₇ with now := 10 }
  have hm₁ : Reachable .nesting m₁ :=
    (reachable_oneIdle fun _ _ => trivial).next (.start _ _ _ (.refl _) trivial)
  have hm₂ : Reachable .nesting m₂ := hm₁.next (.start m₁ _ [] (.refl _) trivial)
  have hm₃ : Reachable .nesting m₃ :=
    hm₂.next (.resume m₂ [] (.checking (.returned y.toItem)) [outer] true (by cbv) fun _ => rfl)
  have hm₄ : Reachable .nesting m₄ := hm₃.next (.start m₃ .evictIdle [] (.refl _) trivial)
  have hm₅ : Reachable .nesting m₅ :=
    hm₄.next (.resume m₄ [] inner [outer] true (by cbv) fun _ => rfl)
  have hm₆ : Reachable .nesting m₆ := hm₅.next (.resume m₅ [] outer [] true (by cbv) fun _ => rfl)
  have hm₇ : Reachable .nesting m₇ := hm₆.next (.resume m₆ [] outer' [] true (by cbv) fun _ => rfl)
  have hm₈ : Reachable .nesting m₈ := hm₇.next (.pass m₇ 10 (by cbv))
  have hidle : m₈.pool.idle = [x, y] := by cbv
  have hexpired : (m₈.pool.idle.filter fun z => m₈.pool.expired z m₈.now) = [x] := by cbv
  obtain ⟨-, hprefix, hlent⟩ := oldest_first hm₈
  obtain ⟨gone, z, queue, m', hrun, hsplit, hqueue, -, hz, -⟩ :=
    hlent (by cbv) ⟨fun _ => true, .ok 9⟩ ⟨y, by rw [hidle]; simp, by cbv, rfl⟩
  have hx : m₈.pool.expired x m₈.now = true := by cbv
  rw [hidle] at hsplit
  -- the object that is lent is not the older one, which has expired
  obtain ⟨rfl, rfl⟩ : z = y ∧ queue = [] := by
    rcases gone with _ | ⟨_, _ | ⟨_, gone⟩⟩
    · obtain ⟨rfl, -⟩ := List.cons.inj hsplit
      rw [hx] at hz
      cases hz.1
    · obtain ⟨-, htail⟩ := List.cons.inj hsplit
      obtain ⟨rfl, rfl⟩ := List.cons.inj htail
      exact ⟨rfl, rfl⟩
    · simp at hsplit
  refine ⟨m₈, x, y, _, m', hidle, by cbv, hexpired, ?_, hrun, hqueue⟩
  rw [← hexpired]
  exact hprefix m₈.now

/-- Nesting keeps the order: where an eviction may end while a later one waits, the later one takes
up what the earlier one has put back, behind the younger object it has set aside. -/
theorem overlap_disorders : ∃ (m : System Nat) (x y : IdleItem Nat), Reachable .any m ∧
    m.ongoing = [] ∧ m.pool.idle = [y, x] ∧ x.since < y.since := by
  let x : IdleItem Nat := ⟨⟨0, 7⟩, 0⟩
  let y : IdleItem Nat := ⟨⟨1, 8⟩, 5⟩
  let first : Frame Nat := .checking (.evicting x { start := 5 })
  let second : Frame Nat := .checking (.evicting y { start := 5 })
  let second' : Frame Nat := .checking (.evicting x { start := 5, keep := [y] })
  let m₁ := oneIdle.started (.giveBack y.toItem) []
  let m₂ := m₁.resumed (.checking (.returned y.toItem)) true []
  let m₃ := m₂.started .evictIdle []
  let m₄ := m₃.started .evictIdle []
  let m₅ := m₄.resumed first true [second]
  let m₆ := m₅.resumed second true []
  let m₇ := m₆.resumed second' true []
  have hm₁ : Reachable .any m₁ :=
    (reachable_oneIdle fun _ _ => trivial).next (.start _ _ [] (.refl _) trivial)
  have hm₂ : Reachable .any m₂ :=
    hm₁.next (.resume m₁ [] (.checking (.returned y.toItem)) [] true (by cbv) fun h => h.elim)
  have hm₃ : Reachable .any m₃ := hm₂.next (.start m₂ .evictIdle [] (.refl _) trivial)
  have hm₄ : Reachable .any m₄ := hm₃.next (.start m₃ .evictIdle [] (.refl _) trivial)
  have hm₅ : Reachable .any m₅ :=
    hm₄.next (.resume m₄ [second] first [] true (by cbv) fun h => h.elim)
  have hm₆ : Reachable .any m₆ := hm₅.next (.resume m₅ [] second [] true (by cbv) fun h => h.elim)
  have hm₇ : Reachable .any m₇ := hm₆.next (.resume m₆ [] second' [] true (by cbv) fun h => h.elim)
  exact ⟨m₇, x, y, hm₇, by cbv, by cbv, by cbv⟩

end ConnectionLeasing.Pool
