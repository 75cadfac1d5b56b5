import ConnectionLeasing.Proofs.Pool.Run

/-!
# What an operation does with objects

Between two callbacks an operation makes and destroys nothing: what it had in hand and what was idle
is afterwards in its hands, lent by it, or idle. `Step.Conserves` says so of a step and what the
operation had in hand before; each function of the pool has one lemma. Objects come and go between
steps only: when a creation is answered, and when a destruction is booked.

The queue has room for all the objects that its pool has, so an eviction puts back what it has set
aside without losing any (`restore_eq`).
-/

namespace ConnectionLeasing.Pool

variable {α : Type}

def items (p : Pool α) : List (Item α) := p.idle.map (·.toItem)

namespace Step

/-- The objects in the hands of the operation, and the one it has lent. -/
def items (s : Step α) : List (Item α) := (left s.next).flatMap Frame.items ++ lent s.next

def rooms (s : Step α) : Nat := (left s.next).countP Frame.isCreating

/-- Nothing is lost or made on the way from a pool and the objects in hand to a step, and room is
claimed below the limit only. -/
structure Conserves (s : Step α) (p : Pool α) (hand : List (Item α)) : Prop where
  items : (s.items ++ s.pool.items).Perm (hand ++ p.items)
  total : s.pool.total = p.total + s.rooms
  bound : p.total ≤ p.settings.maxSize → s.pool.total ≤ p.settings.maxSize
  settings : s.pool.settings = p.settings
  created : s.pool.created = p.created
  destroyed : s.pool.destroyed = p.destroyed
  nextId : s.pool.nextId = p.nextId
  closed : p.closed → s.pool.closed

end Step

/-! ### Small changes of a pool -/

/-- The pools differ in their queues and signals only, and closing is for ever. -/
structure Alike (p q : Pool α) : Prop where
  total : p.total = q.total
  settings : p.settings = q.settings
  created : p.created = q.created
  destroyed : p.destroyed = q.destroyed
  nextId : p.nextId = q.nextId
  closed : q.closed → p.closed

theorem Alike.refl (p : Pool α) : p.Alike p := ⟨rfl, rfl, rfl, rfl, rfl, id⟩

theorem alike_withIdle (p : Pool α) (idle : List (IdleItem α)) : { p with idle }.Alike p :=
  ⟨rfl, rfl, rfl, rfl, rfl, id⟩

section steps
variable {p q : Pool α} {s : Step α} {hand hand' : List (Item α)}

theorem Step.Conserves.after (h : s.Conserves q hand) (hq : q.Alike p)
    (hi : (hand ++ q.items).Perm (hand' ++ p.items)) : s.Conserves p hand' where
  items := h.items.trans hi
  total := by rw [h.total, hq.total]
  bound hp := by
    rw [← hq.settings]
    refine h.bound ?_
    rwa [hq.total, hq.settings]
  settings := h.settings.trans hq.settings
  created := h.created.trans hq.created
  destroyed := h.destroyed.trans hq.destroyed
  nextId := h.nextId.trans hq.nextId
  closed hp := h.closed (hq.closed hp)

theorem conserves_await {f : Frame α} (p : Pool α) (notes : List Note) (hf : f.isCreating = false)
    (hi : f.items = hand) : (p.await f notes).Conserves p hand where
  items := by simp [Step.items, await, left, lent, hi]
  total := by simp [Step.rooms, await, left, hf]
  bound := id
  settings := rfl
  created := rfl
  destroyed := rfl
  nextId := rfl
  closed := id

theorem conserves_finish (p : Pool α) (r : Result α) (notes : List Note)
    (hi : lent (.done r) = hand) : (p.finish r notes).Conserves p hand where
  items := by simp [Step.items, finish, left, hi]
  total := rfl
  bound := id
  settings := rfl
  created := rfl
  destroyed := rfl
  nextId := rfl
  closed := id

theorem conserves_finish_signal (p : Pool α) (r : Result α) (notes : List Note)
    (hi : lent (.done r) = hand) : (p.signal.finish r notes).Conserves p hand :=
  (conserves_finish p.signal r notes hi).after ⟨rfl, rfl, rfl, rfl, rfl, id⟩ (.refl _)

theorem Step.Conserves.pop {x : IdleItem α} {idle : List (IdleItem α)} (hp : p.idle = x :: idle)
    (h : s.Conserves { p with idle } (x.toItem :: hand)) : s.Conserves p hand := by
  refine h.after (alike_withIdle p idle) ?_
  rw [Pool.items, Pool.items, hp, List.map_cons]
  exact List.perm_middle.symm

/-! ### The functions -/

theorem conserves_lend (p : Pool α) (start : Nat) : (p.lend start).Conserves p [] := by
  rw [lend]
  split
  · rename_i x idle hp
    refine .pop hp ?_
    dsimp only
    split
    · exact conserves_await _ _ rfl rfl
    · exact conserves_await _ _ rfl rfl
  · rename_i hp
    split
    · rename_i hroom
      exact ⟨by simp [Step.items, await, left, lent, Frame.items, items, hp], rfl, fun _ => hroom,
        rfl, rfl, rfl, rfl, id⟩
    · exact conserves_finish p _ _ rfl

theorem conserves_drain (p : Pool α) (drained : Nat) (cause : Drain) :
    (p.drain drained cause).Conserves p [] := by
  unfold drain
  split
  · rename_i x idle hp
    exact .pop hp (conserves_await _ _ rfl rfl)
  · cases cause with
    | close => exact conserves_finish_signal p _ _ rfl
    | returned => exact conserves_finish_signal p _ _ rfl

theorem push?_eq_some {x : IdleItem α} (h : p.push? x = some q) :
    q = { p with idle := p.idle ++ [x] } := by
  rw [push?] at h
  split at h
  · exact (Option.some.inj h).symm
  · cases h

theorem push?_of_lt (x : IdleItem α) (h : p.idle.length < p.settings.capacity) :
    p.push? x = some { p with idle := p.idle ++ [x] } := if_pos h

theorem Step.Conserves.push {x : IdleItem α} (hq : p.push? x = some q) (h : s.Conserves q hand) :
    s.Conserves p (x.toItem :: hand) := by
  obtain rfl := push?_eq_some hq
  refine h.after (alike_withIdle p _) ?_
  rw [Pool.items, Pool.items, List.map_append, ← List.append_assoc, List.cons_append]
  exact List.perm_append_singleton _ _

theorem conserves_requeue (p : Pool α) (now : Nat) (x : Item α) :
    (p.requeue now x).Conserves p [x] := by
  rw [requeue]
  split
  · exact conserves_await p _ rfl rfl
  · rename_i q hq
    refine .push hq ?_
    split
    · exact conserves_drain q 0 .returned
    · exact conserves_finish_signal q _ _ rfl

theorem conserves_restore (p : Pool α) (evicted : Nat) (keep : List (IdleItem α)) :
    (p.restore evicted keep).Conserves p (keep.map (·.toItem)) := by
  induction keep generalizing p with
  | nil => exact conserves_finish p _ _ rfl
  | cons x others ih =>
    rw [restore]
    split
    · rename_i q hq
      exact .push hq (ih q)
    · exact conserves_await p _ rfl rfl

theorem conserves_evict (p : Pool α) (run : Eviction α) :
    (p.evict run).Conserves p (run.keep.map (·.toItem)) := by
  rw [evict]
  split
  · rename_i x idle hp
    refine .pop hp ?_
    dsimp only
    split
    · exact conserves_await _ _ rfl rfl
    · exact conserves_await _ _ rfl rfl
  · exact conserves_restore p _ _

theorem conserves_start (p : Pool α) (now : Nat) (k : Command α) :
    (start p now k).Conserves p k.items := by
  cases k with
  | tryBorrow =>
    rw [start, tryBorrow]
    split
    · exact conserves_finish p _ _ rfl
    · exact conserves_lend p now
  | giveBack x =>
    rw [start, giveBack]
    split
    · exact conserves_await p _ rfl rfl
    · exact conserves_await p _ rfl rfl
  | evictIdle => exact conserves_evict p { start := now }
  | close =>
    exact (conserves_drain { p with closed := true } 0 .close).after
      ⟨rfl, rfl, rfl, rfl, rfl, fun _ => rfl⟩ (.refl _)

theorem conserves_resumeChecking (p : Pool α) (now : Nat) (valid : Bool) (c : Check α) :
    (p.resumeChecking now valid c).Conserves p c.items := by
  cases c with
  | returned x =>
    cases valid with
    | true => exact conserves_requeue p now x
    | false => exact conserves_await p _ rfl rfl
  | lending x start =>
    cases valid with
    | true => exact conserves_finish p _ _ rfl
    | false => exact conserves_await p _ rfl rfl
  | evicting x run =>
    cases valid with
    | true =>
      refine (conserves_evict p { run with keep := run.keep ++ [x] }).after (.refl p) ?_
      rw [Check.items, List.map_append]
      exact (List.perm_append_singleton _ _).append_right _
    | false => exact conserves_await p _ rfl rfl

theorem conserves_resumeDestroying (p : Pool α) (d : Disposal α) :
    (p.resumeDestroying d).Conserves p d.items := by
  cases d with
  | returned => exact conserves_finish p _ _ rfl
  | stale start => exact conserves_lend p start
  | evicted run => exact conserves_evict p { run with evicted := run.evicted + 1 }
  | rejected others evicted => exact conserves_restore p (evicted + 1) others
  | drained drained cause => exact conserves_drain p (drained + 1) cause

theorem closed_resume (now : Nat) {f : Frame α} (a : f.callback.Answer) (h : p.closed = true) :
    (resume p now f a).pool.closed = true := by
  cases f with
  | creating => cases a <;> exact h
  | checking c => exact (conserves_resumeChecking p now a c).closed h
  | destroying x d => exact (conserves_resumeDestroying _ d).closed h

end steps

/-! ### Putting back what stays -/

/-- With room for all of them, the objects that stay are put back in their order. -/
theorem restore_eq (p : Pool α) (evicted : Nat) (keep : List (IdleItem α))
    (h : p.idle.length + keep.length ≤ p.settings.capacity) :
    p.restore evicted keep = { p with idle := p.idle ++ keep }.finish (.evicted evicted)
      (if evicted = 0 then [] else [.evicted evicted]) := by
  induction keep generalizing p with
  | nil => rw [restore, List.append_nil]
  | cons x others ih =>
    rw [List.length_cons] at h
    rw [restore, push?_of_lt x (by omega)]
    dsimp only
    rw [ih]
    · rw [List.append_assoc]
      rfl
    · dsimp only
      rw [List.length_append, List.length_singleton]
      omega

end ConnectionLeasing.Pool
