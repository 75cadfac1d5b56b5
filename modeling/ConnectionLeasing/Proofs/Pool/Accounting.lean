import ConnectionLeasing.Proofs.Pool.Custody

/-!
# The books of a pool balance

Every object made is idle, in a guard, in the hands of an operation, or destroyed; the pool's
counters are the lengths of these lists, and its total is at most its size. `Pool.Balances` says so
of a pool and the lists, `System.Balances` of a system of a run.

* `Balances.step`: a step that conserves objects keeps the balance; `Balances.make`, `unmake`,
  `destroy`: so do the bookings when a creation or a destruction is answered.
* `Balances.next`: so does every move. Hence the queue has room for whatever is in the hands of an
  operation (`Balances.room`), and what an eviction puts back is never rejected.
* `books_balance`: the account of a pool after any run.
-/

namespace ConnectionLeasing.Pool

variable {α : Type}

/-- The counters of a pool agree with where its objects are: `rooms` objects are being made, and the
others are in `hands`, in `guards`, idle or `destroyed`. -/
structure Balances (p : Pool α) (rooms : Nat) (hands guards made destroyed : List (Item α)) :
    Prop where
  placed : (destroyed ++ (hands ++ (guards ++ p.items))).Perm made
  numbered : made.map (·.id) = List.range p.nextId
  created : p.created = made.length
  destroyed : p.destroyed = destroyed.length
  total : p.total = rooms + hands.length + guards.length + p.idle.length
  bound : p.total ≤ p.settings.maxSize

section balances
variable {p : Pool α} {s : Step α} {rooms : Nat}
  {hand hands guards guards' made destroyed : List (Item α)}

theorem length_items (p : Pool α) : p.items.length = p.idle.length := List.length_map _

theorem Balances.nodup (hb : p.Balances rooms hands guards made destroyed) :
    (made.map (·.id)).Nodup := by
  rw [hb.numbered]
  exact List.nodup_range

theorem Balances.step (hb : p.Balances rooms (hand ++ hands) guards made destroyed)
    (hs : s.Conserves p hand) :
    s.pool.Balances (s.rooms + rooms) ((left s.next).flatMap Frame.items ++ hands)
      (lent s.next ++ guards) made destroyed where
  placed := by
    classical
    refine List.perm_iff_count.mpr fun x => ?_
    have hstep := hs.items.count_eq x
    have hplaced := hb.placed.count_eq x
    simp only [Step.items, List.count_append] at hstep hplaced ⊢
    omega
  numbered := by rw [hb.numbered, hs.nextId]
  created := hs.created.trans hb.created
  destroyed := hs.destroyed.trans hb.destroyed
  total := by
    have hlen := hs.items.length_eq
    have htotal := hb.total
    rw [hs.total]
    simp only [Step.items, List.length_append, length_items] at hlen htotal ⊢
    omega
  bound := by
    rw [hs.settings]
    exact hs.bound hb.bound

theorem Balances.drop (hb : p.Balances rooms hands guards made destroyed)
    (hg : guards.Perm (hand ++ guards')) :
    p.Balances rooms (hand ++ hands) guards' made destroyed where
  placed := by
    classical
    refine List.perm_iff_count.mpr fun x => ?_
    have hguards := hg.count_eq x
    have hplaced := hb.placed.count_eq x
    simp only [List.count_append] at hguards hplaced ⊢
    omega
  numbered := hb.numbered
  created := hb.created
  destroyed := hb.destroyed
  total := by
    have hlen := hg.length_eq
    have htotal := hb.total
    simp only [List.length_append] at hlen htotal ⊢
    omega
  bound := hb.bound

theorem Balances.make (hb : p.Balances (rooms + 1) hands guards made destroyed) (x : Item α)
    (hx : x.id = p.nextId) :
    { p with nextId := p.nextId + 1, created := p.created + 1 }.Balances rooms
      (x :: hands) guards (made ++ [x]) destroyed where
  placed := by
    have hfront : (destroyed ++ (x :: (hands ++ (guards ++ p.items)))).Perm
        (x :: (destroyed ++ (hands ++ (guards ++ p.items)))) := List.perm_middle
    exact hfront.trans ((hb.placed.cons x).trans (List.perm_append_singleton x _).symm)
  numbered := by
    rw [List.map_append, hb.numbered, List.range_succ, ← hx]
    rfl
  created := by
    rw [List.length_append]
    exact congrArg (· + 1) hb.created
  destroyed := hb.destroyed
  total := by
    have htotal := hb.total
    simp only [List.length_cons]
    omega
  bound := hb.bound

theorem Balances.unmake (hb : p.Balances (rooms + 1) hands guards made destroyed) :
    { p with total := p.total - 1 }.signal.Balances rooms hands guards made destroyed where
  placed := hb.placed
  numbered := hb.numbered
  created := hb.created
  destroyed := hb.destroyed
  total := by
    have htotal := hb.total
    simp only [signal]
    omega
  bound := Nat.le_trans (Nat.sub_le _ _) hb.bound

theorem Balances.destroy {x : Item α} (hb : p.Balances rooms (x :: hands) guards made destroyed) :
    p.bookDestroyed.Balances rooms hands guards made (destroyed ++ [x]) where
  placed := by
    have hplaced := hb.placed
    rw [List.append_assoc]
    refine (List.Perm.append_left _ ?_).trans hplaced
    exact .refl _
  numbered := hb.numbered
  created := hb.created
  destroyed := by
    rw [List.length_append]
    exact congrArg (· + 1) hb.destroyed
  total := by
    have htotal := hb.total
    simp only [bookDestroyed, signal, List.length_cons] at htotal ⊢
    omega
  bound := Nat.le_trans (Nat.sub_le _ _) hb.bound

end balances

/-! ### Runs -/

namespace System

def Balances (m : System α) : Prop :=
  m.pool.Balances m.rooms m.hands m.guards m.made m.destroyed

section moved
variable {m : System α} {seen : Progress (Frame α) (Result α) → Event α} {rest : List (Frame α)}
  {guards : List (Item α)} {step : Step α}

theorem balances_moved {p : Pool α} {hand : List (Item α)} (made destroyed : List (Item α))
    (hs : step.Conserves p hand)
    (hb : p.Balances (rest.countP Frame.isCreating) (hand ++ rest.flatMap Frame.items) guards
      (m.made ++ made) (m.destroyed ++ destroyed))
    (hmade : (seen step.next).made?.toList = made)
    (hdestroyed : (seen step.next).destroyed?.toList = destroyed) :
    (m.moved seen rest guards step).Balances := by
  have hstep := hb.step hs
  rw [Balances, made_moved, hmade, destroyed_moved, hdestroyed, hands, rooms, moved,
    List.flatMap_append, List.countP_append]
  exact hstep

end moved

section moves
variable {R : Regime α} {m m' : System α}

theorem mem_ongoing {before later : List (Frame α)} {f g : Frame α}
    (hm : m.ongoing = before ++ f :: later) (hg : g ∈ before ++ later) : g ∈ m.ongoing := by
  rw [hm]
  rcases List.mem_append.mp hg with hg | hg
  · exact List.mem_append_left _ hg
  · exact List.mem_append_right _ (List.mem_cons_of_mem _ hg)

theorem hands_append {before later : List (Frame α)} {f : Frame α}
    (hm : m.ongoing = before ++ f :: later) :
    m.hands.Perm (f.items ++ (before ++ later).flatMap Frame.items) := by
  rw [hands, hm, List.flatMap_append, List.flatMap_append, List.flatMap_cons,
    ← List.append_assoc, ← List.append_assoc]
  exact List.perm_append_comm.append_right _

theorem rooms_append {before later : List (Frame α)} {f : Frame α}
    (hm : m.ongoing = before ++ f :: later) :
    m.rooms = (before ++ later).countP Frame.isCreating + if f.isCreating then 1 else 0 := by
  simp only [rooms, hm, List.countP_append, List.countP_cons]
  omega

theorem Balances.apart (hb : m.Balances) {before later : List (Frame α)} {f : Frame α}
    (hm : m.ongoing = before ++ f :: later) :
    m.pool.Balances ((before ++ later).countP Frame.isCreating + if f.isCreating then 1 else 0)
      (f.items ++ (before ++ later).flatMap Frame.items) m.guards m.made m.destroyed where
  placed := (((hands_append hm).symm.append_right _).append_left _).trans hb.placed
  numbered := hb.numbered
  created := hb.created
  destroyed := hb.destroyed
  total := by
    rw [← rooms_append hm, ← (hands_append hm).length_eq]
    exact hb.total
  bound := hb.bound

theorem Balances.start (hb : m.Balances) {k : Command α} {guards : List (Item α)}
    (hk : m.guards.Perm (k.items ++ guards)) : (m.started k guards).Balances := by
  refine balances_moved [] [] (conserves_start m.pool m.now k) ?_ rfl rfl
  rw [List.append_nil, List.append_nil]
  exact hb.drop hk

theorem Balances.answer (hb : m.Balances) {before later : List (Frame α)} {f : Frame α}
    (hm : m.ongoing = before ++ f :: later) (a : f.callback.Answer) :
    (m.resumed f a (before ++ later)).Balances := by
  have hb' := hb.apart hm
  rw [← List.append_nil m.made, ← List.append_nil m.destroyed] at hb'
  cases f with
  | creating =>
    cases a with
    | ok value =>
      refine balances_moved _ _ (conserves_finish _ _ _ rfl) ?_ rfl rfl
      rw [List.append_nil] at hb'
      exact hb'.make ⟨m.pool.nextId, value⟩ rfl
    | error e => exact balances_moved _ _ (conserves_finish _ _ _ rfl) hb'.unmake rfl rfl
  | checking c =>
    exact balances_moved _ _ (conserves_resumeChecking m.pool m.now a c) hb' rfl rfl
  | destroying x d =>
    refine balances_moved _ _ (conserves_resumeDestroying _ d) ?_ rfl rfl
    rw [List.append_nil m.destroyed] at hb'
    exact hb'.destroy

/-- **Every move keeps the books balanced.** -/
theorem Balances.next (hb : m.Balances) (hmove : Moves R m m') : m'.Balances := by
  cases hmove with
  | start k guards hk h => exact hb.start hk
  | resume before f later a hm h => exact hb.answer hm a
  | pass t ht => exact hb

theorem balances_initial (name : String) (settings : PoolSettings) (now : Nat) :
    (initial name settings now : System α).Balances :=
  ⟨.refl _, rfl, rfl, rfl, rfl, Nat.zero_le _⟩

end moves

end System

theorem Reachable.balances {R : Regime α} {m : System α} (hm : Reachable R m) : m.Balances := by
  obtain ⟨name, settings, now, hrun⟩ := hm
  exact hrun.keeps (fun _ _ hmove hb => hb.next hmove) (System.balances_initial name settings now)

/-! ### Room in the queue -/

/-- Whether an object is destroyed because an eviction could not put it back. -/
def Frame.isRejected : Frame α → Bool
  | destroying _ (.rejected ..) => true
  | _ => false

section room
variable {p : Pool α}

theorem unrejected_lend (p : Pool α) (start : Nat) :
    ∀ f ∈ left (p.lend start).next, f.isRejected = false := by
  rw [lend]
  split
  · dsimp only
    split <;> simp [await, left, Frame.isRejected]
  · split <;> simp [await, finish, left, Frame.isRejected]

theorem unrejected_drain (p : Pool α) (drained : Nat) (cause : Drain) :
    ∀ f ∈ left (p.drain drained cause).next, f.isRejected = false := by
  unfold drain
  split <;> simp [await, finish, left, Frame.isRejected]

theorem unrejected_evict (run : Eviction α)
    (h : p.idle.length + run.keep.length ≤ p.settings.capacity) :
    ∀ f ∈ left (p.evict run).next, f.isRejected = false := by
  rw [evict]
  split
  · dsimp only
    split <;> simp [await, left, Frame.isRejected]
  · rw [restore_eq p _ _ h]
    simp [finish, left]

theorem unrejected_start (now : Nat) (k : Command α)
    (h : p.idle.length ≤ p.settings.capacity) :
    ∀ f ∈ left (start p now k).next, f.isRejected = false := by
  cases k with
  | tryBorrow =>
    rw [start, tryBorrow]
    split
    · simp [finish, left]
    · exact unrejected_lend p now
  | giveBack x =>
    rw [start, giveBack]
    split <;> simp [await, left, Frame.isRejected]
  | evictIdle => exact unrejected_evict { start := now } h
  | close => exact unrejected_drain _ 0 .close

theorem length_items_evicting (x : IdleItem α) (run : Eviction α) :
    (Frame.checking (.evicting x run)).items.length = (run.keep ++ [x]).length := by
  simp [Frame.items, Check.items]

theorem length_items_evicted (x : Item α) (run : Eviction α) :
    (Frame.destroying x (.evicted run)).items.length = run.keep.length + 1 := by
  simp [Frame.items, Disposal.items]

theorem unrejected_resume (now : Nat) {f : Frame α} (a : f.callback.Answer)
    (h : p.idle.length + f.items.length ≤ p.settings.capacity) (hf : f.isRejected = false) :
    ∀ g ∈ left (resume p now f a).next, g.isRejected = false := by
  cases f with
  | creating => cases a <;> simp [resume, resumeCreating, finish, left]
  | checking c =>
    cases c with
    | returned x =>
      cases a with
      | true =>
        show ∀ g ∈ left (p.requeue now x).next, g.isRejected = false
        rw [requeue]
        split
        · simp [await, left, Frame.isRejected]
        · rename_i q hq
          split
          · exact unrejected_drain q 0 .returned
          · simp [finish, left]
      | false => simp [resume, resumeChecking, await, left, Frame.isRejected]
    | lending x start =>
      cases a <;> simp [resume, resumeChecking, finish, await, left, Frame.isRejected]
    | evicting x run =>
      cases a with
      | true =>
        rw [length_items_evicting] at h
        exact unrejected_evict { run with keep := run.keep ++ [x] } h
      | false => simp [resume, resumeChecking, await, left, Frame.isRejected]
  | destroying x d =>
    cases d with
    | returned => simp [resume, resumeDestroying, finish, left]
    | stale start => exact unrejected_lend _ start
    | evicted run =>
      rw [length_items_evicted] at h
      exact unrejected_evict { run with evicted := run.evicted + 1 } (Nat.le_of_succ_le h)
    | rejected others evicted => cases hf
    | drained drained cause => exact unrejected_drain _ (drained + 1) cause

end room

section runs
variable {R : Regime α} {m m' : System α}

theorem System.Balances.idle_le_capacity (hb : m.Balances) :
    m.pool.idle.length ≤ m.pool.settings.capacity := by
  have htotal := hb.total
  have hbound := hb.bound
  have hcapacity : m.pool.settings.maxSize ≤ m.pool.settings.capacity := Nat.le_max_left _ _
  omega

theorem System.Balances.room (hb : m.Balances) {f : Frame α} (hf : f ∈ m.ongoing) :
    m.pool.idle.length + f.items.length ≤ m.pool.settings.capacity := by
  obtain ⟨before, later, hm⟩ := List.append_of_mem hf
  have htotal := (hb.apart hm).total
  have hbound := hb.bound
  have hcapacity : m.pool.settings.maxSize ≤ m.pool.settings.capacity := Nat.le_max_left _ _
  rw [List.length_append] at htotal
  omega

/-- Nothing that an eviction puts back is rejected. -/
theorem Reachable.unrejected (hm : Reachable R m) :
    ∀ f ∈ m.ongoing, f.isRejected = false := by
  obtain ⟨name, settings, now, hrun⟩ := hm
  refine (hrun.keeps (P := fun m => m.Balances ∧ ∀ f ∈ m.ongoing, f.isRejected = false)
    (fun m m' hmove hm => ⟨hm.1.next hmove, ?_⟩)
    ⟨System.balances_initial name settings now, by simp [System.initial]⟩).2
  obtain ⟨hb, hall⟩ := hm
  -- the total counts what is idle and in hand, so with the balance the queue has room for both
  cases hmove with
  | start k guards hk h =>
    intro f hf
    rcases List.mem_append.mp hf with hf | hf
    · exact unrejected_start m.now k hb.idle_le_capacity f hf
    · exact hall f hf
  | resume before f later a hongoing h =>
    have hmem : f ∈ m.ongoing := by simp [hongoing]
    intro g hg
    rcases List.mem_append.mp hg with hg | hg
    · exact unrejected_resume m.now a (hb.room hmem) (hall f hmem) g hg
    · exact hall g (System.mem_ongoing hongoing hg)
  | pass t ht => exact hall

/-- **The books of a pool balance.** After any run the total counts the idle objects, the guards and
what is in the hands of operations: objects, and room for objects being made. It is what was made
and not destroyed, with what is being made, and at most the size of the pool. So the queue takes
every object that is given back and valid, and all that an eviction keeps; an operation that will
take one off the total finds one there; and at rest the active objects are those in guards. -/
theorem books_balance (hm : Reachable R m) :
    m.pool.total = m.pool.idle.length + m.guards.length + (m.hands.length + m.rooms) ∧
    (m.pool.destroyed ≤ m.pool.created ∧
      m.pool.total = m.pool.created - m.pool.destroyed + m.rooms) ∧
    m.pool.total ≤ m.pool.settings.maxSize ∧
    (∀ x now, .checking (.returned x) ∈ m.ongoing → (m.pool.push? ⟨x, now⟩).isSome) ∧
    (∀ x others evicted, .destroying x (.rejected others evicted) ∉ m.ongoing) ∧
    (.creating ∈ m.ongoing ∨ (∃ x d, .destroying x d ∈ m.ongoing) → 0 < m.pool.total) ∧
    (m.ongoing = [] → m.pool.active = m.guards.length) := by
  have hb := hm.balances
  have htotal := hb.total
  have hplaced := hb.placed.length_eq
  rw [← hb.created, List.length_append, ← hb.destroyed] at hplaced
  simp only [List.length_append, length_items] at hplaced
  refine ⟨by omega, ⟨by omega, by omega⟩, hb.bound, fun x now hx => ?_,
    fun x others evicted hx => ?_, fun hf => ?_, fun hrest => ?_⟩
  · have hroom := hb.room hx
    rw [push?_of_lt ⟨x, now⟩ hroom]
    rfl
  · have hrejected := hm.unrejected _ hx
    cases hrejected
  · rcases hf with hf | ⟨x, d, hf⟩
    · have hrooms : 0 < m.rooms := List.countP_pos_iff.mpr ⟨_, hf, rfl⟩
      omega
    · have hhands : 0 < m.hands.length :=
        List.length_pos_of_mem (List.mem_flatMap.mpr ⟨_, hf, List.mem_cons_self⟩)
      omega
  · rw [System.rooms, System.hands, hrest] at htotal
    rw [active, htotal]
    simp

/-- A pool that has made an object and lent it. -/
def lentOne : System Nat :=
  ((System.initial "pool" { maxSize := 2 } 0).started .tryBorrow []).resumed .creating (.ok 7) []

theorem reachable_lentOne : Reachable .nesting lentOne := by
  let m₀ : System Nat := .initial "pool" { maxSize := 2 } 0
  let m₁ := m₀.started .tryBorrow []
  have hm₀ : Reachable .nesting m₀ := .initial _ _ _
  have hm₁ : Reachable .nesting m₁ := hm₀.next (.start m₀ .tryBorrow [] (.refl _) trivial)
  exact hm₁.next (.resume m₁ [] .creating [] (.ok 7) rfl fun _ => rfl)

/-- An object is given back while another one is made. -/
theorem books_balance_amid : ∃ (m : System Nat) (x : Item Nat), m.rooms = 1 ∧ m.hands = [x] ∧
    m.pool.total = m.pool.idle.length + m.guards.length + (m.hands.length + m.rooms) ∧
    m.pool.total ≤ m.pool.settings.maxSize ∧ (m.pool.push? ⟨x, m.now⟩).isSome := by
  let x : Item Nat := ⟨0, 7⟩
  let m₁ := lentOne.started .tryBorrow [x]
  let m₂ := m₁.started (.giveBack x) []
  have hm₁ : Reachable .nesting m₁ :=
    reachable_lentOne.next (.start lentOne .tryBorrow [x] (.refl _) trivial)
  have hm₂ : Reachable .nesting m₂ := hm₁.next (.start m₁ (.giveBack x) [] (.refl _) trivial)
  obtain ⟨htotal, -, hbound, hpush, -⟩ := books_balance hm₂
  exact ⟨m₂, x, rfl, rfl, htotal, hbound, hpush x m₂.now (.head _)⟩

end runs

end ConnectionLeasing.Pool
