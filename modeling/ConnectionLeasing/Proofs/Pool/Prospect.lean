import ConnectionLeasing.Proofs.Pool.Episode
import ConnectionLeasing.Proofs.Waiting

/-!
# A pool and what will happen to it

While a borrower sleeps, others use the pool at set moments. A `Prospect` is a pool in its system
together with an agenda of such occurrences; sleeping runs the agenda, each entry at its moment, and
each entry takes no time. A sleep that can be cut short looks after each entry whether it is.

* `sleep_unmoved`: as long as nothing on the agenda frees anything, a borrower of a dry pool sleeps
  on, and nothing changes.
* `sleep_freed`: the first entry that frees something ends its sleep, at the moment of that entry.
* `sleep_through`: a sleep that cannot be cut short lasts exactly as long as it should.
* `vain_iff_dry`, `unmoved_try`: a try is in vain exactly if the pool is dry, and it changes nothing
  then; `served_of_not_dry`: what comes of any other try.
-/

namespace ConnectionLeasing.Pool

variable {α : Type}

/-! ### Occurrences -/

/-- Something that happens beside a borrower. -/
inductive Occurrence (α : Type)
  | command (k : Command α)
  /-- A tick of inspections that have nothing to do with the pool. -/
  | tick

/-- Whether the occurrence frees something in a dry pool, or closes it. -/
def Occurrence.Frees (m : System α) : Occurrence α → Prop
  | command .close => True
  | command (.giveBack x) => x ∈ m.guards
  | command .tryBorrow | command .evictIdle | tick => False

namespace System

/-- The systems differ at most in their clocks and in what has been seen. -/
structure Unmoved (m m' : System α) : Prop where
  pool : m'.pool = m.pool
  ongoing : m'.ongoing = m.ongoing
  guards : m'.guards.Perm m.guards
  balances : m.Balances → m'.Balances

variable {m m' m'' : System α}

theorem Unmoved.refl (m : System α) : m.Unmoved m := ⟨rfl, rfl, .refl _, id⟩

theorem Unmoved.trans (h : m.Unmoved m') (h' : m'.Unmoved m'') : m.Unmoved m'' where
  pool := h'.pool.trans h.pool
  ongoing := h'.ongoing.trans h.ongoing
  guards := h'.guards.trans h.guards
  balances := h'.balances ∘ h.balances

theorem Unmoved.dry (h : m.Unmoved m') (hdry : m.pool.Dry) : m'.pool.Dry := by
  rw [h.pool]
  exact hdry

theorem Unmoved.signals (h : m.Unmoved m') : m'.pool.signals = m.pool.signals :=
  congrArg Pool.signals h.pool

theorem Unmoved.frees_iff (h : m.Unmoved m') (o : Occurrence α) : o.Frees m' ↔ o.Frees m := by
  cases o with
  | tick => rfl
  | command k =>
    cases k with
    | giveBack x => exact h.guards.mem_iff
    | tryBorrow | evictIdle | close => rfl

/-- Time passes, up to a moment. -/
def pass (m : System α) (moment : Nat) : System α := { m with now := max m.now moment }

theorem unmoved_pass (m : System α) (moment : Nat) : m.Unmoved (m.pass moment) :=
  ⟨rfl, rfl, .refl _, id⟩

end System

section conduct
variable [DecidableEq α] {c : Conduct α} {m : System α} {o : Occurrence α}

/-- Something happens. A guard that is gone cannot be dropped again. -/
def Conduct.occur (c : Conduct α) (m : System α) : Occurrence α → System α
  | .command k => if ∀ x ∈ k.items, x ∈ m.guards then (c.run m k).2 else m
  | .tick => m

theorem occur_now (c : Conduct α) (m : System α) (o : Occurrence α) :
    (c.occur m o).now = m.now := by
  cases o with
  | tick => rfl
  | command k =>
    rw [Conduct.occur]
    split
    · rename_i h
      exact (c.does m k h).onward.now
    · rfl

theorem occur_ongoing (c : Conduct α) (m : System α) (o : Occurrence α) :
    (c.occur m o).ongoing = m.ongoing := by
  cases o with
  | tick => rfl
  | command k =>
    rw [Conduct.occur]
    split
    · rename_i h
      exact (c.does m k h).ongoing
    · rfl

theorem balances_occur (c : Conduct α) (o : Occurrence α) (hb : m.Balances) :
    (c.occur m o).Balances := by
  cases o with
  | tick => exact hb
  | command k =>
    rw [Conduct.occur]
    split
    · rename_i h
      exact (c.does m k h).onward.balances hb
    · exact hb

theorem occur_unmoved (c : Conduct α) (hdry : m.pool.Dry) (ho : ¬ o.Frees m) :
    m.Unmoved (c.occur m o) := by
  cases o with
  | tick => exact .refl m
  | command k =>
    rw [Conduct.occur]
    split
    · rename_i h
      have hdoes := c.does m k h
      cases k with
      | tryBorrow =>
        obtain ⟨-, hpool, hguards⟩ := hdoes.exhausted_of_dry hdry
        exact ⟨hpool, hdoes.ongoing, hguards, hdoes.onward.balances⟩
      | giveBack x => exact absurd (h x (List.mem_singleton_self x)) ho
      | evictIdle =>
        obtain ⟨hpool, hguards⟩ := hdoes.evicted_of_dry hdry
        exact ⟨hpool, hdoes.ongoing, hguards, hdoes.onward.balances⟩
      | close => exact absurd trivial ho
    · exact .refl m

theorem unmoved_due (c : Conduct α) (moment : Nat) (hdry : m.pool.Dry) (ho : ¬ o.Frees m) :
    m.Unmoved (c.occur (m.pass moment) o) := by
  have hpass := m.unmoved_pass moment
  exact hpass.trans (occur_unmoved c (hpass.dry hdry) (mt (hpass.frees_iff o).mp ho))

/-- Where something was freed, a borrow does not find nothing, and borrowers were woken. -/
theorem occur_freed (c : Conduct α) (hb : m.Balances) (ho : o.Frees m) :
    ¬ (c.occur m o).pool.Dry ∧ m.pool.signals < (c.occur m o).pool.signals := by
  cases o with
  | tick => cases ho
  | command k =>
    cases k with
    | tryBorrow | evictIdle => cases ho
    | giveBack x =>
      have h : ∀ y ∈ (Command.giveBack x).items, y ∈ m.guards := fun y hy => by
        rw [List.mem_singleton.mp hy]
        exact ho
      rw [Conduct.occur, if_pos h]
      exact (c.does m _ h).freed hb (.inl rfl)
    | close =>
      have h : ∀ y ∈ (Command.close : Command α).items, y ∈ m.guards := by simp [Command.items]
      rw [Conduct.occur, if_pos h]
      exact (c.does m _ h).freed hb (.inr rfl)

theorem occur_close (c : Conduct α) (m : System α) :
    (c.occur m (.command .close)).pool.closed = true := by
  have h : ∀ y ∈ (Command.close : Command α).items, y ∈ m.guards := by simp [Command.items]
  rw [Conduct.occur, if_pos h]
  exact (c.does m _ h).closed_of_close

end conduct

/-! ### Sleeping -/

/-- A system and what will happen, and when. -/
structure Prospect (α : Type) where
  system : System α
  agenda : List (Nat × Occurrence α)

/-- The agenda is in order, and nothing on it is overdue. -/
structure Prospect.Orderly (w : Prospect α) : Prop where
  sorted : w.agenda.Pairwise (·.1 ≤ ·.1)
  ahead : ∀ e ∈ w.agenda, w.system.now ≤ e.1

theorem Prospect.Orderly.first {w : Prospect α} (hw : w.Orderly)
    {before after : List (Nat × Occurrence α)} {x : Nat} {o : Occurrence α}
    (h : w.agenda = before ++ (x, o) :: after) :
    w.system.now ≤ x ∧ (∀ e ∈ before, e.1 ≤ x) ∧ ∀ e ∈ after, x ≤ e.1 := by
  have hsorted := hw.sorted
  rw [h, List.pairwise_append] at hsorted
  obtain ⟨-, hafter, hbefore⟩ := hsorted
  refine ⟨hw.ahead (x, o) (by simp [h]), fun e he => ?_, (List.pairwise_cons.mp hafter).1⟩
  exact hbefore e he (x, o) List.mem_cons_self

/-- Whether an entry of an agenda is due at a moment. -/
def dueBy (moment : Nat) (e : Nat × Occurrence α) : Bool := e.1 ≤ moment

theorem dueBy_iff {moment : Nat} {e : Nat × Occurrence α} :
    dueBy moment e = true ↔ e.1 ≤ moment :=
  decide_eq_true_iff

/-- Whether borrowers were woken since the signals were counted. -/
def Prospect.stirred (signals : Nat) (v : Prospect α) : Bool := v.system.pool.signals ≠ signals

theorem not_stirred {m : System α} {agenda : List (Nat × Occurrence α)} {signals : Nat}
    (h : m.pool.signals = signals) :
    Prospect.stirred signals ⟨m, agenda⟩ = false :=
  decide_eq_false (not_not_intro h)

section sleep
variable [DecidableEq α] {c : Conduct α} {moment : Nat} {woken : Prospect α → Bool}
  {agenda before : List (Nat × Occurrence α)} {m : System α}

/-- Lets time pass up to a moment, what is due meanwhile happening first; or only until `woken`
holds, and what is left then stays on the agenda. -/
def Conduct.sleep (c : Conduct α) (moment : Nat) (woken : Prospect α → Bool) :
    List (Nat × Occurrence α) → System α → Prospect α
  | [], m => if woken ⟨m, []⟩ then ⟨m, []⟩ else ⟨m.pass moment, []⟩
  | e :: agenda, m =>
    if woken ⟨m, e :: agenda⟩ then ⟨m, e :: agenda⟩
    else if e.1 ≤ moment then c.sleep moment woken agenda (c.occur (m.pass e.1) e.2)
    else ⟨m.pass moment, e :: agenda⟩

theorem sleep_woken (h : woken ⟨m, agenda⟩ = true) :
    c.sleep moment woken agenda m = ⟨m, agenda⟩ := by
  cases agenda with
  | nil => rw [Conduct.sleep, if_pos h]
  | cons e agenda => rw [Conduct.sleep, if_pos h]

theorem sleep_unmoved (c : Conduct α) {signals : Nat} (hsignals : m.pool.signals = signals)
    (hdry : m.pool.Dry) (hquiet : ∀ e ∈ agenda.takeWhile (dueBy moment), ¬ e.2.Frees m) :
    m.Unmoved (c.sleep moment (Prospect.stirred signals) agenda m).system ∧
      (c.sleep moment (Prospect.stirred signals) agenda m).system.now = max m.now moment ∧
      (c.sleep moment (Prospect.stirred signals) agenda m).agenda =
        agenda.dropWhile (dueBy moment) := by
  induction agenda generalizing m with
  | nil =>
    rw [Conduct.sleep, not_stirred hsignals]
    exact ⟨m.unmoved_pass moment, rfl, rfl⟩
  | cons e agenda ih =>
    rw [Conduct.sleep, not_stirred hsignals]
    by_cases hdue : e.1 ≤ moment
    · rw [List.takeWhile_cons_of_pos (dueBy_iff.mpr hdue)] at hquiet
      obtain ⟨he, hquiet⟩ := List.forall_mem_cons.mp hquiet
      have hmoved := unmoved_due c e.1 hdry he
      obtain ⟨hunmoved, hnow, hagenda⟩ := ih (hmoved.signals.trans hsignals) (hmoved.dry hdry)
        (fun e' he' => mt (hmoved.frees_iff e'.2).mp (hquiet e' he'))
      rw [if_neg Bool.false_ne_true, if_pos hdue,
        List.dropWhile_cons_of_pos (dueBy_iff.mpr hdue)]
      refine ⟨hmoved.trans hunmoved, ?_, hagenda⟩
      rw [hnow, occur_now]
      show max (max m.now e.1) moment = max m.now moment
      omega
    · rw [if_neg Bool.false_ne_true, if_neg hdue,
        List.dropWhile_cons_of_neg (mt dueBy_iff.mp hdue)]
      exact ⟨m.unmoved_pass moment, rfl, rfl⟩

theorem sleep_freed (c : Conduct α) {signals x : Nat} {o : Occurrence α}
    (after : List (Nat × Occurrence α)) (hb : m.Balances) (hsignals : m.pool.signals = signals)
    (hdry : m.pool.Dry) (hbefore : ∀ e ∈ before, ¬ e.2.Frees m ∧ e.1 ≤ x) (ho : o.Frees m)
    (hx : x ≤ moment) :
    ∃ m', m.Unmoved m' ∧ m'.now = max m.now x ∧
      c.sleep moment (Prospect.stirred signals) (before ++ (x, o) :: after) m =
        ⟨c.occur m' o, after⟩ := by
  induction before generalizing m with
  | nil =>
    rw [List.nil_append, Conduct.sleep, not_stirred hsignals, if_neg Bool.false_ne_true,
      if_pos hx]
    have hpass := m.unmoved_pass x
    refine ⟨m.pass x, hpass, rfl, sleep_woken (decide_eq_true ?_)⟩
    obtain ⟨-, hstirred⟩ := occur_freed c (hpass.balances hb) ((hpass.frees_iff o).mpr ho)
    rw [← hsignals]
    exact Nat.ne_of_gt hstirred
  | cons e before ih =>
    obtain ⟨⟨he, hdue⟩, hbefore⟩ := List.forall_mem_cons.mp hbefore
    rw [List.cons_append, Conduct.sleep, not_stirred hsignals, if_neg Bool.false_ne_true,
      if_pos (Nat.le_trans hdue hx)]
    have hmoved := unmoved_due c e.1 hdry he
    obtain ⟨m', hunmoved, hnow, hsleep⟩ := ih (hmoved.balances hb) (hmoved.signals.trans hsignals)
      (hmoved.dry hdry)
      (fun e' he' => ⟨mt (hmoved.frees_iff e'.2).mp (hbefore e' he').1, (hbefore e' he').2⟩)
      ((hmoved.frees_iff o).mpr ho)
    refine ⟨m', hmoved.trans hunmoved, ?_, hsleep⟩
    rw [hnow, occur_now]
    show max (max m.now e.1) x = max m.now x
    omega

theorem sleep_through (c : Conduct α) (moment : Nat) (agenda : List (Nat × Occurrence α))
    (m : System α) :
    (c.sleep moment (fun _ => false) agenda m).system.now = max m.now moment ∧
      (c.sleep moment (fun _ => false) agenda m).system.ongoing = m.ongoing ∧
      (m.Balances → (c.sleep moment (fun _ => false) agenda m).system.Balances) := by
  induction agenda generalizing m with
  | nil => exact ⟨rfl, rfl, (m.unmoved_pass moment).balances⟩
  | cons e agenda ih =>
    rw [Conduct.sleep, if_neg Bool.false_ne_true]
    by_cases hdue : e.1 ≤ moment
    · rw [if_pos hdue]
      obtain ⟨hnow, hongoing, hb⟩ := ih (c.occur (m.pass e.1) e.2)
      refine ⟨?_, hongoing.trans (occur_ongoing c _ e.2), fun h => hb ?_⟩
      · rw [hnow, occur_now]
        show max (max m.now e.1) moment = max m.now moment
        omega
      · exact balances_occur c e.2 ((m.unmoved_pass e.1).balances h)
    · rw [if_neg hdue]
      exact ⟨rfl, rfl, (m.unmoved_pass moment).balances⟩

end sleep

/-! ### Borrowing -/

/-- What a borrower that waits for a pool meets, as operations are carried out in the given way. -/
def Conduct.surroundings [DecidableEq α] (c : Conduct α) :
    Waiting.Surroundings (Prospect α) (Item α) where
  now w := w.system.now
  signals w := w.system.pool.signals
  attempt w := (⟨(c.run w.system .tryBorrow).2, w.agenda⟩, (c.run w.system .tryBorrow).1.offer)
  sleep moment woken w := c.sleep moment woken w.agenda w.system

section tries
variable [DecidableEq α] {w : Prospect α}

theorem try_now (c : Conduct α) (w : Prospect α) :
    (c.surroundings.attempt w).1.system.now = w.system.now :=
  (c.does w.system .tryBorrow (List.forall_mem_nil _)).onward.now

theorem balances_try (c : Conduct α) (hb : w.system.Balances) :
    (c.surroundings.attempt w).1.system.Balances :=
  (c.does w.system .tryBorrow (List.forall_mem_nil _)).onward.balances hb

/-- **A try is in vain exactly in a dry pool.** -/
theorem vain_iff_dry (c : Conduct α) (hb : w.system.Balances) :
    c.surroundings.Vain w ↔ w.system.pool.Dry := by
  have hdoes := c.does w.system .tryBorrow (List.forall_mem_nil _)
  constructor
  · intro hvain
    have herrand := hdoes.errand
    replace hvain : (c.run w.system .tryBorrow).1.offer = .ok none := hvain
    cases hr : (c.run w.system .tryBorrow).1 with
    | exhausted =>
      rw [hr] at hdoes
      exact hdoes.dry_of_exhausted hb
    | lent | failed =>
      rw [hr] at hvain
      cases hvain
    | returned | evicted | closed =>
      rw [hr] at herrand
      cases herrand
  · intro hdry
    obtain ⟨hr, -⟩ := hdoes.exhausted_of_dry hdry
    show (c.run w.system .tryBorrow).1.offer = .ok none
    rw [hr]
    rfl

theorem unmoved_try (c : Conduct α) (hdry : w.system.pool.Dry) :
    w.system.Unmoved (c.surroundings.attempt w).1.system := by
  have hdoes := c.does w.system .tryBorrow (List.forall_mem_nil _)
  obtain ⟨-, hpool, hguards⟩ := hdoes.exhausted_of_dry hdry
  exact ⟨hpool, hdoes.ongoing, hguards, hdoes.onward.balances⟩

/-- What a borrower meets whose try is not in vain: a closed pool refuses it, and an open one gives
it an object, unless none is left and none can be made. -/
def Conduct.Served (c : Conduct α) (w : Prospect α) : Prop :=
  (w.system.pool.closed = true →
    (c.surroundings.attempt w).2 = .error (.poolClosed w.system.pool.name)) ∧
  (w.system.pool.closed = false →
    (∃ x, (c.surroundings.attempt w).2 = .ok (some x)) ∨
    ∃ e, (c.surroundings.attempt w).2 = .error e ∧
      (c.surroundings.attempt w).1.system.events.getLast? =
        some (.resumed .creating (.error e) (.done (.failed e))))

theorem served_of_not_dry (c : Conduct α) (hb : w.system.Balances) (hdry : ¬ w.system.pool.Dry) :
    c.Served w := by
  have hdoes := c.does w.system .tryBorrow (List.forall_mem_nil _)
  refine ⟨fun hclosed => ?_, fun hopen => ?_⟩
  · show (c.run w.system .tryBorrow).1.offer = _
    rw [hdoes.refused hclosed]
    rfl
  · have herrand := hdoes.errand
    show (∃ x, (c.run w.system .tryBorrow).1.offer = _) ∨
      ∃ e, (c.run w.system .tryBorrow).1.offer = _ ∧
        (c.run w.system .tryBorrow).2.events.getLast? = _
    cases hr : (c.run w.system .tryBorrow).1 with
    | lent x => exact .inl ⟨x, rfl⟩
    | exhausted =>
      rw [hr] at hdoes
      exact absurd (hdoes.dry_of_exhausted hb) hdry
    | failed e =>
      rw [hr] at hdoes
      exact .inr ⟨e, rfl, hdoes.failed hopen⟩
    | returned | evicted | closed =>
      rw [hr] at herrand
      cases herrand

end tries

end ConnectionLeasing.Pool
