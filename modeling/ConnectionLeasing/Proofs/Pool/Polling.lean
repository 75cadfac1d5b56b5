import ConnectionLeasing.Proofs.Pool.Blocking

/-!
# A polling borrow, to the moment

A borrower that polls makes a try every ten milliseconds, whatever happens in between, and gives up
at its deadline. Its tries in vain leave nothing behind.

* `polled_now`: the tries lie on a grid.
* `poll_reaches`: the borrower comes to its `k`-th try if those before are in vain.
* `polled_borrow_exact`: when and how the borrow ends.
-/

namespace ConnectionLeasing.Pool

open Waiting

variable {α : Type} [DecidableEq α] {w : Prospect α}

/-- The world in which a borrower that polls makes its `k`-th try, if those before are in vain. -/
def Conduct.polled (c : Conduct α) (deadline : Nat) (w : Prospect α) (k : Nat) : Prospect α :=
  (c.surroundings.doze deadline)^[k] w

theorem polled_succ (c : Conduct α) (deadline : Nat) (w : Prospect α) (k : Nat) :
    c.polled deadline w (k + 1) = c.surroundings.doze deadline (c.polled deadline w k) :=
  Function.iterate_succ_apply' _ _ _

theorem doze_eq (c : Conduct α) (deadline : Nat) (w : Prospect α) :
    c.surroundings.doze deadline w =
      c.sleep (min (slice.after w.system.now) deadline) (fun _ => false)
        (c.surroundings.attempt w).1.agenda (c.surroundings.attempt w).1.system := by
  rw [← try_now c w]
  rfl

/-- A round of a borrower that polls lasts until the next try or the deadline, and leaves no
operation in progress. -/
theorem doze_through (c : Conduct α) (deadline : Nat) (w : Prospect α) :
    (c.surroundings.doze deadline w).system.now =
        max w.system.now (min (slice.after w.system.now) deadline) ∧
      (c.surroundings.doze deadline w).system.ongoing = w.system.ongoing ∧
      (w.system.Balances → (c.surroundings.doze deadline w).system.Balances) := by
  have hongoing := (c.does w.system .tryBorrow (List.forall_mem_nil _)).ongoing
  obtain ⟨hlater, hkept, hb⟩ := sleep_through c (min (slice.after w.system.now) deadline)
    (c.surroundings.attempt w).1.agenda (c.surroundings.attempt w).1.system
  rw [try_now] at hlater
  rw [doze_eq]
  exact ⟨hlater, hkept.trans hongoing, fun h => hb (balances_try c h)⟩

theorem polled_keeps (c : Conduct α) (deadline : Nat) (w : Prospect α) (k : Nat) :
    (c.polled deadline w k).system.ongoing = w.system.ongoing ∧
      (w.system.Balances → (c.polled deadline w k).system.Balances) := by
  induction k with
  | zero => exact ⟨rfl, id⟩
  | succ k ih =>
    obtain ⟨-, hongoing, hb⟩ := doze_through c deadline (c.polled deadline w k)
    rw [polled_succ]
    exact ⟨hongoing.trans ih.1, fun h => hb (ih.2 h)⟩

/-- **The tries of a borrower that polls lie on a grid.** -/
theorem polled_now (c : Conduct α) (w : Prospect α) {deadline : Nat} (k : Nat)
    (hk : w.system.now + k * slice.nanos ≤ deadline) :
    (c.polled deadline w k).system.now = w.system.now + k * slice.nanos := by
  induction k with
  | zero => rw [Nat.zero_mul]; rfl
  | succ k ih =>
    rw [Nat.succ_mul] at hk ⊢
    obtain ⟨hnow, -⟩ := doze_through c deadline (c.polled deadline w k)
    rw [polled_succ, hnow, ih (by omega)]
    show max _ (min (_ + slice.nanos) deadline) = _
    omega

theorem poll_reaches (c : Conduct α) {timeout : Duration} {w : Prospect α} {k : Nat}
    (hk : k * slice.nanos ≤ timeout.nanos)
    (hearlier : ∀ i < k, c.surroundings.Vain (c.polled (timeout.after w.system.now) w i))
    (tries : Nat) :
    poll c.surroundings timeout (k + tries) w =
      pollUntil c.surroundings timeout (timeout.after w.system.now) tries
        (c.polled (timeout.after w.system.now) w k) := by
  have hpos : 0 < slice.nanos := by decide
  have hafter : timeout.after w.system.now = w.system.now + timeout.nanos := rfl
  refine pollUntil_eq (fun i hi => ⟨hearlier i hi, ?_⟩) tries
  have hgrid : (i + 1) * slice.nanos ≤ k * slice.nanos := Nat.mul_le_mul_right _ hi
  rw [Nat.succ_mul] at hgrid
  have hi' : w.system.now + (i + 1) * slice.nanos ≤ timeout.after w.system.now := by
    rw [Nat.succ_mul]
    omega
  have hnow := polled_now c w i (Nat.le_trans (by rw [Nat.succ_mul]; omega) hi')
  have hnext := polled_now c w (i + 1) hi'
  have htry := (try_now c (c.polled (timeout.after w.system.now) w i)).trans hnow
  rw [Nat.succ_mul] at hnext
  refine ⟨Nat.lt_of_le_of_lt (Nat.le_of_eq htry) (by omega),
    Nat.le_of_eq ((congrArg slice.after htry).trans ?_)⟩
  show w.system.now + i * slice.nanos + slice.nanos = (c.polled _ w (i + 1)).system.now
  rw [hnext, Nat.add_assoc]

theorem poll_times_out (c : Conduct α) {timeout : Duration} (hb : w.system.Balances)
    (hvain : ∀ k, k * slice.nanos ≤ timeout.nanos →
      c.surroundings.Vain (c.polled (timeout.after w.system.now) w k)) :
    ∃ u v, u = (c.surroundings.attempt
        (c.polled (timeout.after w.system.now) w (timeout.nanos / slice.nanos))).1 ∧
      (v = u ∨ v = c.sleep (timeout.after w.system.now) (fun _ => false) u.agenda u.system) ∧
      v.system.now = timeout.after w.system.now ∧ v.system.ongoing = w.system.ongoing ∧
      v.system.Balances ∧
      ∀ tries, timeout.nanos / slice.nanos < tries →
        poll c.surroundings timeout tries w = (v, some (.error (.timeout timeout))) := by
  have hpos : 0 < slice.nanos := by decide
  have hafter : timeout.after w.system.now = w.system.now + timeout.nanos := rfl
  have hlast := Nat.div_mul_le_self timeout.nanos slice.nanos
  have hdiv := Nat.lt_div_mul_add hpos (a := timeout.nanos)
  have hgrid : (c.polled (timeout.after w.system.now) w (timeout.nanos / slice.nanos)).system.now =
      w.system.now + timeout.nanos / slice.nanos * slice.nanos :=
    polled_now c w _ (Nat.add_le_add_left hlast _)
  obtain ⟨hongoing, hbalances⟩ :=
    polled_keeps c (timeout.after w.system.now) w (timeout.nanos / slice.nanos)
  have hvain' := hvain _ hlast
  have hreaches := fun tries => poll_reaches c hlast (w := w) (fun i hi => hvain i
    (Nat.le_trans (Nat.mul_le_mul_right _ (Nat.le_of_lt hi)) hlast)) tries
  -- the last try on the grid is at the deadline, or the deadline comes before another one
  generalize c.polled (timeout.after w.system.now) w (timeout.nanos / slice.nanos) = u at *
  have hnow := (try_now c u).trans hgrid
  rcases Nat.eq_or_lt_of_le hlast with heq | hlt
  · have hmoved := unmoved_try c ((vain_iff_dry c (hbalances hb)).mp hvain')
    refine ⟨_, _, rfl, .inl rfl, by omega, hmoved.ongoing.trans hongoing,
      balances_try c (hbalances hb), fun tries htries => ?_⟩
    obtain ⟨tries, rfl⟩ := Nat.exists_eq_add_of_lt htries
    rw [Nat.add_assoc, hreaches]
    refine pollUntil_of_late _ hvain' ?_
    show _ ≤ (c.surroundings.attempt u).1.system.now
    omega
  · obtain ⟨hdozed, hleft, hkept⟩ := doze_through c (timeout.after w.system.now) u
    have hmin : min (slice.after u.system.now) (timeout.after w.system.now) =
        timeout.after w.system.now := by
      show min (_ + slice.nanos) _ = _
      omega
    rw [hmin] at hdozed
    refine ⟨_, _, rfl, .inr ?_, hdozed.trans (by omega), hleft.trans hongoing,
      hkept (hbalances hb), fun tries htries => ?_⟩
    · rw [doze_eq, hmin]
    · obtain ⟨tries, rfl⟩ := Nat.exists_eq_add_of_lt htries
      rw [Nat.add_assoc, hreaches]
      refine pollUntil_of_asleep _ hvain' ?_ ?_
      · show (c.surroundings.attempt u).1.system.now < _
        omega
      · show (c.surroundings.doze _ u).system.now <
          (c.surroundings.attempt u).1.system.now + slice.nanos
        omega

/-- **A polling borrow is exact.** Its `k`-th try is made `k` times ten milliseconds after it began,
as long as this is not past its deadline.

* A try in vain changes nothing: no object is taken, no room, and no guard is left.
* The first try that is not in vain ends the borrow at once, with what it gives.
* If there is none, the borrow times out at its deadline exactly, and leaves no operation behind;
  all that has happened since its last try was on the agenda. -/
theorem polled_borrow_exact (c : Conduct α) (hb : w.system.Balances) (timeout : Duration) :
    (∀ k, k * slice.nanos ≤ timeout.nanos →
      (c.polled (timeout.after w.system.now) w k).system.now = w.system.now + k * slice.nanos) ∧
    (∀ k, c.surroundings.Vain (c.polled (timeout.after w.system.now) w k) →
      (c.polled (timeout.after w.system.now) w k).system.Unmoved
        (c.surroundings.attempt (c.polled (timeout.after w.system.now) w k)).1.system) ∧
    (∀ k, k * slice.nanos ≤ timeout.nanos →
      (∀ i < k, c.surroundings.Vain (c.polled (timeout.after w.system.now) w i)) →
      ∀ u, u = c.polled (timeout.after w.system.now) w k → ¬ c.surroundings.Vain u →
        c.Served u ∧
        (c.surroundings.attempt u).1.system.now = w.system.now + k * slice.nanos ∧
        ∀ tries, k < tries → poll c.surroundings timeout tries w =
          ((c.surroundings.attempt u).1, some (verdict timeout (c.surroundings.attempt u).2))) ∧
    ((∀ k, k * slice.nanos ≤ timeout.nanos →
        c.surroundings.Vain (c.polled (timeout.after w.system.now) w k)) →
      ∃ u v, u = (c.surroundings.attempt
          (c.polled (timeout.after w.system.now) w (timeout.nanos / slice.nanos))).1 ∧
        (v = u ∨ v = c.sleep (timeout.after w.system.now) (fun _ => false) u.agenda u.system) ∧
        v.system.now = timeout.after w.system.now ∧ v.system.ongoing = w.system.ongoing ∧
        v.system.Balances ∧
        ∀ tries, timeout.nanos / slice.nanos < tries →
          poll c.surroundings timeout tries w = (v, some (.error (.timeout timeout)))) := by
  have hgrid : ∀ k, k * slice.nanos ≤ timeout.nanos →
      (c.polled (timeout.after w.system.now) w k).system.now = w.system.now + k * slice.nanos :=
    fun k hk => polled_now c w k (Nat.add_le_add_left hk _)
  have hbalances := fun k => (polled_keeps c (timeout.after w.system.now) w k).2 hb
  refine ⟨hgrid, fun k hvain => unmoved_try c ((vain_iff_dry c (hbalances k)).mp hvain), ?_,
    poll_times_out c hb⟩
  rintro k hk hearlier _ rfl hvain
  refine ⟨served_of_not_dry c (hbalances k) (mt (vain_iff_dry c (hbalances k)).mpr hvain),
    (try_now c _).trans (hgrid k hk), fun tries htries => ?_⟩
  obtain ⟨tries, rfl⟩ := Nat.exists_eq_add_of_lt htries
  rw [Nat.add_assoc, poll_reaches c hk hearlier, pollUntil_of_answer _ hvain]

/-- The guard is dropped after twelve milliseconds, and the borrower has the object at its third try
after twenty; had it waited for nineteen only, it would have given up then. -/
theorem polled_borrow_exact_dropped : ∃ w v v' : Prospect Nat, w.system = lentOnly ∧
    w.agenda = [(12000000, .command (.giveBack ⟨0, 7⟩))] ∧
    v.system.now = 20000000 ∧
    (∀ tries, 2 < tries → poll (Conduct.alone steady).surroundings (.ofMillis 25) tries w =
      (v, some (.ok ⟨0, 7⟩))) ∧
    v'.system.now = 19000000 ∧
    ∀ tries, 1 < tries → poll (Conduct.alone steady).surroundings (.ofMillis 19) tries w =
      (v', some (.error (.timeout (.ofMillis 19)))) := by
  let c := Conduct.alone steady
  let w : Prospect Nat := ⟨lentOnly, [(12000000, .command (.giveBack ⟨0, 7⟩))]⟩
  have hnow : w.system.now = 0 := by cbv
  -- the first two tries come before the guard is dropped
  have hfirst : ∀ deadline, c.surroundings.Vain (c.polled deadline w 0) := fun _ => by
    rw [Surroundings.Vain]
    cbv
  obtain ⟨-, -, hserved, -⟩ :=
    polled_borrow_exact c (w := w) reachable_lentOnly.balances (.ofMillis 25)
  obtain ⟨-, hmoment, hends⟩ := hserved 2 (by decide)
    (fun i hi => by
      rw [hnow]
      rcases (by omega : i = 0 ∨ i = 1) with rfl | rfl
      · exact hfirst _
      · rw [Surroundings.Vain]
        cbv) _ rfl (by
      rw [hnow, Surroundings.Vain]
      cbv
      simp)
  obtain ⟨-, -, -, hlate⟩ :=
    polled_borrow_exact c (w := w) reachable_lentOnly.balances (.ofMillis 19)
  obtain ⟨-, v', -, -, hmoment', -, -, hends'⟩ := hlate fun k hk => by
    rw [hnow]
    have hk : k * 10000000 ≤ 19000000 := hk
    rcases (by omega : k = 0 ∨ k = 1) with rfl | rfl
    · exact hfirst _
    · rw [Surroundings.Vain]
      cbv
  rw [hnow] at hmoment hmoment' hends
  have hverdict : verdict (.ofMillis 25)
      (c.surroundings.attempt (c.polled ((Duration.ofMillis 25).after 0) w 2)).2 = .ok ⟨0, 7⟩ := by
    have hpoll : (poll c.surroundings (.ofMillis 25) 3 w).2 = some (.ok ⟨0, 7⟩) := by cbv
    rw [hends 3 (by decide)] at hpoll
    exact Option.some.inj hpoll
  rw [hverdict] at hends
  exact ⟨w, _, v', rfl, rfl, hmoment, hends, hmoment', hends'⟩

end ConnectionLeasing.Pool
