import ConnectionLeasing.Proofs.Pool.Effort
import ConnectionLeasing.Proofs.Pool.Prospect
import Mathlib.Data.List.Permutation
import Mathlib.Data.List.TakeWhile

/-!
# A blocking borrow, to the moment

A borrower that blocks makes its next try when it was woken or ten milliseconds have passed. In a
dry pool its tries change nothing, so how long its borrow takes can be read off the agenda: the
first entry that frees something ends it, and without one the deadline does.

* `nap_unmoved`, `nap_freed`: a round of the borrower.
* `reaches_deadline`, `reaches_freed`: its rounds, until the deadline or until something is freed.
* `blocked_borrow_exact`: when and how the borrow ends.
-/

namespace ConnectionLeasing.Pool

open Waiting

variable {α : Type} [DecidableEq α] {c : Conduct α} {w : Prospect α}

/-! ### Rounds -/

section due
variable {β : Type} {p : β → Bool} {y : β}

theorem takeWhile_append_cons (xs ys : List β) (hy : p y = false) :
    (xs ++ y :: ys).takeWhile p = xs.takeWhile p := by
  induction xs with
  | nil => simp [hy]
  | cons x xs ih => cases hx : p x <;> simp [hx, ih]

theorem dropWhile_append_cons (xs ys : List β) (hy : p y = false) :
    (xs ++ y :: ys).dropWhile p = xs.dropWhile p ++ y :: ys := by
  induction xs with
  | nil => simp [hy]
  | cons x xs ih => cases hx : p x <;> simp [hx, ih]

end due

theorem nap_unmoved (c : Conduct α) (deadline : Nat) (hdry : w.system.pool.Dry)
    (hquiet : ∀ e ∈ w.agenda.takeWhile (dueBy (min deadline (slice.after w.system.now))),
      ¬ e.2.Frees w.system) :
    w.system.Unmoved (c.surroundings.nap deadline w).system ∧
      (c.surroundings.nap deadline w).system.now =
        max w.system.now (min deadline (slice.after w.system.now)) ∧
      (c.surroundings.nap deadline w).agenda =
        w.agenda.dropWhile (dueBy (min deadline (slice.after w.system.now))) := by
  have hmoved := unmoved_try c hdry
  rw [← try_now c w] at hquiet ⊢
  obtain ⟨hunmoved, hlater, hagenda⟩ := sleep_unmoved c rfl (hmoved.dry hdry)
    fun e he => mt (hmoved.frees_iff e.2).mp (hquiet e he)
  exact ⟨hmoved.trans hunmoved, hlater, hagenda⟩

theorem nap_freed (c : Conduct α) {deadline x : Nat} {before after : List (Nat × Occurrence α)}
    {o : Occurrence α} (hb : w.system.Balances) (hdry : w.system.pool.Dry)
    (hagenda : w.agenda = before ++ (x, o) :: after)
    (hbefore : ∀ e ∈ before, ¬ e.2.Frees w.system ∧ e.1 ≤ x) (ho : o.Frees w.system)
    (hx : x ≤ min deadline (slice.after w.system.now)) :
    ∃ m, w.system.Unmoved m ∧ m.now = max w.system.now x ∧
      c.surroundings.nap deadline w = ⟨c.occur m o, after⟩ := by
  have hmoved := unmoved_try c hdry
  rw [← try_now c w] at hx ⊢
  obtain ⟨m, hunmoved, hlater, hsleep⟩ := sleep_freed c after (balances_try c hb) rfl
    (hmoved.dry hdry)
    (fun e he => ⟨mt (hmoved.frees_iff e.2).mp (hbefore e he).1, (hbefore e he).2⟩)
    ((hmoved.frees_iff o).mpr ho) hx
  refine ⟨m, hmoved.trans hunmoved, hlater, ?_⟩
  rw [← hsleep, ← hagenda]
  rfl

/-- The world in which a borrower that blocks makes its `i`-th try, if those before are in vain. -/
def Conduct.blocked (c : Conduct α) (deadline : Nat) (w : Prospect α) (i : Nat) : Prospect α :=
  (c.surroundings.nap deadline)^[i] w

/-- As long as nothing is freed, rounds follow one another until the deadline. -/
theorem reaches_deadline {deadline n : Nat} (hb : w.system.Balances) (hdry : w.system.pool.Dry)
    (hnow : w.system.now ≤ deadline) (hn : deadline ≤ w.system.now + n * slice.nanos)
    (hquiet : ∀ e ∈ w.agenda, e.1 ≤ deadline → ¬ e.2.Frees w.system) :
    ∃ j ≤ n,
      (∀ i < j, c.surroundings.Vain (c.blocked deadline w i) ∧
        (c.blocked deadline w i).system.now < deadline) ∧
      w.system.Unmoved (c.blocked deadline w j).system ∧
      (c.blocked deadline w j).system.now = deadline := by
  induction n generalizing w with
  | zero =>
    rw [Nat.zero_mul] at hn
    exact ⟨0, Nat.le_refl 0, by simp, .refl _, Nat.le_antisymm hnow hn⟩
  | succ n ih =>
    rcases Nat.eq_or_lt_of_le hnow with hlate | hearly
    · exact ⟨0, Nat.zero_le _, by simp, .refl _, hlate⟩
    · have hslice : (slice.after w.system.now) = w.system.now + slice.nanos := rfl
      have hpos : 0 < slice.nanos := by decide
      obtain ⟨hmoved, hnext, hagenda⟩ := nap_unmoved c deadline hdry
        fun e he => hquiet e (List.takeWhile_subset _ he) (by
          have hdue := dueBy_iff.mp (List.mem_takeWhile_imp he)
          omega)
      rw [Nat.succ_mul] at hn
      obtain ⟨j, hj, hearlier, hunmoved, hlast⟩ := ih (hmoved.balances hb) (hmoved.dry hdry)
        (by omega) (by omega) (fun e he hdue => by
          rw [hagenda] at he
          exact mt (hmoved.frees_iff e.2).mp (hquiet e (List.dropWhile_subset _ he) hdue))
      refine ⟨j + 1, Nat.succ_le_succ hj, fun i hi => ?_, hmoved.trans hunmoved, hlast⟩
      cases i with
      | zero => exact ⟨(vain_iff_dry c hb).mpr hdry, hearly⟩
      | succ i => exact hearlier i (Nat.lt_of_succ_lt_succ hi)

/-- What is freed before the deadline ends the rounds, at the moment it is freed. -/
theorem reaches_freed {deadline n x : Nat} {before after : List (Nat × Occurrence α)}
    {o : Occurrence α} (hb : w.system.Balances) (hdry : w.system.pool.Dry)
    (hnow : w.system.now < deadline) (hn : deadline ≤ w.system.now + n * slice.nanos)
    (hagenda : w.agenda = before ++ (x, o) :: after)
    (hbefore : ∀ e ∈ before, ¬ e.2.Frees w.system ∧ e.1 ≤ x) (ho : o.Frees w.system)
    (hx : w.system.now ≤ x) (hdeadline : x ≤ deadline) :
    ∃ j ≤ n,
      (∀ i < j, c.surroundings.Vain (c.blocked deadline w i) ∧
        (c.blocked deadline w i).system.now < deadline) ∧
      ∃ m, w.system.Unmoved m ∧ m.now = x ∧
        c.blocked deadline w j = ⟨c.occur m o, after⟩ := by
  induction n generalizing w before with
  | zero =>
    rw [Nat.zero_mul] at hn
    omega
  | succ n ih =>
    have hfirst : c.surroundings.Vain w ∧ w.system.now < deadline :=
      ⟨(vain_iff_dry c hb).mpr hdry, hnow⟩
    by_cases hsoon : x ≤ min deadline (slice.after w.system.now)
    · obtain ⟨m, hmoved, hmoment, hnap⟩ := nap_freed c hb hdry hagenda hbefore ho hsoon
      refine ⟨1, Nat.le_add_left 1 n, fun i hi => ?_, m, hmoved, by omega, hnap⟩
      obtain rfl := Nat.lt_one_iff.mp hi
      exact hfirst
    · -- the borrower wakes before that, to no avail
      have hslice : slice.after w.system.now = w.system.now + slice.nanos := rfl
      have hpos : 0 < slice.nanos := by decide
      have hneg : dueBy (min deadline (slice.after w.system.now)) (x, o) = false :=
        decide_eq_false hsoon
      obtain ⟨hmoved, hnext, hrest⟩ := nap_unmoved c deadline hdry
        fun e he => by
          rw [hagenda, takeWhile_append_cons _ _ hneg] at he
          exact (hbefore e (List.takeWhile_subset _ he)).1
      rw [hagenda, dropWhile_append_cons _ _ hneg] at hrest
      rw [Nat.succ_mul] at hn
      obtain ⟨j, hj, hearlier, m, hunmoved, hmoment, hlast⟩ := ih (hmoved.balances hb)
        (hmoved.dry hdry) (by omega) (by omega) hrest
        (fun e he => by
          obtain ⟨hquiet, hdue⟩ := hbefore e (List.dropWhile_subset _ he)
          exact ⟨mt (hmoved.frees_iff e.2).mp hquiet, hdue⟩)
        ((hmoved.frees_iff o).mpr ho) (by omega)
      refine ⟨j + 1, Nat.succ_le_succ hj, fun i hi => ?_, m, hmoved.trans hunmoved, hmoment, hlast⟩
      cases i with
      | zero => exact hfirst
      | succ i => exact hearlier i (Nat.lt_of_succ_lt_succ hi)

/-! ### The borrow -/

section first
variable {β : Type} {P : β → Prop} {l xs ys xs' ys' : List β} {y y' : β}

theorem exists_first (h : ∃ z ∈ l, P z) :
    ∃ xs y ys, l = xs ++ y :: ys ∧ (∀ z ∈ xs, ¬ P z) ∧ P y := by
  classical
  obtain ⟨z, hz, hP⟩ := h
  have hfound : (l.find? fun z => decide (P z)).isSome :=
    List.find?_isSome.mpr ⟨z, hz, decide_eq_true hP⟩
  obtain ⟨y, hy⟩ := Option.isSome_iff_exists.mp hfound
  obtain ⟨hy, xs, ys, hl, hxs⟩ := List.find?_eq_some_iff_append.mp hy
  exact ⟨xs, y, ys, hl, fun z hz => by simpa using hxs z hz, of_decide_eq_true hy⟩

theorem first_unique (h : xs ++ y :: ys = xs' ++ y' :: ys') (hxs : ∀ z ∈ xs, ¬ P z) (hy : P y)
    (hxs' : ∀ z ∈ xs', ¬ P z) (hy' : P y') : y = y' ∧ ys = ys' := by
  induction xs generalizing xs' with
  | nil =>
    cases xs' with
    | nil => exact List.cons.inj h
    | cons x' xs' =>
      obtain ⟨rfl, -⟩ := List.cons.inj h
      exact absurd hy (hxs' _ (List.mem_cons_self))
  | cons x xs ih =>
    cases xs' with
    | nil =>
      obtain ⟨rfl, -⟩ := List.cons.inj h
      exact absurd hy' (hxs _ (List.mem_cons_self))
    | cons x' xs' =>
      exact ih (List.cons.inj h).2 (List.forall_mem_cons.mp hxs).2 (List.forall_mem_cons.mp hxs').2

end first

/-- A blocking borrow that begins in `w` makes its last try in `u`: its tries before that are in
vain, and it comes to an end, after at most one try for each ten milliseconds begun and two more,
with the outcome of the last one. That try is made no later than the deadline, and is in vain only
at the deadline. -/
structure Conduct.Concludes (c : Conduct α) (timeout : Duration) (w u : Prospect α) : Prop where
  reached : ∃ j ≤ timeout.nanos / slice.nanos + 1,
    c.blocked (timeout.after w.system.now) w j = u ∧
    (∀ i < j, c.surroundings.Vain (c.blocked (timeout.after w.system.now) w i)) ∧
    ∀ tries, j < tries → block c.surroundings timeout tries w =
      ((c.surroundings.attempt u).1, some (verdict timeout (c.surroundings.attempt u).2))
  now : (c.surroundings.attempt u).1.system.now = u.system.now
  begun : w.system.now ≤ u.system.now
  due : u.system.now ≤ timeout.after w.system.now
  vain : c.surroundings.Vain u → u.system.now = timeout.after w.system.now
  served : ¬ c.surroundings.Vain u → c.Served u

section concludes
variable {timeout : Duration}

theorem concludes {u : Prospect α} {j : Nat} (hj : j ≤ timeout.nanos / slice.nanos + 1)
    (hearlier : ∀ i < j, c.surroundings.Vain (c.blocked (timeout.after w.system.now) w i) ∧
      (c.blocked (timeout.after w.system.now) w i).system.now < timeout.after w.system.now)
    (hu : c.blocked (timeout.after w.system.now) w j = u) (hb : u.system.Balances)
    (hbegun : w.system.now ≤ u.system.now) (hdue : u.system.now ≤ timeout.after w.system.now)
    (hvain : c.surroundings.Vain u → u.system.now = timeout.after w.system.now) :
    c.Concludes timeout w u where
  reached := by
    refine ⟨j, hj, hu, fun i hi => (hearlier i hi).1, fun tries htries => ?_⟩
    obtain ⟨tries, rfl⟩ := Nat.exists_eq_add_of_lt htries
    subst hu
    rw [block, Nat.add_assoc]
    refine (blockUntil_eq (fun i hi => ?_) (tries + 1)).trans
      (blockUntil_last tries fun hlast => ?_)
    · obtain ⟨hvain, hearly⟩ := hearlier i hi
      exact ⟨hvain, Nat.lt_of_le_of_lt (Nat.le_of_eq (try_now c _)) hearly⟩
    · exact Nat.le_of_eq ((try_now c _).trans (hvain hlast)).symm
  now := try_now c u
  begun := hbegun
  due := hdue
  vain := hvain
  served hserved := served_of_not_dry c hb (mt (vain_iff_dry c hb).mpr hserved)

theorem after_le_rounds (timeout : Duration) (now : Nat) :
    timeout.after now ≤ now + (timeout.nanos / slice.nanos + 1) * slice.nanos := by
  have hpos : 0 < slice.nanos := by decide
  have hdiv := Nat.lt_div_mul_add hpos (a := timeout.nanos)
  rw [Nat.succ_mul]
  show now + timeout.nanos ≤ _
  omega

theorem concludes_in_vain (c : Conduct α) (hb : w.system.Balances) (hdry : w.system.pool.Dry)
    (hquiet : timeout.nanos = 0 ∨
      ∀ e ∈ w.agenda, e.1 ≤ timeout.after w.system.now → ¬ e.2.Frees w.system) :
    ∃ u, c.Concludes timeout w u ∧ c.surroundings.Vain u ∧
      w.system.Unmoved (c.surroundings.attempt u).1.system := by
  have hreaches : ∃ j ≤ timeout.nanos / slice.nanos + 1,
      (∀ i < j, c.surroundings.Vain (c.blocked (timeout.after w.system.now) w i) ∧
        (c.blocked (timeout.after w.system.now) w i).system.now < timeout.after w.system.now) ∧
      w.system.Unmoved (c.blocked (timeout.after w.system.now) w j).system ∧
      (c.blocked (timeout.after w.system.now) w j).system.now = timeout.after w.system.now := by
    rcases hquiet with hzero | hquiet
    · refine ⟨0, Nat.zero_le _, by simp, .refl _, ?_⟩
      show w.system.now = w.system.now + timeout.nanos
      omega
    · exact reaches_deadline hb hdry (Nat.le_add_right _ _) (after_le_rounds timeout _) hquiet
  obtain ⟨j, hj, hearlier, hmoved, hlast⟩ := hreaches
  refine ⟨_, concludes hj hearlier rfl (hmoved.balances hb) ?_ hlast.le fun _ => hlast,
    (vain_iff_dry c (hmoved.balances hb)).mpr (hmoved.dry hdry),
    hmoved.trans (unmoved_try c (hmoved.dry hdry))⟩
  rw [hlast]
  exact Nat.le_add_right _ _

theorem concludes_freed (c : Conduct α) (hb : w.system.Balances) (hw : w.Orderly)
    (hdry : w.system.pool.Dry) (htimeout : 0 < timeout.nanos)
    {before after : List (Nat × Occurrence α)} {x : Nat} {o : Occurrence α}
    (hagenda : w.agenda = before ++ (x, o) :: after)
    (hbefore : ∀ e ∈ before, ¬ e.2.Frees w.system) (ho : o.Frees w.system)
    (hx : x ≤ timeout.after w.system.now) :
    ∃ m, w.system.Unmoved m ∧ m.now = x ∧ c.Concludes timeout w ⟨c.occur m o, after⟩ ∧
      ¬ c.surroundings.Vain ⟨c.occur m o, after⟩ := by
  obtain ⟨hahead, hsooner, -⟩ := hw.first hagenda
  obtain ⟨j, hj, hearlier, m, hmoved, hmoment, hlast⟩ := reaches_freed (c := c) hb hdry
    (Nat.lt_add_of_pos_right htimeout) (after_le_rounds timeout _) hagenda
    (fun e he => ⟨hbefore e he, hsooner e he⟩) ho hahead hx
  have hm := hmoved.balances hb
  have hfreed := balances_occur c o hm
  have hnow : (c.occur m o).now = x := (occur_now c m o).trans hmoment
  have hvain : ¬ c.surroundings.Vain ⟨c.occur m o, after⟩ :=
    mt (vain_iff_dry c hfreed).mp (occur_freed c hm ((hmoved.frees_iff o).mpr ho)).1
  exact ⟨m, hmoved, hmoment, concludes hj hearlier hlast hfreed (hahead.trans hnow.ge)
    (hnow.trans_le hx) (absurd · hvain), hvain⟩

end concludes

/-- **A blocking borrow is exact.** It comes to an end with its try in a world `u`, at the deadline
if that try is in vain (`Conduct.Concludes`).

* If the pool is not dry when the borrow begins, its first try is its last, and not in vain.
* If the pool is dry, and the timeout is zero or nothing is freed up to the deadline, the last try
  is in vain, and nothing has changed.
* If the pool is dry, the timeout is not zero and something is freed up to the deadline, the last
  try is not in vain, and is made at the moment this happens for the first time, right after it. -/
theorem blocked_borrow_exact (c : Conduct α) (hb : w.system.Balances) (hw : w.Orderly)
    (timeout : Duration) :
    ∃ u, c.Concludes timeout w u ∧
      (¬ w.system.pool.Dry → u = w ∧ ¬ c.surroundings.Vain u) ∧
      (w.system.pool.Dry →
        timeout.nanos = 0 ∨
          (∀ e ∈ w.agenda, e.1 ≤ timeout.after w.system.now → ¬ e.2.Frees w.system) →
        c.surroundings.Vain u ∧ w.system.Unmoved (c.surroundings.attempt u).1.system) ∧
      (w.system.pool.Dry → 0 < timeout.nanos → ∀ before x o after,
        w.agenda = before ++ (x, o) :: after → (∀ e ∈ before, ¬ e.2.Frees w.system) →
        o.Frees w.system → x ≤ timeout.after w.system.now →
        ¬ c.surroundings.Vain u ∧ u.system.now = x ∧ u.agenda = after ∧
        (o = .command .close → u.system.pool.closed = true) ∧
        ∃ m, w.system.Unmoved m ∧ m.now = x ∧ u.system = c.occur m o) := by
  by_cases hdry : w.system.pool.Dry
  · by_cases hquiet : timeout.nanos = 0 ∨
        ∀ e ∈ w.agenda, e.1 ≤ timeout.after w.system.now → ¬ e.2.Frees w.system
    · obtain ⟨u, hu, hvain, hunmoved⟩ := concludes_in_vain c hb hdry hquiet
      refine ⟨u, hu, absurd hdry, fun _ _ => ⟨hvain, hunmoved⟩, ?_⟩
      intro _ htimeout before x o after hagenda _ ho hx
      rcases hquiet with hzero | hquiet
      · omega
      · exact absurd ho (hquiet (x, o) (by simp [hagenda]) hx)
    · push Not at hquiet
      obtain ⟨htimeout, e, he, hdue, hfrees⟩ := hquiet
      obtain ⟨before, ⟨x, o⟩, after, hagenda, hbefore, ho⟩ :=
        exists_first (P := fun e => e.2.Frees w.system) ⟨e, he, hfrees⟩
      have hx : x ≤ timeout.after w.system.now := by
        rw [hagenda] at he
        rcases List.mem_append.mp he with he | he
        · exact absurd hfrees (hbefore e he)
        · rcases List.mem_cons.mp he with rfl | he
          · exact hdue
          · exact Nat.le_trans ((hw.first hagenda).2.2 e he) hdue
      obtain ⟨m, hmoved, hmoment, hu, hvain⟩ := concludes_freed c hb hw hdry
        (Nat.pos_of_ne_zero htimeout) hagenda hbefore ho hx
      refine ⟨_, hu, absurd hdry, fun _ hquiet => ?_, ?_⟩
      · rcases hquiet with hzero | hquiet
        · exact absurd hzero htimeout
        · exact absurd ho (hquiet (x, o) (by simp [hagenda]) hx)
      · intro _ _ before' x' o' after' hagenda' hbefore' ho' _
        obtain ⟨heq, rfl⟩ := first_unique (hagenda.symm.trans hagenda') hbefore ho hbefore' ho'
        obtain ⟨rfl, rfl⟩ := Prod.mk.inj heq
        refine ⟨hvain, (occur_now c m o).trans hmoment, rfl, ?_, m, hmoved, hmoment, rfl⟩
        rintro rfl
        exact occur_close c m
  · have hvain : ¬ c.surroundings.Vain w := mt (vain_iff_dry c hb).mp hdry
    exact ⟨w, concludes (Nat.zero_le _) (by simp) rfl hb (Nat.le_refl _) (Nat.le_add_right _ _)
      (absurd · hvain), fun _ => ⟨rfl, hvain⟩, (absurd · hdry), (absurd · hdry)⟩

/-! ### A guard dropped in mid-slice -/

/-- Callbacks that make what they should and find everything valid. -/
def steady : Reaction Nat := fun _ f =>
  match f with
  | .creating => .ok 0
  | .checking _ => true
  | .destroying .. => ()

/-- The guard is dropped after twelve milliseconds, in the second slice, and the borrower has the
object then; an eviction after three milliseconds has brought it nothing. -/
theorem blocked_borrow_exact_dropped : ∃ v, v.system.now = 12000000 ∧ v.agenda = [] ∧
    ∀ tries, 3 < tries →
      block (Conduct.alone steady).surroundings (.ofMillis 20) tries
        ⟨lentOnly, [(3000000, .command .evictIdle), (12000000, .command (.giveBack ⟨0, 7⟩))]⟩ =
      (v, some (.ok ⟨0, 7⟩)) := by
  let c := Conduct.alone steady
  let before : List (Nat × Occurrence Nat) := [(3000000, .command .evictIdle)]
  let w : Prospect Nat := ⟨lentOnly, before ++ [(12000000, .command (.giveBack ⟨0, 7⟩))]⟩
  have hnow : w.system.now = 0 := by cbv
  have hguards : w.system.guards = [⟨0, 7⟩] := by cbv
  have hdry : w.system.pool.Dry := ⟨by cbv, by cbv, by cbv⟩
  have hw : w.Orderly := ⟨by simp [w, before], fun e _ => hnow ▸ Nat.zero_le e.1⟩
  have hfrees : Occurrence.Frees w.system (.command (.giveBack ⟨0, 7⟩)) := by
    rw [Occurrence.Frees, hguards]
    exact List.mem_singleton_self _
  obtain ⟨u, hu, -, -, hfreed⟩ :=
    blocked_borrow_exact c reachable_lentOnly.balances hw (.ofMillis 20)
  obtain ⟨-, hmoment, hagenda, -⟩ := hfreed hdry (by decide) before 12000000 _ [] rfl
    (by simp [before, Occurrence.Frees]) hfrees (by rw [hnow]; decide)
  obtain ⟨j, hj, -, -, hends⟩ := hu.reached
  have hj : j ≤ 3 := hj
  have hverdict : verdict (.ofMillis 20) (c.surroundings.attempt u).2 = .ok ⟨0, 7⟩ := by
    have hblock : (block c.surroundings (.ofMillis 20) 4 w).2 = some (.ok ⟨0, 7⟩) := by cbv
    rw [hends 4 (by omega)] at hblock
    exact Option.some.inj hblock
  refine ⟨(c.surroundings.attempt u).1, hu.now.trans hmoment, hagenda, fun tries htries => ?_⟩
  rw [← hverdict]
  exact hends tries (by omega)

end ConnectionLeasing.Pool
