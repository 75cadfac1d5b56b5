import ConnectionLeasing.Waiting
import Mathlib.Data.List.Iterate

/-!
# The tries of a borrower that waits

Between two tries in vain a borrower sleeps. `nap` and `doze` are such a round for the two ways to
wait, so the `j`-th try is made in the world that `j` rounds lead to.

* `blockUntil_eq`, `pollUntil_eq`: as long as tries are in vain and the deadline is ahead, one round
  follows another.
* `blockUntil_last`, `pollUntil_of_answer`, `pollUntil_of_late`, `pollUntil_of_asleep`: how a
  borrower ends.
-/

namespace ConnectionLeasing.Waiting

variable {W α : Type} {S : Surroundings W α} {timeout : Duration} {deadline : Nat} {w : W}

/-- The try made in a world finds nothing. -/
def Surroundings.Vain (S : Surroundings W α) (w : W) : Prop := (S.attempt w).2 = .ok none

/-- What a borrower reports whose last try gave this. -/
def verdict (timeout : Duration) : Except LeaseError (Option α) → Except LeaseError α
  | .ok (some x) => .ok x
  | .ok none => .error (.timeout timeout)
  | .error e => .error e

/-- A try in vain of a borrower that blocks, and its sleep after that. -/
def Surroundings.nap (S : Surroundings W α) (deadline : Nat) (w : W) : W :=
  let w := (S.attempt w).1
  S.sleep (min deadline (slice.after (S.now w))) (fun v => S.signals v ≠ S.signals w) w

/-- A try in vain of a borrower that polls, and its sleep after that. -/
def Surroundings.doze (S : Surroundings W α) (deadline : Nat) (w : W) : W :=
  let w := (S.attempt w).1
  S.sleep (min (slice.after (S.now w)) deadline) (fun _ => false) w

/-! ### Blocking -/

theorem blockUntil_of_vain (tries : Nat) (hvain : S.Vain w)
    (hearly : S.now (S.attempt w).1 < deadline) :
    blockUntil S timeout deadline (tries + 1) w =
      blockUntil S timeout deadline tries (S.nap deadline w) := by
  rw [Surroundings.Vain] at hvain
  rw [blockUntil, ← Prod.eta (S.attempt w), hvain]
  dsimp only
  rw [if_neg (Nat.not_le.mpr hearly)]
  rfl

theorem blockUntil_last (tries : Nat) (h : S.Vain w → deadline ≤ S.now (S.attempt w).1) :
    blockUntil S timeout deadline (tries + 1) w =
      ((S.attempt w).1, some (verdict timeout (S.attempt w).2)) := by
  rw [Surroundings.Vain] at h
  rw [blockUntil, ← Prod.eta (S.attempt w)]
  cases hanswer : (S.attempt w).2 with
  | error e => rfl
  | ok found =>
    cases found with
    | some x => rfl
    | none =>
      dsimp only
      rw [if_pos (h hanswer)]
      rfl

/-- **A borrower that blocks comes to its `j`-th try** if the tries before are in vain and before
its deadline. -/
theorem blockUntil_eq {j : Nat}
    (hearlier : ∀ i < j, S.Vain ((S.nap deadline)^[i] w) ∧
      S.now (S.attempt ((S.nap deadline)^[i] w)).1 < deadline) (tries : Nat) :
    blockUntil S timeout deadline (j + tries) w =
      blockUntil S timeout deadline tries ((S.nap deadline)^[j] w) := by
  induction j generalizing w with
  | zero => rw [Nat.zero_add, Function.iterate_zero_apply]
  | succ j ih =>
    have hfirst : S.Vain w ∧ S.now (S.attempt w).1 < deadline := hearlier 0 (Nat.zero_lt_succ j)
    rw [Nat.succ_add, blockUntil_of_vain _ hfirst.1 hfirst.2, Function.iterate_succ_apply]
    exact ih fun i hi => hearlier (i + 1) (Nat.succ_lt_succ hi)

/-! ### Polling -/

theorem pollUntil_of_vain (tries : Nat) (hvain : S.Vain w)
    (hearly : S.now (S.attempt w).1 < deadline)
    (hawake : slice.after (S.now (S.attempt w).1) ≤ S.now (S.doze deadline w)) :
    pollUntil S timeout deadline (tries + 1) w =
      pollUntil S timeout deadline tries (S.doze deadline w) := by
  rw [Surroundings.Vain] at hvain
  rw [pollUntil, ← Prod.eta (S.attempt w), hvain]
  dsimp only
  rw [if_neg (Nat.not_le.mpr hearly)]
  exact if_neg (Nat.not_lt.mpr hawake)

theorem pollUntil_of_answer (tries : Nat) (h : ¬ S.Vain w) :
    pollUntil S timeout deadline (tries + 1) w =
      ((S.attempt w).1, some (verdict timeout (S.attempt w).2)) := by
  rw [Surroundings.Vain] at h
  rw [pollUntil, ← Prod.eta (S.attempt w)]
  cases hanswer : (S.attempt w).2 with
  | error e => rfl
  | ok found =>
    cases found with
    | some x => rfl
    | none => exact absurd hanswer h

theorem pollUntil_of_late (tries : Nat) (hvain : S.Vain w)
    (hlate : deadline ≤ S.now (S.attempt w).1) :
    pollUntil S timeout deadline (tries + 1) w =
      ((S.attempt w).1, some (.error (.timeout timeout))) := by
  rw [Surroundings.Vain] at hvain
  rw [pollUntil, ← Prod.eta (S.attempt w), hvain]
  dsimp only
  rw [if_pos hlate]

theorem pollUntil_of_asleep (tries : Nat) (hvain : S.Vain w)
    (hearly : S.now (S.attempt w).1 < deadline)
    (hasleep : S.now (S.doze deadline w) < slice.after (S.now (S.attempt w).1)) :
    pollUntil S timeout deadline (tries + 1) w =
      (S.doze deadline w, some (.error (.timeout timeout))) := by
  rw [Surroundings.Vain] at hvain
  rw [pollUntil, ← Prod.eta (S.attempt w), hvain]
  dsimp only
  rw [if_neg (Nat.not_le.mpr hearly)]
  exact if_pos hasleep

/-- **A borrower that polls comes to its `j`-th try** if the tries before are in vain and each sleep
lasts until the next one. -/
theorem pollUntil_eq {j : Nat}
    (hearlier : ∀ i < j, S.Vain ((S.doze deadline)^[i] w) ∧
      S.now (S.attempt ((S.doze deadline)^[i] w)).1 < deadline ∧
      slice.after (S.now (S.attempt ((S.doze deadline)^[i] w)).1) ≤
        S.now ((S.doze deadline)^[i + 1] w)) (tries : Nat) :
    pollUntil S timeout deadline (j + tries) w =
      pollUntil S timeout deadline tries ((S.doze deadline)^[j] w) := by
  induction j generalizing w with
  | zero => rw [Nat.zero_add, Function.iterate_zero_apply]
  | succ j ih =>
    have hfirst : S.Vain w ∧ S.now (S.attempt w).1 < deadline ∧
        slice.after (S.now (S.attempt w).1) ≤ S.now (S.doze deadline w) :=
      hearlier 0 (Nat.zero_lt_succ j)
    rw [Nat.succ_add, pollUntil_of_vain _ hfirst.1 hfirst.2.1 hfirst.2.2,
      Function.iterate_succ_apply]
    exact ih fun i hi => hearlier (i + 1) (Nat.succ_lt_succ hi)

/-! ### Two borrowers side by side -/

/-- A world changed by `g` shows a borrower the same, with errors changed by `f`. -/
structure Surroundings.Respects (S : Surroundings W α) (g : W → W)
    (f : LeaseError → LeaseError) : Prop where
  now (w : W) : S.now (g w) = S.now w
  signals (w : W) : S.signals (g w) = S.signals w
  attempt (w : W) : S.attempt (g w) = Prod.map g (Except.mapError f) (S.attempt w)
  sleep (moment : Nat) (woken : W → Bool) (w : W) :
    S.sleep moment woken (g w) = g (S.sleep moment (woken ∘ g) w)

section respects
variable {g : W → W} {f : LeaseError → LeaseError} (hf : f (.timeout timeout) = .timeout timeout)
include hf

theorem map_timeout (w : W) : Prod.map g (Option.map (Except.mapError f))
    (w, some (.error (.timeout timeout) : Except LeaseError α)) =
      (g w, some (.error (.timeout timeout))) :=
  congrArg (fun e => (g w, some (.error e : Except LeaseError α))) hf

variable (h : S.Respects g f)
include h

theorem Surroundings.Respects.blockUntil (tries : Nat) (w : W) :
    blockUntil S timeout deadline tries (g w) =
      Prod.map g (Option.map (Except.mapError f)) (blockUntil S timeout deadline tries w) := by
  induction tries generalizing w with
  | zero => rfl
  | succ tries ih =>
    rw [Waiting.blockUntil, Waiting.blockUntil, h.attempt]
    obtain ⟨v, answer⟩ := S.attempt w
    cases answer with
    | error e => rfl
    | ok found =>
      cases found with
      | some x => rfl
      | none =>
        have hwoken : (fun u => decide (S.signals u ≠ S.signals v)) ∘ g =
            fun u => decide (S.signals u ≠ S.signals v) :=
          funext fun u => by rw [Function.comp_apply, h.signals]
        dsimp only [Prod.map, Except.mapError]
        rw [h.now, h.signals, h.sleep, hwoken, ih]
        split
        · exact (map_timeout hf v).symm
        · rfl

theorem Surroundings.Respects.pollUntil (tries : Nat) (w : W) :
    pollUntil S timeout deadline tries (g w) =
      Prod.map g (Option.map (Except.mapError f)) (pollUntil S timeout deadline tries w) := by
  induction tries generalizing w with
  | zero => rfl
  | succ tries ih =>
    rw [Waiting.pollUntil, Waiting.pollUntil, h.attempt]
    obtain ⟨v, answer⟩ := S.attempt w
    cases answer with
    | error e => rfl
    | ok found =>
      cases found with
      | some x => rfl
      | none =>
        have hwoken : (fun _ => false) ∘ g = fun _ => false := rfl
        dsimp only [Prod.map, Except.mapError]
        rw [h.now, h.sleep, h.now, ih, hwoken]
        by_cases hlate : deadline ≤ S.now v
        · rw [if_pos hlate, if_pos hlate]
          exact (map_timeout hf v).symm
        · rw [if_neg hlate, if_neg hlate]
          split
          · exact (map_timeout hf _).symm
          · rfl

end respects

end ConnectionLeasing.Waiting
