import ConnectionLeasing.Health
import Mathlib

/-!
# Utilisation in double precision

A quotient of machine words is rounded three times on its way to a utilisation: both words to
doubles, then their quotient. The exact value of a double (`Binary64.value`) makes the order of the
results comparable.

* `exists_rounds`: a positive quotient is rounded from a quotient of integers whose whole part has
  53 bits, at some exponent.
* `value_ofRatio_shift_mono`, `value_ofRatio_le_zpow`: rounding keeps the order, and passes no power
  of two.
* `value_utilizationOf_le_one`: so connections within the capacity never show as more than all of
  it.
-/

namespace ConnectionLeasing

namespace Number

theorem roundQuotient_mono {a b c d : Nat} (hb : 0 < b) (hd : 0 < d) (h : a * d ≤ c * b) :
    roundQuotient a b ≤ roundQuotient c d := by
  have hfloor : a / b ≤ c / d := by
    rw [Nat.le_div_iff_mul_le hd]
    refine Nat.le_of_mul_le_mul_right ?_ hb
    calc a / b * d * b = a / b * b * d := by ring
      _ ≤ a * d := Nat.mul_le_mul_right d (Nat.div_mul_le_self a b)
      _ ≤ c * b := h
  rcases Nat.lt_or_eq_of_le hfloor with hlt | heq
  · have hup : roundQuotient a b ≤ a / b + 1 := by
      rcases roundQuotient_eq a b with h | h <;> omega
    have hdown : c / d ≤ roundQuotient c d := by
      rcases roundQuotient_eq c d with h | h <;> omega
    omega
  · -- the same whole part: the remainders decide, in the same order
    have hrest : a % b * d ≤ c % d * b := by
      have ha := Nat.div_add_mod a b
      have hc := Nat.div_add_mod c d
      rw [← ha, ← hc, ← heq] at h
      nlinarith [h]
    unfold roundQuotient
    dsimp only
    rw [← heq]
    split
    · rename_i hup
      rw [if_pos]
      rcases hup with hup | ⟨hhalf, hodd⟩
      · left
        nlinarith
      · rcases Nat.lt_or_ge d (2 * (c % d)) with hlt | hge
        · exact .inl hlt
        · refine .inr ⟨Nat.le_antisymm hge ?_, hodd⟩
          nlinarith
    · split <;> omega

theorem roundQuotient_le {a b n : Nat} (h : a < n * b) : roundQuotient a b ≤ n := by
  have hlt : a / b < n := Nat.div_lt_of_lt_mul (by rwa [Nat.mul_comm])
  rcases roundQuotient_eq a b with heq | heq <;> omega

theorem le_roundQuotient {a b n : Nat} (hb : 0 < b) (h : n * b ≤ a) : n ≤ roundQuotient a b := by
  have hle : n ≤ a / b := (Nat.le_div_iff_mul_le hb).mpr h
  rcases roundQuotient_eq a b with heq | heq <;> omega

namespace Binary64

/-- The number that a value stands for. -/
def value (x : Binary64) : ℚ := x.mantissa * 2 ^ x.exponent

theorem value_nonneg (x : Binary64) : 0 ≤ x.value := by unfold value; positivity

@[simp] theorem value_zero : zero.value = 0 := by simp [value, zero]

theorem value_shift (x : Binary64) (k : Int) : (x.shift k).value = x.value * 2 ^ k := by
  rw [value, value, shift, zpow_add₀ two_ne_zero, mul_assoc]

theorem scaled_spec (n : Nat) {d : Nat} (hd : 0 < d) (e : Int) : 0 < (scaled n d e).2 ∧
    ((scaled n d e).1 : ℚ) / (scaled n d e).2 * 2 ^ e = n / d := by
  have hpos : (0 : ℚ) < d := by exact_mod_cast hd
  unfold scaled
  split
  · rename_i he
    refine ⟨Nat.shiftLeft_pos_iff.mpr hd, ?_⟩
    have hpow : (2 : ℚ) ^ e = 2 ^ e.toNat := by
      rw [← zpow_natCast, Int.toNat_of_nonneg he]
    rw [hpow, Nat.shiftLeft_eq]
    push_cast
    field_simp
  · rename_i he
    refine ⟨hd, ?_⟩
    have hpow : (2 : ℚ) ^ e * 2 ^ (-e).toNat = 1 := by
      rw [← zpow_natCast, Int.toNat_of_nonneg (by omega), ← zpow_add₀ two_ne_zero]
      simp
    rw [Nat.shiftLeft_eq]
    push_cast
    calc (n : ℚ) * 2 ^ (-e).toNat / d * 2 ^ e = n / d * (2 ^ e * 2 ^ (-e).toNat) := by ring
      _ = n / d := by rw [hpow, mul_one]

/-- What a quotient is rounded from: a quotient of integers with a 53-bit whole part. -/
structure Rounds (n d a b : Nat) (e : Int) : Prop where
  pos : 0 < b
  low : 2 ^ 52 * b ≤ a
  high : a < 2 ^ 53 * b
  exact : (a : ℚ) / b * 2 ^ e = n / d
  value : (ofRatio n d).value = roundQuotient a b * 2 ^ e

theorem scaled_mem {n d : Nat} (hd : 0 < d) {e : Int} (hlow : (2 : ℚ) ^ 52 * 2 ^ e ≤ n / d)
    (hhigh : (n : ℚ) / d < 2 ^ 53 * 2 ^ e) : 2 ^ 52 * (scaled n d e).2 ≤ (scaled n d e).1 ∧
      (scaled n d e).1 < 2 ^ 53 * (scaled n d e).2 := by
  obtain ⟨hpos, hexact⟩ := scaled_spec n hd e
  have hb : (0 : ℚ) < (scaled n d e).2 := by exact_mod_cast hpos
  have he : (0 : ℚ) < 2 ^ e := by positivity
  rw [← hexact] at hlow hhigh
  have hlow' := (le_div_iff₀ hb).mp (le_of_mul_le_mul_right hlow he)
  have hhigh' := (div_lt_iff₀ hb).mp (lt_of_mul_lt_mul_right hhigh he.le)
  exact ⟨by exact_mod_cast hlow', by exact_mod_cast hhigh'⟩

/-- The quotient lies within a factor of two of the range that its exponent is first tried for. -/
theorem ratio_bounds {n d : Nat} (hn : 0 < n) (hd : 0 < d) :
    (2 : ℚ) ^ 51 * 2 ^ ((n.log2 : Int) - d.log2 - 52) < n / d ∧
      (n : ℚ) / d < 2 ^ 53 * 2 ^ ((n.log2 : Int) - d.log2 - 52) := by
  have hposd : (0 : ℚ) < d := by exact_mod_cast hd
  have hn₁ : (2 : ℚ) ^ n.log2 ≤ n := by exact_mod_cast Nat.log2_self_le hn.ne'
  have hn₂ : (n : ℚ) < 2 ^ n.log2 * 2 := by
    rw [← pow_succ]
    exact_mod_cast Nat.lt_log2_self
  have hd₁ : (2 : ℚ) ^ d.log2 ≤ d := by exact_mod_cast Nat.log2_self_le hd.ne'
  have hd₂ : (d : ℚ) < 2 ^ d.log2 * 2 := by
    rw [← pow_succ]
    exact_mod_cast Nat.lt_log2_self
  have hpow : (2 : ℚ) ^ ((n.log2 : Int) - d.log2 - 52) = 2 ^ n.log2 / 2 ^ d.log2 / 2 ^ 52 := by
    rw [zpow_sub₀ two_ne_zero, zpow_sub₀ two_ne_zero]
    norm_cast
  have hp : (0 : ℚ) < 2 ^ d.log2 := by positivity
  rw [hpow]
  generalize (2 : ℚ) ^ n.log2 = N at hn₁ hn₂
  generalize (2 : ℚ) ^ d.log2 = D at hd₁ hd₂ hp
  constructor
  · rw [lt_div_iff₀ hposd]
    calc 2 ^ 51 * (N / D / 2 ^ 52) * d = N * d / (D * 2) := by ring
      _ < N := by
        rw [div_lt_iff₀ (by positivity)]
        nlinarith
      _ ≤ n := hn₁
  · rw [div_lt_iff₀ hposd]
    calc (n : ℚ) < N * 2 := hn₂
      _ ≤ N * 2 / D * d := by
        rw [div_mul_eq_mul_div, le_div_iff₀ hp]
        nlinarith
      _ = 2 ^ 53 * (N / D / 2 ^ 52) * d := by ring

theorem value_carried (m : Nat) (e : Int) :
    (if m = 1 <<< 53 then ⟨1 <<< 52, e + 1⟩ else ⟨m, e⟩ : Binary64).value = m * 2 ^ e := by
  split
  · rename_i hm
    rw [hm, value, zpow_add₀ two_ne_zero, Nat.shiftLeft_eq, Nat.shiftLeft_eq]
    push_cast
    ring
  · rfl

theorem exists_rounds {n d : Nat} (hn : 0 < n) (hd : 0 < d) : ∃ a b e, Rounds n d a b e := by
  obtain ⟨habove, hbelow⟩ := ratio_bounds hn hd
  -- the exponent tried first is one too high if the whole part falls short of 53 bits
  have hrounds : ∀ e, (2 : ℚ) ^ 52 * 2 ^ e ≤ n / d → (n : ℚ) / d < 2 ^ 53 * 2 ^ e →
      (ofRatio n d).value =
        roundQuotient (scaled n d e).1 (scaled n d e).2 * 2 ^ e → ∃ a b e, Rounds n d a b e :=
    fun e hlow hhigh hvalue => by
      obtain ⟨hpos, hexact⟩ := scaled_spec n hd e
      obtain ⟨hl, hh⟩ := scaled_mem hd hlow hhigh
      exact ⟨_, _, e, hpos, hl, hh, hexact, hvalue⟩
  have hzero : ¬ (n = 0 ∨ d = 0) := by omega
  set high : Int := (n.log2 : Int) - d.log2 - 52 with hhigh
  have hshort : (scaled n d high).1 < (scaled n d high).2 <<< 52 ↔
      (n : ℚ) / d < 2 ^ 52 * 2 ^ high := by
    obtain ⟨hpos, hexact⟩ := scaled_spec n hd high
    have hb : (0 : ℚ) < (scaled n d high).2 := by exact_mod_cast hpos
    have he : (0 : ℚ) < 2 ^ high := by positivity
    rw [← hexact, mul_lt_mul_iff_left₀ he, div_lt_iff₀ hb, Nat.shiftLeft_eq, mul_comm]
    norm_cast
  by_cases h : (scaled n d high).1 < (scaled n d high).2 <<< 52
  · refine hrounds (high - 1) ?_ ?_ ?_
    · rw [zpow_sub₀ two_ne_zero]
      linarith
    · rw [zpow_sub₀ two_ne_zero]
      linarith [hshort.mp h]
    · rw [ofRatio, if_neg hzero]
      simp only [← hhigh, if_pos h]
      exact value_carried _ _
  · refine hrounds high (not_lt.mp (mt hshort.mpr h)) hbelow ?_
    rw [ofRatio, if_neg hzero]
    simp only [← hhigh, if_neg h]
    exact value_carried _ _

section order
variable {n d n' d' : Nat}

theorem value_ofRatio_shift_mono (hn : 0 < n) (hd : 0 < d) (hn' : 0 < n') (hd' : 0 < d')
    {k l : Int} (h : (n : ℚ) / d * 2 ^ k ≤ n' / d' * 2 ^ l) :
    (ofRatio n d).value * 2 ^ k ≤ (ofRatio n' d').value * 2 ^ l := by
  obtain ⟨a, b, e, hr⟩ := exists_rounds hn hd
  obtain ⟨a', b', e', hr'⟩ := exists_rounds hn' hd'
  rw [hr.value, hr'.value, mul_assoc, mul_assoc, ← zpow_add₀ two_ne_zero, ← zpow_add₀ two_ne_zero]
  have hb : (0 : ℚ) < b := by exact_mod_cast hr.pos
  have hb' : (0 : ℚ) < b' := by exact_mod_cast hr'.pos
  rw [← hr.exact, ← hr'.exact, mul_assoc, mul_assoc, ← zpow_add₀ two_ne_zero,
    ← zpow_add₀ two_ne_zero] at h
  generalize e + k = e at h ⊢
  generalize e' + l = e' at h ⊢
  rcases lt_trichotomy e e' with hlt | rfl | hgt
  · have hup : (roundQuotient a b : ℚ) ≤ 2 ^ 53 := by exact_mod_cast roundQuotient_le hr.high
    have hdown : (2 : ℚ) ^ 52 ≤ roundQuotient a' b' := by
      exact_mod_cast le_roundQuotient hr'.pos hr'.low
    calc (roundQuotient a b : ℚ) * 2 ^ e ≤ 2 ^ 53 * 2 ^ e := by gcongr
      _ = 2 ^ 52 * 2 ^ (e + 1) := by rw [zpow_add₀ two_ne_zero]; ring
      _ ≤ 2 ^ 52 * 2 ^ e' := by
        gcongr
        · norm_num
        · omega
      _ ≤ roundQuotient a' b' * 2 ^ e' := by gcongr
  · have hquot := le_of_mul_le_mul_right h (by positivity)
    rw [div_le_div_iff₀ hb hb'] at hquot
    have hround := roundQuotient_mono hr.pos hr'.pos (by exact_mod_cast hquot)
    gcongr
  · exfalso
    have hlow : (2 : ℚ) ^ 52 ≤ a / b := by
      rw [le_div_iff₀ hb]
      exact_mod_cast hr.low
    have hhigh : (a' : ℚ) / b' < 2 ^ 53 := by
      rw [div_lt_iff₀ hb']
      exact_mod_cast hr'.high
    have hstep : (2 : ℚ) ^ 53 * 2 ^ e' ≤ 2 ^ 52 * 2 ^ e := by
      calc (2 : ℚ) ^ 53 * 2 ^ e' = 2 ^ 52 * 2 ^ (e' + 1) := by rw [zpow_add₀ two_ne_zero]; ring
        _ ≤ 2 ^ 52 * 2 ^ e := by
          gcongr
          · norm_num
          · omega
    have hpos : (0 : ℚ) < 2 ^ e' := by positivity
    have hpos' : (0 : ℚ) < 2 ^ e := by positivity
    nlinarith

theorem value_ofRatio_mono (hn : 0 < n) (hd : 0 < d) (hn' : 0 < n') (hd' : 0 < d')
    (h : (n : ℚ) / d ≤ n' / d') : (ofRatio n d).value ≤ (ofRatio n' d').value := by
  have hmono := value_ofRatio_shift_mono hn hd hn' hd' (k := 0) (l := 0)
  rw [zpow_zero, mul_one, mul_one, mul_one, mul_one] at hmono
  exact hmono h

theorem value_ofRatio_le_zpow (hn : 0 < n) (hd : 0 < d) {k : Int} (h : (n : ℚ) / d ≤ 2 ^ k) :
    (ofRatio n d).value ≤ 2 ^ k := by
  obtain ⟨a, b, e, hr⟩ := exists_rounds hn hd
  have hb : (0 : ℚ) < b := by exact_mod_cast hr.pos
  rw [hr.value]
  rw [← hr.exact] at h
  have hlow : (2 : ℚ) ^ 52 ≤ a / b := by
    rw [le_div_iff₀ hb]
    exact_mod_cast hr.low
  have hle : 52 + e ≤ k := by
    have hpow : (2 : ℚ) ^ (52 + e) ≤ 2 ^ k := by
      refine le_trans ?_ h
      rw [zpow_add₀ two_ne_zero]
      gcongr
      exact_mod_cast hlow
    exact (zpow_le_zpow_iff_right₀ (by norm_num)).mp hpow
  rcases hle.lt_or_eq with hlt | rfl
  · have hup : (roundQuotient a b : ℚ) ≤ 2 ^ 53 := by exact_mod_cast roundQuotient_le hr.high
    calc (roundQuotient a b : ℚ) * 2 ^ e ≤ 2 ^ 53 * 2 ^ e := by gcongr
      _ = 2 ^ (53 + e) := by rw [zpow_add₀ two_ne_zero]; norm_cast
      _ ≤ 2 ^ k := zpow_le_zpow_right₀ (by norm_num) (by omega)
  · -- the quotient is this power of two, and nothing is lost
    rw [zpow_add₀ two_ne_zero] at h ⊢
    have hquot := le_of_mul_le_mul_right h (by positivity)
    rw [div_le_iff₀ hb] at hquot
    have ha : a = 2 ^ 52 * b := Nat.le_antisymm (by exact_mod_cast hquot) hr.low
    rw [ha, roundQuotient_exact _ _ hr.pos]
    norm_cast

end order

theorem value_ofNat_pos {n : Nat} (hn : 0 < n) : 0 < (ofNat n).value := by
  obtain ⟨a, b, e, hr⟩ := exists_rounds hn Nat.one_pos
  have hdown : (2 : ℚ) ^ 52 ≤ roundQuotient a b := by
    exact_mod_cast le_roundQuotient hr.pos hr.low
  rw [ofNat, hr.value]
  positivity

theorem value_div_le_one {x y : Binary64} (hy : 0 < y.value) (h : x.value ≤ y.value) :
    (x.div y).value ≤ 1 := by
  have hmy : 0 < y.mantissa := by
    refine Nat.pos_of_ne_zero fun hzero => hy.ne' ?_
    rw [value, hzero]
    simp
  rw [div, value_shift]
  rcases Nat.eq_zero_or_pos x.mantissa with hzero | hmx
  · rw [ofRatio, if_pos (.inl hzero), value_zero, zero_mul]
    exact zero_le_one
  · have hratio : (x.mantissa : ℚ) / y.mantissa ≤ 2 ^ (y.exponent - x.exponent) := by
      have hpos : (0 : ℚ) < y.mantissa := by exact_mod_cast hmy
      rw [zpow_sub₀ two_ne_zero, div_le_div_iff₀ hpos (by positivity), mul_comm _ (y.mantissa : ℚ)]
      exact h
    calc (ofRatio x.mantissa y.mantissa).value * 2 ^ (x.exponent - y.exponent)
        ≤ 2 ^ (y.exponent - x.exponent) * 2 ^ (x.exponent - y.exponent) := by
          gcongr
          exact value_ofRatio_le_zpow hmx hmy hratio
      _ = 1 := by
        rw [← zpow_add₀ two_ne_zero]
        simp

end Binary64

end Number

/-- **Utilisation is at most one** when the connections are within the capacity. -/
theorem HealthStatus.value_utilizationOf_le_one {connections capacity : Nat}
    (h : connections ≤ capacity) : (utilizationOf connections capacity).value ≤ 1 := by
  unfold utilizationOf
  split
  · rw [Number.Binary64.value_zero]
    exact zero_le_one
  · rename_i hcapacity
    have hpos : 0 < capacity := Nat.pos_of_ne_zero hcapacity
    refine Number.Binary64.value_div_le_one (Number.Binary64.value_ofNat_pos hpos) ?_
    rcases Nat.eq_zero_or_pos connections with rfl | hconnections
    · exact (Number.Binary64.value_zero).trans_le (Number.Binary64.value_nonneg _)
    · refine Number.Binary64.value_ofRatio_mono hconnections Nat.one_pos hpos Nat.one_pos ?_
      gcongr

end ConnectionLeasing
