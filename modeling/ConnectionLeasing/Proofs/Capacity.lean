import ConnectionLeasing.Proofs.Utilization

/-!
# What a health report says of the capacity

A report compares the connections with the room of all identities, the product of their number and
the limit. The product is computed in machine words, so there is a report only as long as it fits;
the comparison is one of doubles, so it is exact only where rounding cannot reach nine tenths.

* `value_ofRatio_error`, `value_ofNat_exact`: how far a rounded quotient is off, if at all.
* `highUtilization_lt_iff`: the comparison of the report and the one of exact ratios.
* `reports_exact_iff`: when there is a report, and that it is right about the product then.
-/

namespace ConnectionLeasing

namespace Number

theorem roundQuotient_error (n : Nat) {d : Nat} (hd : 0 < d) :
    2 * n ≤ 2 * (roundQuotient n d * d) + d ∧ 2 * (roundQuotient n d * d) ≤ 2 * n + d := by
  have hn := Nat.div_add_mod n d
  have hr := Nat.mod_lt n hd
  rw [Nat.mul_comm d (n / d)] at hn
  unfold roundQuotient
  dsimp only
  split
  · rename_i hup
    rw [Nat.add_mul, Nat.one_mul]
    omega
  · rename_i hdown
    omega

namespace Binary64

variable {n d : Nat}

theorem value_ofRatio_error (hn : 0 < n) (hd : 0 < d) :
    (n / d : ℚ) * (1 - 1 / 2 ^ 53) ≤ (ofRatio n d).value ∧
      (ofRatio n d).value ≤ (n / d : ℚ) * (1 + 1 / 2 ^ 53) := by
  obtain ⟨a, b, e, hr⟩ := exists_rounds hn hd
  obtain ⟨hdown, hup⟩ := roundQuotient_error a hr.pos
  have hb : (0 : ℚ) < b := by exact_mod_cast hr.pos
  have hlow : (2 : ℚ) ^ 52 * b ≤ a := by exact_mod_cast hr.low
  have hdown' : (2 : ℚ) * a ≤ 2 * (roundQuotient a b * b) + b := by exact_mod_cast hdown
  have hup' : (2 : ℚ) * (roundQuotient a b * b) ≤ 2 * a + b := by exact_mod_cast hup
  have hpow : (0 : ℚ) ≤ 2 ^ e := by positivity
  rw [hr.value, ← hr.exact]
  constructor
  · rw [mul_right_comm]
    refine mul_le_mul_of_nonneg_right ?_ hpow
    rw [div_mul_eq_mul_div, div_le_iff₀ hb]
    linarith
  · rw [mul_right_comm]
    refine mul_le_mul_of_nonneg_right ?_ hpow
    rw [div_mul_eq_mul_div, le_div_iff₀ hb]
    linarith

theorem value_ofNat_exact (hn : n < 2 ^ 53) : (ofNat n).value = n := by
  rcases Nat.eq_zero_or_pos n with rfl | hpos
  · rw [ofNat, ofRatio, if_pos (.inl rfl), value_zero, Nat.cast_zero]
  · obtain ⟨a, b, e, hr⟩ := exists_rounds hpos Nat.one_pos
    have hb : (0 : ℚ) < b := by exact_mod_cast hr.pos
    have hexact : (a : ℚ) / b * 2 ^ e = n := by
      have hratio := hr.exact
      rwa [Nat.cast_one, div_one] at hratio
    -- the exponent cannot be positive, so the quotient is an integer before it is rounded
    have he : e ≤ 0 := by
      by_contra hcontra
      have hlow : (2 : ℚ) ^ 52 ≤ a / b := by
        rw [le_div_iff₀ hb]
        exact_mod_cast hr.low
      have htwo : (2 : ℚ) ≤ 2 ^ e := by
        calc (2 : ℚ) = 2 ^ (1 : ℤ) := (zpow_one 2).symm
          _ ≤ 2 ^ e := zpow_le_zpow_right₀ (by norm_num) (by omega)
      have hn' : (n : ℚ) < 2 ^ 53 := by exact_mod_cast hn
      nlinarith
    have hinteger : a = n * 2 ^ (-e).toNat * b := by
      have hpow : (2 : ℚ) ^ e * 2 ^ (-e).toNat = 1 := by
        rw [← zpow_natCast, Int.toNat_of_nonneg (by omega), ← zpow_add₀ two_ne_zero]
        simp
      have hq : (a : ℚ) = n * 2 ^ (-e).toNat * b := by
        calc (a : ℚ) = a / b * (2 ^ e * 2 ^ (-e).toNat) * b := by
              rw [hpow, mul_one, div_mul_cancel₀ _ hb.ne']
          _ = a / b * 2 ^ e * 2 ^ (-e).toNat * b := by ring
          _ = n * 2 ^ (-e).toNat * b := by rw [hexact]
      exact_mod_cast hq
    rw [ofNat, hr.value, hinteger, roundQuotient_exact _ _ hr.pos, ← hexact, hinteger]
    push_cast
    rw [mul_div_cancel_right₀ _ hb.ne']

theorem value_ofNat_error (hn : 0 < n) : (n : ℚ) * (1 - 1 / 2 ^ 53) ≤ (ofNat n).value ∧
    (ofNat n).value ≤ (n : ℚ) * (1 + 1 / 2 ^ 53) := by
  have herror := value_ofRatio_error hn Nat.one_pos
  rwa [Nat.cast_one, div_one] at herror

/-! ### Quotients of doubles -/

section div
variable {x y : Binary64}

theorem mantissa_pos (hx : 0 < x.value) : 0 < x.mantissa := by
  refine Nat.pos_of_ne_zero fun hzero => hx.ne' ?_
  rw [value, hzero]
  simp

theorem value_div_value (x y : Binary64) :
    x.value / y.value = (x.mantissa : ℚ) / y.mantissa * 2 ^ (x.exponent - y.exponent) := by
  rw [value, value, zpow_sub₀ two_ne_zero, mul_div_mul_comm]

theorem value_div_error (hx : 0 < x.value) (hy : 0 < y.value) :
    x.value / y.value * (1 - 1 / 2 ^ 53) ≤ (x.div y).value ∧
      (x.div y).value ≤ x.value / y.value * (1 + 1 / 2 ^ 53) := by
  obtain ⟨hlow, hhigh⟩ := value_ofRatio_error (mantissa_pos hx) (mantissa_pos hy)
  rw [div, value_shift, value_div_value, mul_right_comm, mul_right_comm _ _ (1 + _)]
  have hpow : (0 : ℚ) ≤ 2 ^ (x.exponent - y.exponent) := by positivity
  exact ⟨mul_le_mul_of_nonneg_right hlow hpow, mul_le_mul_of_nonneg_right hhigh hpow⟩

theorem value_div_le_ofRatio (hx : 0 < x.value) (hy : 0 < y.value) (hn : 0 < n) (hd : 0 < d)
    (h : x.value / y.value ≤ n / d) : (x.div y).value ≤ (ofRatio n d).value := by
  rw [value_div_value] at h
  have hmono := value_ofRatio_shift_mono (mantissa_pos hx) (mantissa_pos hy) hn hd
    (k := x.exponent - y.exponent) (l := 0)
  rw [zpow_zero, mul_one, mul_one] at hmono
  rw [div, value_shift]
  exact hmono h

end div

theorem lt_iff (x y : Binary64) : x.lt y = true ↔ x.value < y.value := by
  have hshift : ∀ {z : Binary64} {low : Int}, low ≤ z.exponent →
      ((z.mantissa <<< (z.exponent - low).toNat : Nat) : ℚ) * 2 ^ low = z.value := by
    intro z low hlow
    rw [Nat.shiftLeft_eq, value]
    push_cast
    rw [← zpow_natCast, Int.toNat_of_nonneg (by omega), mul_assoc, ← zpow_add₀ two_ne_zero]
    congr 2
    omega
  rw [lt, decide_eq_true_iff, ← hshift (min_le_left x.exponent y.exponent),
    ← hshift (min_le_right x.exponent y.exponent)]
  have hpow : (0 : ℚ) < 2 ^ min x.exponent y.exponent := by positivity
  rw [mul_lt_mul_iff_left₀ hpow]
  exact Nat.cast_lt.symm

end Binary64

end Number

namespace HealthStatus

open Number

/-! ### Comparing with nine tenths -/

theorem value_highUtilization : highUtilization.value = 8106479329266893 / 2 ^ 53 := by
  have hbits : highUtilization = ⟨8106479329266893, -53⟩ := by decide
  rw [hbits, Binary64.value, zpow_neg, div_eq_mul_inv]
  norm_cast

/-- Rounding does not change on which side of nine tenths a ratio is. -/
def Clear (connections capacity : Nat) : Prop :=
  capacity ≤ 2 ^ 46 ∨ 1 / 2 ^ 50 < |(connections / capacity : ℚ) - 9 / 10|

section comparing
variable {connections capacity : Nat}

/-- Ratios of small numbers are nine tenths or stay away from it. -/
theorem gap_of_small (hcapacity : 0 < capacity) (hsmall : capacity ≤ 2 ^ 46)
    (hne : (connections / capacity : ℚ) ≠ 9 / 10) :
    1 / 2 ^ 50 < |(connections / capacity : ℚ) - 9 / 10| := by
  have hpos : (0 : ℚ) < capacity := by exact_mod_cast hcapacity
  have hbound : (capacity : ℚ) ≤ 2 ^ 46 := by exact_mod_cast hsmall
  have hratio : (connections / capacity : ℚ) - 9 / 10 =
      ((10 * connections - 9 * capacity : ℤ) : ℚ) / (10 * capacity) := by
    push_cast
    field_simp
  have hnonzero : (10 * connections - 9 * capacity : ℤ) ≠ 0 := by
    intro hzero
    refine hne (sub_eq_zero.mp ?_)
    rw [hratio, hzero, Int.cast_zero, zero_div]
  have hone : (1 : ℚ) ≤ |((10 * connections - 9 * capacity : ℤ) : ℚ)| := by
    exact_mod_cast Int.one_le_abs hnonzero
  have hden : |(10 * capacity : ℚ)| = 10 * capacity := abs_of_pos (by positivity)
  rw [hratio, abs_div, hden, lt_div_iff₀ (by positivity)]
  linarith

section positive
variable (hconnections : 0 < connections) (hcapacity : 0 < capacity)
include hconnections hcapacity

/-- The three roundings of a utilisation together. -/
theorem value_utilizationOf_error :
    (connections / capacity : ℚ) * (1 - 1 / 2 ^ 51) ≤ (utilizationOf connections capacity).value ∧
      (utilizationOf connections capacity).value ≤
        (connections / capacity : ℚ) * (1 + 1 / 2 ^ 51) := by
  obtain ⟨hlow, hhigh⟩ := Binary64.value_div_error (Binary64.value_ofNat_pos hconnections)
    (Binary64.value_ofNat_pos hcapacity)
  obtain ⟨hc₁, hc₂⟩ := Binary64.value_ofNat_error hconnections
  obtain ⟨hk₁, hk₂⟩ := Binary64.value_ofNat_error hcapacity
  have hc : (0 : ℚ) < connections := by exact_mod_cast hconnections
  have hk : (0 : ℚ) < capacity := by exact_mod_cast hcapacity
  have hpos := Binary64.value_ofNat_pos hcapacity
  rw [utilizationOf, if_neg hcapacity.ne']
  generalize (Binary64.ofNat connections).value = x at *
  generalize (Binary64.ofNat capacity).value = y at *
  constructor
  · refine le_trans ?_ hlow
    rw [div_mul_eq_mul_div, div_mul_eq_mul_div, div_le_div_iff₀ hk hpos]
    nlinarith
  · refine le_trans hhigh ?_
    rw [div_mul_eq_mul_div, div_mul_eq_mul_div, div_le_div_iff₀ hpos hk]
    nlinarith

theorem highUtilization_lt_iff_of_pos (hclear : Clear connections capacity) :
    highUtilization.lt (utilizationOf connections capacity) = true ↔
      (9 / 10 : ℚ) < connections / capacity := by
  obtain ⟨hlow, hhigh⟩ := value_utilizationOf_error hconnections hcapacity
  rw [Binary64.lt_iff, value_highUtilization]
  have hgap : (connections / capacity : ℚ) ≠ 9 / 10 →
      1 / 2 ^ 50 < |(connections / capacity : ℚ) - 9 / 10| := by
    intro hne
    rcases hclear with hsmall | hfar
    · exact gap_of_small hcapacity hsmall hne
    · exact hfar
  rcases lt_trichotomy ((connections : ℚ) / capacity) (9 / 10) with hless | hequal | hmore
  · have hfar := hgap hless.ne
    rw [abs_of_neg (by linarith)] at hfar
    refine iff_of_false (not_lt.mpr ?_) (not_lt.mpr hless.le)
    linarith
  · -- equal ratios of numbers that are exact round alike
    refine iff_of_false (not_lt.mpr ?_) (not_lt.mpr hequal.le)
    have hsmall : capacity ≤ 2 ^ 46 := by
      rcases hclear with hsmall | hfar
      · exact hsmall
      · rw [hequal, sub_self, abs_zero] at hfar
        norm_num at hfar
    have hfits : connections < 2 ^ 53 := by
      have hcapacity' : (0 : ℚ) < capacity := by exact_mod_cast hcapacity
      rw [div_eq_div_iff hcapacity'.ne' (by norm_num)] at hequal
      have hcross : connections * 10 = 9 * capacity := by exact_mod_cast hequal
      omega
    rw [← value_highUtilization, highUtilization, utilizationOf, if_neg hcapacity.ne']
    refine Binary64.value_div_le_ofRatio (Binary64.value_ofNat_pos hconnections)
      (Binary64.value_ofNat_pos hcapacity) (by norm_num) (by norm_num) ?_
    rw [Binary64.value_ofNat_exact hfits, Binary64.value_ofNat_exact (by omega), hequal]
    norm_num
  · have hfar := hgap hmore.ne'
    rw [abs_of_pos (by linarith)] at hfar
    refine iff_of_true ?_ hmore
    linarith

end positive

theorem value_utilizationOf_zero (h : connections = 0 ∨ capacity = 0) :
    (utilizationOf connections capacity).value = 0 := by
  unfold utilizationOf
  split
  · exact Binary64.value_zero
  · rename_i hcapacity
    have hnone : connections = 0 := h.resolve_right hcapacity
    have hzero : Binary64.ofNat connections = .zero := by
      rw [Binary64.ofNat, Binary64.ofRatio, if_pos (.inl hnone)]
    have hratio : Binary64.ofRatio Binary64.zero.mantissa (Binary64.ofNat capacity).mantissa =
        .zero := if_pos (.inl rfl)
    rw [hzero, Binary64.div, Binary64.value_shift, hratio, Binary64.value_zero, zero_mul]

/-- **The comparison of the report is that of the exact ratio**, where rounding cannot reach nine
tenths. -/
theorem highUtilization_lt_iff (hclear : Clear connections capacity) :
    highUtilization.lt (utilizationOf connections capacity) = true ↔
      (9 / 10 : ℚ) < connections / capacity := by
  by_cases hzero : connections = 0 ∨ capacity = 0
  · have hratio : (connections / capacity : ℚ) = 0 := by
      rcases hzero with rfl | rfl
      · rw [Nat.cast_zero, zero_div]
      · rw [Nat.cast_zero, div_zero]
    rw [Binary64.lt_iff, value_utilizationOf_zero hzero, value_highUtilization, hratio]
    norm_num
  · rw [not_or] at hzero
    exact highUtilization_lt_iff_of_pos (Nat.pos_of_ne_zero hzero.1) (Nat.pos_of_ne_zero hzero.2)
      hclear

end comparing

/-! ### Reports -/

/-- A report says what the statistics come to, if utilisation is as `high` says. -/
structure Reports (h : HealthStatus) (statistics : List IdentityStatistics) (max : Nat)
    (high : Bool) : Prop where
  warnings : h.warnings = (statistics.filter fun s => max ≤ s.contexts).map (limitWarning max) ++
    if high then [utilizationWarning h.utilization] else []
  unhealthy : h.healthy = false ↔
    high = true ∨ ∃ s ∈ statistics, max ≤ s.contexts ∧ max ≤ s.borrowed
  warningCount : h.warningCount = h.warnings.length

/-- More than nine tenths of a capacity are in use, by the exact ratio. -/
def Crowded (connections capacity : Nat) : Prop := (9 / 10 : ℚ) < connections / capacity

instance (connections capacity : Nat) : Decidable (Crowded connections capacity) :=
  inferInstanceAs (Decidable ((9 / 10 : ℚ) < connections / capacity))

variable {statistics : List IdentityStatistics} {max : Nat}

theorem reports_ofStatistics (statistics : List IdentityStatistics) (max : Nat) :
    (ofStatistics statistics max).Reports statistics max
      (highUtilization.lt (ofStatistics statistics max).utilization) := by
  refine ⟨rfl, ?_, rfl⟩
  simp only [ofStatistics, exhausted, atLimit, Bool.and_eq_false_iff, Bool.not_eq_false',
    List.any_eq_true, Bool.and_eq_true, decide_eq_true_eq]

theorem high_ofStatistics (hclear : Clear (IdentityStatistics.total (·.contexts) statistics)
    (statistics.length * max)) :
    highUtilization.lt (ofStatistics statistics max).utilization =
      decide (Crowded (IdentityStatistics.total (·.contexts) statistics)
        (statistics.length * max)) := by
  have hiff := highUtilization_lt_iff hclear
  rw [Bool.eq_iff_iff, decide_eq_true_iff]
  exact hiff

theorem report_of_countsFit (h : CountsFit statistics) : report statistics max =
    if statistics.length * max < UInt64.size then .ok (ofStatistics statistics max)
    else .error .product := by
  rw [report, if_pos h, capacity]

/-- **There is a report exactly if the product of identities and limit is a machine word**, as long
as the connections can be counted; otherwise the multiplication overflows. If there is one, it is
right about the exact product: it warns of each identity at its limit, in the order of the
statistics, and then of a high utilisation, which is that of the exact ratio where rounding does not
matter and that of its own quotient anyway; nothing else makes it unhealthy but an identity with
nothing left to lend. -/
theorem reports_exact_iff (statistics : List IdentityStatistics) (max : Nat)
    (hcounts : CountsFit statistics) :
    let connections := IdentityStatistics.total (·.contexts) statistics
    ((∃ h, report statistics max = .ok h) ↔ statistics.length * max < UInt64.size) ∧
    (UInt64.size ≤ statistics.length * max → report statistics max = .error .product) ∧
    ∀ h, report statistics max = .ok h →
      h.utilization = utilizationOf connections (statistics.length * max) ∧
      h.Reports statistics max (highUtilization.lt h.utilization) ∧
      (Clear connections (statistics.length * max) →
        h.Reports statistics max (decide (Crowded connections (statistics.length * max)))) := by
  intro connections
  rw [report_of_countsFit hcounts]
  refine ⟨⟨?_, fun hfits => ⟨_, if_pos hfits⟩⟩, fun hlarge => if_neg (Nat.not_lt.mpr hlarge),
    fun h hreport => ?_⟩
  · rintro ⟨h, hreport⟩
    by_contra hlarge
    rw [if_neg hlarge] at hreport
    cases hreport
  · split at hreport
    · cases hreport
      have hreports := reports_ofStatistics statistics max
      refine ⟨rfl, hreports, fun hclear => ?_⟩
      rw [← high_ofStatistics hclear]
      exact hreports
    · cases hreport

/-- An identity at its limit, with a connection to lend. -/
theorem reports_exact_iff_full : ∃ (statistics : List IdentityStatistics) (h : HealthStatus),
    CountsFit statistics ∧ report statistics 8 = .ok h ∧ h.Reports statistics 8 true ∧
    Clear (IdentityStatistics.total (·.contexts) statistics) (statistics.length * 8) ∧
    Crowded (IdentityStatistics.total (·.contexts) statistics) (statistics.length * 8) := by
  let statistics : List IdentityStatistics := [⟨"a", 22, "u", 8, 7⟩]
  have hcounts : CountsFit statistics := by decide
  have hclear : Clear (IdentityStatistics.total (·.contexts) statistics)
      (statistics.length * 8) := .inl (by decide)
  obtain ⟨hsome, -, hexact⟩ := reports_exact_iff statistics 8 hcounts
  obtain ⟨h, hreport⟩ := hsome.mpr (by decide)
  have hcrowded : Crowded (IdentityStatistics.total (·.contexts) statistics)
      (statistics.length * 8) := by
    have hratio : IdentityStatistics.total (·.contexts) statistics = 8 ∧
        statistics.length * 8 = 8 := by decide
    rw [hratio.1, hratio.2, Crowded]
    norm_num
  have hreports := (hexact h hreport).2.2 hclear
  rw [decide_eq_true hcrowded] at hreports
  exact ⟨statistics, h, hcounts, hreport, hreports, hclear, hcrowded⟩

/-- Three identities with a connection each. -/
def sparse : List IdentityStatistics :=
  [⟨"a", 22, "u", 1, 0⟩, ⟨"b", 22, "u", 1, 0⟩, ⟨"c", 22, "u", 1, 0⟩]

/-- Their limit is a machine word and far away, but three times the limit is none: there is no
report on them. -/
theorem sparse_unreported : 6148914691236517206 < UInt64.size ∧ CountsFit sparse ∧
    report sparse 6148914691236517206 = .error .product ∧
    ¬ ∃ h, report sparse 6148914691236517206 = .ok h := by
  have hreport : report sparse 6148914691236517206 = .error .product := by decide
  refine ⟨by decide, by decide, hreport, ?_⟩
  rintro ⟨h, hok⟩
  rw [hreport] at hok
  cases hok

end HealthStatus

end ConnectionLeasing
