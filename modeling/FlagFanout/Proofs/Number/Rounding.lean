import FlagFanout.Number.Rounding
import FlagFanout.Number.Shortest
import Mathlib.Algebra.Order.Field.Power
import Mathlib.Algebra.Order.Field.Rat
import Mathlib.Data.Rat.Cast.Order
import Mathlib.Tactic.FieldSimp
import Mathlib.Tactic.Linarith
import Mathlib.Tactic.Positivity
import Mathlib.Tactic.Ring

/-!
# Rounding to the nearest double

A finite double other than zero has an interval of rationals around it. `Binary64.ofRatio` takes
every quotient in this interval to the double: the scale that it computes is that of the double, or
the one below where the quotient lies just under a power of two, and either way the significand
comes out right, the carry included.
-/

namespace FlagFanout

theorem powerOfTen_eq (k : Nat) : powerOfTen k = 10 ^ k := rfl

/-! ## Rounding a quotient -/

/-- The nearest natural; halfway between two naturals it is the even one. -/
theorem roundQuotient_eq {n d m : Nat} (hd : 0 < d) (hlow : 2 * (m * d) ≤ 2 * n + d)
    (hhigh : 2 * n ≤ 2 * (m * d) + d)
    (htie : m % 2 = 1 → 2 * (m * d) < 2 * n + d ∧ 2 * n < 2 * (m * d) + d) :
    roundQuotient n d = m := by
  have hdiv : n / d * d + n % d = n := Nat.div_add_mod' n d
  have hrest : n % d < d := Nat.mod_lt _ hd
  have hcases : m = n / d ∨ m = n / d + 1 := by
    have hle : m ≤ n / d + 1 := by
      by_contra! hlt
      have hmul : (n / d + 2) * d ≤ m * d := Nat.mul_le_mul_right d hlt
      rw [Nat.add_mul] at hmul
      omega
    have hge : n / d ≤ m := by
      by_contra! hlt
      have hmul : (m + 1) * d ≤ n / d * d := Nat.mul_le_mul_right d hlt
      rw [Nat.add_mul] at hmul
      omega
    omega
  simp only [roundQuotient]
  rcases hcases with rfl | rfl
  · split
    · rfl
    · rw [if_neg (by omega)]
      omega
  · rw [Nat.add_mul] at hlow hhigh htie
    rw [if_neg (by omega)]
    split
    · rfl
    · omega

/-- The same for a quotient of rationals. -/
theorem roundQuotient_of_near {n d m : Nat} (hd : 0 < d) (hlow : (m : ℚ) - 1 / 2 ≤ n / d)
    (hhigh : (n / d : ℚ) ≤ m + 1 / 2)
    (htie : m % 2 = 1 → (m : ℚ) - 1 / 2 < n / d ∧ (n / d : ℚ) < m + 1 / 2) :
    roundQuotient n d = m := by
  have hpos : (0 : ℚ) < d := by exact_mod_cast hd
  refine roundQuotient_eq hd ?_ ?_ fun hodd => ⟨?_, ?_⟩
  · rw [le_div_iff₀ hpos] at hlow
    have hcast : (2 : ℚ) * (m * d) ≤ 2 * n + d := by linarith
    exact_mod_cast hcast
  · rw [div_le_iff₀ hpos] at hhigh
    have hcast : (2 : ℚ) * n ≤ 2 * (m * d) + d := by linarith
    exact_mod_cast hcast
  · have hlow := (htie hodd).1
    rw [lt_div_iff₀ hpos] at hlow
    have hcast : (2 : ℚ) * (m * d) < 2 * n + d := by linarith
    exact_mod_cast hcast
  · have hhigh := (htie hodd).2
    rw [div_lt_iff₀ hpos] at hhigh
    have hcast : (2 : ℚ) * n < 2 * (m * d) + d := by linarith
    exact_mod_cast hcast

namespace Binary64

/-! ## The fields of a finite number -/

variable {x : Binary64}

theorem significand_lt (x : Binary64) : x.significand < 2 ^ 53 := by
  have hfraction : x.fractionField < exponentWeight := Nat.mod_lt _ (by decide)
  unfold significand
  simp only [exponentWeight] at hfraction ⊢
  split <;> omega

theorem le_scale (x : Binary64) : -1074 ≤ x.scale := by
  unfold scale
  split <;> omega

theorem scale_le (hfinite : x.isFinite = true) : x.scale ≤ 971 := by
  have hlt : x.magnitudeBits < infinityBits := of_decide_eq_true hfinite
  have hfield : x.exponentField < 2047 := Nat.div_lt_of_lt_mul hlt
  unfold scale
  split <;> omega

/-- Only a number of the least scale has less than 53 bits. -/
theorem le_significand (hscale : -1074 < x.scale) : exponentWeight ≤ x.significand := by
  unfold scale at hscale
  unfold significand
  split at hscale
  · omega
  · next hfield =>
    rw [if_neg hfield]
    omega

/-- The bits below the sign are the scale and the significand side by side. -/
theorem magnitudeBits_eq (x : Binary64) :
    x.magnitudeBits = (x.scale + 1074).toNat * exponentWeight + x.significand := by
  have hdiv : x.exponentField * exponentWeight + x.fractionField = x.magnitudeBits :=
    Nat.div_add_mod' x.magnitudeBits exponentWeight
  unfold scale significand
  split
  · next hfield =>
    rw [hfield] at hdiv
    simpa using hdiv.symm
  · next hfield =>
    obtain ⟨k, hk⟩ : ∃ k, x.exponentField = k + 1 := Nat.exists_eq_succ_of_ne_zero hfield
    have hscale : ((x.exponentField : Int) - 1075 + 1074).toNat = k := by omega
    rw [hk, Nat.add_mul] at hdiv
    rw [hscale]
    omega

theorem significand_pos (hzero : x.isZero = false) : 0 < x.significand := by
  have hbits : x.magnitudeBits ≠ 0 := of_decide_eq_false hzero
  rw [magnitudeBits_eq] at hbits
  rcases (le_scale x).eq_or_lt with hscale | hscale
  · rw [← hscale] at hbits
    simpa [Nat.pos_iff_ne_zero] using hbits
  · exact Nat.lt_of_lt_of_le (by decide) (le_significand hscale)

/-! ## Rationals near a number -/

/-- A quarter of the unit of the significand. -/
def quarter (x : Binary64) : ℚ := 2 ^ (x.scale - 2)

/-- How many quarters below a number the next lower one begins to be nearer. -/
def gap (x : Binary64) : Nat :=
  if x.significand = exponentWeight ∧ -1074 < x.scale then 1 else 2

/-- A rational that is rounded to a finite number, the sign apart. -/
structure IsNear (x : Binary64) (v : ℚ) : Prop where
  low : (4 * x.significand - x.gap) * x.quarter ≤ v
  high : v ≤ (4 * x.significand + 2) * x.quarter
  of_odd : x.significand % 2 = 1 →
    (4 * x.significand - x.gap) * x.quarter < v ∧ v < (4 * x.significand + 2) * x.quarter

/-! ## The scale of a quotient -/

theorem rescale_eq (num : Nat) {den : Nat} (hden : 0 < den) (q : Int) :
    0 < (rescale num den q).2 ∧
      ((rescale num den q).1 : ℚ) / (rescale num den q).2 = num / den / 2 ^ q := by
  unfold rescale
  split
  · next hq =>
    obtain ⟨k, rfl⟩ := Int.eq_ofNat_of_zero_le hq
    simp only [Int.toNat_natCast, Nat.shiftLeft_eq, zpow_natCast]
    refine ⟨by positivity, ?_⟩
    push_cast
    rw [div_div]
  · next hq =>
    obtain ⟨k, hk⟩ : ∃ k : Nat, -q = k := Int.eq_ofNat_of_zero_le (by omega)
    have hq' : q = -(k : Int) := by omega
    simp only [hq', neg_neg, Int.toNat_natCast, Nat.shiftLeft_eq, zpow_neg, zpow_natCast]
    refine ⟨hden, ?_⟩
    push_cast
    field_simp

/-- A natural between two powers of two. -/
theorem log2_bounds {n : Nat} (hn : 0 < n) :
    (2 : ℚ) ^ (n.log2 : Int) ≤ n ∧ (n : ℚ) < 2 ^ ((n.log2 : Int) + 1) := by
  constructor
  · rw [zpow_natCast]
    exact_mod_cast Nat.log2_self_le hn.ne'
  · have hlt : n < 2 ^ (n.log2 + 1) := Nat.lt_log2_self
    exact_mod_cast hlt

/-- At its scale a quotient has at most 53 bits, and as many unless the scale is the least one. -/
theorem scaleFor_spec {num den : Nat} (hnum : 0 < num) (hden : 0 < den) :
    -1074 ≤ scaleFor num den ∧
      (num / den : ℚ) < 2 ^ (scaleFor num den + 53) ∧
      (-1074 < scaleFor num den → (2 : ℚ) ^ (scaleFor num den + 52) ≤ num / den) := by
  set q : Int := (num.log2 : Int) - den.log2 - 52 with hq
  obtain ⟨hnum₁, hnum₂⟩ := log2_bounds hnum
  obtain ⟨hden₁, hden₂⟩ := log2_bounds hden
  have hpos : (0 : ℚ) < den := by exact_mod_cast hden
  have hhigh : (num / den : ℚ) < 2 ^ (q + 53) := by
    rw [div_lt_iff₀ hpos]
    calc (num : ℚ) < 2 ^ ((num.log2 : Int) + 1) := hnum₂
      _ = 2 ^ (q + 53) * 2 ^ (den.log2 : Int) := by
        rw [← zpow_add₀ two_ne_zero]
        congr 1
        omega
      _ ≤ 2 ^ (q + 53) * den := by gcongr
  have hlow : (2 : ℚ) ^ (q + 51) ≤ num / den := by
    rw [le_div_iff₀ hpos]
    calc (2 : ℚ) ^ (q + 51) * den ≤ 2 ^ (q + 51) * 2 ^ ((den.log2 : Int) + 1) := by gcongr
      _ = 2 ^ (num.log2 : Int) := by
        rw [← zpow_add₀ two_ne_zero]
        congr 1
        omega
      _ ≤ num := hnum₁
  -- the first guess is one too high if the quotient has only 52 bits there
  obtain ⟨t, ht, htlow, hthigh⟩ : ∃ t : Int, scaleFor num den = max t (-1074) ∧
      (2 : ℚ) ^ (t + 52) ≤ num / den ∧ (num / den : ℚ) < 2 ^ (t + 53) := by
    obtain ⟨hd, hquotient⟩ := rescale_eq num hden q
    have hd' : (0 : ℚ) < (rescale num den q).2 := by exact_mod_cast hd
    have hiff : (rescale num den q).1 < (rescale num den q).2 * exponentWeight ↔
        (num / den : ℚ) < 2 ^ (q + 52) := by
      rw [zpow_add₀ two_ne_zero, ← div_lt_iff₀' (by positivity), ← hquotient, div_lt_iff₀' hd']
      exact_mod_cast Iff.rfl
    by_cases hfew : (num / den : ℚ) < 2 ^ (q + 52)
    · refine ⟨q - 1, ?_, ?_, ?_⟩
      · simp only [scaleFor, ← hq, if_pos (hiff.2 hfew)]
      · rwa [show q - 1 + 52 = q + 51 by omega]
      · rwa [show q - 1 + 53 = q + 52 by omega]
    · refine ⟨q, ?_, not_lt.1 hfew, hhigh⟩
      simp only [scaleFor, ← hq, if_neg (hiff.not.2 hfew)]
  rw [ht]
  refine ⟨le_max_right .., hthigh.trans_le ?_, fun hleast => ?_⟩
  · exact zpow_le_zpow_right₀ one_le_two (by omega)
  · rwa [max_eq_left (by omega)]

/-! ## Rounding near a number -/

theorem four_quarters (x : Binary64) : 4 * x.quarter = 2 ^ x.scale := by
  rw [quarter, zpow_sub₀ two_ne_zero]
  norm_num
  ring

theorem quarter_pos (x : Binary64) : 0 < x.quarter := zpow_pos two_pos _

theorem gap_le (x : Binary64) : (x.gap : ℚ) ≤ 2 := by
  unfold gap
  split <;> norm_num

namespace IsNear

variable {v : ℚ}

theorem lt (h : x.IsNear v) : v < 2 ^ (x.scale + 53) := by
  have hm : (x.significand : ℚ) + 1 ≤ 2 ^ 53 := by exact_mod_cast significand_lt x
  rw [zpow_add₀ two_ne_zero, ← four_quarters]
  calc v ≤ (4 * x.significand + 2) * x.quarter := h.high
    _ < 4 * 2 ^ 53 * x.quarter := by
      refine mul_lt_mul_of_pos_right ?_ x.quarter_pos
      linarith
    _ = 4 * x.quarter * 2 ^ (53 : Int) := by norm_num; ring

/-- Where a rational just below a number needs a lower scale, the number is a power of two. -/
theorem of_scale_lt (h : x.IsNear v) {q : Int} (hq : q < x.scale) (hleast : -1074 ≤ q)
    (hv : v < 2 ^ (q + 53)) :
    x.significand = exponentWeight ∧ q = x.scale - 1 ∧
      (4 * 2 ^ 52 - 1) * x.quarter ≤ v := by
  have hpos := x.quarter_pos
  have hpow : ∀ k : Nat, (2 : ℚ) ^ (x.scale + k) = 4 * 2 ^ k * x.quarter := fun k => by
    rw [zpow_add₀ two_ne_zero, ← four_quarters, zpow_natCast]
    ring
  have hle : exponentWeight ≤ x.significand := le_significand (by omega)
  have hm : x.significand = exponentWeight := by
    have hgap := x.gap_le
    have hlt : v < 4 * 2 ^ 52 * x.quarter := by
      rw [← hpow]
      exact hv.trans_le (zpow_le_zpow_right₀ one_le_two (by omega))
    have hquarters := lt_of_mul_lt_mul_right (h.low.trans_lt hlt) hpos.le
    have hcast : (4 : ℚ) * x.significand < 4 * 2 ^ 52 + 2 := by linarith
    have hnat : 4 * x.significand < 4 * 2 ^ 52 + 2 := by exact_mod_cast hcast
    simp only [exponentWeight] at hle ⊢
    omega
  have hlow : (4 * 2 ^ 52 - 1) * x.quarter ≤ v := by
    have hgap : x.gap = 1 := if_pos ⟨hm, by omega⟩
    have hlow := h.low
    rw [hm, hgap] at hlow
    norm_num [exponentWeight] at hlow ⊢
    exact hlow
  refine ⟨hm, ?_, hlow⟩
  by_contra hne
  have hlt : v < 2 * 2 ^ 52 * x.quarter := by
    have hhalf : (2 : ℚ) * 2 ^ 52 * x.quarter = 2 ^ (x.scale + (51 : Nat)) := by
      rw [hpow]
      ring
    rw [hhalf]
    exact hv.trans_le (zpow_le_zpow_right₀ one_le_two (by omega))
  have hquarters := lt_of_mul_lt_mul_right (hlow.trans_lt hlt) hpos.le
  norm_num at hquarters

/-- At the scale of the number its significand is the nearest natural. -/
theorem roundQuotient_same (h : x.IsNear v) {n d : Nat} (hd : 0 < d)
    (hquotient : (n / d : ℚ) = v / 2 ^ x.scale) : roundQuotient n d = x.significand := by
  have hpos := x.quarter_pos
  have hgap : x.gap * x.quarter ≤ 2 * x.quarter := mul_le_mul_of_nonneg_right x.gap_le hpos.le
  have hlow := h.low
  have hhigh := h.high
  rw [← four_quarters] at hquotient
  refine roundQuotient_of_near hd ?_ ?_ fun hodd => ?_
  · rw [hquotient, le_div_iff₀ (by positivity)]
    linarith
  · rw [hquotient, div_le_iff₀ (by positivity)]
    linarith
  · obtain ⟨hlow, hhigh⟩ := h.of_odd hodd
    rw [hquotient, lt_div_iff₀ (by positivity), div_lt_iff₀ (by positivity)]
    exact ⟨by linarith, by linarith⟩

end IsNear

/-- Just below a power of two the nearest natural has one bit more. -/
theorem roundQuotient_below {v : ℚ} {n d : Nat} (hd : 0 < d) {q : Int} (hq : q = x.scale - 1)
    (hlow : (4 * 2 ^ 52 - 1) * x.quarter ≤ v) (hhigh : v < 2 ^ (q + 53))
    (hquotient : (n / d : ℚ) = v / 2 ^ q) : roundQuotient n d = 2 * exponentWeight := by
  have hpos := x.quarter_pos
  have hcast : ((2 * exponentWeight : Nat) : ℚ) = 2 * 2 ^ 52 := by norm_num [exponentWeight]
  have hunit : (2 : ℚ) ^ q = 2 * x.quarter := by
    rw [hq, quarter, show x.scale - 1 = 1 + (x.scale - 2) by omega, zpow_add₀ two_ne_zero, zpow_one]
  have hlt : v / 2 ^ q < 2 * 2 ^ 52 := by
    rw [div_lt_iff₀ (zpow_pos two_pos q)]
    refine hhigh.trans_eq ?_
    rw [zpow_add₀ two_ne_zero]
    norm_num
    ring
  refine roundQuotient_of_near hd ?_ ?_ fun hodd => by omega
  · rw [hquotient, hcast, hunit, le_div_iff₀ (by positivity)]
    linarith
  · rw [hquotient, hcast]
    linarith

theorem ofRatio_eq (negative : Bool) {num : Nat} (hnum : 0 < num) (den : Nat) :
    ofRatio negative num den =
      ofMagnitude negative
        (min ((scaleFor num den + 1074).toNat * exponentWeight +
          roundQuotient (rescale num den (scaleFor num den)).1
            (rescale num den (scaleFor num den)).2) infinityBits) := by
  refine (if_neg hnum.ne').trans ?_
  cases hrescale : rescale num den (scaleFor num den) with
  | mk n d =>
    conv_lhs =>
      zeta
      rw [hrescale]

/-- **Whatever is near a number is rounded to it**, the sign apart. -/
theorem ofRatio_of_isNear (hfinite : x.isFinite = true) (negative : Bool) {num den : Nat}
    (hnum : 0 < num) (hden : 0 < den) (h : x.IsNear (num / den)) :
    ofRatio negative num den = ofMagnitude negative x.magnitudeBits := by
  obtain ⟨hleast, hhigh, hlow⟩ := scaleFor_spec hnum hden
  set q := scaleFor num den with hq
  have hle : q ≤ x.scale := by
    by_contra! hlt
    have hpow := (hlow (by have := le_scale x; omega)).trans_lt h.lt
    have hexponents := (zpow_lt_zpow_iff_right₀ (one_lt_two : (1 : ℚ) < 2)).1 hpow
    omega
  obtain ⟨hd, hquotient⟩ := rescale_eq num hden q
  have hbits : (q + 1074).toNat * exponentWeight +
      roundQuotient (rescale num den q).1 (rescale num den q).2 = x.magnitudeBits := by
    rw [magnitudeBits_eq]
    rcases hle.eq_or_lt with heq | hlt
    · rw [heq] at hd hquotient ⊢
      rw [h.roundQuotient_same hd hquotient]
    · -- the number is a power of two, and the significand carries into the exponent field
      obtain ⟨hm, hq', hbelow⟩ := h.of_scale_lt hlt hleast hhigh
      have hscale : (x.scale + 1074).toNat = (q + 1074).toNat + 1 := by omega
      rw [roundQuotient_below hd hq' hbelow hhigh hquotient, hm, hscale, Nat.add_mul]
      omega
  have hlt : x.magnitudeBits < infinityBits := of_decide_eq_true hfinite
  rw [ofRatio_eq negative hnum, ← hq, hbits, Nat.min_eq_left hlt.le]

/-! ## Decimals -/

/-- No double comes near the four hundredth power of ten. -/
theorem two_zpow_le_ten_zpow : (2 : ℚ) ^ (1075 : Int) ≤ 10 ^ (400 : Int) := by
  have htwo : (2 : ℚ) ^ (1075 : Int) = (2 ^ 43) ^ 25 :=
    (zpow_natCast 2 1075).trans (pow_mul 2 43 25)
  have hten : (10 : ℚ) ^ (400 : Int) = (10 ^ 16) ^ 25 :=
    (zpow_natCast 10 400).trans (pow_mul 10 16 25)
  rw [htwo, hten]
  exact pow_le_pow_left₀ (by positivity) (by norm_num) 25

/-- What is near a number is not below half the least one. -/
theorem IsNear.le {v : ℚ} (h : x.IsNear v) (hzero : x.isZero = false) :
    (2 : ℚ) ^ (-1075 : Int) ≤ v := by
  have hm : (1 : ℚ) ≤ x.significand := by exact_mod_cast significand_pos hzero
  have hgap := x.gap_le
  calc (2 : ℚ) ^ (-1075 : Int) = 2 * 2 ^ (-1076 : Int) := by
        rw [show (-1075 : Int) = 1 + -1076 by norm_num, zpow_add₀ two_ne_zero, zpow_one]
    _ ≤ 2 * x.quarter := by
      refine mul_le_mul_of_nonneg_left (zpow_le_zpow_right₀ one_le_two ?_) two_pos.le
      have := le_scale x
      omega
    _ ≤ (4 * x.significand - x.gap) * x.quarter := by
      refine mul_le_mul_of_nonneg_right ?_ x.quarter_pos.le
      linarith
    _ ≤ v := h.low

theorem IsNear.digits_pos {digits : Nat} {exponent : Int} (h : x.IsNear (digits * 10 ^ exponent))
    (hzero : x.isZero = false) : 0 < digits := by
  rw [Nat.pos_iff_ne_zero]
  intro hnone
  have hle := h.le hzero
  rw [hnone, Nat.cast_zero, zero_mul] at hle
  exact absurd hle (zpow_pos two_pos _).not_ge

/-- **A decimal near a number is read as it**, the sign apart. -/
theorem ofDecimal_of_isNear (hfinite : x.isFinite = true) (hzero : x.isZero = false)
    (negative : Bool) {digits : Nat} {exponent : Int} (h : x.IsNear (digits * 10 ^ exponent)) :
    ofDecimal negative digits exponent = ofMagnitude negative x.magnitudeBits := by
  have hdigits := h.digits_pos hzero
  have hsmall : ¬ 400 < exponent := by
    intro hlarge
    have hone : (1 : ℚ) ≤ digits := by exact_mod_cast hdigits
    have hrange := h.lt
    have hscale := scale_le hfinite
    have hcontra : (10 : ℚ) ^ (400 : Int) < 2 ^ (1075 : Int) :=
      calc (10 : ℚ) ^ (400 : Int) ≤ 10 ^ exponent :=
            zpow_le_zpow_right₀ (by norm_num) hlarge.le
        _ ≤ digits * 10 ^ exponent := le_mul_of_one_le_left (by positivity) hone
        _ < 2 ^ (x.scale + 53) := hrange
        _ ≤ 2 ^ (1075 : Int) := zpow_le_zpow_right₀ one_le_two (by omega)
    exact absurd two_zpow_le_ten_zpow hcontra.not_ge
  have hlarge : ¬ exponent < -(400 + digits.log2 : Int) := by
    intro hsmall
    have hten : (digits : ℚ) < 10 ^ ((digits.log2 : Int) + 1) := by
      refine (log2_bounds hdigits).2.trans_le ?_
      exact zpow_le_zpow_left₀ (by omega) two_pos.le (by norm_num)
    have hcontra : (2 : ℚ) ^ (-1075 : Int) < 10 ^ (-400 : Int) :=
      calc (2 : ℚ) ^ (-1075 : Int) ≤ digits * 10 ^ exponent := h.le hzero
        _ < 10 ^ ((digits.log2 : Int) + 1) * 10 ^ exponent :=
          mul_lt_mul_of_pos_right hten (by positivity)
        _ = 10 ^ ((digits.log2 : Int) + 1 + exponent) := (zpow_add₀ (by norm_num) _ _).symm
        _ ≤ 10 ^ (-400 : Int) := zpow_le_zpow_right₀ (by norm_num) (by omega)
    rw [zpow_neg, zpow_neg, inv_lt_inv₀ (by positivity) (by positivity)] at hcontra
    exact absurd two_zpow_le_ten_zpow hcontra.not_ge
  unfold ofDecimal
  rw [if_neg hdigits.ne', if_neg hsmall, if_neg hlarge]
  split
  · next he =>
    obtain ⟨k, rfl⟩ := Int.eq_ofNat_of_zero_le he
    refine ofRatio_of_isNear hfinite negative (Nat.mul_pos hdigits (Nat.pow_pos (by decide)))
      Nat.one_pos ?_
    have hvalue : (((digits * powerOfTen (k : Int).toNat : Nat) : ℚ) / (1 : Nat)) =
        digits * 10 ^ (k : Int) := by
      rw [Int.toNat_natCast, powerOfTen_eq, zpow_natCast]
      push_cast
      ring
    rwa [hvalue]
  · next he =>
    obtain ⟨k, hk⟩ : ∃ k : Nat, -exponent = k := Int.eq_ofNat_of_zero_le (by omega)
    have he' : exponent = -(k : Int) := by omega
    refine ofRatio_of_isNear hfinite negative hdigits (Nat.pow_pos (by decide)) ?_
    have hvalue : ((digits : ℚ) / (powerOfTen (-exponent).toNat : Nat)) =
        digits * 10 ^ exponent := by
      rw [hk, he', Int.toNat_natCast, powerOfTen_eq, zpow_neg, zpow_natCast]
      push_cast
      ring
    rwa [hvalue]

end Binary64

end FlagFanout
