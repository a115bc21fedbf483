import FlagFanout.Proofs.Number.Rounding

/-!
# The shortest decimal reads back

`Binary64.shortest` looks for a decimal in the interval of a double, on one grid of powers of ten
after the other. Whatever it finds lies in the interval, so it is near the double. It finds
something: seventeen digits make the grid finer than the interval is wide, and of the two points of
such a grid around the double one lies in the interval.
-/

namespace FlagFanout

/-! ## Powers of ten and of two -/

theorem ten_pow_le_two_pow {a b : Nat} (h : 133 * a ≤ 40 * b) : (10 : ℚ) ^ a ≤ 2 ^ b := by
  refine le_of_pow_le_pow_left₀ (n := 40) (by norm_num) (by positivity) ?_
  calc ((10 : ℚ) ^ a) ^ 40 = (10 ^ 40) ^ a := by rw [← pow_mul, ← pow_mul, Nat.mul_comm]
    _ ≤ (2 ^ 133) ^ a := pow_le_pow_left₀ (by positivity) (by norm_num) a
    _ = 2 ^ (133 * a) := (pow_mul ..).symm
    _ ≤ 2 ^ (40 * b) := pow_le_pow_right₀ one_le_two h
    _ = (2 ^ b) ^ 40 := by rw [← pow_mul, Nat.mul_comm]

theorem two_pow_le_ten_pow {a b : Nat} (h : 25 * b ≤ 83 * a) : (2 : ℚ) ^ b ≤ 10 ^ a := by
  refine le_of_pow_le_pow_left₀ (n := 25) (by norm_num) (by positivity) ?_
  calc ((2 : ℚ) ^ b) ^ 25 = 2 ^ (25 * b) := by rw [← pow_mul, Nat.mul_comm]
    _ ≤ 2 ^ (83 * a) := pow_le_pow_right₀ one_le_two h
    _ = (2 ^ 83) ^ a := pow_mul ..
    _ ≤ (10 ^ 25) ^ a := pow_le_pow_left₀ (by positivity) (by norm_num) a
    _ = (10 ^ a) ^ 25 := by rw [← pow_mul, ← pow_mul, Nat.mul_comm]

/-- In the range of doubles the decimal logarithm is guessed at most too low. -/
theorem ten_zpow_guess_le {log : Int} (hlow : -1100 ≤ log) (hhigh : log ≤ 1100) :
    (10 : ℚ) ^ (log * 30103 / 100000 - 1) ≤ 2 ^ log := by
  set guess := log * 30103 / 100000 - 1 with hguess
  rcases le_or_gt 0 guess with hpos | hneg
  · obtain ⟨a, ha⟩ := Int.eq_ofNat_of_zero_le hpos
    obtain ⟨b, hb⟩ : ∃ b : Nat, log = b := Int.eq_ofNat_of_zero_le (by omega)
    rw [ha, hb, zpow_natCast, zpow_natCast]
    exact ten_pow_le_two_pow (by omega)
  · obtain ⟨a, ha⟩ : ∃ a : Nat, -guess = a := Int.eq_ofNat_of_zero_le (by omega)
    rcases le_or_gt 0 log with hlog | hlog
    · calc (10 : ℚ) ^ guess ≤ 10 ^ (0 : Int) := zpow_le_zpow_right₀ (by norm_num) hneg.le
        _ = 2 ^ (0 : Int) := by norm_num
        _ ≤ 2 ^ log := zpow_le_zpow_right₀ one_le_two hlog
    · obtain ⟨b, hb⟩ : ∃ b : Nat, -log = b := Int.eq_ofNat_of_zero_le (by omega)
      rw [← neg_neg guess, ← neg_neg log, ha, hb, zpow_neg, zpow_neg, zpow_natCast, zpow_natCast,
        inv_le_inv₀ (by positivity) (by positivity)]
      exact two_pow_le_ten_pow (by omega)

namespace Binary64

/-! ## Intervals -/

namespace Interval

variable {i : Interval}

/-- A rational lies in the interval. -/
def Contains (i : Interval) (v : ℚ) : Prop :=
  if i.closed then (i.low : ℚ) ≤ v * i.unit ∧ v * i.unit ≤ i.high
  else (i.low : ℚ) < v * i.unit ∧ v * i.unit < i.high

theorem ten_zpow_mul (k : Int) : (10 : ℚ) ^ k * 10 ^ (-k).toNat = 10 ^ k.toNat := by
  rw [← zpow_natCast, ← zpow_natCast, ← zpow_add₀ (by norm_num)]
  congr 1
  omega

/-- Numerators over the common denominator compare as the numbers do. -/
theorem align_le_iff (i : Interval) (c : Nat) (k : Int) (n : Nat) :
    ((i.align c k n).2 ≤ (i.align c k n).1 ↔ (n : ℚ) ≤ c * 10 ^ k * i.unit) ∧
      ((i.align c k n).1 ≤ (i.align c k n).2 ↔ c * 10 ^ k * i.unit ≤ (n : ℚ)) := by
  have hpos : (0 : ℚ) < 10 ^ (-k).toNat := by positivity
  have hfirst : ((i.align c k n).1 : ℚ) = c * 10 ^ k * i.unit * 10 ^ (-k).toNat := by
    rw [align, powerOfTen_eq]
    push_cast
    rw [← ten_zpow_mul]
    ring
  have hsecond : ((i.align c k n).2 : ℚ) = n * 10 ^ (-k).toNat := by
    rw [align, powerOfTen_eq, powerOfTen_eq]
    push_cast
    rfl
  rw [← Nat.cast_le (α := ℚ), ← Nat.cast_le (α := ℚ), hfirst, hsecond]
  exact ⟨mul_le_mul_iff_left₀ hpos, mul_le_mul_iff_left₀ hpos⟩

theorem holds_iff (i : Interval) (c : Nat) (k : Int) :
    i.holds c k = true ↔ i.Contains (c * 10 ^ k) := by
  have hlow := i.align_le_iff c k i.low
  have hhigh := i.align_le_iff c k i.high
  unfold holds Contains
  cases i.closed with
  | true =>
    simp only [if_true, Bool.and_eq_true, decide_eq_true_eq]
    exact and_congr hlow.1 hhigh.2
  | false =>
    simp only [Bool.false_eq_true, if_false, Bool.and_eq_true, decide_eq_true_eq]
    rw [← not_le, ← not_le, ← not_le, ← not_le]
    exact and_congr hlow.2.not hhigh.1.not

/-- The two points of a grid around the value. -/
theorem floorAt_spec (hunit : 0 < i.unit) (k : Int) :
    (i.floorAt k : ℚ) * 10 ^ k * i.unit ≤ i.value ∧
      (i.value : ℚ) < (i.floorAt k + 1 : Nat) * 10 ^ k * i.unit := by
  have hscale : (0 : ℚ) < 10 ^ (-k).toNat := by positivity
  have hden : 0 < powerOfTen k.toNat * i.unit := Nat.mul_pos (Nat.pow_pos (by decide)) hunit
  have hcast (a : Nat) : ((a * (powerOfTen k.toNat * i.unit) : Nat) : ℚ) =
      a * 10 ^ k * i.unit * 10 ^ (-k).toNat := by
    rw [powerOfTen_eq]
    push_cast
    rw [← ten_zpow_mul]
    ring
  have hvalue : ((i.value * powerOfTen (-k).toNat : Nat) : ℚ) = i.value * 10 ^ (-k).toNat := by
    rw [powerOfTen_eq]
    push_cast
    rfl
  constructor
  · have hle : i.floorAt k * (powerOfTen k.toNat * i.unit) ≤ i.value * powerOfTen (-k).toNat :=
      Nat.div_mul_le_self ..
    rw [← Nat.cast_le (α := ℚ), hcast, hvalue] at hle
    exact le_of_mul_le_mul_right hle hscale
  · have hlt : i.value * powerOfTen (-k).toNat <
        (i.floorAt k + 1) * (powerOfTen k.toNat * i.unit) :=
      Nat.lt_mul_of_div_lt (Nat.lt_succ_self _) hden
    rw [← Nat.cast_lt (α := ℚ), hcast, hvalue] at hlt
    exact lt_of_mul_lt_mul_right hlt hscale.le

/-- What is picked lies in the interval. -/
theorem holds_of_pick {tie : Tie} {k : Int} {d : Decimal} (h : i.pick tie k = some d) :
    i.holds d.digits d.exponent = true := by
  unfold pick at h
  cases hbelow : i.holds (i.floorAt k) k <;> cases habove : i.holds (i.floorAt k + 1) k <;>
    simp only [hbelow, habove] at h
  · cases h
  · cases h
    exact habove
  · cases h
    exact hbelow
  · split at h
    · cases h
      exact hbelow
    · split at h
      · cases h
        exact habove
      · cases tie with
        | even =>
          cases h
          rcases Nat.mod_two_eq_zero_or_one (i.floorAt k) with heven | hodd
          · simpa only [heven, Nat.add_zero] using hbelow
          · simpa only [hodd] using habove
        | up =>
          cases h
          exact habove

/-- Nothing is picked only where both points of the grid lie outside. -/
theorem holds_of_pick_eq_none {tie : Tie} {k : Int} (h : i.pick tie k = none) :
    i.holds (i.floorAt k) k = false ∧ i.holds (i.floorAt k + 1) k = false := by
  unfold pick at h
  cases hbelow : i.holds (i.floorAt k) k <;> cases habove : i.holds (i.floorAt k + 1) k <;>
    simp only [hbelow, habove] at h
  · exact ⟨rfl, rfl⟩
  · cases h
  · cases h
  · split at h
    · cases h
    · split at h
      · cases h
      · cases tie <;> cases h

/-- A grid that misses the interval is at least as coarse as the interval is wide. -/
theorem width_le (hunit : 0 < i.unit) (hlow : i.low < i.value) (hhigh : i.value < i.high)
    {tie : Tie} {k : Int} (h : i.pick tie k = none) :
    (i.high : ℚ) - i.low ≤ 10 ^ k * i.unit := by
  obtain ⟨hbelow, habove⟩ := holds_of_pick_eq_none h
  obtain ⟨hfloor, hceil⟩ := i.floorAt_spec hunit k
  rw [← Bool.not_eq_true, holds_iff, Contains] at hbelow habove
  have hlow' : (i.low : ℚ) < i.value := by exact_mod_cast hlow
  have hhigh' : (i.value : ℚ) < i.high := by exact_mod_cast hhigh
  have hout : (i.floorAt k : ℚ) * 10 ^ k * i.unit ≤ i.low := by
    by_contra! hin
    split at hbelow
    · exact hbelow ⟨hin.le, hfloor.trans hhigh'.le⟩
    · exact hbelow ⟨hin, hfloor.trans_lt hhigh'⟩
  have hover : (i.high : ℚ) ≤ (i.floorAt k + 1 : Nat) * 10 ^ k * i.unit := by
    by_contra! hin
    split at habove
    · exact habove ⟨(hlow'.trans hceil).le, hin.le⟩
    · exact habove ⟨hlow'.trans hceil, hin⟩
  calc (i.high : ℚ) - i.low
      ≤ (i.floorAt k + 1 : Nat) * 10 ^ k * i.unit - i.floorAt k * 10 ^ k * i.unit :=
        sub_le_sub hover hout
    _ = 10 ^ k * i.unit := by
      push_cast
      ring

/-- The first exponent is one that was found, or the guess. -/
theorem firstExponent_cases (i : Interval) :
    0 < i.floorAt i.firstExponent ∨
      i.firstExponent = ((i.value.log2 : Int) - i.unit.log2) * 30103 / 100000 - 1 := by
  have hfind (guess : Int) (l : List Int) :
      0 < i.floorAt ((l.find? fun k => 0 < i.floorAt k).getD guess) ∨
        (l.find? fun k => 0 < i.floorAt k).getD guess = guess := by
    cases hfound : l.find? fun k => decide (0 < i.floorAt k) with
    | none => exact .inr rfl
    | some k =>
      have hfloor := List.find?_some hfound
      exact .inl (of_decide_eq_true hfloor)
  exact hfind _ _

/-- The value is not below the power of ten of its first digit. -/
theorem ten_zpow_firstExponent_le (hvalue : 0 < i.value) {j : Nat} (hunit : i.unit = 2 ^ j)
    (hlow : -1100 ≤ (i.value.log2 : Int) - i.unit.log2)
    (hhigh : (i.value.log2 : Int) - i.unit.log2 ≤ 1100) :
    (10 : ℚ) ^ i.firstExponent * i.unit ≤ i.value := by
  have hpos : 0 < i.unit := hunit ▸ Nat.two_pow_pos j
  rcases i.firstExponent_cases with hfloor | hguess
  · have hone : (1 : ℚ) ≤ i.floorAt i.firstExponent := by exact_mod_cast hfloor
    calc (10 : ℚ) ^ i.firstExponent * i.unit
        ≤ i.floorAt i.firstExponent * (10 ^ i.firstExponent * i.unit) :=
          le_mul_of_one_le_left (by positivity) hone
      _ = i.floorAt i.firstExponent * 10 ^ i.firstExponent * i.unit := (mul_assoc ..).symm
      _ ≤ i.value := (i.floorAt_spec hpos _).1
  · rw [hguess]
    calc (10 : ℚ) ^ (((i.value.log2 : Int) - i.unit.log2) * 30103 / 100000 - 1) * i.unit
        ≤ 2 ^ ((i.value.log2 : Int) - i.unit.log2) * i.unit := by
          gcongr
          exact ten_zpow_guess_le hlow hhigh
      _ = 2 ^ (i.value.log2 : Int) := by
        rw [zpow_sub₀ two_ne_zero, hunit, Nat.log2_two_pow]
        push_cast
        rw [zpow_natCast _ j, div_mul_cancel₀ _ (by positivity)]
      _ ≤ i.value := (log2_bounds hvalue).1

end Interval

/-! ## The interval of a number -/

variable {x : Binary64}

theorem interval_unit (x : Binary64) : x.interval.unit = 2 ^ (2 - x.scale).toNat := by
  simp only [interval, Nat.one_shiftLeft, neg_sub]

theorem quarter_mul_unit (x : Binary64) :
    x.quarter * x.interval.unit = 2 ^ (x.scale - 2).toNat := by
  rw [interval_unit, quarter]
  push_cast
  rw [← zpow_natCast, ← zpow_natCast, ← zpow_add₀ two_ne_zero]
  congr 1
  omega

/-- Below, at and above the number, in quarters of the unit of its significand. -/
theorem interval_ends (hzero : x.isZero = false) :
    (x.interval.low : ℚ) = (4 * x.significand - x.gap) * x.quarter * x.interval.unit ∧
      (x.interval.value : ℚ) = 4 * x.significand * x.quarter * x.interval.unit ∧
      (x.interval.high : ℚ) = (4 * x.significand + 2) * x.quarter * x.interval.unit := by
  have hgap : x.gap ≤ 4 * x.significand := by
    have := significand_pos hzero
    unfold gap
    split <;> omega
  refine ⟨?_, ?_, ?_⟩
  · rw [mul_assoc, quarter_mul_unit, ← Nat.cast_ofNat (R := ℚ) (n := 4), ← Nat.cast_mul,
      ← Nat.cast_sub hgap]
    simp only [interval, gap, Nat.one_shiftLeft]
    push_cast
    rfl
  · rw [mul_assoc, quarter_mul_unit]
    simp only [interval, Nat.one_shiftLeft]
    push_cast
    rfl
  · rw [mul_assoc, quarter_mul_unit]
    simp only [interval, Nat.one_shiftLeft]
    push_cast
    rfl

theorem isNear_of_contains (hzero : x.isZero = false) {v : ℚ} (h : x.interval.Contains v) :
    x.IsNear v := by
  obtain ⟨hlow, -, hhigh⟩ := interval_ends hzero
  have hunit : (0 : ℚ) < x.interval.unit := by
    rw [interval_unit]
    positivity
  rw [Interval.Contains, hlow, hhigh] at h
  split at h
  · next hclosed =>
    have heven : x.significand % 2 = 0 := of_decide_eq_true hclosed
    exact ⟨le_of_mul_le_mul_right h.1 hunit, le_of_mul_le_mul_right h.2 hunit,
      fun hodd => by omega⟩
  · have hstrict : (4 * x.significand - x.gap) * x.quarter < v ∧
        v < (4 * x.significand + 2) * x.quarter :=
      ⟨lt_of_mul_lt_mul_right h.1 hunit.le, lt_of_mul_lt_mul_right h.2 hunit.le⟩
    exact ⟨hstrict.1.le, hstrict.2.le, fun _ => hstrict⟩

/-- The binary logarithm of a number is in the range of doubles. -/
theorem log2_interval (hfinite : x.isFinite = true) (hzero : x.isZero = false) :
    -1100 ≤ (x.interval.value.log2 : Int) - x.interval.unit.log2 ∧
      (x.interval.value.log2 : Int) - x.interval.unit.log2 ≤ 1100 := by
  have hleast := le_scale x
  have hgreatest := scale_le hfinite
  have hvalue : x.interval.value = 4 * x.significand * 2 ^ (x.scale - 2).toNat := by
    simp only [interval, Nat.one_shiftLeft]
  have hpos : x.interval.value ≠ 0 := by
    have := significand_pos hzero
    rw [hvalue]
    positivity
  have hlog : x.interval.value.log2 < 55 + (x.scale - 2).toNat := by
    rw [Nat.log2_lt hpos, hvalue, Nat.pow_add]
    have := significand_lt x
    exact Nat.mul_lt_mul_of_pos_right (by omega) (Nat.two_pow_pos _)
  rw [interval_unit, Nat.log2_two_pow]
  omega

/-- Seventeen digits are enough: on the finest grid that is tried something is picked. -/
theorem pick_ne_none (hfinite : x.isFinite = true) (hzero : x.isZero = false) (tie : Tie) :
    x.interval.pick tie (x.interval.firstExponent - 16) ≠ none := by
  intro hnone
  obtain ⟨hlow, hvalue, hhigh⟩ := interval_ends hzero
  have hm : (0 : ℚ) < x.significand := by exact_mod_cast significand_pos hzero
  have hgap : (1 : ℚ) ≤ x.gap := by
    unfold gap
    split <;> norm_num
  have hunit : (0 : ℚ) < x.interval.unit := by
    rw [interval_unit]
    positivity
  have hscaled : 0 < x.quarter * x.interval.unit := mul_pos x.quarter_pos hunit
  have hbelow : x.interval.low < x.interval.value := by
    rw [← Nat.cast_lt (α := ℚ), hlow, hvalue]
    nlinarith
  have habove : x.interval.value < x.interval.high := by
    rw [← Nat.cast_lt (α := ℚ), hvalue, hhigh]
    nlinarith
  have hfirst : (10 : ℚ) ^ x.interval.firstExponent * x.interval.unit ≤ x.interval.value :=
    have hlogs := log2_interval hfinite hzero
    Interval.ten_zpow_firstExponent_le (Nat.zero_lt_of_lt hbelow) x.interval_unit hlogs.1 hlogs.2
  have hwidth := Interval.width_le (by exact_mod_cast hunit) hbelow habove hnone
  -- seventeen digits of a significand that has less than seventeen
  have hdigits : ((2 + x.gap) * 10 ^ 16 : ℚ) * (x.quarter * x.interval.unit) ≤
      4 * x.significand * (x.quarter * x.interval.unit) :=
    calc ((2 + x.gap) * 10 ^ 16 : ℚ) * (x.quarter * x.interval.unit)
        = 10 ^ 16 * (x.interval.high - x.interval.low) := by
          rw [hhigh, hlow]
          ring
      _ ≤ 10 ^ 16 * (10 ^ (x.interval.firstExponent - 16) * x.interval.unit) := by gcongr
      _ = 10 ^ x.interval.firstExponent * x.interval.unit := by
        rw [zpow_sub₀ (by norm_num)]
        norm_num
        ring
      _ ≤ x.interval.value := hfirst
      _ = 4 * x.significand * (x.quarter * x.interval.unit) := by rw [hvalue, mul_assoc]
  have hcast : (2 + x.gap) * 10 ^ 16 ≤ 4 * x.significand := by
    exact_mod_cast le_of_mul_le_mul_right hdigits hscaled
  have hlt := significand_lt x
  unfold gap at hcast
  split at hcast
  · next hpower =>
    rw [hpower.1, exponentWeight] at hcast
    omega
  · omega

/-- **The shortest decimal is near the number.** -/
theorem shortest_isNear (hfinite : x.isFinite = true) (hzero : x.isZero = false) (tie : Tie) :
    x.IsNear ((x.shortest tie).digits * 10 ^ (x.shortest tie).exponent) := by
  refine isNear_of_contains hzero ((Interval.holds_iff ..).1 ?_)
  unfold shortest
  rw [if_neg (by rw [hzero]; exact Bool.false_ne_true)]
  cases hfound : ((List.range 17).map fun (n : Nat) => x.interval.firstExponent - n).findSome?
      (x.interval.pick tie) with
  | some d =>
    obtain ⟨k, -, hpick⟩ := List.exists_of_findSome?_eq_some hfound
    simp only [hfound, Option.getD_some]
    exact Interval.holds_of_pick hpick
  | none =>
    have hlast := List.findSome?_eq_none_iff.1 hfound (x.interval.firstExponent - 16)
      (List.mem_map.2 ⟨16, List.mem_range.2 (by omega), rfl⟩)
    exact absurd hlast (pick_ne_none hfinite hzero tie)

theorem digits_shortest_pos (hfinite : x.isFinite = true) (hzero : x.isZero = false) (tie : Tie) :
    0 < (x.shortest tie).digits :=
  (shortest_isNear hfinite hzero tie).digits_pos hzero

end Binary64

end FlagFanout
