import FlagFanout.Number.Layout
import FlagFanout.Number.Reading
import FlagFanout.Proofs.Context.Equality
import FlagFanout.Proofs.Number.Shortest
import Mathlib.Algebra.Order.Field.Rat
import Mathlib.Data.List.TakeWhile
import Mathlib.Data.Rat.Cast.Order
import Mathlib.Tactic.FieldSimp
import Mathlib.Tactic.Ring

/-!
# What the digits of a number write

A `Token` is an unsigned number with a point or an exponent, in its parts. A layout sets the digits
of a decimal out as a token of the same value: zeros before the first digit, after the last one or
none at all, and the point or the exponent moved accordingly.
-/

namespace FlagFanout

/-! ## Digits -/

theorem naturalOf_append (as bs : List Char) :
    naturalOf (as ++ bs) = naturalOf as * 10 ^ bs.length + naturalOf bs := by
  have happend : naturalOf (as ++ bs) = Nat.ofDigitChars 10 bs (naturalOf as) :=
    Nat.ofDigitChars_append 0
  rw [happend, Nat.ofDigitChars_eq_ofDigitChars_zero, Nat.mul_comm]
  rfl

theorem naturalOf_replicate (n : Nat) : naturalOf (List.replicate n '0') = 0 :=
  Nat.ofDigitChars_replicate_zero

theorem isDigit_of_mem_zeros {n : Nat} {c : Char} (h : c ∈ List.replicate n '0') :
    c.isDigit = true := by
  rw [List.eq_of_mem_replicate h]
  rfl

namespace Layout

theorem naturalOf_digitsOf (n : Nat) : naturalOf (digitsOf n) = n := Nat.ofDigitChars_ten_toDigits

theorem isDigit_of_mem_digitsOf {n : Nat} {c : Char} (h : c ∈ digitsOf n) : c.isDigit = true :=
  Nat.isDigit_of_mem_toDigits (by decide) (by decide) h

theorem digitsOf_ne_nil (n : Nat) : digitsOf n ≠ [] := Nat.toDigits_ne_nil

/-- Only zero starts with the digit zero. -/
theorem head?_digitsOf {n : Nat} (hn : 0 < n) : (digitsOf n).head? ≠ some '0' := by
  induction n using Nat.strong_induction_on with
  | _ n ih =>
    rcases Nat.lt_or_ge n 10 with hlt | hge
    · rw [digitsOf, Nat.toDigits_of_lt_base hlt, List.head?_cons]
      intro hzero
      exact hn.ne' (Nat.digitChar_eq_zero.1 (Option.some.inj hzero))
    · rw [digitsOf, Nat.toDigits_of_base_le (by decide) hge,
        List.head?_append_of_ne_nil _ Nat.toDigits_ne_nil]
      exact ih (n / 10) (by omega) (by omega)

/-- Nothing but zeros is trimmed. -/
theorem exists_trimZeros (ds : List Char) :
    ∃ k, ds = trimZeros ds ++ List.replicate k '0' := by
  have hzeros : ∀ c ∈ ds.reverse.takeWhile (· = '0'), c = '0' := fun c hc => by
    simpa using List.mem_takeWhile_imp hc
  refine ⟨(ds.reverse.takeWhile (· = '0')).length, ?_⟩
  conv_lhs => rw [← ds.reverse_reverse,
    ← List.takeWhile_append_dropWhile (p := fun c => decide (c = '0')) (l := ds.reverse),
    List.reverse_append, List.eq_replicate_of_mem hzeros, List.reverse_replicate]
  rfl

end Layout

/-! ## Tokens -/

/-- The digits of an unsigned number before and after its point, and its exponent. -/
structure Token where
  whole : List Char
  fraction : List Char
  exponent : Option Int
  whole_isDigit : ∀ c ∈ whole, c.isDigit = true
  fraction_isDigit : ∀ c ∈ fraction, c.isDigit = true
  whole_ne_nil : whole ≠ []
  /-- A zero stands alone before the point. -/
  length_of_zero : whole.head? = some '0' → whole.length = 1
  /-- The number is not written as an integer. -/
  not_integer : fraction = [] → exponent.isSome = true

namespace Token

/-- The point and the digits after it, if there are any. -/
def fractionText (t : Token) : List Char := if t.fraction = [] then [] else '.' :: t.fraction

/-- The exponent with its sign, if there is one. -/
def exponentText (t : Token) : List Char :=
  match t.exponent with
  | none => []
  | some e => 'e' :: (if e < 0 then '-' else '+') :: Layout.digitsOf e.natAbs

/-- The token as text. -/
def text (t : Token) : List Char := t.whole ++ (t.fractionText ++ t.exponentText)

/-- The number that the token writes. -/
def value (t : Token) : ℚ :=
  naturalOf (t.whole ++ t.fraction) * 10 ^ (t.exponent.getD 0 - t.fraction.length)

/-- The double that is read from the token after the given sign. -/
def number (negative : Bool) (t : Token) : Binary64 :=
  .ofDigits negative t.whole t.fraction (t.exponent.getD 0)

/-- A token near a number is read as it, the sign apart. -/
theorem number_of_isNear {x : Binary64} (hfinite : x.isFinite = true) (hzero : x.isZero = false)
    (negative : Bool) {t : Token} (h : x.IsNear t.value) :
    t.number negative = .ofMagnitude negative x.magnitudeBits :=
  Binary64.ofDecimal_of_isNear hfinite hzero negative h

end Token

/-! ## Layouts -/

namespace Layout

variable {l : Layout} {ds : List Char}

/-- Zeros between the point and the digits. -/
theorem exists_token_below (hds : ∀ c ∈ ds, c.isDigit = true) (hne : ds ≠ []) (k : Nat) :
    ∃ t : Token, t.text = '0' :: '.' :: (List.replicate k '0' ++ ds) ∧
      t.value = naturalOf ds * 10 ^ (-(k + ds.length : Int)) := by
  have hdigits : ∀ c ∈ List.replicate k '0' ++ ds, c.isDigit = true := fun c hc =>
    (List.mem_append.1 hc).elim isDigit_of_mem_zeros (hds c)
  refine ⟨{ whole := ['0'], fraction := List.replicate k '0' ++ ds, exponent := none,
            whole_isDigit := fun _ => isDigit_of_mem_zeros (n := 1)
            fraction_isDigit := hdigits
            whole_ne_nil := List.cons_ne_nil _ _
            length_of_zero := fun _ => rfl
            not_integer := fun h => absurd (List.append_eq_nil_iff.1 h).2 hne }, ?_, ?_⟩
  · simp [Token.text, Token.fractionText, Token.exponentText, hne]
  · have hnatural : naturalOf (['0'] ++ (List.replicate k '0' ++ ds)) = naturalOf ds := by
      rw [← List.append_assoc, ← List.replicate_one, List.replicate_append_replicate,
        naturalOf_append, naturalOf_replicate, Nat.zero_mul, Nat.zero_add]
    simp only [Token.value, hnatural, Option.getD_none, zero_sub, List.length_append,
      List.length_replicate, Nat.cast_add]

/-- Zeros between the digits and the point. -/
theorem exists_token_above (hds : ∀ c ∈ ds, c.isDigit = true) (hne : ds ≠ [])
    (hhead : ds.head? ≠ some '0') (k : Nat) :
    ∃ t : Token, t.text = ds ++ List.replicate k '0' ++ ['.', '0'] ∧
      t.value = naturalOf ds * 10 ^ (k : Int) := by
  have hdigits : ∀ c ∈ ds ++ List.replicate k '0', c.isDigit = true := fun c hc =>
    (List.mem_append.1 hc).elim (hds c) isDigit_of_mem_zeros
  refine ⟨{ whole := ds ++ List.replicate k '0', fraction := ['0'], exponent := none,
            whole_isDigit := hdigits
            fraction_isDigit := fun _ => isDigit_of_mem_zeros (n := 1)
            whole_ne_nil := fun h => hne (List.append_eq_nil_iff.1 h).1
            length_of_zero := fun h =>
              absurd (by rwa [List.head?_append_of_ne_nil _ hne] at h) hhead
            not_integer := fun h => absurd h (List.cons_ne_nil _ _) }, ?_, ?_⟩
  · simp [Token.text, Token.fractionText, Token.exponentText]
  · have hnatural : naturalOf (ds ++ List.replicate k '0' ++ ['0']) =
        naturalOf ds * 10 ^ (k + 1) := by
      rw [List.append_assoc, ← List.replicate_succ', naturalOf_append, naturalOf_replicate,
        List.length_replicate, Nat.add_zero]
    simp only [Token.value, hnatural, Option.getD_none, zero_sub, List.length_singleton]
    push_cast
    rw [pow_succ]
    norm_num
    field_simp

/-- The point between two digits. -/
theorem exists_token_between {as bs : List Char} (hds : ∀ c ∈ as ++ bs, c.isDigit = true)
    (has : as ≠ []) (hbs : bs ≠ []) (hhead : as.head? ≠ some '0') :
    ∃ t : Token, t.text = as ++ '.' :: bs ∧
      t.value = naturalOf (as ++ bs) * 10 ^ (-(bs.length : Int)) := by
  refine ⟨{ whole := as, fraction := bs, exponent := none,
            whole_isDigit := fun c hc => hds c (List.mem_append_left _ hc)
            fraction_isDigit := fun c hc => hds c (List.mem_append_right _ hc)
            whole_ne_nil := has
            length_of_zero := fun h => absurd h hhead
            not_integer := fun h => absurd h hbs }, ?_, ?_⟩
  · simp [Token.text, Token.fractionText, Token.exponentText, hbs]
  · simp [Token.value]

/-- Digits that stand positionally keep their value. -/
theorem exists_token_positionally (hpoint : l.point = true) (hds : ∀ c ∈ ds, c.isDigit = true)
    (hne : ds ≠ []) (hhead : ds.head? ≠ some '0') (e : Int) :
    ∃ t : Token, t.text = l.positionally ds e ∧
      t.value = naturalOf ds * 10 ^ (e + 1 - ds.length) := by
  unfold positionally
  split
  · next hneg =>
    obtain ⟨k, hk⟩ : ∃ k : Nat, -e - 1 = k := Int.eq_ofNat_of_zero_le (by omega)
    have he : e + 1 - ds.length = -(k + ds.length : Int) := by omega
    rw [hk, Int.toNat_natCast, he]
    exact exists_token_below hds hne k
  · next hpos =>
    obtain ⟨w, rfl⟩ := Int.eq_ofNat_of_zero_le (not_lt.1 hpos)
    rw [Int.toNat_natCast]
    dsimp only
    rcases Nat.lt_or_ge (w + 1) ds.length with hlt | hge
    · have hbs : ds.drop (w + 1) ≠ [] := by
        rw [Ne, List.drop_eq_nil_iff]
        omega
      have hsplit : ds.take (w + 1) ++ ds.drop (w + 1) = ds := List.take_append_drop ..
      have he : (w : Int) + 1 - ds.length = -((ds.drop (w + 1)).length : Int) := by
        rw [List.length_drop]
        omega
      have has : ds.take (w + 1) ≠ [] := by
        rw [Ne, List.take_eq_nil_iff]
        exact not_or.2 ⟨Nat.succ_ne_zero w, hne⟩
      have hlead : (ds.take (w + 1)).head? ≠ some '0' := by
        rwa [List.head?_take, if_neg (Nat.succ_ne_zero w)]
      obtain ⟨t, htext, hvalue⟩ :=
        exists_token_between (by rwa [hsplit]) has hbs hlead
      rw [hsplit] at hvalue
      refine ⟨t, htext.trans ?_, hvalue.trans (by rw [he])⟩
      rw [Nat.sub_eq_zero_of_le hlt.le, List.replicate_zero, List.append_nil]
      cases hdrop : ds.drop (w + 1) with
      | nil => exact absurd hdrop hbs
      | cons => rfl
    · obtain ⟨k, hk⟩ := Nat.exists_eq_add_of_le hge
      have he : (w : Int) + 1 - ds.length = k := by omega
      rw [List.take_of_length_le hge, List.drop_eq_nil_of_le hge, Nat.sub_eq_of_eq_add' hk, he]
      exact exists_token_above hds hne hhead k

/-- Digits with an exponent keep their value. -/
theorem exists_token_scientifically (hds : ∀ c ∈ ds, c.isDigit = true) (hne : ds ≠ []) (e : Int) :
    ∃ t : Token, t.text = scientifically ds e ∧
      t.value = naturalOf ds * 10 ^ (e + 1 - ds.length) := by
  cases ds with
  | nil => exact absurd rfl hne
  | cons d r =>
    refine ⟨{ whole := [d], fraction := r, exponent := some e,
              whole_isDigit := fun c hc => hds c (List.mem_singleton.1 hc ▸ List.mem_cons_self)
              fraction_isDigit := fun c hc => hds c (List.mem_cons_of_mem _ hc)
              whole_ne_nil := List.cons_ne_nil _ _
              length_of_zero := fun _ => rfl
              not_integer := fun _ => rfl }, ?_, ?_⟩
    · cases r with
      | nil => rfl
      | cons => rfl
    · have he : e - r.length = e + 1 - (d :: r).length := by
        rw [List.length_cons]
        omega
      simp only [Token.value, Option.getD_some, he, List.singleton_append]

/-- However a decimal is set out, its value stays. -/
theorem exists_token_ofDecimal (hpoint : l.point = true) {d : Decimal} (hd : 0 < d.digits) :
    ∃ t : Token, t.text = l.ofDecimal d ∧ t.value = d.digits * 10 ^ d.exponent := by
  obtain ⟨k, hk⟩ := exists_trimZeros (digitsOf d.digits)
  have hnatural : d.digits = naturalOf (trimZeros (digitsOf d.digits)) * 10 ^ k := by
    conv_lhs => rw [← naturalOf_digitsOf d.digits, hk, naturalOf_append, naturalOf_replicate,
      List.length_replicate, Nat.add_zero]
  have hlength := congrArg List.length hk
  rw [List.length_append, List.length_replicate] at hlength
  set ds := trimZeros (digitsOf d.digits) with hds
  have hne : ds ≠ [] := by
    rintro hnil
    rw [hnil] at hnatural
    exact hd.ne' (hnatural.trans (Nat.zero_mul _))
  have hdigits : ∀ c ∈ ds, c.isDigit = true := fun c hc =>
    isDigit_of_mem_digitsOf (n := d.digits) (hk ▸ List.mem_append_left _ hc)
  have hhead : ds.head? ≠ some '0' := by
    have hlead := head?_digitsOf hd
    rwa [hk, List.head?_append_of_ne_nil _ hne] at hlead
  have he : d.exponent + (digitsOf d.digits).length - 1 + 1 - ds.length = d.exponent + k := by
    omega
  have hvalue : (naturalOf ds * 10 ^ (d.exponent + k) : ℚ) = d.digits * 10 ^ d.exponent := by
    rw [zpow_add₀ (by norm_num), zpow_natCast]
    conv_rhs => rw [hnatural]
    push_cast
    ring
  have hpositional := exists_token_positionally hpoint hdigits hne hhead
    (d.exponent + (digitsOf d.digits).length - 1)
  rw [← hvalue, ← he]
  unfold ofDecimal
  cases l.positional with
  | none => exact hpositional
  | some bounds =>
    simp only [← hds]
    split
    · exact hpositional
    · exact exists_token_scientifically hdigits hne _

/-- **What is written is read back**: a layout that keeps the point of integers writes a finite
number as its sign and a token from which the number is read. -/
theorem exists_token_write (hpoint : l.point = true) {x : Binary64} (hfinite : x.isFinite = true) :
    ∃ t : Token, l.write x = String.ofList (if x.isNegative then '-' :: t.text else t.text) ∧
      t.number x.isNegative = x := by
  have hnan : x.isNaN = false := by
    have hlt : x.magnitudeBits < Binary64.infinityBits := of_decide_eq_true hfinite
    exact decide_eq_false hlt.not_gt
  unfold write
  rw [if_neg (by rw [hnan]; exact Bool.false_ne_true)]
  cases hzero : x.isZero with
  | true =>
    have hbits : x.magnitudeBits = 0 := of_decide_eq_true hzero
    refine ⟨{ whole := ['0'], fraction := ['0'], exponent := none,
              whole_isDigit := fun _ => isDigit_of_mem_zeros (n := 1)
              fraction_isDigit := fun _ => isDigit_of_mem_zeros (n := 1)
              whole_ne_nil := List.cons_ne_nil _ _
              length_of_zero := fun _ => rfl
              not_integer := fun h => absurd h (List.cons_ne_nil _ _) }, ?_, ?_⟩
    · simp [Token.text, Token.fractionText, Token.exponentText, positionally, hpoint]
    · conv_rhs => rw [x.eq_ofMagnitude, hbits]
      rfl
  | false =>
    obtain ⟨t, htext, hvalue⟩ :=
      exists_token_ofDecimal hpoint (Binary64.digits_shortest_pos hfinite hzero l.tie)
    refine ⟨t, by simp [hfinite, htext], ?_⟩
    conv_rhs => rw [x.eq_ofMagnitude]
    exact t.number_of_isNear hfinite hzero _
      (hvalue ▸ Binary64.shortest_isNear hfinite hzero l.tie)

end Layout

end FlagFanout
