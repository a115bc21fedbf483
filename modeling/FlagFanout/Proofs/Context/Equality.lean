import FlagFanout.Context

/-!
# Equal contexts

Numbers are equal if they stand at one place on the line, so the two zeros are equal and nothing
else is equal to anything but itself (`Binary64.eq_or_zeros_of_beq`). Equal contexts therefore hold
the same attributes, zeros of different signs apart: this is `Context.Alike`, and it survives laying
them over defaults.
-/

namespace FlagFanout

/-! ## Numbers -/

namespace Binary64

theorem beq_iff {x y : Binary64} :
    (x == y) = true ↔ x.isNaN = false ∧ y.isNaN = false ∧ x.rank = y.rank := by
  change Binary64.beq x y = true ↔ _
  simp [Binary64.beq, and_assoc]

/-- A number is its sign and the bits below it. -/
theorem eq_ofMagnitude (x : Binary64) : x = ofMagnitude x.isNegative x.magnitudeBits := by
  obtain ⟨bits⟩ := x
  have hlt : bits.toNat < 2 * signWeight := bits.toNat_lt
  refine congrArg mk (UInt64.toNat_inj.1 ?_)
  rw [UInt64.toNat_ofNat']
  unfold magnitudeBits
  cases hs : isNegative ⟨bits⟩ with
  | true =>
    have hle : signWeight ≤ bits.toNat := of_decide_eq_true hs
    simp only [if_true, signWeight] at hlt hle ⊢
    omega
  | false =>
    have hle : ¬ signWeight ≤ bits.toNat := of_decide_eq_false hs
    simp only [Bool.false_eq_true, if_false, signWeight] at hlt hle ⊢
    omega

/-- **Equal numbers** are one and the same, or zeros of different signs. -/
theorem eq_or_zeros_of_beq {x y : Binary64} (h : (x == y) = true) :
    x = y ∨ ∃ negative, x = zero negative ∧ y = zero !negative := by
  have hrank := (beq_iff.1 h).2.2
  rw [eq_ofMagnitude x, eq_ofMagnitude y]
  unfold rank at hrank
  cases hx : x.isNegative <;> cases hy : y.isNegative <;>
    simp only [hx, hy, Bool.false_eq_true, if_false, if_true] at hrank
  case false.false =>
    have : x.magnitudeBits = y.magnitudeBits := by omega
    exact .inl (by rw [this])
  case true.true =>
    have : x.magnitudeBits = y.magnitudeBits := by omega
    exact .inl (by rw [this])
  -- on both sides of zero only zero itself is left
  case false.true =>
    have hx0 : x.magnitudeBits = 0 := by omega
    have hy0 : y.magnitudeBits = 0 := by omega
    exact .inr ⟨false, by rw [hx0]; rfl, by rw [hy0]; rfl⟩
  case true.false =>
    have hx0 : x.magnitudeBits = 0 := by omega
    have hy0 : y.magnitudeBits = 0 := by omega
    exact .inr ⟨true, by rw [hx0]; rfl, by rw [hy0]; rfl⟩

/-- The two zeros are written differently. -/
theorem write_zero_ne (negative : Bool) :
    Layout.plain.write (zero negative) ≠ Layout.plain.write (zero !negative) := by
  cases negative <;> decide

end Binary64

/-! ## Attributes -/

/-- Equal attributes are one and the same, or zeros of different signs. -/
theorem Attribute.eq_or_zeros_of_beq {a b : Attribute} (h : (a == b) = true) :
    a = b ∨ ∃ negative, a = .number (.zero negative) ∧ b = .number (.zero !negative) := by
  change Attribute.beq a b = true at h
  cases a <;> cases b <;> simp only [Attribute.beq, decide_eq_true_eq, reduceCtorEq] at h
  case text.text => exact .inl (congrArg _ h)
  case list.list => exact .inl (congrArg _ h)
  case number.number x y =>
    rcases Binary64.eq_or_zeros_of_beq h with heq | ⟨negative, hx, hy⟩
    · exact .inl (congrArg _ heq)
    · exact .inr ⟨negative, congrArg _ hx, congrArg _ hy⟩

/-! ## Contexts -/

namespace Context

/-- Two contexts hold the same attributes, but a zero may have another sign. -/
def Alike (c d : Context) : Prop :=
  ∀ key, c.get? key = d.get? key ∨
    ∃ negative, c.get? key = some (.number (.zero negative)) ∧
      d.get? key = some (.number (.zero !negative))

/-- Equal contexts are alike. -/
theorem alike_of_beq {c d : Context} (h : (c == d) = true) : c.Alike d := by
  obtain ⟨⟨l, hl⟩⟩ := c
  obtain ⟨⟨r, hr⟩⟩ := d
  change (l == r) = true at h
  intro key
  change KeyMap.lookup key l = KeyMap.lookup key r ∨
    ∃ negative, KeyMap.lookup key l = some (.number (.zero negative)) ∧
      KeyMap.lookup key r = some (.number (.zero !negative))
  clear hl hr
  induction l generalizing r with
  | nil =>
    cases r with
    | nil => exact .inl rfl
    | cons f tail => cases h
  | cons e rest ih =>
    cases r with
    | nil => cases h
    | cons f tail =>
      have hcons : ((e == f) && (rest == tail)) = true := h
      obtain ⟨hef, htail⟩ := Bool.and_eq_true_iff.1 hcons
      have hpair : ((e.1 == f.1) && (e.2 == f.2)) = true := hef
      obtain ⟨hkey, hvalue⟩ := Bool.and_eq_true_iff.1 hpair
      simp only [KeyMap.lookup, eq_of_beq hkey]
      split
      · rcases Attribute.eq_or_zeros_of_beq hvalue with heq | ⟨negative, hx, hy⟩
        · exact .inl (congrArg some heq)
        · exact .inr ⟨negative, congrArg some hx, congrArg some hy⟩
      · exact ih tail htail

@[simp] theorem get?_mergedWith (c top : Context) (key : String) :
    (c.mergedWith top).get? key = (top.get? key).or (c.get? key) :=
  KeyMap.get?_overlay ..

/-- Alike contexts stay alike over the same defaults. -/
theorem Alike.mergedWith {c d : Context} (h : c.Alike d) (defaults : Context) :
    (defaults.mergedWith c).Alike (defaults.mergedWith d) := by
  intro key
  simp only [get?_mergedWith]
  rcases h key with heq | ⟨negative, hc, hd⟩
  · exact .inl (by rw [heq])
  · exact .inr ⟨negative, by rw [hc]; rfl, by rw [hd]; rfl⟩

/-- Contexts with the same attributes are the same. -/
theorem ext_get? {c d : Context} (h : ∀ key, c.get? key = d.get? key) : c = d := by
  obtain ⟨m⟩ := c
  obtain ⟨n⟩ := d
  exact congrArg mk (KeyMap.ext_get? h)

end Context

end FlagFanout
