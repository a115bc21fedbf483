import FlagFanout.Config.Environment

/-!
# How variables are worded

A variable of the environment is free text. What it says of a capacity or of the delivery policy is
told here by what the text consists of: blanks, a core and blanks again (`IsPadded`), where the core
is a number in digits (`Environment.Writes`) or the name of a policy in any case and with hyphens
(`DeliveryPolicy.IsNamedBy`). The readers find exactly these
(`Environment.natural?_eq_some_iff`, `DeliveryPolicy.ofText?_eq_some_iff`).
-/

namespace FlagFanout

/-! ## Blanks -/

/-- A text consists of a core and blanks around it. -/
def IsPadded (cs core : List Char) : Prop :=
  ∃ front back, cs = front ++ core ++ back ∧ (∀ c ∈ front, isBlank c = true) ∧
    ∀ c ∈ back, isBlank c = true

theorem isBlank_of_mem_takeWhile {cs : List Char} {c : Char} (h : c ∈ cs.takeWhile isBlank) :
    isBlank c = true :=
  List.all_eq_true.1 List.all_takeWhile c h

theorem isPadded_trimBlanks (cs : List Char) : IsPadded cs (trimBlanks cs) := by
  let rest := (cs.dropWhile isBlank).reverse
  refine ⟨cs.takeWhile isBlank, (rest.takeWhile isBlank).reverse, ?_,
    fun c => isBlank_of_mem_takeWhile, fun c hc => ?_⟩
  · have hrest : trimBlanks cs ++ (rest.takeWhile isBlank).reverse = cs.dropWhile isBlank := by
      rw [trimBlanks, ← List.reverse_append, List.takeWhile_append_dropWhile, List.reverse_reverse]
    rw [List.append_assoc, hrest, List.takeWhile_append_dropWhile]
  · exact isBlank_of_mem_takeWhile (List.mem_reverse.1 hc)

section Core

variable {front core cs : List Char} (hne : core ≠ []) (hcore : ∀ c ∈ core, isBlank c = false)

include hne hcore

theorem dropWhile_isBlank_append (hfront : ∀ c ∈ front, isBlank c = true) (rest : List Char) :
    (front ++ (core ++ rest)).dropWhile isBlank = core ++ rest := by
  obtain ⟨c, tail, rfl⟩ := List.exists_cons_of_ne_nil hne
  rw [List.dropWhile_append_of_pos hfront, List.cons_append]
  exact List.dropWhile_cons_of_neg (by simp [hcore c List.mem_cons_self])

/-- **A core without blanks is what trimming leaves.** -/
theorem trimBlanks_of_isPadded (h : IsPadded cs core) : trimBlanks cs = core := by
  obtain ⟨front, back, rfl, hfront, hback⟩ := h
  have hne' : core.reverse ≠ [] := by simpa using hne
  have hcore' : ∀ c ∈ core.reverse, isBlank c = false := fun c hc => hcore c (List.mem_reverse.1 hc)
  have hback' : ∀ c ∈ back.reverse, isBlank c = true := fun c hc => hback c (List.mem_reverse.1 hc)
  have hend := dropWhile_isBlank_append hne' hcore' hback' []
  rw [List.append_nil] at hend
  rw [trimBlanks, List.append_assoc, dropWhile_isBlank_append hne hcore hfront, List.reverse_append,
    hend, List.reverse_reverse]

end Core

/-! ## Capacities -/

theorem isBlank_of_isDigit {c : Char} (h : c.isDigit = true) : isBlank c = false := by
  simp only [Char.isDigit, ge_iff_le, Bool.and_eq_true, decide_eq_true_eq,
    UInt32.le_iff_toNat_le] at h
  have hn : 48 ≤ c.toNat ∧ c.toNat ≤ 57 := h
  simp only [isBlank, Bool.or_eq_false_iff, Bool.and_eq_false_iff, decide_eq_false_iff_not]
  omega

namespace Environment

/-- A text writes a natural of 64 bits: digits, perhaps behind a plus sign, and blanks around. -/
structure Writes (v : String) (n : Nat) : Prop where
  exists_digits : ∃ sign digits, IsPadded v.toList (sign ++ digits) ∧ (sign = [] ∨ sign = ['+']) ∧
    digits ≠ [] ∧ (∀ c ∈ digits, c.isDigit = true) ∧ naturalOf digits = n
  lt : n < UInt64.size

/-- A number without its plus sign. -/
def unsigned : List Char → List Char
  | '+' :: rest => rest
  | cs => cs

theorem exists_sign (cs : List Char) :
    ∃ sign, (sign = [] ∨ sign = ['+']) ∧ cs = sign ++ unsigned cs := by
  unfold unsigned
  split
  · exact ⟨['+'], .inr rfl, rfl⟩
  · exact ⟨[], .inl rfl, rfl⟩

theorem unsigned_append {sign digits : List Char} (hsign : sign = [] ∨ sign = ['+'])
    (hdigits : ∀ c ∈ digits, c.isDigit = true) : unsigned (sign ++ digits) = digits := by
  rcases hsign with rfl | rfl
  · rw [List.nil_append, unsigned.eq_def]
    split
    · next rest =>
      have hplus := hdigits '+' List.mem_cons_self
      cases hplus
    · rfl
  · rfl

theorem natural?_eq (v : String) :
    natural? v =
      let digits := unsigned (trimBlanks v.toList)
      if digits.isEmpty || !digits.all Char.isDigit then none
      else if naturalOf digits < UInt64.size then some (naturalOf digits) else none := rfl

/-- **A capacity is read exactly where one is written.** -/
theorem natural?_eq_some_iff {v : String} {n : Nat} : natural? v = some n ↔ Writes v n := by
  rw [natural?_eq]
  constructor
  · intro h
    obtain ⟨sign, hsign, htrim⟩ := exists_sign (trimBlanks v.toList)
    simp only at h
    split at h
    · cases h
    · next hdigits =>
      simp only [Bool.or_eq_true, Bool.not_eq_true', not_or, Bool.not_eq_false,
        List.isEmpty_iff, List.all_eq_true] at hdigits
      split at h
      · next hlt =>
        cases h
        exact ⟨⟨sign, _, htrim ▸ isPadded_trimBlanks _, hsign, hdigits.1, hdigits.2, rfl⟩, hlt⟩
      · cases h
  · rintro ⟨⟨sign, digits, hpadded, hsign, hne, hdigits, rfl⟩, hlt⟩
    have hcore : ∀ c ∈ sign ++ digits, isBlank c = false := by
      intro c hc
      rcases List.mem_append.1 hc with hc | hc
      · rcases hsign with rfl | rfl
        · cases hc
        · rw [List.mem_singleton.1 hc]
          decide
      · exact isBlank_of_isDigit (hdigits c hc)
    have htrim : unsigned (trimBlanks v.toList) = digits := by
      rw [trimBlanks_of_isPadded (by simp [hne]) hcore hpadded, unsigned_append hsign hdigits]
    have hall : digits.all Char.isDigit = true := List.all_eq_true.2 hdigits
    simp only [htrim, List.isEmpty_eq_false_iff.2 hne, hall, Bool.not_true, Bool.or_self,
      Bool.false_eq_true, if_false, if_pos hlt]

end Environment

/-! ## Policies -/

namespace DeliveryPolicy

/-- A text names a policy in any case, perhaps with hyphens, and with blanks around. -/
def IsNamedBy (p : DeliveryPolicy) (v : String) : Prop :=
  ∃ core, IsPadded v.toList core ∧
    core.map (fun c => if c = '-' then '_' else c.toLower) = p.name.toList

theorem ofName?_eq_some_iff {name : String} {p : DeliveryPolicy} :
    ofName? name = some p ↔ p.name = name := by
  constructor
  · intro h
    have hfound := List.find?_some h
    exact of_decide_eq_true hfound
  · rintro rfl
    cases p <;> rfl

/-- No blank is a capital letter. -/
theorem toLower_of_isBlank {c : Char} (h : isBlank c = true) : c.toLower = c := by
  unfold Char.toLower
  split
  · next hupper =>
    have hn : 65 ≤ c.toNat ∧ c.toNat ≤ 90 :=
      ⟨UInt32.le_iff_toNat_le.1 hupper.1, UInt32.le_iff_toNat_le.1 hupper.2⟩
    simp only [isBlank, Bool.or_eq_true, Bool.and_eq_true, decide_eq_true_eq] at h
    omega
  · rfl

/-- No blank becomes part of a name. -/
theorem isBlank_of_mem_core {p : DeliveryPolicy} {core : List Char}
    (h : core.map (fun c => if c = '-' then '_' else c.toLower) = p.name.toList) :
    ∀ c ∈ core, isBlank c = false := by
  intro c hc
  have hname : ∀ d ∈ p.name.toList, isBlank d = false := by cases p <;> simp [name, isBlank]
  refine Bool.eq_false_iff.2 fun hblank => ?_
  have hhyphen : c ≠ '-' := by
    rintro rfl
    cases hblank
  have hmem : (if c = '-' then '_' else c.toLower) ∈ p.name.toList := h ▸ List.mem_map_of_mem hc
  rw [if_neg hhyphen, toLower_of_isBlank hblank] at hmem
  exact Bool.false_ne_true ((hname c hmem).symm.trans hblank)

/-- **A policy is read exactly where it is named.** -/
theorem ofText?_eq_some_iff {v : String} {p : DeliveryPolicy} :
    ofText? v = some p ↔ p.IsNamedBy v := by
  rw [ofText?, ofName?_eq_some_iff, normalize]
  constructor
  · intro h
    exact ⟨_, isPadded_trimBlanks _, by rw [h, String.toList_ofList]⟩
  · rintro ⟨core, hpadded, hname⟩
    have hne : core ≠ [] := by
      rintro rfl
      cases p <;> cases hname
    rw [trimBlanks_of_isPadded hne (isBlank_of_mem_core hname) hpadded, hname, String.ofList_toList]

end DeliveryPolicy

end FlagFanout
