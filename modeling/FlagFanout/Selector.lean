/-!
# What a connection watches

A connection watches one flag or all flags of its project. Raw keys name both: the reserved key
`[ALL]` selects every flag, any other key is a flag.
-/

namespace FlagFanout

/-- One flag, or every flag of a project. -/
inductive Selector where
  | flag (key : String)
  | all
  deriving DecidableEq, Repr, Inhabited

namespace Selector

/-- The reserved key that selects every flag. -/
def allKey : String := "[ALL]"

/-- What a raw key selects. -/
def ofKey (key : String) : Selector := if key = allKey then all else flag key

/-- The key that is written for a selector. -/
def key : Selector → String
  | flag key => key
  | all => allKey

/-- Whether every flag is selected. -/
def isAll : Selector → Bool
  | flag _ => false
  | all => true

/-- Flags come in the order of their keys, before the selection of all. -/
protected def compare : Selector → Selector → Ordering
  | flag a, flag b => compare a b
  | flag _, all => .lt
  | all, flag _ => .gt
  | all, all => .eq

instance : Ord Selector := ⟨Selector.compare⟩

@[simp] theorem compare_flag_flag (a b : String) : compare (flag a) (flag b) = compare a b := rfl

@[simp] theorem compare_flag_all (a : String) : compare (flag a) all = .lt := rfl

@[simp] theorem compare_all_flag (a : String) : compare all (flag a) = .gt := rfl

@[simp] theorem compare_all_all : compare all all = .eq := rfl

instance : Std.TransOrd Selector where
  eq_swap {a b} := by
    cases a with
    | all => cases b <;> simp
    | flag a =>
      cases b with
      | all => simp
      | flag b =>
        rw [compare_flag_flag, compare_flag_flag]
        exact Std.OrientedCmp.eq_swap
  isLE_trans {a b c} h h' := by
    cases c with
    | all => cases a <;> simp
    | flag c =>
      cases b with
      | all => simp at h'
      | flag b =>
        cases a with
        | all => simp at h
        | flag a =>
          rw [compare_flag_flag] at h h' ⊢
          exact Std.TransCmp.isLE_trans h h'

instance : Std.LawfulEqOrd Selector where
  compare_self := Std.ReflCmp.compare_self
  eq_of_compare {a b} h := by
    cases a <;> cases b <;> simp_all

/-- Writing a selector and reading it back gives the same one, but for a flag that has the
reserved key. -/
theorem ofKey_key {s : Selector} (h : s ≠ flag allKey) : ofKey s.key = s := by
  cases s with
  | all => rfl
  | flag k =>
    have hk : k ≠ allKey := fun hk => h (hk ▸ rfl)
    simp [key, ofKey, hk]

end Selector

end FlagFanout
