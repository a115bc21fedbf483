import FlagFanout.Flag.Evaluation
import Mathlib.Data.List.Find

/-!
# Which attributes a flag reads

A flag names attributes, in the conditions of its rules and in its rollout (`Flag.Names`), and it
looks at no others. So whatever else a context tells of a user, it neither changes nor shows in what
the flag serves.

An attribute that is missing fails the condition that names it, whatever its operator is: also
`notEquals` and `noneOf` ask for an attribute that is there. A context without any of the named
attributes is therefore served like no context at all, but for rules without conditions, which hold
of every context and are not tried without one.

The main statement is `Flag.reads_named`.
-/

namespace FlagFanout

/-- Two contexts hold the same, or both nothing, under all keys of a kind. -/
def Context.AgreeOn (keys : String → Prop) (c d : Context) : Prop :=
  ∀ key, keys key → c.get? key = d.get? key

/-- A context holds nothing under any key of a kind. -/
def Context.Lacks (keys : String → Prop) (c : Context) : Prop := ∀ key, keys key → c.get? key = none

/-! ## Conditions -/

namespace Condition

variable (cond : Condition) {c d : Context}

theorem matches_congr (h : c.get? cond.attributeKey = d.get? cond.attributeKey) :
    cond.matches c = cond.matches d := by
  rw [Condition.matches, h, Condition.matches]

/-- **A missing attribute fails every operator**, the negative ones included. -/
theorem matches_of_missing (h : c.get? cond.attributeKey = none) : cond.matches c = false := by
  rw [Condition.matches, h, Option.any_none]

end Condition

/-! ## Rules -/

namespace Rule

/-- Some condition of the rule is about the attribute. -/
def Names (r : Rule) (key : String) : Prop := ∃ cond ∈ r.conditions, cond.attributeKey = key

variable {r : Rule} {c d : Context}

theorem matches_congr (h : ∀ cond ∈ r.conditions, cond.matches c = cond.matches d) :
    r.matches c = r.matches d := by
  unfold Rule.matches
  rw [Bool.eq_iff_iff, List.all_eq_true, List.all_eq_true]
  refine forall₂_congr fun cond hcond => ?_
  rw [h cond hcond]

theorem matches_of_agreeOn (h : c.AgreeOn r.Names d) : r.matches c = r.matches d :=
  matches_congr fun cond hcond => cond.matches_congr (h cond.attributeKey ⟨cond, hcond, rfl⟩)

/-- One condition is enough for a rule to fail. -/
theorem matches_of_lacks (hcond : r.conditions ≠ []) (h : c.Lacks r.Names) :
    r.matches c = false := by
  obtain ⟨cond, hmem⟩ := List.exists_mem_of_ne_nil _ hcond
  have hmissing := cond.matches_of_missing (h cond.attributeKey ⟨cond, hmem, rfl⟩)
  rw [Rule.matches, List.all_eq_false]
  exact ⟨cond, hmem, by simp [hmissing]⟩

end Rule

/-! ## Flags -/

namespace Flag

/-- Some rule of the flag names the attribute, or its rollout is by the attribute. -/
def Names (f : Flag) (key : String) : Prop :=
  (∃ r ∈ f.rules, r.Names key) ∨ ∃ r, f.rollout = some r ∧ r.attributeKey = key

variable {f : Flag} {c d : Context}

/-- Contexts are served alike for which the same rules hold and which a rollout reaches alike. -/
theorem evaluateFor_congr (hrules : ∀ r ∈ f.rules, r.matches c = r.matches d)
    (hrollout : ∀ r, f.rollout = some r → reaches f.key r c = reaches f.key r d) :
    f.evaluateFor c = f.evaluateFor d := by
  have hfind : f.rules.find? (·.matches c) = f.rules.find? (·.matches d) := List.find?_congr hrules
  unfold evaluateFor
  rw [hfind]
  cases hr : f.rollout with
  | none => rfl
  | some r => simp only [hrollout r hr]

theorem reaches_of_agreeOn {key : String} {r : Rollout} (hr : f.rollout = some r)
    (h : c.AgreeOn f.Names d) : reaches key r c = reaches key r d := by
  rw [reaches, h r.attributeKey (.inr ⟨r, hr, rfl⟩), reaches]

/-- **Contexts that agree on the named attributes are served alike.** -/
theorem evaluateFor_of_agreeOn (h : c.AgreeOn f.Names d) : f.evaluateFor c = f.evaluateFor d :=
  evaluateFor_congr
    (fun r hr => Rule.matches_of_agreeOn fun key hkey => h key (.inl ⟨r, hr, hkey⟩))
    fun _ hr => reaches_of_agreeOn hr h

theorem find?_of_lacks (hrules : ∀ r ∈ f.rules, r.conditions ≠ []) (h : c.Lacks f.Names) :
    f.rules.find? (·.matches c) = none := by
  rw [List.find?_eq_none]
  intro r hr
  have hfails := Rule.matches_of_lacks (hrules r hr) fun key hkey => h key (.inl ⟨r, hr, hkey⟩)
  simp [hfails]

theorem reaches_of_lacks {key : String} {r : Rollout} (hr : f.rollout = some r)
    (h : c.Lacks f.Names) : reaches key r c = false := by
  rw [reaches, h r.attributeKey (.inr ⟨r, hr, rfl⟩)]
  rfl

/-- **A context without the named attributes is served the default variant**, unless a rule has no
condition. -/
theorem evaluateFor_of_lacks (hrules : ∀ r ∈ f.rules, r.conditions ≠ []) (h : c.Lacks f.Names) :
    f.evaluateFor c = f.fallback.served := by
  unfold evaluateFor
  rw [find?_of_lacks hrules h]
  cases hrollout : f.rollout with
  | none => rfl
  | some r => simp only [reaches_of_lacks hrollout h, Bool.false_eq_true, if_false]

/-- What a flag serves is settled by the attributes that it names. -/
structure ReadsNamed (f : Flag) : Prop where
  /-- Two contexts that agree there are served the same evaluation. -/
  agree : ∀ c d, c.AgreeOn f.Names d → f.evaluate (some c) = f.evaluate (some d)
  /-- A condition on an attribute that is missing does not hold. -/
  missing : ∀ r ∈ f.rules, ∀ cond ∈ r.conditions, ∀ c : Context,
    c.get? cond.attributeKey = none → cond.matches c = false
  /-- If every rule has a condition, a context with none of them is served like no context: the
  default variant. -/
  lack : (∀ r ∈ f.rules, r.conditions ≠ []) → ∀ c, c.Lacks f.Names →
    f.evaluate none = f.evaluate (some c) ∧ f.evaluate none = f.fallback.served

/-- **A flag reads the attributes that it names**, and no others. -/
theorem reads_named (f : Flag) : f.ReadsNamed where
  agree _ _ h := evaluateFor_of_agreeOn h
  missing _ _ cond _ _ h := cond.matches_of_missing h
  lack hrules _ h := ⟨(evaluateFor_of_lacks hrules h).symm, rfl⟩

/-- A flag with two negative conditions and a rollout by lists. An attribute that it does not name
makes no difference, and a context with nothing but that one is served like none. -/
theorem reads_named_of_negative_conditions :
    ∃ (f : Flag) (c d e : Context), c ≠ d ∧ c.AgreeOn f.Names d ∧
      f.evaluate (some c) = ⟨.bool true, "on"⟩ ∧ (∀ r ∈ f.rules, r.conditions ≠ []) ∧
      e ≠ .empty ∧ e.Lacks f.Names ∧ f.ReadsNamed := by
  let f : Flag :=
    ((Flag.ofVariant "f" ⟨"off", .bool false⟩).withRule
      ⟨[⟨"plan", .notEquals, .text "guest"⟩, ⟨"country", .noneOf, .list ["HU"]⟩],
        ⟨"on", .bool true⟩⟩).withRollout ⟨"groups", 100, ⟨"part", .bool true⟩⟩
  let c : Context :=
    ⟨.ofList [("plan", .text "pro"), ("country", .text "AT"), ("groups", .list ["a"])]⟩
  have hnames : ∀ key, f.Names key → key ≠ "age" := by
    rintro key hkey rfl
    simp [Names, Rule.Names, f, Flag.ofVariant, withRule, withRollout] at hkey
  have hage : ∀ (d : Context) key, f.Names key →
      (d.withAttribute "age" (.text "7")).get? key = d.get? key := fun d key hkey => by
    change (d.attributes.insert "age" _).get? key = _
    rw [KeyMap.get?_insert, if_neg (hnames key hkey)]
    rfl
  refine ⟨f, c, c.withAttribute "age" (.text "7"), Context.empty.withAttribute "age" (.text "7"),
    fun h => ?_, fun key hkey => (hage c key hkey).symm, by decide,
    by simp [f, Flag.ofVariant, withRule, withRollout], fun h => ?_,
    fun key hkey => hage _ key hkey, reads_named f⟩
  · exact absurd (congrArg (·.get? "age") h) (by decide)
  · exact absurd (congrArg (·.get? "age") h) (by decide)

end Flag

end FlagFanout
