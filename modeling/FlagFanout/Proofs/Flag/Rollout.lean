import FlagFanout.Flag.Evaluation

/-!
# Widening a rollout

The percentage of a rollout is compared with the bucket of a context, and the bucket depends on the
key of the flag and the text of the attribute only. So a greater percentage reaches whom a smaller
one reached (`Flag.reaches_mono`), zero reaches nobody, and a hundred or more everybody who has a
text or a number there (`Flag.reaches_of_hundred_le`).

Rules come before the rollout, so none of this concerns a context for which a rule decides. The main
statement is `Flag.widens`: if only the percentage is raised, the answers of a flag stay what they
were, or change from the default variant to that of the rollout.
-/

namespace FlagFanout

/-- A rollout at another percentage. -/
def Rollout.withPercentage (r : Rollout) (percentage : UInt32) : Rollout := { r with percentage }

namespace Flag

/-! ## Whom a rollout reaches -/

/-- There are a hundred buckets. -/
theorem bucket_lt (key text : String) : bucket key text < 100 := by
  rw [UInt32.lt_iff_toNat_lt, bucket, UInt32.toNat_mod]
  exact Nat.mod_lt _ (by decide)

/-- The bucket of a context; a context with nothing or a list at the attribute has none. -/
def bucket? (key attributeKey : String) (c : Context) : Option UInt32 :=
  ((c.get? attributeKey).bind Attribute.asText?).map (bucket key)

variable (key : String) (r : Rollout) (c : Context) {p q : UInt32}

/-- The percentage has no part in the bucket. -/
theorem reaches_withPercentage (p : UInt32) :
    reaches key (r.withPercentage p) c = (bucket? key r.attributeKey c).any (· < p) := by
  rw [bucket?, Option.any_map]
  rfl

theorem lt_hundred_of_bucket? {b : UInt32} {attributeKey : String}
    (h : bucket? key attributeKey c = some b) : b < 100 := by
  obtain ⟨text, -, rfl⟩ := Option.map_eq_some_iff.1 h
  exact bucket_lt key text

/-- **Whom a percentage reaches, a greater one reaches too.** -/
theorem reaches_mono (hle : p ≤ q) (h : reaches key (r.withPercentage p) c = true) :
    reaches key (r.withPercentage q) c = true := by
  rw [reaches_withPercentage, Option.any_eq_true] at h ⊢
  obtain ⟨b, hb, hlt⟩ := h
  refine ⟨b, hb, ?_⟩
  simp only [decide_eq_true_eq, UInt32.lt_iff_toNat_lt, UInt32.le_iff_toNat_le] at hlt hle ⊢
  omega

theorem reaches_zero : reaches key (r.withPercentage 0) c = false := by
  rw [reaches_withPercentage, Option.any_eq_false]
  intro b _
  simp [UInt32.lt_iff_toNat_lt]

/-- **A hundred percent or more reach everybody** who has a bucket. -/
theorem reaches_of_hundred_le (hp : 100 ≤ p) :
    reaches key (r.withPercentage p) c = (bucket? key r.attributeKey c).isSome := by
  rw [reaches_withPercentage]
  cases hb : bucket? key r.attributeKey c with
  | none => rfl
  | some b =>
    have hlt := lt_hundred_of_bucket? key c hb
    simp only [Option.any_some, Option.isSome_some, decide_eq_true_eq]
    rw [UInt32.lt_iff_toNat_lt, UInt32.le_iff_toNat_le] at *
    omega

/-- A text or a number has a bucket. -/
theorem isSome_bucket? {attributeKey : String} {a : Attribute} (ha : c.get? attributeKey = some a)
    (hlist : ∀ items, a ≠ .list items) : (bucket? key attributeKey c).isSome = true := by
  rw [bucket?, ha]
  cases a with
  | text s => rfl
  | number x => rfl
  | list items => exact absurd rfl (hlist items)

/-! ## What the flag serves -/

/-- The flag with a rollout at a given percentage. -/
def rolledOut (f : Flag) (r : Rollout) (p : UInt32) : Flag := f.withRollout (r.withPercentage p)

/-- The flag without a rollout. -/
def withoutRollout (f : Flag) : Flag := { f with rollout := none }

variable (f : Flag)

/-- The first rule that holds decides, and only where there is none it is for the rollout. -/
theorem evaluateFor_rolledOut (p : UInt32) :
    (f.rolledOut r p).evaluateFor c =
      (f.rules.find? (·.matches c)).elim
        (if reaches f.key (r.withPercentage p) c then r.variant.served else f.fallback.served)
        (·.variant.served) := by
  have hrules : (f.rolledOut r p).rules = f.rules := rfl
  rw [evaluateFor, hrules]
  cases f.rules.find? (·.matches c) <;> rfl

theorem evaluateFor_withoutRollout :
    f.withoutRollout.evaluateFor c =
      (f.rules.find? (·.matches c)).elim f.fallback.served (·.variant.served) := by
  have hrules : f.withoutRollout.rules = f.rules := rfl
  rw [evaluateFor, hrules]
  cases f.rules.find? (·.matches c) <;> rfl

/-- **A greater percentage serves the same**, or the variant of the rollout in place of the default
one. -/
theorem evaluate_rolledOut_mono (hle : p ≤ q) (request : Option Context) :
    (f.rolledOut r p).evaluate request = (f.rolledOut r q).evaluate request ∨
      (f.rolledOut r p).evaluate request = f.fallback.served ∧
        (f.rolledOut r q).evaluate request = r.variant.served := by
  cases request with
  | none => exact .inl rfl
  | some c =>
    simp only [evaluate, evaluateFor_rolledOut]
    cases f.rules.find? (·.matches c) with
    | some rule =>
      left
      rw [Option.elim_some, Option.elim_some]
    | none =>
      cases hreached : reaches f.key (r.withPercentage p) c with
      | true => simp [reaches_mono f.key r c hle hreached]
      | false => cases reaches f.key (r.withPercentage q) c <;> simp

variable {c}

/-- Where a rule holds the percentage does not matter. -/
theorem evaluateFor_rolledOut_of_rule (h : ∃ rule ∈ f.rules, rule.matches c = true)
    (p q : UInt32) : (f.rolledOut r p).evaluateFor c = (f.rolledOut r q).evaluateFor c := by
  obtain ⟨rule, hfind⟩ := Option.isSome_iff_exists.1 (List.find?_isSome.2 h)
  rw [evaluateFor_rolledOut, evaluateFor_rolledOut, hfind, Option.elim_some, Option.elim_some]

/-- At zero there might as well be no rollout. -/
theorem evaluate_rolledOut_zero (request : Option Context) :
    (f.rolledOut r 0).evaluate request = f.withoutRollout.evaluate request := by
  cases request with
  | none => rfl
  | some c =>
    simp only [evaluate, evaluateFor_rolledOut, evaluateFor_withoutRollout, reaches_zero,
      Bool.false_eq_true, if_false]

/-- From a hundred on everybody else is served the variant of the rollout. -/
theorem evaluateFor_rolledOut_of_hundred_le (hp : 100 ≤ p)
    (hnone : ∀ rule ∈ f.rules, rule.matches c = false) {a : Attribute}
    (ha : c.get? r.attributeKey = some a) (hlist : ∀ items, a ≠ .list items) :
    (f.rolledOut r p).evaluateFor c = r.variant.served := by
  have hfind : f.rules.find? (·.matches c) = none :=
    List.find?_eq_none.2 fun rule hrule => by simp [hnone rule hrule]
  rw [evaluateFor_rolledOut, hfind, Option.elim_none, reaches_of_hundred_le f.key r c hp,
    isSome_bucket? f.key c ha hlist, if_pos rfl]

/-- How the answer to a request depends on the percentage of a rollout. -/
structure Widens (f : Flag) (r : Rollout) (request : Option Context) : Prop where
  /-- A greater percentage serves the same, or the variant of the rollout in place of the
  default. -/
  mono : ∀ p q, p ≤ q →
    (f.rolledOut r p).evaluate request = (f.rolledOut r q).evaluate request ∨
      (f.rolledOut r p).evaluate request = f.fallback.served ∧
        (f.rolledOut r q).evaluate request = r.variant.served
  /-- Where a rule holds every percentage serves the same. -/
  of_rule : ∀ c, request = some c → (∃ rule ∈ f.rules, rule.matches c = true) →
    ∀ p q, (f.rolledOut r p).evaluate request = (f.rolledOut r q).evaluate request
  zero : (f.rolledOut r 0).evaluate request = f.withoutRollout.evaluate request
  /-- From a hundred on all others are reached who have a text or a number at the attribute. -/
  hundred : ∀ p, 100 ≤ p → ∀ c, request = some c → (∀ rule ∈ f.rules, rule.matches c = false) →
    ∀ a, c.get? r.attributeKey = some a → (∀ items, a ≠ .list items) →
      (f.rolledOut r p).evaluate request = r.variant.served

/-- **Widening a rollout** gives some the variant of the rollout in place of the default one, and
disturbs nobody else. -/
theorem widens (f : Flag) (r : Rollout) (request : Option Context) : f.Widens r request where
  mono _ _ hle := f.evaluate_rolledOut_mono r hle request
  of_rule c hc hrule p q := by
    subst hc
    exact f.evaluateFor_rolledOut_of_rule r hrule p q
  zero := f.evaluate_rolledOut_zero r request
  hundred p hp c hc hnone a ha hlist := by
    subst hc
    exact f.evaluateFor_rolledOut_of_hundred_le r hp hnone ha hlist

/-- A context in bucket 75: at 75 percent it is not reached, at 76 it is. -/
theorem widens_past_bucket :
    ∃ (f : Flag) (r : Rollout) (c : Context), bucket? f.key r.attributeKey c = some 75 ∧
      (f.rolledOut r 75).evaluate (some c) = ⟨.bool false, "off"⟩ ∧
      (f.rolledOut r 76).evaluate (some c) = ⟨.bool true, "on"⟩ ∧ f.Widens r (some c) :=
  ⟨.ofVariant "f" ⟨"off", .bool false⟩, ⟨"id", 0, ⟨"on", .bool true⟩⟩,
    Context.empty.withAttribute "id" (.text "u"), by decide, by decide, by decide, widens _ _ _⟩

end Flag

end FlagFanout
