import FlagFanout.Context.Fingerprint
import FlagFanout.Engine.Store
import FlagFanout.Proofs.Context.Equality
import FlagFanout.Proofs.Flag.Attributes

/-!
# What a flag sees of a context

Most operators compare an attribute by its value, and then a zero has no sign. Two things go through
the text of an attribute instead: a condition that looks it up in a list, and the bucket of a
rollout. There the two zeros differ, for the negative one is written with its sign.

So equal contexts are served alike by every flag that reads no text where they hold different zeros,
and by no more than that: contexts that every flag serves alike are identical
(`Context.servedAlike_of_beq`). Grouping by equality is coarser than that, and a channel may hold
two connections that are owed different answers (`Context.exists_grouped_served_apart`).
-/

namespace FlagFanout

/-! ## Operators -/

namespace Operator

/-- Whether an operator looks at the text of an attribute that is not one. -/
def readsText : Operator → Bool
  | oneOf | noneOf => true
  | _ => false

theorem onNumbers_number (test : Binary64 → Binary64 → Bool) (x : Binary64) (expected : Attribute) :
    onNumbers test (.number x) expected = (numberOf? expected).any (test x) := by
  simp only [onNumbers, numberOf?.eq_1]
  cases numberOf? expected <;> rfl

theorem holds_oneOf_list (a : Attribute) (items : List String) :
    oneOf.holds a (.list items) = a.asText?.any items.contains := by
  cases a <;> rfl

/-- The other operators do not see the sign of a zero. -/
theorem holds_zero {o : Operator} (ho : o.readsText = false) (negative : Bool)
    (expected : Attribute) :
    o.holds (.number (.zero negative)) expected = o.holds (.number (.zero !negative)) expected := by
  have hbeq : ∀ y : Binary64, (Binary64.zero negative == y) = (Binary64.zero (!negative) == y) := by
    intro y
    cases negative <;> rfl
  have hequals : equals.holds (.number (.zero negative)) expected =
      equals.holds (.number (.zero !negative)) expected := by
    cases expected with
    | number y => exact hbeq y
    | text s => rfl
    | list items => rfl
  have hgreater : ∀ y : Binary64, y.lt (.zero negative) = y.lt (.zero !negative) := by
    intro y
    cases negative <;> rfl
  have hless : ∀ y : Binary64, (Binary64.zero negative).lt y = (Binary64.zero !negative).lt y := by
    intro y
    cases negative <;> rfl
  cases o with
  | equals => exact hequals
  | notEquals => exact congrArg not hequals
  | greaterThan => simp only [holds, onNumbers_number, hgreater]
  | lessThan => simp only [holds, onNumbers_number, funext hless]
  | oneOf | noneOf => cases ho
  | _ => rfl

end Operator

/-! ## Conditions and rules -/

/-- Alike contexts meet a condition alike, if they agree on the attribute wherever its text is
read. -/
theorem Condition.matches_of_alike {cond : Condition} {c d : Context} (h : c.Alike d)
    (hread : cond.operator.readsText = true →
      c.get? cond.attributeKey = d.get? cond.attributeKey) :
    cond.matches c = cond.matches d := by
  unfold Condition.matches
  rcases h cond.attributeKey with heq | ⟨negative, hc, hd⟩
  · rw [heq]
  · cases ho : cond.operator.readsText with
    | true => rw [hread ho]
    | false =>
      rw [hc, hd]
      exact Operator.holds_zero ho negative cond.expected

/-- The same for a rule. -/
theorem Rule.matches_of_alike {r : Rule} {c d : Context} (h : c.Alike d)
    (hread : ∀ cond ∈ r.conditions, cond.operator.readsText = true →
      c.get? cond.attributeKey = d.get? cond.attributeKey) :
    r.matches c = r.matches d :=
  matches_congr fun cond hcond => Condition.matches_of_alike h (hread cond hcond)

/-! ## Flags -/

namespace Flag

/-- A flag reads the text of an attribute: some condition looks it up in a list, or it decides the
bucket of the rollout. -/
def ReadsText (f : Flag) (key : String) : Prop :=
  (∃ r ∈ f.rules, ∃ cond ∈ r.conditions,
    cond.operator.readsText = true ∧ cond.attributeKey = key) ∨
  ∃ r, f.rollout = some r ∧ r.attributeKey = key

/-- **Alike contexts are served alike**, if they agree on the attributes whose text the flag
reads. -/
theorem evaluateFor_of_alike {f : Flag} {c d : Context} (h : c.Alike d)
    (hread : ∀ key, f.ReadsText key → c.get? key = d.get? key) :
    f.evaluateFor c = f.evaluateFor d := by
  have hrules : ∀ r ∈ f.rules, r.matches c = r.matches d := fun r hr =>
    Rule.matches_of_alike h fun cond hcond ho =>
      hread cond.attributeKey (.inl ⟨r, hr, cond, hcond, ho, rfl⟩)
  have hrollout : ∀ r, f.rollout = some r → reaches f.key r c = reaches f.key r d := by
    intro r hr
    unfold reaches
    rw [hread r.attributeKey (.inr ⟨r, hr, rfl⟩)]
  exact evaluateFor_congr hrules hrollout

/-- A flag that is on where an attribute has one text, and off elsewhere. -/
def onText (key text : String) : Flag :=
  (ofVariant "onText" ⟨"off", .bool false⟩).withRule
    ⟨[⟨key, .oneOf, .list [text]⟩], ⟨"on", .bool true⟩⟩

theorem evaluateFor_onText (key text : String) (c : Context) :
    (onText key text).evaluateFor c =
      if (c.get? key).bind Attribute.asText? = some text then ⟨.bool true, "on"⟩
      else ⟨.bool false, "off"⟩ := by
  have hmatch : (⟨key, .oneOf, .list [text]⟩ : Condition).matches c =
      decide ((c.get? key).bind Attribute.asText? = some text) := by
    unfold Condition.matches
    cases c.get? key with
    | none => rfl
    | some a =>
      rw [Option.any_some, Option.bind_some, Operator.holds_oneOf_list]
      cases a.asText? with
      | none => rfl
      | some t => simp
  simp only [onText, ofVariant, withRule, evaluateFor, List.nil_append, List.find?_cons,
    List.find?_nil, Rule.matches, List.all_cons, List.all_nil, Bool.and_true, hmatch]
  by_cases h : (c.get? key).bind Attribute.asText? = some text
  · simp only [h, decide_true, if_true, Variant.served]
  · simp only [h, decide_false, if_false, Variant.served]

end Flag

/-! ## Stores -/

/-- A store serves alike contexts alike, if they agree on the attributes whose text its flags
read. -/
theorem FlagStore.evaluate_of_alike {s : FlagStore} {c d : Context} (h : c.Alike d)
    (hread : ∀ flags key f, s.flags = some flags → flags.get? key = some f →
      ∀ k, f.ReadsText k → c.get? k = d.get? k) (key : String) :
    s.evaluate key (some c) = s.evaluate key (some d) ∧
      (s.evaluateAll (some c)).get? key = (s.evaluateAll (some d)).get? key := by
  have hflag : ∀ flags f, s.flags = some flags → flags.get? key = some f →
      f.evaluate (s.effective (some c)) = f.evaluate (s.effective (some d)) := by
    intro flags f hflags hf
    have hk := hread flags key f hflags hf
    unfold effective
    cases s.defaults with
    | none => exact Flag.evaluateFor_of_alike h hk
    | some defaults =>
      refine Flag.evaluateFor_of_alike (h.mergedWith defaults) fun k hkread => ?_
      rw [Context.get?_mergedWith, Context.get?_mergedWith, hk k hkread]
  unfold evaluate evaluateAll
  cases hflags : s.flags with
  | none => exact ⟨rfl, rfl⟩
  | some flags =>
    simp only [Option.getD_some, KeyMap.get?_mapValues]
    cases hf : flags.get? key with
    | none => exact ⟨rfl, rfl⟩
    | some f =>
      simp only [hflag flags f hflags hf, Option.map_some, and_self]

/-! ## Equal contexts -/

namespace Context

/-- What equal contexts have in common. -/
structure ServedAlike (c d : Context) : Prop where
  /-- A flag serves them the same value and variation, if they hold the same attributes where it
  reads a text. -/
  flag : ∀ f : Flag, (∀ key, f.ReadsText key → c.get? key = d.get? key) →
    f.evaluate (some c) = f.evaluate (some d)
  /-- A store of such flags, with default attributes or without, serves them the same, flag by flag
  and all at once. -/
  store : ∀ s : FlagStore,
    (∀ flags key f, s.flags = some flags → flags.get? key = some f →
      ∀ k, f.ReadsText k → c.get? k = d.get? k) →
    (∀ key, s.evaluate key (some c) = s.evaluate key (some d)) ∧
      s.evaluateAll (some c) = s.evaluateAll (some d)
  /-- Every flag serves them the same only if they are identical, signs of zeros included. -/
  identical : (∀ f : Flag, f.evaluate (some c) = f.evaluate (some d)) ↔ c = d

/-- **Equal contexts are served alike** wherever no text tells their zeros apart, and only there. -/
theorem servedAlike_of_beq {c d : Context} (h : (c == d) = true) : c.ServedAlike d where
  flag _ hread := Flag.evaluateFor_of_alike (alike_of_beq h) hread
  store s hread := by
    have hserved := fun key => FlagStore.evaluate_of_alike (alike_of_beq h) hread key
    exact ⟨fun key => (hserved key).1, KeyMap.ext_get? fun key => (hserved key).2⟩
  identical := by
    constructor
    · intro hall
      refine ext_get? fun key => ?_
      rcases alike_of_beq h key with heq | ⟨negative, hc, hd⟩
      · exact heq
      -- the flag that is on for the text of the one zero is off for the other
      · have hflag : (Flag.onText key (Layout.plain.write (.zero negative))).evaluateFor c =
            (Flag.onText key (Layout.plain.write (.zero negative))).evaluateFor d :=
          hall (Flag.onText key (Layout.plain.write (.zero negative)))
        rw [Flag.evaluateFor_onText, Flag.evaluateFor_onText, hc, hd] at hflag
        have hne := Binary64.write_zero_ne negative
        simp [Attribute.asText?, hne.symm] at hflag
    · rintro rfl f
      rfl

/-- A context with a zero under `n`. -/
def ofZero (negative : Bool) : Context := empty.withAttribute "n" (.number (.zero negative))

/-- The two zeros make equal contexts, and a flag that asks for numbers below one serves both the
same. -/
theorem zeros_served_alike :
    (ofZero false == ofZero true) = true ∧ ofZero false ≠ ofZero true ∧
      (ofZero false).ServedAlike (ofZero true) :=
  ⟨by decide, fun h => absurd (congrArg (·.get? "n") h) (by decide), servedAlike_of_beq (by decide)⟩

/-- Two contexts may be equal, be laid out as the same bytes and so share a channel, and yet a flag
serves them different values. -/
theorem exists_grouped_served_apart :
    ∃ (f : Flag) (c d : Context), (c == d) = true ∧ c.bytes = d.bytes ∧
      f.evaluate (some c) = ⟨.bool true, "on"⟩ ∧ f.evaluate (some d) = ⟨.bool false, "off"⟩ :=
  ⟨.onText "n" "0", ofZero false, ofZero true, by decide, by decide, by decide, by decide⟩

end Context

end FlagFanout
