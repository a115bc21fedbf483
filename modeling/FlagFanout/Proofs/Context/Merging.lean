import FlagFanout.Proofs.Context.Equality
import FlagFanout.Proofs.Json.Wire
import FlagFanout.Proofs.Text.Order

/-!
# Laying contexts over each other

A context is determined by the values of its keys, and where two are merged the upper one decides
(`Context.get?_mergedWith`). So all laws of merging are laws of the choice between two optional
values: contexts form a monoid in which everything is idempotent.

A context that is built attribute by attribute is the product of contexts with one attribute each
(`Context.built_eq_foldl`), hence the last value given for a key is all that counts
(`Context.get?_built`), also for what is written of it. The main statement is
`Context.merges_lawfully`.
-/

namespace FlagFanout.Context

@[simp] theorem get?_empty (key : String) : empty.get? key = none := rfl

@[simp] theorem get?_withAttribute (c : Context) (key : String) (a : Attribute) (key' : String) :
    (c.withAttribute key a).get? key' = if key' = key then some a else c.get? key' :=
  KeyMap.get?_insert ..

/-! ## A monoid -/

theorem mergedWith_assoc (a b c : Context) :
    (a.mergedWith b).mergedWith c = a.mergedWith (b.mergedWith c) :=
  ext_get? fun key => by simp only [get?_mergedWith, Option.or_assoc]

@[simp] theorem empty_mergedWith (c : Context) : empty.mergedWith c = c :=
  ext_get? fun key => by rw [get?_mergedWith, get?_empty, Option.or_none]

@[simp] theorem mergedWith_empty (c : Context) : c.mergedWith empty = c :=
  ext_get? fun key => by rw [get?_mergedWith, get?_empty, Option.none_or]

@[simp] theorem mergedWith_self (c : Context) : c.mergedWith c = c :=
  ext_get? fun key => by rw [get?_mergedWith, Option.or_self]

instance : Std.Associative mergedWith := ⟨mergedWith_assoc⟩

instance : Std.LawfulIdentity mergedWith empty where
  left_id := empty_mergedWith
  right_id := mergedWith_empty

instance : Std.IdempotentOp mergedWith := ⟨mergedWith_self⟩

/-! ## Attribute by attribute -/

/-- The context of one attribute. -/
def single (key : String) (a : Attribute) : Context := empty.withAttribute key a

/-- The context to which attributes come that are set one after the other. -/
def built (given : List (String × Attribute)) : Context :=
  given.foldl (fun c e => c.withAttribute e.1 e.2) empty

/-- The last value given for a key. -/
def lastGiven? (key : String) (given : List (String × Attribute)) : Option Attribute :=
  (given.reverse.find? (·.1 = key)).map (·.2)

theorem withAttribute_eq_mergedWith (c : Context) (key : String) (a : Attribute) :
    c.withAttribute key a = c.mergedWith (single key a) :=
  ext_get? fun key' => by
    rw [get?_withAttribute, get?_mergedWith, single, get?_withAttribute, get?_empty]
    split <;> rfl

theorem foldl_withAttribute (c : Context) (given : List (String × Attribute)) :
    given.foldl (fun c e => c.withAttribute e.1 e.2) c =
      (given.map fun e => single e.1 e.2).foldl mergedWith c := by
  induction given generalizing c with
  | nil => rfl
  | cons e rest ih => rw [List.foldl_cons, ih, withAttribute_eq_mergedWith, List.map_cons,
      List.foldl_cons]

/-- **Setting attributes is merging contexts** of one attribute each. -/
theorem built_eq_foldl (given : List (String × Attribute)) :
    built given = (given.map fun e => single e.1 e.2).foldl mergedWith empty :=
  foldl_withAttribute empty given

/-- What is given later lies on top of what was given earlier. -/
theorem built_append (given later : List (String × Attribute)) :
    built (given ++ later) = (built given).mergedWith (built later) := by
  have hassoc : ∀ (l : List Context) (c : Context),
      l.foldl mergedWith c = c.mergedWith (l.foldl mergedWith empty) := fun l c => by
    have hop : l.foldl mergedWith (c.mergedWith empty) = c.mergedWith (l.foldl mergedWith empty) :=
      List.foldl_assoc
    rw [← hop, mergedWith_empty]
  rw [built, List.foldl_append, foldl_withAttribute, hassoc, ← built_eq_foldl, ← built]

/-- **The last value given for a key stands.** -/
theorem get?_built (given : List (String × Attribute)) (key : String) :
    (built given).get? key = lastGiven? key given := by
  have hattributes : ∀ (l : List (String × Attribute)) (c : Context),
      (l.foldl (fun c e => c.withAttribute e.1 e.2) c).attributes =
        l.foldl (fun m e => m.insert e.1 e.2) c.attributes := fun l => by
    induction l with
    | nil => exact fun _ => rfl
    | cons e rest ih => exact fun c => ih _
  rw [get?, built, hattributes, KeyMap.get?_foldl_insert, KeyMap.lookup_eq_find?, lastGiven?]
  exact Option.or_none

/-! ## The order of the keys -/

/-- The keys of a context are in the order of their bytes, each once. -/
theorem keys_pairwise (c : Context) :
    c.attributes.keys.Pairwise fun key key' => utf8 key < utf8 key' :=
  List.pairwise_map.2 (c.attributes.sorted.imp compare_eq_lt_iff.1)

/-- What is written for a context: its attributes in the order of their keys. -/
structure IsWrittenAs (c : Context) (members : List (String × Json)) : Prop where
  toJson_eq : c.toJson = .obj members
  keys_pairwise : (members.map (·.1)).Pairwise fun key key' => utf8 key < utf8 key'
  lastMember?_eq : ∀ key, Json.lastMember? key members = (c.get? key).map Attribute.toJson

theorem isWrittenAs (c : Context) :
    c.IsWrittenAs (c.attributes.toList.map fun e => (e.1, e.2.toJson)) where
  toJson_eq := rfl
  keys_pairwise := by
    rw [List.map_map]
    exact c.keys_pairwise
  lastMember?_eq := Json.lastMember?_map_toList c.attributes Attribute.toJson

/-! ## The laws -/

/-- The laws of laying contexts over each other and of building them attribute by attribute. -/
structure MergeLaws : Prop where
  /-- What lies on top wins. -/
  get?_eq : ∀ (a b : Context) key, (a.mergedWith b).get? key = (b.get? key).or (a.get? key)
  keys_pairwise : ∀ a b : Context,
    (a.mergedWith b).attributes.keys.Pairwise fun key key' => utf8 key < utf8 key'
  assoc : ∀ a b c : Context, (a.mergedWith b).mergedWith c = a.mergedWith (b.mergedWith c)
  empty_left : ∀ a : Context, empty.mergedWith a = a
  empty_right : ∀ a : Context, a.mergedWith empty = a
  self : ∀ a : Context, a.mergedWith a = a
  /-- Setting attributes is merging contexts of one attribute each, in the same order. -/
  built_eq : ∀ given, built given = (given.map fun e => single e.1 e.2).foldl mergedWith empty
  built_append : ∀ given later, built (given ++ later) = (built given).mergedWith (built later)
  /-- The last values given are all that a context and its text depend on. -/
  built_congr : ∀ given given', (∀ key, lastGiven? key given = lastGiven? key given') →
    built given = built given' ∧ (built given).toJson.compact = (built given').toJson.compact
  /-- These values are written in the order of their keys. -/
  written : ∀ given, ∃ members, (built given).IsWrittenAs members ∧
    ∀ key, Json.lastMember? key members = (lastGiven? key given).map Attribute.toJson

/-- **Contexts form a monoid** in which the last value given for a key stands. -/
theorem merges_lawfully : MergeLaws where
  get?_eq := get?_mergedWith
  keys_pairwise a b := (a.mergedWith b).keys_pairwise
  assoc := mergedWith_assoc
  empty_left := empty_mergedWith
  empty_right := mergedWith_empty
  self := mergedWith_self
  built_eq := built_eq_foldl
  built_append := built_append
  built_congr given given' h := by
    have hbuilt : built given = built given' :=
      ext_get? fun key => by rw [get?_built, get?_built, h]
    exact ⟨hbuilt, by rw [hbuilt]⟩
  written given := by
    refine ⟨_, isWrittenAs (built given), fun key => ?_⟩
    rw [(isWrittenAs (built given)).lastMember?_eq, get?_built]

/-- Two sequences of attributes that end in the same values, the keys in another order. -/
theorem merges_lawfully_of_overlap :
    ∃ given given', given.map (·.1) = ["é", "Z", "é"] ∧ given'.map (·.1) = ["Z", "é"] ∧
      built given = built given' ∧
      (built given').toJson.compact = "\x7b\"Z\":\"y\",\"é\":\"z\"\x7d" := by
  let given : List (String × Attribute) := [("é", .text "x"), ("Z", .text "y"), ("é", .text "z")]
  let given' : List (String × Attribute) := [("Z", .text "y"), ("é", .text "z")]
  have hlast : ∀ key, lastGiven? key given = lastGiven? key given' := by
    intro key
    by_cases hkey : "é" = key <;> simp [lastGiven?, given, given', List.find?_cons, hkey]
  exact ⟨given, given', rfl, rfl, (merges_lawfully.built_congr given given' hlast).1, rfl⟩

end FlagFanout.Context
