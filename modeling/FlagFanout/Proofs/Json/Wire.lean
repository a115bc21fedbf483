import FlagFanout.Context.Text
import FlagFanout.Flag.Wire
import FlagFanout.Payload
import FlagFanout.Proofs.Json.Text
import FlagFanout.Proofs.KeyMap

/-!
# What is written is read back

Every type that goes over the wire has a writer and a reader. A record is written as an object with
all its fields, so each is found again; a value without a tag is told by the kind of JSON that it
was written as. A number that is not finite cannot be written, and is the only obstacle.
-/

namespace FlagFanout

/-! ## Parts of a tree -/

namespace Json

@[simp] theorem lastMember?_nil (key : String) : lastMember? key [] = none := rfl

/-- A member counts unless a later one has its key. -/
@[simp] theorem lastMember?_cons (key : String) (m : String × Json)
    (members : List (String × Json)) :
    lastMember? key (m :: members) =
      (lastMember? key members).or (if m.1 = key then some m.2 else none) := by
  rw [lastMember?, lastMember?, List.reverse_cons, List.find?_append, List.find?_singleton]
  by_cases h : m.1 = key <;> cases members.reverse.find? (·.1 = key) <;> simp [h]

/-- The members that count are those of the map that is filled from them. -/
theorem lastMember?_eq_get? (key : String) (members : List (String × Json)) :
    lastMember? key members = (KeyMap.ofList members).get? key := by
  rw [KeyMap.get?_ofList, KeyMap.lookup_eq_find?, lastMember?]

/-- Under a key of a map stands what is written for its value. -/
theorem lastMember?_map_toList {α : Type} (m : KeyMap String α) (write : α → Json) (key : String) :
    lastMember? key (m.toList.map fun e => (e.1, write e.2)) = (m.get? key).map write := by
  rw [lastMember?_eq_get?, KeyMap.ofList_map_toList, KeyMap.get?_mapValues]

@[simp] theorem str?_str (s : String) : str? (str s) = some s := rfl

theorem ofBinary64_of_isFinite {x : Binary64} (h : x.isFinite = true) : ofBinary64 x = float x :=
  if_pos h

/-! Fields of a record that is given by name. -/

section Fields

variable {α : Type} (members : List (String × Json)) (name : String) (read : Json → Option α)

@[simp] theorem record?_obj (names : List String) :
    record? names (obj members) = some ⟨members, false⟩ := rfl

@[simp] theorem Record.required_eq :
    Record.required ⟨members, false⟩ name read = (lastMember? name members).bind read := rfl

@[simp] theorem Record.defaulted_eq (default : α) :
    Record.defaulted ⟨members, false⟩ name default read =
      ((lastMember? name members).elim (some default) read) := by
  unfold Record.defaulted Record.field?
  cases lastMember? name members <;> rfl

@[simp] theorem Record.optional_eq :
    Record.optional ⟨members, false⟩ name read =
      ((lastMember? name members).elim (some none) (nullable read)) := by
  unfold Record.optional Record.field?
  cases lastMember? name members <;> rfl

end Fields

end Json

/-- Items that are written one by one are read back one by one. -/
theorem mapM_map_write {α : Type} {write : α → Json} {read : Json → Option α} {l : List α}
    (h : ∀ a ∈ l, read (write a) = some a) : (l.map write).mapM read = some l := by
  induction l with
  | nil => rfl
  | cons a rest ih =>
    obtain ⟨ha, hrest⟩ := List.forall_mem_cons.1 h
    rw [List.map_cons, List.mapM_cons, ha, ih hrest]
    rfl

theorem Json.itemsOf?_map_write {α : Type} {write : α → Json} {read : Json → Option α} {l : List α}
    (h : ∀ a ∈ l, read (write a) = some a) : itemsOf? read (.arr (l.map write)) = some l :=
  mapM_map_write h

/-! ## Values without a tag -/

namespace FlagValue

/-- Whether the value can be written. -/
def isFinite : FlagValue → Bool
  | float x => x.isFinite
  | _ => true

theorem ofJson?_toJson {v : FlagValue} (h : v.isFinite = true) : ofJson? v.toJson = some v := by
  cases v with
  | bool b => rfl
  | int i => simp [toJson, ofJson?]
  | float x =>
    rw [toJson, Json.ofBinary64_of_isFinite h]
    rfl
  | text s => rfl

theorem isNull_toJson {v : FlagValue} (h : v.isFinite = true) : v.toJson.isNull = false := by
  cases v with
  | float x =>
    rw [toJson, Json.ofBinary64_of_isFinite h]
    rfl
  | bool b | int i | text s => rfl

end FlagValue

namespace Attribute

/-- Whether the attribute can be written. -/
def isFinite : Attribute → Bool
  | number x => x.isFinite
  | _ => true

theorem ofJson?_toJson {a : Attribute} (h : a.isFinite = true) : ofJson? a.toJson = some a := by
  cases a with
  | text s => rfl
  | number x =>
    rw [toJson, Json.ofBinary64_of_isFinite h]
    rfl
  | list items =>
    have hitems : (items.map Json.str).mapM Json.str? = some items :=
      mapM_map_write fun _ _ => rfl
    rw [toJson, ofJson?, hitems]
    rfl

/-- The lenient reader drops nothing of what was written. -/
theorem ofClient?_toJson {a : Attribute} (h : a.isFinite = true) : ofClient? a.toJson = some a := by
  cases a with
  | text s => rfl
  | number x =>
    rw [toJson, Json.ofBinary64_of_isFinite h]
    rfl
  | list items =>
    simp [toJson, ofClient?, List.filterMap_map, Function.comp_def, Json.str?]

end Attribute

/-! ## Contexts -/

namespace Context

/-- Whether every attribute can be written. -/
def isFinite (c : Context) : Bool := c.attributes.toList.all (·.2.isFinite)

theorem readAttributes_toJson {l : List (String × Attribute)} (h : ∀ e ∈ l, e.2.isFinite = true) :
    readAttributes (l.map fun e => (e.1, e.2.toJson)) = .ok l := by
  induction l with
  | nil => rfl
  | cons e rest ih =>
    obtain ⟨he, hrest⟩ := List.forall_mem_cons.1 h
    rw [List.map_cons, readAttributes, Attribute.ofClient?_toJson he, ih hrest]
    rfl

theorem ofJson_toJson {c : Context} (h : c.isFinite = true) : ofJson c.toJson = .ok c := by
  have hread : readAttributes (c.attributes.mapValues fun _ => Attribute.toJson).toList =
      .ok c.attributes.toList :=
    readAttributes_toJson (List.all_eq_true.1 h)
  rw [toJson, ofJson, ofMembers, KeyMap.ofList_map_toList, hread]
  change Except.ok (Context.mk (KeyMap.ofList c.attributes.toList)) = _
  rw [KeyMap.ofList_toList]

end Context

/-! ## Payloads -/

namespace Payload

/-- Whether the payload can be written. -/
def isFinite (p : Payload) : Bool := p.value.all (·.isFinite)

theorem ofJson?_toJson {p : Payload} (h : p.isFinite = true) : ofJson? p.toJson = some p := by
  obtain ⟨value, variation⟩ := p
  cases value with
  | none => rfl
  | some v =>
    have hv : v.isFinite = true := h
    have hvalue : Json.Record.nullable FlagValue.ofJson? v.toJson = some (some v) := by
      rw [Json.Record.nullable, FlagValue.isNull_toJson hv, FlagValue.ofJson?_toJson hv]
      rfl
    simp [toJson, ofJson?, hvalue]

end Payload

/-! ## Flag definitions -/

theorem Operator.ofJson?_name (o : Operator) : ofJson? (.str o.name) = some o := by
  cases o <;> rfl

namespace Variant

/-- Whether the variant can be written. -/
def isFinite (v : Variant) : Bool := v.value.isFinite

theorem ofJson?_toJson {v : Variant} (h : v.isFinite = true) : ofJson? v.toJson = some v := by
  have hvalue := FlagValue.ofJson?_toJson h
  simp [toJson, ofJson?, hvalue]

end Variant

namespace Condition

/-- Whether the condition can be written. -/
def isFinite (c : Condition) : Bool := c.expected.isFinite

theorem ofJson?_toJson {c : Condition} (h : c.isFinite = true) : ofJson? c.toJson = some c := by
  have hoperator := Operator.ofJson?_name c.operator
  have hexpected := Attribute.ofJson?_toJson h
  simp [toJson, ofJson?, hoperator, hexpected]

end Condition

namespace Rule

/-- Whether the rule can be written. -/
def isFinite (r : Rule) : Bool := r.conditions.all (·.isFinite) && r.variant.isFinite

theorem ofJson?_toJson {r : Rule} (h : r.isFinite = true) : ofJson? r.toJson = some r := by
  rw [isFinite, Bool.and_eq_true] at h
  have hconditions : Json.itemsOf? Condition.ofJson? (.arr (r.conditions.map Condition.toJson)) =
      some r.conditions :=
    Json.itemsOf?_map_write fun c hc => Condition.ofJson?_toJson (List.all_eq_true.1 h.1 c hc)
  have hvariant := Variant.ofJson?_toJson h.2
  simp [toJson, ofJson?, hconditions, hvariant]

end Rule

namespace Rollout

/-- Whether the rollout can be written. -/
def isFinite (r : Rollout) : Bool := r.variant.isFinite

theorem percentage?_toNat (p : UInt32) : percentage? (.int p.toNat) = some p := by
  have hlt : (p.toNat : Int) < UInt32.size := by exact_mod_cast p.toNat_lt_size
  simp only [percentage?, Int.natCast_nonneg, hlt, and_self, if_true, Int.toNat_natCast,
    UInt32.ofNat_toNat]

/-- A rollout is read from an object whose parts are read. -/
theorem ofJson?_obj {r : Rollout} {percentage variant : Json}
    (hpercentage : percentage? percentage = some r.percentage)
    (hvariant : Variant.ofJson? variant = some r.variant) :
    ofJson? (.obj [("attribute", .str r.attributeKey), ("percentage", percentage),
      ("variant", variant)]) = some r := by
  simp [ofJson?, hpercentage, hvariant]

theorem ofJson?_toJson {r : Rollout} (h : r.isFinite = true) : ofJson? r.toJson = some r :=
  ofJson?_obj (percentage?_toNat r.percentage) (Variant.ofJson?_toJson h)

end Rollout

namespace Flag

/-- Whether the flag can be written. -/
def isFinite (f : Flag) : Bool :=
  f.fallback.isFinite && f.rules.all (·.isFinite) && f.rollout.all (·.isFinite)

theorem ofJson?_toJson {f : Flag} (h : f.isFinite = true) : ofJson? f.toJson = some f := by
  obtain ⟨key, fallback, rules, rollout⟩ := f
  simp only [isFinite, Bool.and_eq_true] at h
  obtain ⟨⟨hfallback, hrules⟩, hrollout⟩ := h
  have hread : Json.itemsOf? Rule.ofJson? (.arr (rules.map Rule.toJson)) = some rules :=
    Json.itemsOf?_map_write fun r hr => Rule.ofJson?_toJson (List.all_eq_true.1 hrules r hr)
  have hvariant := Variant.ofJson?_toJson hfallback
  have hlast : Json.Record.nullable Rollout.ofJson? (rollout.elim .null Rollout.toJson) =
      some rollout := by
    cases rollout with
    | none => rfl
    | some r =>
      rw [Option.elim_some, Json.Record.nullable, Rollout.ofJson?_toJson hrollout]
      rfl
  simp [toJson, ofJson?, hread, hvariant, hlast]

end Flag

/-! ## Texts

Everything is written within the range of integers and far from the greatest depth, so its text
reads back as its tree. -/

section Fits

variable (depth : Nat)

theorem Json.fits_str (s : String) : Fits (depth + 1) (str s) := trivial

theorem Json.fits_ofBinary64 (x : Binary64) : Fits (depth + 1) (ofBinary64 x) := by
  unfold ofBinary64
  split
  · assumption
  · trivial

theorem Json.fits_arr_map {α : Type} {write : α → Json} (h : ∀ a, Fits (depth + 1) (write a))
    (l : List α) : Fits (depth + 2) (arr (l.map write)) := by
  refine ⟨Nat.succ_pos depth, fun j hj => ?_⟩
  obtain ⟨a, -, rfl⟩ := List.mem_map.1 hj
  exact h a

theorem Json.fits_obj {members : List (String × Json)}
    (h : ∀ m ∈ members, Fits (depth + 1) m.2) : Fits (depth + 2) (obj members) :=
  ⟨Nat.succ_pos depth, h⟩

theorem FlagValue.fits_toJson (v : FlagValue) : Json.Fits (depth + 1) v.toJson := by
  cases v with
  | bool b => trivial
  | int i => exact ⟨i.le_toInt, i.toInt_lt.trans (by decide)⟩
  | float x => exact Json.fits_ofBinary64 depth x
  | text s => trivial

theorem Attribute.fits_toJson (a : Attribute) : Json.Fits (depth + 2) a.toJson := by
  cases a with
  | text s => trivial
  | number x => exact Json.fits_ofBinary64 (depth + 1) x
  | list items => exact Json.fits_arr_map depth (Json.fits_str depth) items

theorem Context.fits_toJson (c : Context) : Json.Fits (depth + 3) c.toJson := by
  refine Json.fits_obj (depth + 1) fun m hm => ?_
  obtain ⟨e, -, rfl⟩ := List.mem_map.1 hm
  exact Attribute.fits_toJson depth e.2

theorem Payload.fits_toJson (p : Payload) : Json.Fits (depth + 2) p.toJson := by
  have hvalue : Json.Fits (depth + 1) (p.value.elim .null FlagValue.toJson) := by
    cases p.value with
    | none => trivial
    | some v => exact FlagValue.fits_toJson depth v
  refine Json.fits_obj depth ?_
  simp [hvalue, Json.fits_str]

theorem Variant.fits_toJson (v : Variant) : Json.Fits (depth + 2) v.toJson := by
  refine Json.fits_obj depth ?_
  simp [Json.fits_str, FlagValue.fits_toJson]

theorem Condition.fits_toJson (c : Condition) : Json.Fits (depth + 3) c.toJson := by
  refine Json.fits_obj (depth + 1) ?_
  simp [Json.fits_str, Attribute.fits_toJson]

theorem Rule.fits_toJson (r : Rule) : Json.Fits (depth + 5) r.toJson := by
  have hconditions := Json.fits_arr_map (depth + 2) (Condition.fits_toJson depth) r.conditions
  have hvariant := Variant.fits_toJson (depth + 2) r.variant
  refine Json.fits_obj (depth + 3) ?_
  simp [hconditions, hvariant]

theorem Rollout.fits_toJson (r : Rollout) : Json.Fits (depth + 3) r.toJson := by
  have hpercentage : Json.Fits (depth + 2) (.int r.percentage.toNat) := by
    have := r.percentage.toNat_lt
    exact ⟨by omega, by omega⟩
  refine Json.fits_obj (depth + 1) ?_
  simp [Json.fits_str, hpercentage, Variant.fits_toJson]

theorem Flag.fits_toJson (f : Flag) : Json.Fits (depth + 7) f.toJson := by
  have hfallback := Variant.fits_toJson (depth + 4) f.fallback
  have hrules := Json.fits_arr_map (depth + 4) (Rule.fits_toJson depth) f.rules
  have hrollout : Json.Fits (depth + 6) (f.rollout.elim .null Rollout.toJson) := by
    cases f.rollout with
    | none => trivial
    | some r => exact Rollout.fits_toJson (depth + 3) r
  refine Json.fits_obj (depth + 5) ?_
  simp [Json.fits_str, hfallback, hrules, hrollout]

end Fits

/-- The context is read from its text in one go. -/
theorem Context.ofText_toJson {c : Context} (h : c.isFinite = true) :
    ofText c.toJson.compact = .ok c := by
  obtain ⟨cs, hcs⟩ : ∃ cs, c.toJson.compact.toList = '\x7b' :: cs := by
    unfold toJson
    cases c.attributes.toList with
    | nil => exact ⟨_, rfl⟩
    | cons e l => exact ⟨_, Json.toList_compact_obj _ _⟩
  have hread : Json.readValue Json.depthLimit ('\x7b' :: cs) = .ok (c.toJson, []) := by
    rw [← hcs, ← List.append_nil c.toJson.compact.toList]
    exact Json.readValue_compact (fits_toJson 125 c) Json.ends_nil
  have hskip : Json.skipBlanks ('\x7b' :: cs) = '\x7b' :: cs := rfl
  simp only [ofText, hcs, hskip, hread, ofJson_toJson h]
  rfl

/-- A reader gives back what was written, from the tree and from its text. -/
def ReadsBack {α : Type} (write : α → Json) (read : Json → Option α) (a : α) : Prop :=
  read (write a) = some a ∧ (Json.ofText (write a).compact).toOption.bind read = some a

theorem ReadsBack.of_fits {α : Type} {write : α → Json} {read : Json → Option α} {a : α}
    (hfits : Json.Fits Json.depthLimit (write a)) (hread : read (write a) = some a) :
    ReadsBack write read a :=
  ⟨hread, by rw [Json.ofText_compact hfits]; exact hread⟩

/-- **What is written is read back**, for everything that goes over the wire. -/
theorem reads_back :
    (∀ v : FlagValue, v.isFinite = true → ReadsBack FlagValue.toJson FlagValue.ofJson? v) ∧
      (∀ p : Payload, p.isFinite = true → ReadsBack Payload.toJson Payload.ofJson? p) ∧
      (∀ c : Context, c.isFinite = true →
        Context.ofJson c.toJson = .ok c ∧ Context.ofText c.toJson.compact = .ok c) ∧
      ∀ f : Flag, f.isFinite = true → ReadsBack Flag.toJson Flag.ofJson? f :=
  ⟨fun v h => .of_fits (v.fits_toJson 127) (FlagValue.ofJson?_toJson h),
    fun p h => .of_fits (p.fits_toJson 126) (Payload.ofJson?_toJson h),
    fun _ h => ⟨Context.ofJson_toJson h, Context.ofText_toJson h⟩,
    fun f h => .of_fits (f.fits_toJson 121) (Flag.ofJson?_toJson h)⟩

/-- The float one and the integer one, a payload without value, a context with a list, and a flag
without rollout. -/
theorem ones_read_back :
    ReadsBack FlagValue.toJson FlagValue.ofJson? (.float ⟨0x3FF0000000000000⟩) ∧
      ReadsBack FlagValue.toJson FlagValue.ofJson? (.int 1) ∧
      ReadsBack Payload.toJson Payload.ofJson? .unavailable ∧
      Context.ofText (Context.toJson ⟨.ofList [("k", .list ["x", ""])]⟩).compact =
        .ok ⟨.ofList [("k", .list ["x", ""])]⟩ ∧
      ReadsBack Flag.toJson Flag.ofJson? (.constant "f" (.bool true)) :=
  ⟨reads_back.1 _ (by decide), reads_back.1 _ (by decide), reads_back.2.1 _ (by decide),
    (reads_back.2.2.1 _ (by decide)).2, reads_back.2.2.2 _ (by decide)⟩

/-- The two ones differ in their texts already. -/
example : (FlagValue.toJson (.float ⟨0x3FF0000000000000⟩)).compact = "1.0" := by decide

end FlagFanout
