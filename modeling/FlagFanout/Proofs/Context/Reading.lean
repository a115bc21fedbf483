import FlagFanout.Proofs.Json.Wire
import FlagFanout.Proofs.Text.Order
import Mathlib.Data.List.DropRight

/-!
# Contexts that clients send

An attribute is read in two ways: strictly in the conditions of a rule, leniently in what clients
send. The lenient reader knows the same kinds and gives the same values; all it adds is arrays with
other items than strings, which it drops (`Attribute.ofClient?_of_ofJson?`,
`Attribute.eq_arr_of_ofJson?_eq_none`).

A context is read from the members of an object in the order of their keys, and the first one that
stands for no attribute is reported (`Context.readAttributes_eq`). So it is the one with the
smallest key, however many others there are. The main statement is `Context.reads_members`.
-/

namespace FlagFanout

/-! ## One attribute -/

namespace Attribute

/-- Strings, numbers and arrays stand for attributes. -/
inductive Accepts : Json → Prop
  | str (s : String) : Accepts (.str s)
  | int (i : Int) : Accepts (.int i)
  | float (x : Binary64) : Accepts (.float x)
  | arr (items : List Json) : Accepts (.arr items)

/-- Nothing else does. -/
inductive Refuses : Json → Prop
  | null : Refuses .null
  | bool (b : Bool) : Refuses (.bool b)
  | obj (members : List (String × Json)) : Refuses (.obj members)

variable {j : Json} {a : Attribute}

theorem isNone_ofClient?_iff : (ofClient? j).isNone = true ↔ Refuses j := by
  constructor
  · intro h
    cases j with
    | null => exact .null
    | bool b => exact .bool b
    | obj members => exact .obj members
    | int | float | str | arr => cases h
  · rintro (_ | _ | _) <;> rfl

theorem exists_ofClient?_of_accepts (h : Accepts j) : ∃ a, ofClient? j = some a := by
  cases h <;> exact ⟨_, rfl⟩

theorem accepts_iff : Accepts j ↔ ¬ Refuses j := by
  constructor
  · rintro (_ | _ | _ | _) <;> rintro ⟨⟩
  · intro h
    cases j with
    | null => exact absurd .null h
    | bool b => exact absurd (.bool b) h
    | obj members => exact absurd (.obj members) h
    | int i => exact .int i
    | float x => exact .float x
    | str s => exact .str s
    | arr items => exact .arr items

/-- Where every item is a string, none is dropped. -/
theorem filterMap_of_mapM {items : List Json} {texts : List String}
    (h : items.mapM Json.str? = some texts) : items.filterMap Json.str? = texts := by
  induction items generalizing texts with
  | nil => exact Option.some.inj h
  | cons item rest ih =>
    rw [List.mapM_cons] at h
    obtain ⟨s, hs, h⟩ := Option.bind_eq_some_iff.1 h
    obtain ⟨ss, hss, h⟩ := Option.bind_eq_some_iff.1 h
    rw [List.filterMap_cons_some hs, ih hss]
    exact Option.some.inj h

/-- **What the strict reader accepts, the lenient one reads alike.** -/
theorem ofClient?_of_ofJson? (h : ofJson? j = some a) : ofClient? j = some a := by
  cases j with
  | arr items =>
    obtain ⟨texts, htexts, rfl⟩ := Option.map_eq_some_iff.1 h
    rw [ofClient?, filterMap_of_mapM htexts]
  | null | bool | int | float | str | obj => exact h

/-- **All that only the lenient reader accepts is arrays**, and it keeps their strings. -/
theorem eq_arr_of_ofJson?_eq_none (hstrict : ofJson? j = none) (h : Accepts j) :
    ∃ items, j = .arr items ∧ ofClient? j = some (.list (items.filterMap Json.str?)) := by
  cases h with
  | arr items => exact ⟨items, rfl, rfl⟩
  | str | int | float => cases hstrict

end Attribute

/-! ## The first entry that a test finds -/

/-- The first entry that passes a test has the smallest key of all that pass it. -/
theorem KeyMap.compare_of_find? {κ α : Type} [Ord κ] {m : KeyMap κ α} {p : κ × α → Bool}
    {e f : κ × α} (hfind : m.entries.find? p = some e) (hf : f ∈ m.entries) (hpf : p f = true) :
    f = e ∨ compare e.1 f.1 = .lt := by
  obtain ⟨-, before, after, hentries, hbefore⟩ := List.find?_eq_some_iff_append.1 hfind
  rw [hentries, List.mem_append, List.mem_cons] at hf
  rcases hf with hf | rfl | hf
  · have hnot := hbefore f hf
    rw [hpf] at hnot
    cases hnot
  · exact .inl rfl
  · have hsorted := m.sorted
    rw [hentries] at hsorted
    exact .inr ((List.pairwise_cons.1 (List.pairwise_append.1 hsorted).2.1).1 f hf)

namespace Context

/-! ## All attributes -/

/-- The first member that stands for no attribute decides. -/
theorem readAttributes_eq (l : List (String × Json)) :
    readAttributes l =
      (l.find? fun m => (Attribute.ofClient? m.2).isNone).elim
        (.ok (l.filterMap fun m => (Attribute.ofClient? m.2).map (m.1, ·)))
        fun m => .error (.invalidAttribute m.1) := by
  induction l with
  | nil => rfl
  | cons m rest ih =>
    rw [readAttributes, ih, List.find?_cons, List.filterMap_cons]
    cases ha : Attribute.ofClient? m.2 with
    | none => rfl
    | some a =>
      simp only [Option.isNone_some, Option.map_some]
      cases rest.find? fun m => (Attribute.ofClient? m.2).isNone <;> rfl

/-- A key is the smallest, by its bytes, whose member stands for no attribute. -/
structure IsLeastRefused (key : String) (members : List (String × Json)) : Prop where
  refused : ∃ j, Json.lastMember? key members = some j ∧ Attribute.Refuses j
  least : ∀ key' j, Json.lastMember? key' members = some j → Attribute.Refuses j → key' ≠ key →
    utf8 key < utf8 key'

variable {members : List (String × Json)} {c : Context} {err : FlagError}

theorem IsLeastRefused.unique {key key' : String} (h : IsLeastRefused key members)
    (h' : IsLeastRefused key' members) : key = key' := by
  refine Decidable.byContradiction fun hne => ?_
  obtain ⟨j, hj, hrefused⟩ := h.refused
  obtain ⟨j', hj', hrefused'⟩ := h'.refused
  exact List.lt_asymm (h.least key' j' hj' hrefused' (Ne.symm hne)) (h'.least key j hj hrefused hne)

theorem mem_entries_ofList_iff {key : String} {j : Json} :
    (key, j) ∈ (KeyMap.ofList members).entries ↔ Json.lastMember? key members = some j := by
  rw [Json.lastMember?_eq_get?, KeyMap.get?_eq_some_iff_mem]

/-- Where every member stands for an attribute, the context holds them all. -/
theorem ofMembers_of_accepts
    (h : ∀ key j, Json.lastMember? key members = some j → Attribute.Accepts j) :
    ∃ c, ofMembers members = .ok c ∧
      ∀ key, c.get? key = (Json.lastMember? key members).bind Attribute.ofClient? := by
  have hfind : (KeyMap.ofList members).toList.find?
      (fun m => (Attribute.ofClient? m.2).isNone) = none := by
    rw [List.find?_eq_none]
    intro m hm hnone
    exact Attribute.accepts_iff.1 (h m.1 m.2 (mem_entries_ofList_iff.1 hm))
      (Attribute.isNone_ofClient?_iff.1 hnone)
  let read := (KeyMap.ofList members).filterMap fun _ j => Attribute.ofClient? j
  refine ⟨⟨read⟩, ?_, fun key => ?_⟩
  · rw [ofMembers, readAttributes_eq, hfind]
    exact congrArg (fun m => Except.ok (Context.mk m)) read.ofList_toList
  · rw [get?, KeyMap.get?_filterMap, Json.lastMember?_eq_get?]

/-- Where some member stands for no attribute, the one with the smallest key is reported. -/
theorem ofMembers_of_refused
    (h : ∃ key j, Json.lastMember? key members = some j ∧ Attribute.Refuses j) :
    ∃ key, ofMembers members = .error (.invalidAttribute key) ∧ IsLeastRefused key members := by
  cases hfind : (KeyMap.ofList members).toList.find?
      (fun m => (Attribute.ofClient? m.2).isNone) with
  | none =>
    obtain ⟨key, j, hj, hrefused⟩ := h
    have hnot := List.find?_eq_none.1 hfind (key, j) (mem_entries_ofList_iff.2 hj)
    exact absurd (Attribute.isNone_ofClient?_iff.2 hrefused) hnot
  | some m =>
    have hnone := List.find?_some hfind
    have hrefused := Attribute.isNone_ofClient?_iff.1 hnone
    have hmember := mem_entries_ofList_iff.1 (List.mem_of_find?_eq_some hfind)
    refine ⟨m.1, ?_, ⟨m.2, hmember, hrefused⟩, fun key j hj hrefused' hne => ?_⟩
    · rw [ofMembers, readAttributes_eq, hfind]
      rfl
    · have hfirst := KeyMap.compare_of_find? hfind (mem_entries_ofList_iff.2 hj)
        (Attribute.isNone_ofClient?_iff.2 hrefused')
      exact compare_eq_lt_iff.1 (hfirst.resolve_left fun heq => hne (congrArg Prod.fst heq))

end Context

/-! ## Texts -/

namespace Json

variable {depth : Nat} {cs rest : List Char} {j : Json} {members : List (String × Json)}

theorem skipBlanks_skipBlanks (cs : List Char) : skipBlanks (skipBlanks cs) = skipBlanks cs :=
  List.dropWhile_idempotent _ cs

theorem readValue_skipBlanks (depth : Nat) (cs : List Char) :
    readValue depth (skipBlanks cs) = readValue depth cs := by
  cases depth with
  | zero => rfl
  | succ depth => rw [readValue, skipBlanks_skipBlanks, readValue]

theorem exists_ok_of_bind {α β : Type} {x : Except Fault α} {f : α → Except Fault β} {b : β}
    (h : x >>= f = .ok b) : ∃ a, x = .ok a ∧ f a = .ok b := by
  cases x with
  | error e => cases h
  | ok a => exact ⟨a, rfl, h⟩

theorem exists_number_of_ofDouble {x : Binary64} (h : ofDouble x = .ok j) :
    ∃ y, j.number? = some y := by
  rw [ofDouble] at h
  split at h
  · exact ⟨x, by rw [← Except.ok.inj h]; rfl⟩
  · cases h

theorem exists_number_of_ofIntegerToken {negative : Bool} {digits : List Char}
    (h : ofIntegerToken negative digits = .ok j) : ∃ y, j.number? = some y := by
  simp only [ofIntegerToken] at h
  split at h
  · split at h
    · exact ⟨_, by rw [← Except.ok.inj h]; rfl⟩
    · exact exists_number_of_ofDouble h
  · split at h
    · exact ⟨_, by rw [← Except.ok.inj h]; rfl⟩
    · exact exists_number_of_ofDouble h

/-- What starts like a number is a number. -/
theorem exists_number_of_readUnsigned {negative : Bool}
    (h : readUnsigned negative cs = .ok (j, rest)) : ∃ y, j.number? = some y := by
  simp only [readUnsigned] at h
  split at h
  · cases h
  · split at h
    · cases h
    · obtain ⟨fraction, -, h⟩ := exists_ok_of_bind h
      obtain ⟨exponent, -, h⟩ := exists_ok_of_bind h
      split at h
      · obtain ⟨value, hvalue, h⟩ := exists_ok_of_bind h
        obtain rfl : value = j := congrArg Prod.fst (Except.ok.inj h)
        exact exists_number_of_ofIntegerToken hvalue
      · obtain ⟨value, hvalue, h⟩ := exists_ok_of_bind h
        obtain rfl : value = j := congrArg Prod.fst (Except.ok.inj h)
        exact exists_number_of_ofDouble hvalue

theorem exists_number_of_readNumber (h : readNumber cs = .ok (j, rest)) :
    ∃ y, j.number? = some y := by
  unfold readNumber at h
  split at h <;> exact exists_number_of_readUnsigned h

/-- What a reader turns into other values is no object. -/
theorem map_ne_obj {α : Type} {x : Except Fault α} {f : α → Json × List Char}
    (hf : ∀ a, (f a).1 ≠ obj members) : x.map f ≠ .ok (obj members, rest) := by
  intro h
  cases x with
  | error e => cases h
  | ok a => exact hf a (congrArg Prod.fst (Except.ok.inj h))

/-- Only what starts with a brace is an object. -/
theorem head?_of_readValue (h : readValue depth cs = .ok (obj members, rest)) :
    (skipBlanks cs).head? = some '\x7b' := by
  cases depth with
  | zero => cases h
  | succ depth =>
    rw [readValue] at h
    split at h
    · cases h
    · next c tail hskip =>
      rw [hskip, List.head?_cons]
      split at h
      · exact absurd h (map_ne_obj fun _ heq => by cases heq)
      split at h
      · exact absurd h (map_ne_obj fun _ heq => by cases heq)
      split at h
      · exact absurd h (map_ne_obj fun _ heq => by cases heq)
      split at h
      · exact absurd h (map_ne_obj fun _ heq => by cases heq)
      split at h
      · split at h
        · cases h
        · exact absurd h (map_ne_obj fun _ heq => by cases heq)
      split at h
      · next hc => rw [hc]
      split at h
      · obtain ⟨y, hy⟩ := exists_number_of_readNumber h
        cases hy
      · cases h

end Json

namespace Context

/-- **The text of an object is read like its members.** -/
theorem ofText_of_obj {text : String} {members : List (String × Json)}
    (h : Json.ofText text = .ok (.obj members)) :
    ofText text = (ofMembers members).mapError fun e => .data (some e) := by
  obtain ⟨⟨j, rest⟩, hread, hrest⟩ := Json.exists_ok_of_bind h
  change (if (Json.skipBlanks rest).isEmpty then Except.ok j else .error Json.Fault.malformed) = _
    at hrest
  split at hrest
  · next hblank =>
    obtain rfl : j = .obj members := Except.ok.inj hrest
    obtain ⟨tail, htail⟩ := List.head?_eq_some_iff.1 (Json.head?_of_readValue hread)
    rw [← Json.readValue_skipBlanks, htail] at hread
    simp only [ofText, htail, hread, ofJson]
    cases ofMembers members with
    | error e => rfl
    | ok c => exact if_pos hblank
  · cases hrest

/-! ## Objects -/

/-- Either every member stands for an attribute, or the smallest key at fault is reported. -/
theorem ofJson_obj (members : List (String × Json)) :
    (∃ c, ofJson (.obj members) = .ok c ∧
      (∀ key j, Json.lastMember? key members = some j → Attribute.Accepts j) ∧
      ∀ key, c.get? key = (Json.lastMember? key members).bind Attribute.ofClient?) ∨
    ∃ key, ofJson (.obj members) = .error (.attribute (.invalidAttribute key)) ∧
      IsLeastRefused key members := by
  by_cases h : ∃ key j, Json.lastMember? key members = some j ∧ Attribute.Refuses j
  · obtain ⟨key, hkey, hleast⟩ := ofMembers_of_refused h
    exact .inr ⟨key, by rw [ofJson, hkey]; rfl, hleast⟩
  · have haccepts : ∀ key j, Json.lastMember? key members = some j → Attribute.Accepts j :=
      fun key j hj => Attribute.accepts_iff.2 fun hrefused => h ⟨key, j, hj, hrefused⟩
    obtain ⟨c, hc, hget⟩ := ofMembers_of_accepts haccepts
    exact .inl ⟨c, by rw [ofJson, hc]; rfl, haccepts, hget⟩

section Read

variable {members : List (String × Json)} {c : Context} (h : ofJson (.obj members) = .ok c)

include h

theorem accepts_and_get?_of_ofJson :
    (∀ key j, Json.lastMember? key members = some j → Attribute.Accepts j) ∧
      ∀ key, c.get? key = (Json.lastMember? key members).bind Attribute.ofClient? := by
  rcases ofJson_obj members with ⟨c', hc', hmembers⟩ | ⟨key, hkey, -⟩
  · rw [hc'] at h
    exact Except.ok.inj h ▸ hmembers
  · rw [hkey] at h
    cases h

theorem get?_of_ofJson {key : String} {j : Json} (hj : Json.lastMember? key members = some j) :
    c.get? key = Attribute.ofClient? j := by
  rw [(accepts_and_get?_of_ofJson h).2, hj, Option.bind_some]

/-- The context has the keys of the object. -/
theorem mem_keys_of_ofJson (key : String) :
    key ∈ c.attributes.keys ↔ ∃ j, Json.lastMember? key members = some j := by
  obtain ⟨haccepts, hget⟩ := accepts_and_get?_of_ofJson h
  rw [KeyMap.mem_keys_iff]
  change (∃ a, c.get? key = some a) ↔ _
  rw [hget]
  constructor
  · rintro ⟨a, ha⟩
    obtain ⟨j, hj, -⟩ := Option.bind_eq_some_iff.1 ha
    exact ⟨j, hj⟩
  · rintro ⟨j, hj⟩
    obtain ⟨a, ha⟩ := Attribute.exists_ofClient?_of_accepts (haccepts key j hj)
    exact ⟨a, by rw [hj, Option.bind_some, ha]⟩

end Read

/-- What reading the members of an object comes to. -/
structure ReadsMembers (members : List (String × Json)) : Prop where
  /-- An object is a context if every member is a string, a number or an array. -/
  exists_ok_iff : (∃ c, ofJson (.obj members) = .ok c) ↔
    ∀ key j, Json.lastMember? key members = some j → Attribute.Accepts j
  mem_keys_iff : ∀ c, ofJson (.obj members) = .ok c → ∀ key,
    key ∈ c.attributes.keys ↔ ∃ j, Json.lastMember? key members = some j
  /-- What the strict reader accepts has the value that it gives. -/
  strict : ∀ c, ofJson (.obj members) = .ok c → ∀ key j a,
    Json.lastMember? key members = some j → Attribute.ofJson? j = some a → c.get? key = some a
  /-- All else is arrays, of which the strings are kept in their order. -/
  lenient : ∀ c, ofJson (.obj members) = .ok c → ∀ key j,
    Json.lastMember? key members = some j → Attribute.ofJson? j = none →
      ∃ items, j = .arr items ∧ c.get? key = some (.list (items.filterMap Json.str?))
  /-- Of all members of another kind the one with the smallest key is reported. -/
  error_iff : ∀ err, ofJson (.obj members) = .error err ↔
    ∃ key, err = .attribute (.invalidAttribute key) ∧ IsLeastRefused key members
  /-- A text is read like the members that it writes. -/
  text : ∀ text, Json.ofText text = .ok (.obj members) →
    ofText text = (ofMembers members).mapError fun e => .data (some e)

/-- **A context is read from exactly the objects of strings, numbers and arrays**, as strictly as
they allow; else the smallest key at fault is reported. -/
theorem reads_members (members : List (String × Json)) : ReadsMembers members := by
  refine
    { exists_ok_iff := ⟨fun ⟨c, hc⟩ => (accepts_and_get?_of_ofJson hc).1, fun h => ?_⟩
      mem_keys_iff := fun c hc key => mem_keys_of_ofJson hc key
      strict := fun c hc key j a hj ha => ?_
      lenient := fun c hc key j hj hstrict => ?_
      error_iff := fun err => ⟨fun herr => ?_, ?_⟩
      text := fun _ => ofText_of_obj }
  · rcases ofJson_obj members with ⟨c, hc, -⟩ | ⟨key, -, hleast⟩
    · exact ⟨c, hc⟩
    · obtain ⟨j, hj, hrefused⟩ := hleast.refused
      exact absurd hrefused (Attribute.accepts_iff.1 (h key j hj))
  · rw [get?_of_ofJson hc hj, Attribute.ofClient?_of_ofJson? ha]
  · have haccepts := (accepts_and_get?_of_ofJson hc).1 key j hj
    obtain ⟨items, hitems, hlist⟩ := Attribute.eq_arr_of_ofJson?_eq_none hstrict haccepts
    exact ⟨items, hitems, (get?_of_ofJson hc hj).trans hlist⟩
  · rcases ofJson_obj members with ⟨c, hc, -⟩ | ⟨key, hkey, hleast⟩
    · rw [hc] at herr
      cases herr
    · rw [hkey] at herr
      exact ⟨key, (Except.error.inj herr).symm, hleast⟩
  · rintro ⟨key, rfl, hleast⟩
    rcases ofJson_obj members with ⟨c, -, haccepts, -⟩ | ⟨key', hkey', hleast'⟩
    · obtain ⟨j, hj, hrefused⟩ := hleast.refused
      exact absurd hrefused (Attribute.accepts_iff.1 (haccepts key j hj))
    · rw [hkey', hleast.unique hleast']

/-- A text whose object has two members at fault, and one more that a later member with the same key
hides. By their bytes capitals come before small letters, and these before letters with accents. -/
theorem reads_members_of_faults :
    ∃ text members, Json.ofText text = .ok (.obj members) ∧
      members.map (·.1) = ["é", "a", "Z", "a"] ∧ IsLeastRefused "Z" members ∧
      ofText text = .error (.data (some (.invalidAttribute "Z"))) := by
  let members : List (String × Json) :=
    [("é", .null), ("a", .bool true), ("Z", .obj []), ("a", .arr [.int 1])]
  have hfits : Json.Fits Json.depthLimit (.obj members) := by
    simp [members, Json.depthLimit, Json.Fits]
  have htext : Json.ofText (Json.obj members).compact = .ok (.obj members) :=
    Json.ofText_compact hfits
  have herror : ofJson (.obj members) = .error (.attribute (.invalidAttribute "Z")) := rfl
  obtain ⟨key, hkey, hleast⟩ := ((reads_members members).error_iff _).1 herror
  cases hkey
  exact ⟨_, members, htext, rfl, hleast, (reads_members members).text _ htext⟩

end Context

end FlagFanout
