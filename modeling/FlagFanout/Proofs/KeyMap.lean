import FlagFanout.KeyMap

/-!
# Entries of maps kept in key order

What a map says through `get?`, said of the list of its entries: no key occurs twice, a map
without entries has a value nowhere, a map that was just written is not empty, and the entries are
all that it takes to fill the map again. The equation for `KeyMap.filterMap` stands here too.
-/

namespace FlagFanout.KeyMap

universe u v

variable {κ : Type u} {α : Type v} [Ord κ] [Std.LawfulEqOrd κ]

theorem nodup_keys (m : KeyMap κ α) : m.keys.Nodup :=
  List.pairwise_map.2 m.keys_ne

variable [DecidableEq κ]

omit [Ord κ] [Std.LawfulEqOrd κ] in
theorem lookup_eq_find? (k : κ) (l : List (κ × α)) :
    lookup k l = (l.find? (·.1 = k)).map (·.2) := by
  induction l with
  | nil => rfl
  | cons e rest ih =>
    rw [lookup, List.find?_cons, ih]
    by_cases h : e.1 = k
    · simp [h]
    · simp [h, Ne.symm h]

theorem get?_eq_none_iff {m : KeyMap κ α} {k : κ} : m.get? k = none ↔ ∀ a, (k, a) ∉ m.entries := by
  rw [Option.eq_none_iff_forall_ne_some]
  exact forall_congr' fun a => not_congr get?_eq_some_iff_mem

theorem mem_keys_iff {m : KeyMap κ α} {k : κ} : k ∈ m.keys ↔ ∃ a, m.get? k = some a := by
  simp only [keys, List.mem_map, get?_eq_some_iff_mem]
  constructor
  · rintro ⟨e, he, rfl⟩
    exact ⟨e.2, he⟩
  · rintro ⟨a, ha⟩
    exact ⟨(k, a), ha, rfl⟩

theorem isEmpty_iff {m : KeyMap κ α} : m.isEmpty = true ↔ ∀ k, m.get? k = none := by
  constructor
  · intro h k
    have hnil : m.entries = [] := List.isEmpty_iff.1 h
    rw [get?_eq_none_iff, hnil]
    simp
  · intro h
    refine List.isEmpty_iff.2 (List.eq_nil_iff_forall_not_mem.2 fun e he => ?_)
    exact get?_eq_none_iff.1 (h e.1) e.2 he

theorem isEmpty_eq_false_of_get? {m : KeyMap κ α} {k : κ} {a : α} (h : m.get? k = some a) :
    m.isEmpty = false := by
  cases hm : m.isEmpty with
  | false => rfl
  | true => rw [isEmpty_iff.1 hm k] at h; cases h

theorem mem_values_iff {m : KeyMap κ α} {a : α} : a ∈ m.values ↔ ∃ k, m.get? k = some a := by
  simp only [values, List.mem_map, get?_eq_some_iff_mem]
  constructor
  · rintro ⟨e, he, rfl⟩
    exact ⟨e.1, he⟩
  · rintro ⟨k, hk⟩
    exact ⟨(k, a), hk, rfl⟩

theorem get?_filter_eq_some_iff {m : KeyMap κ α} {p : κ → α → Bool} {k : κ} {a : α} :
    (m.filter p).get? k = some a ↔ m.get? k = some a ∧ p k a = true := by
  simp only [get?_eq_some_iff_mem, filter, List.mem_filter]

@[simp] theorem get?_filterMap {β : Type v} (m : KeyMap κ α) (f : κ → α → Option β) (k : κ) :
    (m.filterMap f).get? k = (m.get? k).bind (f k) := by
  refine Option.ext fun b => ?_
  rw [get?_eq_some_iff_mem, Option.bind_eq_some_iff]
  simp only [filterMap, List.mem_filterMap, Option.map_eq_some_iff, Prod.mk.injEq]
  constructor
  · rintro ⟨e, he, b', hb, rfl, rfl⟩
    exact ⟨e.2, get?_eq_some_iff_mem.2 he, hb⟩
  · rintro ⟨a, ha, hb⟩
    exact ⟨(k, a), get?_eq_some_iff_mem.1 ha, b, hb, rfl, rfl⟩

@[simp] theorem isEmpty_insert [Std.TransOrd κ] (m : KeyMap κ α) (k : κ) (a : α) :
    (m.insert k a).isEmpty = false :=
  isEmpty_eq_false_of_get? (k := k) (a := a) (by simp)

/-- A map is filled from its own entries. -/
@[simp] theorem ofList_toList [Std.TransOrd κ] (m : KeyMap κ α) : ofList m.toList = m := by
  refine ext_get? fun k => Option.ext fun a => ?_
  have hrev : m.toList.reverse.Pairwise fun e f => e.1 ≠ f.1 :=
    List.pairwise_reverse.2 (m.keys_ne.imp Ne.symm)
  rw [get?_ofList, lookup_eq_some_iff_mem hrev, List.mem_reverse, get?_eq_some_iff_mem, toList]

/-- A map with other values is filled from the entries with these. -/
theorem ofList_map_toList [Std.TransOrd κ] {β : Type v} (m : KeyMap κ α) (f : α → β) :
    ofList (m.toList.map fun e => (e.1, f e.2)) = m.mapValues fun _ => f :=
  ofList_toList (m.mapValues fun _ => f)

end FlagFanout.KeyMap
