/-!
# Maps kept in key order

`KeyMap κ α` is a finite map from `κ` to `α`, held as the list of its entries in strictly
increasing key order. The order is part of the type, so two maps with the same entries are the
same value, whatever the order in which they were filled: `ext_get?` says that a map is
determined by what its keys are mapped to.

The main statements are one equation per operation, through `get?`: `get?_insert`, `get?_erase`,
`get?_mapValues`, `get?_modify`, `get?_overlay`.
-/

namespace FlagFanout

universe u v w

/-- A finite map, as the list of its entries in strictly increasing key order. -/
structure KeyMap (κ : Type u) (α : Type v) [Ord κ] where
  entries : List (κ × α)
  sorted : entries.Pairwise fun e f => compare e.1 f.1 = .lt

namespace KeyMap

variable {κ : Type u} {α : Type v} {β : Type w} [Ord κ]

/-! ## Looking up -/

section Lookup

variable [DecidableEq κ]

/-- The value of the entry for `k` in a list of entries. -/
def lookup (k : κ) : List (κ × α) → Option α
  | [] => none
  | e :: rest => if k = e.1 then some e.2 else lookup k rest

/-- The value at a key. -/
def get? (m : KeyMap κ α) (k : κ) : Option α := lookup k m.entries

/-- Whether a key has a value. -/
def contains (m : KeyMap κ α) (k : κ) : Bool := (m.get? k).isSome

end Lookup

/-- The entries in key order. -/
def toList (m : KeyMap κ α) : List (κ × α) := m.entries

/-- The keys in order. -/
def keys (m : KeyMap κ α) : List κ := m.entries.map (·.1)

/-- The values in the order of their keys. -/
def values (m : KeyMap κ α) : List α := m.entries.map (·.2)

/-- The number of entries. -/
def size (m : KeyMap κ α) : Nat := m.entries.length

/-- Whether there is no entry. -/
def isEmpty (m : KeyMap κ α) : Bool := m.entries.isEmpty

/-- The map without entries. -/
def empty : KeyMap κ α := ⟨[], .nil⟩

instance : EmptyCollection (KeyMap κ α) := ⟨empty⟩

instance : Inhabited (KeyMap κ α) := ⟨empty⟩

instance [DecidableEq κ] [DecidableEq α] : DecidableEq (KeyMap κ α) := fun m n =>
  decidable_of_iff (m.entries = n.entries) <| by
    obtain ⟨l, hl⟩ := m
    obtain ⟨r, hr⟩ := n
    simp

/-! ## Writing -/

/-- Puts an entry at its place in a sorted list, in place of the one with an equal key. -/
def place (k : κ) (a : α) : List (κ × α) → List (κ × α)
  | [] => [(k, a)]
  | e :: rest =>
    match compare k e.1 with
    | .lt => (k, a) :: e :: rest
    | .eq => (k, a) :: rest
    | .gt => e :: place k a rest

theorem mem_place {k : κ} {a : α} {e : κ × α} {l : List (κ × α)} (h : e ∈ place k a l) :
    e = (k, a) ∨ e ∈ l := by
  induction l with
  | nil => simpa [place] using h
  | cons f rest ih =>
    simp only [place] at h
    split at h
    · simpa using h
    · rcases List.mem_cons.1 h with h | h
      · exact .inl h
      · exact .inr (List.mem_cons_of_mem _ h)
    · rcases List.mem_cons.1 h with h | h
      · exact .inr (h ▸ List.mem_cons_self)
      · exact (ih h).imp id (List.mem_cons_of_mem _)

section Lawful

variable [Std.TransOrd κ] [Std.LawfulEqOrd κ]

theorem place_sorted (k : κ) (a : α) {l : List (κ × α)}
    (h : l.Pairwise fun e f => compare e.1 f.1 = .lt) :
    (place k a l).Pairwise fun e f => compare e.1 f.1 = .lt := by
  induction l with
  | nil => simp [place]
  | cons e rest ih =>
    obtain ⟨he, hrest⟩ := List.pairwise_cons.1 h
    simp only [place]
    split
    · next hlt =>
      refine List.pairwise_cons.2 ⟨fun f hf => ?_, h⟩
      rcases List.mem_cons.1 hf with rfl | hf
      · exact hlt
      · exact Std.TransCmp.lt_trans hlt (he f hf)
    · next heq =>
      have hk : k = e.1 := Std.LawfulEqCmp.compare_eq_iff_eq.1 heq
      exact List.pairwise_cons.2 ⟨fun f hf => hk ▸ he f hf, hrest⟩
    · next hgt =>
      refine List.pairwise_cons.2 ⟨fun f hf => ?_, ih hrest⟩
      rcases mem_place hf with rfl | hf
      · exact Std.OrientedCmp.gt_iff_lt.1 hgt
      · exact he f hf

/-- The map with `a` at `k`, whatever was there before. -/
def insert (m : KeyMap κ α) (k : κ) (a : α) : KeyMap κ α :=
  ⟨place k a m.entries, place_sorted k a m.sorted⟩

/-- The map with the entries of a list written one after the other, so the last one of a key
stands. -/
def ofList (l : List (κ × α)) : KeyMap κ α :=
  l.foldl (fun m e => m.insert e.1 e.2) empty

/-- The entries of `top` laid on top of those of `base`. -/
def overlay (base top : KeyMap κ α) : KeyMap κ α :=
  top.entries.foldl (fun m e => m.insert e.1 e.2) base

end Lawful

/-- The entries that satisfy a test. -/
def filter (m : KeyMap κ α) (p : κ → α → Bool) : KeyMap κ α :=
  ⟨m.entries.filter fun e => p e.1 e.2, m.sorted.filter _⟩

/-- Every value changed, knowing its key. -/
def mapValues (m : KeyMap κ α) (f : κ → α → β) : KeyMap κ β :=
  ⟨m.entries.map fun e => (e.1, f e.1 e.2), List.Pairwise.map _ (fun _ _ h => h) m.sorted⟩

/-- The entries whose value `f` keeps, with the value that it gives. -/
def filterMap (m : KeyMap κ α) (f : κ → α → Option β) : KeyMap κ β :=
  ⟨m.entries.filterMap fun e => (f e.1 e.2).map (e.1, ·), by
    refine List.Pairwise.filterMap _ (fun e e' h d hd d' hd' => ?_) m.sorted
    obtain ⟨a, -, rfl⟩ := Option.map_eq_some_iff.1 hd
    obtain ⟨b, -, rfl⟩ := Option.map_eq_some_iff.1 hd'
    exact h⟩

variable [DecidableEq κ]

/-- The map without an entry for `k`. -/
def erase (m : KeyMap κ α) (k : κ) : KeyMap κ α := m.filter fun k' _ => k' ≠ k

/-- The value at one key changed, if there is one. -/
def modify (m : KeyMap κ α) (k : κ) (f : α → α) : KeyMap κ α :=
  m.mapValues fun k' a => if k' = k then f a else a

/-! ## One equation per operation -/

@[simp] theorem get?_empty (k : κ) : (empty : KeyMap κ α).get? k = none := rfl

@[simp] theorem get?_mapValues (m : KeyMap κ α) (f : κ → α → β) (k : κ) :
    (m.mapValues f).get? k = (m.get? k).map (f k) := by
  obtain ⟨l, hl⟩ := m
  simp only [get?, mapValues]
  clear hl
  induction l with
  | nil => rfl
  | cons e rest ih =>
    simp only [List.map_cons, lookup, ih]
    split
    · next h => simp [h]
    · rfl

@[simp] theorem get?_modify (m : KeyMap κ α) (k : κ) (f : α → α) (k' : κ) :
    (m.modify k f).get? k' = if k' = k then (m.get? k').map f else m.get? k' := by
  rw [modify, get?_mapValues]
  split <;> simp

@[simp] theorem get?_erase (m : KeyMap κ α) (k k' : κ) :
    (m.erase k).get? k' = if k' = k then none else m.get? k' := by
  obtain ⟨l, hl⟩ := m
  simp only [get?, erase, filter]
  clear hl
  induction l with
  | nil => simp [lookup]
  | cons e rest ih =>
    by_cases hk : e.1 = k
    · simp only [List.filter_cons, hk, ne_eq, not_true_eq_false, decide_false, Bool.false_eq_true,
        if_false, ih, lookup]
      split <;> rfl
    · simp only [List.filter_cons, hk, ne_eq, not_false_eq_true, decide_true, if_true, lookup, ih]
      by_cases h : k' = e.1
      · simp [h, hk]
      · simp [h]

variable [Std.LawfulEqOrd κ]

omit [DecidableEq κ] in
theorem compare_self (k : κ) : compare k k = .eq := Std.LawfulEqCmp.compare_eq_iff_eq.2 rfl

omit [DecidableEq κ] in
theorem compare_self_ne_lt (k : κ) : compare k k ≠ .lt := by
  rw [compare_self]
  decide

omit [DecidableEq κ] in
theorem keys_ne (m : KeyMap κ α) : m.entries.Pairwise fun e f => e.1 ≠ f.1 :=
  m.sorted.imp fun {e f} (h : compare e.1 f.1 = .lt) hk => compare_self_ne_lt f.1 (hk ▸ h)

omit [Ord κ] [Std.LawfulEqOrd κ] in
/-- Where no two entries have one key, a key has the value of its entry. -/
theorem lookup_eq_some_iff_mem {k : κ} {a : α} {l : List (κ × α)}
    (h : l.Pairwise fun e f => e.1 ≠ f.1) : lookup k l = some a ↔ (k, a) ∈ l := by
  induction l with
  | nil => simp [lookup]
  | cons e rest ih =>
    obtain ⟨he, hrest⟩ := List.pairwise_cons.1 h
    obtain ⟨k', b⟩ := e
    simp only [lookup, List.mem_cons, Prod.mk.injEq]
    split
    · next hk =>
      subst hk
      constructor
      · intro ha
        exact .inl ⟨rfl, (Option.some.inj ha).symm⟩
      · rintro (⟨-, ha⟩ | ha)
        · rw [ha]
        · exact absurd rfl (he (k, a) ha)
    · next hk =>
      rw [ih hrest]
      exact ⟨.inr, fun ha => ha.resolve_left fun hke => hk hke.1⟩

/-- A key has the value of its entry. -/
theorem get?_eq_some_iff_mem {m : KeyMap κ α} {k : κ} {a : α} :
    m.get? k = some a ↔ (k, a) ∈ m.entries :=
  lookup_eq_some_iff_mem m.keys_ne

variable [Std.TransOrd κ]

@[simp] theorem get?_insert (m : KeyMap κ α) (k : κ) (a : α) (k' : κ) :
    (m.insert k a).get? k' = if k' = k then some a else m.get? k' := by
  obtain ⟨l, hl⟩ := m
  simp only [get?, insert]
  clear hl
  induction l with
  | nil => rfl
  | cons e rest ih =>
    simp only [place]
    split
    · rfl
    · next heq =>
      have hk : k = e.1 := Std.LawfulEqCmp.compare_eq_iff_eq.1 heq
      by_cases h : k' = e.1 <;> simp [lookup, hk, h]
    · next hgt =>
      have hk : e.1 ≠ k := fun h => by
        rw [← h, compare_self] at hgt
        exact absurd hgt (by decide)
      simp only [lookup, ih]
      by_cases h : k' = e.1
      · simp [h, hk]
      · simp [h]

/-- A map is determined by the values of its keys. -/
theorem ext_get? {m n : KeyMap κ α} (h : ∀ k, m.get? k = n.get? k) : m = n := by
  have hmem : ∀ e, e ∈ m.entries ↔ e ∈ n.entries := fun e => by
    rw [← get?_eq_some_iff_mem (k := e.1) (a := e.2), h, get?_eq_some_iff_mem]
  obtain ⟨l, hl⟩ := m
  obtain ⟨r, hr⟩ := n
  suffices l = r by subst this; rfl
  simp only at hmem
  clear h
  induction l generalizing r with
  | nil =>
    cases r with
    | nil => rfl
    | cons f _ => exact absurd ((hmem f).2 List.mem_cons_self) (by simp)
  | cons e rest ih =>
    cases r with
    | nil => exact absurd ((hmem e).1 List.mem_cons_self) (by simp)
    | cons f tail =>
      obtain ⟨he, hrest⟩ := List.pairwise_cons.1 hl
      obtain ⟨hf, htail⟩ := List.pairwise_cons.1 hr
      have hef : e = f := by
        rcases List.mem_cons.1 ((hmem e).1 List.mem_cons_self) with h | h
        · exact h
        rcases List.mem_cons.1 ((hmem f).2 List.mem_cons_self) with h' | h'
        · exact h'.symm
        exact absurd (Std.TransCmp.lt_trans (hf e h) (he f h')) (compare_self_ne_lt f.1)
      subst hef
      refine congrArg (e :: ·) (ih hrest tail htail fun g => ?_)
      constructor
      · intro hg
        rcases List.mem_cons.1 ((hmem g).1 (List.mem_cons_of_mem _ hg)) with rfl | h
        · exact absurd (he g hg) (compare_self_ne_lt g.1)
        · exact h
      · intro hg
        rcases List.mem_cons.1 ((hmem g).2 (List.mem_cons_of_mem _ hg)) with rfl | h
        · exact absurd (hf g hg) (compare_self_ne_lt g.1)
        · exact h

theorem get?_foldl_insert (l : List (κ × α)) (m : KeyMap κ α) (k : κ) :
    (l.foldl (fun m e => m.insert e.1 e.2) m).get? k =
      (lookup k l.reverse).or (m.get? k) := by
  induction l generalizing m with
  | nil => rfl
  | cons e rest ih =>
    have happ : ∀ r : List (κ × α), lookup k (r ++ [e]) =
        (lookup k r).or (if k = e.1 then some e.2 else none) := fun r => by
      induction r with
      | nil => simp [lookup]
      | cons f r ihr => simp only [List.cons_append, lookup, ihr]; split <;> simp
    rw [List.foldl_cons, ih, get?_insert, List.reverse_cons, happ, Option.or_assoc]
    congr 1
    split <;> simp

/-- In a map filled from a list the last entry of a key stands. -/
theorem get?_ofList (l : List (κ × α)) (k : κ) : (ofList l).get? k = lookup k l.reverse := by
  rw [ofList, get?_foldl_insert, get?_empty, Option.or_none]

/-- What lies on top wins; elsewhere the map below shows through. -/
@[simp] theorem get?_overlay (base top : KeyMap κ α) (k : κ) :
    (base.overlay top).get? k = (top.get? k).or (base.get? k) := by
  rw [overlay, get?_foldl_insert]
  congr 1
  refine Option.ext fun a => ?_
  have hrev : top.entries.reverse.Pairwise fun e f => e.1 ≠ f.1 :=
    List.pairwise_reverse.2 (top.keys_ne.imp Ne.symm)
  rw [lookup_eq_some_iff_mem hrev, List.mem_reverse, get?_eq_some_iff_mem]

end KeyMap

end FlagFanout
