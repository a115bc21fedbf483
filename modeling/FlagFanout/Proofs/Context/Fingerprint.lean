import FlagFanout.Context.Fingerprint
import FlagFanout.Proofs.Context.Equality
import Mathlib.Algebra.Group.Nat.Defs

/-!
# What the bytes of a context tell

The bytes of a context carry neither the number of its attributes nor the length of a text, and a
number may hold any byte. They can be read back all the same, from the front: a text ends at its
first `0xFF`, the tag behind a key says what follows, a number takes eight bytes and a list says how
many texts it has. So of two sequences that begin with what was written for some part, the parts and
the rests are the same (`terminated_append_inj`, `littleEndian_append_inj`,
`Attribute.bytes_append_inj`), and `Context.bytes_eq_iff` says that the bytes tell a context up to
the signs of its zeros.

`Context.isFaithful` draws the conclusion: without NaNs, the bytes are the same exactly for equal
contexts, so nothing but the hash can bring unequal contexts together, and equal ones come together
in whatever order their attributes were set.
-/

namespace FlagFanout

/-! ## Texts -/

theorem utf8_injective {s t : String} (h : utf8 s = utf8 t) : s = t := by
  refine String.toByteArray_inj.1 ?_
  rw [← String.utf8Encode_toList, ← String.utf8Encode_toList]
  exact congrArg List.toByteArray h

/-- No UTF-8 text contains the byte that ends a text. -/
theorem terminator_notMem_utf8 (s : String) : 0xFF ∉ utf8 s := by
  intro h
  obtain ⟨c, -, hc⟩ := List.mem_flatMap.1 h
  have hne : ∀ n < 0xFF, (0xFF : UInt8) ≠ UInt8.ofNat n := fun n hn heq => by
    have hmod : n % 2 ^ 8 = 0xFF := (UInt8.ofNat_eq_iff_mod_eq_toNat n 0xFF).1 heq.symm
    omega
  simp only [String.utf8EncodeChar] at hc
  split at hc
  · exact hne _ (by omega) (List.mem_singleton.1 hc)
  · split at hc
    · simp only [List.mem_cons, List.not_mem_nil, or_false] at hc
      rcases hc with hc | hc <;> exact hne _ (by omega) hc
    · split at hc <;> simp only [List.mem_cons, List.not_mem_nil, or_false] at hc
      · rcases hc with hc | hc | hc <;> exact hne _ (by omega) hc
      · rcases hc with hc | hc | hc | hc <;> exact hne _ (by omega) hc

/-- What stands before the first occurrence of a value, and what stands behind it. -/
theorem append_cons_inj {α : Type} {a : α} {l l' r r' : List α} (hl : a ∉ l) (hl' : a ∉ l')
    (h : l ++ a :: r = l' ++ a :: r') : l = l' ∧ r = r' := by
  induction l generalizing l' with
  | nil =>
    cases l' with
    | nil => exact ⟨rfl, (List.cons.inj h).2⟩
    | cons b _ =>
      obtain ⟨rfl, -⟩ := List.cons.inj h
      exact absurd List.mem_cons_self hl'
  | cons b rest ih =>
    cases l' with
    | nil =>
      obtain ⟨rfl, -⟩ := List.cons.inj h
      exact absurd List.mem_cons_self hl
    | cons b' rest' =>
      obtain ⟨rfl, htail⟩ := List.cons.inj h
      obtain ⟨rfl, hr⟩ := ih (fun hm => hl (.tail _ hm)) (fun hm => hl' (.tail _ hm)) htail
      exact ⟨rfl, hr⟩

/-- A text ends at its terminator, whatever follows. -/
theorem terminated_append_inj {s t : String} {r r' : List UInt8}
    (h : terminated s ++ r = terminated t ++ r') : s = t ∧ r = r' := by
  simp only [terminated, List.append_assoc, List.singleton_append] at h
  obtain ⟨htext, hrest⟩ :=
    append_cons_inj (terminator_notMem_utf8 s) (terminator_notMem_utf8 t) h
  exact ⟨utf8_injective htext, hrest⟩

/-- So many texts, one after the other, end with the last of them. -/
theorem flatMap_terminated_append_inj {xs ys : List String} {r r' : List UInt8}
    (hlength : xs.length = ys.length)
    (h : xs.flatMap terminated ++ r = ys.flatMap terminated ++ r') : xs = ys ∧ r = r' := by
  induction xs generalizing ys with
  | nil =>
    obtain rfl : ys = [] := List.length_eq_zero_iff.1 hlength.symm
    exact ⟨rfl, h⟩
  | cons x xs ih =>
    cases ys with
    | nil => cases hlength
    | cons y ys =>
      simp only [List.flatMap_cons, List.append_assoc] at h
      obtain ⟨rfl, htail⟩ := terminated_append_inj h
      obtain ⟨rfl, hrest⟩ := ih (Nat.succ.inj hlength) htail
      exact ⟨rfl, hrest⟩

/-! ## Words -/

@[simp] theorem length_littleEndian (w : UInt64) : (littleEndian w).length = 8 := by
  simp [littleEndian]

/-- The bytes of a word are its digits to the base 256. -/
theorem map_toNat_littleEndian (w : UInt64) : (littleEndian w).map UInt8.toNat =
    (List.range 8).map fun i => w.toNat / 2 ^ (8 * i) % 2 ^ 8 := by
  rw [littleEndian, List.map_map]
  refine List.map_congr_left fun i hi => ?_
  have hlt : i < 8 := List.mem_range.1 hi
  have hword : (UInt64.ofNat (8 * i)).toNat % 64 = 8 * i := by
    rw [UInt64.toNat_ofNat']
    omega
  rw [Function.comp_apply, UInt64.toNat_toUInt8, UInt64.toNat_shiftRight, hword,
    Nat.shiftRight_eq_div_pow]

theorem littleEndian_injective {v w : UInt64} (h : littleEndian v = littleEndian w) : v = w := by
  have hdigits := congrArg (List.map UInt8.toNat) h
  rw [map_toNat_littleEndian, map_toNat_littleEndian, List.map_inj_left] at hdigits
  have hlow : ∀ k ≤ 8, v.toNat % 2 ^ (8 * k) = w.toNat % 2 ^ (8 * k) := by
    intro k hk
    induction k with
    | zero => simp [Nat.mod_one]
    | succ k ih =>
      rw [Nat.mul_succ, Nat.pow_add, Nat.mod_mul, Nat.mod_mul, ih (Nat.le_of_succ_le hk),
        hdigits k (List.mem_range.2 hk)]
  have hword := hlow 8 (Nat.le_refl 8)
  rw [Nat.mod_eq_of_lt v.toNat_lt, Nat.mod_eq_of_lt w.toNat_lt] at hword
  exact UInt64.toNat_inj.1 hword

/-- A word takes eight bytes, whatever follows. -/
theorem littleEndian_append_inj {v w : UInt64} {r r' : List UInt8}
    (h : littleEndian v ++ r = littleEndian w ++ r') : v = w ∧ r = r' := by
  obtain ⟨hword, hrest⟩ := List.append_inj h (by simp)
  exact ⟨littleEndian_injective hword, hrest⟩

/-! ## Attributes -/

namespace Binary64

@[simp] theorem isZero_zero (negative : Bool) : (zero negative).isZero = true := by
  cases negative <;> decide

@[simp] theorem mergeZeros_zero (negative : Bool) : (zero negative).mergeZeros = zero false :=
  if_pos (isZero_zero negative)

@[simp] theorem mergeZeros_mergeZeros (x : Binary64) : x.mergeZeros.mergeZeros = x.mergeZeros := by
  by_cases h : x.isZero = true
  · have hx : x.mergeZeros = zero false := if_pos h
    rw [hx, mergeZeros_zero]
  · have hx : x.mergeZeros = x := if_neg h
    rw [hx, hx]

/-- A zero stands at the place 0. -/
theorem rank_of_isZero {x : Binary64} (h : x.isZero = true) : x.rank = 0 := by
  have hmagnitude : x.magnitudeBits = 0 := of_decide_eq_true h
  rw [rank, hmagnitude]
  split <;> rfl

/-- Numbers are equal if they are the same but for the signs of zeros. -/
theorem beq_iff_mergeZeros {x y : Binary64} (hx : x.isNaN = false) (hy : y.isNaN = false) :
    (x == y) = true ↔ x.mergeZeros = y.mergeZeros := by
  constructor
  · intro h
    rcases eq_or_zeros_of_beq h with rfl | ⟨negative, rfl, rfl⟩
    · rfl
    · rw [mergeZeros_zero, mergeZeros_zero]
  · intro h
    refine beq_iff.2 ⟨hx, hy, ?_⟩
    unfold mergeZeros at h
    by_cases hx0 : x.isZero = true <;> by_cases hy0 : y.isZero = true
    · rw [rank_of_isZero hx0, rank_of_isZero hy0]
    · rw [if_pos hx0, if_neg hy0] at h
      exact absurd (h ▸ isZero_zero false) hy0
    · rw [if_neg hx0, if_pos hy0] at h
      exact absurd (h ▸ isZero_zero false) hx0
    · rw [if_neg hx0, if_neg hy0] at h
      rw [h]

end Binary64

namespace Attribute

/-- Whether the attribute is a NaN. -/
def isNaN : Attribute → Bool
  | text _ => false
  | number x => x.isNaN
  | list _ => false

/-- Whether the length of the attribute, if it is a list, fits a word. -/
def fits : Attribute → Bool
  | text _ => true
  | number _ => true
  | list items => items.length < 2 ^ 64

/-- The attribute with the zeros made one. -/
def mergeZeros : Attribute → Attribute
  | text s => text s
  | number x => number x.mergeZeros
  | list items => list items

@[simp] theorem bytes_mergeZeros (a : Attribute) : a.mergeZeros.bytes = a.bytes := by
  cases a with
  | text s => rfl
  | number x => rw [mergeZeros, bytes, bytes, Binary64.mergeZeros_mergeZeros]
  | list items => rfl

/-- Attributes are equal if they are the same but for the signs of zeros. -/
theorem beq_iff_mergeZeros {a b : Attribute} (ha : a.isNaN = false) (hb : b.isNaN = false) :
    (a == b) = true ↔ a.mergeZeros = b.mergeZeros := by
  change Attribute.beq a b = true ↔ _
  cases a <;> cases b <;>
    simp only [Attribute.beq, mergeZeros, decide_eq_true_eq, text.injEq, number.injEq, list.injEq,
      reduceCtorEq, Bool.false_eq_true]
  case number.number x y => exact Binary64.beq_iff_mergeZeros ha hb

/-- An attribute ends where its kind says, whatever follows. -/
theorem bytes_append_inj {a b : Attribute} {r r' : List UInt8} (ha : a.fits = true)
    (hb : b.fits = true) (h : a.bytes ++ r = b.bytes ++ r') :
    a.mergeZeros = b.mergeZeros ∧ r = r' := by
  cases a <;> cases b <;> simp only [bytes, List.cons_append] at h <;>
    obtain ⟨htag, htail⟩ := List.cons.inj h
  case text.text s t =>
    obtain ⟨rfl, hrest⟩ := terminated_append_inj htail
    exact ⟨rfl, hrest⟩
  case number.number x y =>
    obtain ⟨hbits, hrest⟩ := littleEndian_append_inj htail
    have hnumber : x.mergeZeros = y.mergeZeros := congrArg Binary64.mk hbits
    exact ⟨congrArg number hnumber, hrest⟩
  case list.list xs ys =>
    rw [List.append_assoc, List.append_assoc] at htail
    obtain ⟨hword, hitems⟩ := littleEndian_append_inj htail
    have hxs : xs.length < 2 ^ 64 := of_decide_eq_true ha
    have hys : ys.length < 2 ^ 64 := of_decide_eq_true hb
    have hlength := congrArg UInt64.toNat hword
    rw [UInt64.toNat_ofNat', UInt64.toNat_ofNat', Nat.mod_eq_of_lt hxs,
      Nat.mod_eq_of_lt hys] at hlength
    obtain ⟨rfl, hrest⟩ := flatMap_terminated_append_inj hlength hitems
    exact ⟨rfl, hrest⟩
  -- the tags of two kinds differ
  all_goals exact absurd htag (by decide)

end Attribute

/-! ## Contexts -/

namespace Context

/-- Whether a number among the attributes is a NaN. -/
def hasNaN (c : Context) : Bool := c.attributes.toList.any (·.2.isNaN)

/-- Whether the length of every list among the attributes fits a word, as that of a list in memory
does. One of `2 ^ 64` texts would be written like an empty list with other attributes behind it. -/
def fits (c : Context) : Bool := c.attributes.toList.all (·.2.fits)

/-- The context with the zeros made one. -/
def mergeZeros (c : Context) : Context := ⟨c.attributes.mapValues fun _ a => a.mergeZeros⟩

theorem bytes_mergeZeros (c : Context) : c.mergeZeros.bytes = c.bytes := by
  obtain ⟨⟨entries, sorted⟩⟩ := c
  change (entries.map fun e => (e.1, e.2.mergeZeros)).flatMap
    (fun e => terminated e.1 ++ e.2.bytes) = entries.flatMap fun e => terminated e.1 ++ e.2.bytes
  rw [List.flatMap_map]
  simp only [Attribute.bytes_mergeZeros]

/-- Equal contexts have the same bytes. -/
theorem bytes_eq_of_beq {c d : Context} (h : (c == d) = true) : c.bytes = d.bytes := by
  have hmerged : ∀ (c : Context) key, c.mergeZeros.get? key = (c.get? key).map .mergeZeros :=
    fun c key => KeyMap.get?_mapValues ..
  rw [← c.bytes_mergeZeros, ← d.bytes_mergeZeros]
  refine congrArg bytes (ext_get? fun key => ?_)
  rw [hmerged, hmerged]
  rcases alike_of_beq h key with heq | ⟨negative, hc, hd⟩
  · rw [heq]
  · rw [hc, hd, Option.map_some, Option.map_some, Attribute.mergeZeros, Attribute.mergeZeros,
      Binary64.mergeZeros_zero, Binary64.mergeZeros_zero]

/-- Attributes one after the other can be told apart. -/
theorem map_mergeZeros_of_flatMap {l l' : List (String × Attribute)}
    (hl : ∀ e ∈ l, e.2.fits = true) (hl' : ∀ e ∈ l', e.2.fits = true)
    (h : (l.flatMap fun e => terminated e.1 ++ e.2.bytes) =
      l'.flatMap fun e => terminated e.1 ++ e.2.bytes) :
    l.map (fun e => (e.1, e.2.mergeZeros)) = l'.map fun e => (e.1, e.2.mergeZeros) := by
  induction l generalizing l' with
  | nil =>
    cases l' with
    | nil => rfl
    | cons e' rest' => simp [terminated] at h
  | cons e rest ih =>
    cases l' with
    | nil => simp [terminated] at h
    | cons e' rest' =>
      simp only [List.flatMap_cons, List.append_assoc] at h
      obtain ⟨hkey, hvalues⟩ := terminated_append_inj h
      obtain ⟨hvalue, hrest⟩ :=
        Attribute.bytes_append_inj (hl e List.mem_cons_self) (hl' e' List.mem_cons_self) hvalues
      have htail := ih (fun f hf => hl f (.tail _ hf)) (fun f hf => hl' f (.tail _ hf)) hrest
      rw [List.map_cons, List.map_cons, hkey, hvalue, htail]

/-- **The bytes tell a context** up to the signs of its zeros. -/
theorem bytes_eq_iff {c d : Context} (hc : c.fits = true) (hd : d.fits = true) :
    c.bytes = d.bytes ↔ c.mergeZeros = d.mergeZeros := by
  constructor
  · intro h
    have hentries := map_mergeZeros_of_flatMap (List.all_eq_true.1 hc) (List.all_eq_true.1 hd) h
    simp only [mergeZeros, KeyMap.mapValues, mk.injEq, KeyMap.mk.injEq]
    exact hentries
  · intro h
    rw [← c.bytes_mergeZeros, h, bytes_mergeZeros]

/-- Contexts are equal if they are the same but for the signs of zeros. -/
theorem beq_iff_mergeZeros {c d : Context} (hc : c.hasNaN = false) (hd : d.hasNaN = false) :
    (c == d) = true ↔ c.mergeZeros = d.mergeZeros := by
  obtain ⟨⟨l, hl⟩⟩ := c
  obtain ⟨⟨l', hl'⟩⟩ := d
  replace hc : ∀ e ∈ l, e.2.isNaN = false := by simpa [hasNaN, KeyMap.toList] using hc
  replace hd : ∀ e ∈ l', e.2.isNaN = false := by simpa [hasNaN, KeyMap.toList] using hd
  simp only [mergeZeros, KeyMap.mapValues, mk.injEq, KeyMap.mk.injEq]
  change (l == l') = true ↔ _
  clear hl hl'
  induction l generalizing l' with
  | nil => cases l' <;> simp
  | cons e rest ih =>
    cases l' with
    | nil => simp
    | cons e' rest' =>
      have hvalue := Attribute.beq_iff_mergeZeros (hc e List.mem_cons_self)
        (hd e' List.mem_cons_self)
      have htail := ih rest' (fun f hf => hc f (.tail _ hf)) fun f hf => hd f (.tail _ hf)
      rw [List.cons_beq_cons, Bool.and_eq_true, htail, List.map_cons, List.map_cons,
        List.cons.injEq, Prod.mk.injEq, ← hvalue, ← beq_iff_eq (a := e.1), ← Bool.and_eq_true]
      rfl

/-! ### Attributes set one after the other -/

/-- The context in which attributes were set in the order of a list. -/
def ofSettings (settings : List (String × Attribute)) : Context :=
  settings.foldl (fun c e => c.withAttribute e.1 e.2) empty

/-- The value that was set last for a key. -/
def lastSetting? (settings : List (String × Attribute)) (key : String) : Option Attribute :=
  KeyMap.lookup key settings.reverse

theorem get?_ofSettings (settings : List (String × Attribute)) (key : String) :
    (ofSettings settings).get? key = lastSetting? settings key := by
  have hfold : ∀ m : KeyMap String Attribute,
      (settings.foldl (fun c e => withAttribute c e.1 e.2) ⟨m⟩).attributes =
        settings.foldl (fun m e => m.insert e.1 e.2) m := by
    induction settings with
    | nil => exact fun _ => rfl
    | cons e rest ih => exact fun m => ih (m.insert e.1 e.2)
  rw [get?, ofSettings, empty, hfold]
  exact KeyMap.get?_ofList settings key

/-! ### The bytes and equality -/

/-- Contexts are equal if they have equal values, or none, for every key. -/
theorem beq_iff_get? {c d : Context} (hc : c.hasNaN = false) (hd : d.hasNaN = false) :
    (c == d) = true ↔ ∀ key, (c.get? key == d.get? key) = true := by
  have hmerged : ∀ (c : Context) key, c.mergeZeros.get? key = (c.get? key).map .mergeZeros :=
    fun c key => KeyMap.get?_mapValues ..
  have hplain : ∀ {c : Context} {key a}, c.hasNaN = false → c.get? key = some a →
      a.isNaN = false := fun {c key a} hc ha => by
    have hentries : ∀ e ∈ c.attributes.entries, e.2.isNaN = false := by
      simpa [hasNaN, KeyMap.toList] using hc
    exact hentries (key, a) (KeyMap.get?_eq_some_iff_mem.1 ha)
  have hkey : ∀ key, (c.get? key == d.get? key) = true ↔
      c.mergeZeros.get? key = d.mergeZeros.get? key := fun key => by
    rw [hmerged, hmerged]
    cases ha : c.get? key <;> cases hb : d.get? key
    case some.some a b => simpa using Attribute.beq_iff_mergeZeros (hplain hc ha) (hplain hd hb)
    all_goals simp
  rw [beq_iff_mergeZeros hc hd, forall_congr' hkey]
  exact ⟨fun h key => by rw [h], ext_get?⟩

/-- What the bytes of two contexts tell of them. -/
structure IsFaithful (c d : Context) : Prop where
  /-- The bytes are the same exactly for equal contexts. -/
  bytes_eq_iff_beq : c.bytes = d.bytes ↔ (c == d) = true
  /-- Contexts are equal if they have the same keys with equal values. -/
  beq_iff : (c == d) = true ↔ ∀ key, (c.get? key == d.get? key) = true
  /-- Nothing of the order in which attributes were set, or of the values that were replaced,
  shows in the bytes. -/
  settings : ∀ l l', c = ofSettings l → d = ofSettings l' →
    (c.bytes = d.bytes ↔ ∀ key, (lastSetting? l key == lastSetting? l' key) = true)
  /-- Equal contexts come together under every hash. -/
  together : (c == d) = true → ∀ digest, c.discriminator digest = d.discriminator digest
  /-- Only the hash brings unequal contexts together. -/
  apart : (c == d) = false → ∀ digest, c.discriminator digest = d.discriminator digest →
    c.bytes ≠ d.bytes ∧ digest c.bytes = digest d.bytes

/-- **The bytes of a context are a faithful image of it**, as long as no number is a NaN. -/
theorem isFaithful {c d : Context} (hc : c.hasNaN = false) (hd : d.hasNaN = false)
    (hfits : c.fits = true) (hfits' : d.fits = true) : c.IsFaithful d := by
  have hbytes : c.bytes = d.bytes ↔ (c == d) = true :=
    (bytes_eq_iff hfits hfits').trans (beq_iff_mergeZeros hc hd).symm
  have hbeq := beq_iff_get? hc hd
  refine ⟨hbytes, hbeq, ?_, ?_, ?_⟩
  · rintro l l' rfl rfl
    simp only [hbytes, hbeq, get?_ofSettings]
  · intro heq digest
    exact congrArg digest (hbytes.2 heq)
  · intro hne digest hdigest
    refine ⟨fun heq => ?_, hdigest⟩
    rw [hbytes.1 heq] at hne
    cases hne

/-- Attributes set in another order, a zero with another sign, and an item of a list that goes over
to a key of its own. -/
theorem faithful_to_lists_and_zeros :
    ∃ c d d' : Context,
      c = ofSettings [("k", .list ["x"]), ("y", .number (.zero true))] ∧
      d = ofSettings [("y", .text "old"), ("y", .number (.zero false)), ("k", .list ["x"])] ∧
      d' = ofSettings [("k", .list []), ("x", .text ""), ("y", .number (.zero true))] ∧
      (∀ e ∈ [c, d, d'], e.hasNaN = false ∧ e.fits = true) ∧
      c ≠ d ∧ c.bytes = d.bytes ∧ c.bytes ≠ d'.bytes := by
  let c := ofSettings [("k", .list ["x"]), ("y", .number (.zero true))]
  let d := ofSettings [("y", .text "old"), ("y", .number (.zero false)), ("k", .list ["x"])]
  let d' := ofSettings [("k", .list []), ("x", .text ""), ("y", .number (.zero true))]
  have hplain : ∀ e ∈ [c, d, d'], e.hasNaN = false ∧ e.fits = true := by decide
  obtain ⟨hc, hfits⟩ := hplain c (by simp)
  have hd : c.IsFaithful d :=
    isFaithful hc (hplain d (by simp)).1 hfits (hplain d (by simp)).2
  have hd' : c.IsFaithful d' :=
    isFaithful hc (hplain d' (by simp)).1 hfits (hplain d' (by simp)).2
  refine ⟨c, d, d', rfl, rfl, rfl, hplain, ?_, hd.bytes_eq_iff_beq.2 (by decide), fun heq => ?_⟩
  · intro heq
    have hvalue : c.get? "y" = d.get? "y" := by rw [heq]
    exact absurd hvalue (by decide)
  · have hbeq := hd'.bytes_eq_iff_beq.1 heq
    exact absurd hbeq (by decide)

end Context

end FlagFanout
