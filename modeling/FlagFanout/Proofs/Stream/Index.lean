import FlagFanout.Proofs.KeyMap
import FlagFanout.Stream.Channel
import Mathlib.Algebra.GroupWithZero.Nat
import Mathlib.Data.List.Nodup

/-!
# Laws of the index of channels

The index is a map of maps. Here it is seen in two ways: through `find?`, with one equation for
writing a channel (`find?_put`) and one for giving up an empty one (`find?_collect`), and as the
list of its channels, in which every place occurs once (`mem_channels_iff`, `nodup_places`).

`load` counts the members of the channels whose selector passes a test. The laws of `load` and
`count` say how the two operations change the figures that a worker keeps about its index.
-/

namespace FlagFanout

/-- Where a channel is: its selector and its discriminator. -/
abbrev Place := Selector × UInt64

namespace ChannelIndex

/-! ## Looking up -/

theorem get?_bucket (i : ChannelIndex) (selector : Selector) (discriminator : UInt64) :
    (i.bucket selector).get? discriminator =
      (i.buckets.get? selector).bind (·.get? discriminator) := by
  rw [bucket]
  cases i.buckets.get? selector <;> rfl

theorem find?_eq (i : ChannelIndex) (selector : Selector) (discriminator : UInt64) :
    i.find? selector discriminator = (i.buckets.get? selector).bind (·.get? discriminator) :=
  get?_bucket i selector discriminator

theorem find?_eq_some_iff {i : ChannelIndex} {selector : Selector} {discriminator : UInt64}
    {c : Channel} :
    i.find? selector discriminator = some c ↔
      ∃ b, i.buckets.get? selector = some b ∧ b.get? discriminator = some c := by
  rw [find?_eq, Option.bind_eq_some_iff]

@[simp] theorem find?_empty (selector : Selector) (discriminator : UInt64) :
    empty.find? selector discriminator = none := rfl

@[simp] theorem find?_put (i : ChannelIndex) (place place' : Place) (c : Channel) :
    (i.put place.1 place.2 c).find? place'.1 place'.2 =
      if place' = place then some c else i.find? place'.1 place'.2 := by
  obtain ⟨selector, discriminator⟩ := place
  obtain ⟨selector', discriminator'⟩ := place'
  rw [find?_eq, find?_eq]
  simp only [put, KeyMap.get?_insert, Prod.mk.injEq]
  by_cases hs : selector' = selector
  · subst hs
    simp only [if_true, Option.bind_some, KeyMap.get?_insert, true_and, get?_bucket]
  · simp only [hs, if_false, false_and]

theorem find?_put_self (i : ChannelIndex) (place : Place) (c : Channel) :
    (i.put place.1 place.2 c).find? place.1 place.2 = some c := by
  rw [find?_put, if_pos rfl]

theorem get?_dropIfEmpty (b : KeyMap UInt64 Channel) (discriminator discriminator' : UInt64) :
    (dropIfEmpty b discriminator).get? discriminator' =
      if discriminator' = discriminator ∧ (b.get? discriminator).any (·.isEmpty) then none
      else b.get? discriminator' := by
  rw [dropIfEmpty]
  by_cases he : (b.get? discriminator).any (·.isEmpty) = true
  · simp only [he, if_true, KeyMap.get?_erase, and_true]
  · simp only [he, if_false, and_false, Bool.false_eq_true]

theorem get?_buckets_collect (i : ChannelIndex) (selector : Selector) (discriminator : UInt64)
    (selector' : Selector) :
    (i.collect selector discriminator).buckets.get? selector' =
      if selector' = selector then
        ((i.buckets.get? selector).map (dropIfEmpty · discriminator)).filter (!·.isEmpty)
      else i.buckets.get? selector' := by
  rw [collect]
  cases hb : i.buckets.get? selector with
  | none =>
    by_cases hs : selector' = selector
    · simp [hs, hb]
    · simp [hs]
  | some b =>
    by_cases he : (dropIfEmpty b discriminator).isEmpty = true
    · simp [he, Option.filter]
    · simp [he, Option.filter]

@[simp] theorem find?_collect (i : ChannelIndex) (place place' : Place) :
    (i.collect place.1 place.2).find? place'.1 place'.2 =
      if place' = place ∧ (i.find? place.1 place.2).any (·.isEmpty) then none
      else i.find? place'.1 place'.2 := by
  obtain ⟨selector, discriminator⟩ := place
  obtain ⟨selector', discriminator'⟩ := place'
  rw [find?_eq, find?_eq, find?_eq]
  simp only [get?_buckets_collect, Prod.mk.injEq]
  by_cases hs : selector' = selector
  · subst hs
    cases hb : i.buckets.get? selector' with
    | none => simp
    | some b =>
      -- a bucket that is given up had nothing left to find
      have hdrop : (Option.filter (!·.isEmpty) (some (dropIfEmpty b discriminator))).bind
          (·.get? discriminator') = (dropIfEmpty b discriminator).get? discriminator' := by
        by_cases he : (dropIfEmpty b discriminator).isEmpty = true
        · simp [he, KeyMap.isEmpty_iff.1 he discriminator', Option.filter]
        · simp [he, Option.filter]
      simp only [if_true, Option.map_some, hdrop, get?_dropIfEmpty, Option.bind_some, true_and]
  · simp [hs]

/-- Giving up an empty channel leaves the others as they are. -/
theorem find?_of_collect {i : ChannelIndex} (place : Place) {place' : Place} {c : Channel}
    (h : (i.collect place.1 place.2).find? place'.1 place'.2 = some c) :
    i.find? place'.1 place'.2 = some c := by
  rw [find?_collect] at h
  split at h
  · cases h
  · exact h

/-! ## Keeping what channels hold -/

/-- The channels of `j` are channels of `i` that hold the same for the same context; their members
may differ, and channels of `i` may be missing. -/
def Keeps (i j : ChannelIndex) : Prop :=
  ∀ (place : Place) c', j.find? place.1 place.2 = some c' →
    ∃ c, i.find? place.1 place.2 = some c ∧ c'.last = c.last ∧ c'.context = c.context

theorem Keeps.refl (i : ChannelIndex) : i.Keeps i := fun _ c' hc' => ⟨c', hc', rfl, rfl⟩

theorem Keeps.trans {i j k : ChannelIndex} (h : i.Keeps j) (h' : j.Keeps k) : i.Keeps k := by
  intro place c'' hc''
  obtain ⟨c', hc', hlast', hcontext'⟩ := h' place c'' hc''
  obtain ⟨c, hc, hlast, hcontext⟩ := h place c' hc'
  exact ⟨c, hc, hlast'.trans hlast, hcontext'.trans hcontext⟩

theorem keeps_put {i : ChannelIndex} (place : Place) {c d : Channel}
    (hfind : i.find? place.1 place.2 = some c) (hlast : d.last = c.last)
    (hcontext : d.context = c.context) : i.Keeps (i.put place.1 place.2 d) := by
  intro place' c' hc'
  rw [find?_put] at hc'
  split at hc'
  · next heq =>
    cases hc'
    exact ⟨c, heq ▸ hfind, hlast, hcontext⟩
  · exact ⟨c', hc', rfl, rfl⟩

theorem keeps_collect (i : ChannelIndex) (place : Place) :
    i.Keeps (i.collect place.1 place.2) :=
  fun _ c' hc' => ⟨c', find?_of_collect place hc', rfl, rfl⟩

/-! ## No empty bucket -/

/-- Every selector that has a bucket has a channel in it. -/
def Tight (i : ChannelIndex) : Prop :=
  ∀ selector b, i.buckets.get? selector = some b → b.isEmpty = false

theorem tight_empty : empty.Tight := fun _ _ h => nomatch h

theorem Tight.put {i : ChannelIndex} (h : i.Tight) (place : Place) (c : Channel) :
    (i.put place.1 place.2 c).Tight := by
  intro selector b hb
  simp only [ChannelIndex.put, KeyMap.get?_insert] at hb
  split at hb
  · cases hb
    exact KeyMap.isEmpty_insert ..
  · exact h selector b hb

theorem Tight.collect {i : ChannelIndex} (h : i.Tight) (place : Place) :
    (i.collect place.1 place.2).Tight := by
  intro selector b hb
  rw [get?_buckets_collect] at hb
  split at hb
  · simpa using (Option.filter_eq_some_iff.1 hb).2
  · exact h selector b hb

/-- Without empty buckets an index is determined by what is found in it. -/
theorem Tight.ext_find? {i j : ChannelIndex} (hi : i.Tight) (hj : j.Tight)
    (h : ∀ place : Place, i.find? place.1 place.2 = j.find? place.1 place.2) : i = j := by
  have hbucket : ∀ {i j : ChannelIndex} {selector : Selector} {b : KeyMap UInt64 Channel},
      i.Tight → (∀ place : Place, i.find? place.1 place.2 = j.find? place.1 place.2) →
        i.buckets.get? selector = some b → j.buckets.get? selector = some b := by
    intro i j selector b hi h hb
    have hfind : ∀ discriminator,
        b.get? discriminator = (j.buckets.get? selector).bind (·.get? discriminator) := by
      intro discriminator
      have hplace := h (selector, discriminator)
      rwa [find?_eq, find?_eq, hb] at hplace
    cases hb' : j.buckets.get? selector with
    | none =>
      have hempty : b.isEmpty = true := KeyMap.isEmpty_iff.2 fun k => by rw [hfind, hb']; rfl
      rw [hi selector b hb] at hempty
      cases hempty
    | some b' => exact congrArg some (KeyMap.ext_get? fun k => by rw [hfind, hb']; rfl)
  refine congrArg ChannelIndex.mk (KeyMap.ext_get? fun selector => Option.ext fun b => ?_)
  exact ⟨hbucket hi h, hbucket hj fun place => (h place).symm⟩

/-- Without empty buckets a selector has a bucket where it has a channel. -/
theorem Tight.get?_buckets_eq_none_iff {i : ChannelIndex} (h : i.Tight) {selector : Selector} :
    i.buckets.get? selector = none ↔ ∀ discriminator, i.find? selector discriminator = none := by
  constructor
  · intro hnone discriminator
    rw [find?_eq, hnone, Option.bind_none]
  · intro hnone
    cases hb : i.buckets.get? selector with
    | none => rfl
    | some b =>
      have hempty : b.isEmpty = true := KeyMap.isEmpty_iff.2 fun discriminator => by
        have hfind := hnone discriminator
        rwa [find?_eq, hb, Option.bind_some] at hfind
      rw [h selector b hb] at hempty
      cases hempty

/-- Of two channels written to one place the second stands. -/
theorem Tight.put_put {i : ChannelIndex} (h : i.Tight) (place : Place) (c d : Channel) :
    (i.put place.1 place.2 c).put place.1 place.2 d = i.put place.1 place.2 d := by
  refine ((h.put place c).put place d).ext_find? (h.put place d) fun place' => ?_
  simp only [find?_put]
  split <;> rfl

/-- Channels are written to two places in either order. -/
theorem Tight.put_comm {i : ChannelIndex} (h : i.Tight) {place place' : Place}
    (hne : place ≠ place') (c d : Channel) :
    (i.put place.1 place.2 c).put place'.1 place'.2 d =
      (i.put place'.1 place'.2 d).put place.1 place.2 c := by
  refine ((h.put place c).put place' d).ext_find? ((h.put place' d).put place c) fun p => ?_
  simp only [find?_put]
  by_cases hp : p = place
  · rw [if_neg fun heq => hne (hp.symm.trans heq), if_pos hp, if_pos hp]
  · rw [if_neg hp, if_neg hp]

/-! ## The list of channels -/

theorem mem_channels_iff {i : ChannelIndex} {e : Place × Channel} :
    e ∈ i.channels ↔ i.find? e.1.1 e.1.2 = some e.2 := by
  rw [find?_eq_some_iff]
  simp only [channels, KeyMap.toList, List.mem_flatMap, List.mem_map]
  constructor
  · rintro ⟨b, hb, c, hc, rfl⟩
    exact ⟨b.2, KeyMap.get?_eq_some_iff_mem.2 hb, KeyMap.get?_eq_some_iff_mem.2 hc⟩
  · rintro ⟨b, hb, hc⟩
    exact ⟨(e.1.1, b), KeyMap.get?_eq_some_iff_mem.1 hb, (e.1.2, e.2),
      KeyMap.get?_eq_some_iff_mem.1 hc, rfl⟩

theorem places_eq_map (i : ChannelIndex) : i.places = i.channels.map (·.1) := by
  simp only [places, channels, KeyMap.keys, KeyMap.toList, List.map_flatMap, List.map_map]
  rfl

theorem mem_places_iff {i : ChannelIndex} {place : Place} :
    place ∈ i.places ↔ ∃ c, i.find? place.1 place.2 = some c := by
  rw [places_eq_map, List.mem_map]
  constructor
  · rintro ⟨e, he, rfl⟩
    exact ⟨e.2, mem_channels_iff.1 he⟩
  · rintro ⟨c, hc⟩
    exact ⟨(place, c), mem_channels_iff.2 hc, rfl⟩

theorem mem_places_of_find? {i : ChannelIndex} {place : Place} {c : Channel}
    (h : i.find? place.1 place.2 = some c) : place ∈ i.places :=
  mem_places_iff.2 ⟨c, h⟩

theorem nodup_places (i : ChannelIndex) : i.places.Nodup := by
  refine List.nodup_flatMap.2 ⟨fun e _ => ?_, ?_⟩
  · exact (e.2.nodup_keys).map fun a b h => (Prod.mk.inj h).2
  · refine i.buckets.keys_ne.imp fun {e f} hne p hp hp' => ?_
    obtain ⟨a, -, rfl⟩ := List.mem_map.1 hp
    obtain ⟨b, -, hb⟩ := List.mem_map.1 hp'
    exact hne (Prod.mk.inj hb).1.symm

theorem nodup_channels (i : ChannelIndex) : i.channels.Nodup :=
  List.Nodup.of_map (·.1) (places_eq_map i ▸ i.nodup_places)

/-- The channels at all places but one. -/
def others (i : ChannelIndex) (place : Place) : List (Place × Channel) :=
  i.channels.filter fun e => e.1 ≠ place

theorem mem_others_iff {i : ChannelIndex} {place : Place}
    {e : Place × Channel} :
    e ∈ i.others place ↔ e.1 ≠ place ∧ i.find? e.1.1 e.1.2 = some e.2 := by
  rw [others, List.mem_filter, ← mem_channels_iff]
  simp [and_comm]

theorem perm_of_find? {i j : ChannelIndex}
    (h : ∀ place : Place, i.find? place.1 place.2 = j.find? place.1 place.2) :
    i.channels.Perm j.channels :=
  (List.perm_ext_iff_of_nodup i.nodup_channels j.nodup_channels).2 fun e => by
    rw [mem_channels_iff, mem_channels_iff, h]

theorem channels_perm_of_find? {i : ChannelIndex} {place : Place} {c : Channel}
    (h : i.find? place.1 place.2 = some c) :
    i.channels.Perm ((place, c) :: i.others place) := by
  have hnot : (place, c) ∉ i.others place := fun hm => (mem_others_iff.1 hm).1 rfl
  refine (List.perm_ext_iff_of_nodup i.nodup_channels
    (List.nodup_cons.2 ⟨hnot, i.nodup_channels.filter _⟩)).2 fun e => ?_
  rw [List.mem_cons, mem_others_iff, mem_channels_iff]
  by_cases he : e.1 = place
  · simp [he, h, Prod.ext_iff, eq_comm]
  · simp [he, Prod.ext_iff]

theorem channels_perm_of_find?_eq_none {i : ChannelIndex} {place : Place}
    (h : i.find? place.1 place.2 = none) : i.channels.Perm (i.others place) := by
  refine (List.perm_ext_iff_of_nodup i.nodup_channels (i.nodup_channels.filter _)).2 fun e => ?_
  rw [← others, mem_others_iff, mem_channels_iff]
  refine ⟨fun he => ⟨fun hp => ?_, he⟩, fun he => he.2⟩
  rw [← hp, he] at h
  cases h

theorem others_put (i : ChannelIndex) (place : Place) (c : Channel) :
    ((i.put place.1 place.2 c).others place).Perm (i.others place) := by
  refine (List.perm_ext_iff_of_nodup ((nodup_channels _).filter _)
    ((nodup_channels _).filter _)).2 fun e => ?_
  rw [← others, ← others, mem_others_iff, mem_others_iff, find?_put]
  refine and_congr_right fun hne => ?_
  rw [if_neg hne]

theorem channels_put_perm (i : ChannelIndex) (place : Place) (c : Channel) :
    (i.put place.1 place.2 c).channels.Perm ((place, c) :: i.others place) :=
  (channels_perm_of_find? (find?_put_self i place c)).trans ((others_put i place c).cons _)

theorem collect_channels_perm_others {i : ChannelIndex} {place : Place} {c : Channel}
    (h : i.find? place.1 place.2 = some c) (he : c.members = []) :
    (i.collect place.1 place.2).channels.Perm (i.others place) := by
  refine (List.perm_ext_iff_of_nodup (nodup_channels _) (i.nodup_channels.filter _)).2 fun e => ?_
  rw [← others, mem_others_iff, mem_channels_iff, find?_collect, h]
  by_cases hp : e.1 = place <;> simp [hp, Channel.isEmpty, he]

/-- Nothing is given up where a channel has members, or where there is none. -/
theorem find?_collect_of_members {i : ChannelIndex} {place : Place}
    (h : ∀ c, i.find? place.1 place.2 = some c → c.members ≠ []) (place' : Place) :
    (i.collect place.1 place.2).find? place'.1 place'.2 = i.find? place'.1 place'.2 := by
  rw [find?_collect, if_neg]
  rintro ⟨-, hany⟩
  cases hf : i.find? place.1 place.2 with
  | none => simp [hf] at hany
  | some c =>
    rw [hf] at hany
    exact h c hf (List.isEmpty_iff.1 hany)

/-! ## The members at a place -/

/-- The members of the channel at a place; there are none where there is no channel. -/
def membersAt (i : ChannelIndex) (place : Place) : List ConnectionId :=
  (i.find? place.1 place.2).elim [] (·.members)

theorem membersAt_of_find? {i : ChannelIndex} {place : Place} {c : Channel}
    (h : i.find? place.1 place.2 = some c) : i.membersAt place = c.members := by
  rw [membersAt, h, Option.elim_some]

theorem exists_find?_of_mem_membersAt {i : ChannelIndex} {place : Place} {id : ConnectionId}
    (h : id ∈ i.membersAt place) : ∃ c, i.find? place.1 place.2 = some c ∧ id ∈ c.members := by
  cases hf : i.find? place.1 place.2 with
  | none => simp [membersAt, hf] at h
  | some c => exact ⟨c, rfl, membersAt_of_find? hf ▸ h⟩

@[simp] theorem membersAt_empty (place : Place) : empty.membersAt place = [] := rfl

@[simp] theorem membersAt_put (i : ChannelIndex) (place place' : Place) (c : Channel) :
    (i.put place.1 place.2 c).membersAt place' =
      if place' = place then c.members else i.membersAt place' := by
  rw [membersAt, find?_put]
  split <;> rfl

/-- Giving up an empty channel takes no member away. -/
@[simp] theorem membersAt_collect (i : ChannelIndex) (place place' : Place) :
    (i.collect place.1 place.2).membersAt place' = i.membersAt place' := by
  rw [membersAt, find?_collect]
  split
  · next h =>
    obtain ⟨rfl, hany⟩ := h
    cases hf : i.find? place'.1 place'.2 with
    | none => simp [membersAt, hf]
    | some c =>
      rw [hf, Option.any_some] at hany
      rw [membersAt_of_find? hf]
      exact (List.isEmpty_iff.1 hany).symm
  · rfl

/-! ## How many channels -/

theorem count_put_of_find? {i : ChannelIndex} {place : Place} {c : Channel}
    (h : i.find? place.1 place.2 = some c) (c' : Channel) :
    (i.put place.1 place.2 c').count = i.count := by
  rw [count, count, (channels_put_perm i place c').length_eq, (channels_perm_of_find? h).length_eq,
    List.length_cons, List.length_cons]

/-! ## How many members -/

/-- The number of members of the channels whose selector passes a test. -/
def load (i : ChannelIndex) (p : Selector → Bool) : Nat :=
  (i.channels.map fun e => if p e.1.1 then e.2.members.length else 0).sum

/-- The part of one channel in the load. -/
def share (p : Selector → Bool) (selector : Selector) (members : List ConnectionId) : Nat :=
  if p selector then members.length else 0

theorem load_congr {i j : ChannelIndex} (h : i.channels.Perm j.channels) (p : Selector → Bool) :
    i.load p = j.load p :=
  (h.map _).sum_nat

@[simp] theorem load_empty (p : Selector → Bool) : empty.load p = 0 := rfl

/-- The load without the part of one place. -/
def rest (i : ChannelIndex) (p : Selector → Bool) (place : Place) : Nat :=
  ((i.others place).map fun e => if p e.1.1 then e.2.members.length else 0).sum

theorem load_of_find? {i : ChannelIndex} {place : Place} {c : Channel}
    (h : i.find? place.1 place.2 = some c) (p : Selector → Bool) :
    i.load p = share p place.1 c.members + i.rest p place := by
  rw [load, ((channels_perm_of_find? h).map _).sum_nat, List.map_cons, List.sum_cons]
  rfl

theorem load_of_find?_eq_none {i : ChannelIndex} {place : Place}
    (h : i.find? place.1 place.2 = none) (p : Selector → Bool) : i.load p = i.rest p place :=
  ((channels_perm_of_find?_eq_none h).map _).sum_nat

theorem load_put (i : ChannelIndex) (place : Place) (c : Channel)
    (p : Selector → Bool) :
    (i.put place.1 place.2 c).load p = share p place.1 c.members + i.rest p place := by
  rw [load, ((channels_put_perm i place c).map _).sum_nat, List.map_cons, List.sum_cons]
  rfl

@[simp] theorem load_collect (i : ChannelIndex) (place : Place)
    (p : Selector → Bool) : (i.collect place.1 place.2).load p = i.load p := by
  by_cases h : ∃ c, i.find? place.1 place.2 = some c ∧ c.members = []
  · obtain ⟨c, hc, he⟩ := h
    rw [load_of_find? hc, load, ((collect_channels_perm_others hc he).map _).sum_nat, he]
    simp [share, rest]
  · refine load_congr (perm_of_find? (find?_collect_of_members fun c hc he => h ⟨c, hc, he⟩)) p

theorem length_members (i : ChannelIndex) : i.members.length = i.load fun _ => true := by
  simp [members, load, List.length_flatMap]

end ChannelIndex

end FlagFanout
