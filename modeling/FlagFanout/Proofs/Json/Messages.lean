import FlagFanout.Proofs.Json.Wire

/-!
# Messages without a tag

What is written for a message does not say of which form it is: the payload of a single flag is an
object, and so are the payloads of several flags by key. The forms are told apart by what stands
under the name of the variation, which is a string in a payload and an object in a map, where a flag
may well have that name.

Two values are the same JSON if they differ in the order of members only (`Json.Same`), and they are
so if their texts are equal (`Json.eq_of_compact_eq`). The main statement is `Message.told_apart`.
-/

namespace FlagFanout

/-! ## The same JSON -/

namespace Json

/-- Two values are the same, but for the order in which objects list their members. Of several
members with one key the last counts. -/
inductive Same : Json → Json → Prop
  | refl (j : Json) : Same j j
  | arr {items items' : List Json} (hlength : items.length = items'.length)
    (hitems : ∀ (n : Nat) (j j' : Json), items[n]? = some j → items'[n]? = some j' → Same j j') :
    Same (arr items) (arr items')
  | obj {members members' : List (String × Json)}
    (hkeys : ∀ key, (lastMember? key members).isSome = (lastMember? key members').isSome)
    (hmembers : ∀ key j j', lastMember? key members = some j →
      lastMember? key members' = some j' → Same j j') :
    Same (obj members) (obj members')

namespace Same

theorem symm {j j' : Json} (h : Same j j') : Same j' j := by
  induction h with
  | refl j => exact .refl j
  | arr hlength _ ih => exact .arr hlength.symm fun n j j' hj hj' => ih n j' j hj' hj
  | obj hkeys _ ih =>
    exact .obj (fun key => (hkeys key).symm) fun key j j' hj hj' => ih key j' j hj' hj

variable {j j' : Json}

/-- The same keys have a member. -/
theorem isSome_field? (h : Same j j') (key : String) :
    (j.field? key).isSome = (j'.field? key).isSome := by
  cases h with
  | refl | arr => rfl
  | obj hkeys _ => exact hkeys key

/-- What stands under a key is the same. -/
theorem field? {m m' : Json} {key : String} (h : Same j j') (hm : j.field? key = some m)
    (hm' : j'.field? key = some m') : Same m m' := by
  cases h with
  | refl =>
    rw [hm] at hm'
    exact Option.some.inj hm' ▸ .refl m
  | arr => cases hm
  | obj _ hmembers => exact hmembers key m m' hm hm'

end Same

/-- Whether the value is no container. -/
def isScalar : Json → Bool
  | arr _ | obj _ => false
  | _ => true

theorem Same.eq_of_isScalar {j j' : Json} (h : Same j j') (hscalar : j.isScalar = true) :
    j = j' := by
  cases h with
  | refl => rfl
  | arr => cases hscalar
  | obj => cases hscalar

/-- Values with one text are equal. -/
theorem eq_of_compact_eq {j j' : Json} (hfits : Fits depthLimit j) (hfits' : Fits depthLimit j')
    (h : j.compact = j'.compact) : j = j' := by
  have hread := ofText_compact hfits
  rw [h, ofText_compact hfits'] at hread
  exact (Except.ok.inj hread).symm

end Json

/-! ## Payloads -/

theorem FlagValue.isScalar_toJson (v : FlagValue) : v.toJson.isScalar = true := by
  cases v with
  | float x =>
    rw [toJson, Json.ofBinary64]
    split <;> rfl
  | bool b | int i | text s => rfl

theorem FlagValue.toJson_inj {v v' : FlagValue} (hv : v.isFinite = true) (hv' : v'.isFinite = true)
    (h : v.toJson = v'.toJson) : v = v' := by
  have hread := ofJson?_toJson hv
  rw [h, ofJson?_toJson hv'] at hread
  exact (Option.some.inj hread).symm

namespace Payload

/-- What is written for the value. -/
def valueJson (p : Payload) : Json := p.value.elim .null FlagValue.toJson

variable {p p' : Payload}

theorem isScalar_valueJson (p : Payload) : p.valueJson.isScalar = true := by
  rw [valueJson]
  cases p.value with
  | none => rfl
  | some v => exact v.isScalar_toJson

/-- A payload without a value does not look like one with a value. -/
theorem valueJson_ne {v : FlagValue} (hnone : p.value = none) (hsome : p'.value = some v)
    (hv : v.isFinite = true) : p.valueJson ≠ p'.valueJson := by
  intro h
  have hnull := FlagValue.isNull_toJson hv
  rw [valueJson, valueJson, hnone, hsome, Option.elim_none, Option.elim_some] at h
  rw [← h] at hnull
  cases hnull

theorem value_eq_of_valueJson_eq (hp : p.isFinite = true) (hp' : p'.isFinite = true)
    (h : p.valueJson = p'.valueJson) : p.value = p'.value := by
  cases hvalue : p.value with
  | none =>
    cases hvalue' : p'.value with
    | none => rfl
    | some v' =>
      have hv' : v'.isFinite = true := by simpa [isFinite, hvalue'] using hp'
      exact absurd h (valueJson_ne hvalue hvalue' hv')
  | some v =>
    have hv : v.isFinite = true := by simpa [isFinite, hvalue] using hp
    cases hvalue' : p'.value with
    | none => exact absurd h.symm (valueJson_ne hvalue' hvalue hv)
    | some v' =>
      have hv' : v'.isFinite = true := by simpa [isFinite, hvalue'] using hp'
      rw [valueJson, valueJson, hvalue, hvalue'] at h
      rw [FlagValue.toJson_inj hv hv' h]

theorem field?_value (p : Payload) : p.toJson.field? "value" = some p.valueJson := by
  simp [toJson, valueJson, Json.field?]

theorem field?_variation (p : Payload) :
    p.toJson.field? "variationId" = some (.str p.variation) := by
  simp [toJson, Json.field?]

/-- Payloads that are the same JSON have the same members. -/
theorem members_of_same (h : Json.Same p.toJson p'.toJson) :
    p.valueJson = p'.valueJson ∧ p.variation = p'.variation := by
  have hvalue := h.field? p.field?_value p'.field?_value
  have hvariation := h.field? p.field?_variation p'.field?_variation
  exact ⟨hvalue.eq_of_isScalar p.isScalar_valueJson,
    Json.str.inj (hvariation.eq_of_isScalar rfl)⟩

/-- **Different payloads are different JSON.** -/
theorem eq_of_same (hp : p.isFinite = true) (hp' : p'.isFinite = true)
    (h : Json.Same p.toJson p'.toJson) : p = p' := by
  obtain ⟨hvalue, hvariation⟩ := members_of_same h
  have hvalues := value_eq_of_valueJson_eq hp hp' hvalue
  obtain ⟨value, variation⟩ := p
  obtain ⟨value', variation'⟩ := p'
  exact congrArg₂ Payload.mk hvalues hvariation

end Payload

/-! ## Messages -/

namespace Message

/-- Whether the message can be written. -/
def isFinite : Message → Bool
  | flag p => p.isFinite
  | flags ps => ps.toList.all (·.2.isFinite)

variable {p : Payload} {ps ps' : KeyMap String Payload}

theorem isFinite_of_get? (h : (flags ps).isFinite = true) {key : String}
    (hp : ps.get? key = some p) : p.isFinite = true :=
  List.all_eq_true.1 h (key, p) (KeyMap.get?_eq_some_iff_mem.1 hp)

/-- Under the key of a flag stands its payload. -/
theorem field?_flags (ps : KeyMap String Payload) (key : String) :
    (flags ps).toJson.field? key = (ps.get? key).map Payload.toJson :=
  Json.lastMember?_map_toList ps Payload.toJson key

theorem field?_flags_of_get? {key : String} (h : ps.get? key = some p) :
    (flags ps).toJson.field? key = some p.toJson := by
  rw [field?_flags, h, Option.map_some]

/-- **A single flag never looks like several by key**, whatever their keys are. -/
theorem not_same_flag_flags (p : Payload) (ps : KeyMap String Payload) :
    ¬ Json.Same (flag p).toJson (flags ps).toJson := by
  intro h
  have hvariation : (flag p).toJson.field? "variationId" = some (.str p.variation) :=
    p.field?_variation
  have hkey := h.isSome_field? "variationId"
  rw [hvariation, field?_flags] at hkey
  cases hq : ps.get? "variationId" with
  | none => simp [hq] at hkey
  | some q =>
    -- under this name stands a string in the one form and an object in the other
    have hmember : Json.Same (.str p.variation) q.toJson :=
      h.field? hvariation (field?_flags_of_get? hq)
    cases hmember

theorem payloads_eq_of_same (hps : (flags ps).isFinite = true) (hps' : (flags ps').isFinite = true)
    (h : Json.Same (flags ps).toJson (flags ps').toJson) : ps = ps' := by
  refine KeyMap.ext_get? fun key => ?_
  have hkey := h.isSome_field? key
  rw [field?_flags, field?_flags, Option.isSome_map, Option.isSome_map] at hkey
  cases hp : ps.get? key with
  | none =>
    rw [hp, Option.isSome_none, eq_comm, Option.isSome_eq_false_iff,
      Option.isNone_iff_eq_none] at hkey
    exact hkey.symm
  | some p =>
    obtain ⟨p', hp'⟩ := Option.isSome_iff_exists.1 (hkey.symm.trans (by rw [hp]; rfl))
    have hmember := h.field? (field?_flags_of_get? hp) (field?_flags_of_get? hp')
    rw [hp', Payload.eq_of_same (isFinite_of_get? hps hp) (isFinite_of_get? hps' hp') hmember]

/-- **Different messages are different JSON.** -/
theorem eq_of_same {m m' : Message} (hm : m.isFinite = true) (hm' : m'.isFinite = true)
    (h : Json.Same m.toJson m'.toJson) : m = m' := by
  cases m with
  | flag p =>
    cases m' with
    | flag p' => rw [Payload.eq_of_same hm hm' h]
    | flags ps' => exact absurd h (not_same_flag_flags p ps')
  | flags ps =>
    cases m' with
    | flag p' => exact absurd h.symm (not_same_flag_flags p' ps)
    | flags ps' => rw [payloads_eq_of_same hm hm' h]

theorem fits_toJson (m : Message) : Json.Fits Json.depthLimit m.toJson := by
  cases m with
  | flag p => exact p.fits_toJson 126
  | flags ps =>
    refine Json.fits_obj 126 fun member hmember => ?_
    obtain ⟨e, -, rfl⟩ := List.mem_map.1 hmember
    exact e.2.fits_toJson 125

/-- **What is written tells messages apart**, as long as every float in them is finite. -/
theorem told_apart :
    (∀ m m' : Message, m.isFinite = true → m'.isFinite = true →
      Json.Same m.toJson m'.toJson → m = m') ∧
    (∀ m m' : Message, m.toJson.compact = m'.toJson.compact → Json.Same m.toJson m'.toJson) ∧
    (∀ p ps, ¬ Json.Same (flag p).toJson (flags ps).toJson) ∧
    (∀ (p p' : Payload) v, p.value = none → p'.value = some v → v.isFinite = true →
      ¬ Json.Same p.toJson p'.toJson) ∧
    (∀ ps ps', (flags ps).isFinite = true → (flags ps').isFinite = true →
      (∃ key, ps.get? key ≠ ps'.get? key) → ¬ Json.Same (flags ps).toJson (flags ps').toJson) := by
  refine ⟨fun m m' => eq_of_same, fun m m' h => ?_, not_same_flag_flags,
    fun p p' v hnone hsome hv h => ?_, fun ps ps' hps hps' hne h => ?_⟩
  · rw [Json.eq_of_compact_eq m.fits_toJson m'.fits_toJson h]
    exact .refl _
  · exact Payload.valueJson_ne hnone hsome hv (Payload.members_of_same h).1
  · obtain ⟨key, hkey⟩ := hne
    rw [payloads_eq_of_same hps hps' h] at hkey
    exact hkey rfl

/-- A single flag against a map with flags named after the members of a payload, and two maps that
differ in the kind of one number. -/
theorem told_apart_of_alike :
    ∃ (p : Payload) (ps ps' : KeyMap String Payload), ps.keys = ["value", "variationId"] ∧
      ps'.keys = ps.keys ∧ (flags ps).isFinite = true ∧ (flags ps').isFinite = true ∧
      (flag p).toJson.compact ≠ (flags ps).toJson.compact ∧
      (flags ps).toJson.compact ≠ (flags ps').toJson.compact := by
  let p : Payload := ⟨some (.int 1), "v"⟩
  let q : Payload := ⟨some (.float ⟨0x3FF0000000000000⟩), "v"⟩
  let ps : KeyMap String Payload := .ofList [("value", p), ("variationId", p)]
  let ps' : KeyMap String Payload := .ofList [("value", q), ("variationId", p)]
  have hne : flags ps ≠ flags ps' := by decide
  exact ⟨p, ps, ps', by decide, by decide, by decide, by decide,
    fun h => told_apart.2.2.1 p ps (told_apart.2.1 _ _ h),
    fun h => hne (told_apart.1 _ _ (by decide) (by decide) (told_apart.2.1 _ _ h))⟩

end Message

end FlagFanout
