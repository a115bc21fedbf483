import FlagFanout.Config.File
import FlagFanout.Proofs.Config.Wording

/-!
# Which setting counts

A stream is configured from a file and the environment. Six checks stand in its way, in a fixed
order (`StreamConfig.Check.all`): that of the file, those of three variables, and two for room in
mailboxes and queue. `StreamConfig.Complains` says what each of them finds fault with, from the file
and the texts of the variables alone; the last two look at what the settings come to
(`StreamConfig.resolve`), so a capacity of zero in the file does no harm under another one in the
environment.

Loading is going through the checks (`StreamConfig.load_eq`): the first complaint is the error, and
without one the configuration is what file and environment come to. The main statement is
`StreamConfig.loads_by_precedence`, which also says what any number of layers merged come to.
-/

namespace FlagFanout

/-! ## Merging layers -/

namespace ConfigLayer

section Field

variable {α : Type} {get : ConfigLayer → Option α}

/-- A setting is made by a layer of a sequence and by none of those that follow. -/
def LastSets (get : ConfigLayer → Option α) (layers : List ConfigLayer) (a : α) : Prop :=
  ∃ before l after, layers = before ++ l :: after ∧ get l = some a ∧ ∀ m ∈ after, get m = none

theorem get_foldl_merge (hget : ∀ base top, get (merge base top) = (get top).or (get base))
    (layers : List ConfigLayer) (base : ConfigLayer) :
    get (layers.foldl merge base) = (layers.reverse.findSome? get).or (get base) := by
  induction layers generalizing base with
  | nil => rfl
  | cons l rest ih =>
    rw [List.foldl_cons, ih, hget, List.reverse_cons, List.findSome?_append, Option.or_assoc,
      List.findSome?_singleton]

/-- **The last layer that makes a setting decides it.** -/
theorem get_mergeAll_eq_some_iff (hempty : get empty = none)
    (hget : ∀ base top, get (merge base top) = (get top).or (get base))
    (layers : List ConfigLayer) (a : α) :
    get (mergeAll layers) = some a ↔ LastSets get layers a := by
  rw [mergeAll, get_foldl_merge hget, hempty, Option.or_none, List.findSome?_eq_some_iff]
  constructor
  · rintro ⟨after, l, before, hlayers, hl, hafter⟩
    refine ⟨before.reverse, l, after.reverse, ?_, hl, fun m hm => hafter m (List.mem_reverse.1 hm)⟩
    simpa using congrArg List.reverse hlayers
  · rintro ⟨before, l, after, rfl, hl, hafter⟩
    exact ⟨after.reverse, l, before.reverse, by simp, hl,
      fun m hm => hafter m (List.mem_reverse.1 hm)⟩

end Field

/-- Every setting of layers merged into one is that of the last layer that makes it. -/
structure IsMerged (merged : ConfigLayer) (layers : List ConfigLayer) : Prop where
  mailboxCapacity : ∀ n, merged.mailboxCapacity = some n ↔ LastSets (·.mailboxCapacity) layers n
  commandQueueCapacity : ∀ n,
    merged.commandQueueCapacity = some n ↔ LastSets (·.commandQueueCapacity) layers n
  delivery : ∀ p, merged.delivery = some p ↔ LastSets (·.delivery) layers p
  serverType : ∀ s, merged.serverType = some s ↔ LastSets (·.serverType) layers s

theorem isMerged_mergeAll (layers : List ConfigLayer) : (mergeAll layers).IsMerged layers where
  mailboxCapacity := get_mergeAll_eq_some_iff rfl (fun _ _ => rfl) layers
  commandQueueCapacity := get_mergeAll_eq_some_iff rfl (fun _ _ => rfl) layers
  delivery := get_mergeAll_eq_some_iff rfl (fun _ _ => rfl) layers
  serverType := get_mergeAll_eq_some_iff rfl (fun _ _ => rfl) layers

end ConfigLayer

/-! ## Capacities -/

/-- The two capacities of a stream. -/
inductive StreamConfig.Capacity where
  | mailbox
  | commandQueue

namespace StreamConfig.Capacity

/-- The variable that sets a capacity. -/
def envName : Capacity → String
  | mailbox => Environment.mailboxCapacity
  | commandQueue => Environment.commandQueueCapacity

/-- The name of a capacity among the settings. -/
def key : Capacity → String
  | mailbox => "mailbox_capacity"
  | commandQueue => "command_queue_capacity"

/-- The capacity in a configuration. -/
def of (c : StreamConfig) : Capacity → Nat
  | mailbox => c.mailboxCapacity
  | commandQueue => c.commandQueueCapacity

end StreamConfig.Capacity

/-! ## The file -/

namespace ConfigFile

/-- A file sets a layer: nothing if it is missing, else what its text writes. -/
inductive Sets : ConfigFile → ConfigLayer → Prop
  | missing : Sets missing .empty
  | bytes {content : List UInt8} {text : String} {l : ConfigLayer}
    (htext : ofUtf8? content = some text) (hlayer : layerOfText? text = some l) :
    Sets (bytes content) l

/-- A file is there and cannot be read, or its text is refused. -/
inductive Fails : ConfigFile → ConfigError → Prop
  | directory : Fails directory .directory
  | notText {content : List UInt8} (htext : ofUtf8? content = none) :
    Fails (bytes content) .notText
  | refused {content : List UInt8} {text : String} (htext : ofUtf8? content = some text)
    (hlayer : layerOfText? text = none) : Fails (bytes content) .fileParse

theorem layer_eq_ok_iff {file : ConfigFile} {l : ConfigLayer} :
    file.layer = .ok l ↔ file.Sets l := by
  constructor
  · intro h
    cases file with
    | missing => exact Except.ok.inj h ▸ .missing
    | directory => cases h
    | bytes content =>
      cases htext : ofUtf8? content with
      | none => simp [layer, htext] at h
      | some text =>
        cases hlayer : layerOfText? text with
        | none => simp [layer, htext, hlayer] at h
        | some l' =>
          simp only [layer, htext, hlayer, Option.elim_some, Except.ok.injEq] at h
          exact h ▸ .bytes htext hlayer
  · rintro (_ | ⟨htext, hlayer⟩)
    · rfl
    · simp [layer, htext, hlayer]

theorem toOption_layer_eq_some_iff {file : ConfigFile} {l : ConfigLayer} :
    file.layer.toOption = some l ↔ file.Sets l := by
  rw [← layer_eq_ok_iff]
  cases file.layer <;> simp [Except.toOption]

theorem layer_eq_error_iff {file : ConfigFile} {e : ConfigError} :
    file.layer = .error e ↔ file.Fails e := by
  constructor
  · intro h
    cases file with
    | missing => cases h
    | directory => exact Except.error.inj h ▸ .directory
    | bytes content =>
      cases htext : ofUtf8? content with
      | none =>
        simp only [layer, htext, Except.error.injEq] at h
        exact h ▸ .notText htext
      | some text =>
        cases hlayer : layerOfText? text with
        | none =>
          simp only [layer, htext, hlayer, Option.elim_none, Except.error.injEq] at h
          exact h ▸ .refused htext hlayer
        | some l => simp [layer, htext, hlayer] at h
  · rintro (_ | htext | ⟨htext, hlayer⟩)
    · rfl
    · simp [layer, htext]
    · simp [layer, htext, hlayer]

end ConfigFile

/-! ## The environment -/

namespace Environment

/-- A variable is set to a text that is not empty. -/
def Says (env : Environment) (name v : String) : Prop := env name = some v ∧ v ≠ ""

theorem value?_eq_some_iff {env : Environment} {name v : String} :
    env.value? name = some v ↔ env.Says name v := by
  rw [value?, Option.filter_eq_some_iff, decide_eq_true_eq, Says]

/-- The settings that the environment makes. -/
structure Sets (env : Environment) (l : ConfigLayer) : Prop where
  mailboxCapacity : ∀ n, l.mailboxCapacity = some n ↔
    ∃ v, env.Says Environment.mailboxCapacity v ∧ Writes v n
  commandQueueCapacity : ∀ n, l.commandQueueCapacity = some n ↔
    ∃ v, env.Says Environment.commandQueueCapacity v ∧ Writes v n
  delivery : ∀ p, l.delivery = some p ↔ ∃ v, env.Says Environment.delivery v ∧ p.IsNamedBy v
  serverType : ∀ s, l.serverType = some s ↔ env.Says Environment.serverType s

/-- Every variable that says something of a policy or a capacity is worded as it has to be. -/
structure IsUnderstood (env : Environment) : Prop where
  delivery : ∀ v, env.Says Environment.delivery v → ∃ p : DeliveryPolicy, p.IsNamedBy v
  capacity : ∀ (k : StreamConfig.Capacity) v, env.Says k.envName v → ∃ n, Writes v n

/-- What the readers find in the variables. -/
def settings (env : Environment) : ConfigLayer where
  mailboxCapacity := (env.value? mailboxCapacity).bind natural?
  commandQueueCapacity := (env.value? commandQueueCapacity).bind natural?
  delivery := (env.value? delivery).bind DeliveryPolicy.ofText?
  serverType := env.value? serverType

variable (env : Environment)

theorem sets_settings : env.Sets env.settings where
  mailboxCapacity n := by
    simp only [settings, Option.bind_eq_some_iff, value?_eq_some_iff, natural?_eq_some_iff]
  commandQueueCapacity n := by
    simp only [settings, Option.bind_eq_some_iff, value?_eq_some_iff, natural?_eq_some_iff]
  delivery p := by
    simp only [settings, Option.bind_eq_some_iff, value?_eq_some_iff,
      DeliveryPolicy.ofText?_eq_some_iff]
  serverType s := value?_eq_some_iff

variable {env}

theorem Sets.eq_settings {l : ConfigLayer} (h : env.Sets l) : l = env.settings := by
  have h' := env.sets_settings
  obtain ⟨mailbox, queue, policy, label⟩ := l
  have hmailbox : mailbox = env.settings.mailboxCapacity := Option.ext fun n =>
    (h.mailboxCapacity n).trans (h'.mailboxCapacity n).symm
  have hqueue : queue = env.settings.commandQueueCapacity := Option.ext fun n =>
    (h.commandQueueCapacity n).trans (h'.commandQueueCapacity n).symm
  have hpolicy : policy = env.settings.delivery := Option.ext fun p =>
    (h.delivery p).trans (h'.delivery p).symm
  have hlabel : label = env.settings.serverType := Option.ext fun s =>
    (h.serverType s).trans (h'.serverType s).symm
  rw [hmailbox, hqueue, hpolicy, hlabel]

/-! The checks of the variables. -/

section Checked

variable {α : Type} {read : String → Option α} {complaint : String → ConfigError}

/-- What is read from a text, if there is one; one that is not understood is a complaint. -/
def checked (read : String → Option α) (complaint : String → ConfigError) :
    Option String → Except ConfigError (Option α)
  | none => .ok none
  | some v => (read v).elim (.error (complaint v)) fun a => .ok (some a)

theorem eq_bind_of_checked {said : Option String} {o : Option α}
    (h : checked read complaint said = .ok o) : o = said.bind read := by
  cases said with
  | none => exact (Except.ok.inj h).symm
  | some v =>
    rw [checked] at h
    cases hread : read v with
    | none => simp [hread] at h
    | some a =>
      rw [hread, Option.elim_some, Except.ok.injEq] at h
      rw [Option.bind_some, hread, h]

theorem checked_eq_error_iff {said : Option String} {e : ConfigError} :
    checked read complaint said = .error e ↔
      ∃ v, said = some v ∧ (∀ a, read v ≠ some a) ∧ e = complaint v := by
  cases said with
  | none => simp [checked]
  | some v => cases hread : read v <;> simp [checked, hread, eq_comm]

end Checked

theorem policy_eq (env : Environment) :
    env.policy = checked DeliveryPolicy.ofText?
      (fun v => .invalidValue delivery (DeliveryPolicy.unknown v)) (env.value? delivery) := by
  unfold policy checked
  cases env.value? delivery with
  | none => rfl
  | some v =>
    simp only
    cases DeliveryPolicy.ofText? v <;> rfl

theorem capacity_eq (env : Environment) (name : String) :
    env.capacity name = checked natural?
      (fun v => .invalidValue name ("invalid usize value '" ++ v ++ "'")) (env.value? name) := by
  unfold capacity checked
  cases env.value? name with
  | none => rfl
  | some v =>
    simp only
    cases natural? v <;> rfl

theorem policy_eq_error_iff {e : ConfigError} :
    env.policy = .error e ↔ ∃ v, env.Says delivery v ∧ (∀ p : DeliveryPolicy, ¬ p.IsNamedBy v) ∧
      e = .invalidValue delivery (DeliveryPolicy.unknown v) := by
  simp only [policy_eq, checked_eq_error_iff, value?_eq_some_iff, ne_eq,
    DeliveryPolicy.ofText?_eq_some_iff]

theorem capacity_eq_error_iff {name : String} {e : ConfigError} :
    env.capacity name = .error e ↔ ∃ v, env.Says name v ∧ (∀ n, ¬ Writes v n) ∧
      e = .invalidValue name ("invalid usize value '" ++ v ++ "'") := by
  simp only [capacity_eq, checked_eq_error_iff, value?_eq_some_iff, ne_eq, natural?_eq_some_iff]

end Environment

/-! ## Going through the checks -/

namespace StreamConfig

/-- What a file and the environment come to: the environment before the file, and what both leave
open as it is by default. -/
def resolve (file env : ConfigLayer) : StreamConfig where
  mailboxCapacity := (env.mailboxCapacity.or file.mailboxCapacity).getD default.mailboxCapacity
  commandQueueCapacity :=
    (env.commandQueueCapacity.or file.commandQueueCapacity).getD default.commandQueueCapacity
  delivery := (env.delivery.or file.delivery).getD default.delivery
  serverType := (env.serverType.or file.serverType).getD default.serverType

/-- There is room in mailboxes and queue. -/
def HasRoom (c : StreamConfig) : Prop := ∀ k, Capacity.of c k ≠ 0

/-- What is checked when a configuration is loaded: the file, the variables, and what the settings
come to. -/
inductive Check where
  | file
  | delivery
  | capacity (k : Capacity)
  | room (k : Capacity)

/-- The checks in their order. -/
def Check.all : List Check :=
  [.file, .delivery, .capacity .mailbox, .capacity .commandQueue, .room .mailbox,
    .room .commandQueue]

theorem Check.mem_all (check : Check) : check ∈ all := by
  rcases check with _ | _ | ⟨_ | _⟩ | ⟨_ | _⟩ <;> simp [all]

/-- What a check finds fault with. -/
inductive Complains (file : ConfigFile) (env : Environment) : Check → ConfigError → Prop
  | file {e : ConfigError} (h : file.Fails e) : Complains file env .file e
  /-- The variable of the delivery policy names none. -/
  | delivery {v : String} (hset : env.Says Environment.delivery v)
    (h : ∀ p : DeliveryPolicy, ¬ p.IsNamedBy v) :
    Complains file env .delivery (.invalidValue Environment.delivery (DeliveryPolicy.unknown v))
  /-- The variable of a capacity writes none. -/
  | capacity {k : Capacity} {v : String} (hset : env.Says k.envName v)
    (h : ∀ n, ¬ Environment.Writes v n) :
    Complains file env (.capacity k)
      (.invalidValue k.envName ("invalid usize value '" ++ v ++ "'"))
  /-- There is to be no room. -/
  | room {k : Capacity} {l l' : ConfigLayer} (hfile : file.Sets l) (henv : env.Sets l')
    (h : k.of (resolve l l') = 0) :
    Complains file env (.room k) (.invalidValue k.key "must be greater than zero")

/-! A result that some checks stand before: the first complaint takes its place. -/

section Guarded

variable {α β : Type}

/-- The error of a check that fails. -/
def errorOf? : Except ConfigError α → Option ConfigError
  | .error e => some e
  | .ok _ => none

/-- A result, unless there is a complaint. -/
def guarded (complaint : Option ConfigError) (result : Except ConfigError α) :
    Except ConfigError α :=
  complaint.elim result .error

theorem errorOf?_eq_some_iff {r : Except ConfigError α} {e : ConfigError} :
    errorOf? r = some e ↔ r = .error e := by
  cases r <;> simp [errorOf?]

/-- What follows a check whose value is known. -/
theorem bind_eq_guarded {r : Except ConfigError α} {a : α} (h : ∀ b, r = .ok b → b = a)
    (f : α → Except ConfigError β) : r >>= f = guarded (errorOf? r) (f a) := by
  cases r with
  | error e => rfl
  | ok b => rw [h b rfl]; rfl

theorem guarded_bind (complaint : Option ConfigError) (r : Except ConfigError α)
    (f : α → Except ConfigError β) : guarded complaint r >>= f = guarded complaint (r >>= f) := by
  cases complaint <;> rfl

theorem guarded_eq_ok_iff {complaint : Option ConfigError} {a b : α} :
    guarded complaint (.ok a) = .ok b ↔ complaint = none ∧ a = b := by
  cases complaint <;> simp [guarded]

theorem guarded_eq_error_iff {complaint : Option ConfigError} {a : α} {e : ConfigError} :
    guarded complaint (.ok a) = .error e ↔ complaint = some e := by
  cases complaint <;> simp [guarded]

theorem foldr_guarded (complaint? : β → Option ConfigError) (r : Except ConfigError α)
    (checks : List β) :
    checks.foldr (fun check => guarded (complaint? check)) r =
      guarded (checks.findSome? complaint?) r := by
  induction checks with
  | nil => rfl
  | cons check rest ih =>
    rw [List.foldr_cons, ih, List.findSome?_cons]
    cases complaint? check <;> rfl

end Guarded

/-- What file and environment come to, as far as they can be read. -/
def settled (file : ConfigFile) (env : Environment) : StreamConfig :=
  resolve (file.layer.toOption.getD .empty) env.settings

theorem settled_eq {file : ConfigFile} {env : Environment} {l l' : ConfigLayer}
    (hfile : file.Sets l) (henv : env.Sets l') : settled file env = resolve l l' := by
  rw [settled, ConfigFile.toOption_layer_eq_some_iff.2 hfile, Option.getD_some, henv.eq_settings]

/-- The complaint of a check, if it has one. There is nothing to be said of the room that a file
asks for which cannot be read. -/
def complaint? (file : ConfigFile) (env : Environment) : Check → Option ConfigError
  | .file => errorOf? file.layer
  | .delivery => errorOf? env.policy
  | .capacity k => errorOf? (env.capacity k.envName)
  | .room k => file.layer.toOption.bind fun l =>
    errorOf? (ConfigLayer.positive k.key (k.of (resolve l env.settings)))

theorem eq_of_positive {key : String} {n : Nat} (m : Nat)
    (h : ConfigLayer.positive key n = .ok m) : m = n := by
  rw [ConfigLayer.positive] at h
  split at h
  · cases h
  · exact (Except.ok.inj h).symm

theorem positive_eq_error_iff {key : String} {n : Nat} {e : ConfigError} :
    ConfigLayer.positive key n = .error e ↔
      n = 0 ∧ e = .invalidValue key "must be greater than zero" := by
  rw [ConfigLayer.positive]
  split <;> simp_all [eq_comm]

theorem layer_eq_guarded (env : Environment) :
    env.layer = guarded (errorOf? env.policy)
      (guarded (errorOf? (env.capacity Environment.mailboxCapacity))
        (guarded (errorOf? (env.capacity Environment.commandQueueCapacity))
          (.ok env.settings))) := by
  have hpolicy : ∀ p, env.policy = .ok p → p = env.settings.delivery := fun p h =>
    Environment.eq_bind_of_checked (env.policy_eq.symm.trans h)
  have hcapacity : ∀ name n, env.capacity name = .ok n →
      n = (env.value? name).bind Environment.natural? := fun name n h =>
    Environment.eq_bind_of_checked ((env.capacity_eq name).symm.trans h)
  rw [Environment.layer, bind_eq_guarded hpolicy, bind_eq_guarded (hcapacity _),
    bind_eq_guarded (hcapacity _)]
  rfl

theorem finalize_eq_guarded (file env : ConfigLayer) :
    (ConfigLayer.mergeAll [file, env]).finalize =
      guarded (errorOf? (ConfigLayer.positive "mailbox_capacity"
        (resolve file env).mailboxCapacity))
      (guarded (errorOf? (ConfigLayer.positive "command_queue_capacity"
        (resolve file env).commandQueueCapacity)) (.ok (resolve file env))) := by
  have hmerged : ConfigLayer.mergeAll [file, env] = file.merge env := by
    simp [ConfigLayer.mergeAll, ConfigLayer.merge, ConfigLayer.empty]
  rw [hmerged, ConfigLayer.finalize, bind_eq_guarded eq_of_positive, bind_eq_guarded eq_of_positive]
  rfl

/-- A capacity of zero in the file does no harm under another one in the environment. -/
example : (ConfigLayer.mergeAll [{ ConfigLayer.empty with mailboxCapacity := some 0 },
      { ConfigLayer.empty with mailboxCapacity := some 7 }]).finalize =
    .ok { default with mailboxCapacity := 7 } :=
  rfl

/-- **Loading is going through the checks**: the first complaint decides. -/
theorem load_eq (file : ConfigFile) (env : Environment) :
    load file env =
      guarded (Check.all.findSome? (complaint? file env)) (.ok (settled file env)) := by
  rw [← foldr_guarded]
  cases hfile : file.layer with
  | error e =>
    change _ = guarded (errorOf? file.layer) _
    rw [load, hfile]
    rfl
  | ok l =>
    have hrest : load file env =
        env.layer >>= fun l' => (ConfigLayer.mergeAll [l, l']).finalize := by
      rw [load, hfile]
      rfl
    rw [hrest, layer_eq_guarded, guarded_bind, guarded_bind, guarded_bind]
    simp only [Check.all, List.foldr_cons, List.foldr_nil, complaint?, settled, hfile]
    exact congrArg _ (congrArg _ (congrArg _ (finalize_eq_guarded l env.settings)))

/-! Each check complains of what it is there for. -/

section Complaints

variable {file : ConfigFile} {env : Environment} {e : ConfigError}

theorem complaint?_room_eq_some_iff {k : Capacity} :
    complaint? file env (.room k) = some e ↔
      ∃ l l', file.Sets l ∧ env.Sets l' ∧ k.of (resolve l l') = 0 ∧
        e = .invalidValue k.key "must be greater than zero" := by
  simp only [complaint?, Option.bind_eq_some_iff, ConfigFile.toOption_layer_eq_some_iff,
    errorOf?_eq_some_iff, positive_eq_error_iff]
  constructor
  · rintro ⟨l, hfile, hroom⟩
    exact ⟨l, env.settings, hfile, env.sets_settings, hroom⟩
  · rintro ⟨l, l', hfile, henv, hroom⟩
    exact ⟨l, hfile, henv.eq_settings ▸ hroom⟩

theorem complaint?_eq_some_iff {check : Check} :
    complaint? file env check = some e ↔ Complains file env check e := by
  cases check with
  | file =>
    rw [complaint?, errorOf?_eq_some_iff, ConfigFile.layer_eq_error_iff]
    exact ⟨.file, fun | .file h => h⟩
  | delivery =>
    rw [complaint?, errorOf?_eq_some_iff, Environment.policy_eq_error_iff]
    constructor
    · rintro ⟨v, hset, h, rfl⟩
      exact .delivery hset h
    · rintro ⟨⟩
      exact ⟨_, ‹_›, ‹_›, rfl⟩
  | capacity k =>
    rw [complaint?, errorOf?_eq_some_iff, Environment.capacity_eq_error_iff]
    constructor
    · rintro ⟨v, hset, h, rfl⟩
      exact .capacity hset h
    · rintro ⟨⟩
      exact ⟨_, ‹_›, ‹_›, rfl⟩
  | room k =>
    rw [complaint?_room_eq_some_iff]
    constructor
    · rintro ⟨l, l', hfile, henv, h, rfl⟩
      exact .room hfile henv h
    · rintro ⟨⟩
      exact ⟨_, _, ‹_›, ‹_›, ‹_›, rfl⟩

theorem exists_settings_of_forall_not_complains (h : ∀ check e, ¬ Complains file env check e) :
    ∃ l l', file.Sets l ∧ env.Sets l' ∧ env.IsUnderstood ∧ (resolve l l').HasRoom := by
  cases hlayer : file.layer with
  | error e => exact absurd (.file (ConfigFile.layer_eq_error_iff.1 hlayer)) (h .file e)
  | ok l =>
    have hfile : file.Sets l := ConfigFile.layer_eq_ok_iff.1 hlayer
    have henv := env.sets_settings
    have hunderstood : env.IsUnderstood :=
      { delivery := fun _ hset =>
          Classical.not_forall_not.1 fun hnone => h _ _ (.delivery hset hnone)
        capacity := fun _ _ hset =>
          Classical.not_forall_not.1 fun hnone => h _ _ (.capacity hset hnone) }
    exact ⟨l, env.settings, hfile, henv, hunderstood, fun _ hzero => h _ _ (.room hfile henv hzero)⟩

theorem not_complains {l l' : ConfigLayer} (hfile : file.Sets l) (henv : env.Sets l')
    (hunderstood : env.IsUnderstood) (hroom : (resolve l l').HasRoom) (check : Check)
    (e : ConfigError) : ¬ Complains file env check e := by
  intro h
  have hlayer := ConfigFile.layer_eq_ok_iff.2 hfile
  cases h with
  | file hfails => cases hlayer.symm.trans (ConfigFile.layer_eq_error_iff.2 hfails)
  | delivery hset hnone =>
    obtain ⟨p, hp⟩ := hunderstood.delivery _ hset
    exact hnone p hp
  | capacity hset hnone =>
    obtain ⟨n, hn⟩ := hunderstood.capacity _ _ hset
    exact hnone n hn
  | room hfile' henv' hzero =>
    cases hlayer.symm.trans (ConfigFile.layer_eq_ok_iff.2 hfile')
    rw [henv'.eq_settings, ← henv.eq_settings] at hzero
    exact hroom _ hzero

/-- Nothing is complained of where all settings can be read and leave room. -/
theorem forall_not_complains_iff :
    (∀ check e, ¬ Complains file env check e) ↔
      ∃ l l', file.Sets l ∧ env.Sets l' ∧ env.IsUnderstood ∧ (resolve l l').HasRoom :=
  ⟨exists_settings_of_forall_not_complains,
    fun ⟨_, _, hfile, henv, hunderstood, hroom⟩ => not_complains hfile henv hunderstood hroom⟩

end Complaints

/-- What loading comes to: the settings by precedence where all can be read and leave room, and else
the first complaint. -/
structure Loads (file : ConfigFile) (env : Environment) : Prop where
  ok_iff : ∀ c, load file env = .ok c ↔ ∃ l l', file.Sets l ∧ env.Sets l' ∧ env.IsUnderstood ∧
    (resolve l l').HasRoom ∧ c = resolve l l'
  error_iff : ∀ e, load file env = .error e ↔
    ∃ before check after, Check.all = before ++ check :: after ∧ Complains file env check e ∧
      ∀ earlier ∈ before, ∀ e', ¬ Complains file env earlier e'

theorem loads (file : ConfigFile) (env : Environment) : Loads file env where
  ok_iff c := by
    have hnone : Check.all.findSome? (complaint? file env) = none ↔
        ∀ check e, ¬ Complains file env check e := by
      rw [List.findSome?_eq_none_iff]
      simp only [Option.eq_none_iff_forall_ne_some, ne_eq, complaint?_eq_some_iff]
      exact ⟨fun h check => h check check.mem_all, fun h check _ => h check⟩
    rw [load_eq, guarded_eq_ok_iff, hnone, forall_not_complains_iff]
    constructor
    · rintro ⟨⟨l, l', hfile, henv, hunderstood, hroom⟩, rfl⟩
      exact ⟨l, l', hfile, henv, hunderstood, hroom, settled_eq hfile henv⟩
    · rintro ⟨l, l', hfile, henv, hunderstood, hroom, rfl⟩
      exact ⟨⟨l, l', hfile, henv, hunderstood, hroom⟩, settled_eq hfile henv⟩
  error_iff e := by
    simp only [load_eq, guarded_eq_error_iff, List.findSome?_eq_some_iff, complaint?_eq_some_iff,
      Option.eq_none_iff_forall_ne_some, ne_eq]

/-- **Configurations are loaded by precedence**, from every file and every environment, and merging
any number of layers leaves the last word to the last of them. -/
theorem loads_by_precedence :
    (∀ file env, Loads file env) ∧
      ∀ layers, (ConfigLayer.mergeAll layers).IsMerged layers :=
  ⟨loads, ConfigLayer.isMerged_mergeAll⟩

end StreamConfig

end FlagFanout
