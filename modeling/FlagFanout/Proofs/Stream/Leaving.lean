import FlagFanout.Proofs.Stream.Accounting

/-!
# Several connections are closed

`Worker.closeAll` handles commands to close one after the other. What is left of the channels is
said without the order of the commands (`Worker.find?_closeAll`): every channel has the members that
were not closed there, and a channel of which nobody is left is gone. The books stay balanced
(`Balanced.closeAll`), and all that is done outside the worker is to report the connections closed
(`AreClosings`).
-/

namespace FlagFanout

/-! ## Channels with fewer members -/

/-- A channel with the members that pass a test, if there are any. -/
def Channel.restrict? (p : ConnectionId → Bool) (c : Channel) : Option Channel :=
  if c.members.filter p = [] then none else some { c with members := c.members.filter p }

namespace Channel

variable {p q : ConnectionId → Bool} {c d : Channel}

theorem restrict?_eq_some_iff :
    c.restrict? p = some d ↔
      c.members.filter p ≠ [] ∧ d = { c with members := c.members.filter p } := by
  unfold restrict?
  split
  · next h => simp [h]
  · next h => simp [h, eq_comm]

theorem restrict?_eq_none_iff : c.restrict? p = none ↔ c.members.filter p = [] := by
  unfold restrict?
  split
  · next h => simp [h]
  · next h => simp [h]

theorem restrict?_congr (h : ∀ id ∈ c.members, p id = q id) : c.restrict? p = c.restrict? q := by
  unfold restrict?
  rw [List.filter_congr h]

theorem restrict?_of_all (hmembers : c.members ≠ []) (h : ∀ id ∈ c.members, p id = true) :
    c.restrict? p = some c := by
  have hall : c.members.filter p = c.members := List.filter_eq_self.2 h
  rw [restrict?, hall, if_neg hmembers]

theorem restrict?_bind :
    (c.restrict? p).bind (restrict? q) = c.restrict? fun id => p id && q id := by
  have hfilter : (c.members.filter p).filter q = c.members.filter fun id => p id && q id := by
    rw [List.filter_filter]
    exact List.filter_congr fun id _ => Bool.and_comm ..
  unfold restrict?
  by_cases hp : c.members.filter p = []
  · have hpq : (c.members.filter fun id => p id && q id) = [] := by rw [← hfilter, hp]; rfl
    rw [if_pos hp, if_pos hpq]
    rfl
  · rw [if_neg hp, Option.bind_some, hfilter]

end Channel

/-! ## Reports of closed connections -/

/-- All that is done is to report connections closed. -/
def AreClosings (fx : List Effect) : Prop :=
  ∀ f ∈ fx, ∃ selector, f = .metric (.closed selector)

namespace AreClosings

variable {fx fx' : List Effect}

theorem nil : AreClosings [] := fun _ hf => nomatch hf

theorem append (h : AreClosings fx) (h' : AreClosings fx') : AreClosings (fx ++ fx') :=
  fun f hf => (List.mem_append.1 hf).elim (h f) (h' f)

theorem of_closings (pruned : List (Place × Nat)) : AreClosings (Worker.closings pruned) := by
  intro f hf
  obtain ⟨entry, -, hmem⟩ := List.mem_flatMap.1 hf
  exact ⟨entry.1.1, List.eq_of_mem_replicate hmem⟩

theorem openedIn_eq (h : AreClosings fx) (p : Selector → Bool) :
    openedIn p (fx.map .effect) = 0 := by
  refine List.countP_eq_zero.2 fun ev hev => ?_
  obtain ⟨f, hf, rfl⟩ := List.mem_map.1 hev
  obtain ⟨selector, rfl⟩ := h f hf
  exact Bool.false_ne_true

theorem count_closed (selector : Selector) (fx : List Effect) :
    fx.count (.metric (.closed selector)) = closedIn (· = selector) (fx.map .effect) := by
  unfold closedIn
  rw [List.countP_map]
  refine List.countP_congr fun f _ => ?_
  rcases f with _ | _ | m
  · simp
  · simp
  · cases m <;> simp

/-- Such reports are told apart by how many there are for each selector. -/
theorem perm (h : AreClosings fx) (h' : AreClosings fx')
    (hclosed : ∀ p, closedIn p (fx.map .effect) = closedIn p (fx'.map .effect)) :
    fx.Perm fx' := by
  refine List.perm_iff_count.2 fun f => ?_
  by_cases hf : ∃ selector, f = .metric (.closed selector)
  · obtain ⟨selector, rfl⟩ := hf
    rw [count_closed, count_closed, hclosed]
  · rw [List.count_eq_zero_of_not_mem fun hc => hf (h f hc),
      List.count_eq_zero_of_not_mem fun hc => hf (h' f hc)]

end AreClosings

/-! ## Several commands to close -/

namespace Worker

/-- Several connections are closed one after the other, each where it is said to be. -/
def closeAll (w : Worker) : List (ConnectionId × Place) → Worker × List Effect
  | [] => (w, [])
  | (id, place) :: rest =>
    let (w, effects) := w.close id place.1 place.2
    let (w, more) := w.closeAll rest
    (w, effects ++ more)

/-- A connection is no member where it is said to be, or leaves its channel. -/
theorem close_cases (w : Worker) (id : ConnectionId) (place : Place) :
    (w.close id place.1 place.2 = (w, []) ∧ id ∉ w.index.membersAt place) ∨
    ∃ c, w.index.find? place.1 place.2 = some c ∧ id ∈ c.members ∧
      w.close id place.1 place.2 =
        (({ w with index := w.index.put place.1 place.2 (c.leave id) }.collect place).retire,
          [.metric (.closed place.1)]) := by
  unfold close
  cases hfind : w.index.find? place.1 place.2 with
  | none => exact .inl ⟨rfl, by simp [ChannelIndex.membersAt, hfind]⟩
  | some c =>
    by_cases hmember : id ∈ c.members
    · exact .inr ⟨c, rfl, hmember, if_pos hmember⟩
    · exact .inl ⟨if_neg hmember, by rwa [ChannelIndex.membersAt_of_find? hfind]⟩

/-- No channel is without members, and nobody is twice in one. -/
def Filled (i : ChannelIndex) : Prop :=
  ∀ (place : Place) c, i.find? place.1 place.2 = some c → c.members ≠ [] ∧ c.members.Nodup

variable {w : Worker}

/-- One connection is closed: it is missing where it was, and so is a channel that it was alone
in. -/
theorem find?_close (hfilled : Filled w.index) (id : ConnectionId) (place place' : Place) :
    (w.close id place.1 place.2).1.index.find? place'.1 place'.2 =
      (w.index.find? place'.1 place'.2).bind
        (Channel.restrict? fun id' => !decide ((id', place') = (id, place))) := by
  have hsame : ∀ c, w.index.find? place'.1 place'.2 = some c →
      (place' = place → id ∉ c.members) →
        c.restrict? (fun id' => !decide ((id', place') = (id, place))) = some c := by
    intro c hfind hnot
    refine Channel.restrict?_of_all (hfilled place' c hfind).1 fun id' hid' => ?_
    rw [Bool.not_eq_true', decide_eq_false_iff_not]
    intro heq
    obtain ⟨rfl, hplace⟩ := Prod.mk.inj heq
    exact hnot hplace hid'
  rcases w.close_cases id place with ⟨hclose, hnot⟩ | ⟨c, hfind, hmember, hclose⟩
  · rw [hclose]
    cases hfind : w.index.find? place'.1 place'.2 with
    | none => rfl
    | some c =>
      refine (hsame c hfind fun heq => ?_).symm
      rwa [← heq, ChannelIndex.membersAt_of_find? hfind] at hnot
  · rw [hclose]
    change ((w.index.put place.1 place.2 (c.leave id)).collect place.1 place.2).find? _ _ = _
    rw [ChannelIndex.find?_collect, ChannelIndex.find?_put_self, Option.any_some,
      ChannelIndex.find?_put]
    by_cases hplace : place' = place
    · subst hplace
      have hleave : (c.leave id).members =
          c.members.filter fun id' => !decide ((id', place') = (id, place')) := by
        rw [Channel.leave, (hfilled place' c hfind).2.erase_eq_filter]
        exact List.filter_congr fun id' _ => Bool.eq_iff_iff.2 (by simp)
      rw [hfind, Option.bind_some, Channel.restrict?, ← hleave, if_pos rfl]
      simp only [true_and, Channel.isEmpty, List.isEmpty_iff]
      rfl
    · rw [if_neg fun hc => hplace hc.1, if_neg hplace]
      cases hfind' : w.index.find? place'.1 place'.2 with
      | none => rfl
      | some d => exact (hsame d hfind' fun heq => absurd heq hplace).symm

theorem filled_close (hfilled : Filled w.index) (id : ConnectionId) (place : Place) :
    Filled (w.close id place.1 place.2).1.index := by
  intro place' d hd
  rw [find?_close hfilled] at hd
  obtain ⟨c, hfind, hc⟩ := Option.bind_eq_some_iff.1 hd
  obtain ⟨hne, rfl⟩ := Channel.restrict?_eq_some_iff.1 hc
  exact ⟨hne, (hfilled place' c hfind).2.filter _⟩

/-- Several connections are closed: they are missing where they were, and so is every channel of
which nobody is left. -/
theorem find?_closeAll (hfilled : Filled w.index) (gone : List (ConnectionId × Place))
    (place : Place) :
    (w.closeAll gone).1.index.find? place.1 place.2 =
      (w.index.find? place.1 place.2).bind
        (Channel.restrict? fun id => !decide ((id, place) ∈ gone)) := by
  induction gone generalizing w with
  | nil =>
    change w.index.find? place.1 place.2 = _
    cases hfind : w.index.find? place.1 place.2 with
    | none => rfl
    | some c =>
      exact (Channel.restrict?_of_all (hfilled place c hfind).1 fun id _ => by simp).symm
  | cons entry rest ih =>
    obtain ⟨id, place'⟩ := entry
    refine (ih (filled_close hfilled id place')).trans ?_
    rw [find?_close hfilled, Option.bind_assoc]
    refine congrArg (Option.bind _) (funext fun c => ?_)
    rw [Channel.restrict?_bind]
    exact Channel.restrict?_congr fun id' _ => by simp [List.mem_cons]

/-- Closing connections reports them closed, and leaves alone what was sent. -/
structure IsClosed (w : Worker) (r : Worker × List Effect) : Prop where
  phase_eq : r.1.phase = w.phase
  sent_eq : r.1.counters.sent = w.counters.sent
  dropped_eq : r.1.counters.dropped = w.counters.dropped
  closings : AreClosings r.2

theorem isClosed_closeAll (w : Worker) (gone : List (ConnectionId × Place)) :
    IsClosed w (w.closeAll gone) := by
  induction gone generalizing w with
  | nil => exact ⟨rfl, rfl, rfl, .nil⟩
  | cons entry rest ih =>
    obtain ⟨id, place⟩ := entry
    have h := ih (w.close id place.1 place.2).1
    have hclose : IsClosed w (w.close id place.1 place.2) := by
      rcases w.close_cases id place with ⟨hclose, -⟩ | ⟨c, -, -, hclose⟩
      · rw [hclose]
        exact ⟨rfl, rfl, rfl, .nil⟩
      · rw [hclose]
        exact ⟨rfl, rfl, rfl, fun f hf => ⟨place.1, List.mem_singleton.1 hf⟩⟩
    exact
      { phase_eq := h.phase_eq.trans hclose.phase_eq
        sent_eq := h.sent_eq.trans hclose.sent_eq
        dropped_eq := h.dropped_eq.trans hclose.dropped_eq
        closings := hclose.closings.append h.closings }

end Worker

/-- The books only know how many were reported opened and closed. -/
theorem Balanced.congr {w : Worker} {log log' : List Event} (h : Balanced w log)
    (hopened : ∀ p, openedIn p log' = openedIn p log)
    (hclosed : ∀ p, closedIn p log' = closedIn p log) : Balanced w log' :=
  { h with
    reports_eq := fun hp p => by
      rw [hopened, hclosed]
      exact h.reports_eq hp p }

theorem Balanced.closeAll {w : Worker} {log : List Event} (h : Balanced w log)
    (hphase : w.phase = .idle) (gone : List (ConnectionId × Place)) :
    Balanced (w.closeAll gone).1 (log ++ (w.closeAll gone).2.map .effect) := by
  induction gone generalizing w log with
  | nil => exact (List.append_nil log).symm ▸ h
  | cons entry rest ih =>
    obtain ⟨id, place⟩ := entry
    have hclose : Balanced (w.close id place.1 place.2).1
        (log ++ (w.close id place.1 place.2).2.map .effect) := by
      rcases w.close_cases id place with ⟨hclose, -⟩ | ⟨c, hfind, hmember, hclose⟩
      · rw [hclose]
        exact (List.append_nil log).symm ▸ h
      · rw [hclose]
        exact (h.depart place hphase hfind hmember).congr
          (fun p => by rw [openedIn_append, openedIn_append]; rfl)
          fun p => by rw [closedIn_append, closedIn_append]; rfl
    have hidle : (w.close id place.1 place.2).1.phase = .idle :=
      (w.isClosed_closeAll [(id, place)]).phase_eq.trans hphase
    have hrest := ih hclose hidle
    rw [List.append_assoc, ← List.map_append] at hrest
    exact hrest

end FlagFanout
