import Retrace.Match.Machine

/-!
# Sequences

The terms of a sequence match one after another, in the order in which the scan meets them: from the
first to the last going forwards, from the last to the first going backwards. Each term begins where
the one before it ended. The next way of a sequence is found by asking the term visited last for its
next way; a term without one gives way to the term before it, and terms visited later begin afresh.

A sequence keeps one slot per term, in the order of the terms. It can be given the state of another
sequence, with more slots than it has terms or fewer. Slots beyond its terms stay as they are and
still contribute their captures; a slot that is missing is a fault as soon as it is needed.

Results:

* `Visited`: in a state that requests have led to, each term begins where the one before it ended.
* `sequence`: the machine of a sequence.
-/

namespace Retrace

/-- How a walk over the terms of a sequence ends, with the slots in the order of the visits. -/
inductive Walk where
  /-- All terms have matched. -/
  | complete (slots : List (Slot State))
  /-- There is no way left; no term is in use any more. -/
  | exhausted
  /-- A term was given the state of another kind of part, or a slot is missing. -/
  | fault (slots : List (Slot State))

/-- The slots of terms that have not been visited. -/
def unvisitedSlots (n : Nat) : List (Slot State) := List.replicate n .unvisited

/-- The captures of all slots; later slots win. -/
def slotCaptures (slots : List (Slot State)) : CaptureMap :=
  slots.foldl (fun captures slot => captures.merge slot.captures) .empty

/-- The slots of terms in the order of the visits, given those in the order of the terms, and the
    other way round. -/
def Direction.arrange {α : Type} (dir : Direction) (slots : List α) : List α :=
  match dir with
  | forward => slots
  | backward => slots.reverse

@[simp] theorem Direction.arrange_arrange {α : Type} (dir : Direction) (l : List α) :
    dir.arrange (dir.arrange l) = l := by
  cases dir <;> simp [arrange]

@[simp] theorem Direction.length_arrange {α : Type} (dir : Direction) (l : List α) :
    (dir.arrange l).length = l.length := by
  cases dir <;> simp [arrange]

namespace Machine

variable {dir : Direction} {length : Nat}

/-! ## Walking over the terms -/

/-- Asks a term that begins at `pos` for ways until one is found from whose end the later terms,
    which `rest` walks over, can be completed. -/
def seek (m : Machine dir length) (pos : Int) (rest : Int → Walk) (later : Nat)
    (slot : Slot State) : Walk :=
  match _h : m.request pos slot.state with
  | .none _ => .exhausted
  | .fault s => .fault (⟨s, slot.outcome⟩ :: unvisitedSlots later)
  | .found o s =>
    match rest o.index with
    | .exhausted => seek m pos rest later ⟨s, some o⟩
    | .complete slots => .complete (⟨s, some o⟩ :: slots)
    | .fault slots => .fault (⟨s, some o⟩ :: slots)
termination_by (m.ends pos).wrap slot.state
decreasing_by exact ⟨o, _h⟩

/-- The first walk over terms that have not been visited, from `pos`. -/
def enter : List (Machine dir length) → Int → Walk
  | [], _ => .complete []
  | m :: ms, pos => seek m pos (enter ms) ms.length .unvisited

/-- The next walk over terms that have been visited: the later ones are retried first. The first
    term begins at `pos`; a term behind one that has not matched begins at `entry`. -/
def retry : List (Machine dir length) → (entry pos : Int) → List (Slot State) → Walk
  | [], _, _, _ => .exhausted
  | _ :: _, _, _, [] => .fault []
  | m :: ms, entry, pos, slot :: slots =>
    match retry ms entry (slot.endFrom entry) slots with
    | .exhausted => seek m pos (enter ms) ms.length slot
    | .complete slots => .complete (slot :: slots)
    | .fault slots => .fault (slot :: slots)

/-- The next walk when slots of the terms visited first are missing: the term of the first slot
    cannot be asked again, since the place where it begins is not known. -/
def retryPart (ms : List (Machine dir length)) (entry : Int) : List (Slot State) → Walk
  | [] => .fault []
  | slot :: slots =>
    match retry (ms.drop (ms.length - slots.length)) entry (slot.endFrom entry) slots with
    | .exhausted => .fault (slot :: unvisitedSlots slots.length)
    | .complete slots => .complete (slot :: slots)
    | .fault slots => .fault (slot :: slots)

/-- The next walk over terms in the order of the visits. Missing slots are those of the last terms,
    which a backward scan visits first. -/
def resume (ms : List (Machine dir length)) (pos : Int) (slots : List (Slot State)) : Walk :=
  if dir = .backward ∧ slots.length < ms.length then retryPart ms pos slots
  else retry ms pos pos slots

/-- The answer of a sequence after a walk, where `extra` holds the slots beyond its terms. -/
def answer (dir : Direction) (pos : Int) (extra : List (Slot State)) : Walk → Reply State
  | .complete visited =>
    let slots := dir.arrange visited ++ extra
    let index := (visited.getLast?.map fun slot => slot.endFrom pos).getD pos
    .found ⟨index, slotCaptures slots⟩ (.sequence slots)
  | .exhausted => .none .sequenceDone
  | .fault visited => .fault (.sequence (dir.arrange visited ++ extra))

/-- The request of the sequence of the given terms. -/
def sequenceRequest (ms : List (Machine dir length)) : Request := fun pos s =>
  match s with
  | .fresh => answer dir pos [] (enter (dir.arrange ms) pos)
  | .sequence slots =>
    answer dir pos (slots.drop ms.length)
      (resume (dir.arrange ms) pos (dir.arrange (slots.take ms.length)))
  | .sequenceDone => .none .sequenceDone
  | s => .fault s

/-! ## Ways run out -/

/-- A completed search changes the term's slot, by one way or more, and enters the later terms. -/
theorem seek_eq_complete {m : Machine dir length} {pos : Int} {rest : Int → Walk} {later : Nat}
    {slot : Slot State} {slots : List (Slot State)}
    (h : seek m pos rest later slot = .complete slots) :
    ∃ o s slots', slots = ⟨s, some o⟩ :: slots' ∧ rest o.index = .complete slots' ∧
      ∃ s₀, m.request pos s₀ = .found o s ∧
        (s₀ = slot.state ∨ Relation.TransGen (Next m.request pos) s₀ slot.state) := by
  obtain ⟨s, outcome⟩ := slot
  induction s using (m.ends pos).induction generalizing outcome with
  | _ s ih =>
    unfold seek at h
    split at h
    · cases h
    · cases h
    case h_3 o s' hm =>
      split at h
      case h_1 =>
        obtain ⟨o', s'', slots', rfl, hrest, s₀, hs₀, hlater⟩ := ih s' ⟨o, hm⟩ _ h
        refine ⟨o', s'', slots', rfl, hrest, s₀, hs₀, .inr ?_⟩
        rcases hlater with rfl | hlater
        · exact .single ⟨o, hm⟩
        · exact .tail hlater ⟨o, hm⟩
      case h_2 slots' hrest =>
        cases h
        exact ⟨o, s', slots', rfl, hrest, s, hm, .inl rfl⟩
      case h_3 => cases h

theorem length_of_enter {ms : List (Machine dir length)} {pos : Int} {slots : List (Slot State)}
    (h : enter ms pos = .complete slots) : slots.length = ms.length := by
  induction ms generalizing pos slots with
  | nil =>
    cases h
    rfl
  | cons m ms ih =>
    obtain ⟨o, s, slots', rfl, hrest, _⟩ := seek_eq_complete h
    simp [ih hrest]

/-- A completed retry leaves the first slot as it is, or changes it and enters the later terms. -/
theorem retry_cons_eq_complete {m : Machine dir length} {ms : List (Machine dir length)}
    {entry pos : Int} {slot : Slot State} {slots slots' : List (Slot State)}
    (h : retry (m :: ms) entry pos (slot :: slots) = .complete slots') :
    (∃ rest, slots' = slot :: rest ∧ retry ms entry (slot.endFrom entry) slots = .complete rest) ∨
    (retry ms entry (slot.endFrom entry) slots = .exhausted ∧
      seek m pos (enter ms) ms.length slot = .complete slots') := by
  unfold retry at h
  split at h
  case h_1 hr => exact .inr ⟨hr, h⟩
  case h_2 rest hr =>
    cases h
    exact .inl ⟨rest, rfl, hr⟩
  case h_3 => cases h

/-- A retry with too few slots is a fault. -/
theorem length_le_of_retry {ms : List (Machine dir length)} {entry pos : Int}
    {slots : List (Slot State)} (h : ∀ visited, retry ms entry pos slots ≠ .fault visited) :
    ms.length ≤ slots.length := by
  induction ms generalizing pos slots with
  | nil => simp
  | cons m ms ih =>
    cases slots with
    | nil => exact absurd rfl (h [])
    | cons slot slots =>
      simp only [List.length_cons, Nat.add_le_add_iff_right]
      have rest : ∀ visited, retry ms entry (slot.endFrom entry) slots ≠ .fault visited := by
        intro visited hv
        exact h (slot :: visited) (by simp [retry, hv])
      exact ih rest

theorem length_of_retry {ms : List (Machine dir length)} {entry pos : Int}
    {slots slots' : List (Slot State)} (hle : slots.length ≤ ms.length)
    (h : retry ms entry pos slots = .complete slots') :
    slots'.length = ms.length ∧ slots.length = ms.length := by
  have hge : ms.length ≤ slots.length := length_le_of_retry fun visited hv => by
    rw [hv] at h
    cases h
  refine ⟨?_, by omega⟩
  induction ms generalizing pos slots slots' with
  | nil => cases h
  | cons m ms ih =>
    cases slots with
    | nil => cases h
    | cons slot slots =>
      simp only [List.length_cons, Nat.add_le_add_iff_right] at hle hge
      rcases retry_cons_eq_complete h with ⟨rest, rfl, hr⟩ | ⟨_, hs⟩
      · simp [ih hle hr hge]
      · obtain ⟨o, s, slots'', rfl, hrest, _⟩ := seek_eq_complete hs
        simp [length_of_enter hrest]

/-- Retries run out: a slot that changes moves on through the ways of its term, and the slots behind
    it start again. -/
theorem retry_wf (ms : List (Machine dir length)) (entry pos : Int) :
    WellFounded fun slots' slots => retry ms entry pos slots = .complete slots' := by
  induction ms generalizing pos with
  | nil => exact ⟨fun slots => .intro _ fun slots' h => nomatch h⟩
  | cons m ms ih =>
    have cons (s : State) : ∀ (outcome : Option Outcome) (slots : List (Slot State)),
        Acc (fun slots' slots => retry (m :: ms) entry pos slots = .complete slots')
          (⟨s, outcome⟩ :: slots) := by
      induction s using (m.ends pos).transGen.induction with
      | _ s ihs =>
        intro outcome slots
        induction slots using (ih (Slot.endFrom ⟨s, outcome⟩ entry)).induction with
        | _ slots ihslots =>
          refine .intro _ fun slots' h => ?_
          rcases retry_cons_eq_complete h with ⟨rest, rfl, hr⟩ | ⟨_, hs⟩
          · exact ihslots rest hr
          · obtain ⟨o, s', slots'', rfl, _, s₀, hs₀, hlater⟩ := seek_eq_complete hs
            refine ihs s' ?_ (some o) slots''
            rcases hlater with rfl | hlater
            · exact .single ⟨o, hs₀⟩
            · exact Relation.TransGen.trans (.single ⟨o, hs₀⟩) hlater
    refine ⟨fun slots => ?_⟩
    cases slots with
    | nil => exact .intro _ fun slots' h => nomatch h
    | cons slot slots => exact cons slot.state slot.outcome slots

theorem retryPart_eq_complete {ms : List (Machine dir length)} {entry : Int} {slot : Slot State}
    {slots slots' : List (Slot State)}
    (h : retryPart ms entry (slot :: slots) = .complete slots') :
    ∃ rest, slots' = slot :: rest ∧
      retry (ms.drop (ms.length - slots.length)) entry (slot.endFrom entry) slots =
        .complete rest := by
  simp only [retryPart] at h
  split at h
  · cases h
  case h_2 rest hr =>
    cases h
    exact ⟨rest, rfl, hr⟩
  · cases h

theorem length_of_resume {ms : List (Machine dir length)} {pos : Int}
    {slots slots' : List (Slot State)} (hle : slots.length ≤ ms.length)
    (h : resume ms pos slots = .complete slots') : slots'.length = slots.length := by
  unfold resume at h
  split at h
  case isTrue hlt =>
    cases slots with
    | nil => cases h
    | cons slot slots =>
      obtain ⟨rest, rfl, hr⟩ := retryPart_eq_complete h
      simp only [List.length_cons] at hle
      have := length_of_retry (by simp; omega) hr
      simp only [List.length_cons]
      omega
  case isFalse =>
    have := length_of_retry hle h
    omega

theorem resume_acc (ms : List (Machine dir length)) (pos : Int) (slots : List (Slot State))
    (hle : slots.length ≤ ms.length) :
    Acc (fun slots' slots => resume ms pos slots = .complete slots') slots := by
  by_cases hlt : dir = .backward ∧ slots.length < ms.length
  · cases slots with
    | nil =>
      refine .intro _ fun slots' h => ?_
      rw [resume, if_pos hlt] at h
      cases h
    | cons slot slots =>
      generalize hn : slots.length = n
      have hn' : n < ms.length := by simp only [List.length_cons] at hle; omega
      induction slots using
        (retry_wf (ms.drop (ms.length - n)) pos (slot.endFrom pos)).induction with
      | _ slots ih =>
        refine .intro _ fun slots' h => ?_
        rw [resume, if_pos hlt] at h
        obtain ⟨rest, rfl, hr⟩ := retryPart_eq_complete h
        rw [hn] at hr
        have hlen := length_of_retry (by simp; omega) hr
        have hrest : rest.length = n := by omega
        have hle : (slot :: rest).length ≤ ms.length := by
          simp only [List.length_cons]
          omega
        exact ih rest hr hle (by simpa [hrest, hn] using hlt) hrest
  · induction slots using (retry_wf ms pos pos).induction with
    | _ slots ih =>
      refine .intro _ fun slots' h => ?_
      have hlen := length_of_resume hle h
      rw [resume, if_neg hlt] at h
      exact ih slots' h (by omega) (by rwa [hlen])

theorem answer_eq_found {pos : Int} {extra : List (Slot State)} {w : Walk} {o : Outcome}
    {s' : State} (h : answer dir pos extra w = .found o s') :
    ∃ visited, w = .complete visited ∧ s' = .sequence (dir.arrange visited ++ extra) ∧
      o.index = (visited.getLast?.map fun slot => slot.endFrom pos).getD pos := by
  unfold answer at h
  split at h
  case h_1 visited =>
    cases h
    exact ⟨visited, rfl, rfl, rfl⟩
  case h_2 => cases h
  case h_3 => cases h

theorem sequence_ends (ms : List (Machine dir length)) (pos : Int) :
    WellFounded (Next (sequenceRequest ms) pos) := by
  have acc (visited : List (Slot State)) (hle : visited.length ≤ ms.length) :
      ∀ slots : List (Slot State), visited = dir.arrange (slots.take ms.length) →
        Acc (Next (sequenceRequest ms) pos) (.sequence slots) := by
    have := resume_acc (dir.arrange ms) pos visited (by simpa using hle)
    induction this with
    | intro visited _ ih =>
      rintro slots rfl
      refine .intro _ ?_
      rintro s' ⟨o, h⟩
      obtain ⟨visited', hw, rfl, _⟩ := answer_eq_found h
      have hlen := length_of_resume
        (by simp only [Direction.length_arrange, List.length_take, Nat.min_le_left]) hw
      simp only [Direction.length_arrange] at hlen hle
      refine ih visited' hw (by omega) _ ?_
      by_cases hextra : slots.length ≤ ms.length
      · rw [List.drop_eq_nil_of_le hextra, List.append_nil, List.take_of_length_le]
        · simp
        · simp only [Direction.length_arrange]
          omega
      · have : (dir.arrange visited').length = ms.length := by
          simp only [Direction.length_arrange, List.length_take] at hlen ⊢
          omega
        rw [← this, List.take_left]
        simp
  have step {w : Walk} {extra : List (Slot State)} {o : Outcome} {s' : State}
      (h : answer dir pos extra w = .found o s') : Acc (Next (sequenceRequest ms) pos) s' := by
    obtain ⟨visited, _, rfl, _⟩ := answer_eq_found h
    exact acc _ (by simp only [Direction.length_arrange, List.length_take]; omega) _ rfl
  refine ⟨fun s => .intro _ ?_⟩
  rintro s' ⟨o, h⟩
  cases s with
  | fresh => exact step h
  | sequence slots => exact step h
  | _ => cases h

/-! ## Ways lead ahead -/

/-- The slots of terms visited in order from `pos`: each term has matched from the end of the one
    before it, and is in a state that requests have led to. -/
inductive Visited : List (Machine dir length) → Int → List (Slot State) → Prop where
  | nil {pos : Int} : Visited [] pos []
  | cons {m : Machine dir length} {ms : List (Machine dir length)} {pos : Int} {s : State}
      {o : Outcome} {slots : List (Slot State)} (hs : Reached m.request pos s)
      (ho : Ahead dir length pos o.index) (h : Visited ms o.index slots) :
      Visited (m :: ms) pos (⟨s, some o⟩ :: slots)

theorem Visited.length_eq {ms : List (Machine dir length)} {pos : Int}
    {slots : List (Slot State)} (h : Visited ms pos slots) : slots.length = ms.length := by
  induction h with
  | nil => rfl
  | cons _ _ _ ih => simp [ih]

theorem Visited.ahead {ms : List (Machine dir length)} {pos : Int} {slots : List (Slot State)}
    (h : Visited ms pos slots) (entry : Int) :
    Ahead dir length pos ((slots.getLast?.map fun slot => slot.endFrom entry).getD pos) := by
  induction h with
  | nil => exact .refl _
  | @cons m ms pos s o slots _ ho h ih =>
    cases slots with
    | nil => exact ho
    | cons slot slots =>
      rw [List.getLast?_cons_cons]
      have hne : (slot :: slots).getLast? ≠ none := by simp
      obtain ⟨last, hlast⟩ := Option.ne_none_iff_exists'.1 hne
      rw [hlast] at ih ⊢
      exact ho.trans ih

/-- The states between the fresh one and one that requests have led to are such states too. -/
theorem reached_of_transGen {m : Machine dir length} {pos : Int} {s s' : State}
    (hs : Reached m.request pos s) (h : Relation.TransGen (Next m.request pos) s' s) :
    Reached m.request pos s' := by
  induction h with
  | single h =>
    obtain ⟨o, h⟩ := h
    exact .next hs h
  | tail _ h ih =>
    obtain ⟨o, h⟩ := h
    exact ih (.next hs h)

theorem visited_of_seek {m : Machine dir length} {ms : List (Machine dir length)} {pos : Int}
    {rest : Int → Walk} {later : Nat} {slot : Slot State} {slots : List (Slot State)}
    (hrest : ∀ pos slots, rest pos = .complete slots → Visited ms pos slots)
    (hs : Reached m.request pos slot.state)
    (h : seek m pos rest later slot = .complete slots) : Visited (m :: ms) pos slots := by
  obtain ⟨o, s, slots', rfl, hr, s₀, hs₀, hlater⟩ := seek_eq_complete h
  have hreached : Reached m.request pos s₀ := by
    rcases hlater with rfl | hlater
    · exact hs
    · exact reached_of_transGen hs hlater
  exact .cons (.next hreached hs₀) (m.ahead hreached hs₀) (hrest _ _ hr)

theorem visited_of_enter {ms : List (Machine dir length)} {pos : Int} {slots : List (Slot State)}
    (h : enter ms pos = .complete slots) : Visited ms pos slots := by
  induction ms generalizing pos slots with
  | nil =>
    cases h
    exact .nil
  | cons m ms ih => exact visited_of_seek (fun _ _ => ih) .fresh h

theorem visited_of_retry {ms : List (Machine dir length)} {entry pos : Int}
    {slots slots' : List (Slot State)} (hv : Visited ms pos slots)
    (h : retry ms entry pos slots = .complete slots') : Visited ms pos slots' := by
  induction hv generalizing slots' with
  | nil => cases h
  | cons hs ho hv ih =>
    rcases retry_cons_eq_complete h with ⟨rest, rfl, hr⟩ | ⟨_, hseek⟩
    · exact .cons hs ho (ih hr)
    · exact visited_of_seek (fun _ _ => visited_of_enter) hs hseek

/-- In a state of a sequence that requests have led to, the terms have been visited in order. -/
theorem visited_of_reached {ms : List (Machine dir length)} {pos : Int} {s : State}
    (h : Reached (sequenceRequest ms) pos s) :
    s = .fresh ∨ ∃ visited, s = .sequence (dir.arrange visited) ∧
      Visited (dir.arrange ms) pos visited := by
  induction h with
  | fresh => exact .inl rfl
  | next _ hs ih =>
    right
    rcases ih with rfl | ⟨visited, rfl, hv⟩
    · obtain ⟨visited, hw, rfl, _⟩ := answer_eq_found hs
      exact ⟨visited, by simp, visited_of_enter hw⟩
    · have hlen : visited.length = ms.length := by simpa using hv.length_eq
      obtain ⟨visited', hw, rfl, _⟩ := answer_eq_found hs
      rw [List.take_of_length_le (by simp [hlen]), Direction.arrange_arrange, resume,
        if_neg (by simp [hlen])] at hw
      refine ⟨visited', ?_, visited_of_retry hv hw⟩
      rw [List.drop_eq_nil_of_le (by simp [hlen]), List.append_nil]

theorem sequence_ahead {ms : List (Machine dir length)} {pos : Int} {s s' : State} {o : Outcome}
    (hs : Reached (sequenceRequest ms) pos s) (h : sequenceRequest ms pos s = .found o s') :
    Ahead dir length pos o.index := by
  rcases visited_of_reached hs with rfl | ⟨visited, rfl, hv⟩
  · obtain ⟨visited, hw, _, ho⟩ := answer_eq_found h
    rw [ho]
    exact (visited_of_enter hw).ahead pos
  · have hlen : visited.length = ms.length := by simpa using hv.length_eq
    obtain ⟨visited', hw, _, ho⟩ := answer_eq_found h
    rw [List.take_of_length_le (by simp [hlen]), Direction.arrange_arrange, resume,
      if_neg (by simp [hlen])] at hw
    rw [ho]
    exact (visited_of_retry hv hw).ahead pos

/-- The sequence of machines, in the order of their terms. -/
def sequence (ms : List (Machine dir length)) : Machine dir length where
  request := sequenceRequest ms
  ends := sequence_ends ms
  ahead := sequence_ahead

end Machine

end Retrace
