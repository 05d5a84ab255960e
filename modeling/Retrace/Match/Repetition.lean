import Retrace.Match.Machine

/-!
# Repetitions

A repetition searches the chains of ways of its term, depth first: each way in a chain begins where
the one before it ended. A greedy repetition tries every longer chain before it settles for a chain,
a lazy one settles first. Beyond the least number of repetitions, a way that ends where it began
does not lengthen a chain.

The chain at hand is a stack of slots, the last repetition on top. The search is a walk over turns,
each of which determines the next; a turn may also offer the chain as a way. Since the walk goes on
from an offered chain when the next way is asked for, one argument shows both that every request is
answered and that ways run out: from any turn the walk comes to an end (`turn_acc`).

Results:

* `Chain`: in a state that requests have led to, each repetition ends at or ahead of its beginning.
* `Chain.count_eq`: in such a state, the stack counts its slots.
* `repetition`: the machine of a repetition.
-/

namespace Retrace

namespace RepetitionStack

/-- The chain without repetitions. -/
def bottom : RepetitionStack State := ⟨0, []⟩

/-- The chain with one more repetition. -/
def push (below : RepetitionStack State) (slot : Slot State) : RepetitionStack State :=
  ⟨below.count + 1, slot :: below.slots⟩

/-- Where the chain ends, if it begins at `pos`. -/
def endFrom (stack : RepetitionStack State) (pos : Int) : Int :=
  match stack.slots with
  | [] => pos
  | slot :: _ => slot.endFrom pos

/-- What the chain has captured: its last repetition carries the captures of all. -/
def captures (stack : RepetitionStack State) : CaptureMap :=
  match stack.slots with
  | [] => .empty
  | slot :: _ => slot.captures

/-- The chain as a way of matching. -/
def outcome (stack : RepetitionStack State) (pos : Int) : Outcome :=
  ⟨stack.endFrom pos, stack.captures⟩

end RepetitionStack

/-- A turn of the search. -/
inductive Turn where
  /-- The chain has just been completed. -/
  | arrive (stack : RepetitionStack State)
  /-- The chains that are longer by one are to be tried. -/
  | extend (stack : RepetitionStack State)
  /-- The next way of a repetition above the chain is wanted; the term is in the given state. -/
  | ask (term : State) (below : RepetitionStack State)
  /-- All longer chains have been tried. -/
  | leave (stack : RepetitionStack State)
  /-- The chain is given up for the next way of its last repetition. -/
  | back (stack : RepetitionStack State)

/-- What a turn leads to. -/
inductive TurnResult where
  | turn (next : Turn)
  /-- The chain is a way of matching. -/
  | offer (stack : RepetitionStack State)
  /-- There is no chain left. -/
  | done
  /-- The term was given the state of another kind of part. -/
  | fault (stack : RepetitionStack State)

namespace Quantifier

/-- The turn with which the search goes on after a chain has been offered. -/
def resume (q : Quantifier) (stack : RepetitionStack State) : Turn :=
  if q.lazy then .extend stack else .back stack

/-- What a turn of the search leads to, where `request` gives the ways of the term and the chains
    begin at `pos`. -/
def turn (q : Quantifier) (request : Request) (pos : Int) : Turn → TurnResult
  | .arrive stack =>
    if q.lazy && q.min ≤ stack.count then .offer stack else .turn (.extend stack)
  | .extend stack =>
    if q.allows (stack.count + 1) then .turn (.ask .fresh stack) else .turn (.leave stack)
  | .ask s below =>
    match request (below.endFrom pos) s with
    | .found o s' =>
      if o.index = below.endFrom pos ∧ q.min ≤ below.count then
        .turn (.ask s' below)
      else
        let captures := (below.captures).merge o.captures
        .turn (.arrive (below.push ⟨s', some ⟨o.index, captures⟩⟩))
    | .none _ => .turn (.leave below)
    | .fault s' => .fault (below.push ⟨s', none⟩)
  | .leave stack =>
    if !q.lazy && q.min ≤ stack.count then .offer stack else .turn (.back stack)
  | .back ⟨_, []⟩ => .done
  | .back ⟨count, slot :: below⟩ => .turn (.ask slot.state ⟨count - 1, below⟩)

/-- The turn `t'` comes after `t`, at once or when the next way is asked for. -/
def Follows (q : Quantifier) (request : Request) (pos : Int) (t' t : Turn) : Prop :=
  q.turn request pos t = .turn t' ∨
    ∃ stack, q.turn request pos t = .offer stack ∧ t' = q.resume stack

end Quantifier

namespace Machine

variable {dir : Direction} {length : Nat} (q : Quantifier) (m : Machine dir length)

/-! ## The walk comes to an end -/

/-- Beyond a chain, the walk is bounded by the repetitions still owed and the room that is left. -/
def owed (dir : Direction) (length : Nat) (pos : Int) (stack : RepetitionStack State) : Nat :=
  (q.min - stack.count) + dir.room length (stack.endFrom pos)

variable {q m}

theorem acc_leave {pos : Int} {stack : RepetitionStack State}
    (hback : Acc (q.Follows m.request pos) (.back stack)) :
    Acc (q.Follows m.request pos) (.leave stack) := by
  refine .intro _ ?_
  rintro t' (h | ⟨stack', h, rfl⟩)
  · simp only [Quantifier.turn] at h
    split at h
    · cases h
    · cases h
      exact hback
  · simp only [Quantifier.turn] at h
    split at h
    case isTrue hq =>
      cases h
      have : q.lazy = false := by simp at hq; exact hq.1
      simpa [Quantifier.resume, this] using hback
    case isFalse => cases h

theorem acc_arrive {pos : Int} {stack : RepetitionStack State}
    (hextend : Acc (q.Follows m.request pos) (.extend stack)) :
    Acc (q.Follows m.request pos) (.arrive stack) := by
  refine .intro _ ?_
  rintro t' (h | ⟨stack', h, rfl⟩)
  · simp only [Quantifier.turn] at h
    split at h
    · cases h
    · cases h
      exact hextend
  · simp only [Quantifier.turn] at h
    split at h
    case isTrue hq =>
      cases h
      have : q.lazy = true := by simp at hq; exact hq.1
      simpa [Quantifier.resume, this] using hextend
    case isFalse => cases h

theorem acc_extend {pos : Int} {stack : RepetitionStack State}
    (hask : Acc (q.Follows m.request pos) (.ask .fresh stack))
    (hleave : Acc (q.Follows m.request pos) (.leave stack)) :
    Acc (q.Follows m.request pos) (.extend stack) := by
  refine .intro _ ?_
  rintro t' (h | ⟨stack', h, rfl⟩)
  · simp only [Quantifier.turn] at h
    split at h
    · cases h
      exact hask
    · cases h
      exact hleave
  · simp only [Quantifier.turn] at h
    split at h <;> cases h

theorem acc_back {pos : Int} {slot : Slot State} {count : Nat} {below : List (Slot State)}
    (hask : Acc (q.Follows m.request pos) (.ask slot.state ⟨count - 1, below⟩)) :
    Acc (q.Follows m.request pos) (.back ⟨count, slot :: below⟩) := by
  refine .intro _ ?_
  rintro t' (h | ⟨stack', h, rfl⟩)
  · cases h
    exact hask
  · cases h

/-- Asking for ways above a chain comes to an end if giving the chain up does, and so does the walk
    from every way that lengthens the chain. -/
theorem acc_ask {pos : Int} {below : RepetitionStack State} (P : State → Prop)
    (hback : Acc (q.Follows m.request pos) (.back below))
    (hP : ∀ s o s', P s → m.request (below.endFrom pos) s = .found o s' → P s')
    (harrive : ∀ s o s' captures, P s →
      m.request (below.endFrom pos) s = .found o s' →
      ¬(o.index = below.endFrom pos ∧ q.min ≤ below.count) →
      Acc (q.Follows m.request pos) (.ask s' below) →
      Acc (q.Follows m.request pos) (.arrive (below.push ⟨s', some ⟨o.index, captures⟩⟩)))
    (s : State) (hs : P s) : Acc (q.Follows m.request pos) (.ask s below) := by
  induction s using (m.ends (below.endFrom pos)).induction with
  | _ s ih =>
    refine .intro _ ?_
    rintro t' (h | ⟨stack', h, rfl⟩)
    · simp only [Quantifier.turn] at h
      split at h
      case h_1 o s' hm =>
        have hask := ih s' ⟨o, hm⟩ (hP s o s' hs hm)
        split at h
        · cases h
          exact hask
        case isFalse hne =>
          cases h
          exact harrive s o s' _ hs hm hne hask
      case h_2 =>
        cases h
        exact acc_leave hback
      case h_3 => cases h
    · simp only [Quantifier.turn] at h
      split at h
      · split at h <;> cases h
      · cases h
      · cases h

/-- The walk from a chain comes to an end if giving the chain up does: what it adds to the chain
    begins afresh, so it leads ahead and takes less and less of what is owed. -/
theorem acc_arrive_of_back {pos : Int} (n : Nat) (stack : RepetitionStack State)
    (hn : owed q dir length pos stack < n)
    (hback : Acc (q.Follows m.request pos) (.back stack)) :
    Acc (q.Follows m.request pos) (.arrive stack) := by
  induction n generalizing stack with
  | zero => omega
  | succ n ih =>
    refine acc_arrive (acc_extend ?_ (acc_leave hback))
    refine acc_ask (Reached m.request (stack.endFrom pos)) hback
      (fun s o s' hs hm => .next hs hm) ?_ .fresh .fresh
    intro s o s' captures hs hm hne hask
    refine ih _ ?_ (acc_back hask)
    have hahead := m.ahead hs hm
    have hle := hahead.room_le
    have hend : (stack.push ⟨s', some ⟨o.index, captures⟩⟩).endFrom pos = o.index := rfl
    have hcount : (stack.push ⟨s', some ⟨o.index, captures⟩⟩).count = stack.count + 1 := rfl
    simp only [owed, hend, hcount] at hn ⊢
    rcases hahead with heq | hlt
    · have : ¬q.min ≤ stack.count := fun h => hne ⟨heq, h⟩
      omega
    · omega

/-- Giving a chain up comes to an end, whatever its slots hold. -/
theorem acc_back_stack {pos : Int} (stack : RepetitionStack State) :
    Acc (q.Follows m.request pos) (.back stack) := by
  obtain ⟨count, slots⟩ := stack
  induction slots generalizing count with
  | nil =>
    refine .intro _ ?_
    rintro t' (h | ⟨stack', h, rfl⟩) <;> cases h
  | cons slot below ih =>
    refine acc_back
      (acc_ask (fun _ => True) (ih (count - 1)) (fun _ _ _ _ _ => trivial) ?_ _ trivial)
    intro s o s' captures _ _ _ hask
    exact acc_arrive_of_back _ _ (Nat.lt_succ_self _) (acc_back hask)

variable (q m)

/-- From any turn the walk comes to an end. -/
theorem turn_acc (pos : Int) : WellFounded (q.Follows m.request pos) := by
  have hask (s : State) (below : RepetitionStack State) :
      Acc (q.Follows m.request pos) (.ask s below) :=
    (acc_back_stack (below.push ⟨s, none⟩)).inv (.inl rfl)
  have hleave (stack : RepetitionStack State) : Acc (q.Follows m.request pos) (.leave stack) :=
    acc_leave (acc_back_stack stack)
  have hextend (stack : RepetitionStack State) : Acc (q.Follows m.request pos) (.extend stack) :=
    acc_extend (hask .fresh stack) (hleave stack)
  exact ⟨fun
    | .arrive stack => acc_arrive (hextend stack)
    | .extend stack => hextend stack
    | .ask s below => hask s below
    | .leave stack => hleave stack
    | .back stack => acc_back_stack stack⟩

/-! ## The machine -/

/-- The walk from a turn to the next way. -/
def walk (pos : Int) (t : Turn) : Reply State :=
  match _h : q.turn m.request pos t with
  | .turn t' => walk pos t'
  | .offer stack => .found (stack.outcome pos) (.repetition stack)
  | .done => .none .repetitionDone
  | .fault stack => .fault (.repetition stack)
termination_by (turn_acc q m pos).wrap t
decreasing_by exact .inl _h

/-- The request of a repetition. -/
def repetitionRequest : Request := fun pos s =>
  match s with
  | .fresh => walk q m pos (.arrive .bottom)
  | .repetition stack => walk q m pos (q.resume stack)
  | .repetitionDone => .none .repetitionDone
  | s => .fault s

variable {q m}

/-- A way that the walk finds is a chain, and the walk goes on from it later. -/
theorem walk_eq_found {pos : Int} {t : Turn} {o : Outcome} {s' : State}
    (h : walk q m pos t = .found o s') :
    ∃ stack, s' = .repetition stack ∧ o = stack.outcome pos ∧
      Relation.TransGen (q.Follows m.request pos) (q.resume stack) t := by
  induction t using (turn_acc q m pos).induction with
  | _ t ih =>
    unfold walk at h
    split at h
    case h_1 t' ht =>
      obtain ⟨stack, hs, ho, htrans⟩ := ih t' (.inl ht) h
      exact ⟨stack, hs, ho, .tail htrans (.inl ht)⟩
    case h_2 stack ht =>
      cases h
      exact ⟨stack, rfl, rfl, .single (.inr ⟨stack, ht, rfl⟩)⟩
    case h_3 => cases h
    case h_4 => cases h

variable (q m)

theorem repetition_ends (pos : Int) : WellFounded (Next (repetitionRequest q m) pos) := by
  have acc (t : Turn) : ∀ stack, t = q.resume stack →
      Acc (Next (repetitionRequest q m) pos) (.repetition stack) := by
    induction t using (turn_acc q m pos).transGen.induction with
    | _ t ih =>
      rintro stack rfl
      refine .intro _ ?_
      rintro s' ⟨o, h⟩
      obtain ⟨stack', rfl, _, htrans⟩ := walk_eq_found h
      exact ih _ htrans stack' rfl
  refine ⟨fun s => .intro _ ?_⟩
  rintro s' ⟨o, h⟩
  cases s with
  | fresh =>
    obtain ⟨stack, rfl, _, _⟩ := walk_eq_found h
    exact acc _ stack rfl
  | repetition stack =>
    obtain ⟨stack', rfl, _, _⟩ := walk_eq_found h
    exact acc _ stack' rfl
  | _ => cases h

/-! ## Ways lead ahead -/

/-- A chain from `pos` whose slots are in states that requests have led to, and whose repetitions
    end at or ahead of their beginnings. -/
inductive Chain (pos : Int) : RepetitionStack State → Prop where
  | bottom : Chain pos .bottom
  | push {below : RepetitionStack State} {s : State} {o : Outcome} (h : Chain pos below)
      (hs : Reached m.request (below.endFrom pos) s)
      (ho : Ahead dir length (below.endFrom pos) o.index) :
      Chain pos (below.push ⟨s, some o⟩)

variable {m}

/-- The count of a chain is the number of its slots. -/
theorem Chain.count_eq {pos : Int} {stack : RepetitionStack State} (h : Chain m pos stack) :
    stack.count = stack.slots.length := by
  induction h with
  | bottom => rfl
  | push _ _ _ ih => simp [RepetitionStack.push, ih]

theorem Chain.ahead {pos : Int} {stack : RepetitionStack State} (h : Chain m pos stack) :
    Ahead dir length pos (stack.endFrom pos) := by
  induction h with
  | bottom => exact .refl pos
  | push _ _ ho ih => exact ih.trans ho

variable (m) in
/-- The turns that the walk from the fresh state takes. -/
def Turn.Sound (pos : Int) : Turn → Prop
  | .arrive stack | .extend stack | .leave stack | .back stack => Chain m pos stack
  | .ask s below => Chain m pos below ∧ Reached m.request (below.endFrom pos) s

variable {q}

theorem sound_of_turn {pos : Int} {t t' : Turn} (ht : Turn.Sound m pos t)
    (h : q.turn m.request pos t = .turn t') : Turn.Sound m pos t' := by
  cases t with
  | arrive stack =>
    simp only [Quantifier.turn] at h
    split at h
    · cases h
    · cases h
      exact ht
  | extend stack =>
    simp only [Quantifier.turn] at h
    split at h
    · cases h
      exact ⟨ht, .fresh⟩
    · cases h
      exact ht
  | ask s below =>
    obtain ⟨hbelow, hs⟩ := ht
    simp only [Quantifier.turn] at h
    split at h
    case h_1 o s' hm =>
      split at h
      · cases h
        exact ⟨hbelow, .next hs hm⟩
      · cases h
        have := m.ahead hs hm
        exact .push hbelow (.next hs hm) this
    case h_2 =>
      cases h
      exact hbelow
    case h_3 => cases h
  | leave stack =>
    simp only [Quantifier.turn] at h
    split at h
    · cases h
    · cases h
      exact ht
  | back stack =>
    obtain ⟨count, slots⟩ := stack
    cases slots with
    | nil => cases h
    | cons slot below =>
      cases h
      cases ht with
      | push hbelow hs _ => exact ⟨hbelow, hs⟩

theorem chain_of_offer {pos : Int} {t : Turn} {stack : RepetitionStack State}
    (ht : Turn.Sound m pos t) (h : q.turn m.request pos t = .offer stack) : Chain m pos stack := by
  cases t with
  | arrive stack | leave stack =>
    simp only [Quantifier.turn] at h
    split at h
    · cases h
      exact ht
    · cases h
  | extend stack =>
    simp only [Quantifier.turn] at h
    split at h <;> cases h
  | ask s below =>
    simp only [Quantifier.turn] at h
    split at h
    · split at h <;> cases h
    · cases h
    · cases h
  | back stack =>
    obtain ⟨count, slots⟩ := stack
    cases slots <;> cases h

theorem chain_of_walk {pos : Int} {t : Turn} {o : Outcome} {stack : RepetitionStack State}
    (ht : Turn.Sound m pos t) (h : walk q m pos t = .found o (.repetition stack)) :
    Chain m pos stack := by
  induction t using (turn_acc q m pos).induction with
  | _ t ih =>
    unfold walk at h
    split at h
    case h_1 t' hturn => exact ih t' (.inl hturn) (sound_of_turn ht hturn) h
    case h_2 stack' hturn =>
      cases h
      exact chain_of_offer ht hturn
    case h_3 => cases h
    case h_4 => cases h

theorem sound_resume {pos : Int} {stack : RepetitionStack State} (h : Chain m pos stack) :
    Turn.Sound m pos (q.resume stack) := by
  unfold Quantifier.resume
  split <;> exact h

/-- In a state of a repetition that requests have led to, the stack is a chain. -/
theorem chain_of_reached {pos : Int} {s : State} (h : Reached (repetitionRequest q m) pos s) :
    s = .fresh ∨ ∃ stack, s = .repetition stack ∧ Chain m pos stack := by
  induction h with
  | fresh => exact .inl rfl
  | next _ hs ih =>
    right
    rcases ih with rfl | ⟨stack, rfl, hstack⟩
    · obtain ⟨stack, rfl, _, _⟩ := walk_eq_found hs
      exact ⟨stack, rfl, chain_of_walk (t := .arrive .bottom) .bottom hs⟩
    · obtain ⟨stack', rfl, _, _⟩ := walk_eq_found hs
      exact ⟨stack', rfl, chain_of_walk (sound_resume hstack) hs⟩

theorem repetition_ahead {pos : Int} {s s' : State} {o : Outcome}
    (hs : Reached (repetitionRequest q m) pos s)
    (h : repetitionRequest q m pos s = .found o s') : Ahead dir length pos o.index := by
  have hnext := chain_of_reached (.next hs h)
  rcases chain_of_reached hs with rfl | ⟨stack, rfl, _⟩ <;>
  · obtain ⟨stack', rfl, rfl, _⟩ := walk_eq_found h
    rcases hnext with h' | ⟨_, h', hchain⟩
    · cases h'
    · cases h'
      exact hchain.ahead

variable (q m)

/-- The repetition of a machine within the bounds of a quantifier. -/
def repetition : Machine dir length where
  request := repetitionRequest q m
  ends := repetition_ends q m
  ahead := repetition_ahead

end Machine

end Retrace
