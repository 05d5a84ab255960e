import Retrace.Proofs.Match.Enumeration

/-!
# What the stack of a repetition holds

When a repetition answers with a way, its stack records how it came there. The repetitions have each
taken a way of the atom, the first from where the whole began and every other from where the one
before it ended. A slot keeps the state in which its way has left the atom, the end of the way, and
what has been captured up to there: the captures of the ways below come first, and those of the
slot's own way replace them.

A slot beyond the least number of repetitions has moved the cursor. A cursor moves only over code
points of the subject, so that there are no more such slots than code points, wherever the scan
began.

Results:

* `Part.movesInside`: a way that moves the cursor begins where there is a code point to pass.
* `Machine.records_turn`: every turn of the search keeps the stack in accordance with the ways
  taken.
* `Term.stack_of_reply`: what the stack holds whenever a repetition answers with a way.
-/

namespace Retrace

/-- The cursor `b` comes after `a` in the scan. -/
def Direction.Passes (dir : Direction) (a b : Int) : Prop :=
  match dir with
  | forward => a < b
  | backward => b < a

theorem Ahead.passes {dir : Direction} {length : Nat} {a b : Int} (h : Ahead dir length a b)
    (hne : b ≠ a) : dir.Passes a b := by
  cases dir <;> simp only [Ahead, Direction.room, Direction.Passes] at h ⊢ <;> omega

/-- Ways that follow one another from `pos` as one way: it ends where the last one does, and has
    captured what they have, the later ones winning. -/
def Outcome.joined (pos : Int) (taken : List Outcome) : Outcome :=
  ⟨Ways.chainEnd pos taken, taken.foldl (fun captures o => captures.merge o.captures) .empty⟩

theorem Outcome.joined_append_singleton (pos : Int) (taken : List Outcome) (o : Outcome) :
    joined pos (taken ++ [o]) = ⟨o.index, (joined pos taken).captures.merge o.captures⟩ := by
  simp [joined, Ways.chainEnd]

/-! ## Moving the cursor -/

namespace Ways

variable {dir : Direction} {length : Nat}

/-- A way that moves the cursor begins where there is a code point to pass: a cursor before the
    subject, in the order of the scan, does not move. -/
def MovesInside (w : Ways dir length) : Prop :=
  ∀ ⦃pos o⦄, o ∈ w.list pos → o.index ≠ pos → dir.room length pos ≤ length

theorem single_movesInside {goal : Int → Option Int}
    (hgoal : ∀ {pos next}, goal pos = some next → Ahead dir length pos next)
    (h : ∀ pos next, goal pos = some next → next ≠ pos → dir.room length pos ≤ length) :
    (single goal hgoal).MovesInside := by
  intro pos o ho hne
  obtain ⟨next, hnext, rfl⟩ := List.mem_map.mp ho
  exact h pos next (Option.mem_toList.mp hnext) hne

theorem char_movesInside {flags : Flags} {subject : Text} (e : CharExpr) :
    (single (charGoal flags subject dir e) charGoal_ahead).MovesInside := by
  refine single_movesInside charGoal_ahead fun pos next h _ => ?_
  obtain ⟨hany, -⟩ := Option.ite_none_right_eq_some.mp h
  obtain ⟨cp, hcp, -⟩ := (Option.any_eq_true _ _).mp hany
  have := Text.lt_size_of_at? hcp
  cases dir <;> simp only [Direction.room] <;> omega

theorem gap_movesInside {holds : Int → Bool} :
    (single (gapGoal holds) gapGoal_ahead : Ways dir length).MovesInside := by
  refine single_movesInside gapGoal_ahead fun pos next h hne => ?_
  obtain ⟨-, hnext⟩ := Option.ite_none_right_eq_some.mp h
  exact absurd (Option.some.inj hnext).symm hne

theorem MovesInside.mapCaptures {w : Ways dir length} (h : w.MovesInside)
    (f : Int → Outcome → CaptureMap) : (w.mapCaptures f).MovesInside := by
  intro pos o ho hne
  obtain ⟨o', ho', rfl⟩ := List.mem_map.mp ho
  exact h ho' hne

theorem choice_movesInside {ws : List (Ways dir length)} (h : ∀ w ∈ ws, w.MovesInside) :
    (choice ws).MovesInside := by
  intro pos o ho hne
  have ho : o ∈ choiceList ws pos := ho
  unfold choiceList at ho
  split at ho
  · rw [List.mem_singleton.mp ho] at hne
    exact absurd rfl hne
  · obtain ⟨w, hw, ho⟩ := List.mem_flatMap.mp ho
    exact h w hw ho hne

/-- The first way of a chain that moves the cursor begins where the chain does. -/
theorem room_le_of_mem_chains {ws : List (Ways dir length)} (h : ∀ w ∈ ws, w.MovesInside)
    {pos : Int} {chain : List Outcome} (hc : chain ∈ chains ws pos)
    (hne : chainEnd pos chain ≠ pos) : dir.room length pos ≤ length := by
  induction ws generalizing pos chain with
  | nil =>
    rw [List.mem_singleton.mp hc] at hne
    exact absurd rfl hne
  | cons w ws ih =>
    obtain ⟨o, ho, rest, hrest, rfl⟩ := mem_chains.mp hc
    rw [chainEnd_cons] at hne
    by_cases hmoved : o.index = pos
    · rw [hmoved] at hrest hne
      exact ih (fun w' hw' => h w' (List.mem_cons_of_mem w hw')) hrest hne
    · exact h w List.mem_cons_self ho hmoved

theorem sequence_movesInside {ws : List (Ways dir length)} (h : ∀ w ∈ ws, w.MovesInside) :
    (sequence ws).MovesInside := by
  intro pos o ho hne
  obtain ⟨chain, hc, rfl⟩ := List.mem_map.mp ho
  have hws : ∀ w ∈ dir.arrange ws, w.MovesInside := by
    cases dir
    · exact h
    · exact fun w hw => h w (List.mem_reverse.mp hw)
  exact room_le_of_mem_chains hws hc hne

theorem MovesInside.repetition {w : Ways dir length} (h : w.MovesInside) (q : Quantifier) :
    (repetition q w).MovesInside := by
  have longer (count : Nat) (pos : Int) (captures : CaptureMap) {o : Outcome}
      (ho : o ∈ repeatFrom q w count pos captures) (hne : o.index ≠ pos) :
      dir.room length pos ≤ length := by
    induction count, pos, captures using repeatFrom.induct q w with
    | _ count pos captures ih =>
      rcases mem_repeatFrom.mp ho with ⟨-, rfl⟩ | ⟨-, next, hnext, hlonger, ho⟩
      · exact absurd rfl hne
      · by_cases hmoved : next.index = pos
        · rw [← hmoved] at hne ⊢
          exact ih next hnext hlonger ho hne
        · exact h hnext hmoved
  intro pos o ho hne
  exact longer 0 pos .empty ho hne

theorem pattern_movesInside {flags : Flags} {subject : Text} {p : Pattern}
    (h : ∀ w ∈ p.branchWays flags subject dir, w.MovesInside) :
    (p.ways flags subject dir).MovesInside := by
  rw [Pattern.ways_eq_choice]
  exact choice_movesInside h

end Ways

section Patterns

variable (flags : Flags) (subject : Text)

mutual

theorem Term.movesInside : (t : Term) → (dir : Direction) →
    (t.ways flags subject dir).MovesInside
  | .char e, _ => Ways.char_movesInside e
  | .anchor _, _ | .look _ _ _, _ => Ways.gap_movesInside
  | .group _ body, dir => (Ways.pattern_movesInside (Pattern.movesInside body dir)).mapCaptures _
  | .repeated atom q, dir => (Term.movesInside atom dir).repetition q
  | .backreference _, _ => fun _ _ ho => absurd ho List.not_mem_nil
termination_by structural t => t

theorem Branch.movesInside : (b : Branch) → (dir : Direction) →
    ∀ w ∈ b.termWays flags subject dir, w.MovesInside
  | [], _ => fun _ hw => absurd hw List.not_mem_nil
  | t :: b, dir => List.forall_mem_cons.mpr ⟨Term.movesInside t dir, Branch.movesInside b dir⟩
termination_by structural b => b

theorem Pattern.movesInside : (p : Pattern) → (dir : Direction) →
    ∀ w ∈ p.branchWays flags subject dir, w.MovesInside
  | [], _ => fun _ hw => absurd hw List.not_mem_nil
  | b :: p, dir => List.forall_mem_cons.mpr
    ⟨Ways.sequence_movesInside (Branch.movesInside b dir), Pattern.movesInside p dir⟩
termination_by structural p => p

end

end Patterns

/-! ## Requests one after another -/

section Requests

variable {request : Request} {pos : Int} {s s' : State} {o : Outcome} {os : List Outcome}

/-- A state that requests have led to yields what is left of the ways. -/
theorem Yields.of_reached (h : Yields request pos .fresh os) (hs : Reached request pos s) :
    ∃ left, Yields request pos s left ∧ left <:+ os := by
  induction hs with
  | fresh => exact ⟨os, h, List.suffix_refl os⟩
  | @next s s' o _ hfound ih =>
    obtain ⟨left, hleft, hsuffix⟩ := ih
    have htail := hleft.tail
    rw [hfound] at htail
    exact ⟨left.tail, htail, (List.tail_suffix left).trans hsuffix⟩

/-- A way that is found in a state that requests have led to is one of the ways. -/
theorem Yields.mem_of_reached (h : Yields request pos .fresh os) (hs : Reached request pos s)
    (hfound : request pos s = .found o s') : o ∈ os := by
  obtain ⟨left, hleft, hsuffix⟩ := h.of_reached hs
  have hanswer := hleft.answer?_request
  rw [hfound] at hanswer
  exact hsuffix.subset (List.mem_of_head? (Option.some.inj hanswer).symm)

/-- Where a request finds a way, all requests before it have found one. -/
theorem Yields.reached_of_reply (h : Yields request pos s os) (hs : Reached request pos s) {n : Nat}
    (hfound : request.reply pos n s = .found o s') :
    ∃ s₀, Reached request pos s₀ ∧ request pos s₀ = .found o s' := by
  induction n generalizing s os with
  | zero => exact ⟨s, hs, hfound⟩
  | succ n ih =>
    rw [Request.reply] at hfound
    cases h with
    | @done _ s₁ hnone hdone =>
      rw [hnone] at hfound
      have hend : Yields request pos s₁ [] := .done hdone hdone
      have hanswer := hend.reply n
      rw [show request.reply pos n s₁ = .found o s' from hfound] at hanswer
      cases hanswer
    | found hfirst hnext =>
      rw [hfirst] at hfound
      exact ih hnext (.next hs hfirst) hfound

/-- An answer with a way is one of a state that is left. -/
theorem Reply.exists_found {σ : Type} {r : Reply σ} (h : r.answer? = some (some o)) :
    ∃ s, r = .found o s := by
  cases r with
  | found o' s =>
    cases h
    exact ⟨s, rfl⟩
  | none | fault => cases h

end Requests

namespace Machine

variable {dir : Direction} {length : Nat}

section Search

variable (q : Quantifier) (m : Machine dir length) (pos : Int)

/-! ## The ways taken -/

/-- The stacks that the search of a repetition builds up from `pos`, each with the ways of the atom
    that its repetitions have taken, the first one first. -/
inductive Built : RepetitionStack State → List Outcome → Prop where
  | bottom : Built .bottom []
  | push {below : RepetitionStack State} {taken : List Outcome} {s s' : State} {o : Outcome}
      (h : Built below taken) (hallowed : q.allows (below.count + 1))
      (hs : Reached m.request (below.endFrom pos) s)
      (hfound : m.request (below.endFrom pos) s = .found o s')
      (hmoved : q.min ≤ below.count → o.index ≠ below.endFrom pos) :
      Built (below.push ⟨s', some ⟨o.index, below.captures.merge o.captures⟩⟩) (taken ++ [o])

/-- A turn at which the stack is one that the search has built up, and the atom, if it is to be
    asked, is in a state that requests have led to. -/
def Turn.Records : Turn → Prop
  | .arrive stack | .extend stack | .leave stack | .back stack =>
    ∃ taken, Built q m pos stack taken
  | .ask s below => (∃ taken, Built q m pos below taken) ∧ q.allows (below.count + 1) ∧
    Reached m.request (below.endFrom pos) s

/-- A turn that records the ways taken, or an offer of a stack that is high enough. -/
def TurnResult.Records : TurnResult → Prop
  | .turn next => Turn.Records q m pos next
  | .offer stack => q.min ≤ stack.count ∧ ∃ taken, Built q m pos stack taken
  | .done | .fault _ => True

variable {q m pos}

/-- Every turn keeps a record of the ways taken. A slot is pushed with a way just found, and a slot
    that is asked again is taken off first: what it holds next is made of the slot below and the
    next way, and of nothing that it held before. -/
theorem records_turn {t : Turn} (ht : Turn.Records q m pos t) :
    TurnResult.Records q m pos (q.turn m.request pos t) := by
  cases t with
  | arrive stack | leave stack =>
    simp only [Quantifier.turn]
    split
    case isTrue hq =>
      rw [Bool.and_eq_true, decide_eq_true_eq] at hq
      exact ⟨hq.2, ht⟩
    case isFalse => exact ht
  | extend stack =>
    simp only [Quantifier.turn]
    split
    case isTrue hallowed => exact ⟨ht, hallowed, .fresh⟩
    case isFalse => exact ht
  | ask s below =>
    obtain ⟨⟨taken, hbelow⟩, hallowed, hs⟩ := ht
    simp only [Quantifier.turn]
    split
    case h_1 o s' hfound =>
      split
      case isTrue => exact ⟨⟨taken, hbelow⟩, hallowed, .next hs hfound⟩
      case isFalse hlonger =>
        have hmoved : q.min ≤ below.count → o.index ≠ below.endFrom pos :=
          fun hmin heq => hlonger ⟨heq, hmin⟩
        exact ⟨taken ++ [o], .push hbelow hallowed hs hfound hmoved⟩
    case h_2 => exact ⟨taken, hbelow⟩
    case h_3 => trivial
  | back stack =>
    obtain ⟨taken, hstack⟩ := ht
    cases hstack with
    | bottom => trivial
    | push hbelow hallowed hs hfound => exact ⟨⟨_, hbelow⟩, hallowed, .next hs hfound⟩

/-- The walk from a turn keeps the record up to the offer with which it ends. -/
theorem records_walk {t : Turn} (ht : Turn.Records q m pos t) {o : Outcome} {s' : State}
    (h : walk q m pos t = .found o s') :
    ∃ stack taken, s' = .repetition stack ∧ o = stack.outcome pos ∧ q.min ≤ stack.count ∧
      Built q m pos stack taken := by
  induction t using (turn_acc q m pos).induction with
  | _ t ih =>
    have hturn := records_turn ht
    unfold walk at h
    split at h
    case h_1 t' hr =>
      rw [hr] at hturn
      exact ih t' (.inl hr) hturn h
    case h_2 stack hr =>
      cases h
      rw [hr] at hturn
      obtain ⟨hmin, taken, hstack⟩ := hturn
      exact ⟨stack, taken, rfl, rfl, hmin, hstack⟩
    case h_3 => cases h
    case h_4 => cases h

/-- In whatever state requests have led to, the next way found comes with a stack that the search
    has built up. -/
theorem built_of_reached {s : State} (hs : Reached (repetitionRequest q m) pos s) {o : Outcome}
    {s' : State} (h : repetitionRequest q m pos s = .found o s') :
    ∃ stack taken, s' = .repetition stack ∧ o = stack.outcome pos ∧ q.min ≤ stack.count ∧
      Built q m pos stack taken := by
  induction hs generalizing o s' with
  | fresh => exact records_walk (t := .arrive .bottom) ⟨[], .bottom⟩ h
  | next _ hs ih =>
    obtain ⟨stack, taken, rfl, -, -, hstack⟩ := ih hs
    have hresume : Turn.Records q m pos (q.resume stack) := by
      unfold Quantifier.resume
      split <;> exact ⟨taken, hstack⟩
    exact records_walk hresume h

/-! ## What the slots hold -/

variable {stack : RepetitionStack State} {taken : List Outcome}

theorem Built.count_eq (h : Built q m pos stack taken) : stack.count = taken.length := by
  induction h with
  | bottom => rfl
  | push _ _ _ _ _ ih => simp [RepetitionStack.push, ih]

theorem Built.length_slots (h : Built q m pos stack taken) :
    stack.slots.length = taken.length := by
  induction h with
  | bottom => rfl
  | push _ _ _ _ _ ih => simp [RepetitionStack.push, ih]

/-- The stack is offered as what the ways taken make together. -/
theorem Built.outcome_eq (h : Built q m pos stack taken) :
    stack.outcome pos = .joined pos taken := by
  induction h with
  | bottom => rfl
  | push _ _ _ _ _ ih =>
    rw [Outcome.joined_append_singleton, ← ih]
    rfl

theorem Built.outcome_eq_top (h : Built q m pos stack taken) :
    stack.outcome pos = (stack.slots.head?.bind Slot.outcome).getD (.bare pos) := by
  cases h <;> rfl

theorem Built.length_le (h : Built q m pos stack taken) : ∀ max ∈ q.max, taken.length ≤ max := by
  intro max hmax
  cases h with
  | bottom => exact Nat.zero_le max
  | push hbelow hallowed =>
    rw [List.length_append, ← hbelow.count_eq]
    exact Quantifier.allows_iff.mp hallowed max hmax

/-- A slot beyond the least number of repetitions takes away room that the subject has. Before the
    subject, in the order of the scan, there may be more room, but there the cursor does not
    move. -/
theorem Built.count_add_room_le {w : Ways dir length} (hm : m.Enumerates w) (hw : w.MovesInside)
    (h : Built q m pos stack taken) :
    stack.count + min length (dir.room length (stack.endFrom pos)) ≤ q.min + length := by
  induction h with
  | bottom =>
    show 0 + min length (dir.room length pos) ≤ q.min + length
    omega
  | @push below taken s s' o h hallowed hs hfound hmoved ih =>
    show below.count + 1 + min length (dir.room length o.index) ≤ q.min + length
    by_cases hmin : q.min ≤ below.count
    · have hne := hmoved hmin
      have hinside : dir.room length (below.endFrom pos) ≤ length :=
        hw ((hm _).mem_of_reached hs hfound) hne
      have hless : dir.room length o.index < dir.room length (below.endFrom pos) :=
        (m.ahead hs hfound).resolve_left hne
      omega
    · omega

variable (q m pos) in
/-- What the slot with the number `i` holds, in a repetition from `pos` whose repetitions have taken
    the given ways of the atom, of which `own` is the slot's. -/
structure SlotHolds (taken : List Outcome) (i : Nat) (own : Outcome) (slot : Slot State) :
    Prop where
  /-- The slot's own way begins where the one before it ended, and the atom is in the state in which
      this way has left it. -/
  way : ∃ s, Reached m.request (Outcome.joined pos (taken.take i)).index s ∧
    m.request (Outcome.joined pos (taken.take i)).index s = .found own slot.state
  /-- The slot holds the end of its own way, and the captures of all ways up to there. -/
  outcome : slot.outcome = some (.joined pos (taken.take (i + 1)))
  /-- Beyond the least number of repetitions, the way has moved the cursor. -/
  passes : q.min ≤ i → dir.Passes (Outcome.joined pos (taken.take i)).index own.index

theorem SlotHolds.append {more : List Outcome} {i : Nat} {own : Outcome} {slot : Slot State}
    (h : SlotHolds q m pos taken i own slot) (hi : i < taken.length) :
    SlotHolds q m pos (taken ++ more) i own slot := by
  obtain ⟨hway, houtcome, hpasses⟩ := h
  have htake {n : Nat} (hn : n ≤ taken.length) : taken.take n = (taken ++ more).take n :=
    (List.take_append_of_le_length hn).symm
  rw [htake (Nat.le_of_lt hi)] at hway hpasses
  rw [htake hi] at houtcome
  exact ⟨hway, houtcome, hpasses⟩

/-- The slot that is pushed with a way holds what the way makes of the stack below. -/
theorem Built.top_holds (h : Built q m pos stack taken) {s s' : State} {o : Outcome}
    (hs : Reached m.request (stack.endFrom pos) s)
    (hfound : m.request (stack.endFrom pos) s = .found o s')
    (hmoved : q.min ≤ stack.count → o.index ≠ stack.endFrom pos) :
    SlotHolds q m pos (taken ++ [o]) taken.length o
      ⟨s', some ⟨o.index, stack.captures.merge o.captures⟩⟩ := by
  have hend : (Outcome.joined pos taken).index = stack.endFrom pos := by
    rw [← h.outcome_eq]
    rfl
  constructor
  · rw [List.take_left, hend]
    exact ⟨s, hs, hfound⟩
  · rw [List.take_of_length_le (by simp), Outcome.joined_append_singleton, ← h.outcome_eq]
    rfl
  · rw [List.take_left, hend, ← h.count_eq]
    exact fun hmin => (m.ahead hs hfound).passes (hmoved hmin)

theorem Built.slot_holds (h : Built q m pos stack taken) {i : Nat} {own : Outcome}
    {slot : Slot State} (hown : taken[i]? = some own)
    (hslot : stack.slots.reverse[i]? = some slot) :
    SlotHolds q m pos taken i own slot := by
  induction h generalizing own slot with
  | bottom => cases hown
  | @push below taken s s' o h hallowed hs hfound hmoved ih =>
    have hlength : below.slots.reverse.length = taken.length := by
      rw [List.length_reverse, h.length_slots]
    simp only [RepetitionStack.push, List.reverse_cons] at hslot
    by_cases hi : i < taken.length
    · rw [List.getElem?_append_left hi] at hown
      rw [List.getElem?_append_left (by omega)] at hslot
      exact (ih hown hslot).append hi
    · have hlt := (List.getElem?_eq_some_iff.mp hown).1
      rw [List.length_append, List.length_singleton] at hlt
      obtain rfl : i = taken.length := by omega
      rw [List.getElem?_concat_length] at hown
      rw [← hlength, List.getElem?_concat_length] at hslot
      obtain rfl := Option.some.inj hown
      obtain rfl := Option.some.inj hslot
      exact h.top_holds hs hfound hmoved

variable (q m pos) in
/-- What a stack holds that is offered as a way, in a repetition from `pos` whose repetitions have
    taken the given ways of the atom, the first one first. -/
structure StackHolds (taken : List Outcome) (stack : RepetitionStack State) : Prop where
  count_eq : stack.count = taken.length
  length_eq : stack.slots.length = taken.length
  min_le : q.min ≤ taken.length
  le_max : ∀ max ∈ q.max, taken.length ≤ max
  slots : ∀ i own slot, taken[i]? = some own → stack.slots.reverse[i]? = some slot →
    SlotHolds q m pos taken i own slot

theorem Built.holds (h : Built q m pos stack taken) (hmin : q.min ≤ stack.count) :
    StackHolds q m pos taken stack where
  count_eq := h.count_eq
  length_eq := h.length_slots
  min_le := h.count_eq ▸ hmin
  le_max := h.length_le
  slots _ _ _ hown hslot := h.slot_holds hown hslot

end Search

end Machine

/-- Whenever a repetition answers a request, of repeated ones from the fresh state on, with a way,
    its stack holds the repetitions that make up this way. Each slot holds a way of the atom from
    where the slot below ended, the lowest one a way from the beginning, and the captures of all
    ways up to there, the later ones winning. There are as many slots as the bounds allow, and the
    slots beyond the least number have moved the cursor, so that there are at most as many of these
    as code points in the subject. The answer is what the uppermost slot holds, and the empty way if
    there is no slot. -/
theorem Term.stack_of_reply (atom : Term) (q : Quantifier) (flags : Flags) (subject : Text)
    (dir : Direction) (pos : Int) {n : Nat} {o : Outcome} {s : State}
    (h : (Term.machine flags subject (.repeated atom q) dir).request.reply pos n .fresh =
      .found o s) :
    ∃ stack taken, s = .repetition stack ∧
      Machine.StackHolds q (atom.machine flags subject dir) pos taken stack ∧
      stack.slots.length ≤ q.min + subject.size ∧
      o = (stack.slots.head?.bind Slot.outcome).getD (.bare pos) := by
  have hyields := Term.machine_enumerates flags subject (.repeated atom q) dir pos
  obtain ⟨s₀, hs₀, hfound⟩ := hyields.reached_of_reply .fresh h
  obtain ⟨stack, taken, rfl, rfl, hmin, hbuilt⟩ := Machine.built_of_reached hs₀ hfound
  have hatom := Term.machine_enumerates flags subject atom dir
  have hroom := hbuilt.count_add_room_le hatom (Term.movesInside flags subject atom dir)
  rw [hbuilt.count_eq, ← hbuilt.length_slots] at hroom
  exact ⟨stack, taken, rfl, hbuilt.holds hmin, by omega, hbuilt.outcome_eq_top⟩

/-- The repetition `(?:(a)|(b))*` on `abb` answers with a way through the whole subject, which has
    captured `a` and the last `b`. -/
theorem Term.stack_of_reply_of_branches : ∃ (atom : Term) (n : Nat) (o : Outcome) (s : State),
    atom = .group ⟨none, none⟩ [[.group ⟨some 1, none⟩ [[.char (.literal 0x61)]]],
      [.group ⟨some 2, none⟩ [[.char (.literal 0x62)]]]] ∧
    (Term.machine .none #[0x61, 0x62, 0x62] (.repeated atom ⟨0, none, false⟩)
      .forward).request.reply 0 n .fresh = .found o s ∧
    o.index = 3 ∧ o.captures.entries = [(.number 1, ⟨0, 1⟩), (.number 2, ⟨2, 3⟩)] ∧
    ∃ stack taken, s = .repetition stack ∧
      Machine.StackHolds ⟨0, none, false⟩ (atom.machine .none #[0x61, 0x62, 0x62] .forward) 0 taken
        stack ∧
      stack.slots.length ≤ 0 + 3 ∧
      o = (stack.slots.head?.bind Slot.outcome).getD (.bare 0) := by
  let atom : Term := .group ⟨none, none⟩ [[.group ⟨some 1, none⟩ [[.char (.literal 0x61)]]],
    [.group ⟨some 2, none⟩ [[.char (.literal 0x62)]]]]
  let a : CaptureMap := CaptureMap.empty.insert (.number 1) ⟨0, 1⟩
  let b (start : Nat) : CaptureMap := CaptureMap.empty.insert (.number 2) ⟨start, start + 1⟩
  let w := atom.ways .none #[0x61, 0x62, 0x62] .forward
  have hfirst : w.list 0 = [⟨1, a⟩] := rfl
  have hsecond : w.list 1 = [⟨2, b 1⟩] := rfl
  have hthird : w.list 2 = [⟨3, b 2⟩] := rfl
  have hway : ⟨3, ((CaptureMap.empty.merge a).merge (b 1)).merge (b 2)⟩ ∈
      (Term.ways .none #[0x61, 0x62, 0x62] (.repeated atom ⟨0, none, false⟩) .forward).list 0 := by
    -- one repetition after the other, each of which reads one code point
    refine Ways.mem_repeatFrom.mpr (.inr ⟨rfl, _, hfirst ▸ List.mem_cons_self, by decide, ?_⟩)
    refine Ways.mem_repeatFrom.mpr (.inr ⟨rfl, _, hsecond ▸ List.mem_cons_self, by decide, ?_⟩)
    refine Ways.mem_repeatFrom.mpr (.inr ⟨rfl, _, hthird ▸ List.mem_cons_self, by decide, ?_⟩)
    exact Ways.mem_repeatFrom.mpr (.inl ⟨Nat.zero_le _, rfl⟩)
  obtain ⟨n, hanswer⟩ := (Term.machine_enumerates _ _ _ _).gives_iff.mpr hway
  obtain ⟨s, hs⟩ := Reply.exists_found hanswer
  exact ⟨atom, n, _, s, rfl, hs, rfl, rfl, Term.stack_of_reply _ _ _ _ _ _ hs⟩

end Retrace
