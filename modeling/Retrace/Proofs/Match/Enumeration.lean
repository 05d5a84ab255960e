import Mathlib.Data.List.Forall2
import Retrace.Proofs.Match.Ways

/-!
# Machines enumerate ways

Repeated requests on one state, beginning with the fresh one, answer with the ways of a part one by
one, in their order, and from then on with the answer that there is none left; no request faults.

The state of a part stands for the list of ways that are still to come (`Yields`). A choice has the
ways left of the branch at hand and all ways of the later branches. The slots of a sequence stand
for the chains that vary the last terms first (`Pending`). A repetition has, above each chain on its
stack, the ways left of the atom (`Suspended`), and each turn of its search keeps the list of ways
to come, but for the chain that it offers (`yields_of_turn`).

Results:

* `Yields.reply`: what a state yields is what repeated requests answer.
* `Part.reply_eq_ways`: the answers of a part, from the fresh state, are its ways.
-/

namespace Retrace

/-! ## States and the ways that are left -/

/-- The answer to a request repeated on the state that the one before left: the one with the given
    number, the first one being number zero. -/
def Request.reply (request : Request) (pos : Int) : Nat → State → Reply State
  | 0, s => request pos s
  | n + 1, s => Request.reply request pos n (request pos s).next

/-- What a reply says about the next way: which one it is, or that there is none. A fault says
    nothing. -/
def Reply.answer? {σ : Type} : Reply σ → Option (Option Outcome)
  | found o _ => some (some o)
  | none _ => some Option.none
  | fault _ => Option.none

/-- From the state `s`, repeated requests at `pos` give the listed ways one after the other, and
    then no way any more. -/
inductive Yields (request : Request) (pos : Int) : State → List Outcome → Prop where
  | done {s s' : State} (h : request pos s = .none s') (hs : request pos s' = .none s') :
      Yields request pos s []
  | found {s s' : State} {o : Outcome} {os : List Outcome} (h : request pos s = .found o s')
      (hs : Yields request pos s' os) : Yields request pos s (o :: os)

namespace Yields

variable {request : Request} {pos : Int} {s s' : State} {os : List Outcome}

/-- A state that gets the same reply yields the same ways. -/
theorem of_request_eq (h : Yields request pos s os) (hs : request pos s' = request pos s) :
    Yields request pos s' os := by
  cases h with
  | done h hdone => exact .done (hs.trans h) hdone
  | found h hnext => exact .found (hs.trans h) hnext

theorem answer?_request (h : Yields request pos s os) :
    (request pos s).answer? = some os.head? := by
  cases h with
  | done h => rw [h]; rfl
  | found h => rw [h]; rfl

/-- After every request, the first of the ways is gone, if there was one. -/
theorem tail (h : Yields request pos s os) : Yields request pos (request pos s).next os.tail := by
  cases h with
  | done h hdone =>
    rw [h]
    exact .done hdone hdone
  | found h hnext =>
    rw [h]
    exact hnext

/-- What a state yields is what repeated requests answer. -/
theorem reply (h : Yields request pos s os) (n : Nat) :
    (request.reply pos n s).answer? = some os[n]? := by
  induction n generalizing s os with
  | zero => rw [Request.reply, h.answer?_request, List.head?_eq_getElem?]
  | succ n ih => rw [Request.reply, ih h.tail, List.getElem?_tail]

end Yields

namespace Machine

variable {dir : Direction} {length : Nat}

/-- From the fresh state, the machine gives the ways of every position. -/
def Enumerates (m : Machine dir length) (w : Ways dir length) : Prop :=
  ∀ pos, Yields m.request pos .fresh (w.list pos)

/-- The machine answers some request, of repeated ones on the fresh state, with the given way. -/
def Gives (m : Machine dir length) (pos : Int) (o : Outcome) : Prop :=
  ∃ n, (m.request.reply pos n .fresh).answer? = some (some o)

theorem Enumerates.gives_iff {m : Machine dir length} {w : Ways dir length} (h : m.Enumerates w)
    {pos : Int} {o : Outcome} : m.Gives pos o ↔ o ∈ w.list pos := by
  rw [List.mem_iff_getElem?]
  refine exists_congr fun n => ?_
  rw [(h pos).reply n, Option.some.injEq]

/-! ## Parts that match in one way -/

/-- A test that answers with the cursor behind the way that it finds. -/
theorem single_enumerates {test : Int → Reply Unit} {goal : Int → Option Int}
    (htest : ∀ {pos o}, test pos = .found o () → Ahead dir length pos o.index)
    (hgoal : ∀ {pos next}, goal pos = some next → Ahead dir length pos next)
    (h : ∀ pos, test pos = match goal pos with
      | some next => .found (.bare next) ()
      | none => .none ()) :
    (single test htest).Enumerates (.single goal hgoal) := by
  intro pos
  have spent : Yields (single test htest).request pos .spent [] := .done rfl rfl
  show Yields (singleRequest test) pos .fresh ((goal pos).toList.map .bare)
  have hpos := h pos
  cases hg : goal pos with
  | none =>
    rw [hg] at hpos
    have hnone : singleRequest test pos .fresh = .none .spent := by simp only [singleRequest, hpos]
    exact .done hnone rfl
  | some next =>
    rw [hg] at hpos
    have hfound : singleRequest test pos .fresh = .found (.bare next) .spent := by
      simp only [singleRequest, hpos]
    exact .found hfound spent

theorem never_enumerates : (never : Machine dir length).Enumerates .never :=
  fun _ => .done rfl rfl

theorem mapCaptures_enumerates {m : Machine dir length} {w : Ways dir length}
    (h : m.Enumerates w) (f : Int → Outcome → CaptureMap) :
    (m.mapCaptures f).Enumerates (w.mapCaptures f) := by
  intro pos
  show Yields (captureRequest f m.request) pos .fresh
    ((w.list pos).map fun o => { o with captures := f pos o })
  generalize State.fresh = s, w.list pos = os, h pos = hs
  induction hs with
  | done h hdone =>
    exact .done (by rw [captureRequest, h]; rfl) (by rw [captureRequest, hdone]; rfl)
  | found h _ ih => exact .found (by rw [captureRequest, h]; rfl) ih

/-! ## Choices -/

/-- A choice that has come to the branch `m` has the ways left of this branch and all ways of the
    later ones. -/
theorem branch_yields {ms rest : List (Machine dir length)} {m : Machine dir length}
    {ws : List (Ways dir length)} {pos : Int} {branch : Nat} {inner : State} {e : Bool}
    {os : List Outcome} (hdrop : ms.drop branch = m :: rest)
    (hws : List.Forall₂ Enumerates rest ws) (hs : Yields m.request pos inner os) :
    Yields (choiceRequest ms) pos (.choice branch inner e)
      (os ++ ws.flatMap fun w => w.list pos) := by
  have hne : ms ≠ [] := by
    intro h
    rw [h, List.drop_nil] at hdrop
    exact List.cons_ne_nil _ _ hdrop.symm
  have request (branch : Nat) (inner : State) : choiceRequest ms pos (.choice branch inner e) =
      branchRequest pos e (ms.drop branch) branch inner := by
    simp [choiceRequest, choiceFrom, hne]
  have step {branch : Nat} {inner : State} {m : Machine dir length}
      {rest : List (Machine dir length)} (hdrop : ms.drop branch = m :: rest) {later : List Outcome}
      (hnext : Yields (choiceRequest ms) pos (.choice (branch + 1) .fresh e) later)
      {os : List Outcome} (hs : Yields m.request pos inner os) :
      Yields (choiceRequest ms) pos (.choice branch inner e) (os ++ later) := by
    induction hs with
    | done h _ =>
      refine hnext.of_request_eq ?_
      rw [request, request, hdrop, branchRequest, h, ← List.drop_drop, hdrop]
      rfl
    | found h _ ih =>
      refine .found ?_ ih
      rw [request, hdrop, branchRequest, h]
  induction hws generalizing m branch inner os with
  | nil =>
    have request : choiceRequest ms pos (.choice (branch + 1) .fresh e) =
        .none (.choice (branch + 1) .fresh e) := by
      rw [request, ← List.drop_drop, hdrop]
      rfl
    exact step hdrop (.done request request) hs
  | cons hm _ ih =>
    refine step hdrop (ih ?_ (hm pos)) hs
    rw [← List.drop_drop, hdrop, List.drop_one, List.tail_cons]

/-- The choice among machines enumerates the choice among their ways. -/
theorem choice_enumerates {ms : List (Machine dir length)} {ws : List (Ways dir length)}
    (h : List.Forall₂ Enumerates ms ws) : (choice ms).Enumerates (.choice ws) := by
  intro pos
  cases h with
  | nil =>
    have done : Yields (choiceRequest ([] : List (Machine dir length))) pos (.choice 0 .fresh true)
        [] := .done rfl rfl
    exact .found rfl done
  | @cons m w ms ws hm hws =>
    have hdrop : (m :: ms).drop 0 = m :: ms := rfl
    have hfirst : Yields (choiceRequest (m :: ms)) pos (.choice 0 .fresh false)
        (w.list pos ++ ws.flatMap fun w => w.list pos) := branch_yields hdrop hws (hm pos)
    exact hfirst.of_request_eq rfl

/-! ## Sequences -/

/-- The chains from a term whose ways are still the listed ones. -/
def chainsAfter (ws : List (Ways dir length)) (os : List Outcome) : List (List Outcome) :=
  os.flatMap fun o => (Ways.chains ws o.index).map (o :: ·)

/-- The slots of terms visited in order from `pos` stand for the chains that are still to come:
    those that change a later term, and then those that begin with another way of the first. -/
inductive Pending : List (Machine dir length) → List (Ways dir length) → Int → List (Slot State) →
    List (List Outcome) → Prop where
  | nil {pos : Int} : Pending [] [] pos [] []
  | cons {m : Machine dir length} {ms : List (Machine dir length)} {w : Ways dir length}
      {ws : List (Ways dir length)} {pos : Int} {s : State} {o : Outcome} {os : List Outcome}
      {slots : List (Slot State)} {cs : List (List Outcome)} (hms : List.Forall₂ Enumerates ms ws)
      (hs : Yields m.request pos s os) (h : Pending ms ws o.index slots cs) :
      Pending (m :: ms) (w :: ws) pos (⟨s, some o⟩ :: slots) (cs.map (o :: ·) ++ chainsAfter ws os)

/-- A walk over terms finds the first of the given chains, and leaves the others pending. -/
inductive Finds (ms : List (Machine dir length)) (ws : List (Ways dir length)) (pos : Int) :
    Walk → List (List Outcome) → Prop where
  | exhausted : Finds ms ws pos .exhausted []
  | complete {slots : List (Slot State)} {c : List Outcome} {cs : List (List Outcome)}
      (hc : slots.map Slot.outcome = c.map some) (h : Pending ms ws pos slots cs) :
      Finds ms ws pos (.complete slots) (c :: cs)

theorem Pending.length_eq {ms : List (Machine dir length)} {ws : List (Ways dir length)} {pos : Int}
    {slots : List (Slot State)} {cs : List (List Outcome)} (h : Pending ms ws pos slots cs) :
    slots.length = ms.length := by
  induction h with
  | nil => rfl
  | cons _ _ _ ih => rw [List.length_cons, List.length_cons, ih]

theorem seek_of_none {m : Machine dir length} {pos : Int} {rest : Int → Walk} {later : Nat}
    {s s' : State} {outcome : Option Outcome} (h : m.request pos s = .none s') :
    seek m pos rest later ⟨s, outcome⟩ = .exhausted := by
  rw [seek]
  split <;> rename_i hm <;> rw [h] at hm <;> cases hm

theorem seek_of_found {m : Machine dir length} {pos : Int} {rest : Int → Walk} {later : Nat}
    {s s' : State} {o : Outcome} {outcome : Option Outcome}
    (h : m.request pos s = .found o s') :
    seek m pos rest later ⟨s, outcome⟩ =
      match rest o.index with
      | .exhausted => seek m pos rest later ⟨s', some o⟩
      | .complete slots => .complete (⟨s', some o⟩ :: slots)
      | .fault slots => .fault (⟨s', some o⟩ :: slots) := by
  rw [seek]
  split <;> rename_i hm <;> rw [h] at hm <;> cases hm
  rfl

theorem seek_finds {m : Machine dir length} {ms : List (Machine dir length)} {w : Ways dir length}
    {ws : List (Ways dir length)} {pos : Int} {later : Nat} {s : State} {os : List Outcome}
    {outcome : Option Outcome} (hms : List.Forall₂ Enumerates ms ws)
    (hrest : ∀ pos, Finds ms ws pos (enter ms pos) (Ways.chains ws pos))
    (hs : Yields m.request pos s os) :
    Finds (m :: ms) (w :: ws) pos (seek m pos (enter ms) later ⟨s, outcome⟩)
      (chainsAfter ws os) := by
  induction hs generalizing outcome with
  | done h _ =>
    rw [seek_of_none h]
    exact .exhausted
  | @found s s' o os h hnext ih =>
    have hchains : chainsAfter ws (o :: os) =
        (Ways.chains ws o.index).map (o :: ·) ++ chainsAfter ws os := rfl
    rw [hchains, seek_of_found h]
    have hwalk := hrest o.index
    generalize enter ms o.index = walk, Ways.chains ws o.index = cs at hwalk
    cases hwalk with
    | exhausted => exact ih
    | complete hc hpending =>
      refine .complete ?_ (.cons hms hnext hpending)
      rw [List.map_cons, List.map_cons, hc]

/-- The first walk finds the first of all chains. -/
theorem enter_finds {ms : List (Machine dir length)} {ws : List (Ways dir length)}
    (h : List.Forall₂ Enumerates ms ws) (pos : Int) :
    Finds ms ws pos (enter ms pos) (Ways.chains ws pos) := by
  induction h generalizing pos with
  | nil => exact .complete rfl .nil
  | cons hm hms ih => exact seek_finds hms ih (hm pos)

/-- The next walk finds the first of the pending chains. -/
theorem retry_finds {ms : List (Machine dir length)} {ws : List (Ways dir length)}
    {entry pos : Int} {slots : List (Slot State)} {cs : List (List Outcome)}
    (h : Pending ms ws pos slots cs) : Finds ms ws pos (retry ms entry pos slots) cs := by
  induction h with
  | nil => exact .exhausted
  | @cons m ms w ws pos s o os slots cs hms hs hpending ih =>
    rw [retry]
    have hwalk : Finds ms ws o.index (retry ms entry (Slot.endFrom ⟨s, some o⟩ entry) slots) cs :=
      ih
    generalize retry ms entry (Slot.endFrom ⟨s, some o⟩ entry) slots = walk at hwalk
    cases hwalk with
    | exhausted => exact seek_finds hms (enter_finds hms) hs
    | complete hc hnext =>
      refine .complete ?_ (.cons hms hs hnext)
      rw [List.map_cons, List.map_cons, hc]

theorem endFrom_eq_chainEnd {slots : List (Slot State)} {c : List Outcome} (pos : Int)
    (h : slots.map Slot.outcome = c.map some) :
    (slots.getLast?.map fun slot => slot.endFrom pos).getD pos = Ways.chainEnd pos c := by
  have hlast := congrArg List.getLast? h
  rw [List.getLast?_map, List.getLast?_map] at hlast
  unfold Ways.chainEnd
  cases hs : slots.getLast? <;> cases hc : c.getLast? <;> rw [hs, hc] at hlast
  · rfl
  · cases hlast
  · cases hlast
  · have hslot := Option.some.inj hlast
    simp only [Option.map_some, Option.getD_some, Slot.endFrom, hslot]

theorem slotCaptures_eq {slots : List (Slot State)} {c : List Outcome}
    (h : slots.map Slot.outcome = c.map some) :
    slotCaptures slots = c.foldl (fun captures o => captures.merge o.captures) .empty := by
  unfold slotCaptures
  generalize CaptureMap.empty = captures
  induction slots generalizing c captures with
  | nil =>
    rw [List.map_eq_nil_iff.mp h.symm]
    rfl
  | cons slot slots ih =>
    obtain ⟨o, c, rfl, ho, hc⟩ := List.map_eq_cons_iff.mp h.symm
    rw [List.foldl_cons, List.foldl_cons, ih hc.symm]
    simp only [Slot.captures, ← ho]

theorem map_arrange {α β : Type} (f : α → β) (dir : Direction) (l : List α) :
    (dir.arrange l).map f = dir.arrange (l.map f) := by
  cases dir
  · rfl
  · exact List.map_reverse

/-- What a sequence answers after a walk that finds the first of some chains. -/
theorem answer_yields {ms : List (Machine dir length)} {ws : List (Ways dir length)} {pos : Int}
    {walk : Walk} {cs : List (List Outcome)} {s : State}
    (h : Finds (dir.arrange ms) (dir.arrange ws) pos walk cs)
    (hs : sequenceRequest ms pos s = answer dir pos [] walk) :
    Yields (sequenceRequest ms) pos s (cs.map (Ways.chainOutcome dir pos)) := by
  induction cs generalizing walk s with
  | nil =>
    cases h
    exact .done hs rfl
  | cons c cs ih =>
    cases h with
    | @complete slots _ _ hc hpending =>
      have hlen : slots.length = ms.length := by
        rw [hpending.length_eq, Direction.length_arrange]
      have houtcome : (⟨(slots.getLast?.map fun slot => slot.endFrom pos).getD pos,
          slotCaptures (dir.arrange slots)⟩ : Outcome) = Ways.chainOutcome dir pos c := by
        have harranged : (dir.arrange slots).map Slot.outcome = (dir.arrange c).map some := by
          rw [map_arrange, map_arrange, hc]
        rw [endFrom_eq_chainEnd pos hc, slotCaptures_eq harranged]
        rfl
      have hfound : sequenceRequest ms pos s =
          .found (Ways.chainOutcome dir pos c) (.sequence (dir.arrange slots)) := by
        rw [hs, ← houtcome, answer]
        simp only [List.append_nil]
      have hretry : Finds (dir.arrange ms) (dir.arrange ws) pos
          (retry (dir.arrange ms) pos pos slots) cs := retry_finds hpending
      refine .found hfound (ih hretry ?_)
      rw [sequenceRequest, List.drop_eq_nil_of_le (by simp [hlen]),
        List.take_of_length_le (by simp [hlen]), Direction.arrange_arrange, resume,
        if_neg (by simp [hlen])]

/-- The sequence of machines enumerates the sequence of their ways. -/
theorem sequence_enumerates {ms : List (Machine dir length)} {ws : List (Ways dir length)}
    (h : List.Forall₂ Enumerates ms ws) : (sequence ms).Enumerates (.sequence ws) := by
  intro pos
  have harrange : List.Forall₂ Enumerates (dir.arrange ms) (dir.arrange ws) := by
    cases dir
    · exact h
    · exact List.rel_reverse h
  exact answer_yields (enter_finds harrange pos) rfl

/-! ## Repetitions -/

section Repetition

variable {q : Quantifier} {m : Machine dir length} {w : Ways dir length} {pos : Int}

/-- The chain on the stack itself as a way, where it comes before all longer chains. -/
def settledFirst (q : Quantifier) (pos : Int) (stack : RepetitionStack State) : List Outcome :=
  if q.lazy then Ways.settled q stack.count (stack.outcome pos) else []

/-- The chain on the stack itself as a way, where it comes after all longer chains. -/
def settledLast (q : Quantifier) (pos : Int) (stack : RepetitionStack State) : List Outcome :=
  if q.lazy then [] else Ways.settled q stack.count (stack.outcome pos)

theorem repeatFrom_eq_settled (q : Quantifier) (w : Ways dir length) (pos : Int)
    (stack : RepetitionStack State) :
    Ways.repeatFrom q w stack.count (stack.endFrom pos) stack.captures =
      settledFirst q pos stack ++ Ways.longer q w stack.count (stack.outcome pos) ++
        settledLast q pos stack := by
  rw [Ways.repeatFrom_eq, Ways.order, settledFirst, settledLast]
  cases q.lazy
  · simp only [Bool.false_eq_true, if_false, List.nil_append]
    rfl
  · simp only [if_true, List.append_nil]
    rfl

variable (q m w pos)

/-- The ways that are left once the chain on the stack is given up: those that the ways left of its
    last repetition lead to, then the chain below, if it comes last, and so on down the stack. -/
inductive Suspended : RepetitionStack State → List Outcome → Prop where
  | bottom : Suspended .bottom []
  | push {below : RepetitionStack State} {s : State} {o : Outcome} {os rest : List Outcome}
      (hs : Yields m.request (below.endFrom pos) s os) (h : Suspended below rest) :
      Suspended (below.push ⟨s, some o⟩)
        (Ways.extended q w below.count (below.outcome pos) os ++ settledLast q pos below ++ rest)

/-- The ways that are left when the search of a repetition has come to a turn. -/
inductive Turn.Yields : Turn → List Outcome → Prop where
  | arrive {stack : RepetitionStack State} {rest : List Outcome}
      (h : Suspended q m w pos stack rest) :
      Turn.Yields (.arrive stack)
        (Ways.repeatFrom q w stack.count (stack.endFrom pos) stack.captures ++ rest)
  | extend {stack : RepetitionStack State} {rest : List Outcome}
      (h : Suspended q m w pos stack rest) :
      Turn.Yields (.extend stack)
        (Ways.longer q w stack.count (stack.outcome pos) ++ settledLast q pos stack ++ rest)
  | ask {s : State} {below : RepetitionStack State} {os rest : List Outcome}
      (hs : Retrace.Yields m.request (below.endFrom pos) s os)
      (h : Suspended q m w pos below rest) :
      Turn.Yields (.ask s below)
        (Ways.extended q w below.count (below.outcome pos) os ++ settledLast q pos below ++ rest)
  | leave {stack : RepetitionStack State} {rest : List Outcome}
      (h : Suspended q m w pos stack rest) :
      Turn.Yields (.leave stack) (settledLast q pos stack ++ rest)
  | back {stack : RepetitionStack State} {rest : List Outcome}
      (h : Suspended q m w pos stack rest) : Turn.Yields (.back stack) rest

/-- What a turn with the given ways left may lead to. -/
inductive TurnResult.Yields : TurnResult → List Outcome → Prop where
  | turn {t : Turn} {os : List Outcome} (h : Turn.Yields q m w pos t os) :
      TurnResult.Yields (.turn t) os
  | offer {stack : RepetitionStack State} {os : List Outcome}
      (h : Turn.Yields q m w pos (q.resume stack) os) :
      TurnResult.Yields (.offer stack) (stack.outcome pos :: os)
  | done : TurnResult.Yields .done []

variable {q m w pos}

theorem settledFirst_eq (stack : RepetitionStack State) :
    settledFirst q pos stack =
      if q.lazy && q.min ≤ stack.count then [stack.outcome pos] else [] := by
  unfold settledFirst Ways.settled
  cases q.lazy
  · rfl
  · simp only [if_true, Bool.true_and, decide_eq_true_eq]

theorem settledLast_eq (stack : RepetitionStack State) :
    settledLast q pos stack =
      if !q.lazy && q.min ≤ stack.count then [stack.outcome pos] else [] := by
  unfold settledLast Ways.settled
  cases q.lazy
  · simp only [Bool.false_eq_true, if_false, Bool.not_false, Bool.true_and, decide_eq_true_eq]
  · rfl

/-- A chain just grown comes before all longer ones in a lazy search, and is put off otherwise. -/
theorem yields_of_arrive {stack : RepetitionStack State} {rest : List Outcome}
    (h : Suspended q m w pos stack rest) :
    TurnResult.Yields q m w pos (q.turn m.request pos (.arrive stack))
      (Ways.repeatFrom q w stack.count (stack.endFrom pos) stack.captures ++ rest) := by
  have hextend := Turn.Yields.extend h
  rw [repeatFrom_eq_settled, List.append_assoc, List.append_assoc,
    ← List.append_assoc (Ways.longer _ _ _ _), settledFirst_eq]
  simp only [Quantifier.turn]
  by_cases hl : q.lazy && q.min ≤ stack.count
  · rw [if_pos hl, if_pos hl]
    refine .offer ?_
    rw [Bool.and_eq_true] at hl
    rwa [Quantifier.resume, if_pos hl.1]
  · rw [if_neg hl, if_neg hl]
    exact .turn hextend

theorem yields_of_extend (hm : m.Enumerates w) {stack : RepetitionStack State}
    {rest : List Outcome} (h : Suspended q m w pos stack rest) :
    TurnResult.Yields q m w pos (q.turn m.request pos (.extend stack))
      (Ways.longer q w stack.count (stack.outcome pos) ++ settledLast q pos stack ++ rest) := by
  simp only [Quantifier.turn]
  by_cases ha : q.allows (stack.count + 1)
  · rw [if_pos ha, Ways.longer, if_pos ha]
    exact .turn (.ask (hm _) h)
  · rw [if_neg ha, Ways.longer, if_neg ha]
    exact .turn (.leave h)

/-- The next way of the atom is pushed, unless it is an empty one beyond the minimum. Both the
    search and the ways of a repetition pass over such a way. -/
theorem yields_of_ask {s : State} {below : RepetitionStack State} {os rest : List Outcome}
    (hs : Yields m.request (below.endFrom pos) s os) (h : Suspended q m w pos below rest) :
    TurnResult.Yields q m w pos (q.turn m.request pos (.ask s below))
      (Ways.extended q w below.count (below.outcome pos) os ++ settledLast q pos below ++
        rest) := by
  simp only [Quantifier.turn]
  cases hs with
  | done hr _ =>
    simp only [hr]
    exact .turn (.leave h)
  | @found _ s' o os hr hnext =>
    simp only [hr]
    have hask := Turn.Yields.ask hnext h
    have hext : Ways.extended q w below.count (below.outcome pos) (o :: os) =
        (if o.index = below.endFrom pos ∧ q.min ≤ below.count then []
          else Ways.repeatFrom q w (below.count + 1) o.index (below.captures.merge o.captures)) ++
        Ways.extended q w below.count (below.outcome pos) os := rfl
    rw [hext]
    by_cases he : o.index = below.endFrom pos ∧ q.min ≤ below.count
    · rw [if_pos he, if_pos he, List.nil_append]
      exact .turn hask
    · rw [if_neg he, if_neg he, List.append_assoc, List.append_assoc,
        ← List.append_assoc (Ways.extended _ _ _ _ _)]
      exact .turn (.arrive (.push hnext h))

/-- A chain given up comes after all longer ones, unless the search is lazy. -/
theorem yields_of_leave {stack : RepetitionStack State} {rest : List Outcome}
    (h : Suspended q m w pos stack rest) :
    TurnResult.Yields q m w pos (q.turn m.request pos (.leave stack))
      (settledLast q pos stack ++ rest) := by
  rw [settledLast_eq]
  simp only [Quantifier.turn]
  by_cases hl : !q.lazy && q.min ≤ stack.count
  · rw [if_pos hl, if_pos hl]
    refine .offer ?_
    rw [Bool.and_eq_true, Bool.not_eq_true'] at hl
    rw [Quantifier.resume, hl.1]
    exact .back h
  · rw [if_neg hl, if_neg hl]
    exact .turn (.back h)

theorem yields_of_back {stack : RepetitionStack State} {rest : List Outcome}
    (h : Suspended q m w pos stack rest) :
    TurnResult.Yields q m w pos (q.turn m.request pos (.back stack)) rest := by
  cases h with
  | bottom => exact .done
  | push hs h => exact .turn (.ask hs h)

/-- A turn leaves the ways as they are, but for the one that it offers. -/
theorem yields_of_turn (hm : m.Enumerates w) {t : Turn} {os : List Outcome}
    (h : Turn.Yields q m w pos t os) :
    TurnResult.Yields q m w pos (q.turn m.request pos t) os := by
  cases h with
  | arrive h => exact yields_of_arrive h
  | extend h => exact yields_of_extend hm h
  | ask hs h => exact yields_of_ask hs h
  | leave h => exact yields_of_leave h
  | back h => exact yields_of_back h

/-- The walk from a turn finds the first of the ways that are left, and leaves the others. -/
theorem walk_yields (hm : m.Enumerates w) {t : Turn} {os : List Outcome}
    (h : Turn.Yields q m w pos t os) :
    (os = [] ∧ walk q m pos t = .none .repetitionDone) ∨
    ∃ stack later, os = stack.outcome pos :: later ∧
      walk q m pos t = .found (stack.outcome pos) (.repetition stack) ∧
      Turn.Yields q m w pos (q.resume stack) later := by
  induction t using (turn_acc q m pos).induction with
  | _ t ih =>
    have hturn := yields_of_turn hm h
    unfold walk
    split
    case h_1 t' ht =>
      rw [ht] at hturn
      cases hturn with
      | turn h' => exact ih t' (.inl ht) h'
    case h_2 stack ht =>
      rw [ht] at hturn
      cases hturn with
      | @offer _ later h' => exact .inr ⟨stack, later, rfl, rfl, h'⟩
    case h_3 ht =>
      rw [ht] at hturn
      cases hturn with
      | done => exact .inl ⟨rfl, rfl⟩
    case h_4 ht =>
      rw [ht] at hturn
      cases hturn

theorem walk_request_yields (hm : m.Enumerates w) {t : Turn} {os : List Outcome} {s : State}
    (h : Turn.Yields q m w pos t os) (hs : repetitionRequest q m pos s = walk q m pos t) :
    Retrace.Yields (repetitionRequest q m) pos s os := by
  induction os generalizing t s with
  | nil =>
    rcases walk_yields hm h with ⟨-, hwalk⟩ | ⟨stack, later, hos, -⟩
    · exact .done (hs.trans hwalk) rfl
    · cases hos
  | cons o os ih =>
    rcases walk_yields hm h with ⟨hos, -⟩ | ⟨stack, later, hos, hwalk, hlater⟩
    · cases hos
    · cases hos
      exact .found (hs.trans hwalk) (ih hlater rfl)

variable (q) in
/-- The repetition of a machine enumerates the repetition of its ways. -/
theorem repetition_enumerates (hm : m.Enumerates w) :
    (repetition q m).Enumerates (.repetition q w) := by
  intro pos
  have hbottom : Turn.Yields q m w pos (.arrive .bottom) (Ways.repeatFrom q w 0 pos .empty ++ []) :=
    .arrive .bottom
  rw [List.append_nil] at hbottom
  exact walk_request_yields hm hbottom rfl

end Repetition

end Machine

/-! ## Patterns -/

section Patterns

variable (flags : Flags) (subject : Text)

mutual

theorem Term.machine_enumerates (t : Term) (dir : Direction) :
    (t.machine flags subject dir).Enumerates (t.ways flags subject dir) := by
  cases t with
  | char e =>
    refine Machine.single_enumerates charTest_ahead Ways.charGoal_ahead fun pos => ?_
    unfold charTest Ways.charGoal
    cases Text.at? subject pos with
    | none => rfl
    | some cp => cases h : e.accepts flags cp <;> simp [h]
  | anchor a =>
    refine Machine.single_enumerates anchorTest_ahead Ways.gapGoal_ahead fun pos => ?_
    unfold anchorTest Ways.gapGoal
    by_cases h : a.holds flags subject (dir.gap pos) <;> simp [h]
  | look look negated body =>
    refine Machine.single_enumerates lookTest_ahead Ways.gapGoal_ahead fun pos => ?_
    have hbody := Pattern.machine_enumerates body look (look.cursor (dir.gap pos))
    unfold lookTest Ways.gapGoal
    cases hos : (Pattern.ways flags subject body look).list (look.cursor (dir.gap pos)) <;>
      rw [hos] at hbody <;> cases hbody with | _ h => cases negated <;> simp [h, hos]
  | group tag body =>
    exact Machine.mapCaptures_enumerates (Pattern.machine_enumerates body dir) _
  | repeated atom q => exact Machine.repetition_enumerates q (Term.machine_enumerates atom dir)
  | backreference target => exact Machine.never_enumerates
termination_by structural t

theorem Branch.machines_enumerate (ts : Branch) (dir : Direction) :
    List.Forall₂ Machine.Enumerates (ts.machines flags subject dir)
      (ts.termWays flags subject dir) := by
  cases ts with
  | nil => exact .nil
  | cons t ts => exact .cons (Term.machine_enumerates t dir) (Branch.machines_enumerate ts dir)
termination_by structural ts

theorem Pattern.machines_enumerate (bs : Pattern) (dir : Direction) :
    List.Forall₂ Machine.Enumerates (bs.machines flags subject dir)
      (bs.branchWays flags subject dir) := by
  cases bs with
  | nil => exact .nil
  | cons b bs =>
    exact .cons (Machine.sequence_enumerates (Branch.machines_enumerate b dir))
      (Pattern.machines_enumerate bs dir)
termination_by structural bs

theorem Pattern.machine_enumerates (bs : Pattern) (dir : Direction) :
    (bs.machine flags subject dir).Enumerates (bs.ways flags subject dir) := by
  cases bs with
  | nil => exact Machine.choice_enumerates .nil
  | cons b bs =>
    have hb := Machine.sequence_enumerates (Branch.machines_enumerate b dir)
    exact Machine.choice_enumerates (.cons hb (Pattern.machines_enumerate bs dir))
termination_by structural bs

end

theorem Part.machine_enumerates (part : Part) (dir : Direction) :
    (part.machine flags subject dir).Enumerates (part.ways flags subject dir) := by
  cases part with
  | term t => exact Term.machine_enumerates flags subject t dir
  | branch b => exact Machine.sequence_enumerates (Branch.machines_enumerate flags subject b dir)
  | pattern p => exact Pattern.machine_enumerates flags subject p dir

/-- The answers of a part to repeated requests at any position, in either direction, are its ways
    one after the other, and that there is none left from then on. No request faults. -/
theorem Part.reply_eq_ways (part : Part) (dir : Direction) (pos : Int) (n : Nat) :
    ((part.machine flags subject dir).request.reply pos n .fresh).answer? =
      some ((part.ways flags subject dir).list pos)[n]? :=
  (part.machine_enumerates flags subject dir pos).reply n

end Patterns

end Retrace
