import Retrace.Match.Pattern

/-!
# The ways of a pattern as lists

What a pattern matches at a position, as one list in order of preference and without any state: the
reading of a pattern as a backtracking search. A choice lists the ways of one branch after the
other. A sequence lists the chains of ways of its terms, each term beginning where the one before it
ended, so that the term visited last varies fastest. A repetition lists the chains of ways of its
atom, depth first.

As with machines, every list is bundled with the fact that ways lead ahead, on which the search of
a repetition ends.

Results:

* `Ways.mem_chains`: the chains of a sequence are the lists of ways that follow on one another.
* `Ways.repeatFrom_eq`: the ways of a repetition from a chain on, without and with one more atom.
-/

namespace Retrace

/-- The ways of one part of a pattern from every position, the preferred ones first. -/
structure Ways (dir : Direction) (length : Nat) where
  /-- The ways from a position. -/
  list : Int → List Outcome
  /-- Ways lead ahead. -/
  ahead : ∀ {pos o}, o ∈ list pos → Ahead dir length pos o.index

namespace Ways

variable {dir : Direction} {length : Nat}

/-! ## Choices and sequences -/

/-- The ways of a choice: those of one branch after the other. A choice without branches matches
    the empty string, once. -/
def choiceList (ws : List (Ways dir length)) (pos : Int) : List Outcome :=
  if ws.isEmpty then [.bare pos] else ws.flatMap fun w => w.list pos

theorem choiceList_ahead {ws : List (Ways dir length)} {pos : Int} {o : Outcome}
    (h : o ∈ choiceList ws pos) : Ahead dir length pos o.index := by
  unfold choiceList at h
  split at h
  · rw [List.mem_singleton] at h
    rw [h]
    exact .refl pos
  · obtain ⟨w, -, ho⟩ := List.mem_flatMap.mp h
    exact w.ahead ho

/-- The choice among ways, in order of preference. -/
def choice (ws : List (Ways dir length)) : Ways dir length := ⟨choiceList ws, choiceList_ahead⟩

/-- The chains of ways of the given parts from a position, in the order of the visits: each way
    begins where the one before it ended, and the last one varies fastest. -/
def chains : List (Ways dir length) → Int → List (List Outcome)
  | [], _ => [[]]
  | w :: ws, pos => (w.list pos).flatMap fun o => (chains ws o.index).map (o :: ·)

/-- Where a chain of ways from `pos` ends. -/
def chainEnd (pos : Int) (chain : List Outcome) : Int :=
  (chain.getLast?.map Outcome.index).getD pos

/-- A chain of ways as one way. Its captures are merged in the order of the terms, which a backward
    scan visits from the last to the first; later terms win. -/
def chainOutcome (dir : Direction) (pos : Int) (chain : List Outcome) : Outcome :=
  ⟨chainEnd pos chain,
    (dir.arrange chain).foldl (fun captures o => captures.merge o.captures) .empty⟩

@[simp] theorem chainEnd_nil (pos : Int) : chainEnd pos [] = pos := rfl

@[simp] theorem chainEnd_cons (pos : Int) (o : Outcome) (chain : List Outcome) :
    chainEnd pos (o :: chain) = chainEnd o.index chain := by
  cases chain with
  | nil => rfl
  | cons o' chain =>
    unfold chainEnd
    rw [List.getLast?_cons_cons, List.getLast?_cons]
    rfl

@[simp] theorem chainOutcome_index (pos : Int) (chain : List Outcome) :
    (chainOutcome dir pos chain).index = chainEnd pos chain := rfl

theorem mem_chains {w : Ways dir length} {ws : List (Ways dir length)} {pos : Int}
    {chain : List Outcome} :
    chain ∈ chains (w :: ws) pos ↔
      ∃ o ∈ w.list pos, ∃ rest ∈ chains ws o.index, chain = o :: rest := by
  simp only [chains, List.mem_flatMap, List.mem_map, eq_comm]

theorem mem_of_mem_chain {ws : List (Ways dir length)} {pos : Int} {chain : List Outcome}
    (hc : chain ∈ chains ws pos) {o : Outcome} (ho : o ∈ chain) :
    ∃ w ∈ ws, ∃ pos', o ∈ w.list pos' := by
  induction ws generalizing pos chain with
  | nil =>
    rw [List.mem_singleton.mp hc] at ho
    exact absurd ho List.not_mem_nil
  | cons w ws ih =>
    obtain ⟨o', ho', rest, hrest, rfl⟩ := mem_chains.mp hc
    rcases List.mem_cons.mp ho with rfl | ho
    · exact ⟨w, List.mem_cons_self, pos, ho'⟩
    · obtain ⟨w', hw', hpos'⟩ := ih hrest ho
      exact ⟨w', List.mem_cons_of_mem w hw', hpos'⟩

theorem chainEnd_ahead {ws : List (Ways dir length)} {pos : Int} {chain : List Outcome}
    (h : chain ∈ chains ws pos) : Ahead dir length pos (chainEnd pos chain) := by
  induction ws generalizing pos chain with
  | nil =>
    rw [List.mem_singleton.mp h]
    exact .refl pos
  | cons w ws ih =>
    obtain ⟨o, ho, rest, hrest, rfl⟩ := mem_chains.mp h
    rw [chainEnd_cons]
    exact (w.ahead ho).trans (ih hrest)

/-- The ways of a sequence: its chains. -/
def sequenceList (ws : List (Ways dir length)) (pos : Int) : List Outcome :=
  (chains (dir.arrange ws) pos).map (chainOutcome dir pos)

theorem sequenceList_ahead {ws : List (Ways dir length)} {pos : Int} {o : Outcome}
    (h : o ∈ sequenceList ws pos) : Ahead dir length pos o.index := by
  obtain ⟨chain, hchain, rfl⟩ := List.mem_map.mp h
  exact chainEnd_ahead hchain

/-- The sequence of ways, in the order of the terms. -/
def sequence (ws : List (Ways dir length)) : Ways dir length :=
  ⟨sequenceList ws, sequenceList_ahead⟩

/-! ## Repetitions -/

/-- The ways of a repetition from a chain on: the chain itself comes first if fewer repetitions are
    preferred, and last otherwise. -/
def order (q : Quantifier) (settled longer : List Outcome) : List Outcome :=
  if q.lazy then settled ++ longer else longer ++ settled

theorem mem_order {q : Quantifier} {settled longer : List Outcome} {o : Outcome} :
    o ∈ order q settled longer ↔ o ∈ settled ∨ o ∈ longer := by
  unfold order
  split
  · rw [List.mem_append]
  · rw [List.mem_append, or_comm]

/-- The chain of `count` ways itself as a way, if it is long enough. -/
def settled (q : Quantifier) (count : Nat) (o : Outcome) : List Outcome :=
  if q.min ≤ count then [o] else []

theorem mem_settled {q : Quantifier} {count : Nat} {o o' : Outcome} :
    o' ∈ settled q count o ↔ q.min ≤ count ∧ o' = o := by
  unfold settled
  split <;> simp [*]

/-- The ways of a repetition that begin with a chain of `count` ways of its atom, which has come to
    `pos` and has captured `captures`. Beyond the least number of repetitions, a way of the atom
    that ends where it began does not lengthen the chain. -/
def repeatFrom (q : Quantifier) (w : Ways dir length) (count : Nat) (pos : Int)
    (captures : CaptureMap) : List Outcome :=
  order q (settled q count ⟨pos, captures⟩) <|
    if q.allows (count + 1) then
      (w.list pos).flatMap fun next =>
        if next.index = pos ∧ q.min ≤ count then []
        else repeatFrom q w (count + 1) next.index (captures.merge next.captures)
    else []
termination_by (q.min - count) + dir.room length pos
decreasing_by
  rename_i ho hne
  have hahead := w.ahead ho
  have hle := hahead.room_le
  rcases hahead with heq | hlt
  · have : ¬q.min ≤ count := fun h => hne ⟨heq, h⟩
    omega
  · omega

/-- The ways of a repetition that lengthen a chain of `count` ways by one of the given ways of the
    atom. -/
def extended (q : Quantifier) (w : Ways dir length) (count : Nat) (o : Outcome)
    (os : List Outcome) : List Outcome :=
  os.flatMap fun next =>
    if next.index = o.index ∧ q.min ≤ count then []
    else repeatFrom q w (count + 1) next.index (o.captures.merge next.captures)

/-- The ways of a repetition that lengthen a chain of `count` ways. -/
def longer (q : Quantifier) (w : Ways dir length) (count : Nat) (o : Outcome) : List Outcome :=
  if q.allows (count + 1) then extended q w count o (w.list o.index) else []

theorem repeatFrom_eq (q : Quantifier) (w : Ways dir length) (count : Nat) (pos : Int)
    (captures : CaptureMap) :
    repeatFrom q w count pos captures =
      order q (settled q count ⟨pos, captures⟩) (longer q w count ⟨pos, captures⟩) := by
  rw [repeatFrom]
  rfl

theorem mem_repeatFrom {q : Quantifier} {w : Ways dir length} {count : Nat} {pos : Int}
    {captures : CaptureMap} {o : Outcome} :
    o ∈ repeatFrom q w count pos captures ↔
      (q.min ≤ count ∧ o = ⟨pos, captures⟩) ∨
      (q.allows (count + 1) ∧ ∃ next ∈ w.list pos, ¬(next.index = pos ∧ q.min ≤ count) ∧
        o ∈ repeatFrom q w (count + 1) next.index (captures.merge next.captures)) := by
  rw [repeatFrom_eq, mem_order, mem_settled]
  refine or_congr_right ?_
  unfold longer extended
  by_cases hq : q.allows (count + 1)
  · simp only [hq, if_true, true_and, List.mem_flatMap]
    refine exists_congr fun next => and_congr_right fun _ => ?_
    by_cases hn : next.index = pos ∧ q.min ≤ count <;> simp [hn]
  · simp [hq]

theorem repeatFrom_ahead {q : Quantifier} {w : Ways dir length} {count : Nat} {pos : Int}
    {captures : CaptureMap} {o : Outcome} (h : o ∈ repeatFrom q w count pos captures) :
    Ahead dir length pos o.index := by
  induction count, pos, captures using repeatFrom.induct q w with
  | _ count pos captures ih =>
    rcases mem_repeatFrom.mp h with ⟨-, rfl⟩ | ⟨-, next, hnext, hne, ho⟩
    · exact .refl pos
    · exact (w.ahead hnext).trans (ih next hnext hne ho)

/-- The repetition of ways within the bounds of a quantifier. -/
def repetition (q : Quantifier) (w : Ways dir length) : Ways dir length :=
  ⟨fun pos => repeatFrom q w 0 pos .empty, repeatFrom_ahead⟩

/-! ## Parts that match in one way -/

/-- The ways of a part that matches in at most one way, captures nothing and moves the cursor as
    `goal` says. -/
def single (goal : Int → Option Int)
    (ahead : ∀ {pos next}, goal pos = some next → Ahead dir length pos next) : Ways dir length where
  list pos := (goal pos).toList.map .bare
  ahead h := by
    obtain ⟨next, hnext, rfl⟩ := List.mem_map.mp h
    exact ahead (Option.mem_toList.mp hnext)

/-- The ways of a part that never matches. -/
def never : Ways dir length := ⟨fun _ => [], fun h => absurd h List.not_mem_nil⟩

/-- The ways with what `f` says for the way's beginning as their captures. -/
def mapCaptures (f : Int → Outcome → CaptureMap) (w : Ways dir length) : Ways dir length where
  list pos := (w.list pos).map fun o => { o with captures := f pos o }
  ahead h := by
    obtain ⟨o, ho, rfl⟩ := List.mem_map.mp h
    have := w.ahead ho
    exact this

/-- Where the cursor stands after one code point that the expression accepts. -/
def charGoal (flags : Flags) (subject : Text) (dir : Direction) (e : CharExpr) (pos : Int) :
    Option Int :=
  if (Text.at? subject pos).any (e.accepts flags) then some (pos + dir.step) else none

/-- Where the cursor stands after a condition on its gap: where it stood. -/
def gapGoal (holds : Int → Bool) (pos : Int) : Option Int := if holds pos then some pos else none

theorem charGoal_ahead {flags : Flags} {subject : Text} {e : CharExpr} {pos next : Int}
    (h : charGoal flags subject dir e pos = some next) : Ahead dir subject.size pos next := by
  obtain ⟨hany, hnext⟩ := Option.ite_none_right_eq_some.mp h
  rw [← Option.some.inj hnext]
  obtain ⟨cp, hcp, -⟩ := (Option.any_eq_true _ _).mp hany
  have := Text.lt_size_of_at? hcp
  right
  cases dir <;> simp only [Direction.room, Direction.step] <;> omega

theorem gapGoal_ahead {holds : Int → Bool} {pos next : Int} (h : gapGoal holds pos = some next) :
    Ahead dir length pos next := by
  obtain ⟨-, hnext⟩ := Option.ite_none_right_eq_some.mp h
  exact .inl (Option.some.inj hnext).symm

end Ways

/-! ## Patterns -/

section Patterns

variable (flags : Flags) (subject : Text)

mutual

/-- The ways of a term. A lookaround holds on a gap if its body has a way from it, or, if it is
    negated, if its body has none. A backreference has no way. -/
def Term.ways : Term → (dir : Direction) → Ways dir subject.size
  | .char e, dir => .single (Ways.charGoal flags subject dir e) Ways.charGoal_ahead
  | .anchor a, dir =>
    .single (Ways.gapGoal fun pos => a.holds flags subject (dir.gap pos)) Ways.gapGoal_ahead
  | .look look negated body, dir =>
    .single (Ways.gapGoal fun pos =>
      ((Pattern.ways body look).list (look.cursor (dir.gap pos))).isEmpty == negated)
      Ways.gapGoal_ahead
  | .group tag body, dir => (Pattern.ways body dir).mapCaptures (tag.capture dir)
  | .repeated atom q, dir => .repetition q (Term.ways atom dir)
  | .backreference _, _ => .never
termination_by structural t => t

/-- The ways of each term of a branch. -/
def Branch.termWays : Branch → (dir : Direction) → List (Ways dir subject.size)
  | [], _ => []
  | t :: ts, dir => Term.ways t dir :: Branch.termWays ts dir
termination_by structural ts => ts

/-- The ways of each branch of a pattern. -/
def Pattern.branchWays : Pattern → (dir : Direction) → List (Ways dir subject.size)
  | [], _ => []
  | b :: bs, dir => .sequence (Branch.termWays b dir) :: Pattern.branchWays bs dir
termination_by structural bs => bs

/-- The ways of a pattern. -/
def Pattern.ways : Pattern → (dir : Direction) → Ways dir subject.size
  | [], _ => .choice []
  | b :: bs, dir => .choice (.sequence (Branch.termWays b dir) :: Pattern.branchWays bs dir)
termination_by structural bs => bs

end

/-- A pattern chooses among its branches, also if it has none. -/
theorem Pattern.ways_eq_choice (p : Pattern) (dir : Direction) :
    p.ways flags subject dir = .choice (p.branchWays flags subject dir) := by
  cases p <;> rfl

theorem Branch.termWays_eq (b : Branch) (dir : Direction) :
    b.termWays flags subject dir = b.map fun t => t.ways flags subject dir := by
  induction b with
  | nil => rfl
  | cons t b ih =>
    rw [List.map_cons, ← ih]
    rfl

/-- The ways of a branch. -/
def Branch.ways (b : Branch) (dir : Direction) : Ways dir subject.size :=
  .sequence (Branch.termWays flags subject b dir)

theorem Pattern.branchWays_eq (p : Pattern) (dir : Direction) :
    p.branchWays flags subject dir = p.map fun b => b.ways flags subject dir := by
  induction p with
  | nil => rfl
  | cons b p ih =>
    rw [List.map_cons, ← ih]
    rfl

end Patterns

/-- A part of a pattern that ways can be asked of: a term, a branch or a whole pattern. -/
inductive Part where
  | term (t : Term)
  | branch (b : Branch)
  | pattern (p : Pattern)

namespace Part

variable (flags : Flags) (subject : Text)

/-- The machine of a part. -/
def machine (part : Part) (dir : Direction) : Machine dir subject.size :=
  match part with
  | term t => Term.machine flags subject t dir
  | branch b => Branch.machine flags subject b dir
  | pattern p => Pattern.machine flags subject p dir

/-- The ways of a part. -/
def ways (part : Part) (dir : Direction) : Ways dir subject.size :=
  match part with
  | term t => Term.ways flags subject t dir
  | branch b => Branch.ways flags subject b dir
  | pattern p => Pattern.ways flags subject p dir

end Part

end Retrace
