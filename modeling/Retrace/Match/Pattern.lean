import Retrace.Match.Assertion
import Retrace.Match.Choice
import Retrace.Match.Repetition
import Retrace.Match.Sequence

/-!
# Matching patterns

The machine of every term, branch and pattern on a subject. All parts of a pattern are matched in
the same direction, except for the bodies of lookarounds, which have directions of their own.
-/

namespace Retrace

/-- What a group adds to the captures of a way of its body: the span from the way's beginning to its
    end, under the group's number and, if it has one, its name. -/
def GroupTag.capture (tag : GroupTag) (dir : Direction) (entry : Int) (o : Outcome) : CaptureMap :=
  match tag.number with
  | none => o.captures
  | some n =>
    let span := Span.between dir entry o.index
    let captures := o.captures.insert (.number n) span
    match tag.name with
    | some name => captures.insert (.name name) span
    | none => captures

section Machines

variable (flags : Flags) (subject : Text)

mutual

/-- The ways of a term. A backreference has none. -/
def Term.machine : Term → (dir : Direction) → Machine dir subject.size
  | .char e, dir => .single (charTest flags subject dir e) charTest_ahead
  | .anchor a, dir => .single (anchorTest flags subject dir a) anchorTest_ahead
  | .look look negated body, dir =>
    .single (lookTest dir look negated (Pattern.machine body look).request) lookTest_ahead
  | .group tag body, dir => (Pattern.machine body dir).mapCaptures (tag.capture dir)
  | .repeated atom q, dir => .repetition q (Term.machine atom dir)
  | .backreference _, _ => .never
termination_by structural t => t

/-- The ways of each term of a branch. -/
def Branch.machines : Branch → (dir : Direction) → List (Machine dir subject.size)
  | [], _ => []
  | t :: ts, dir => Term.machine t dir :: Branch.machines ts dir
termination_by structural ts => ts

/-- The ways of each branch of a pattern. -/
def Pattern.machines : Pattern → (dir : Direction) → List (Machine dir subject.size)
  | [], _ => []
  | b :: bs, dir => .sequence (Branch.machines b dir) :: Pattern.machines bs dir
termination_by structural bs => bs

/-- The ways of a pattern. -/
def Pattern.machine : Pattern → (dir : Direction) → Machine dir subject.size
  | [], _ => .choice []
  | b :: bs, dir => .choice (.sequence (Branch.machines b dir) :: Pattern.machines bs dir)
termination_by structural bs => bs

end

/-- The ways of a branch. -/
def Branch.machine (b : Branch) (dir : Direction) : Machine dir subject.size :=
  .sequence (Branch.machines flags subject b dir)

end Machines

/-! ## Several ways at a time -/

/-- How the collection of ways ends. -/
inductive Ending where
  /-- As many ways as were wanted have been found. -/
  | limit (s : State)
  /-- There is no way left. -/
  | exhausted (s : State)
  /-- The state belonged to a part of another kind. -/
  | fault (s : State)

/-- The next ways from a state, at most `limit` of them. -/
def Machine.collect {dir : Direction} {length : Nat} (m : Machine dir length) (pos : Int) :
    (limit : Nat) → State → List Outcome × Ending
  | 0, s => ([], .limit s)
  | limit + 1, s =>
    match m.request pos s with
    | .found o s =>
      let (os, ending) := m.collect pos limit s
      (o :: os, ending)
    | .none s => ([], .exhausted s)
    | .fault s => ([], .fault s)

end Retrace
