import Retrace.Match.Pattern
import Retrace.Regex.Compile

/-!
# Searching

A search tries the start positions of a subject from left to right and takes the first way of
matching at the first position that has one. Positions at which the expression cannot match are
passed over.

All matches of a subject are found in rounds. Each round searches what is left of the subject behind
the last match, one code point further on if that match was empty; the remainder counts as a subject
of its own, so that `^` holds at its beginning.

Results:

* `mem_candidates`: the start positions that a search may try.
-/

namespace Retrace

/-- The matched text of an expression or of one of its groups. Offsets count code points. -/
structure Capture where
  text : String
  start : Nat
  stop : Nat
deriving DecidableEq, Repr

namespace Capture

/-- What a span of a text captures, where the text begins at `offset` of the subject. -/
def ofSpan (text : Text) (span : Span) (offset : Nat) : Capture where
  text :=
    if span.start ≤ span.stop ∧ span.stop ≤ text.size then
      Text.decode (text.extract span.start span.stop).toList
    else ""
  start := span.start + offset
  stop := span.stop + offset

/-- The number of code points captured. -/
def length (c : Capture) : Nat := c.stop - c.start

/-- Whether nothing lies between the capture's ends. -/
def isEmpty (c : Capture) : Bool := c.start = c.stop

end Capture

/-- A match: the whole of it, and the groups that took part. -/
structure Match where
  whole : Capture
  groups : List (GroupKey × Capture)
  /-- How many groups the expression has. -/
  groupCount : Nat
deriving DecidableEq

namespace Match

/-- What is captured under a key. -/
def find? (m : Match) (key : GroupKey) : Option Capture :=
  (m.groups.find? fun e => e.1 = key).map Prod.snd

/-- The group with the given number; number zero is the whole match. -/
def group? (m : Match) (n : Nat) : Option Capture :=
  if n = 0 then some m.whole else m.find? (.number n)

/-- The group with the given name. -/
def named? (m : Match) (name : String) : Option Capture := m.find? (.name name)

/-- The number of groups, the whole match among them. -/
def length (m : Match) : Nat := m.groupCount + 1

/-- All groups by number, the whole match first. -/
def toList (m : Match) : List (Option Capture) := (List.range m.length).map m.group?

/-- The match that an outcome from `start` stands for, in a text that begins at `offset` of the
    subject. -/
def ofOutcome (text : Text) (start : Nat) (o : Outcome) (offset groupCount : Nat) : Match where
  whole :=
    let stop := if o.index < 0 then start else max o.index.toNat start
    Capture.ofSpan text ⟨start, stop⟩ offset
  groups := o.captures.entries.map fun (key, span) => (key, Capture.ofSpan text span offset)
  groupCount := groupCount

end Match

namespace Regex

/-- The ways of the expression in a subject, going forwards. -/
def machine (re : Regex) (subject : Text) : Machine .forward subject.size :=
  Pattern.machine re.flags subject re.root .forward

/-- The first way of matching at a start position. -/
def matchAt (re : Regex) (subject : Text) (start : Nat) : Option Outcome :=
  match (re.machine subject).request start .fresh with
  | .found o _ => some o
  | _ => none

/-- The start positions at which the expression may match, from left to right. -/
def candidates (re : Regex) (subject : Text) : List Nat :=
  (if re.isAnchored then [0] else List.range (subject.size + 1)).filter fun start =>
    match re.firstLiteral? with
    | some cp => subject[start]? = some cp
    | none => true

theorem mem_candidates {re : Regex} {subject : Text} {start : Nat} :
    start ∈ re.candidates subject ↔
      start ≤ subject.size ∧ (re.isAnchored → start = 0) ∧
        ∀ cp ∈ re.firstLiteral?, subject[start]? = some cp := by
  unfold candidates
  cases re.firstLiteral? <;> cases re.isAnchored <;> simp <;> omega

/-- A search: the start positions tried, and the last of them with its outcome if it matched. -/
structure Search where
  tried : List Nat
  hit : Option (Nat × Outcome)

/-- Tries start positions until one matches. -/
def searchAt (attempt : Nat → Option Outcome) : List Nat → Search
  | [] => ⟨[], none⟩
  | start :: starts =>
    match attempt start with
    | some o => ⟨[start], some (start, o)⟩
    | none =>
      let later := searchAt attempt starts
      ⟨start :: later.tried, later.hit⟩

/-- The search of a subject. -/
def search (re : Regex) (subject : Text) : Search :=
  searchAt (re.matchAt subject) (re.candidates subject)

/-- The leftmost match. -/
def exec? (re : Regex) (subject : Text) : Option Match :=
  (re.search subject).hit.map fun (start, o) => Match.ofOutcome subject start o 0 re.groupCount

/-- The match at a start position, without a search. -/
def execAt? (re : Regex) (subject : Text) (start : Nat) : Option Match :=
  if start ≤ subject.size then
    (re.matchAt subject start).map fun o => Match.ofOutcome subject start o 0 re.groupCount
  else none

/-- Whether there is a match. -/
def isMatch (re : Regex) (subject : Text) : Bool := (re.exec? subject).isSome

/-- The text of the leftmost match. -/
def findText? (re : Regex) (subject : Text) : Option String :=
  (re.exec? subject).map fun m => m.whole.text

/-- The offset of the leftmost match. -/
def offset? (re : Regex) (subject : Text) : Option Nat :=
  (re.exec? subject).map fun m => m.whole.start

/-! ## All matches -/

/-- One round of finding all matches: the start positions tried, counted in the remainder, and the
    match found. -/
structure Round where
  tried : List Nat
  hit : Option Capture

/-- The rounds on the part of the subject from `offset` on. -/
def rounds (re : Regex) (subject : Text) (offset : Nat) : List Round :=
  if offset ≤ subject.size then
    let rest := subject.extract offset subject.size
    let search := re.search rest
    match search.hit with
    | none => [⟨search.tried, none⟩]
    | some (start, o) =>
      let whole := (Match.ofOutcome rest start o offset re.groupCount).whole
      ⟨search.tried, some whole⟩ :: re.rounds subject (whole.start + max whole.length 1)
  else []
termination_by subject.size + 1 - offset
decreasing_by
  simp only [Match.ofOutcome, Capture.ofSpan]
  omega

/-- All matches, from left to right. -/
def findAll (re : Regex) (subject : Text) : List Capture :=
  (re.rounds subject 0).filterMap Round.hit

end Regex

end Retrace
