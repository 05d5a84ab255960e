import Retrace.Syntax.Opening

/-!
# Reading patterns

A pattern's text is read in one pass. What has been read of the pattern at hand is a list of
finished branches and the terms of the branch that is open; each group or lookaround that is open
lies on a stack, together with what had been read around it. Every step uses up part of the text.
-/

namespace Retrace

/-- A pattern of which the text has been read in part: finished branches and the terms of the open
    branch, both last first. -/
structure OpenPattern where
  branches : List Branch := []
  terms : Branch := []

namespace OpenPattern

/-- The open pattern after one more term. -/
def addTerm (p : OpenPattern) (t : Term) : OpenPattern := { p with terms := t :: p.terms }

/-- The open pattern after a bar. -/
def nextBranch (p : OpenPattern) : OpenPattern := { branches := p.terms.reverse :: p.branches }

/-- The whole pattern. Where no bar and no term has been read, it has no branch. -/
def finish (p : OpenPattern) : Pattern :=
  if p.branches.isEmpty && p.terms.isEmpty then []
  else (p.terms.reverse :: p.branches).reverse

end OpenPattern

/-- A group or lookaround whose body is being read: how it opened, the input from its parenthesis
    on, and the pattern around it. -/
structure OpenGroup where
  opening : Opening
  place : Input
  around : OpenPattern

namespace Input

/-- The pattern whose text is the input. So far, `stack` holds the open groups, innermost first,
    `p` what has been read of the innermost body, and `names` the group names in use. -/
def patternFrom (stack : List OpenGroup) (p : OpenPattern) (names : List String) (s : Input) :
    Reading Pattern :=
  match s with
  | [] =>
    match stack with
    | [] => .ok p.finish
    | g :: _ => .error ⟨.unterminatedGroup, g.place⟩
  | cp :: rest =>
    if cp.toChar = '|' then patternFrom stack p.nextBranch names rest
    else if cp.toChar = ')' then
      match stack with
      | [] => .error ⟨.unmatchedParen, s⟩
      | g :: outer =>
        match _hr : repeated (g.opening.close p.finish) rest with
        | .error e => .error e
        | .ok (t, rest) => patternFrom outer (g.around.addTerm t) names rest
    else
      match _he : element names (cp :: rest) with
      | .error e => .error e
      | .ok (.opening opening names, rest) =>
        patternFrom (⟨opening, s, p⟩ :: stack) {} names rest
      | .ok (.term t, rest) =>
        match _hr : repeated t rest with
        | .error e => .error e
        | .ok (t, rest) => patternFrom stack (p.addTerm t) names rest
termination_by s.length
decreasing_by
  · simp
  · exact Nat.lt_of_le_of_lt (repeated_suffix _hr).length_le (by simp)
  · exact (element_shorter _he).2
  · exact Nat.lt_of_le_of_lt (repeated_suffix _hr).length_le (element_shorter _he).2

end Input

/-- The pattern that a text denotes. Its capturing groups have the number zero. -/
def Pattern.parse (text : Input) : Except SyntaxError Pattern :=
  match Input.patternFrom [] {} [] text with
  | .ok p => .ok p
  | .error e => .error (e.inText text)

end Retrace
