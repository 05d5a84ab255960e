import Retrace.Syntax.Print

/-!
# Outlines

A pattern shown as an indented list with one line for each part: a line for every pattern, branch
and term, the parts of a term one step further in.
-/

namespace Retrace

/-- A line of an outline: how far in it stands, and its text. -/
structure OutlineLine where
  depth : Nat
  text : List Char
deriving DecidableEq, Repr

/-- The line as written: two blanks for each step in, the text, a newline. -/
def OutlineLine.render (line : OutlineLine) : List Char :=
  List.replicate (2 * line.depth) ' ' ++ line.text ++ ['\n']

/-- The outline text of what matches one code point. -/
def CharExpr.outline (e : CharExpr) : List Char :=
  match e with
  | literal cp =>
    "char ".toList ++ e.print ++ " (U+".toList ++ Numeral.writePadded 16 4 cp ++ [')']
  | any => "dot".toList
  | escape _ => "predefined ".toList ++ e.print
  | bracket .. => "class ".toList ++ e.print

/-- The outline text of an anchor. -/
def Anchor.outline (a : Anchor) : List Char :=
  match a with
  | start => "begin".toList
  | finish => "end".toList
  | wordBoundary _ => "word boundary ".toList ++ a.print

/-- The outline text of a quantifier. -/
def Quantifier.outline (q : Quantifier) : List Char :=
  "quantified ".toList ++ '{' :: Numeral.write 10 q.min ++ ',' ::
    ((match q.max with
      | some max => Numeral.write 10 max
      | none => []) ++ '}' :: (if q.lazy then " lazy" else " greedy").toList)

/-- The outline text of a group. -/
def GroupTag.outline (tag : GroupTag) : List Char :=
  match tag.number, tag.name with
  | none, _ => "group".toList
  | some n, none => "capture #".toList ++ Numeral.write 10 n
  | some n, some name =>
    "capture #".toList ++ Numeral.write 10 n ++ " <".toList ++ name.toList ++ ['>']

/-- The outline text of a lookaround. -/
def Direction.outline (dir : Direction) (negated : Bool) : List Char :=
  (match dir with
    | forward => "lookahead"
    | backward => "lookbehind").toList ++ (if negated then " not" else "").toList

mutual

/-- The outline of a term at the given depth. -/
def Term.outline (depth : Nat) : Term → List OutlineLine
  | .char e => [⟨depth, e.outline⟩]
  | .anchor a => [⟨depth, a.outline⟩]
  | .look dir negated body => ⟨depth, dir.outline negated⟩ :: Pattern.outline (depth + 1) body
  | .group tag body => ⟨depth, tag.outline⟩ :: Pattern.outline (depth + 1) body
  | .repeated atom q => ⟨depth, q.outline⟩ :: Term.outline (depth + 1) atom
  | .backreference target => [⟨depth, "backreference ".toList ++ target.print⟩]
termination_by structural t => t

/-- The outlines of terms at the given depth, one after another. -/
def Branch.outlineTerms (depth : Nat) : Branch → List OutlineLine
  | [] => []
  | t :: ts => Term.outline depth t ++ Branch.outlineTerms depth ts
termination_by structural ts => ts

/-- The outlines of branches at the given depth, one after another. -/
def Pattern.outlineBranches (depth : Nat) : Pattern → List OutlineLine
  | [] => []
  | b :: bs =>
    ⟨depth, "alternative".toList⟩ ::
      (Branch.outlineTerms (depth + 1) b ++ Pattern.outlineBranches depth bs)
termination_by structural bs => bs

/-- The outline of a pattern at the given depth. -/
def Pattern.outline (depth : Nat) : Pattern → List OutlineLine
  | [] => [⟨depth, "disjunction".toList⟩]
  | b :: bs =>
    ⟨depth, "disjunction".toList⟩ :: ⟨depth + 1, "alternative".toList⟩ ::
      (Branch.outlineTerms (depth + 2) b ++ Pattern.outlineBranches (depth + 1) bs)
termination_by structural bs => bs

end

/-- The outline of a pattern as text. -/
def Pattern.outlineText (p : Pattern) : String :=
  String.ofList ((p.outline 0).flatMap OutlineLine.render)

end Retrace
