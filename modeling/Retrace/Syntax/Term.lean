import Retrace.CodePoint
import Retrace.Direction
import Retrace.Unicode.Property

/-!
# Patterns as trees

A pattern is a list of branches, of which the first that leads to a match counts; a branch is a list
of terms that match one after another. The pattern without branches is the empty text or the body of
`()`; it matches the empty string, as does a branch without terms.
-/

namespace Retrace

/-- What the classes `\d`, `\s`, `\w` and `\p` are about. -/
inductive ClassKind where
  | digit
  | space
  | word
  /-- A property as it was written, with the set of code points that it names. -/
  | property (name : Option String) (value : String) (property : Unicode.Property)
deriving DecidableEq, Repr

/-- A class escape such as `\d`, or `\D` when negated. -/
structure ClassEscape where
  kind : ClassKind
  negated : Bool
deriving DecidableEq, Repr

/-- A member of a bracket class. -/
inductive ClassMember where
  | literal (cp : CodePoint)
  /-- The code points from `lo` to `hi`, both included. -/
  | range (lo hi : CodePoint)
  | escape (e : ClassEscape)
deriving DecidableEq, Repr

/-- What matches exactly one code point. -/
inductive CharExpr where
  | literal (cp : CodePoint)
  /-- The dot. -/
  | any
  | escape (e : ClassEscape)
  /-- A bracket class such as `[a-z]`, or `[^a-z]` when negated. -/
  | bracket (negated : Bool) (members : List ClassMember)
deriving DecidableEq, Repr

/-- A condition on a gap between code points. -/
inductive Anchor where
  /-- The anchor `^`. -/
  | start
  /-- The anchor `$`. -/
  | finish
  /-- The anchor `\b`, or `\B` when negated. -/
  | wordBoundary (negated : Bool)
deriving DecidableEq, Repr

/-- Bounds on a number of repetitions, and whether fewer are preferred to more. Without `max` there
    is no upper bound. -/
structure Quantifier where
  min : Nat
  max : Option Nat
  lazy : Bool
deriving DecidableEq, Repr

/-- Whether `count` repetitions stay within the upper bound. -/
def Quantifier.allows (q : Quantifier) (count : Nat) : Bool :=
  match q.max with
  | some max => count ≤ max
  | none => true

theorem Quantifier.allows_iff {q : Quantifier} {count : Nat} :
    q.allows count ↔ ∀ max ∈ q.max, count ≤ max := by
  unfold allows
  cases q.max with
  | none => simp
  | some max => simp

/-- How a group is referred to: by its number or by its name. -/
inductive GroupKey where
  | number (n : Nat)
  | name (name : String)
deriving DecidableEq, Repr

/-- What a group captures under: nothing, a number, or a number and a name. A group that is still to
    be numbered has the number zero. -/
structure GroupTag where
  number : Option Nat
  name : Option String
deriving DecidableEq, Repr

/-- A term of a branch. -/
inductive Term where
  | char (e : CharExpr)
  | anchor (a : Anchor)
  /-- A lookahead (forward) or lookbehind (backward). -/
  | look (dir : Direction) (negated : Bool) (body : List (List Term))
  | group (tag : GroupTag) (body : List (List Term))
  | repeated (atom : Term) (q : Quantifier)
  | backreference (target : GroupKey)
deriving BEq, Repr

/-- Terms that match one after another. -/
abbrev Branch := List Term

/-- Branches in order of preference. -/
abbrev Pattern := List Branch

/-- Whether the term is an anchor or a lookaround, which cannot be repeated. -/
def Term.isAssertion : Term → Bool
  | anchor _ | look .. => true
  | _ => false

end Retrace
