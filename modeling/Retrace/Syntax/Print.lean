import Retrace.Numeral
import Retrace.Syntax.Term

/-!
# Pattern text

The canonical text of a pattern. Quantifiers take their shortest form, and a code point that would
read as something else, a control character or a value that is no character is escaped.
-/

namespace Retrace

namespace CodePoint

/-- Whether the character stands for itself only behind a backslash, outside of brackets. -/
def isSyntax (c : Char) : Bool :=
  ['^', '$', '\\', '.', '*', '+', '?', '(', ')', '[', ']', '{', '}', '|'].contains c

/-- Whether the character stands for itself only behind a backslash, within brackets. -/
def isBracketSyntax (c : Char) : Bool := ['\\', ']', '[', '^', '-'].contains c

/-- Whether the code point is a control character: C0, delete or C1. -/
def isControl (cp : CodePoint) : Bool := cp < 0x20 || (0x7F ≤ cp && cp < 0xA0)

/-- The escape of a code point by its hexadecimal number. -/
def printHex (cp : CodePoint) : List Char := ['\\', 'u', '{'] ++ Numeral.write 16 cp ++ ['}']

/-- The text that reads as the given literal code point, where `special` says which characters need
    a backslash. -/
def print (special : Char → Bool) (cp : CodePoint) : List Char :=
  match cp with
  | 0x0A => ['\\', 'n']
  | 0x0D => ['\\', 'r']
  | 0x09 => ['\\', 't']
  | 0x0B => ['\\', 'v']
  | 0x0C => ['\\', 'f']
  | 0x00 => ['\\', '0']
  | _ =>
    if ¬cp.isValidChar ∨ isControl cp then printHex cp
    else if special cp.toChar then ['\\', cp.toChar]
    else [cp.toChar]

end CodePoint

/-- The text of a class escape. -/
def ClassEscape.print (e : ClassEscape) : List Char :=
  '\\' :: match e.kind with
  | .digit => [if e.negated then 'D' else 'd']
  | .space => [if e.negated then 'S' else 's']
  | .word => [if e.negated then 'W' else 'w']
  | .property name value _ =>
    (if e.negated then 'P' else 'p') :: '{' ::
      ((match name with
        | some name => name.toList ++ ['=']
        | none => []) ++ value.toList ++ ['}'])

/-- The text of a member of a bracket class. -/
def ClassMember.print : ClassMember → List Char
  | literal cp => cp.print CodePoint.isBracketSyntax
  | range lo hi =>
    lo.print CodePoint.isBracketSyntax ++ '-' :: hi.print CodePoint.isBracketSyntax
  | escape e => e.print

/-- The text of what matches one code point. -/
def CharExpr.print : CharExpr → List Char
  | literal cp => cp.print CodePoint.isSyntax
  | any => ['.']
  | escape e => e.print
  | bracket negated members =>
    '[' :: ((if negated then ['^'] else []) ++ members.flatMap ClassMember.print ++ [']'])

/-- The text of an anchor. -/
def Anchor.print : Anchor → List Char
  | start => ['^']
  | finish => ['$']
  | wordBoundary negated => ['\\', if negated then 'B' else 'b']

/-- The text of a reference to a group. -/
def GroupKey.print : GroupKey → List Char
  | .number n => '\\' :: Numeral.write 10 n
  | .name s => ['\\', 'k', '<'] ++ s.toList ++ ['>']

namespace Quantifier

/-- The text of a quantifier's bounds. -/
def printBounds (min : Nat) (max : Option Nat) : List Char :=
  match min, max with
  | 0, none => ['*']
  | 1, none => ['+']
  | 0, some 1 => ['?']
  | min, none => '{' :: Numeral.write 10 min ++ [',', '}']
  | min, some max =>
    if min = max then '{' :: Numeral.write 10 min ++ ['}']
    else '{' :: Numeral.write 10 min ++ ',' :: Numeral.write 10 max ++ ['}']

/-- The text of a quantifier. -/
def print (q : Quantifier) : List Char :=
  printBounds q.min q.max ++ if q.lazy then ['?'] else []

end Quantifier

/-- The text that opens a group. -/
def GroupTag.printOpening (tag : GroupTag) : List Char :=
  match tag.number, tag.name with
  | none, _ => ['(', '?', ':']
  | some _, none => ['(']
  | some _, some name => ['(', '?', '<'] ++ name.toList ++ ['>']

/-- The text that opens a lookaround. -/
def Direction.printOpening (dir : Direction) (negated : Bool) : List Char :=
  (match dir with
    | forward => ['(', '?']
    | backward => ['(', '?', '<']) ++ [if negated then '!' else '=']

mutual

/-- The text of a term. -/
def Term.print : Term → List Char
  | .char e => e.print
  | .anchor a => a.print
  | .look dir negated body => dir.printOpening negated ++ Pattern.print body ++ [')']
  | .group tag body => tag.printOpening ++ Pattern.print body ++ [')']
  | .repeated atom q => Term.print atom ++ q.print
  | .backreference target => target.print
termination_by structural t => t

/-- The text of a branch. -/
def Branch.print : Branch → List Char
  | [] => []
  | t :: ts => Term.print t ++ Branch.print ts
termination_by structural ts => ts

/-- The text of branches, each behind a bar. -/
def Pattern.printBarred : Pattern → List Char
  | [] => []
  | b :: bs => '|' :: (Branch.print b ++ Pattern.printBarred bs)
termination_by structural bs => bs

/-- The text of a pattern: its branches with bars between them. -/
def Pattern.print : Pattern → List Char
  | [] => []
  | b :: bs => Branch.print b ++ Pattern.printBarred bs
termination_by structural bs => bs

end

/-- The canonical text of a pattern, as a string. -/
def Pattern.text (p : Pattern) : String := String.ofList p.print

end Retrace
