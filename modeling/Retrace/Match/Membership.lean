import Retrace.Flags
import Retrace.Syntax.Term

/-!
# Which code points match

Predicates on one code point: the fixed classes, and whether a literal, a bracket class or a class
escape accepts it. Literals and ranges can disregard case; a class escape never does.
-/

namespace Retrace

namespace CodePoint

/-- Whether the code point ends a line. -/
def isLineTerminator (cp : CodePoint) : Bool :=
  cp = 0x0A || cp = 0x0D || cp = 0x2028 || cp = 0x2029

/-- Whether the code point is an ASCII digit. -/
def isDigit (cp : CodePoint) : Bool := 0x30 ≤ cp && cp ≤ 0x39

/-- Whether the code point is an ASCII letter, an ASCII digit or an underscore. -/
def isWord (cp : CodePoint) : Bool :=
  isDigit cp || (0x41 ≤ cp && cp ≤ 0x5A) || (0x61 ≤ cp && cp ≤ 0x7A) || cp = 0x5F

/-- Whether the code point is white space: tabs, line breaks, the space separators and the byte
    order mark. -/
def isSpace (cp : CodePoint) : Bool :=
  (0x09 ≤ cp && cp ≤ 0x0D) || cp = 0x20 || cp = 0x85 || cp = 0xA0 || cp = 0x1680 ||
  (0x2000 ≤ cp && cp ≤ 0x200A) || cp = 0x2028 || cp = 0x2029 || cp = 0x202F || cp = 0x205F ||
  cp = 0x3000 || cp = 0xFEFF

/-- The form in which code points are compared without regard to case. -/
def fold (cp : CodePoint) : CodePoint := (Unicode.uppercase? cp).getD cp

/-- Whether the literal `expected` matches `cp`. -/
def matchesLiteral (flags : Flags) (expected cp : CodePoint) : Bool :=
  expected = cp || (flags.ignoreCase && fold expected = fold cp)

/-- Whether the code point lies in a range. -/
def isWithin (lo hi cp : CodePoint) : Bool := lo ≤ cp && cp ≤ hi

/-- Whether a range matches the code point: without regard to case, also if one of its case forms
    lies in the range. -/
def matchesRange (flags : Flags) (lo hi cp : CodePoint) : Bool :=
  isWithin lo hi cp ||
    (flags.ignoreCase &&
      ((Unicode.uppercase? cp).any (isWithin lo hi) ||
        (Unicode.lowercase? cp).any (isWithin lo hi)))

end CodePoint

open CodePoint

/-- Whether the class, not negated, holds the code point. -/
def ClassKind.accepts : ClassKind → CodePoint → Bool
  | digit, cp => isDigit cp
  | space, cp => isSpace cp
  | word, cp => isWord cp
  | property _ _ p, cp => p.contains cp

/-- Whether the class escape accepts the code point. -/
def ClassEscape.accepts (e : ClassEscape) (cp : CodePoint) : Bool := e.kind.accepts cp != e.negated

/-- Whether the member of a bracket class accepts the code point. -/
def ClassMember.accepts (flags : Flags) : ClassMember → CodePoint → Bool
  | literal expected, cp => matchesLiteral flags expected cp
  | range lo hi, cp => matchesRange flags lo hi cp
  | escape e, cp => e.accepts cp

/-- Whether the expression matches the code point. The dot leaves out line terminators in multiline
    mode only. -/
def CharExpr.accepts (flags : Flags) : CharExpr → CodePoint → Bool
  | literal expected, cp => matchesLiteral flags expected cp
  | any, cp => !(flags.multiline && isLineTerminator cp)
  | escape e, cp => e.accepts cp
  | bracket negated members, cp => (members.any fun m => m.accepts flags cp) != negated

end Retrace
