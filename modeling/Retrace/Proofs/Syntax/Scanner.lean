import Retrace.Proofs.Syntax.Cursor
import Retrace.Syntax.Opening

/-!
# Scanning patterns

The pattern grammar by recursive descent, one scanner for each production. Each moves the cursor
over what it reads; a quantifier that turns out not to be one and hexadecimal digits that are too
few are left unread. Where a loop is needed, one of its turns is a scanner of its own. The
productions call each other in a circle, which is cut at the body of a group or lookaround: they
take the scanner of such a body as a parameter, and `Scan.pattern` bounds how deep bodies may lie in
each other.
-/

namespace Retrace

namespace Scan

variable {text : Input}

/-! ## Quantifiers -/

/-- A turn of `number`: the next digit, where `value` has been read from `start` on. -/
def numberTurn (start : Nat) (value : Option Nat) :
    Scan text (Turn (Option Nat) (Option Nat)) := do
  match (← peek?).bind (Numeral.digit? 10) with
  | none => return .done value
  | some d =>
    if 10 * value.getD 0 + d < Input.numberBound then
      skip 1
      return .again (some (10 * value.getD 0 + d))
    else fail start .numberTooLarge

/-- The decimal number at the cursor, if there is a digit. -/
def number : Scan text (Option Nat) := do
  let start ← position
  loop (numberTurn start) none

/-- The bounds behind an opening brace, wherever the cursor is left if there are none. -/
def bracedBounds : Scan text (Option (Nat × Option Nat)) := do
  match ← number with
  | none => return none
  | some min =>
    if ← eat '}' then return some (min, some min)
    else if ← eat ',' then
      if ← eat '}' then return some (min, none)
      else
        match ← number with
        | none => return none
        | some max => if ← eat '}' then return some (min, some max) else return none
    else return none

/-- The bounds in the braces at the cursor, which is put back if there are none. -/
def braceBounds : Scan text (Option (Nat × Option Nat)) := do
  let start ← position
  skip 1
  let bounds ← bracedBounds
  if bounds.isNone then seek start
  return bounds

/-- Whether a quantifier in braces stands at the cursor, which is put back in any case. -/
def braceQuantifierAhead : Scan text Bool := do
  let start ← position
  let bounds ← attempt braceBounds
  seek start
  match bounds with
  | .ok none => return false
  | _ => return true

/-- The bounds of the quantifier at the cursor, if there is one. -/
def bounds : Scan text (Option (Nat × Option Nat)) := do
  match ← peek? with
  | none => return none
  | some ch =>
    match ch with
    | '*' =>
      skip 1
      return some (0, none)
    | '+' =>
      skip 1
      return some (1, none)
    | '?' =>
      skip 1
      return some (0, some 1)
    | '{' => braceBounds
    | _ => return none

/-- The quantifier at the cursor, if there is one. -/
def quantifier : Scan text (Option Quantifier) := do
  let start ← position
  match ← bounds with
  | none => return none
  | some (min, max) =>
    if max.any (· < min) then fail start .quantifierOutOfOrder
    else return some ⟨min, max, ← eat '?'⟩

/-! ## Escapes -/

/-- The number that hexadecimal digits write from an offset on, behind those of `value`. -/
def hexAhead (value offset : Nat) : Nat → Scan text (Option Nat)
  | 0 => return some value
  | count + 1 => do
    match (← peekAt? offset).bind (Numeral.digit? 16) with
    | some d => hexAhead (16 * value + d) (offset + 1) count
    | none => return none

/-- Exactly `count` hexadecimal digits, or nothing at all. -/
def hex (count : Nat) : Scan text (Option Nat) := do
  match ← hexAhead 0 0 count with
  | some value =>
    skip count
    return some value
  | none => return none

/-- A turn of `bracedHex`: the next digit, where `value` has been read. -/
def bracedHexTurn (start : Nat) (value : Option Nat) :
    Scan text (Turn (Option Nat) (Option Nat)) := do
  match (← peek?).bind (Numeral.digit? 16) with
  | none => return .done value
  | some d =>
    if CodePoint.last < 16 * value.getD 0 + d then fail start .invalidUnicodeEscape
    else
      skip 1
      return .again (some (16 * value.getD 0 + d))

/-- The code point in the braces at the cursor. -/
def bracedHex (start : Nat) : Scan text CodePoint := do
  skip 1
  match ← loop (bracedHexTurn start) none with
  | some value => if ← eat '}' then return value else fail start .invalidUnicodeEscape
  | none => fail start .invalidUnicodeEscape

/-- The code point that an escape denotes, with the cursor behind its backslash. -/
def charEscape (start : Nat) : Scan text CodePoint := do
  match ← advance? with
  | none => fail start .trailingBackslash
  | some cp =>
    match cp.toChar with
    | 'f' => return 0x0C
    | 'n' => return 0x0A
    | 'r' => return 0x0D
    | 't' => return 0x09
    | 'v' => return 0x0B
    | '0' => return 0x00
    | 'c' =>
      match ← peek? with
      | some letter =>
        if Input.isLetter letter then
          skip 1
          return CodePoint.ofChar letter % 32
        else return cp
      | none => return cp
    | 'x' => return (← hex 2).getD cp
    | 'u' =>
      if (← peek?) = some '{' then bracedHex start else return (← hex 4).getD cp
    | _ => return cp

/-- A turn of `groupName`: the next character of the name, or the bracket behind it. -/
def nameTurn (start : Nat) (name : List Char) : Scan text (Turn (List Char) (List Char)) := do
  match ← peek? with
  | none => fail start .invalidGroupName
  | some ch =>
    if ch = '>' then
      skip 1
      return .done name
    else if Input.isNameChar ch then
      skip 1
      return .again (name ++ [ch])
    else fail start .invalidGroupName

/-- The name of a group up to its closing angle bracket. -/
def groupName : Scan text String := do
  let start ← position
  let name ← loop (nameTurn start) []
  if name.head?.all Input.isDecimal then fail start .invalidGroupName
  else return String.ofList name

/-- A turn of `property`: the next character of its text, or the brace behind it. -/
def propertyTurn (start : Nat) (chars : List Char) : Scan text (Turn (List Char) (List Char)) := do
  match ← peek? with
  | none => fail start .invalidPropertyEscape
  | some ch =>
    skip 1
    if ch = '}' then return .done chars else return .again (chars ++ [ch])

/-- The property escape with the given characters in its braces. -/
def propertyOf (start : Nat) (negated : Bool) (chars : List Char) : Scan text ClassEscape :=
  let (name, value) := Input.propertyParts chars
  if value = "" ∨ name = some "" then fail start .invalidPropertyEscape
  else
    match Unicode.Property.resolve? name value with
    | some property => return ⟨.property name value property, negated⟩
    | none => fail start (.unknownProperty (String.ofList chars))

/-- The property escape whose `p` has been read. -/
def property (start : Nat) (negated : Bool) : Scan text ClassEscape := do
  if ← eat '{' then propertyOf start negated (← loop (propertyTurn start) [])
  else fail start .invalidPropertyEscape

/-- The class that an escape denotes, if it denotes one, with the cursor behind its backslash. -/
def classEscape (start : Nat) : Scan text (Option ClassEscape) := do
  match ← peek? with
  | none => return none
  | some ch =>
    match ch with
    | 'd' => skip 1; return some ⟨.digit, false⟩
    | 'D' => skip 1; return some ⟨.digit, true⟩
    | 's' => skip 1; return some ⟨.space, false⟩
    | 'S' => skip 1; return some ⟨.space, true⟩
    | 'w' => skip 1; return some ⟨.word, false⟩
    | 'W' => skip 1; return some ⟨.word, true⟩
    | 'p' => skip 1; return some (← property start false)
    | 'P' => skip 1; return some (← property start true)
    | _ => return none

/-- The escape outside of brackets at the cursor. -/
def termEscape : Scan text Term := do
  let start ← position
  skip 1
  match ← classEscape start with
  | some e => return .char (.escape e)
  | none =>
    match ← peek 2 with
    | ['k', '<'] =>
      skip 2
      return .backreference (.name (← groupName))
    | _ =>
      if (← peek?).any fun c => '1' ≤ c && c ≤ '9' then
        match ← number with
        | some n => return .backreference (.number n)
        | none => fail start .numberTooLarge
      else return .char (.literal (← charEscape start))

/-! ## Bracket classes -/

/-- One literal or class escape of a bracket class. -/
def bracketAtom : Scan text ClassMember := do
  let start ← position
  if ← eat '\\' then
    match ← classEscape start with
    | some e => return .escape e
    | none =>
      if ← eat 'b' then return .literal 0x08
      else return .literal (← charEscape start)
  else
    match ← advance? with
    | some cp => return .literal cp
    | none => fail start .unterminatedClass

/-- Whether a hyphen that makes a range is at the cursor. -/
def rangeAhead : Scan text Bool := do
  match ← peek 2 with
  | ['-', ch] => return decide (ch ≠ ']')
  | _ => return false

/-- One member of a bracket class. -/
def bracketMember : Scan text ClassMember := do
  let start ← position
  let lo ← bracketAtom
  if ← rangeAhead then
    skip 1
    match lo, ← bracketAtom with
    | .literal lo, .literal hi =>
      if hi < lo then fail start .rangeOutOfOrder else return .range lo hi
    | _, _ => fail start .invalidClassRange
  else return lo

/-- A turn of `bracketClass`: the next member, or the closing bracket. -/
def bracketTurn (start : Nat) (members : List ClassMember) :
    Scan text (Turn (List ClassMember) (List ClassMember)) := do
  match ← peek? with
  | none => fail start .unterminatedClass
  | some ch =>
    if ch = ']' then
      skip 1
      return .done members
    else return .again (members ++ [← bracketMember])

/-- The bracket class at the cursor. -/
def bracketClass : Scan text CharExpr := do
  let start ← position
  skip 1
  let negated ← eat '^'
  return .bracket negated (← loop (bracketTurn start) [])

/-! ## Groups -/

/-- The name of a group that opens here, which no group before it may have. -/
def captureName : Scan text String := do
  let start ← position
  let name ← groupName
  if name ∈ (← get).names then fail start (.duplicateGroupName name)
  else
    modify fun c => { c with names := name :: c.names }
    return name

/-- What a group captures under whose parenthesis has been read. -/
def groupTag : Scan text GroupTag := do
  if ← eat '?' then
    if ← eat ':' then return ⟨none, none⟩
    else if ← eat '<' then return ⟨some 0, some (← captureName)⟩
    else fail (← position) .invalidGroup
  else return ⟨some 0, none⟩

section

variable (body : Scan text Pattern)

/-- The body and the closing parenthesis of what was opened at a position. -/
def enclosed (start : Nat) (o : Opening) : Scan text Term := do
  let p ← body
  if ← eat ')' then return o.close p else fail start .unterminatedGroup

/-- The group at the cursor. -/
def group : Scan text Term := do
  let start ← position
  skip 1
  enclosed body start (.group (← groupTag))

/-! ## Terms -/

/-- The anchor or lookaround at the cursor, if there is one. -/
def assertion : Scan text (Option Term) := do
  let start ← position
  match ← peek 4 with
  | '^' :: _ => skip 1; return some (.anchor .start)
  | '$' :: _ => skip 1; return some (.anchor .finish)
  | '\\' :: 'b' :: _ => skip 2; return some (.anchor (.wordBoundary false))
  | '\\' :: 'B' :: _ => skip 2; return some (.anchor (.wordBoundary true))
  | '(' :: '?' :: '=' :: _ => skip 3; return some (← enclosed body start (.look .forward false))
  | '(' :: '?' :: '!' :: _ => skip 3; return some (← enclosed body start (.look .forward true))
  | '(' :: '?' :: '<' :: '=' :: _ =>
    skip 4; return some (← enclosed body start (.look .backward false))
  | '(' :: '?' :: '<' :: '!' :: _ =>
    skip 4; return some (← enclosed body start (.look .backward true))
  | _ => return none

/-- The code point at the cursor, standing for itself. -/
def literal : Scan text Term := do
  match ← advance? with
  | some cp => return .char (.literal cp)
  | none => fail (← position) .nothingToRepeat

/-- What a quantifier may follow. -/
def atom : Scan text Term := do
  let start ← position
  match ← peek? with
  | none => fail start .nothingToRepeat
  | some ch =>
    match ch with
    | '.' => skip 1; return .char .any
    | '[' => return .char (← bracketClass)
    | '(' => group body
    | '\\' => termEscape
    | '*' => fail start .nothingToRepeat
    | '+' => fail start .nothingToRepeat
    | '?' => fail start .nothingToRepeat
    | '{' => if ← braceQuantifierAhead then fail start .nothingToRepeat else literal
    | _ => literal

/-- An assertion, or an atom and its quantifier. -/
def term : Scan text Term := do
  match ← assertion body with
  | some t =>
    let start ← position
    match ← quantifier with
    | some _ => fail start .nothingToRepeat
    | none => return t
  | none =>
    let t ← atom body
    match ← quantifier with
    | some q => return .repeated t q
    | none => return t

/-! ## Patterns -/

/-- A turn of `branch`: the next term, unless the branch ends here. -/
def branchTurn (terms : Branch) : Scan text (Turn Branch Branch) := do
  match ← peek? with
  | none => return .done terms
  | some ch =>
    if ch = ')' ∨ ch = '|' then return .done terms else return .again (terms ++ [← term body])

/-- Terms up to a bar, a closing parenthesis or the end of the text. -/
def branch : Scan text Branch := loop (branchTurn body) []

/-- A turn of `patternOver`: the branch behind the next bar, if there is one. -/
def patternTurn (branches : Pattern) : Scan text (Turn Pattern Pattern) := do
  if ← eat '|' then return .again (branches ++ [← branch body]) else return .done branches

/-- Branches up to a closing parenthesis or the end of the text. -/
def patternOver : Scan text Pattern := do
  let first ← branch body
  if (← peek?) = some '|' then loop (patternTurn body) [first]
  else if first.isEmpty then return []
  else return [first]

end

/-- The pattern at the cursor, of which groups and lookarounds may lie in each other less than
    `depth` deep. -/
def pattern : Nat → Scan text Pattern
  | 0 => throw .stuck
  | depth + 1 => patternOver (pattern depth)

/-- The pattern that the whole text denotes. Bodies cannot lie deeper in each other than the text is
    long. -/
def parse : Scan text Pattern := do
  let p ← pattern (text.length + 1)
  if (← position) < text.length then fail (← position) .unmatchedParen else return p

end Scan

end Retrace
