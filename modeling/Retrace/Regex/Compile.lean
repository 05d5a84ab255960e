import Retrace.Flags
import Retrace.Syntax.Numbering
import Retrace.Syntax.Parse
import Retrace.Syntax.Print

/-!
# Compiled expressions

A regular expression is a pattern whose groups are numbered from one, together with flags. A pattern
with backreferences has a text and a tree, but it does not compile.

Two facts read off a pattern's beginning tell that no match can start at some places of a subject:
every match begins with one certain code point, or every branch begins with `^`.

Results:

* `Regex.compile_eq_ok_iff`: what a text that compiles compiles to.
-/

namespace Retrace

/-- Why a text does not compile. -/
inductive CompileError where
  | invalid (e : SyntaxError)
  | unsupportedBackreference (target : GroupKey)
deriving DecidableEq, Repr

/-- The report of the error. -/
def CompileError.message : CompileError → String
  | invalid e => e.message
  | unsupportedBackreference target =>
    "backreference " ++ String.ofList target.print ++ " is not supported"

/-- A compiled regular expression. -/
structure Regex where
  /-- The pattern, its groups numbered from one. -/
  root : Pattern
  flags : Flags
  /-- How many capturing groups there are, within lookarounds too. -/
  groupCount : Nat
deriving BEq

/-- The regular expression that a text denotes under the given flags. -/
def Regex.compile (text : Input) (flags : Flags) : Except CompileError Regex :=
  match Pattern.parse text with
  | .error e => .error (.invalid e)
  | .ok p =>
    match p.backreferences with
    | target :: _ => .error (.unsupportedBackreference target)
    | [] =>
      let (root, next) := p.numbered 1
      .ok ⟨root, flags, next - 1⟩

/-- A text compiles to the pattern that it is read as, numbered from one, if the pattern has no
    backreferences. -/
theorem Regex.compile_eq_ok_iff {text : Input} {flags : Flags} {re : Regex} :
    Regex.compile text flags = .ok re ↔ ∃ p, Pattern.parse text = .ok p ∧ p.backreferences = [] ∧
      re = ⟨(p.numbered 1).1, flags, (p.numbered 1).2 - 1⟩ := by
  unfold Regex.compile
  cases Pattern.parse text with
  | error e => simp
  | ok p =>
    constructor
    · intro h
      cases hb : p.backreferences with
      | nil => simp only [hb] at h; exact ⟨p, rfl, hb, (Except.ok.inj h).symm⟩
      | cons r refs => simp [hb] at h
    · rintro ⟨_, ⟨⟩, hb, rfl⟩
      simp [hb]

/-! ## Where a match can start -/

/-- The literal with which a branch begins, if it does, perhaps behind `^`. -/
def Branch.firstLiteral? : Branch → Option CodePoint
  | .char (.literal cp) :: _ => some cp
  | .anchor .start :: .char (.literal cp) :: _ => some cp
  | _ => none

/-- Whether a branch begins with `^`. -/
def Branch.startsAnchored : Branch → Bool
  | .anchor .start :: _ => true
  | _ => false

namespace Regex

/-- The code point with which every match begins, if the pattern's only branch begins with a literal
    and case counts. -/
def firstLiteral? (re : Regex) : Option CodePoint :=
  if re.flags.ignoreCase then none
  else match re.root with
    | [b] => Branch.firstLiteral? b
    | _ => none

/-- Whether every match begins at the subject's beginning, because each branch begins with `^` and
    `^` holds nowhere else. -/
def isAnchored (re : Regex) : Bool :=
  !re.flags.multiline && !re.root.isEmpty && re.root.all Branch.startsAnchored

end Regex

end Retrace
