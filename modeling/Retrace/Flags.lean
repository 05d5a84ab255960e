/-!
# Matching flags

The two options that every part of one match attempt shares.
-/

namespace Retrace

/-- The options of a match. -/
structure Flags where
  /-- Literals and ranges compare code points without regard to case. -/
  ignoreCase : Bool
  /-- `^` and `$` also hold at line terminators, and `.` no longer matches them. -/
  multiline : Bool
deriving DecidableEq, Repr

namespace Flags

/-- No option set. -/
def none : Flags := ⟨false, false⟩

/-- The flags as a number: one for case, two for lines. -/
def bits (flags : Flags) : Nat := flags.ignoreCase.toNat + 2 * flags.multiline.toNat

end Flags

end Retrace
