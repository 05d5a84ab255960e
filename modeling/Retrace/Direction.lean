/-!
# Scan directions

A pattern is matched forwards, as its text is read, or backwards, as a lookbehind needs it.
Positions are integers: going forwards a cursor at `p` reads the code point at `p` and moves to
`p + 1`, going backwards it reads the same code point and moves to `p - 1`, so that it may end at
`-1`.

The gaps between code points do not depend on the direction: gap `g` lies before the code point at
`g`, and a backward cursor at `p` sits on gap `p + 1`.
-/

namespace Retrace

/-- The direction of a scan. -/
inductive Direction where
  | forward
  | backward
deriving DecidableEq, Repr

namespace Direction

/-- How far reading one code point moves the cursor. -/
def step : Direction → Int
  | forward => 1
  | backward => -1

/-- The gap on which a cursor at `pos` sits. -/
def gap (dir : Direction) (pos : Int) : Int :=
  match dir with
  | forward => pos
  | backward => pos + 1

/-- The cursor that sits on the given gap. -/
def cursor (dir : Direction) (gap : Int) : Int :=
  match dir with
  | forward => gap
  | backward => gap - 1

@[simp] theorem gap_cursor (dir : Direction) (g : Int) : dir.gap (dir.cursor g) = g := by
  cases dir <;> simp [gap, cursor]

@[simp] theorem cursor_gap (dir : Direction) (pos : Int) : dir.cursor (dir.gap pos) = pos := by
  cases dir <;> simp [gap, cursor]

end Direction

end Retrace
