import Retrace.Match.Machine
import Retrace.Match.Membership

/-!
# Single code points and gaps

What the smallest parts of a pattern ask of the subject: whether the code point at the cursor is
accepted, whether an anchor holds on the gap where the cursor sits, and whether a lookaround finds a
match that begins or ends on that gap.

Results:

* `charTest_ahead`, `anchorTest_ahead`, `lookTest_ahead`: each ends at or ahead of its beginning.
-/

namespace Retrace

/-- The code point at a position, if the position lies in the text. -/
def Text.at? (subject : Text) (pos : Int) : Option CodePoint :=
  if 0 ≤ pos then subject[pos.toNat]? else none

theorem Text.lt_size_of_at? {subject : Text} {pos : Int} {cp : CodePoint}
    (h : Text.at? subject pos = some cp) : 0 ≤ pos ∧ pos < subject.size := by
  unfold Text.at? at h
  split at h
  case isTrue hpos =>
    obtain ⟨hlt, _⟩ := Array.getElem?_eq_some_iff.1 h
    omega
  case isFalse => cases h

/-- Whether an anchor holds on a gap. In multiline mode `^` and `$` also hold beside a line
    terminator. Either end of the subject is a word boundary. -/
def Anchor.holds (flags : Flags) (subject : Text) (gap : Int) : Anchor → Bool
  | start =>
    gap = 0 ||
      (flags.multiline && (Text.at? subject (gap - 1)).any CodePoint.isLineTerminator)
  | finish =>
    gap = subject.size ||
      (flags.multiline && (Text.at? subject gap).any CodePoint.isLineTerminator)
  | wordBoundary negated =>
    (match Text.at? subject (gap - 1), Text.at? subject gap with
      | some before, some after => before.isWord != after.isWord
      | _, _ => true) != negated

section Tests

variable (flags : Flags) (subject : Text) (dir : Direction)

/-- One code point at the cursor, which moves past it. -/
def charTest (e : CharExpr) (pos : Int) : Reply Unit :=
  match Text.at? subject pos with
  | some cp => if e.accepts flags cp then .found (.bare (pos + dir.step)) () else .none ()
  | none => .none ()

/-- An anchor on the gap where the cursor sits. -/
def anchorTest (a : Anchor) (pos : Int) : Reply Unit :=
  if a.holds flags subject (dir.gap pos) then .found (.bare pos) () else .none ()

/-- A lookaround on the gap where the cursor sits, whose body is matched in the direction `look`.
    What the body captures is not kept. -/
def lookTest (look : Direction) (negated : Bool) (body : Request) (pos : Int) : Reply Unit :=
  match body (look.cursor (dir.gap pos)) .fresh with
  | .found _ _ => if negated then .none () else .found (.bare pos) ()
  | .none _ => if negated then .found (.bare pos) () else .none ()
  | .fault _ => .fault ()

variable {flags subject dir}

theorem charTest_ahead {e : CharExpr} {pos : Int} {o : Outcome}
    (h : charTest flags subject dir e pos = .found o ()) :
    Ahead dir subject.size pos o.index := by
  unfold charTest at h
  split at h
  case h_1 cp hcp =>
    split at h
    · cases h
      have := Text.lt_size_of_at? hcp
      right
      cases dir <;> simp only [Outcome.bare, Direction.room, Direction.step] <;> omega
    · cases h
  case h_2 => cases h

theorem anchorTest_ahead {a : Anchor} {pos : Int} {o : Outcome}
    (h : anchorTest flags subject dir a pos = .found o ()) :
    Ahead dir subject.size pos o.index := by
  unfold anchorTest at h
  split at h <;> cases h
  exact .refl pos

theorem lookTest_ahead {look : Direction} {negated : Bool} {body : Request} {pos : Int}
    {o : Outcome} (h : lookTest dir look negated body pos = .found o ()) :
    Ahead dir subject.size pos o.index := by
  unfold lookTest at h
  split at h
  · split at h <;> cases h
    exact .refl pos
  · split at h <;> cases h
    exact .refl pos
  · cases h

end Tests

end Retrace
