import Retrace.Match.Pattern
import Retrace.Syntax.Numbering

/-!
# Patterns without backreferences

What a backreference would match does not matter to a pattern that has none. This is said of
machines that are built like those of a pattern, except that backreferences match in any way
whatever.

Results:

* `Pattern.machineWith_eq`: where the backreferences of a pattern match as they do, the pattern
  does. In particular this is so if it has none.
-/

namespace Retrace

section Machines

variable (flags : Flags) (subject : Text)
  (refer : GroupKey → (dir : Direction) → Machine dir subject.size)

mutual

/-- The ways of a term whose backreferences have the ways of `refer`. -/
def Term.machineWith : Term → (dir : Direction) → Machine dir subject.size
  | .char e, dir => .single (charTest flags subject dir e) charTest_ahead
  | .anchor a, dir => .single (anchorTest flags subject dir a) anchorTest_ahead
  | .look look negated body, dir =>
    .single (lookTest dir look negated (Pattern.machineWith body look).request) lookTest_ahead
  | .group tag body, dir => (Pattern.machineWith body dir).mapCaptures (tag.capture dir)
  | .repeated atom q, dir => .repetition q (Term.machineWith atom dir)
  | .backreference target, dir => refer target dir
termination_by structural t => t

/-- The ways of each term of a branch whose backreferences have the ways of `refer`. -/
def Branch.machinesWith : Branch → (dir : Direction) → List (Machine dir subject.size)
  | [], _ => []
  | t :: ts, dir => Term.machineWith t dir :: Branch.machinesWith ts dir
termination_by structural ts => ts

/-- The ways of each branch of a pattern whose backreferences have the ways of `refer`. -/
def Pattern.machinesWith : Pattern → (dir : Direction) → List (Machine dir subject.size)
  | [], _ => []
  | b :: bs, dir => .sequence (Branch.machinesWith b dir) :: Pattern.machinesWith bs dir
termination_by structural bs => bs

/-- The ways of a pattern whose backreferences have the ways of `refer`. -/
def Pattern.machineWith : Pattern → (dir : Direction) → Machine dir subject.size
  | [], _ => .choice []
  | b :: bs, dir => .choice (.sequence (Branch.machinesWith b dir) :: Pattern.machinesWith bs dir)
termination_by structural bs => bs

end

end Machines

variable {flags : Flags} {subject : Text}
  {refer : GroupKey → (dir : Direction) → Machine dir subject.size}

/-- Whether `refer` gives no way to any backreference among the terms. -/
def NeverRefers (refer : GroupKey → (dir : Direction) → Machine dir subject.size)
    (ts : List Term) : Prop :=
  ∀ target, .backreference target ∈ ts → ∀ dir, refer target dir = .never

namespace NeverRefers

variable {t : Term} {ts us : List Term}

theorem of_cons (h : NeverRefers refer (t :: ts)) : NeverRefers refer ts :=
  fun target hmem => h target (List.mem_cons_of_mem t hmem)

theorem left (h : NeverRefers refer (ts ++ us)) : NeverRefers refer ts :=
  fun target hmem => h target (List.mem_append_left us hmem)

theorem right (h : NeverRefers refer (ts ++ us)) : NeverRefers refer us :=
  fun target hmem => h target (List.mem_append_right ts hmem)

end NeverRefers

mutual

theorem Term.machineWith_eq : (t : Term) → NeverRefers refer t.subterms → (dir : Direction) →
    t.machineWith flags subject refer dir = t.machine flags subject dir
  | .char _, _, _ | .anchor _, _, _ => rfl
  | .look look negated body, h, dir => by
    have hbody := Pattern.machineWith_eq body h.of_cons look
    simp only [Term.machineWith, Term.machine, hbody]
  | .group tag body, h, dir => by
    rw [Term.machineWith, Term.machine, Pattern.machineWith_eq body h.of_cons dir]
  | .repeated atom q, h, dir => by
    rw [Term.machineWith, Term.machine, Term.machineWith_eq atom h.of_cons dir]
  | .backreference target, h, dir => h target List.mem_cons_self dir
termination_by structural t => t

theorem Branch.machinesWith_eq : (b : Branch) → NeverRefers refer b.subterms →
    (dir : Direction) → b.machinesWith flags subject refer dir = b.machines flags subject dir
  | [], _, _ => rfl
  | t :: b, h, dir => by
    rw [Branch.machinesWith, Branch.machines, Term.machineWith_eq t h.left dir,
      Branch.machinesWith_eq b h.right dir]
termination_by structural b => b

theorem Pattern.machinesWith_eq : (p : Pattern) → NeverRefers refer p.subterms →
    (dir : Direction) → p.machinesWith flags subject refer dir = p.machines flags subject dir
  | [], _, _ => rfl
  | b :: p, h, dir => by
    rw [Pattern.machinesWith, Pattern.machines, Branch.machinesWith_eq b h.left dir,
      Pattern.machinesWith_eq p h.right dir]
termination_by structural p => p

/-- If the backreferences of a pattern have no way, as is the case in its own machine, or if there
    are none, the pattern has its own ways. -/
theorem Pattern.machineWith_eq (p : Pattern) (h : NeverRefers refer p.subterms)
    (dir : Direction) : p.machineWith flags subject refer dir = p.machine flags subject dir := by
  cases p with
  | nil => rfl
  | cons b p =>
    rw [Pattern.machineWith, Pattern.machine, Branch.machinesWith_eq b h.left dir,
      Pattern.machinesWith_eq p h.right dir]
termination_by structural p

end

end Retrace
