import Retrace.Proofs.Match.Correspondence
import Retrace.Proofs.Match.Enumeration
import Retrace.Syntax.Parse

/-!
# Captures and where a pattern matches

What the groups of a pattern capture has no bearing on where the pattern matches: every decision of
the search depends on cursors alone. So a pattern without its numbers and names has the same ways as
with them, each with the same end, in the same order.

Two patterns differ in nothing but what their groups capture under if they are the same once all
numbers and names are taken away.

Results:

* `Part.ways_untagged`: a part has the ends it has without numbers and names.
* `Part.ends_of_untagged_eq`: parts that differ in numbers and names only are in lockstep.
-/

namespace Retrace

/-! ## Patterns without numbers and names -/

mutual

/-- The term with groups that capture nothing. -/
def Term.untagged : Term → Term
  | .char e => .char e
  | .anchor a => .anchor a
  | .look dir negated body => .look dir negated (Pattern.untagged body)
  | .group _ body => .group ⟨none, none⟩ (Pattern.untagged body)
  | .repeated atom q => .repeated (Term.untagged atom) q
  | .backreference target => .backreference target
termination_by structural t => t

/-- The branch with groups that capture nothing. -/
def Branch.untagged : Branch → Branch
  | [] => []
  | t :: ts => Term.untagged t :: Branch.untagged ts
termination_by structural ts => ts

/-- The pattern with groups that capture nothing. -/
def Pattern.untagged : Pattern → Pattern
  | [] => []
  | b :: bs => Branch.untagged b :: Pattern.untagged bs
termination_by structural bs => bs

end

/-- The part with groups that capture nothing. -/
def Part.untagged : Part → Part
  | term t => term t.untagged
  | branch b => branch b.untagged
  | pattern p => pattern p.untagged

/-! ## Ways without captures -/

/-- Runs that are at the same cursors, whatever they have captured. -/
def Correspondence.sameCursors : Correspondence where
  Cursor pos pos' := pos' = pos
  Captures _ _ := True
  cursor_eq_iff := by
    rintro a - b - rfl rfl
    exact Iff.rfl
  empty := trivial
  merge _ _ := trivial

/-- Parts that are in step at the same cursors have the same ends. -/
theorem Ways.InStep.ends_eq {dir dir' : Direction} {length length' : Nat} {w : Ways dir length}
    {w' : Ways dir' length'} (h : Ways.InStep .sameCursors w w') (pos : Int) :
    (w.list pos).map Outcome.index = (w'.list pos).map Outcome.index := by
  have hways : List.Forall₂ (Correspondence.Relates .sameCursors) (w.list pos) (w'.list pos) :=
    h rfl
  generalize w.list pos = os, w'.list pos = os' at hways
  induction hways with
  | nil => rfl
  | cons ho _ ih => exact congrArg₂ List.cons ho.1.symm ih

section Patterns

variable {flags : Flags} {subject : Text}

mutual

theorem Term.ways_untagged (t : Term) (dir : Direction) : Ways.InStep .sameCursors
    (t.ways flags subject dir) (t.untagged.ways flags subject dir) := by
  cases t with
  | char e =>
    refine Ways.char_inStep ?_ ?_
    · rintro pos - rfl
      rfl
    · rintro pos - cp rfl -
      rfl
  | anchor a =>
    refine Ways.gap_inStep ?_
    rintro pos - rfl
    rfl
  | look look negated body =>
    -- whether the body has a way does not depend on what its ways capture
    have hbody := Ways.pattern_inStep (Pattern.branchWays_untagged body look)
    refine Ways.gap_inStep ?_
    rintro pos - rfl
    rw [hbody.isEmpty_eq rfl]
  | group tag body =>
    have hbody := Ways.pattern_inStep (Pattern.branchWays_untagged body dir)
    exact Ways.mapCaptures_inStep hbody fun _ _ => trivial
  | repeated atom q => exact Ways.repetition_inStep q (Term.ways_untagged atom dir)
  | backreference target => exact Ways.never_inStep
termination_by structural t

theorem Branch.termWays_untagged (b : Branch) (dir : Direction) :
    List.Forall₂ (Ways.InStep .sameCursors) (b.termWays flags subject dir)
      (b.untagged.termWays flags subject dir) := by
  cases b with
  | nil => exact .nil
  | cons t b => exact .cons (Term.ways_untagged t dir) (Branch.termWays_untagged b dir)
termination_by structural b

theorem Pattern.branchWays_untagged (p : Pattern) (dir : Direction) :
    List.Forall₂ (Ways.InStep .sameCursors) (p.branchWays flags subject dir)
      (p.untagged.branchWays flags subject dir) := by
  cases p with
  | nil => exact .nil
  | cons b p =>
    have hb := dir.forall₂_arrange (Branch.termWays_untagged b dir)
    exact .cons (Ways.sequence_inStep hb fun _ _ _ => rfl) (Pattern.branchWays_untagged p dir)
termination_by structural p

end

variable (flags subject)

/-- A part and the part without numbers and names are in step at the same cursors. -/
theorem Part.ways_untagged (part : Part) (dir : Direction) : Ways.InStep .sameCursors
    (part.ways flags subject dir) (part.untagged.ways flags subject dir) := by
  cases part with
  | term t => exact Term.ways_untagged t dir
  | branch b =>
    have hb : List.Forall₂ (Ways.InStep .sameCursors) (b.termWays flags subject dir)
        (b.untagged.termWays flags subject dir) := Branch.termWays_untagged b dir
    exact Ways.sequence_inStep (dir.forall₂_arrange hb) fun _ _ _ => rfl
  | pattern p => exact Ways.pattern_inStep (Pattern.branchWays_untagged p dir)

/-- Parts that differ in numbers and names only have the same ends. -/
theorem Part.ends_eq_of_untagged_eq {part part' : Part} (h : part.untagged = part'.untagged)
    (dir : Direction) (pos : Int) : ((part.ways flags subject dir).list pos).map Outcome.index =
      ((part'.ways flags subject dir).list pos).map Outcome.index := by
  have hpart := (part.ways_untagged flags subject dir).ends_eq pos
  rw [h] at hpart
  exact hpart.trans ((part'.ways_untagged flags subject dir).ends_eq pos).symm

/-- Without their captures, the answers of a part to repeated requests are the ends of its ways. -/
theorem Part.reply_index_eq (part : Part) (dir : Direction) (pos : Int) (n : Nat) :
    ((part.machine flags subject dir).request.reply pos n .fresh).answer?.map
        (Option.map Outcome.index) =
      some (((part.ways flags subject dir).list pos).map Outcome.index)[n]? := by
  rw [part.reply_eq_ways, Option.map_some, List.getElem?_map]

end Patterns

/-- Captures have no bearing on where a part matches. Two parts that are the same but for the
    numbers and names that their groups capture under, which may be any or none, answer repeated
    requests from every position, in both directions, with ways that have the same ends in the same
    order, and tell with the same request that there is none left. -/
theorem Part.ends_of_untagged_eq {part part' : Part} (h : part.untagged = part'.untagged)
    (flags : Flags) (subject : Text) (dir : Direction) (pos : Int) : ∃ ends : List Int, ∀ n,
      ((part.machine flags subject dir).request.reply pos n .fresh).answer?.map
          (Option.map Outcome.index) = some ends[n]? ∧
      ((part'.machine flags subject dir).request.reply pos n .fresh).answer?.map
          (Option.map Outcome.index) = some ends[n]? := by
  refine ⟨((part.ways flags subject dir).list pos).map Outcome.index, fun n => ⟨?_, ?_⟩⟩
  · exact part.reply_index_eq flags subject dir pos n
  · rw [part'.reply_index_eq, part.ends_eq_of_untagged_eq flags subject h]

/-- `(?<x>a|ab)*(b)` and `(?:a|ab)*(?<y>b)` on `abab`. -/
theorem Part.ends_of_untagged_eq_of_repeated_group : ∃ p p' : Pattern,
    Pattern.parse (Text.ofString "(?<x>a|ab)*(b)").toList = .ok p ∧
    Pattern.parse (Text.ofString "(?:a|ab)*(?<y>b)").toList = .ok p' ∧
    (Part.pattern p).untagged = (Part.pattern p').untagged ∧
    ∃ ends : List Int, ∀ n,
      (((Part.pattern p).machine .none #[0x61, 0x62, 0x61, 0x62] .forward).request.reply 0 n
          .fresh).answer?.map (Option.map Outcome.index) = some ends[n]? ∧
      (((Part.pattern p').machine .none #[0x61, 0x62, 0x61, 0x62] .forward).request.reply 0 n
          .fresh).answer?.map (Option.map Outcome.index) = some ends[n]? := by
  obtain ⟨p, p', hp, hp', huntagged⟩ : ∃ p p' : Pattern,
      Pattern.parse (Text.ofString "(?<x>a|ab)*(b)").toList = .ok p ∧
      Pattern.parse (Text.ofString "(?:a|ab)*(?<y>b)").toList = .ok p' ∧
      (Part.pattern p).untagged = (Part.pattern p').untagged := by
    refine ⟨_, _, by with_unfolding_all rfl, by with_unfolding_all rfl, ?_⟩
    rfl
  exact ⟨p, p', hp, hp', huntagged, Part.ends_of_untagged_eq huntagged .none _ .forward 0⟩

end Retrace
