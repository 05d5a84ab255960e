import Retrace.Proofs.Match.Unordered
import Retrace.Proofs.Regex.Agreement

/-!
# Laziness

Whether a repetition is lazy tells in which order its ways come, and nothing else: a lazy search
gives a chain of ways before the longer ones, a greedy one behind them. So patterns that differ in
the laziness of their repetitions have the same ways, each as often in the one as in the other. They
match at the same start positions, although perhaps not up to the same end.

Two patterns differ in nothing but laziness if they are the same once all their repetitions are made
greedy.

Results:

* `Part.ways_greedy`: a part has the ways it has when its repetitions are made greedy.
* `Part.yields_perm_of_greedy_eq`: what parts have in common that differ in laziness only.
-/

namespace Retrace

/-! ## Patterns without laziness -/

mutual

/-- The term with all repetitions greedy. -/
def Term.greedy : Term → Term
  | .char e => .char e
  | .anchor a => .anchor a
  | .look dir negated body => .look dir negated (Pattern.greedy body)
  | .group tag body => .group tag (Pattern.greedy body)
  | .repeated atom q => .repeated (Term.greedy atom) { q with lazy := false }
  | .backreference target => .backreference target
termination_by structural t => t

/-- The branch with all repetitions greedy. -/
def Branch.greedy : Branch → Branch
  | [] => []
  | t :: ts => Term.greedy t :: Branch.greedy ts
termination_by structural ts => ts

/-- The pattern with all repetitions greedy. -/
def Pattern.greedy : Pattern → Pattern
  | [] => []
  | b :: bs => Branch.greedy b :: Pattern.greedy bs
termination_by structural bs => bs

end

/-- The part with all repetitions greedy. -/
def Part.greedy : Part → Part
  | term t => term t.greedy
  | branch b => branch b.greedy
  | pattern p => pattern p.greedy

section Patterns

variable {flags : Flags} {subject : Text}

mutual

theorem Term.ways_greedy (t : Term) (dir : Direction) :
    Ways.Compares .permutation (t.ways flags subject dir) (t.greedy.ways flags subject dir) := by
  cases t with
  | char e => exact Ways.Compares.refl _
  | anchor a => exact Ways.Compares.refl _
  | look look negated body =>
    have hbody := Ways.pattern_compares (Pattern.branchWays_greedy body look)
    have hholds : Term.ways flags subject (.look look negated body) dir =
        Term.ways flags subject (Term.greedy (.look look negated body)) dir :=
      Ways.gap_congr fun pos => by rw [List.Perm.isEmpty_eq (hbody _)]
    rw [hholds]
    exact Ways.Compares.refl _
  | group tag body =>
    exact Ways.mapCaptures_compares (Ways.pattern_compares (Pattern.branchWays_greedy body dir)) _
  | repeated atom q => exact Ways.repetition_compares q (Term.ways_greedy atom dir) false
  | backreference target => exact Ways.Compares.refl _
termination_by structural t

theorem Branch.termWays_greedy (b : Branch) (dir : Direction) :
    List.Forall₂ (Ways.Compares .permutation) (b.termWays flags subject dir)
      (b.greedy.termWays flags subject dir) := by
  cases b with
  | nil => exact .nil
  | cons t b => exact .cons (Term.ways_greedy t dir) (Branch.termWays_greedy b dir)
termination_by structural b

theorem Pattern.branchWays_greedy (p : Pattern) (dir : Direction) :
    List.Forall₂ (Ways.Compares .permutation) (p.branchWays flags subject dir)
      (p.greedy.branchWays flags subject dir) := by
  cases p with
  | nil => exact .nil
  | cons b p =>
    exact .cons (Ways.sequence_compares (Branch.termWays_greedy b dir))
      (Pattern.branchWays_greedy p dir)
termination_by structural p

end

variable (flags subject)

/-- A part has the ways that it has with all repetitions greedy, perhaps in another order. -/
theorem Part.ways_greedy (part : Part) (dir : Direction) :
    Ways.Compares .permutation (part.ways flags subject dir)
      (part.greedy.ways flags subject dir) := by
  cases part with
  | term t => exact Term.ways_greedy t dir
  | branch b => exact Ways.sequence_compares (Branch.termWays_greedy b dir)
  | pattern p => exact Ways.pattern_compares (Pattern.branchWays_greedy p dir)

/-- Parts that differ in laziness only have the same ways, up to their order. -/
theorem Part.ways_perm_of_greedy_eq {part part' : Part} (h : part.greedy = part'.greedy)
    (dir : Direction) (pos : Int) : ((part.ways flags subject dir).list pos).Perm
      ((part'.ways flags subject dir).list pos) := by
  have hpart := part.ways_greedy flags subject dir pos
  rw [h] at hpart
  exact hpart.trans (part'.ways_greedy flags subject dir pos).symm

end Patterns

/-! ## Searches -/

namespace Regex

variable {re re' : Regex}

theorem isSome_execAt?_eq_of_greedy_eq (hflags : re.flags = re'.flags)
    (hroot : re.root.greedy = re'.root.greedy) (subject : Text) (start : Nat) :
    (re.execAt? subject start).isSome = (re'.execAt? subject start).isSome := by
  have hparts : (Part.pattern re.root).greedy = (Part.pattern re'.root).greedy :=
    congrArg Part.pattern hroot
  have hperm : ((re.root.ways re'.flags subject .forward).list start).Perm
      ((re'.root.ways re'.flags subject .forward).list start) :=
    Part.ways_perm_of_greedy_eq re'.flags subject hparts .forward start
  have hnil : (re.root.ways re'.flags subject .forward).list start = [] ↔
      (re'.root.ways re'.flags subject .forward).list start = [] :=
    ⟨fun h => (h ▸ hperm).nil_eq.symm, fun h => (h ▸ hperm).eq_nil⟩
  rw [Bool.eq_iff_iff, isSome_execAt?_iff, isSome_execAt?_iff, hflags]
  exact and_congr_right fun _ => not_congr hnil

/-- The leftmost match begins at the same place, however lazy repetitions are. -/
theorem offset?_eq_of_greedy_eq (hflags : re.flags = re'.flags)
    (hroot : re.root.greedy = re'.root.greedy) (subject : Text) :
    re.offset? subject = re'.offset? subject :=
  offset?_eq fun start => isSome_execAt?_eq_of_greedy_eq hflags hroot subject start

end Regex

/-- Laziness has no bearing on which ways there are. Two parts that are the same but for the
    laziness of their repetitions, at any depth, have the same ways from every position, in both
    directions: repeated requests to the one are answered with a permutation of the answers to the
    other. So of two expressions that are the same but for laziness, both find a match or neither,
    and their leftmost matches begin at the same place. -/
theorem Part.yields_perm_of_greedy_eq :
    (∀ part part' : Part, part.greedy = part'.greedy →
      ∀ (flags : Flags) (subject : Text) (dir : Direction) (pos : Int), ∃ os os',
        Yields (part.machine flags subject dir).request pos .fresh os ∧
        Yields (part'.machine flags subject dir).request pos .fresh os' ∧ os.Perm os') ∧
    ∀ re re' : Regex, re.flags = re'.flags → re.root.greedy = re'.root.greedy →
      ∀ subject : Text, re.isMatch subject = re'.isMatch subject ∧
        re.offset? subject = re'.offset? subject := by
  refine ⟨fun part part' h flags subject dir pos => ?_, fun re re' hflags hroot subject => ?_⟩
  · have hperm := ways_perm_of_greedy_eq flags subject h dir pos
    exact ⟨_, _, part.machine_enumerates flags subject dir pos,
      part'.machine_enumerates flags subject dir pos, hperm⟩
  · have hoffset := Regex.offset?_eq_of_greedy_eq hflags hroot subject
    rw [Regex.isMatch_eq_isSome_offset?, Regex.isMatch_eq_isSome_offset?, hoffset]
    exact ⟨rfl, rfl⟩

/-- `(a|ab)*?(?=b+)` and `(a|ab)*(?=b+?)` on `aabb`. -/
theorem Part.yields_perm_of_greedy_eq_of_nested : ∃ p p' : Pattern,
    Pattern.parse (Text.ofString "(a|ab)*?(?=b+)").toList = .ok p ∧
    Pattern.parse (Text.ofString "(a|ab)*(?=b+?)").toList = .ok p' ∧ p.greedy = p'.greedy ∧
    (∃ os os',
      Yields ((Part.pattern p).machine .none #[0x61, 0x61, 0x62, 0x62] .forward).request 0
        .fresh os ∧
      Yields ((Part.pattern p').machine .none #[0x61, 0x61, 0x62, 0x62] .forward).request 0
        .fresh os' ∧ os.Perm os') ∧
    Regex.offset? ⟨p, .none, 1⟩ #[0x61, 0x61, 0x62, 0x62] =
      Regex.offset? ⟨p', .none, 1⟩ #[0x61, 0x61, 0x62, 0x62] := by
  obtain ⟨p, p', hp, hp', hgreedy⟩ : ∃ p p' : Pattern,
      Pattern.parse (Text.ofString "(a|ab)*?(?=b+)").toList = .ok p ∧
      Pattern.parse (Text.ofString "(a|ab)*(?=b+?)").toList = .ok p' ∧ p.greedy = p'.greedy := by
    refine ⟨_, _, by with_unfolding_all rfl, by with_unfolding_all rfl, ?_⟩
    rfl
  obtain ⟨hways, hsearch⟩ := Part.yields_perm_of_greedy_eq
  exact ⟨p, p', hp, hp', hgreedy,
    hways (.pattern p) (.pattern p') (congrArg Part.pattern hgreedy) .none _ .forward 0,
    (hsearch ⟨p, .none, 1⟩ ⟨p', .none, 1⟩ rfl hgreedy _).2⟩

end Retrace
