import Mathlib.Logic.Relation
import Retrace.Proofs.Match.Enumeration

/-!
# What a pattern covers

The plain meaning of a pattern is a relation between gaps of a subject: from which gap to which gap
the pattern covers the text. A branch is the composition of its terms, a pattern the union of its
branches, and a repetition the union of the powers of its atom within the bounds. Preference,
captures and the order of the search play no part in it, nor does the rule that a repetition beyond
the least number is not empty.

Scanning forwards from a gap finds the gaps that it is related to, and scanning backwards those that
are related to it (`Ways.Realizes`). For a repetition this says that empty repetitions can be left
out beyond the least number, whichever end the scan begins at (`repeatFrom_of_power`).

Results:

* `Part.ways_realize`: the ways of a part end at the gaps that it covers up to.
* `Part.covers_iff_gives`: requests find exactly what a part covers, in both directions.
-/

namespace Retrace

/-- A gap of a subject: before one of its code points, or at its end. -/
abbrev Gap (subject : Text) := Fin (subject.size + 1)

/-! ## Relations -/

section Relations

variable {α : Type}

/-- The composition of relations in a row. -/
def inTurn : List (α → α → Prop) → α → α → Prop
  | [] => Eq
  | R :: Rs => Relation.Comp R (inTurn Rs)

/-- The `k`-fold composition of a relation with itself. -/
def power (R : α → α → Prop) (k : Nat) : α → α → Prop := inTurn (List.replicate k R)

/-- A relation as a scan in the given direction meets it. -/
def Direction.orient (dir : Direction) (R : α → α → Prop) : α → α → Prop :=
  match dir with
  | forward => R
  | backward => flip R

theorem inTurn_append (Rs Ss : List (α → α → Prop)) :
    inTurn (Rs ++ Ss) = Relation.Comp (inTurn Rs) (inTurn Ss) := by
  induction Rs with
  | nil => exact Relation.eq_comp.symm
  | cons R Rs ih => rw [List.cons_append, inTurn, inTurn, ih, Relation.comp_assoc]

/-- Read against the scan, relations in a row come in reverse. -/
theorem flip_inTurn (Rs : List (α → α → Prop)) :
    flip (inTurn Rs) = inTurn (Rs.map flip).reverse := by
  induction Rs with
  | nil =>
    funext a b
    exact propext eq_comm
  | cons R Rs ih =>
    rw [List.map_cons, List.reverse_cons, inTurn_append, ← ih, inTurn, Relation.flip_comp]
    congr 1
    exact Relation.comp_eq.symm

theorem orient_inTurn (dir : Direction) (Rs : List (α → α → Prop)) :
    dir.orient (inTurn Rs) = inTurn (dir.arrange (Rs.map dir.orient)) := by
  cases dir with
  | forward =>
    rw [show Rs.map (Direction.orient .forward) = Rs from List.map_id Rs]
    rfl
  | backward => exact flip_inTurn Rs

theorem orient_power (dir : Direction) (R : α → α → Prop) (k : Nat) :
    dir.orient (power R k) = power (dir.orient R) k := by
  unfold power
  rw [orient_inTurn, List.map_replicate]
  cases dir
  · rfl
  · rw [Direction.arrange, List.reverse_replicate]

end Relations

/-! ## The meaning of a pattern -/

section Meaning

variable (flags : Flags) (subject : Text)

mutual

/-- From which gap to which gap a term covers the subject. An anchor or a lookaround covers nothing,
    on the gaps where it holds, and a backreference covers no stretch at all. -/
def Term.Covers : Term → Gap subject → Gap subject → Prop
  | .char e, a, b => b.val = a.val + 1 ∧ ∃ cp, subject[a.val]? = some cp ∧ e.accepts flags cp
  | .anchor anchor, a, b => a = b ∧ anchor.holds flags subject a.val
  | .look .forward negated body, a, b =>
    a = b ∧ ((∃ c, Pattern.Covers body a c) ↔ negated = false)
  | .look .backward negated body, a, b =>
    a = b ∧ ((∃ c, Pattern.Covers body c a) ↔ negated = false)
  | .group _ body, a, b => Pattern.Covers body a b
  | .repeated atom q, a, b =>
    ∃ k, q.min ≤ k ∧ (∀ max ∈ q.max, k ≤ max) ∧ power (Term.Covers atom) k a b
  | .backreference _, _, _ => False
termination_by structural t => t

/-- The composition of what the terms of a branch cover. -/
def Branch.Covers : Branch → Gap subject → Gap subject → Prop
  | [], a, b => a = b
  | t :: ts, a, b => Relation.Comp (Term.Covers t) (Branch.Covers ts) a b
termination_by structural ts => ts

/-- The union of what the given branches cover. -/
def Pattern.SomeCovers : Pattern → Gap subject → Gap subject → Prop
  | [], _, _ => False
  | b :: bs, a, c => Branch.Covers b a c ∨ Pattern.SomeCovers bs a c
termination_by structural bs => bs

/-- What one of the branches of a pattern covers. A pattern without branches covers nothing, on
    every gap. -/
def Pattern.Covers : Pattern → Gap subject → Gap subject → Prop
  | [], a, c => a = c
  | b :: bs, a, c => Branch.Covers b a c ∨ Pattern.SomeCovers bs a c
termination_by structural bs => bs

end

/-- From which gap to which gap a part of a pattern covers the subject. -/
def Part.Covers : Part → Gap subject → Gap subject → Prop
  | .term t => Term.Covers flags subject t
  | .branch b => Branch.Covers flags subject b
  | .pattern p => Pattern.Covers flags subject p

end Meaning

/-! ## Ways realize relations -/

theorem Direction.cursor_injective (dir : Direction) {a b : Int}
    (h : dir.cursor a = dir.cursor b) : a = b := by
  rw [← dir.gap_cursor a, h, dir.gap_cursor]

namespace Ways

variable {dir : Direction} {subject : Text}

/-- From every gap, the ways end on the gaps that the relation leads to. -/
def Realizes (w : Ways dir subject.size) (R : Gap subject → Gap subject → Prop) : Prop :=
  ∀ (g : Gap subject) (i : Int),
    (∃ o ∈ w.list (dir.cursor g.val), o.index = i) ↔
      ∃ h : Gap subject, i = dir.cursor h.val ∧ dir.orient R g h

theorem exists_mem_single {length : Nat} {goal : Int → Option Int}
    {hgoal : ∀ {pos next}, goal pos = some next → Ahead dir length pos next} {pos i : Int} :
    (∃ o ∈ (single goal hgoal).list pos, o.index = i) ↔ goal pos = some i := by
  simp [single, Outcome.bare]

/-- A condition on the gap realizes the identity where it holds. -/
theorem gap_realizes {holds : Int → Bool} {P : Gap subject → Prop}
    (h : ∀ g : Gap subject, holds (dir.cursor g.val) = true ↔ P g) :
    (single (gapGoal holds) gapGoal_ahead : Ways dir subject.size).Realizes
      fun a b => a = b ∧ P a := by
  intro g i
  have horient (b : Gap subject) : dir.orient (fun a b => a = b ∧ P a) g b ↔ b = g ∧ P g := by
    cases dir with
    | forward => exact and_congr_left fun _ => eq_comm
    | backward => exact and_congr_right fun he => he ▸ Iff.rfl
  simp only [exists_mem_single, gapGoal, horient, ← h g, Option.ite_none_right_eq_some,
    Option.some.injEq]
  constructor
  · rintro ⟨hg, rfl⟩
    exact ⟨g, rfl, rfl, hg⟩
  · rintro ⟨b, rfl, rfl, hg⟩
    exact ⟨hg, rfl⟩

/-- A scan that passes one code point moves its cursor by one step. -/
theorem cursor_of_orient_succ {P : Gap subject → Prop} {g h : Gap subject}
    (hgh : dir.orient (fun a b => b.val = a.val + 1 ∧ P a) g h) :
    dir.cursor h.val = dir.cursor g.val + dir.step := by
  cases dir with
  | forward =>
    have hval : h.val = g.val + 1 := hgh.1
    simp only [Direction.cursor, Direction.step]
    omega
  | backward =>
    have hval : g.val = h.val + 1 := hgh.1
    simp only [Direction.cursor, Direction.step]
    omega

/-- The code point that a scan from a gap reads lies between that gap and the next one. -/
theorem at?_cursor_eq_some {g : Gap subject} {cp : CodePoint} :
    Text.at? subject (dir.cursor g.val) = some cp ↔
      ∃ h : Gap subject,
        dir.orient (fun a b => b.val = a.val + 1 ∧ subject[a.val]? = some cp) g h := by
  have hg := g.isLt
  cases dir with
  | forward =>
    show Text.at? subject g.val = some cp ↔
      ∃ h : Gap subject, h.val = g.val + 1 ∧ subject[g.val]? = some cp
    rw [Text.at?, if_pos (by omega), Int.toNat_natCast]
    constructor
    · intro hcp
      obtain ⟨hlt, -⟩ := Array.getElem?_eq_some_iff.mp hcp
      exact ⟨⟨g.val + 1, by omega⟩, rfl, hcp⟩
    · rintro ⟨-, -, hcp⟩
      exact hcp
  | backward =>
    show Text.at? subject (g.val - 1) = some cp ↔
      ∃ h : Gap subject, g.val = h.val + 1 ∧ subject[h.val]? = some cp
    unfold Text.at?
    constructor
    · intro hcp
      obtain ⟨hpos, hcp⟩ := Option.ite_none_right_eq_some.mp hcp
      exact ⟨⟨((g.val : Int) - 1).toNat, by omega⟩, by simp only; omega, hcp⟩
    · rintro ⟨h, hgh, hcp⟩
      rw [if_pos (by omega), show ((g.val : Int) - 1).toNat = h.val by omega]
      exact hcp

/-- An accepted code point realizes the step over it. -/
theorem char_realizes {flags : Flags} {e : CharExpr} :
    (single (charGoal flags subject dir e) charGoal_ahead).Realizes
      fun a b : Gap subject =>
        b.val = a.val + 1 ∧ ∃ cp, subject[a.val]? = some cp ∧ e.accepts flags cp := by
  intro g i
  rw [exists_mem_single, charGoal, Option.ite_none_right_eq_some, Option.any_eq_true]
  simp only [at?_cursor_eq_some, Option.some.injEq]
  constructor
  · rintro ⟨⟨cp, ⟨h, hgh⟩, haccepts⟩, rfl⟩
    refine ⟨h, (cursor_of_orient_succ hgh).symm, ?_⟩
    cases dir <;> exact ⟨hgh.1, cp, hgh.2, haccepts⟩
  · rintro ⟨h, rfl, hgh⟩
    refine ⟨?_, (cursor_of_orient_succ hgh).symm⟩
    cases dir <;>
    · obtain ⟨hval, cp, hcp, haccepts⟩ := hgh
      exact ⟨cp, ⟨h, hval, hcp⟩, haccepts⟩

theorem never_realizes : (never : Ways dir subject.size).Realizes fun _ _ => False := by
  intro g i
  cases dir <;> simp [never, Direction.orient, flip]

theorem mapCaptures_realizes {w : Ways dir subject.size} {R : Gap subject → Gap subject → Prop}
    (h : w.Realizes R) (f : Int → Outcome → CaptureMap) : (w.mapCaptures f).Realizes R := by
  intro g i
  rw [← h g i]
  simp [mapCaptures]

/-- The chains of parts realize the composition of what the parts realize. -/
theorem chains_realize {ws : List (Ways dir subject.size)}
    {Rs : List (Gap subject → Gap subject → Prop)} (h : List.Forall₂ Realizes ws Rs)
    (g : Gap subject) (i : Int) :
    (∃ chain ∈ chains ws (dir.cursor g.val), chainEnd (dir.cursor g.val) chain = i) ↔
      ∃ h : Gap subject, i = dir.cursor h.val ∧ inTurn (Rs.map dir.orient) g h := by
  induction h generalizing g with
  | nil => simp [chains, inTurn, eq_comm]
  | @cons w R ws Rs hw _ ih =>
    constructor
    · rintro ⟨chain, hchain, hend⟩
      obtain ⟨o, ho, rest, hrest, rfl⟩ := mem_chains.mp hchain
      obtain ⟨mid, hmid, hR⟩ := (hw g o.index).mp ⟨o, ho, rfl⟩
      rw [chainEnd_cons, hmid] at hend
      rw [hmid] at hrest
      obtain ⟨b, hb, hRs⟩ := (ih mid).mp ⟨rest, hrest, hend⟩
      exact ⟨b, hb, mid, hR, hRs⟩
    · rintro ⟨b, hb, mid, hR, hRs⟩
      obtain ⟨o, ho, hmid⟩ := (hw g (dir.cursor mid.val)).mpr ⟨mid, rfl, hR⟩
      obtain ⟨rest, hrest, hend⟩ := (ih mid).mpr ⟨b, hb, hRs⟩
      refine ⟨o :: rest, mem_chains.mpr ⟨o, ho, rest, by rwa [hmid], rfl⟩, ?_⟩
      rw [chainEnd_cons, hmid, hend]

theorem sequence_realizes {ws : List (Ways dir subject.size)}
    {Rs : List (Gap subject → Gap subject → Prop)} (h : List.Forall₂ Realizes ws Rs) :
    (sequence ws).Realizes (inTurn Rs) := by
  intro g i
  have harrange : List.Forall₂ Realizes (dir.arrange ws) (dir.arrange Rs) := by
    cases dir
    · exact h
    · exact List.rel_reverse h
  have hchains := chains_realize harrange g i
  rw [Machine.map_arrange, ← orient_inTurn] at hchains
  rw [← hchains]
  simp [sequence, sequenceList]

/-- A choice realizes the union of what its branches realize. -/
theorem choice_realizes {ws : List (Ways dir subject.size)}
    {Rs : List (Gap subject → Gap subject → Prop)} (h : List.Forall₂ Realizes ws Rs)
    (hne : ws ≠ []) : (choice ws).Realizes fun a b => ∃ R ∈ Rs, R a b := by
  intro g i
  have hlist : (choice ws).list (dir.cursor g.val) =
      ws.flatMap fun w => w.list (dir.cursor g.val) :=
    if_neg (by rwa [List.isEmpty_iff])
  have horient (b : Gap subject) : dir.orient (fun a b => ∃ R ∈ Rs, R a b) g b ↔
      ∃ R ∈ Rs, dir.orient R g b := by
    cases dir <;> rfl
  have heach : (∃ w ∈ ws, ∃ o ∈ w.list (dir.cursor g.val), o.index = i) ↔
      ∃ R ∈ Rs, ∃ b : Gap subject, i = dir.cursor b.val ∧ dir.orient R g b := by
    clear hlist hne horient
    induction h with
    | nil => simp
    | cons hw _ ih => rw [List.exists_mem_cons_iff, List.exists_mem_cons_iff, hw g i, ih]
  simp only [hlist, horient, List.mem_flatMap]
  constructor
  · rintro ⟨o, ⟨w, hw, ho⟩, hindex⟩
    obtain ⟨R, hR, b, hb, hgb⟩ := heach.mp ⟨w, hw, o, ho, hindex⟩
    exact ⟨b, hb, R, hR, hgb⟩
  · rintro ⟨b, hb, R, hR, hgb⟩
    obtain ⟨w, hw, o, ho, hindex⟩ := heach.mpr ⟨R, hR, b, hb, hgb⟩
    exact ⟨o, ⟨w, hw, ho⟩, hindex⟩

theorem choice_nil_realizes : (choice [] : Ways dir subject.size).Realizes Eq := by
  intro g i
  have horient (b : Gap subject) : dir.orient Eq g b ↔ b = g := by
    cases dir
    · exact eq_comm
    · exact Iff.rfl
  simp [choice, choiceList, horient, Outcome.bare, eq_comm]

/-! ## Repetitions -/

/-- A repetition realizes the union of the powers of its atom within the bounds: every way ends
    where some power leads. -/
theorem power_of_repeatFrom {q : Quantifier} {w : Ways dir subject.size}
    {R : Gap subject → Gap subject → Prop} (hw : w.Realizes R) {count : Nat} {pos : Int}
    {captures : CaptureMap} {o : Outcome} (ho : o ∈ repeatFrom q w count pos captures)
    {g : Gap subject} (hpos : pos = dir.cursor g.val) (hq : q.allows count) :
    ∃ k, ∃ h : Gap subject, o.index = dir.cursor h.val ∧ q.min ≤ count + k ∧ q.allows (count + k) ∧
      power (dir.orient R) k g h := by
  induction count, pos, captures using repeatFrom.induct q w generalizing g with
  | _ count pos captures ih =>
    rcases mem_repeatFrom.mp ho with ⟨hmin, rfl⟩ | ⟨hallows, next, hnext, hne, ho⟩
    · exact ⟨0, g, hpos, hmin, hq, rfl⟩
    · rw [hpos] at hnext
      obtain ⟨mid, hmid, hR⟩ := (hw g next.index).mp ⟨next, hnext, rfl⟩
      obtain ⟨k, h, hindex, hmin, hmax, hpower⟩ :=
        ih next (hpos ▸ hnext) hne ho hmid hallows
      rw [show count + 1 + k = count + (k + 1) by omega] at hmin hmax
      exact ⟨k + 1, h, hindex, hmin, hmax, mid, hR, hpower⟩

theorem allows_of_le {q : Quantifier} {a b : Nat} (hab : a ≤ b) (h : q.allows b) : q.allows a := by
  rw [Quantifier.allows_iff] at h ⊢
  exact fun max hmax => Nat.le_trans hab (h max hmax)

/-- Every power within the bounds is realized. Beyond the least number of repetitions the search
    passes over an empty one, and the chain without it is as good. -/
theorem repeatFrom_of_power {q : Quantifier} {w : Ways dir subject.size}
    {R : Gap subject → Gap subject → Prop} (hw : w.Realizes R) {k : Nat} {count : Nat}
    {captures : CaptureMap} {g h : Gap subject} (hpower : power (dir.orient R) k g h)
    (hmin : q.min ≤ count + k) (hmax : q.allows (count + k)) :
    ∃ o ∈ repeatFrom q w count (dir.cursor g.val) captures, o.index = dir.cursor h.val := by
  induction k generalizing count captures g with
  | zero =>
    have hgh : g = h := hpower
    subst hgh
    exact ⟨_, mem_repeatFrom.mpr (.inl ⟨hmin, rfl⟩), rfl⟩
  | succ k ih =>
    obtain ⟨mid, hR, hpower⟩ := hpower
    by_cases hempty : mid = g ∧ q.min ≤ count
    · obtain ⟨rfl, hcount⟩ := hempty
      exact ih hpower (by omega) (allows_of_le (by omega) hmax)
    · obtain ⟨next, hnext, hmid⟩ := (hw g (dir.cursor mid.val)).mpr ⟨mid, rfl, hR⟩
      have hcount : count + (k + 1) = count + 1 + k := by omega
      rw [hcount] at hmin hmax
      obtain ⟨o, ho, hindex⟩ := ih hpower hmin hmax
      rw [← hmid] at ho
      have hgoes : ¬(next.index = dir.cursor g.val ∧ q.min ≤ count) := by
        rintro ⟨heq, hcount⟩
        have := Direction.cursor_injective dir (hmid.symm.trans heq)
        exact hempty ⟨Fin.ext (by omega), hcount⟩
      have hallows : q.allows (count + 1) := allows_of_le (by omega) hmax
      exact ⟨o, mem_repeatFrom.mpr (.inr ⟨hallows, next, hnext, hgoes, ho⟩), hindex⟩

theorem repetition_realizes {w : Ways dir subject.size} {R : Gap subject → Gap subject → Prop}
    (hw : w.Realizes R) (q : Quantifier) :
    (repetition q w).Realizes fun a b =>
      ∃ k, q.min ≤ k ∧ (∀ max ∈ q.max, k ≤ max) ∧ power R k a b := by
  intro g i
  have horient (b : Gap subject) :
      dir.orient (fun a b => ∃ k, q.min ≤ k ∧ (∀ max ∈ q.max, k ≤ max) ∧ power R k a b) g b ↔
        ∃ k, q.min ≤ k ∧ q.allows k ∧ power (dir.orient R) k g b := by
    simp only [← orient_power, Quantifier.allows_iff]
    cases dir <;> rfl
  simp only [horient]
  constructor
  · rintro ⟨o, ho, rfl⟩
    have hzero : q.allows 0 := Quantifier.allows_iff.mpr fun _ _ => Nat.zero_le _
    obtain ⟨k, h, hindex, hmin, hmax, hpower⟩ := power_of_repeatFrom hw ho rfl hzero
    rw [Nat.zero_add] at hmin hmax
    exact ⟨h, hindex, k, hmin, hmax, hpower⟩
  · rintro ⟨h, rfl, k, hmin, hmax, hpower⟩
    exact repeatFrom_of_power hw hpower (by omega) (by rwa [Nat.zero_add])

end Ways

/-! ## Patterns realize their meaning -/

section Patterns

variable (flags : Flags) (subject : Text)

theorem Branch.covers_eq (ts : Branch) :
    ts.Covers flags subject = inTurn (ts.map (Term.Covers flags subject)) := by
  induction ts with
  | nil => rfl
  | cons t ts ih =>
    rw [List.map_cons, inTurn, ← ih]
    rfl

theorem Pattern.someCovers_iff (bs : Pattern) (a c : Gap subject) :
    bs.SomeCovers flags subject a c ↔ ∃ R ∈ bs.map (Branch.Covers flags subject), R a c := by
  induction bs with
  | nil => simp [Pattern.SomeCovers]
  | cons b bs ih => rw [List.map_cons, List.exists_mem_cons_iff, ← ih, Pattern.SomeCovers]

mutual

theorem Term.ways_realize (t : Term) (dir : Direction) :
    (t.ways flags subject dir).Realizes (t.Covers flags subject) := by
  cases t with
  | char e => exact Ways.char_realizes
  | anchor a =>
    refine Ways.gap_realizes fun g => ?_
    rw [Direction.gap_cursor]
  | look look negated body =>
    have hbody (g : Gap subject) :
        (∃ c, look.orient (Pattern.Covers flags subject body) g c) ↔
          (Pattern.ways flags subject body look).list (look.cursor g.val) ≠ [] := by
      have hways := Pattern.ways_realize body look g
      constructor
      · rintro ⟨c, hc⟩
        obtain ⟨o, ho, -⟩ := (hways (look.cursor c.val)).mpr ⟨c, rfl, hc⟩
        exact List.ne_nil_of_mem ho
      · intro hne
        obtain ⟨o, ho⟩ := List.exists_mem_of_ne_nil _ hne
        obtain ⟨c, -, hc⟩ := (hways o.index).mp ⟨o, ho, rfl⟩
        exact ⟨c, hc⟩
    have hcovers : Term.Covers flags subject (.look look negated body) = fun a b =>
        a = b ∧ ((∃ c, look.orient (Pattern.Covers flags subject body) a c) ↔ negated = false) := by
      cases look <;> rfl
    rw [hcovers]
    refine Ways.gap_realizes fun g => ?_
    rw [Direction.gap_cursor, hbody, beq_iff_eq]
    cases negated <;> simp
  | group tag body => exact Ways.mapCaptures_realizes (Pattern.ways_realize body dir) _
  | repeated atom q => exact Ways.repetition_realizes (Term.ways_realize atom dir) q
  | backreference target => exact Ways.never_realizes
termination_by structural t

theorem Branch.termWays_realize (ts : Branch) (dir : Direction) :
    List.Forall₂ Ways.Realizes (ts.termWays flags subject dir)
      (ts.map (Term.Covers flags subject)) := by
  cases ts with
  | nil => exact .nil
  | cons t ts => exact .cons (Term.ways_realize t dir) (Branch.termWays_realize ts dir)
termination_by structural ts

theorem Pattern.branchWays_realize (bs : Pattern) (dir : Direction) :
    List.Forall₂ Ways.Realizes (bs.branchWays flags subject dir)
      (bs.map (Branch.Covers flags subject)) := by
  cases bs with
  | nil => exact .nil
  | cons b bs =>
    refine .cons ?_ (Pattern.branchWays_realize bs dir)
    rw [Branch.covers_eq]
    exact Ways.sequence_realizes (Branch.termWays_realize b dir)
termination_by structural bs

theorem Pattern.ways_realize (bs : Pattern) (dir : Direction) :
    (bs.ways flags subject dir).Realizes (bs.Covers flags subject) := by
  cases bs with
  | nil => exact Ways.choice_nil_realizes
  | cons b bs =>
    have hb : (Branch.ways flags subject b dir).Realizes (b.Covers flags subject) := by
      rw [Branch.covers_eq]
      exact Ways.sequence_realizes (Branch.termWays_realize b dir)
    have hcovers : Pattern.Covers flags subject (b :: bs) =
        fun a c => ∃ R ∈ (b :: bs).map (Branch.Covers flags subject), R a c := by
      funext a c
      rw [List.map_cons, List.exists_mem_cons_iff, ← Pattern.someCovers_iff]
      rfl
    rw [hcovers]
    exact Ways.choice_realizes (.cons hb (Pattern.branchWays_realize bs dir)) (List.cons_ne_nil _ _)
termination_by structural bs

end

/-- In both directions, the ways of a part end at the gaps that it covers up to. -/
theorem Part.ways_realize (part : Part) (dir : Direction) :
    (part.ways flags subject dir).Realizes (part.Covers flags subject) := by
  cases part with
  | term t => exact Term.ways_realize flags subject t dir
  | branch b =>
    show (Branch.ways flags subject b dir).Realizes (b.Covers flags subject)
    rw [Branch.covers_eq]
    exact Ways.sequence_realizes (Branch.termWays_realize flags subject b dir)
  | pattern p => exact Pattern.ways_realize flags subject p dir

/-- Repeated requests find exactly what a part covers. Forwards from the cursor on gap `a`, some
    answer ends at `b` if and only if the part covers the subject from `a` to `b`, and so does some
    answer backwards from the cursor on gap `b` that ends on gap `a`. -/
theorem Part.covers_iff_gives (part : Part) (a b : Gap subject) :
    ((∃ o, (part.machine flags subject .forward).Gives a.val o ∧ o.index = b.val) ↔
      part.Covers flags subject a b) ∧
    ((∃ o, (part.machine flags subject .backward).Gives (b.val - 1) o ∧ o.index = a.val - 1) ↔
      part.Covers flags subject a b) := by
  simp only [(part.machine_enumerates flags subject _).gives_iff]
  constructor
  · refine (part.ways_realize flags subject .forward a b.val).trans ⟨?_, ?_⟩
    · rintro ⟨h, hb, hcovers⟩
      rwa [show b = h from Fin.ext (Int.ofNat.inj hb)]
    · intro hcovers
      exact ⟨b, rfl, hcovers⟩
  · refine (part.ways_realize flags subject .backward b (a.val - 1)).trans ⟨?_, ?_⟩
    · rintro ⟨h, ha, hcovers⟩
      simp only [Direction.cursor] at ha
      rwa [show a = h from Fin.ext (by omega)]
    · intro hcovers
      exact ⟨a, rfl, hcovers⟩

end Patterns

end Retrace
