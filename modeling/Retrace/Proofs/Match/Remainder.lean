import Retrace.Proofs.Match.Correspondence
import Retrace.Proofs.Match.Provenance

/-!
# Matching in the remainder of a subject

What lies before a cursor matters to a scan forwards only where a part of the pattern looks to the
left of it: at `^`, at word boundaries and in lookbehinds. A pattern without these matches the
remainder of a subject as it matches the whole subject from there on. A lookahead and `$` read on to
the right, and the remainder has the same end.

Results:

* `Part.ways_remainder`: the ways of a part that never looks left, in a remainder and in the whole
  subject, are in step.
* `Part.list_shifted`: they are the same ways, with their cursors and spans further on.
-/

namespace Retrace

/-- Whether a term itself depends on what lies before the cursor of a scan forwards. -/
def Term.looksLeft : Term → Bool
  | .anchor .start | .anchor (.wordBoundary _) | .look .backward _ _ => true
  | _ => false

/-- Whether no term among the given ones looks left. -/
def NeverLookLeft (ts : List Term) : Prop := ∀ t ∈ ts, t.looksLeft = false

instance (ts : List Term) : Decidable (NeverLookLeft ts) :=
  inferInstanceAs (Decidable (∀ t ∈ ts, t.looksLeft = false))

theorem NeverLookLeft.mono {ts us : List Term} (h : NeverLookLeft us) (hsub : ts ⊆ us) :
    NeverLookLeft ts := fun t ht => h t (hsub ht)

/-- The same stretch where the subject is a remainder that begins at `offset` of a longer one. -/
def Span.shifted (offset : Nat) (s : Span) : Span := ⟨offset + s.start, offset + s.stop⟩

/-- The same way where the subject is a remainder that begins at `offset` of a longer one. -/
def Outcome.shifted (offset : Nat) (o : Outcome) : Outcome :=
  ⟨offset + o.index, o.captures.mapSpans (Span.shifted offset)⟩

/-! ## Cursors and spans -/

/-- Cursors at the same place, counted in the remainder from `offset` on and in the subject. -/
def remainder (offset : Nat) : Correspondence :=
  .ofSpans (fun pos pos' => 0 ≤ pos ∧ pos' = offset + pos) (by omega) (Span.shifted offset)

section Remainder

variable {subject : Text} {offset : Nat} {pos : Int}

theorem Text.at?_extract (hpos : 0 ≤ pos) :
    Text.at? (subject.extract offset subject.size) pos = Text.at? subject (offset + pos) := by
  have hindex : ((offset : Int) + pos).toNat = offset + pos.toNat := by omega
  rw [Text.at?, Text.at?, if_pos hpos, if_pos (by omega), hindex, Array.getElem?_extract]
  split
  · rfl
  · rw [Array.getElem?_eq_none (by omega)]

theorem Anchor.finish_holds_extract (flags : Flags) (hoffset : offset ≤ subject.size)
    (hpos : 0 ≤ pos) : Anchor.finish.holds flags (subject.extract offset subject.size) pos =
      Anchor.finish.holds flags subject (offset + pos) := by
  have hend : pos = (subject.extract offset subject.size).size ↔ offset + pos = subject.size := by
    rw [Array.size_extract]
    omega
  simp only [holds, Text.at?_extract hpos, hend]

theorem Span.shifted_between {entry exit : Int} (hentry : 0 ≤ entry) (hexit : 0 ≤ exit) :
    Span.between .forward (offset + entry) (offset + exit) =
      (Span.between .forward entry exit).shifted offset := by
  simp only [between, shifted, Direction.gap, Span.mk.injEq]
  omega

end Remainder

/-! ## Patterns -/

section Patterns

variable {flags : Flags} {subject : Text} {offset : Nat}

mutual

theorem Term.ways_remainder (hoffset : offset ≤ subject.size) (t : Term)
    (h : NeverLookLeft t.subterms) :
    Ways.InStep (remainder offset)
      (t.ways flags (subject.extract offset subject.size) .forward)
      (t.ways flags subject .forward) := by
  cases t with
  | char e =>
    apply Ways.char_inStep
    · rintro pos - ⟨hpos, rfl⟩
      exact Text.at?_extract hpos
    · rintro pos - cp ⟨hpos, rfl⟩ -
      refine ⟨?_, ?_⟩ <;> simp only [Direction.step] <;> omega
  | anchor a =>
    have ha := h _ List.mem_cons_self
    cases a with
    | start => cases ha
    | wordBoundary negated => cases ha
    | finish =>
      apply Ways.gap_inStep
      rintro pos - ⟨hpos, rfl⟩
      exact Anchor.finish_holds_extract flags hoffset hpos
  | look look negated body =>
    have hlook := h _ List.mem_cons_self
    cases look with
    | backward => cases hlook
    | forward =>
      have hbody := Ways.pattern_inStep
        (Pattern.branchWays_remainder hoffset body (h.mono (List.subset_cons_self _ _)))
      apply Ways.gap_inStep
      intro pos pos' hpos
      rw [Direction.cursor_gap, Direction.cursor_gap, hbody.isEmpty_eq hpos]
  | group tag body =>
    have hbody := Ways.pattern_inStep
      (Pattern.branchWays_remainder hoffset body (h.mono (List.subset_cons_self _ _)))
    apply Ways.mapCaptures_inStep hbody
    rintro pos - o o' ⟨hpos, rfl⟩ ⟨⟨ho, hindex⟩, hcaptures⟩
    refine Ways.capture_mapSpans ?_ hcaptures
    rw [hindex]
    exact Span.shifted_between hpos ho
  | repeated atom q =>
    exact Ways.repetition_inStep q
      (Term.ways_remainder hoffset atom (h.mono (List.subset_cons_self _ _)))
  | backreference target => exact Ways.never_inStep
termination_by structural t

theorem Branch.termWays_remainder (hoffset : offset ≤ subject.size) (b : Branch)
    (h : NeverLookLeft b.subterms) :
    List.Forall₂ (Ways.InStep (remainder offset))
      (b.termWays flags (subject.extract offset subject.size) .forward)
      (b.termWays flags subject .forward) := by
  cases b with
  | nil => exact .nil
  | cons t b =>
    have ht := Term.ways_remainder hoffset t (h.mono (List.subset_append_left _ _))
    have hb := Branch.termWays_remainder hoffset b (h.mono (List.subset_append_right _ _))
    exact .cons ht hb
termination_by structural b

theorem Pattern.branchWays_remainder (hoffset : offset ≤ subject.size) (p : Pattern)
    (h : NeverLookLeft p.subterms) :
    List.Forall₂ (Ways.InStep (remainder offset))
      (p.branchWays flags (subject.extract offset subject.size) .forward)
      (p.branchWays flags subject .forward) := by
  cases p with
  | nil => exact .nil
  | cons b p =>
    have hb := Branch.termWays_remainder hoffset b (h.mono (List.subset_append_left _ _))
    have hp := Pattern.branchWays_remainder hoffset p (h.mono (List.subset_append_right _ _))
    exact .cons (Ways.sequence_inStep hb fun _ _ _ => rfl) hp
termination_by structural p

end

/-- The ways of a part that never looks left, in the remainder of a subject and in the subject, are
    in step. -/
theorem Part.ways_remainder (hoffset : offset ≤ subject.size) (part : Part)
    (h : NeverLookLeft part.subterms) :
    Ways.InStep (remainder offset)
      (part.ways flags (subject.extract offset subject.size) .forward)
      (part.ways flags subject .forward) := by
  cases part with
  | term t => exact Term.ways_remainder hoffset t h
  | branch b => exact Ways.sequence_inStep (Branch.termWays_remainder hoffset b h) fun _ _ _ => rfl
  | pattern p => exact Ways.pattern_inStep (Pattern.branchWays_remainder hoffset p h)

/-- A part that never looks left has the same ways in a subject as in its remainder, with their
    cursors and spans further on. -/
theorem Part.list_shifted (flags : Flags) (hoffset : offset ≤ subject.size) (part : Part)
    (h : NeverLookLeft part.subterms) (pos : Nat) :
    (part.ways flags subject .forward).list (offset + pos) =
      ((part.ways flags (subject.extract offset subject.size) .forward).list pos).map
        (Outcome.shifted offset) :=
  (part.ways_remainder hoffset h).list_eq (fun hcursor => hcursor.2) (fun hcaptures => hcaptures)
    ⟨Int.natCast_nonneg pos, rfl⟩

end Patterns

end Retrace
