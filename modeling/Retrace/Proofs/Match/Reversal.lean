import Retrace.Proofs.Match.Correspondence
import Retrace.Proofs.Match.Enumeration
import Retrace.Proofs.Match.Provenance

/-!
# Matching backwards

A pattern read from the other end: its terms in reverse order, with `^` and `$` exchanged and
lookaheads turned into lookbehinds. Matching a pattern backwards is matching the reversed pattern
forwards on the reversed subject: the same ways come in the same order, each with its cursor and its
spans seen from the other end.

Both runs visit corresponding terms in the same order, but a sequence unites its captures in the
order of its terms. The reversed pattern thus unites them the other way round, which makes no
difference as long as no two groups have a key in common.

Results:

* `Part.ways_reversed`: the ways of a part in one direction and of its reversal in the other are in
  step.
* `Part.yields_reversed`: requests backwards and requests forwards to the reversal answer with the
  same ways.
-/

namespace Retrace

/-! ## Reversal -/

/-- The other direction. -/
def Direction.opposite : Direction → Direction
  | forward => backward
  | backward => forward

/-- The anchor that holds on the same gap of the reversed subject. -/
def Anchor.reversed : Anchor → Anchor
  | start => finish
  | finish => start
  | wordBoundary negated => wordBoundary negated

mutual

/-- The term read from the other end. -/
def Term.reversed : Term → Term
  | .char e => .char e
  | .anchor a => .anchor a.reversed
  | .look dir negated body => .look dir.opposite negated (Pattern.reversed body)
  | .group tag body => .group tag (Pattern.reversed body)
  | .repeated atom q => .repeated (Term.reversed atom) q
  | .backreference target => .backreference target
termination_by structural t => t

/-- The terms of a branch read from the other end, the last one first. -/
def Branch.reversed : Branch → Branch
  | [] => []
  | t :: ts => Branch.reversed ts ++ [Term.reversed t]
termination_by structural ts => ts

/-- The branches read from the other end, in the same order of preference. -/
def Pattern.reversed : Pattern → Pattern
  | [] => []
  | b :: bs => Branch.reversed b :: Pattern.reversed bs
termination_by structural bs => bs

end

/-- The part read from the other end. -/
def Part.reversed : Part → Part
  | term t => term t.reversed
  | branch b => branch b.reversed
  | pattern p => pattern p.reversed

/-- The numbers and names under which the groups of a part capture, at any depth. -/
def Part.keys (part : Part) : List GroupKey := part.subterms.flatMap Term.ownKeys

/-- The same stretch of the reversed subject, which has the given length. -/
def Span.reversed (length : Nat) (s : Span) : Span := ⟨length - s.stop, length - s.start⟩

/-- The same way on the reversed subject, which has the given length. -/
def Outcome.reversed (length : Nat) (o : Outcome) : Outcome :=
  ⟨length - 1 - o.index, o.captures.mapSpans (Span.reversed length)⟩

/-! ## Cursors, gaps and spans -/

/-- Cursors on the same gap of a subject and of its reversal, which are scanned in opposite
    directions. -/
def reversal (length : Nat) (dir : Direction) : Correspondence :=
  .ofSpans (fun pos pos' => 0 ≤ dir.gap pos ∧ dir.gap pos ≤ length ∧ pos' = length - 1 - pos)
    (by omega) (Span.reversed length)

theorem Direction.opposite_step (dir : Direction) : dir.opposite.step = -dir.step := by
  cases dir <;> rfl

theorem Direction.opposite_gap (dir : Direction) (length pos : Int) :
    dir.opposite.gap (length - 1 - pos) = length - dir.gap pos := by
  cases dir <;> simp only [opposite, gap] <;> omega

theorem Direction.opposite_cursor (dir : Direction) (length g : Int) :
    dir.opposite.cursor (length - g) = length - 1 - dir.cursor g := by
  cases dir <;> simp only [opposite, cursor] <;> omega

theorem Text.at?_reverse (subject : Text) (pos : Int) :
    Text.at? subject.reverse (subject.size - 1 - pos) = Text.at? subject pos := by
  unfold Text.at?
  by_cases hlow : 0 ≤ pos
  · by_cases hhigh : pos < subject.size
    · rw [if_pos hlow, if_pos (by omega), Array.getElem?_reverse (by omega)]
      congr 1
      omega
    · rw [if_pos hlow, if_neg (by omega), Array.getElem?_eq_none (by omega)]
  · rw [if_neg hlow, if_pos (by omega), Array.getElem?_eq_none]
    rw [Array.size_reverse]
    omega

theorem Anchor.holds_reversed (a : Anchor) (flags : Flags) (subject : Text) (g : Int) :
    a.reversed.holds flags subject.reverse (subject.size - g) = a.holds flags subject g := by
  have hbefore : Text.at? subject.reverse (subject.size - g - 1) = Text.at? subject g := by
    rw [← Text.at?_reverse subject g]
    congr 1
    omega
  have hbehind : Text.at? subject.reverse (subject.size - g) = Text.at? subject (g - 1) := by
    rw [← Text.at?_reverse subject (g - 1)]
    congr 1
    omega
  cases a with
  | start =>
    have hend : (subject.size - g = subject.reverse.size) ↔ g = 0 := by
      rw [Array.size_reverse]
      omega
    simp only [reversed, holds, hbehind, hend]
  | finish =>
    have hend : (subject.size - g = 0) ↔ g = subject.size := by omega
    simp only [reversed, holds, hbefore, hend]
  | wordBoundary negated =>
    simp only [reversed, holds, hbefore, hbehind]
    congr 1
    cases Text.at? subject g <;> cases Text.at? subject (g - 1) <;> simp only [bne_comm]

theorem Span.reversed_between {length : Nat} {dir : Direction} {entry exit : Int}
    (hentry : 0 ≤ dir.gap entry ∧ dir.gap entry ≤ length)
    (hexit : 0 ≤ dir.gap exit ∧ dir.gap exit ≤ length) :
    Span.between dir.opposite (length - 1 - entry) (length - 1 - exit) =
      (Span.between dir entry exit).reversed length := by
  unfold Span.between Span.reversed
  cases dir <;> simp only [Direction.opposite, Direction.gap, Span.mk.injEq] at * <;> omega

/-! ## Sequences of terms without common keys -/

namespace Ways

variable {dir : Direction} {length : Nat}

/-- No way of the one part captures under a key of a way of the other. -/
def Apart (w w' : Ways dir length) : Prop :=
  ∀ pos, ∀ o ∈ w.list pos, ∀ pos', ∀ o' ∈ w'.list pos', o.captures.Disjoint o'.captures

theorem Apart.symm {w w' : Ways dir length} (h : w.Apart w') : w'.Apart w :=
  fun pos' o' ho' pos o ho => (h pos o ho pos' o' ho').symm

theorem chain_apart {ws : List (Ways dir length)} (hws : ws.Pairwise Apart) {pos : Int}
    {chain : List Outcome} (hc : chain ∈ chains ws pos) :
    chain.Pairwise fun o o' => o.captures.Disjoint o'.captures := by
  induction ws generalizing pos chain with
  | nil =>
    rw [List.mem_singleton.mp hc]
    exact .nil
  | cons w ws ih =>
    obtain ⟨hw, hws⟩ := List.pairwise_cons.mp hws
    obtain ⟨o, ho, rest, hrest, rfl⟩ := mem_chains.mp hc
    refine List.pairwise_cons.mpr ⟨fun o' ho' => ?_, ih hws hrest⟩
    obtain ⟨w', hw', pos', ho'⟩ := mem_of_mem_chain hrest ho'
    exact hw w' hw' pos o ho pos' o' ho'

/-- The captures of parts without common keys are the same in both orders of the terms. -/
theorem chainOutcome_captures_eq {ws : List (Ways dir length)} (hws : ws.Pairwise Apart)
    {pos : Int} {chain : List Outcome} (hc : chain ∈ chains (dir.arrange ws) pos) :
    (chainOutcome dir pos chain).captures = (chainOutcome dir.opposite pos chain).captures := by
  have harrange : (dir.arrange ws).Pairwise Apart := by
    cases dir with
    | forward => exact hws
    | backward => exact List.pairwise_reverse.mpr (hws.imp Apart.symm)
  have hapart := chain_apart harrange hc
  have hreverse := foldl_merge_perm (List.reverse_perm chain).symm hapart .empty
  cases dir with
  | forward => exact hreverse
  | backward => exact hreverse.symm

end Ways

/-! ## Patterns -/

section Patterns

variable {flags : Flags} {subject : Text}

/-- The terms of a branch whose groups have distinct keys capture apart from each other. -/
theorem Branch.termWays_apart {b : Branch} {dir : Direction}
    (hkeys : (b.subterms.flatMap Term.ownKeys).Nodup) :
    (b.termWays flags subject dir).Pairwise Ways.Apart := by
  induction b with
  | nil => exact .nil
  | cons t b ih =>
    rw [Branch.subterms, List.flatMap_append, List.nodup_append'] at hkeys
    obtain ⟨-, hb, hdisjoint⟩ := hkeys
    refine List.pairwise_cons.mpr ⟨fun w hw pos o ho pos' o' ho' k => ?_, ih hb⟩
    have ht := Term.ways_captures (fun _ _ _ _ _ _ _ _ hk => hk) t (groupsCapture_keys _) ho
    have hw := Branch.termWays_captures (fun _ _ _ _ _ _ _ _ hk => hk) b (groupsCapture_keys _)
      w hw ho'
    cases hk : o.captures.find? k with
    | none => exact .inl rfl
    | some s =>
      cases hk' : o'.captures.find? k with
      | none => exact .inr rfl
      | some s' => exact absurd (hw hk') (hdisjoint (ht hk))

/-- A branch is in step with its reversal if its terms are with theirs, met in the same order. -/
theorem Branch.ways_inStep_reversed {b : Branch} {dir : Direction}
    (hkeys : (b.subterms.flatMap Term.ownKeys).Nodup)
    (hterms : List.Forall₂ (Ways.InStep (reversal subject.size dir))
      (b.termWays flags subject dir)
      (b.reversed.termWays flags subject.reverse dir.opposite).reverse) :
    Ways.InStep (reversal subject.size dir) (b.ways flags subject dir)
      (b.reversed.ways flags subject.reverse dir.opposite) := by
  refine Ways.sequence_inStep ?_ fun pos chain hc =>
    Ways.chainOutcome_captures_eq (Branch.termWays_apart hkeys) hc
  cases dir with
  | forward => exact hterms
  | backward =>
    rw [← List.forall₂_reverse_iff]
    simpa only [Direction.arrange, Direction.opposite, List.reverse_reverse] using hterms

/-- Below a term, the keys are still distinct. -/
theorem nodup_tail {t : Term} {ts : List Term} (h : ((t :: ts).flatMap Term.ownKeys).Nodup) :
    (ts.flatMap Term.ownKeys).Nodup := by
  rw [List.flatMap_cons] at h
  exact h.of_append_right

mutual

theorem Term.ways_reversed (t : Term) (dir : Direction)
    (hkeys : (t.subterms.flatMap Term.ownKeys).Nodup) :
    Ways.InStep (reversal subject.size dir) (t.ways flags subject dir)
      (t.reversed.ways flags subject.reverse dir.opposite) := by
  cases t with
  | char e =>
    apply Ways.char_inStep
    · rintro pos - ⟨-, -, rfl⟩
      exact (Text.at?_reverse subject pos).symm
    · rintro pos - cp ⟨-, -, rfl⟩ hcp
      have hpos := Text.lt_size_of_at? hcp
      rw [Direction.opposite_step]
      refine ⟨?_, ?_, by omega⟩ <;>
      · cases dir <;> simp only [Direction.gap, Direction.step] <;> omega
  | anchor a =>
    apply Ways.gap_inStep
    rintro pos - ⟨-, -, rfl⟩
    rw [Direction.opposite_gap, Anchor.holds_reversed]
  | look look negated body =>
    have hbody := Ways.pattern_inStep (Pattern.branchWays_reversed body look (nodup_tail hkeys))
    apply Ways.gap_inStep
    rintro pos - ⟨hlow, hhigh, rfl⟩
    have hcursor : (reversal subject.size look).Cursor (look.cursor (dir.gap pos))
        (look.opposite.cursor (subject.size - dir.gap pos)) := by
      refine ⟨?_, ?_, Direction.opposite_cursor look _ _⟩ <;> rw [Direction.gap_cursor]
      · exact hlow
      · exact hhigh
    rw [Direction.opposite_gap, hbody.isEmpty_eq hcursor]
  | group tag body =>
    have hbody := Ways.pattern_inStep (Pattern.branchWays_reversed body dir (nodup_tail hkeys))
    apply Ways.mapCaptures_inStep hbody
    rintro pos - o o' ⟨hlow, hhigh, rfl⟩ ⟨⟨holow, hohigh, hindex⟩, hcaptures⟩
    refine Ways.capture_mapSpans ?_ hcaptures
    rw [hindex]
    exact Span.reversed_between ⟨hlow, hhigh⟩ ⟨holow, hohigh⟩
  | repeated atom q =>
    exact Ways.repetition_inStep q (Term.ways_reversed atom dir (nodup_tail hkeys))
  | backreference target => exact Ways.never_inStep
termination_by structural t

theorem Branch.termWays_reversed (b : Branch) (dir : Direction)
    (hkeys : (b.subterms.flatMap Term.ownKeys).Nodup) :
    List.Forall₂ (Ways.InStep (reversal subject.size dir)) (b.termWays flags subject dir)
      (b.reversed.termWays flags subject.reverse dir.opposite).reverse := by
  cases b with
  | nil => exact .nil
  | cons t b =>
    rw [Branch.subterms, List.flatMap_append] at hkeys
    have ht := Term.ways_reversed t dir hkeys.of_append_left
    have hb := Branch.termWays_reversed b dir hkeys.of_append_right
    have hreversed : ((Branch.reversed (t :: b)).termWays flags subject.reverse
        dir.opposite).reverse = t.reversed.ways flags subject.reverse dir.opposite ::
          (Branch.termWays flags subject.reverse (Branch.reversed b) dir.opposite).reverse := by
      rw [Branch.reversed, Branch.termWays_eq, Branch.termWays_eq, List.map_append,
        List.reverse_append]
      rfl
    rw [hreversed]
    exact .cons ht hb
termination_by structural b

theorem Pattern.branchWays_reversed (p : Pattern) (dir : Direction)
    (hkeys : (p.subterms.flatMap Term.ownKeys).Nodup) :
    List.Forall₂ (Ways.InStep (reversal subject.size dir)) (p.branchWays flags subject dir)
      (p.reversed.branchWays flags subject.reverse dir.opposite) := by
  cases p with
  | nil => exact .nil
  | cons b p =>
    rw [Pattern.subterms, List.flatMap_append] at hkeys
    have hb := Branch.termWays_reversed b dir hkeys.of_append_left
    exact .cons (Branch.ways_inStep_reversed hkeys.of_append_left hb)
      (Pattern.branchWays_reversed p dir hkeys.of_append_right)
termination_by structural p

end

/-- The ways of a part in one direction and of its reversal in the other are in step. -/
theorem Part.ways_reversed (part : Part) (dir : Direction) (hkeys : part.keys.Nodup) :
    Ways.InStep (reversal subject.size dir) (part.ways flags subject dir)
      (part.reversed.ways flags subject.reverse dir.opposite) := by
  cases part with
  | term t => exact Term.ways_reversed t dir hkeys
  | branch b => exact Branch.ways_inStep_reversed hkeys (Branch.termWays_reversed b dir hkeys)
  | pattern p => exact Ways.pattern_inStep (Pattern.branchWays_reversed p dir hkeys)

/-- What a way backwards captures lies within the subject. -/
theorem Part.captures_backward {part : Part} {pos : Int} (hpos : pos < subject.size)
    {o : Outcome} (ho : o ∈ (part.ways flags subject .backward).list pos) {k : GroupKey} {s : Span}
    (hs : o.captures.find? k = some s) : s.start ≤ s.stop ∧ s.stop ≤ subject.size := by
  let Q (entry _ : Int) (_ : GroupKey) (s : Span) : Prop :=
    entry < subject.size → s.start ≤ s.stop ∧ s.stop ≤ subject.size
  have hQ : Ways.Keeps .backward subject.size Q := by
    intro a b c d k s hab hcd h ha
    have := hab.le_of_backward
    exact h (by omega)
  refine part.ways_captures hQ (fun tag body _ pos o ho k hk hpos => ?_) ho hs hpos
  have := ((Pattern.ways flags subject body .backward).ahead ho).le_of_backward
  simp only [Span.between, Direction.gap]
  omega

end Patterns

/-- Matching backwards is matching the reversed part forwards on the reversed subject. From a cursor
    on a gap of the subject, the answers to repeated requests are the same ways in the same order,
    each with its cursor and its spans, which lie within the subject, seen from the other end. This
    holds if no two groups of the part have a number or a name in common, as is the case for a
    pattern that was read and numbered. -/
theorem Part.yields_reversed :
    (∀ (part : Part) (flags : Flags) (subject : Text) (pos : Int), part.keys.Nodup →
      -1 ≤ pos → pos ≤ subject.size - 1 →
      ∃ os, Yields (part.machine flags subject .backward).request pos .fresh os ∧
        Yields (part.reversed.machine flags subject.reverse .forward).request
          (subject.size - 1 - pos) .fresh (os.map (Outcome.reversed subject.size)) ∧
        ∀ o ∈ os, ∀ k s, o.captures.find? k = some s →
          s.start ≤ s.stop ∧ s.stop ≤ subject.size) ∧
    ∀ (text : Input) (p : Pattern) (next : Nat), Pattern.parse text = .ok p →
      (Part.pattern (p.numbered next).1).keys.Nodup := by
  refine ⟨fun part flags subject pos hkeys hlow hhigh => ?_, fun _ _ next hp =>
    Pattern.nodup_keys_numbered hp next⟩
  have hpos : (reversal subject.size .backward).Cursor pos (subject.size - 1 - pos) := by
    refine ⟨?_, ?_, rfl⟩ <;> simp only [Direction.gap] <;> omega
  have hstep : Ways.InStep _ (part.ways flags subject .backward) _ :=
    part.ways_reversed .backward hkeys
  have hways := hstep.list_eq (fun h => h.2.2) (fun h => h) hpos
  have hforward := part.reversed.machine_enumerates flags subject.reverse .forward
    (subject.size - 1 - pos)
  refine ⟨_, part.machine_enumerates flags subject .backward pos, ?_, fun o ho k s hs =>
    captures_backward (by omega) ho hs⟩
  exact hways ▸ hforward

/-- The pattern `(?<x>a)(?=b)|^(c*)` backwards on `cab`, from the cursor on the last gap but one. -/
theorem Part.yields_reversed_of_named_group : ∃ p : Pattern,
    Pattern.parse ((Text.ofString "(?<x>a)(?=b)|^(c*)").toList) = .ok p ∧
    (Part.pattern (p.numbered 1).1).keys.Nodup ∧
    ∃ os, Yields ((Part.pattern (p.numbered 1).1).machine .none #[0x63, 0x61, 0x62]
        .backward).request 1 .fresh os ∧
      Yields ((Part.pattern (p.numbered 1).1).reversed.machine .none
        (Array.reverse #[0x63, 0x61, 0x62]) .forward).request 1 .fresh
          (os.map (Outcome.reversed 3)) := by
  have hp : ∃ p, Pattern.parse ((Text.ofString "(?<x>a)(?=b)|^(c*)").toList) = .ok p :=
    ⟨_, by with_unfolding_all rfl⟩
  obtain ⟨p, hp⟩ := hp
  have hkeys := Part.yields_reversed.2 _ p 1 hp
  obtain ⟨os, hbackward, hforward, -⟩ := Part.yields_reversed.1 (.pattern (p.numbered 1).1) .none
    #[0x63, 0x61, 0x62] 1 hkeys (by decide) (by decide)
  exact ⟨p, hp, hkeys, os, hbackward, hforward⟩

end Retrace
