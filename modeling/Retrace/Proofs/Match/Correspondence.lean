import Mathlib.Data.List.Forall2
import Retrace.Proofs.Match.Captures
import Retrace.Proofs.Match.Ways

/-!
# Two runs in step

Two runs can be compared way by way when their cursors correspond one to one and their captures
correspond in a manner that unions keep. If the parts of two patterns are in step, from
corresponding cursors, then so are the choices, sequences and repetitions of these parts: the search
of a repetition only asks whether a way of its atom ends where it began, and that is the same
question in both runs.

The runs may scan in opposite directions. Their sequences then visit corresponding terms in the same
order, but unite captures in opposite orders, so that the order must not matter.

Results:

* `Ways.pattern_inStep`, `Ways.sequence_inStep`, `Ways.repetition_inStep`: parts in step make wholes
  that are in step.
* `Ways.InStep.list_eq`: where the correspondence is a function, it takes the ways of the one run to
  those of the other.
-/

namespace Retrace

/-- Lists that are related item by item are related in the order of the visits, too. -/
theorem Direction.forall₂_arrange {α β : Type} {R : α → β → Prop} {l : List α} {l' : List β}
    (dir : Direction) (h : List.Forall₂ R l l') :
    List.Forall₂ R (dir.arrange l) (dir.arrange l') := by
  cases dir with
  | forward => exact h
  | backward => exact List.rel_reverse h

/-- Which cursors and which captures of two runs correspond. -/
structure Correspondence where
  /-- The cursor of the first run and that of the second. -/
  Cursor : Int → Int → Prop
  /-- The captures of the first run and those of the second. -/
  Captures : CaptureMap → CaptureMap → Prop
  /-- Cursors correspond one to one. -/
  cursor_eq_iff : ∀ {a a' b b'}, Cursor a a' → Cursor b b' → (a = b ↔ a' = b')
  empty : Captures .empty .empty
  merge : ∀ {a a' b b'}, Captures a a' → Captures b b' → Captures (a.merge b) (a'.merge b')

namespace Correspondence

/-- Ways that end at corresponding cursors with corresponding captures. -/
def Relates (c : Correspondence) (o o' : Outcome) : Prop :=
  c.Cursor o.index o'.index ∧ c.Captures o.captures o'.captures

/-- The correspondence of runs whose captures differ in their spans only, as `f` says. -/
def ofSpans (Cursor : Int → Int → Prop)
    (cursor_eq_iff : ∀ {a a' b b'}, Cursor a a' → Cursor b b' → (a = b ↔ a' = b'))
    (f : Span → Span) : Correspondence where
  Cursor := Cursor
  Captures m m' := m' = m.mapSpans f
  cursor_eq_iff := cursor_eq_iff
  empty := (CaptureMap.mapSpans_empty f).symm
  merge := by
    rintro a - b - rfl rfl
    rw [CaptureMap.mapSpans_merge]

theorem merge_chain {c : Correspondence} {chain chain' : List Outcome}
    (h : List.Forall₂ c.Relates chain chain') {m m' : CaptureMap} (hm : c.Captures m m') :
    c.Captures (chain.foldl (fun captures o => captures.merge o.captures) m)
      (chain'.foldl (fun captures o => captures.merge o.captures) m') := by
  induction h generalizing m m' with
  | nil => exact hm
  | cons ho _ ih => exact ih (c.merge hm ho.2)

end Correspondence

namespace Ways

variable {c : Correspondence} {dir dir' : Direction} {length length' : Nat}

/-- From corresponding cursors, the ways of two parts correspond one by one. -/
def InStep (c : Correspondence) (w : Ways dir length) (w' : Ways dir' length') : Prop :=
  ∀ ⦃pos pos'⦄, c.Cursor pos pos' → List.Forall₂ c.Relates (w.list pos) (w'.list pos')

/-- One of two parts in step has no way where the other one has none. -/
theorem InStep.isEmpty_eq {w : Ways dir length} {w' : Ways dir' length'} (h : InStep c w w')
    {pos pos' : Int} (hpos : c.Cursor pos pos') :
    (w.list pos).isEmpty = (w'.list pos').isEmpty := by
  have hways := h hpos
  generalize w.list pos = os, w'.list pos' = os' at hways
  cases hways <;> rfl

/-! ## Parts that match in one way -/

theorem single_inStep {goal goal' : Int → Option Int}
    {hgoal : ∀ {pos next}, goal pos = some next → Ahead dir length pos next}
    {hgoal' : ∀ {pos next}, goal' pos = some next → Ahead dir' length' pos next}
    (h : ∀ {pos pos'}, c.Cursor pos pos' → Option.Rel c.Cursor (goal pos) (goal' pos')) :
    InStep c (single goal hgoal) (single goal' hgoal') := by
  intro pos pos' hpos
  show List.Forall₂ c.Relates ((goal pos).toList.map .bare) ((goal' pos').toList.map .bare)
  have hnext := h hpos
  generalize goal pos = next, goal' pos' = next' at hnext
  cases hnext with
  | none => exact .nil
  | some hnext => exact .cons ⟨hnext, c.empty⟩ .nil

/-- A condition on the gap is in step with one that holds on the corresponding gaps. -/
theorem gap_inStep {holds holds' : Int → Bool}
    (h : ∀ {pos pos'}, c.Cursor pos pos' → holds pos = holds' pos') :
    InStep c (single (gapGoal holds) gapGoal_ahead : Ways dir length)
      (single (gapGoal holds') gapGoal_ahead : Ways dir' length') := by
  apply single_inStep
  intro pos pos' hpos
  unfold gapGoal
  rw [← h hpos]
  by_cases hh : holds pos
  · rw [if_pos hh, if_pos hh]
    exact .some hpos
  · rw [if_neg hh, if_neg hh]
    exact .none

/-- One code point is in step where corresponding cursors read the same code points and correspond
    again behind them. -/
theorem char_inStep {flags : Flags} {subject subject' : Text} {e : CharExpr}
    (hat : ∀ {pos pos'}, c.Cursor pos pos' → Text.at? subject pos = Text.at? subject' pos')
    (hstep : ∀ {pos pos' cp}, c.Cursor pos pos' → Text.at? subject pos = some cp →
      c.Cursor (pos + dir.step) (pos' + dir'.step)) :
    InStep c (single (charGoal flags subject dir e) charGoal_ahead)
      (single (charGoal flags subject' dir' e) charGoal_ahead) := by
  apply single_inStep
  intro pos pos' hpos
  unfold charGoal
  rw [← hat hpos]
  cases hcp : Text.at? subject pos with
  | none => exact .none
  | some cp =>
    rw [Option.any_some]
    by_cases haccepts : e.accepts flags cp
    · rw [if_pos haccepts, if_pos haccepts]
      exact .some (hstep hpos hcp)
    · rw [if_neg haccepts, if_neg haccepts]
      exact .none

theorem never_inStep : InStep c (never : Ways dir length) (never : Ways dir' length') :=
  fun _ _ _ => .nil

theorem mapCaptures_inStep {w : Ways dir length} {w' : Ways dir' length'} (h : InStep c w w')
    {f f' : Int → Outcome → CaptureMap}
    (hf : ∀ {pos pos' o o'}, c.Cursor pos pos' → c.Relates o o' →
      c.Captures (f pos o) (f' pos' o')) :
    InStep c (w.mapCaptures f) (w'.mapCaptures f') := by
  intro pos pos' hpos
  show List.Forall₂ c.Relates ((w.list pos).map fun o => { o with captures := f pos o })
    ((w'.list pos').map fun o => { o with captures := f' pos' o })
  rw [List.forall₂_map_left_iff, List.forall₂_map_right_iff]
  exact (h hpos).imp fun o o' ho => ⟨ho.1, hf hpos ho⟩

/-! ## Choices and sequences -/

theorem choice_inStep {ws : List (Ways dir length)} {ws' : List (Ways dir' length')}
    (h : List.Forall₂ (InStep c) ws ws') : InStep c (choice ws) (choice ws') := by
  intro pos pos' hpos
  show List.Forall₂ c.Relates (choiceList ws pos) (choiceList ws' pos')
  unfold choiceList
  cases h with
  | nil => exact .cons ⟨hpos, c.empty⟩ .nil
  | cons hw hws => exact List.rel_flatMap (.cons hw hws) fun w w' hw => hw hpos

theorem chains_inStep {ws : List (Ways dir length)} {ws' : List (Ways dir' length')}
    (h : List.Forall₂ (InStep c) ws ws') {pos pos' : Int} (hpos : c.Cursor pos pos') :
    List.Forall₂ (List.Forall₂ c.Relates) (chains ws pos) (chains ws' pos') := by
  induction h generalizing pos pos' with
  | nil => exact .cons .nil .nil
  | cons hw _ ih =>
    refine List.rel_flatMap (hw hpos) fun o o' ho => ?_
    rw [List.forall₂_map_left_iff, List.forall₂_map_right_iff]
    exact (ih ho.1).imp fun chain chain' hchain => .cons ho hchain

theorem chainEnd_inStep {chain chain' : List Outcome} (h : List.Forall₂ c.Relates chain chain')
    {pos pos' : Int} (hpos : c.Cursor pos pos') :
    c.Cursor (chainEnd pos chain) (chainEnd pos' chain') := by
  induction h generalizing pos pos' with
  | nil => exact hpos
  | cons ho _ ih =>
    rw [chainEnd_cons, chainEnd_cons]
    exact ih ho.1

/-- Sequences of terms that are in step, in the order of the visits, are in step. The captures of
    their chains are united in the order of the second run, which must not differ from the first. -/
theorem sequence_inStep {ws : List (Ways dir length)} {ws' : List (Ways dir' length')}
    (h : List.Forall₂ (InStep c) (dir.arrange ws) (dir'.arrange ws'))
    (horder : ∀ pos, ∀ chain ∈ chains (dir.arrange ws) pos,
      (chainOutcome dir pos chain).captures = (chainOutcome dir' pos chain).captures) :
    InStep c (sequence ws) (sequence ws') := by
  intro pos pos' hpos
  show List.Forall₂ c.Relates ((chains (dir.arrange ws) pos).map (chainOutcome dir pos))
    ((chains (dir'.arrange ws') pos').map (chainOutcome dir' pos'))
  rw [List.forall₂_map_left_iff, List.forall₂_map_right_iff]
  have hchains := (List.forall₂_and_left _ _).mpr ⟨horder pos, chains_inStep h hpos⟩
  refine hchains.imp fun chain chain' hchain => ⟨chainEnd_inStep hchain.2 hpos, ?_⟩
  rw [hchain.1]
  exact c.merge_chain (dir'.forall₂_arrange hchain.2) c.empty

/-! ## Repetitions -/

theorem order_inStep {q : Quantifier} {settled settled' longer longer' : List Outcome}
    (hs : List.Forall₂ c.Relates settled settled') (hl : List.Forall₂ c.Relates longer longer') :
    List.Forall₂ c.Relates (order q settled longer) (order q settled' longer') := by
  unfold order
  split
  · exact List.rel_append hs hl
  · exact List.rel_append hl hs

/-- From corresponding cursors and with corresponding captures, two repetitions go on in step. -/
theorem repeatFrom_inStep {q : Quantifier} {w : Ways dir length} {w' : Ways dir' length'}
    (hw : InStep c w w') {count : Nat} {pos pos' : Int} {captures captures' : CaptureMap}
    (hpos : c.Cursor pos pos') (hcaptures : c.Captures captures captures') :
    List.Forall₂ c.Relates (repeatFrom q w count pos captures)
      (repeatFrom q w' count pos' captures') := by
  induction count, pos, captures using repeatFrom.induct q w generalizing pos' captures' with
  | _ count pos captures ih =>
    rw [repeatFrom_eq, repeatFrom_eq]
    apply order_inStep
    · unfold settled
      split
      · exact .cons ⟨hpos, hcaptures⟩ .nil
      · exact .nil
    · unfold longer extended
      split
      · -- the induction hypothesis is about ways of the atom, so the membership is kept
        have hmem := (List.forall₂_and_left _ _).mpr ⟨fun o ho => ho, hw hpos⟩
        refine List.rel_flatMap hmem fun next next' hboth => ?_
        obtain ⟨hnext, hrel⟩ := hboth
        have hempty : next.index = pos ∧ q.min ≤ count ↔ next'.index = pos' ∧ q.min ≤ count :=
          and_congr_left fun _ => c.cursor_eq_iff hrel.1 hpos
        by_cases hskip : next.index = pos ∧ q.min ≤ count
        · rw [if_pos hskip, if_pos (hempty.mp hskip)]
          exact .nil
        · rw [if_neg hskip, if_neg fun hskip' => hskip (hempty.mpr hskip')]
          exact ih next hnext hskip hrel.1 (c.merge hcaptures hrel.2)
      · exact .nil

theorem repetition_inStep (q : Quantifier) {w : Ways dir length} {w' : Ways dir' length'}
    (hw : InStep c w w') : InStep c (repetition q w) (repetition q w') :=
  fun _ _ hpos => repeatFrom_inStep hw hpos c.empty

/-! ## Patterns -/

/-- Patterns are in step if their branches are. -/
theorem pattern_inStep {flags flags' : Flags} {subject subject' : Text} {p p' : Pattern}
    (h : List.Forall₂ (InStep c) (p.branchWays flags subject dir)
      (p'.branchWays flags' subject' dir')) :
    InStep c (p.ways flags subject dir) (p'.ways flags' subject' dir') := by
  rw [Pattern.ways_eq_choice, Pattern.ways_eq_choice]
  exact choice_inStep h

/-! ## Runs whose captures differ in their spans -/

theorem capture_mapSpans {f : Span → Span} {tag : GroupTag} {pos pos' : Int} {o o' : Outcome}
    (hspan : Span.between dir' pos' o'.index = f (Span.between dir pos o.index))
    (hcaptures : o'.captures = o.captures.mapSpans f) :
    tag.capture dir' pos' o' = (tag.capture dir pos o).mapSpans f := by
  unfold GroupTag.capture
  cases tag.number with
  | none => exact hcaptures
  | some n =>
    cases tag.name with
    | none => rw [CaptureMap.mapSpans_insert, hspan, hcaptures]
    | some name => rw [CaptureMap.mapSpans_insert, CaptureMap.mapSpans_insert, hspan, hcaptures]

/-- Where the correspondence is a function of cursors and one of captures, the ways of the second
    run are those of the first, each with its cursor moved and its captures changed. -/
theorem InStep.list_eq {w : Ways dir length} {w' : Ways dir' length'} (h : InStep c w w')
    {move : Int → Int} (hmove : ∀ {a a'}, c.Cursor a a' → a' = move a)
    {change : CaptureMap → CaptureMap} (hchange : ∀ {m m'}, c.Captures m m' → m' = change m)
    {pos pos' : Int} (hpos : c.Cursor pos pos') :
    w'.list pos' = (w.list pos).map fun o => ⟨move o.index, change o.captures⟩ := by
  rw [← List.forall₂_eq_eq_eq, List.forall₂_map_right_iff]
  refine (h hpos).flip.imp fun o' o ho => ?_
  obtain ⟨index, captures⟩ := o'
  exact congrArg₂ Outcome.mk (hmove ho.1) (hchange ho.2)

end Ways

end Retrace
