import Retrace.Proofs.Match.Captures
import Retrace.Proofs.Match.Ways
import Retrace.Proofs.Syntax.GroupKeys

/-!
# Where captures come from

Every capture of a way was made by a group on the way, and later parts of the way at most replace
it. So a condition on captures holds of all of them if it holds where a group captures, and if it is
kept when the way is continued at either end. The condition may speak of the cursors at which the
way begins and ends.

Results:

* `GroupTag.find?_capture`: what a group adds to the captures of its body.
* `Part.ways_captures`: what holds where groups capture holds of the captures of all ways.
-/

namespace Retrace

/-- A scan forwards never goes back. -/
theorem Ahead.le_of_forward {length : Nat} {a b : Int} (h : Ahead .forward length a b) :
    a ≤ b := by
  simp only [Ahead, Direction.room] at h
  omega

/-- A scan backwards never goes forth. -/
theorem Ahead.le_of_backward {length : Nat} {a b : Int} (h : Ahead .backward length a b) :
    b ≤ a := by
  simp only [Ahead, Direction.room] at h
  omega

/-- A group captures its span under its own keys and leaves all others as they are. -/
theorem GroupTag.find?_capture (tag : GroupTag) (dir : Direction) (entry : Int) (o : Outcome)
    (k : GroupKey) : (tag.capture dir entry o).find? k =
      if k ∈ tag.keys then some (Span.between dir entry o.index) else o.captures.find? k := by
  obtain ⟨number, name⟩ := tag
  cases number with
  | none => simp [capture, keys]
  | some n =>
    cases name with
    | none => simp [capture, keys, CaptureMap.find?_insert]
    | some name =>
      simp only [capture, keys, CaptureMap.find?_insert, Option.toList_some, List.map_cons,
        List.map_nil, List.mem_cons, List.not_mem_nil, or_false]
      by_cases hname : k = .name name <;> by_cases hn : k = .number n <;> simp [hname, hn]

theorem Direction.mem_arrange {α : Type} {dir : Direction} {l : List α} {a : α} :
    a ∈ dir.arrange l ↔ a ∈ l := by
  cases dir
  · exact Iff.rfl
  · exact List.mem_reverse

namespace Ways

variable {dir : Direction} {length : Nat}

/-- The captures of every way have the property `Q` of the way's beginning and end. -/
def Captures (Q : Int → Int → GroupKey → Span → Prop) (w : Ways dir length) : Prop :=
  ∀ ⦃pos o⦄, o ∈ w.list pos → ∀ ⦃k s⦄, o.captures.find? k = some s → Q pos o.index k s

/-- A property of captures that is kept when the way is continued at either end. -/
def Keeps (dir : Direction) (length : Nat) (Q : Int → Int → GroupKey → Span → Prop) : Prop :=
  ∀ ⦃a b c d k s⦄, Ahead dir length a b → Ahead dir length c d → Q b c k s → Q a d k s

variable {Q : Int → Int → GroupKey → Span → Prop}

theorem single_captures {goal : Int → Option Int}
    (hgoal : ∀ {pos next}, goal pos = some next → Ahead dir length pos next) :
    (single goal hgoal).Captures Q := by
  intro pos o ho k s hs
  obtain ⟨next, -, rfl⟩ := List.mem_map.mp ho
  cases hs

theorem capture_captures {w : Ways dir length} (hw : w.Captures Q) {tag : GroupTag}
    (htag : ∀ pos, ∀ o ∈ w.list pos, ∀ k ∈ tag.keys,
      Q pos o.index k (Span.between dir pos o.index)) :
    (w.mapCaptures (tag.capture dir)).Captures Q := by
  intro pos o ho k s hs
  obtain ⟨o', ho', rfl⟩ := List.mem_map.mp ho
  rw [GroupTag.find?_capture] at hs
  split at hs
  case isTrue hk =>
    cases hs
    exact htag pos o' ho' k hk
  case isFalse => exact hw ho' hs

theorem choice_captures {ws : List (Ways dir length)} (hws : ∀ w ∈ ws, w.Captures Q) :
    (choice ws).Captures Q := by
  intro pos o ho k s hs
  have ho : o ∈ choiceList ws pos := ho
  unfold choiceList at ho
  split at ho
  · rw [List.mem_singleton.mp ho] at hs
    cases hs
  · obtain ⟨w, hw, ho⟩ := List.mem_flatMap.mp ho
    exact hws w hw ho hs

theorem chain_captures (hQ : Keeps dir length Q) {ws : List (Ways dir length)}
    (hws : ∀ w ∈ ws, w.Captures Q) {pos : Int} {chain : List Outcome} (hc : chain ∈ chains ws pos)
    {o : Outcome} (ho : o ∈ chain) {k : GroupKey} {s : Span} (hs : o.captures.find? k = some s) :
    Q pos (chainEnd pos chain) k s := by
  induction ws generalizing pos chain with
  | nil =>
    rw [List.mem_singleton.mp hc] at ho
    exact absurd ho List.not_mem_nil
  | cons w ws ih =>
    obtain ⟨o', ho', rest, hrest, rfl⟩ := mem_chains.mp hc
    rw [chainEnd_cons]
    rcases List.mem_cons.mp ho with rfl | ho
    · exact hQ (.refl pos) (chainEnd_ahead hrest) (hws w List.mem_cons_self ho' hs)
    · have hlater := ih (fun w' hw' => hws w' (List.mem_cons_of_mem w hw')) hrest ho
      exact hQ (w.ahead ho') (.refl _) hlater

theorem sequence_captures (hQ : Keeps dir length Q) {ws : List (Ways dir length)}
    (hws : ∀ w ∈ ws, w.Captures Q) : (sequence ws).Captures Q := by
  intro pos o ho k s hs
  obtain ⟨chain, hc, rfl⟩ := List.mem_map.mp ho
  rcases find?_foldl_merge hs with hs | ⟨o, ho, hs⟩
  · cases hs
  · exact chain_captures hQ (fun w hw => hws w (Direction.mem_arrange.mp hw)) hc
      (Direction.mem_arrange.mp ho) hs

/-- The invariant of a repetition: what its chain has captured so far, since its beginning at
    `start`, has the property. -/
theorem repeatFrom_captures (hQ : Keeps dir length Q) {q : Quantifier} {w : Ways dir length}
    (hw : w.Captures Q) {start : Int} {count : Nat} {pos : Int} {captures : CaptureMap}
    (hahead : Ahead dir length start pos)
    (hcaptures : ∀ ⦃k s⦄, captures.find? k = some s → Q start pos k s) {o : Outcome}
    (ho : o ∈ repeatFrom q w count pos captures) {k : GroupKey} {s : Span}
    (hs : o.captures.find? k = some s) : Q start o.index k s := by
  induction count, pos, captures using repeatFrom.induct q w with
  | _ count pos captures ih =>
    rcases mem_repeatFrom.mp ho with ⟨-, rfl⟩ | ⟨-, next, hnext, hne, ho⟩
    · exact hcaptures hs
    · have hstep := w.ahead hnext
      refine ih next hnext hne (hahead.trans hstep) (fun k s hs => ?_) ho
      rw [CaptureMap.find?_merge, Option.or_eq_some_iff] at hs
      rcases hs with hs | ⟨-, hs⟩
      · exact hQ hahead (.refl _) (hw hnext hs)
      · exact hQ (.refl _) hstep (hcaptures hs)

theorem repetition_captures (hQ : Keeps dir length Q) (q : Quantifier) {w : Ways dir length}
    (hw : w.Captures Q) : (repetition q w).Captures Q := by
  intro pos o ho k s hs
  refine repeatFrom_captures hQ hw (.refl pos) (fun k s hs => ?_) ho hs
  cases hs

end Ways

/-! ## Patterns -/

/-- Every term of a part, at any depth. -/
def Part.subterms : Part → List Term
  | term t => t.subterms
  | branch b => b.subterms
  | pattern p => p.subterms

section Patterns

variable (flags : Flags) (subject : Text) {dir : Direction}
  {Q : Int → Int → GroupKey → Span → Prop}

/-- Where one of the groups among the terms captures, the property holds. -/
def GroupsCapture (dir : Direction) (Q : Int → Int → GroupKey → Span → Prop) (ts : List Term) :
    Prop :=
  ∀ tag body, .group tag body ∈ ts → ∀ pos, ∀ o ∈ (Pattern.ways flags subject body dir).list pos,
    ∀ k ∈ tag.keys, Q pos o.index k (Span.between dir pos o.index)

variable {flags subject}

theorem GroupsCapture.mono {ts us : List Term} (h : GroupsCapture flags subject dir Q us)
    (hsub : ts ⊆ us) : GroupsCapture flags subject dir Q ts :=
  fun tag body hmem => h tag body (hsub hmem)

/-- A group captures under a key of one of the terms. -/
theorem groupsCapture_keys (ts : List Term) : GroupsCapture flags subject dir
    (fun _ _ k _ => k ∈ ts.flatMap Term.ownKeys) ts :=
  fun tag body hmem _ _ _ _ hk => List.mem_flatMap.mpr ⟨.group tag body, hmem, hk⟩

theorem Ways.pattern_captures {p : Pattern}
    (h : ∀ w ∈ p.branchWays flags subject dir, w.Captures Q) :
    (p.ways flags subject dir).Captures Q := by
  rw [Pattern.ways_eq_choice]
  exact choice_captures h

mutual

theorem Term.ways_captures (hQ : Ways.Keeps dir subject.size Q) : (t : Term) →
    GroupsCapture flags subject dir Q t.subterms → (t.ways flags subject dir).Captures Q
  | .char _, _ => Ways.single_captures Ways.charGoal_ahead
  | .anchor _, _ => Ways.single_captures Ways.gapGoal_ahead
  | .look _ _ _, _ => Ways.single_captures Ways.gapGoal_ahead
  | .group tag body, h => by
    have hbranches := Pattern.branchWays_captures hQ body (h.mono (List.subset_cons_self _ _))
    exact Ways.capture_captures (Ways.pattern_captures hbranches) (h tag body List.mem_cons_self)
  | .repeated atom q, h =>
    Ways.repetition_captures hQ q (Term.ways_captures hQ atom (h.mono (List.subset_cons_self _ _)))
  | .backreference _, _ => fun _ _ ho => absurd ho List.not_mem_nil
termination_by structural t => t

theorem Branch.termWays_captures (hQ : Ways.Keeps dir subject.size Q) : (b : Branch) →
    GroupsCapture flags subject dir Q b.subterms →
      ∀ w ∈ b.termWays flags subject dir, w.Captures Q
  | [], _ => fun _ hw => absurd hw List.not_mem_nil
  | t :: b, h => by
    have ht := Term.ways_captures hQ t (h.mono (List.subset_append_left _ _))
    have hb := Branch.termWays_captures hQ b (h.mono (List.subset_append_right _ _))
    exact List.forall_mem_cons.mpr ⟨ht, hb⟩
termination_by structural b => b

theorem Pattern.branchWays_captures (hQ : Ways.Keeps dir subject.size Q) : (p : Pattern) →
    GroupsCapture flags subject dir Q p.subterms →
      ∀ w ∈ p.branchWays flags subject dir, w.Captures Q
  | [], _ => fun _ hw => absurd hw List.not_mem_nil
  | b :: p, h => by
    have hb := Branch.termWays_captures hQ b (h.mono (List.subset_append_left _ _))
    have hp := Pattern.branchWays_captures hQ p (h.mono (List.subset_append_right _ _))
    exact List.forall_mem_cons.mpr ⟨Ways.sequence_captures hQ hb, hp⟩
termination_by structural p => p

end

/-- What holds wherever a group of a part captures holds of the captures of all its ways. -/
theorem Part.ways_captures (hQ : Ways.Keeps dir subject.size Q) (part : Part)
    (h : GroupsCapture flags subject dir Q part.subterms) :
    (part.ways flags subject dir).Captures Q := by
  cases part with
  | term t => exact Term.ways_captures hQ t h
  | branch b => exact Ways.sequence_captures hQ (Branch.termWays_captures hQ b h)
  | pattern p => exact Ways.pattern_captures (Pattern.branchWays_captures hQ p h)

end Patterns

end Retrace
