import Retrace.Proofs.Match.Correspondence
import Retrace.Proofs.Match.Provenance
import Retrace.Proofs.Syntax.Renumbering

/-!
# Matching with raised numbers

The numbers of groups have no bearing on what a pattern matches: with its numbers raised, it has the
same ways, with the same captures under raised numbers. Two patterns one after the other, or one
within parentheses, match as each of them does.

Results:

* `CaptureMap.find?_raised`: what a map with raised numbers holds.
* `Pattern.list_raised`: the ways of a pattern with raised numbers.
* `Pattern.list_alternatives_append`, `Pattern.list_group`: the ways of the branches of two
  patterns, and of a pattern in a group.
-/

namespace Retrace

/-! ## Raised keys -/

namespace GroupKey

/-- The key with its number raised. Names stay. -/
def raised (k : Nat) : GroupKey → GroupKey
  | number n => number (n + k)
  | name s => name s

/-- The key whose raised key is the given one, if there is one. -/
def lowered? (k : Nat) : GroupKey → Option GroupKey
  | number n => if k ≤ n then some (number (n - k)) else none
  | name s => some (name s)

theorem lowered?_eq_some_iff {k : Nat} {a b : GroupKey} :
    a.lowered? k = some b ↔ a = b.raised k := by
  cases a with
  | name s => cases b <;> simp [lowered?, raised]
  | number n =>
    cases b with
    | name s => simp [lowered?, raised]
    | number m =>
      rw [lowered?, Option.ite_none_right_eq_some]
      simp only [raised, Option.some.injEq, number.injEq]
      omega

theorem raised_injective {k : Nat} {a b : GroupKey} (h : a.raised k = b.raised k) : a = b :=
  Option.some.inj ((lowered?_eq_some_iff.mpr rfl).symm.trans (lowered?_eq_some_iff.mpr h))

theorem raised_lt {k : Nat} {a b : GroupKey} (h : a < b) : a.raised k < b.raised k := by
  cases a with
  | number n =>
    cases b with
    | number m => exact Nat.add_lt_add_right (show n < m from h) k
    | name => exact h
  | name =>
    cases b with
    | number => exact h.elim
    | name => exact h

end GroupKey

theorem GroupTag.keys_raised (k : Nat) (tag : GroupTag) :
    (tag.raised k).keys = tag.keys.map (GroupKey.raised k) := by
  obtain ⟨number, name⟩ := tag
  cases number <;> cases name <;> rfl

namespace CaptureMap

/-- The map with the numbers of its keys raised. -/
def raised (k : Nat) (m : CaptureMap) : CaptureMap where
  entries := m.entries.map fun e => (e.1.raised k, e.2)
  sorted := List.pairwise_map.mpr (m.sorted.imp GroupKey.raised_lt)

/-- A map with raised numbers holds under a key what the map holds under the key before. -/
theorem find?_raised (k : Nat) (m : CaptureMap) (key : GroupKey) :
    (m.raised k).find? key = (key.lowered? k).bind m.find? := by
  ext s
  rw [find?_eq_some_iff, Option.bind_eq_some_iff]
  show (key, s) ∈ m.entries.map (fun e => (e.1.raised k, e.2)) ↔ _
  rw [List.mem_map]
  constructor
  · rintro ⟨⟨key', s'⟩, hmem, heq⟩
    obtain ⟨hkey, rfl⟩ := Prod.mk.inj heq
    exact ⟨key', GroupKey.lowered?_eq_some_iff.mpr hkey.symm, find?_eq_some_iff.mpr hmem⟩
  · rintro ⟨key', hkey, hs⟩
    rw [GroupKey.lowered?_eq_some_iff.mp hkey]
    exact ⟨(key', s), find?_eq_some_iff.mp hs, rfl⟩

@[simp] theorem raised_empty (k : Nat) : empty.raised k = empty := rfl

theorem raised_zero (m : CaptureMap) : m.raised 0 = m := by
  apply ext_find?
  intro key
  have hlowered : key.lowered? 0 = some key :=
    GroupKey.lowered?_eq_some_iff.mpr (by cases key <;> rfl)
  rw [find?_raised, hlowered]
  rfl

theorem raised_merge (k : Nat) (a b : CaptureMap) :
    (a.merge b).raised k = (a.raised k).merge (b.raised k) := by
  apply ext_find?
  intro key
  rw [find?_raised, find?_merge, find?_raised, find?_raised]
  cases key.lowered? k with
  | none => rfl
  | some key' => exact find?_merge a b key'

theorem empty_merge (m : CaptureMap) : empty.merge m = m := by
  apply ext_find?
  intro key
  rw [find?_merge, find?_empty, Option.or_none]

end CaptureMap

/-- The way with the numbers of its captures raised. -/
def Outcome.raised (k : Nat) (o : Outcome) : Outcome := ⟨o.index, o.captures.raised k⟩

/-- A group with a raised number captures the same span under the raised number. -/
theorem GroupTag.capture_raised (k : Nat) (tag : GroupTag) (dir : Direction) (entry : Int)
    (o : Outcome) :
    (tag.raised k).capture dir entry (o.raised k) = (tag.capture dir entry o).raised k := by
  apply CaptureMap.ext_find?
  intro key
  rw [find?_capture, keys_raised, CaptureMap.find?_raised]
  cases hkey : key.lowered? k with
  | none =>
    have hnot : key ∉ tag.keys.map (GroupKey.raised k) := by
      intro hmem
      obtain ⟨key', -, rfl⟩ := List.mem_map.mp hmem
      rw [GroupKey.lowered?_eq_some_iff.mpr rfl] at hkey
      cases hkey
    rw [if_neg hnot]
    show (o.captures.raised k).find? key = none
    rw [CaptureMap.find?_raised, hkey]
    rfl
  | some key' =>
    have hraised := GroupKey.lowered?_eq_some_iff.mp hkey
    have hmem : key ∈ tag.keys.map (GroupKey.raised k) ↔ key' ∈ tag.keys := by
      rw [hraised]
      exact List.mem_map_of_injective fun a b h => GroupKey.raised_injective h
    rw [Option.bind_some, find?_capture]
    show (if _ then _ else (o.captures.raised k).find? key) = _
    rw [CaptureMap.find?_raised, hkey]
    by_cases h : key' ∈ tag.keys
    · rw [if_pos h, if_pos (hmem.mpr h)]
      rfl
    · rw [if_neg h, if_neg (mt hmem.mp h)]
      rfl

/-! ## Patterns -/

/-- Runs that are at the same cursors and have captured the same under raised numbers. -/
def raising (k : Nat) : Correspondence where
  Cursor := Eq
  Captures m m' := m' = m.raised k
  cursor_eq_iff := by
    rintro a - b - rfl rfl
    exact Iff.rfl
  empty := rfl
  merge := by
    rintro a - b - rfl rfl
    exact (CaptureMap.raised_merge k a b).symm

section Patterns

variable (k : Nat) {flags : Flags} {subject : Text} {dir : Direction}

mutual

theorem Term.ways_raised (t : Term) (dir : Direction) : Ways.InStep (raising k)
    (t.ways flags subject dir) ((t.raised k).ways flags subject dir) := by
  cases t with
  | char e =>
    refine Ways.char_inStep ?_ ?_
    · rintro pos - rfl
      rfl
    · rintro pos - cp rfl -
      rfl
  | anchor a =>
    refine Ways.gap_inStep ?_
    rintro pos - rfl
    rfl
  | look look negated body =>
    have hbody := Ways.pattern_inStep (Pattern.branchWays_raised body look)
    refine Ways.gap_inStep ?_
    rintro pos - rfl
    rw [hbody.isEmpty_eq rfl]
  | group tag body =>
    refine Ways.mapCaptures_inStep (Ways.pattern_inStep (Pattern.branchWays_raised body dir)) ?_
    rintro pos - o o' rfl ⟨hindex, hcaptures⟩
    have ho : o' = o.raised k := by
      obtain ⟨index, captures⟩ := o'
      exact congrArg₂ Outcome.mk hindex.symm hcaptures
    rw [ho]
    exact GroupTag.capture_raised k tag dir pos o
  | repeated atom q => exact Ways.repetition_inStep q (Term.ways_raised atom dir)
  | backreference target => exact Ways.never_inStep
termination_by structural t

theorem Branch.termWays_raised (b : Branch) (dir : Direction) :
    List.Forall₂ (Ways.InStep (raising k)) (b.termWays flags subject dir)
      ((b.raised k).termWays flags subject dir) := by
  cases b with
  | nil => exact .nil
  | cons t b => exact .cons (Term.ways_raised t dir) (Branch.termWays_raised b dir)
termination_by structural b

theorem Pattern.branchWays_raised (p : Pattern) (dir : Direction) :
    List.Forall₂ (Ways.InStep (raising k)) (p.branchWays flags subject dir)
      ((p.raised k).branchWays flags subject dir) := by
  cases p with
  | nil => exact .nil
  | cons b p =>
    have hb := dir.forall₂_arrange (Branch.termWays_raised b dir)
    exact .cons (Ways.sequence_inStep hb fun _ _ _ => rfl) (Pattern.branchWays_raised p dir)
termination_by structural p

end

variable (flags subject dir)

/-- A pattern with raised numbers has the same ways, with captures under raised numbers. -/
theorem Pattern.list_raised (p : Pattern) (pos : Int) :
    ((p.raised k).ways flags subject dir).list pos =
      ((p.ways flags subject dir).list pos).map (Outcome.raised k) :=
  (Ways.pattern_inStep (Pattern.branchWays_raised k p dir)).list_eq (fun h => h.symm)
    (fun h => h) rfl

/-! ## Patterns side by side and within groups -/

theorem Pattern.branchWays_append (p q : Pattern) : (p ++ q).branchWays flags subject dir =
    p.branchWays flags subject dir ++ q.branchWays flags subject dir := by
  induction p with
  | nil => rfl
  | cons b p ih => rw [List.cons_append, branchWays, ih]; rfl

theorem Pattern.list_alternatives (p : Pattern) (pos : Int) :
    (p.ways flags subject dir).list pos =
      (p.alternatives.branchWays flags subject dir).flatMap fun w => w.list pos := by
  cases p with
  | nil => cases dir <;> rfl
  | cons b p => rfl

/-- The branches of two patterns have the ways of the one before those of the other. -/
theorem Pattern.list_alternatives_append (p q : Pattern) (pos : Int) :
    ((p.alternatives ++ q.alternatives).ways flags subject dir).list pos =
      (p.ways flags subject dir).list pos ++ (q.ways flags subject dir).list pos := by
  have hne :
      (p.alternatives ++ q.alternatives).alternatives = p.alternatives ++ q.alternatives := by
    cases p <;> rfl
  rw [list_alternatives, hne, branchWays_append, List.flatMap_append, ← list_alternatives,
    ← list_alternatives]

/-- A sequence of one part has the ways of the part. -/
theorem Ways.list_sequence_singleton {length : Nat} (w : Ways dir length) (pos : Int) :
    (Ways.sequence [w]).list pos = w.list pos := by
  have harrange : dir.arrange [w] = [w] := by cases dir <;> rfl
  have hone (o : Outcome) : Ways.chainOutcome dir pos [o] = o := by
    have harrange : dir.arrange [o] = [o] := by cases dir <;> rfl
    rw [Ways.chainOutcome, harrange, List.foldl_cons, List.foldl_nil, CaptureMap.empty_merge]
    rfl
  show (Ways.chains (dir.arrange [w]) pos).map (Ways.chainOutcome dir pos) = _
  rw [harrange, Ways.chains, List.map_flatMap]
  simp only [Ways.chains, List.map_cons, List.map_nil, hone]
  exact List.flatMap_singleton' _

/-- A pattern that is one group has the ways of the group's body, and the captures of the group. -/
theorem Pattern.list_group (tag : GroupTag) (body : Pattern) (pos : Int) :
    (Pattern.ways flags subject [[.group tag body]] dir).list pos =
      ((body.ways flags subject dir).list pos).map fun o =>
        { o with captures := tag.capture dir pos o } := by
  rw [list_alternatives]
  show List.flatMap _ [Ways.sequence [Term.ways flags subject (.group tag body) dir]] = _
  rw [List.flatMap_singleton, Ways.list_sequence_singleton]
  rfl

end Patterns

end Retrace
