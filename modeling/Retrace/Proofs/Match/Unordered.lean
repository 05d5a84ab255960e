import Mathlib.Data.List.Perm.Basic
import Retrace.Proofs.Match.Correspondence

/-!
# Ways up to their order

Two runs can have the same ways in different orders, or all ways of the one can be ways of the other
among more. Neither is about single ways in step, since a way is put off or left out together with
all ways that go on from it. But both are kept when lists of ways are put together, in whatever
order: if the parts of two patterns compare so, then so do the choices, sequences and repetitions of
these parts. A repetition may be lazy in the one run and greedy in the other, since that only tells
in which order a chain of ways and the longer ones come.

Results:

* `Ways.choice_compares`, `Ways.sequence_compares`, `Ways.repetition_compares`: parts that compare
  make wholes that compare.
-/

namespace Retrace

/-- A manner of comparing lists in which their order plays no part. -/
structure Comparison where
  /-- The first list compares with the second. -/
  Holds : {α : Type} → List α → List α → Prop
  refl : ∀ {α : Type} (l : List α), Holds l l
  trans : ∀ {α : Type} {l l' l'' : List α}, Holds l l' → Holds l' l'' → Holds l l''
  append : ∀ {α : Type} {l l' m m' : List α}, Holds l l' → Holds m m' → Holds (l ++ m) (l' ++ m')
  append_comm : ∀ {α : Type} (l m : List α), Holds (l ++ m) (m ++ l)
  flatMap : ∀ {α β : Type} {l l' : List α} {f f' : α → List β}, Holds l l' →
    (∀ a ∈ l, Holds (f a) (f' a)) → Holds (l.flatMap f) (l'.flatMap f')

namespace Comparison

/-- Each item of the first list stands in the second one. -/
def containment : Comparison where
  Holds l l' := l ⊆ l'
  refl := List.Subset.refl
  trans := List.Subset.trans
  append hl hm := List.append_subset.mpr
    ⟨List.subset_append_of_subset_left _ hl, List.subset_append_of_subset_right _ hm⟩
  append_comm _ _ := List.perm_append_comm.subset
  flatMap hl hf b hb := by
    obtain ⟨a, ha, hb⟩ := List.mem_flatMap.mp hb
    exact List.mem_flatMap.mpr ⟨a, hl ha, hf a ha hb⟩

/-- The lists have the same items, each as often in the one as in the other. -/
def permutation : Comparison where
  Holds := List.Perm
  refl := List.Perm.refl
  trans := List.Perm.trans
  append := List.Perm.append
  append_comm _ _ := List.perm_append_comm
  flatMap := List.Perm.flatMap

theorem map {c : Comparison} {α β : Type} {l l' : List α} (h : c.Holds l l') (f : α → β) :
    c.Holds (l.map f) (l'.map f) := by
  rw [List.map_eq_flatMap, List.map_eq_flatMap]
  exact c.flatMap h fun a _ => c.refl _

end Comparison

namespace Ways

variable {c : Comparison} {dir : Direction} {length : Nat}

/-- From every position, the ways of the one part compare with those of the other. -/
def Compares (c : Comparison) (w w' : Ways dir length) : Prop :=
  ∀ pos, c.Holds (w.list pos) (w'.list pos)

theorem Compares.refl (w : Ways dir length) : Compares c w w := fun _ => c.refl _

theorem mapCaptures_compares {w w' : Ways dir length} (h : Compares c w w')
    (f : Int → Outcome → CaptureMap) : Compares c (w.mapCaptures f) (w'.mapCaptures f) :=
  fun pos => c.map (h pos) _

/-- Conditions that hold on the same gaps are one condition. -/
theorem gap_congr {holds holds' : Int → Bool} (h : ∀ pos, holds pos = holds' pos) :
    (single (gapGoal holds) gapGoal_ahead : Ways dir length) =
      single (gapGoal holds') gapGoal_ahead := by
  rw [funext h]

/-! ## Choices and sequences -/

theorem choice_compares {ws ws' : List (Ways dir length)} (h : List.Forall₂ (Compares c) ws ws') :
    Compares c (choice ws) (choice ws') := by
  intro pos
  have hflat : c.Holds (ws.flatMap fun w => w.list pos) (ws'.flatMap fun w => w.list pos) := by
    induction h with
    | nil => exact c.refl _
    | cons hw _ ih => exact c.append (hw pos) ih
  cases h with
  | nil => exact c.refl _
  | cons => exact hflat

theorem chains_compares {ws ws' : List (Ways dir length)} (h : List.Forall₂ (Compares c) ws ws')
    (pos : Int) : c.Holds (chains ws pos) (chains ws' pos) := by
  induction h generalizing pos with
  | nil => exact c.refl _
  | cons hw _ ih => exact c.flatMap (hw pos) fun o _ => c.map (ih o.index) _

theorem sequence_compares {ws ws' : List (Ways dir length)} (h : List.Forall₂ (Compares c) ws ws') :
    Compares c (sequence ws) (sequence ws') :=
  fun pos => c.map (chains_compares (dir.forall₂_arrange h) pos) _

/-! ## Repetitions -/

/-- It does not matter whether a chain comes before the longer ones or behind them. -/
theorem order_compares {q : Quantifier} {settled settled' longer longer' : List Outcome}
    (hs : c.Holds settled settled') (hl : c.Holds longer longer') (lazy : Bool) :
    c.Holds (order q settled longer) (order { q with lazy } settled' longer') := by
  have hswap {l l' m m' : List Outcome} (h : c.Holds l l') (h' : c.Holds m m') :
      c.Holds (l ++ m) (m' ++ l') := c.trans (c.append h h') (c.append_comm l' m')
  unfold order
  cases q.lazy <;> cases lazy
  · exact c.append hl hs
  · exact hswap hl hs
  · exact hswap hs hl
  · exact c.append hs hl

/-- From the same chain on, two repetitions within the same bounds compare. -/
theorem repeatFrom_compares {q : Quantifier} {w w' : Ways dir length} (hw : Compares c w w')
    (lazy : Bool) (count : Nat) (pos : Int) (captures : CaptureMap) :
    c.Holds (repeatFrom q w count pos captures)
      (repeatFrom { q with lazy } w' count pos captures) := by
  induction count, pos, captures using repeatFrom.induct q w with
  | _ count pos captures ih =>
    rw [repeatFrom_eq, repeatFrom_eq]
    refine order_compares (c.refl _) ?_ lazy
    show c.Holds (if q.allows (count + 1) then _ else []) (if q.allows (count + 1) then _ else [])
    split
    · refine c.flatMap (hw pos) fun next hnext => ?_
      by_cases hskip : next.index = pos ∧ q.min ≤ count
      · rw [if_pos hskip, if_pos hskip]
        exact c.refl _
      · rw [if_neg hskip, if_neg hskip]
        exact ih next hnext hskip
    · exact c.refl _

theorem repetition_compares (q : Quantifier) {w w' : Ways dir length} (hw : Compares c w w')
    (lazy : Bool) : Compares c (repetition q w) (repetition { q with lazy } w') :=
  fun pos => repeatFrom_compares hw lazy 0 pos .empty

/-! ## Patterns -/

theorem pattern_compares {flags flags' : Flags} {subject : Text} {p p' : Pattern}
    (h : List.Forall₂ (Compares c) (p.branchWays flags subject dir)
      (p'.branchWays flags' subject dir)) :
    Compares c (p.ways flags subject dir) (p'.ways flags' subject dir) := by
  rw [Pattern.ways_eq_choice, Pattern.ways_eq_choice]
  exact choice_compares h

end Ways

end Retrace
