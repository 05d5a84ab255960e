import Retrace.Proofs.Match.Provenance
import Retrace.Proofs.Syntax.Nesting

/-!
# Which groups have captured

The ways of a term are united with those of the terms beside it and captured by the groups around
it. If no two groups have a key in common, then neither touches the keys within the term, so that a
condition on captures under these keys that holds of the ways of the term, and that uniting keeps,
holds of all ways of the pattern. A condition that uniting with captures that meet it brings about
needs no more than that no way can pass by the term.

Results:

* `Pattern.Contains.upholds`: what the ways of a term uphold, the ways of the pattern around it do.
* `Pattern.Contains.captures`: a group that no way can pass by has captured on all ways.
-/

namespace Retrace

/-- A condition on captures that holds of none and that uniting captures keeps. -/
structure Mergeable (P : CaptureMap → Prop) : Prop where
  empty : P .empty
  merge : ∀ {a b}, P a → P b → P (a.merge b)

/-- A condition that some ways and the captures before them meet, their union meets. -/
theorem Mergeable.foldl {P : CaptureMap → Prop} (hP : Mergeable P) {chain : List Outcome}
    (hchain : ∀ o ∈ chain, P o.captures) {m : CaptureMap} (hm : P m) :
    P (chain.foldl (fun captures o => captures.merge o.captures) m) := by
  induction chain generalizing m with
  | nil => exact hm
  | cons o chain ih =>
    obtain ⟨ho, hchain⟩ := List.forall_mem_cons.mp hchain
    exact ih hchain (hP.merge hm ho)

/-- That nothing is captured under a key is kept when captures are united. -/
theorem mergeable_find?_eq_none (k : GroupKey) : Mergeable fun m => m.find? k = none where
  empty := rfl
  merge ha hb := by
    rw [CaptureMap.find?_merge, ha, hb]
    rfl

/-- That one key is captured only together with another one is kept when captures are united. -/
theorem mergeable_find?_isSome_imp (k k' : GroupKey) :
    Mergeable fun m => (m.find? k).isSome → (m.find? k').isSome where
  empty h := by cases h
  merge ha hb := by
    rw [CaptureMap.find?_merge, CaptureMap.find?_merge, Option.isSome_or, Option.isSome_or,
      Bool.or_eq_true, Bool.or_eq_true]
    exact Or.imp hb ha

/-- That the same is captured under two keys is kept when captures are united. -/
theorem mergeable_find?_eq (k k' : GroupKey) :
    Mergeable fun m => m.find? k = m.find? k' where
  empty := rfl
  merge ha hb := by rw [CaptureMap.find?_merge, CaptureMap.find?_merge, ha, hb]

/-- What one of several ways has captured under a key, or what was captured before them, is replaced
    but not lost. -/
theorem isSome_find?_foldl_merge {chain : List Outcome} {m : CaptureMap} {k : GroupKey}
    (h : (m.find? k).isSome ∨ ∃ o ∈ chain, (o.captures.find? k).isSome) :
    ((chain.foldl (fun captures o => captures.merge o.captures) m).find? k).isSome := by
  induction chain generalizing m with
  | nil =>
    rcases h with h | ⟨o, ho, -⟩
    · exact h
    · exact absurd ho List.not_mem_nil
  | cons o chain ih =>
    apply ih
    rw [CaptureMap.find?_merge, Option.isSome_or, Bool.or_eq_true]
    rcases h with h | ⟨o', ho', h⟩
    · exact .inl (.inr h)
    · rcases List.mem_cons.mp ho' with rfl | ho'
      · exact .inl (.inl h)
      · exact .inr ⟨o', ho', h⟩

namespace Ways

variable {dir : Direction} {length : Nat}

/-- The captures of every way meet the condition. -/
def Upholds (P : CaptureMap → Prop) (w : Ways dir length) : Prop :=
  ∀ ⦃pos o⦄, o ∈ w.list pos → P o.captures

/-! ## Conditions that uniting keeps -/

section Mergeable

variable {P : CaptureMap → Prop}

theorem single_upholds (hP : Mergeable P) {goal : Int → Option Int}
    (hgoal : ∀ {pos next}, goal pos = some next → Ahead dir length pos next) :
    (single goal hgoal).Upholds P := by
  intro pos o ho
  obtain ⟨next, -, rfl⟩ := List.mem_map.mp ho
  exact hP.empty

theorem capture_upholds {w : Ways dir length} (hw : w.Upholds P) {tag : GroupTag}
    (htag : ∀ {pos o}, P o.captures → P (tag.capture dir pos o)) :
    (w.mapCaptures (tag.capture dir)).Upholds P := by
  intro pos o ho
  obtain ⟨o', ho', rfl⟩ := List.mem_map.mp ho
  exact htag (hw ho')

theorem choice_upholds (hP : Mergeable P) {ws : List (Ways dir length)}
    (hws : ∀ w ∈ ws, w.Upholds P) : (choice ws).Upholds P := by
  intro pos o ho
  have ho : o ∈ choiceList ws pos := ho
  unfold choiceList at ho
  split at ho
  · rw [List.mem_singleton.mp ho]
    exact hP.empty
  · obtain ⟨w, hw, ho⟩ := List.mem_flatMap.mp ho
    exact hws w hw ho

theorem sequence_upholds (hP : Mergeable P) {ws : List (Ways dir length)}
    (hws : ∀ w ∈ ws, w.Upholds P) : (sequence ws).Upholds P := by
  intro pos o ho
  obtain ⟨chain, hc, rfl⟩ := List.mem_map.mp ho
  refine hP.foldl (fun o ho => ?_) hP.empty
  obtain ⟨w, hw, pos', ho⟩ := mem_of_mem_chain hc (Direction.mem_arrange.mp ho)
  exact hws w (Direction.mem_arrange.mp hw) ho

theorem repeatFrom_upholds (hP : Mergeable P) {q : Quantifier} {w : Ways dir length}
    (hw : w.Upholds P) {count : Nat} {pos : Int} {captures : CaptureMap} (hm : P captures)
    {o : Outcome} (ho : o ∈ repeatFrom q w count pos captures) : P o.captures := by
  induction count, pos, captures using repeatFrom.induct q w with
  | _ count pos captures ih =>
    rcases mem_repeatFrom.mp ho with ⟨-, rfl⟩ | ⟨-, next, hnext, hne, ho⟩
    · exact hm
    · exact ih next hnext hne (hP.merge hm (hw hnext)) ho

theorem repetition_upholds (hP : Mergeable P) (q : Quantifier) {w : Ways dir length}
    (hw : w.Upholds P) : (repetition q w).Upholds P :=
  fun _ _ ho => repeatFrom_upholds hP hw hP.empty ho

end Mergeable

/-! ## Keys that every way captures -/

/-- Every way has captured under the key. -/
def Always (k : GroupKey) (w : Ways dir length) : Prop :=
  w.Upholds fun m => (m.find? k).isSome

variable {k : GroupKey}

/-- A group has captured under its own keys, and under those that its body has. -/
theorem capture_always {w : Ways dir length} {tag : GroupTag} (h : k ∈ tag.keys ∨ w.Always k) :
    (w.mapCaptures (tag.capture dir)).Always k := by
  intro pos o ho
  obtain ⟨o', ho', rfl⟩ := List.mem_map.mp ho
  show ((tag.capture dir pos o').find? k).isSome
  rw [GroupTag.find?_capture]
  split
  case isTrue => rfl
  case isFalse hk => exact (h.resolve_left hk) ho'

/-- A choice that is none has captured what its only branch has. -/
theorem choice_always {w : Ways dir length} (hw : w.Always k) : (choice [w]).Always k := by
  intro pos o ho
  obtain ⟨w', hw', ho⟩ := List.mem_flatMap.mp ho
  rw [List.mem_singleton.mp hw'] at ho
  exact hw ho

/-- A chain holds a way of every part. -/
theorem exists_mem_of_mem_chains {ws : List (Ways dir length)} {pos : Int} {chain : List Outcome}
    (hc : chain ∈ chains ws pos) {w : Ways dir length} (hw : w ∈ ws) :
    ∃ o ∈ chain, ∃ pos', o ∈ w.list pos' := by
  induction ws generalizing pos chain with
  | nil => exact absurd hw List.not_mem_nil
  | cons w' ws ih =>
    obtain ⟨o, ho, rest, hrest, rfl⟩ := mem_chains.mp hc
    rcases List.mem_cons.mp hw with rfl | hw
    · exact ⟨o, List.mem_cons_self, pos, ho⟩
    · obtain ⟨o', ho', hpos'⟩ := ih hrest hw
      exact ⟨o', List.mem_cons_of_mem o ho', hpos'⟩

/-- A sequence has captured what one of its terms always has. -/
theorem sequence_always {ws : List (Ways dir length)} {w : Ways dir length} (hmem : w ∈ ws)
    (hw : w.Always k) : (sequence ws).Always k := by
  intro pos o ho
  obtain ⟨chain, hc, rfl⟩ := List.mem_map.mp ho
  obtain ⟨o, ho, pos', hway⟩ := exists_mem_of_mem_chains hc (Direction.mem_arrange.mpr hmem)
  exact isSome_find?_foldl_merge (.inr ⟨o, Direction.mem_arrange.mpr ho, hw hway⟩)

/-- The invariant of a repetition: its chain has captured under the key, or is too short to end. -/
theorem repeatFrom_always {q : Quantifier} {w : Ways dir length} (hw : w.Always k) {count : Nat}
    {pos : Int} {captures : CaptureMap} (hm : count < q.min ∨ (captures.find? k).isSome)
    {o : Outcome} (ho : o ∈ repeatFrom q w count pos captures) : (o.captures.find? k).isSome := by
  induction count, pos, captures using repeatFrom.induct q w with
  | _ count pos captures ih =>
    rcases mem_repeatFrom.mp ho with ⟨hmin, rfl⟩ | ⟨-, next, hnext, hne, ho⟩
    · exact hm.resolve_left (by omega)
    · refine ih next hnext hne (.inr ?_) ho
      rw [CaptureMap.find?_merge, Option.isSome_or, Bool.or_eq_true]
      exact .inl (hw hnext)

/-- A repetition that goes through its atom at least once has captured what the atom has. -/
theorem repetition_always {q : Quantifier} (hq : 1 ≤ q.min) {w : Ways dir length}
    (hw : w.Always k) : (repetition q w).Always k :=
  fun _ _ ho => repeatFrom_always hw (.inl hq) ho

end Ways

/-! ## Terms within terms -/

/-- Whether every way of a term goes through each of the terms right within it. -/
def Term.Compels : Term → Prop
  | .group _ body => body.length = 1
  | .repeated _ q => 1 ≤ q.min
  | .char _ | .anchor _ | .look _ _ _ | .backreference _ => False

/-- Whether a term is a lookahead or a lookbehind. -/
def Term.isLook : Term → Bool
  | .look _ _ _ => true
  | _ => false

section Patterns

variable {flags : Flags} {subject : Text} {dir : Direction} {P : CaptureMap → Prop} {k : GroupKey}

theorem Pattern.ways_upholds (hP : Mergeable P) {p : Pattern}
    (h : ∀ t ∈ p.flatten, (t.ways flags subject dir).Upholds P) :
    (p.ways flags subject dir).Upholds P := by
  rw [ways_eq_choice, branchWays_eq]
  refine Ways.choice_upholds hP (List.forall_mem_map.mpr fun b hb => ?_)
  rw [Branch.ways, Branch.termWays_eq]
  refine Ways.sequence_upholds hP (List.forall_mem_map.mpr fun t ht => ?_)
  exact h t (List.mem_flatten.mpr ⟨b, hb, ht⟩)

/-- A term has captured nothing but under keys of groups within it. -/
theorem Term.ways_upholds_of_not_mem (t : Term) (hk : k ∉ t.keys) :
    (t.ways flags subject dir).Upholds fun m => m.find? k = none := by
  intro pos o ho
  rw [Option.eq_none_iff_forall_ne_some]
  intro s hs
  exact hk (t.ways_captures (fun _ _ _ _ _ _ _ _ h => h) (groupsCapture_keys _) ho hs)

/-- A condition that the captures of the term `u` meet, that is about keys within `u`, and that
    uniting captures and the groups among the terms `around` keep. -/
structure KeptAround (flags : Flags) (subject : Text) (dir : Direction) (P : CaptureMap → Prop)
    (around : List Term) (u : Term) : Prop where
  mergeable : Mergeable P
  ways : (u.ways flags subject dir).Upholds P
  off : ∀ m : CaptureMap, (∀ k ∈ u.keys, m.find? k = none) → P m
  capture : ∀ ⦃tag body⦄, .group tag body ∈ around → ∀ {pos o}, P o.captures →
    P (tag.capture dir pos o)

variable {around : List Term} {t u : Term} {p : Pattern}

theorem KeptAround.mono {outer : List Term} (h : KeptAround flags subject dir P around u)
    (hsub : outer ⊆ around) : KeptAround flags subject dir P outer u where
  mergeable := h.mergeable
  ways := h.ways
  off := h.off
  capture _ _ hmem := h.capture (hsub hmem)

/-- Of terms without common keys, one of which contains the term `u`, all meet a condition kept
    around `u` if that one does. -/
theorem KeptAround.siblings {ts : List Term} (hkept : KeptAround flags subject dir P around u)
    (hkeys : (ts.flatMap Term.keys).Nodup) (ht : t ∈ ts) (hu : u ∈ t.subterms)
    (hways : (t.ways flags subject dir).Upholds P) :
    ∀ v ∈ ts, (v.ways flags subject dir).Upholds P := by
  intro v hv
  rcases Term.eq_or_disjoint hkeys ht hv with rfl | hdisjoint
  · exact hways
  · intro pos o ho
    refine hkept.off _ fun k hk => v.ways_upholds_of_not_mem (fun hkv => ?_) ho
    exact hdisjoint hkv (Term.keys_subset hu hk)

/-- What the ways of a term uphold, the ways of a term around it do. -/
theorem Term.Contains.upholds (h : t.Contains around u) (hkeys : t.keys.Nodup)
    (hkept : KeptAround flags subject dir P around u) : (t.ways flags subject dir).Upholds P := by
  induction h with
  | self => exact hkept.ways
  | @part t v u around hv h ih =>
    rw [keys_eq, List.nodup_append'] at hkeys
    obtain ⟨-, hparts, -⟩ := hkeys
    have hinner := hkept.mono (List.subset_cons_self t around)
    have hways := ih ((List.nodup_flatMap.mp hparts).1 v hv) hinner
    -- the terms beside `v` have other keys than those within it
    have hsiblings := hinner.siblings hparts hv h.mem_subterms hways
    cases t with
    | look =>
      -- whatever the body has captured, the lookaround itself captures nothing
      exact Ways.single_upholds hkept.mergeable Ways.gapGoal_ahead
    | group tag body =>
      have hbody := Pattern.ways_upholds hkept.mergeable hsiblings
      exact Ways.capture_upholds hbody (hkept.capture List.mem_cons_self)
    | repeated atom q =>
      exact Ways.repetition_upholds hkept.mergeable q (hsiblings atom List.mem_cons_self)
    | char | anchor | backreference => exact absurd hv List.not_mem_nil

/-- What the ways of a term uphold, the ways of the pattern around it do. -/
theorem Pattern.Contains.upholds (h : p.Contains around u)
    (hkeys : (p.subterms.flatMap Term.ownKeys).Nodup)
    (hkept : KeptAround flags subject dir P around u) : (p.ways flags subject dir).Upholds P := by
  obtain ⟨t, ht, h⟩ := h
  rw [keys_eq_flatten] at hkeys
  have hways := h.upholds ((List.nodup_flatMap.mp hkeys).1 t ht) hkept
  exact ways_upholds hkept.mergeable (hkept.siblings hkeys ht h.mem_subterms hways)

/-! ## Terms that no way passes by -/

theorem Pattern.ways_always (hlength : p.length = 1) (ht : t ∈ p.flatten)
    (h : (t.ways flags subject dir).Always k) : (p.ways flags subject dir).Always k := by
  obtain ⟨b, rfl⟩ := List.length_eq_one_iff.mp hlength
  rw [List.flatten_singleton] at ht
  refine Ways.choice_always (Ways.sequence_always ?_ h)
  rw [Branch.termWays_eq]
  exact List.mem_map_of_mem ht

theorem Term.Contains.always (h : t.Contains around u) (hcompels : ∀ v ∈ around, v.Compels)
    (hways : (u.ways flags subject dir).Always k) : (t.ways flags subject dir).Always k := by
  induction h with
  | self => exact hways
  | @part t v u around hv h ih =>
    obtain ⟨ht, hcompels⟩ := List.forall_mem_cons.mp hcompels
    have hpart := ih hcompels hways
    cases t with
    | group tag body => exact Ways.capture_always (.inr (Pattern.ways_always ht hv hpart))
    | repeated atom q =>
      rw [List.mem_singleton.mp hv] at hpart
      exact Ways.repetition_always ht hpart
    | look | char | anchor | backreference => exact ht.elim

/-- A group that no way of a pattern can pass by has captured on all of them. -/
theorem Pattern.Contains.always {tag : GroupTag} {body : Pattern}
    (h : p.Contains around (.group tag body)) (hlength : p.length = 1)
    (hcompels : ∀ v ∈ around, v.Compels) (hk : k ∈ tag.keys) :
    (p.ways flags subject dir).Always k := by
  obtain ⟨t, ht, h⟩ := h
  exact ways_always hlength ht (h.always hcompels (Ways.capture_always (.inl hk)))

/-! ## Groups within and around -/

/-- A group around a term leaves what was captured under a key within the term as it is. -/
theorem Pattern.Contains.find?_capture (h : p.Contains around u)
    (hkeys : (p.subterms.flatMap Term.ownKeys).Nodup) {tag : GroupTag} {body : Pattern}
    (hmem : .group tag body ∈ around) (hk : k ∈ u.keys) (pos : Int) (o : Outcome) :
    (tag.capture dir pos o).find? k = o.captures.find? k := by
  obtain ⟨t, ht, h⟩ := h
  rw [keys_eq_flatten] at hkeys
  have hnot : k ∉ tag.keys :=
    h.not_mem_ownKeys ((List.nodup_flatMap.mp hkeys).1 t ht) hmem hk
  rw [GroupTag.find?_capture, if_neg hnot]

/-- No way has captured under a key within a lookaround. -/
theorem Pattern.Contains.upholds_look {look : Direction} {negated : Bool} {body : Pattern}
    (h : p.Contains around (.look look negated body))
    (hkeys : (p.subterms.flatMap Term.ownKeys).Nodup)
    (hk : k ∈ (Term.look look negated body).keys) :
    (p.ways flags subject dir).Upholds fun m => m.find? k = none := by
  refine h.upholds hkeys ⟨mergeable_find?_eq_none k, ?_, fun m hm => hm k hk, ?_⟩
  · exact Ways.single_upholds (mergeable_find?_eq_none k) Ways.gapGoal_ahead
  · intro tag body hmem pos o ho
    rwa [h.find?_capture hkeys hmem hk]

/-- A way that has captured under a key within a group has captured under those of the group. -/
theorem Pattern.Contains.upholds_group {tag : GroupTag} {body : Pattern} {k' : GroupKey}
    (h : p.Contains around (.group tag body))
    (hkeys : (p.subterms.flatMap Term.ownKeys).Nodup)
    (hk : k ∈ (Term.group tag body).keys) (hk' : k' ∈ tag.keys) :
    (p.ways flags subject dir).Upholds fun m => (m.find? k).isSome → (m.find? k').isSome := by
  have hmem' : k' ∈ (Term.group tag body).keys := Term.mem_keys_of_mem_ownKeys hk'
  refine h.upholds hkeys ⟨mergeable_find?_isSome_imp k k', ?_, fun m hm => ?_, ?_⟩
  · exact fun _ _ ho _ => Ways.capture_always (.inl hk') ho
  · rw [hm k hk]
    intro hsome
    cases hsome
  · intro tag body hmem pos o ho
    rwa [h.find?_capture hkeys hmem hk, h.find?_capture hkeys hmem hmem']

/-- A way has captured the same under all keys of a group. -/
theorem Pattern.Contains.upholds_keys {tag : GroupTag} {body : Pattern} {k' : GroupKey}
    (h : p.Contains around (.group tag body))
    (hkeys : (p.subterms.flatMap Term.ownKeys).Nodup) (hk : k ∈ tag.keys) (hk' : k' ∈ tag.keys) :
    (p.ways flags subject dir).Upholds fun m => m.find? k = m.find? k' := by
  have hmem : k ∈ (Term.group tag body).keys := Term.mem_keys_of_mem_ownKeys hk
  have hmem' : k' ∈ (Term.group tag body).keys := Term.mem_keys_of_mem_ownKeys hk'
  refine h.upholds hkeys ⟨mergeable_find?_eq k k', ?_, fun m hm => ?_, ?_⟩
  · intro pos o ho
    obtain ⟨o', -, rfl⟩ := List.mem_map.mp ho
    show (tag.capture dir pos o').find? k = (tag.capture dir pos o').find? k'
    rw [GroupTag.find?_capture, GroupTag.find?_capture, if_pos hk, if_pos hk']
  · rw [hm k hmem, hm k' hmem']
  · intro tag' body' hgroup pos o ho
    rwa [h.find?_capture hkeys hgroup hmem, h.find?_capture hkeys hgroup hmem']

end Patterns

end Retrace
