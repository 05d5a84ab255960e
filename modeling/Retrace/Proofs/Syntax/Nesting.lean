import Mathlib.Data.List.Pairwise
import Retrace.Proofs.Syntax.GroupKeys

/-!
# What stands around a term

A term of a pattern stands within groups, lookarounds and repeated terms, of which the outermost one
is a term of a branch of the pattern. If no two groups have a key in common, then what stands around
a term captures under other keys than what stands within it.

Results:

* `Term.induction`: what a term has if the terms right within it have it, every term has.
* `Pattern.exists_contains`: every term of a pattern, at any depth, stands somewhere in it.
* `Term.Contains.not_mem_ownKeys`: a group around a term has none of the keys within the term.
-/

namespace Retrace

/-! ## Parts -/

/-- The terms right within a term: those of the branches of its body, or the one that it repeats. -/
def Term.parts : Term → List Term
  | .look _ _ body | .group _ body => body.flatten
  | .repeated atom _ => [atom]
  | .char _ | .anchor _ | .backreference _ => []

theorem Term.sizeOf_lt_of_mem_parts {t u : Term} (hu : u ∈ t.parts) : sizeOf u < sizeOf t := by
  have inside {body : Pattern} (hu : u ∈ body.flatten) : sizeOf u < sizeOf body := by
    obtain ⟨b, hb, hu⟩ := List.mem_flatten.mp hu
    exact Nat.lt_trans (List.sizeOf_lt_of_mem hu) (List.sizeOf_lt_of_mem hb)
  cases t with
  | look dir negated body =>
    have := inside hu
    simp only [look.sizeOf_spec]
    omega
  | group tag body =>
    have := inside hu
    simp only [group.sizeOf_spec]
    omega
  | repeated atom q =>
    rw [List.mem_singleton.mp hu]
    simp only [repeated.sizeOf_spec]
    omega
  | char | anchor | backreference => exact absurd hu List.not_mem_nil

/-- What a term has if the terms right within it have it, every term has. -/
@[elab_as_elim]
theorem Term.induction {P : Term → Prop} (parts : ∀ t : Term, (∀ u ∈ t.parts, P u) → P t)
    (t : Term) : P t :=
  parts t fun u _ => Term.induction parts u
termination_by sizeOf t
decreasing_by exact sizeOf_lt_of_mem_parts ‹_›

theorem Pattern.subterms_eq_flatten (p : Pattern) :
    p.subterms = p.flatten.flatMap Term.subterms := by
  rw [subterms_eq, List.flatten_eq_flatMap, List.flatMap_assoc]
  exact congrArg (List.flatMap · p) (funext Branch.subterms_eq)

theorem Term.subterms_eq_cons (t : Term) : t.subterms = t :: t.parts.flatMap subterms := by
  cases t with
  | look dir negated body => rw [subterms, Pattern.subterms_eq_flatten, parts]
  | group tag body => rw [subterms, Pattern.subterms_eq_flatten, parts]
  | repeated atom q => rw [subterms, parts, List.flatMap_singleton]
  | char | anchor | backreference => rfl

/-! ## Where a term stands -/

/-- The term `u` stands in the term `t`, which is `u` itself or the first of the terms around `u`,
    from the outermost one inwards. -/
inductive Term.Contains : (t : Term) → (around : List Term) → (u : Term) → Prop where
  | self (t : Term) : Contains t [] t
  | part {t v u : Term} {around : List Term} (hv : v ∈ t.parts) (h : Contains v around u) :
    Contains t (t :: around) u

/-- The term `u` stands in a branch of the pattern, within the terms `around` it, from the outermost
    one inwards. -/
def Pattern.Contains (p : Pattern) (around : List Term) (u : Term) : Prop :=
  ∃ t ∈ p.flatten, t.Contains around u

namespace Term

variable {t u v : Term} {around : List Term}

theorem Contains.mem_subterms (h : t.Contains around u) : u ∈ t.subterms := by
  induction h with
  | self t => exact t.mem_subterms_self
  | part hv _ ih =>
    rw [subterms_eq_cons]
    exact List.mem_cons_of_mem _ (List.mem_flatMap.mpr ⟨_, hv, ih⟩)

theorem exists_contains (hu : u ∈ t.subterms) : ∃ around, t.Contains around u := by
  induction t using induction with
  | parts t ih =>
    rw [subterms_eq_cons] at hu
    rcases List.mem_cons.mp hu with rfl | hu
    · exact ⟨[], .self _⟩
    · obtain ⟨v, hv, hu⟩ := List.mem_flatMap.mp hu
      obtain ⟨around, h⟩ := ih v hv hu
      exact ⟨t :: around, .part hv h⟩

/-- A term around another one stands somewhere itself, and the other one within it. -/
theorem Contains.of_mem_around (h : t.Contains around u) (hv : v ∈ around) :
    ∃ outer, t.Contains outer v ∧ u ∈ v.subterms := by
  induction h with
  | self => exact absurd hv List.not_mem_nil
  | part ht h ih =>
    rcases List.mem_cons.mp hv with rfl | hv
    · exact ⟨[], .self _, (Contains.part ht h).mem_subterms⟩
    · obtain ⟨outer, hcontains, hu⟩ := ih hv
      exact ⟨_, .part ht hcontains, hu⟩

end Term

namespace Pattern

variable {p : Pattern} {u v : Term} {around : List Term}

theorem Contains.mem_subterms (h : p.Contains around u) : u ∈ p.subterms := by
  obtain ⟨t, ht, h⟩ := h
  rw [subterms_eq_flatten]
  exact List.mem_flatMap.mpr ⟨t, ht, h.mem_subterms⟩

/-- Every term of a pattern, at any depth, stands somewhere in it. -/
theorem exists_contains (hu : u ∈ p.subterms) : ∃ around, p.Contains around u := by
  rw [subterms_eq_flatten] at hu
  obtain ⟨t, ht, hu⟩ := List.mem_flatMap.mp hu
  obtain ⟨around, h⟩ := Term.exists_contains hu
  exact ⟨around, t, ht, h⟩

theorem Contains.of_mem_around (h : p.Contains around u) (hv : v ∈ around) :
    ∃ outer, p.Contains outer v ∧ u ∈ v.subterms := by
  obtain ⟨t, ht, h⟩ := h
  obtain ⟨outer, hcontains, hu⟩ := h.of_mem_around hv
  exact ⟨outer, ⟨t, ht, hcontains⟩, hu⟩

end Pattern

/-! ## Keys within a term -/

/-- The keys under which the groups of a term capture, at any depth. -/
def Term.keys (t : Term) : List GroupKey := t.subterms.flatMap ownKeys

theorem Pattern.keys_eq_flatten (p : Pattern) :
    p.subterms.flatMap Term.ownKeys = p.flatten.flatMap Term.keys := by
  rw [subterms_eq_flatten, List.flatMap_assoc]
  rfl

namespace Term

variable {t u v : Term} {around : List Term} {k : GroupKey}

theorem keys_eq (t : Term) : t.keys = t.ownKeys ++ t.parts.flatMap keys := by
  rw [keys, subterms_eq_cons, List.flatMap_cons, List.flatMap_assoc]
  rfl

theorem keys_subset (hu : u ∈ t.subterms) : u.keys ⊆ t.keys := by
  intro k hk
  obtain ⟨v, hv, hk⟩ := List.mem_flatMap.mp hk
  exact List.mem_flatMap.mpr ⟨v, t.subterms_subset u hu hv, hk⟩

theorem mem_keys_of_mem_ownKeys (hk : k ∈ t.ownKeys) : k ∈ t.keys := by
  rw [keys_eq]
  exact List.mem_append_left _ hk

/-- Of terms without common keys, two are the same or have no key in common. -/
theorem eq_or_disjoint {ts : List Term} (hkeys : (ts.flatMap keys).Nodup) (ht : t ∈ ts)
    (hu : u ∈ ts) : u = t ∨ u.keys.Disjoint t.keys := by
  have hsymm : Std.Symm (Function.onFun List.Disjoint keys) := ⟨fun _ _ h _ ht hu => h hu ht⟩
  rcases eq_or_ne u t with heq | hne
  · exact .inl heq
  · exact .inr ((List.nodup_flatMap.mp hkeys).2.forall hu ht hne)

/-- A group around a term has none of the keys within the term. -/
theorem Contains.not_mem_ownKeys (h : t.Contains around u) (hkeys : t.keys.Nodup) (hv : v ∈ around)
    (hk : k ∈ u.keys) : k ∉ v.ownKeys := by
  induction h with
  | self => exact absurd hv List.not_mem_nil
  | @part t w u around hw h ih =>
    rw [keys_eq, List.nodup_append'] at hkeys
    obtain ⟨-, hparts, hdisjoint⟩ := hkeys
    rcases List.mem_cons.mp hv with rfl | hv
    · intro hown
      exact hdisjoint hown (List.mem_flatMap.mpr ⟨w, hw, keys_subset h.mem_subterms hk⟩)
    · exact ih ((List.nodup_flatMap.mp hparts).1 w hw) hv hk

end Term

end Retrace
