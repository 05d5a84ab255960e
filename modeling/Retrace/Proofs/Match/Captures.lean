import Mathlib.Data.List.Pairwise
import Mathlib.Data.List.Sort
import Retrace.Match.State

/-!
# Laws of captures

A map of captures is determined by what it holds under each key. So the order in which maps are
united matters only where they have a key in common, and changing all spans in the same way commutes
with setting a key and with uniting maps.

Results:

* `CaptureMap.ext_find?`: maps that hold the same under every key are equal.
* `mapSpans_merge`: changing the spans of a union changes those of its parts.
* `foldl_merge_perm`: maps without common keys may be united in any order.
-/

namespace Retrace

namespace CaptureMap

/-! ## Maps by their keys -/

theorem find?_eq_some_iff {m : CaptureMap} {k : GroupKey} {s : Span} :
    m.find? k = some s ↔ (k, s) ∈ m.entries := by
  obtain ⟨entries, sorted⟩ := m
  show (entries.find? fun e => e.1 = k).map Prod.snd = some s ↔ (k, s) ∈ entries
  induction entries with
  | nil => simp
  | cons e rest ih =>
    obtain ⟨he, hrest⟩ := List.pairwise_cons.mp sorted
    rw [List.find?_cons]
    by_cases hk : e.1 = k
    · subst hk
      -- no later entry has the key of the first one
      have hlater : (e.1, s) ∉ rest := fun hmem => GroupKey.lt_irrefl e.1 (he (e.1, s) hmem)
      simp [hlater, Prod.ext_iff, eq_comm]
    · have hne : (k, s) ≠ e := by
        rintro rfl
        exact hk rfl
      simp only [hk, decide_false, List.mem_cons, hne, false_or]
      exact ih hrest

/-- Maps that hold the same under every key are equal. -/
theorem ext_find? {a b : CaptureMap} (h : ∀ k, a.find? k = b.find? k) : a = b := by
  have hmem : ∀ e : GroupKey × Span, e ∈ a.entries ↔ e ∈ b.entries := by
    intro e
    rw [← find?_eq_some_iff, ← find?_eq_some_iff, h e.1]
  have hirrefl : Std.Irrefl fun x y : GroupKey × Span => x.1 < y.1 :=
    ⟨fun x => GroupKey.lt_irrefl x.1⟩
  have hanti : Std.Antisymm fun x y : GroupKey × Span => x.1 < y.1 :=
    ⟨fun x y hxy hyx => absurd (GroupKey.lt_trans hxy hyx) (GroupKey.lt_irrefl x.1)⟩
  have hentries : a.entries = b.entries := a.sorted.eq_of_mem_iff b.sorted hmem
  cases a
  cases b
  congr

/-! ## Changing the spans -/

/-- The map with each span changed by `f`. -/
def mapSpans (f : Span → Span) (m : CaptureMap) : CaptureMap where
  entries := m.entries.map fun e => (e.1, f e.2)
  sorted := List.pairwise_map.mpr m.sorted

@[simp] theorem find?_mapSpans (f : Span → Span) (m : CaptureMap) (k : GroupKey) :
    (m.mapSpans f).find? k = (m.find? k).map f := by
  unfold find? mapSpans
  rw [List.find?_map, Option.map_map, Option.map_map]
  rfl

@[simp] theorem mapSpans_empty (f : Span → Span) : empty.mapSpans f = empty := rfl

theorem mapSpans_insert (f : Span → Span) (m : CaptureMap) (k : GroupKey) (s : Span) :
    (m.insert k s).mapSpans f = (m.mapSpans f).insert k (f s) := by
  apply ext_find?
  intro k'
  rw [find?_mapSpans, find?_insert, find?_insert, find?_mapSpans]
  split <;> rfl

theorem mapSpans_merge (f : Span → Span) (a b : CaptureMap) :
    (a.merge b).mapSpans f = (a.mapSpans f).merge (b.mapSpans f) := by
  apply ext_find?
  intro k
  rw [find?_mapSpans, find?_merge, find?_merge, find?_mapSpans, find?_mapSpans]
  cases b.find? k <;> rfl

/-! ## Maps without common keys -/

/-- No key stands in both maps. -/
def Disjoint (a b : CaptureMap) : Prop := ∀ k, a.find? k = none ∨ b.find? k = none

theorem Disjoint.symm {a b : CaptureMap} (h : a.Disjoint b) : b.Disjoint a :=
  fun k => (h k).symm

theorem merge_right_comm {b c : CaptureMap} (h : b.Disjoint c) (a : CaptureMap) :
    (a.merge b).merge c = (a.merge c).merge b := by
  apply ext_find?
  intro k
  rw [find?_merge, find?_merge, find?_merge, find?_merge]
  rcases h k with hb | hc
  · rw [hb]
    rfl
  · rw [hc]
    rfl

end CaptureMap

/-! ## The captures of several ways -/

/-- What several ways capture, under a key, was captured by one of them. -/
theorem find?_foldl_merge {chain : List Outcome} {m : CaptureMap} {k : GroupKey} {s : Span}
    (h : (chain.foldl (fun captures o => captures.merge o.captures) m).find? k = some s) :
    m.find? k = some s ∨ ∃ o ∈ chain, o.captures.find? k = some s := by
  induction chain generalizing m with
  | nil => exact .inl h
  | cons o chain ih =>
    rcases ih h with h | ⟨o', ho', h⟩
    · rw [CaptureMap.find?_merge, Option.or_eq_some_iff] at h
      rcases h with h | ⟨-, h⟩
      · exact .inr ⟨o, List.mem_cons_self, h⟩
      · exact .inl h
    · exact .inr ⟨o', List.mem_cons_of_mem _ ho', h⟩

/-- The captures of ways without common keys may be united in any order. -/
theorem foldl_merge_perm {chain chain' : List Outcome} (h : chain.Perm chain')
    (hd : chain.Pairwise fun o o' => o.captures.Disjoint o'.captures) (m : CaptureMap) :
    chain.foldl (fun captures o => captures.merge o.captures) m =
      chain'.foldl (fun captures o => captures.merge o.captures) m := by
  -- two uses of the same way commute as well, whatever its keys
  have hcomm : chain.Pairwise fun o o' => ∀ a : CaptureMap,
      (a.merge o.captures).merge o'.captures = (a.merge o'.captures).merge o.captures :=
    hd.imp fun hoo' => CaptureMap.merge_right_comm hoo'
  have hsymm : Std.Symm fun o o' : Outcome => ∀ a : CaptureMap,
      (a.merge o.captures).merge o'.captures = (a.merge o'.captures).merge o.captures :=
    ⟨fun _ _ hoo' a => (hoo' a).symm⟩
  have hall := hcomm.forall_of_forall fun _ _ _ => rfl
  exact h.foldl_eq' (fun o ho o' ho' a => hall ho ho' a) m

end Retrace
