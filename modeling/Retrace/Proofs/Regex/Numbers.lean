import Retrace.Proofs.Match.Raised
import Retrace.Proofs.Regex.Bounds

/-!
# The numbers and names of a compiled expression

The groups of a compiled expression are numbered from one to the number of its groups, and their
names are those in its text. A match reports groups under these keys only. A way with raised numbers
stands for a match that reports the same groups under raised numbers.

Results:

* `Regex.group?_of_lt`, `Regex.named?_of_not_mem`: what no match of an expression reports.
* `Match.raises_ofOutcome`: what a match reports whose way has raised numbers.
-/

namespace Retrace

/-! ## Keys -/

theorem Pattern.name_mem_groupNames {p : Pattern} {name : String}
    (h : .name name ∈ p.subterms.flatMap Term.ownKeys) : name ∈ p.groupNames := by
  obtain ⟨t, ht, hk⟩ := List.mem_flatMap.mp h
  rw [groupNames_eq]
  exact List.mem_filterMap.mpr ⟨t, ht, Term.name_mem_ownKeys hk⟩

/-- The numbers of a numbered pattern begin with the first number and end before the next one. -/
theorem Pattern.number_bounds {p : Pattern} {next n : Nat}
    (h : .number n ∈ (p.numbered next).1.subterms.flatMap Term.ownKeys) :
    next ≤ n ∧ n < (p.numbered next).2 := by
  have hnumbers := p.numbered_numbers next
  obtain ⟨t, ht, hk⟩ := List.mem_flatMap.mp h
  have hmem : n ∈ (p.numbered next).1.subterms.filterMap Term.groupNumber? :=
    List.mem_filterMap.mpr ⟨t, ht, Term.number_mem_ownKeys hk⟩
  rw [hnumbers.numbers, List.mem_range'_1] at hmem
  have := hnumbers.le
  omega

namespace Match

/-- What a match reports under a key is what its way has captured there. -/
theorem find?_ofOutcome (text : Text) (start : Nat) (o : Outcome) (offset groupCount : Nat)
    (key : GroupKey) : (ofOutcome text start o offset groupCount).find? key =
      (o.captures.find? key).map fun span => Capture.ofSpan text span offset := by
  unfold find? CaptureMap.find? ofOutcome
  rw [List.find?_map, Option.map_map, Option.map_map]
  rfl

theorem group?_of_pos {n : Nat} (hn : 0 < n) (m : Match) : m.group? n = m.find? (.number n) :=
  if_neg (by omega)

/-- A match reports what another one does, with the numbers of its groups raised by `k`. -/
structure Raises (k : Nat) (m m' : Match) : Prop where
  whole_eq : m'.whole = m.whole
  group?_eq : ∀ n, 0 < n → m'.group? (n + k) = m.group? n
  named?_eq : ∀ name, m'.named? name = m.named? name

theorem raises_ofOutcome (k : Nat) (text : Text) (start : Nat) (o : Outcome)
    (offset groupCount groupCount' : Nat) : (ofOutcome text start o offset groupCount).Raises k
      (ofOutcome text start (o.raised k) offset groupCount') where
  whole_eq := rfl
  group?_eq n hn := by
    have hlowered : (GroupKey.number (n + k)).lowered? k = some (.number n) :=
      GroupKey.lowered?_eq_some_iff.mpr rfl
    rw [group?_of_pos (by omega), group?_of_pos hn, find?_ofOutcome, find?_ofOutcome,
      Outcome.raised, CaptureMap.find?_raised, hlowered]
    rfl
  named?_eq name := by
    rw [named?, named?, find?_ofOutcome, find?_ofOutcome, Outcome.raised, CaptureMap.find?_raised]
    rfl

/-- What a match in a group reports: the whole match under the keys of the group, and what it
    reports without the group under all others. -/
theorem find?_group {o : Outcome} {subject : Text} {start stop : Nat} (hindex : o.index = stop)
    (hle : start ≤ stop) (tag : GroupTag) (groupCount : Nat) (key : GroupKey) :
    (ofOutcome subject start { o with captures := tag.capture .forward start o } 0
      groupCount).find? key =
    if key ∈ tag.keys then some (ofOutcome subject start o 0 groupCount).whole
    else (ofOutcome subject start o 0 groupCount).find? key := by
  have hspan : Span.between .forward start o.index = ⟨start, stop⟩ := by
    simp only [Span.between, Direction.gap, hindex, Int.toNat_natCast]
  rw [find?_ofOutcome, GroupTag.find?_capture, find?_ofOutcome,
    whole_ofOutcome hindex hle, hspan]
  split <;> rfl

end Match

namespace Regex

variable {text : Input} {flags : Flags} {re : Regex} {subject : Text} {start : Nat} {m : Match}

/-- A way captures under keys of groups of the expression only. -/
theorem key_of_matchAt {o : Outcome} (ho : re.matchAt subject start = some o) {k : GroupKey}
    {s : Span} (hs : o.captures.find? k = some s) : k ∈ re.root.subterms.flatMap Term.ownKeys :=
  (Part.pattern re.root).ways_captures (fun _ _ _ _ _ _ _ _ h => h) (groupsCapture_keys _)
    (mem_ways_of_matchAt ho) hs

/-- A match reports no group with a number beyond the number of groups, and none with the number
    zero but the whole match. -/
theorem find?_number (hre : compile text flags = .ok re) {o : Outcome}
    (ho : re.matchAt subject start = some o) {n : Nat} (hn : n = 0 ∨ re.groupCount < n) :
    o.captures.find? (.number n) = none := by
  obtain ⟨p, -, -, rfl⟩ := compile_eq_ok_iff.mp hre
  rw [Option.eq_none_iff_forall_ne_some]
  intro s hs
  have := Pattern.number_bounds (key_of_matchAt ho hs)
  dsimp only at hn
  omega

theorem group?_of_lt (hre : compile text flags = .ok re) (hm : re.execAt? subject start = some m)
    {n : Nat} (hn : re.groupCount < n) : m.group? n = none := by
  obtain ⟨-, o, ho, rfl⟩ := execAt?_eq_some_iff.mp hm
  rw [Match.group?_of_pos (by omega), Match.find?_ofOutcome, find?_number hre ho (.inr hn)]
  rfl

/-- With its numbers raised by `k`, a way has captured nothing under a number up to `k`. -/
theorem find?_raised_number (hre : compile text flags = .ok re) {o : Outcome}
    (ho : re.matchAt subject start = some o) {k n : Nat} (hn : n ≤ k) :
    (o.raised k).captures.find? (.number n) = none := by
  rw [Outcome.raised, CaptureMap.find?_raised, GroupKey.lowered?]
  split
  · have hzero : n - k = 0 := by omega
    rw [hzero]
    exact find?_number hre ho (.inl rfl)
  · rfl

theorem named?_of_not_mem (hm : re.execAt? subject start = some m) {name : String}
    (hn : name ∉ re.root.groupNames) : m.named? name = none := by
  obtain ⟨-, o, ho, rfl⟩ := execAt?_eq_some_iff.mp hm
  rw [Match.named?, Match.find?_ofOutcome, Option.map_eq_none_iff,
    Option.eq_none_iff_forall_ne_some]
  intro s hs
  exact hn (Pattern.name_mem_groupNames (key_of_matchAt ho hs))

end Regex

end Retrace
