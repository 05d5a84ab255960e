import Retrace.Proofs.Regex.Numbers

/-!
# Alternation

The expression of two texts with a bar between them tries the first one and, where that has no
match, the second one. Its groups are those of the first, followed by those of the second, whose
numbers begin behind them.

Results:

* `Regex.compile_bar`: what two texts with a bar between them compile to.
* `Regex.matchAt_alternation`: the first way is that of the first expression that has one.
* `Regex.execAt?_alternation`: which match is reported, and under which numbers and names.
-/

namespace Retrace

namespace Pattern

theorem backreferences_append (p q : Pattern) :
    (p ++ q).backreferences = p.backreferences ++ q.backreferences := by
  rw [backreferences, subterms_append, List.filterMap_append]
  rfl

theorem backreferences_alternatives (p : Pattern) :
    p.alternatives.backreferences = p.backreferences := by
  rw [backreferences, subterms_alternatives]
  rfl

end Pattern

namespace Regex

/-- The expression with the branches of two, the groups of the second numbered behind those of the
    first. -/
def alternation (re re' : Regex) : Regex where
  root := re.root.alternatives ++ (re'.root.raised re.groupCount).alternatives
  flags := re.flags
  groupCount := re.groupCount + re'.groupCount

/-- Two texts that compile, with no group name in common, compile with a bar between them. -/
theorem compile_bar {p q : Input} {flags : Flags} {re re' : Regex} (hp : compile p flags = .ok re)
    (hq : compile q flags = .ok re') (hnames : re.root.groupNames.Disjoint re'.root.groupNames) :
    compile (p ++ CodePoint.ofChar '|' :: q) flags = .ok (re.alternation re') := by
  obtain ⟨t, ht, htback, rfl⟩ := compile_eq_ok_iff.mp hp
  obtain ⟨u, hu, huback, rfl⟩ := compile_eq_ok_iff.mp hq
  simp only [Pattern.groupNames_numbered] at hnames
  have hparse := Pattern.parse_bar ht hu fun name hm hm' => hnames hm' hm
  refine compile_eq_ok_iff.mpr ⟨_, hparse, ?_, ?_⟩
  · rw [Pattern.backreferences_append, Pattern.backreferences_alternatives,
      Pattern.backreferences_alternatives, htback, huback]
    rfl
  · have hfirst := (t.numbered_numbers 1).le
    have hnext : (t.numbered 1).2 = 1 + ((t.numbered 1).2 - 1) := by omega
    -- the second side is numbered from where the numbers of the first one end
    have hsecond := u.numbered_add ((t.numbered 1).2 - 1) 1
    rw [← hnext] at hsecond
    rw [Pattern.numbered_append, Pattern.numbered_alternatives, Pattern.numbered_alternatives]
    dsimp only
    rw [hsecond, alternation]
    have hcount := (u.numbered_numbers 1).le
    have hgroups : (t.numbered 1).2 - 1 + ((u.numbered 1).2 - 1) =
        (u.numbered 1).2 + ((t.numbered 1).2 - 1) - 1 := by omega
    rw [hgroups]

section Attempts

variable {re re' : Regex} {subject : Text} {start : Nat}

/-- The first way of an alternation is that of the first expression or, if it has none, that of the
    second one. -/
theorem matchAt_alternation (hflags : re'.flags = re.flags) :
    (re.alternation re').matchAt subject start = (re.matchAt subject start).or
      ((re'.matchAt subject start).map (Outcome.raised re.groupCount)) := by
  rw [matchAt_eq_head?, matchAt_eq_head?, matchAt_eq_head?, alternation,
    Pattern.list_alternatives_append, Pattern.list_raised, List.head?_append, List.head?_map,
    hflags]

theorem execAt?_alternation_of_some (hflags : re'.flags = re.flags) {m : Match}
    (hm : re.execAt? subject start = some m) :
    (re.alternation re').execAt? subject start =
      some { m with groupCount := re.groupCount + re'.groupCount } := by
  obtain ⟨hstart, o, ho, rfl⟩ := execAt?_eq_some_iff.mp hm
  rw [execAt?_of_le hstart, matchAt_alternation hflags, ho]
  rfl

theorem execAt?_alternation_of_none (hflags : re'.flags = re.flags)
    (hnone : re.execAt? subject start = none) (hstart : start ≤ subject.size) :
    (re.alternation re').execAt? subject start =
      (re'.matchAt subject start).map fun o => Match.ofOutcome subject start
        (o.raised re.groupCount) 0 (re.groupCount + re'.groupCount) := by
  rw [execAt?_of_le hstart, matchAt_alternation hflags, (execAt?_eq_none_iff hstart).mp hnone,
    Option.none_or, Option.map_map]
  rfl

end Attempts

/-- First match wins. Two texts that compile, with no group name in common, compile with a bar
    between them, to as many groups as the two have. Where the first has a match, the whole has that
    match, and reports no group of the second. Otherwise the whole has the match of the second, if
    there is one, with the numbers of its groups behind those of the first, which it does not
    report. -/
theorem execAt?_alternation {p q : Input} {flags : Flags} {re re' : Regex}
    (hp : compile p flags = .ok re) (hq : compile q flags = .ok re')
    (hnames : re.root.groupNames.Disjoint re'.root.groupNames) :
    ∃ bar, compile (p ++ CodePoint.ofChar '|' :: q) flags = .ok bar ∧
      bar.groupCount = re.groupCount + re'.groupCount ∧
      ∀ (subject : Text) (start : Nat),
        (∀ m, re.execAt? subject start = some m → ∃ m', bar.execAt? subject start = some m' ∧
          m'.whole = m.whole ∧
          (∀ n ≤ re.groupCount, m'.group? n = m.group? n) ∧
          (∀ n, re.groupCount < n → m'.group? n = none) ∧
          (∀ name, m'.named? name = m.named? name) ∧
          ∀ name ∈ re'.root.groupNames, m'.named? name = none) ∧
        (re.execAt? subject start = none →
          (re'.execAt? subject start = none → bar.execAt? subject start = none) ∧
          ∀ m, re'.execAt? subject start = some m → ∃ m', bar.execAt? subject start = some m' ∧
            m.Raises re.groupCount m' ∧
            (∀ n, 0 < n → n ≤ re.groupCount → m'.group? n = none) ∧
            ∀ name ∈ re.root.groupNames, m'.named? name = none) := by
  have hflags : re'.flags = re.flags := by
    obtain ⟨-, -, -, rfl⟩ := compile_eq_ok_iff.mp hp
    obtain ⟨-, -, -, rfl⟩ := compile_eq_ok_iff.mp hq
    rfl
  refine ⟨_, compile_bar hp hq hnames, rfl, fun subject start => ⟨fun m hm => ?_, fun hnone => ?_⟩⟩
  · exact ⟨_, execAt?_alternation_of_some hflags hm, rfl, fun _ _ => rfl,
      fun n hn => group?_of_lt hp hm hn, fun _ => rfl,
      fun name hname => named?_of_not_mem hm fun hname' => hnames hname' hname⟩
  · refine ⟨fun hnone' => ?_, fun m hm => ?_⟩
    · by_cases hstart : start ≤ subject.size
      · rw [execAt?_alternation_of_none hflags hnone hstart, (execAt?_eq_none_iff hstart).mp hnone']
        rfl
      · exact if_neg hstart
    · have hnamed := fun name (hname : name ∈ re.root.groupNames) =>
        named?_of_not_mem hm (hnames hname)
      obtain ⟨hstart, o, ho, rfl⟩ := execAt?_eq_some_iff.mp hm
      have hraises := Match.raises_ofOutcome re.groupCount subject start o 0 re'.groupCount
        (re.groupCount + re'.groupCount)
      refine ⟨_, ?_, hraises, fun n hn hle => ?_, fun name hname => ?_⟩
      · rw [execAt?_alternation_of_none hflags hnone hstart, ho]
        rfl
      · rw [Match.group?_of_pos hn, Match.find?_ofOutcome, find?_raised_number hq ho hle]
        rfl
      · rw [hraises.named?_eq, hnamed name hname]

/-- `(a){|(?<y>b)` matches a `b` with its second side, whose only group has the number two, and the
    brace at the end of the first side stays a literal. -/
theorem execAt?_alternation_of_second_side : ∃ re re' bar m,
    compile (Text.ofString "(a)\x7b").toList .none = .ok re ∧
      compile (Text.ofString "(?<y>b)").toList .none = .ok re' ∧
      re.root.groupNames.Disjoint re'.root.groupNames ∧
      compile ((Text.ofString "(a)\x7b").toList ++ CodePoint.ofChar '|' ::
        (Text.ofString "(?<y>b)").toList) .none = .ok bar ∧
      bar.groupCount = 2 ∧ bar.execAt? #[0x62] 0 = some m ∧
      m.group? 1 = none ∧ m.group? 2 = some ⟨"b", 0, 1⟩ ∧ m.named? "y" = some ⟨"b", 0, 1⟩ := by
  have hp : compile (Text.ofString "(a)\x7b").toList .none =
      .ok ⟨[[.group ⟨some 1, none⟩ [[.char (.literal 0x61)]], .char (.literal 0x7b)]],
        .none, 1⟩ := by with_unfolding_all rfl
  have hq : compile (Text.ofString "(?<y>b)").toList .none =
      .ok ⟨[[.group ⟨some 1, some "y"⟩ [[.char (.literal 0x62)]]]], .none, 1⟩ := by
    with_unfolding_all rfl
  have hnone : execAt? ⟨[[.group ⟨some 1, none⟩ [[.char (.literal 0x61)]],
      .char (.literal 0x7b)]], .none, 1⟩ #[0x62] 0 = none := by
    rw [execAt?_of_le (by decide), matchAt_eq_head?]
    rfl
  have hsome : execAt? ⟨[[.group ⟨some 1, some "y"⟩ [[.char (.literal 0x62)]]]], .none, 1⟩
      #[0x62] 0 = some ⟨⟨"b", 0, 1⟩, [(.number 1, ⟨"b", 0, 1⟩), (.name "y", ⟨"b", 0, 1⟩)], 1⟩ := by
    rw [execAt?_of_le (by decide), matchAt_eq_head?]
    rfl
  have hnames : (Pattern.groupNames [[.group ⟨some 1, none⟩ [[.char (.literal 0x61)]],
      .char (.literal 0x7b)]]).Disjoint
      (Pattern.groupNames [[.group ⟨some 1, some "y"⟩ [[.char (.literal 0x62)]]]]) :=
    List.disjoint_nil_left _
  obtain ⟨bar, hbar, hcount, hattempt⟩ := execAt?_alternation hp hq hnames
  obtain ⟨m, hm, hraises, habsent, -⟩ := (hattempt #[0x62] 0).2 hnone |>.2 _ hsome
  exact ⟨_, _, bar, m, hp, hq, hnames, hbar, hcount, hm, habsent 1 (by decide) (by decide),
    hraises.group?_eq 1 (by decide), hraises.named?_eq "y"⟩

end Regex

end Retrace
