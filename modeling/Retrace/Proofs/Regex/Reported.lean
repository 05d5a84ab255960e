import Retrace.Proofs.Match.Domain
import Retrace.Proofs.Regex.Groups
import Retrace.Proofs.Regex.Numbers
import Retrace.Proofs.Syntax.WellFormed

/-!
# Which groups a match reports

A match reports groups of its expression under their numbers and names. It cannot report a group
within a lookaround, whose captures are dropped, or one without the groups around it. It has to
report a group that every way goes through.

Results:

* `Regex.respectsNesting`: which groups the matches of an expression can and must report.
-/

namespace Retrace

/-- A group with a name is still one with a number after numbering. -/
theorem Pattern.number_of_named {text : Input} {p : Pattern} (hp : parse text = .ok p) {next : Nat}
    {tag : GroupTag} {body : Pattern} {name : String}
    (hmem : .group tag body ∈ (p.numbered next).1.subterms) (hname : tag.name = some name) :
    ∃ n, tag.number = some n := by
  have hshape := List.mem_map_of_mem hmem (f := Term.groupShape)
  rw [(p.numbered_numbers next).shapes] at hshape
  obtain ⟨t, ht, heq⟩ := List.mem_map.mp hshape
  have hsound := (parse_wellFormed hp).sound t ht
  obtain ⟨hnameEq, hnumberEq⟩ := Prod.mk.inj heq
  have hname : t.groupName? = some name := hnameEq.trans hname
  cases t with
  | group tag' body' =>
    have hnumber : tag'.number.isSome := by
      have htag := hsound.1
      unfold GroupTag.Sound at htag
      split at htag
      · exact absurd (htag.symm.trans hname) (Option.some_ne_none name).symm
      case h_2 heq => rw [heq]; rfl
    exact Option.isSome_iff_exists.mp (hnumberEq.symm.trans hnumber)
  | _ => cases hname

theorem GroupTag.number_mem_keys {tag : GroupTag} {n : Nat} (h : tag.number = some n) :
    .number n ∈ tag.keys := by
  rw [keys, h]
  exact List.mem_cons_self

theorem GroupTag.name_mem_keys {tag : GroupTag} {n : Nat} {name : String}
    (hnumber : tag.number = some n) (hname : tag.name = some name) : .name name ∈ tag.keys := by
  rw [keys, hnumber, hname]
  exact List.mem_cons_of_mem _ List.mem_cons_self

/-- A key within a pattern is that of a group, which stands somewhere in it. -/
theorem Pattern.exists_group {p : Pattern} {k : GroupKey}
    (hk : k ∈ p.subterms.flatMap Term.ownKeys) :
    ∃ around tag body, p.Contains around (.group tag body) ∧ k ∈ tag.keys := by
  obtain ⟨t, ht, hk⟩ := List.mem_flatMap.mp hk
  obtain ⟨around, hcontains⟩ := exists_contains ht
  cases t with
  | group tag body => exact ⟨around, tag, body, hcontains, hk⟩
  | _ => exact absurd hk List.not_mem_nil

namespace Match

/-- Whether a match reports something under a key. -/
def Reports (m : Match) (key : GroupKey) : Prop := (m.find? key).isSome

/-- Which groups of an expression a match reports, by where they stand in its pattern. -/
structure RespectsNesting (m : Match) (re : Regex) : Prop where
  /-- A number reported is that of a group of the expression. -/
  numbered : ∀ n, m.Reports (.number n) → 1 ≤ n ∧ n ≤ re.groupCount ∧
    ∃ around tag body, re.root.Contains around (.group tag body) ∧ tag.number = some n
  /-- A name reported is that of a group of the expression. -/
  named : ∀ name, m.Reports (.name name) →
    ∃ around tag body, re.root.Contains around (.group tag body) ∧ tag.name = some name
  /-- A group with a name has a number too, and the same is reported under both. -/
  alike : ∀ around tag body name, re.root.Contains around (.group tag body) →
    tag.name = some name →
      ∃ n, tag.number = some n ∧ m.find? (.name name) = m.find? (.number n)
  /-- A group that is reported stands in no lookaround. -/
  outside : ∀ around tag body n, re.root.Contains around (.group tag body) →
    tag.number = some n → m.Reports (.number n) → ∀ t ∈ around, t.isLook = false
  /-- With a group that is reported, all capturing groups around it are reported. -/
  enclosing : ∀ around tag body n, re.root.Contains around (.group tag body) →
    tag.number = some n → m.Reports (.number n) →
      ∀ tag' body' n', .group tag' body' ∈ around → tag'.number = some n' → m.Reports (.number n')
  /-- A group is reported if the pattern and the groups around it have one branch each, what is
      repeated around it is repeated at least once, and no lookaround is around it. -/
  compelled : ∀ around tag body n, re.root.Contains around (.group tag body) →
    tag.number = some n → re.root.length = 1 → (∀ t ∈ around, t.Compels) → m.Reports (.number n)

/-- A match reports what its way has captured. -/
theorem reports_ofOutcome {text : Text} {start : Nat} {o : Outcome} {offset groupCount : Nat}
    {key : GroupKey} :
    (ofOutcome text start o offset groupCount).Reports key ↔ (o.captures.find? key).isSome := by
  rw [Reports, find?_ofOutcome, Option.isSome_map]

end Match

namespace Regex

variable {text : Input} {flags : Flags} {re : Regex} {subject : Text} {start : Nat} {o : Outcome}

/-- A group whose number a way has captured stands in no lookaround. -/
theorem isLook_eq_false (hre : compile text flags = .ok re)
    (ho : re.matchAt subject start = some o) {around : List Term} {tag : GroupTag} {body : Pattern}
    (hcontains : re.root.Contains around (.group tag body)) {k : GroupKey} (hk : k ∈ tag.keys)
    (hsome : (o.captures.find? k).isSome) : ∀ t ∈ around, t.isLook = false := by
  intro t ht
  cases t with
  | look look negated lookBody =>
    obtain ⟨outer, hlook, hmem⟩ := hcontains.of_mem_around ht
    have hkey : k ∈ (Term.look look negated lookBody).keys :=
      Term.keys_subset hmem (Term.mem_keys_of_mem_ownKeys hk)
    have hnone : o.captures.find? k = none :=
      hlook.upholds_look (nodup_keys_of_compile hre) hkey (mem_ways_of_matchAt ho)
    rw [hnone] at hsome
    cases hsome
  | char | anchor | group | repeated | backreference => rfl

/-- With a group, a way has captured the capturing groups around it. -/
theorem isSome_of_mem_around (hre : compile text flags = .ok re)
    (ho : re.matchAt subject start = some o) {around : List Term} {tag tag' : GroupTag}
    {body body' : Pattern} (hcontains : re.root.Contains around (.group tag body))
    (hmem : .group tag' body' ∈ around) {k k' : GroupKey} (hk : k ∈ tag.keys) (hk' : k' ∈ tag'.keys)
    (hsome : (o.captures.find? k).isSome) : (o.captures.find? k').isSome := by
  obtain ⟨outer, hgroup, hsub⟩ := hcontains.of_mem_around hmem
  have hkey : k ∈ (Term.group tag' body').keys :=
    Term.keys_subset hsub (Term.mem_keys_of_mem_ownKeys hk)
  exact hgroup.upholds_group (nodup_keys_of_compile hre) hkey hk' (mem_ways_of_matchAt ho) hsome

theorem respectsNesting_ofOutcome (hre : compile text flags = .ok re)
    (ho : re.matchAt subject start = some o) :
    (Match.ofOutcome subject start o 0 re.groupCount).RespectsNesting re where
  numbered n h := by
    rw [Match.reports_ofOutcome] at h
    have hlow : ¬n = 0 := by
      intro hn
      rw [find?_number hre ho (.inl hn)] at h
      cases h
    have hhigh : ¬re.groupCount < n := by
      intro hn
      rw [find?_number hre ho (.inr hn)] at h
      cases h
    obtain ⟨s, hs⟩ := Option.isSome_iff_exists.mp h
    obtain ⟨around, tag, body, hcontains, hk⟩ := Pattern.exists_group (key_of_matchAt ho hs)
    have hnumber : (Term.group tag body).groupNumber? = some n := Term.number_mem_ownKeys hk
    exact ⟨by omega, by omega, around, tag, body, hcontains, hnumber⟩
  named name h := by
    rw [Match.reports_ofOutcome] at h
    obtain ⟨s, hs⟩ := Option.isSome_iff_exists.mp h
    obtain ⟨around, tag, body, hcontains, hk⟩ := Pattern.exists_group (key_of_matchAt ho hs)
    have hname : (Term.group tag body).groupName? = some name := Term.name_mem_ownKeys hk
    exact ⟨around, tag, body, hcontains, hname⟩
  alike around tag body name hcontains hname := by
    obtain ⟨p, hp, -, rfl⟩ := compile_eq_ok_iff.mp hre
    obtain ⟨n, hn⟩ := Pattern.number_of_named hp hcontains.mem_subterms hname
    refine ⟨n, hn, ?_⟩
    have heq := hcontains.upholds_keys (nodup_keys_of_compile hre)
      (GroupTag.name_mem_keys hn hname) (GroupTag.number_mem_keys hn) (mem_ways_of_matchAt ho)
    rw [Match.find?_ofOutcome, Match.find?_ofOutcome, heq]
  outside around tag body n hcontains hn h :=
    isLook_eq_false hre ho hcontains (GroupTag.number_mem_keys hn) (Match.reports_ofOutcome.mp h)
  enclosing around tag body n hcontains hn h tag' body' n' hmem hn' := by
    rw [Match.reports_ofOutcome] at h ⊢
    exact isSome_of_mem_around hre ho hcontains hmem (GroupTag.number_mem_keys hn)
      (GroupTag.number_mem_keys hn') h
  compelled around tag body n hcontains hn hlength hcompels := by
    rw [Match.reports_ofOutcome]
    exact hcontains.always hlength hcompels (GroupTag.number_mem_keys hn) (mem_ways_of_matchAt ho)

/-- A match, searched for or looked for at a start position, reports by number groups of the
    expression that stand in no lookaround, and each of them with all capturing groups around it. It
    reports by name the groups with a name that it reports by number, over the same stretch. A group
    that every way goes through is always reported. -/
theorem respectsNesting {text : Input} {flags : Flags} {re : Regex}
    (hre : compile text flags = .ok re) {subject : Text} {m : Match}
    (hm : re.exec? subject = some m ∨ ∃ start, re.execAt? subject start = some m) :
    m.RespectsNesting re := by
  have hat : ∃ start, re.execAt? subject start = some m := by
    rcases hm with hm | hm
    · obtain ⟨start, -, hstart, -⟩ := exec?_eq_some_iff.mp hm
      exact ⟨start, hstart⟩
    · exact hm
  obtain ⟨start, hstart⟩ := hat
  obtain ⟨-, o, ho, rfl⟩ := execAt?_eq_some_iff.mp hstart
  exact respectsNesting_ofOutcome hre ho

/-- `(a(?<x>b))(?=(c))` matches the beginning of `abc` and reports the inner one of the nested
    groups by number and by name, the outer one, and not the one in the lookahead. -/
theorem respectsNesting_of_lookahead : ∃ re m,
    compile (Text.ofString "(a(?<x>b))(?=(c))").toList .none = .ok re ∧
      re.execAt? #[0x61, 0x62, 0x63] 0 = some m ∧
      m.groups = [(.number 1, ⟨"ab", 0, 2⟩), (.number 2, ⟨"b", 1, 2⟩), (.name "x", ⟨"b", 1, 2⟩)] ∧
      m.RespectsNesting re := by
  have hre : compile (Text.ofString "(a(?<x>b))(?=(c))").toList .none =
      .ok ⟨[[.group ⟨some 1, none⟩ [[.char (.literal 0x61),
          .group ⟨some 2, some "x"⟩ [[.char (.literal 0x62)]]]],
        .look .forward false [[.group ⟨some 3, none⟩ [[.char (.literal 0x63)]]]]]], .none, 3⟩ := by
    with_unfolding_all rfl
  have hm : execAt? ⟨[[.group ⟨some 1, none⟩ [[.char (.literal 0x61),
          .group ⟨some 2, some "x"⟩ [[.char (.literal 0x62)]]]],
        .look .forward false [[.group ⟨some 3, none⟩ [[.char (.literal 0x63)]]]]]], .none, 3⟩
      #[0x61, 0x62, 0x63] 0 = some ⟨⟨"ab", 0, 2⟩, [(.number 1, ⟨"ab", 0, 2⟩),
        (.number 2, ⟨"b", 1, 2⟩), (.name "x", ⟨"b", 1, 2⟩)], 3⟩ := by
    rw [execAt?_of_le (by decide), matchAt_eq_head?]
    rfl
  exact ⟨_, _, hre, hm, rfl, respectsNesting hre (.inr ⟨0, hm⟩)⟩

end Regex

end Retrace
