import Retrace.Proofs.Regex.Bounds
import Retrace.Proofs.Syntax.GroupKeys

/-!
# What groups report

The groups of a match report stretches that their bodies do match. Each reported capture lies within
the whole match, and the body of the group that reports it has, from the capture's beginning, a way
that ends at the capture's end. What a group captured in a branch of the search that was given up is
never reported.

Results:

* `Regex.execAt?_captures`: where the captures of a match lie and that their groups match them.
-/

namespace Retrace

/-- The groups of a compiled expression have distinct keys. -/
theorem Regex.nodup_keys_of_compile {text : Input} {flags : Flags} {re : Regex}
    (h : compile text flags = .ok re) : (re.root.subterms.flatMap Term.ownKeys).Nodup := by
  obtain ⟨p, hp, -, rfl⟩ := compile_eq_ok_iff.mp h
  exact Pattern.nodup_keys_numbered hp 1

/-- Among terms with distinct keys, only one captures under a key. -/
theorem eq_of_mem_ownKeys {ts : List Term} (hkeys : (ts.flatMap Term.ownKeys).Nodup) {t u : Term}
    (ht : t ∈ ts) (hu : u ∈ ts) {k : GroupKey} (hkt : k ∈ t.ownKeys) (hku : k ∈ u.ownKeys) :
    t = u := by
  have hsymm : Std.Symm (Function.onFun List.Disjoint Term.ownKeys) :=
    ⟨fun _ _ h _ ht hu => h hu ht⟩
  by_contra hne
  exact (List.nodup_flatMap.mp hkeys).2.forall ht hu hne hkt hku

/-- The span of a key as a group of the terms can capture it, on a way forwards from `entry` to
    `exit`: it lies between the two, and the group's body has a way over it. -/
def Genuine (flags : Flags) (subject : Text) (ts : List Term) (entry exit : Int) (k : GroupKey)
    (s : Span) : Prop :=
  0 ≤ entry → entry ≤ s.start ∧ s.start ≤ s.stop ∧ s.stop ≤ exit ∧
    ∃ tag body, .group tag body ∈ ts ∧ k ∈ tag.keys ∧
      ∃ o ∈ (Pattern.ways flags subject body .forward).list s.start, o.index = s.stop

section Genuine

variable {flags : Flags} {subject : Text} {ts : List Term}

theorem keeps_genuine : Ways.Keeps .forward subject.size (Genuine flags subject ts) := by
  intro a b c d k s hab hcd h ha
  have hab := hab.le_of_forward
  have hcd := hcd.le_of_forward
  obtain ⟨hentry, hle, hexit, hgroup⟩ := h (by omega)
  exact ⟨by omega, hle, by omega, hgroup⟩

theorem groupsCapture_genuine :
    GroupsCapture flags subject .forward (Genuine flags subject ts) ts := by
  intro tag body hmem pos o ho k hk hpos
  have hle := ((Pattern.ways flags subject body .forward).ahead ho).le_of_forward
  have hstart : (pos.toNat : Int) = pos := by omega
  have hstop : (o.index.toNat : Int) = o.index := by omega
  refine ⟨?_, ?_, ?_, tag, body, hmem, hk, o, ?_, ?_⟩ <;>
    simp only [Span.between, Direction.gap, hstart, hstop, Int.le_refl]
  · omega
  · exact ho

end Genuine

namespace Regex

/-- A match begins where it was looked for, ends where its way does, no earlier and within the
    subject, and holds the text between. Every group that it reports, by number or by name, lies
    within the match and holds the text between its own ends. It is a group of the expression, and
    from the beginning of what it captured its body has a way that ends at the end of it. -/
theorem execAt?_captures {text : Input} {flags : Flags} {re : Regex}
    (hre : compile text flags = .ok re) {subject : Text} {start : Nat} {m : Match}
    (hm : re.execAt? subject start = some m) :
    (m.whole.start = start ∧ m.whole.Reads subject ∧
      ∃ o, re.matchAt subject start = some o ∧ o.index = m.whole.stop) ∧
    ∀ k c, (k, c) ∈ m.groups →
      c.Reads subject ∧ m.whole.start ≤ c.start ∧ c.stop ≤ m.whole.stop ∧
      (∃ tag body, .group tag body ∈ re.root.subterms ∧ k ∈ tag.keys) ∧
      ∀ tag body, .group tag body ∈ re.root.subterms → k ∈ tag.keys →
        ∃ o, (Pattern.machine re.flags subject body .forward).Gives c.start o ∧
          o.index = c.stop := by
  obtain ⟨hstart, o, ho, rfl⟩ := execAt?_eq_some_iff.mp hm
  obtain ⟨hwhole, hstop, hreads⟩ := whole_reads hstart ho
  refine ⟨⟨hwhole, hreads, o, ho, hstop⟩, fun k c hc => ?_⟩
  obtain ⟨⟨k, s⟩, hs, hc⟩ := List.mem_map.mp hc
  cases hc
  have hcaptures := (Part.pattern re.root).ways_captures keeps_genuine groupsCapture_genuine
    (mem_ways_of_matchAt ho) (CaptureMap.find?_eq_some_iff.mpr hs)
  obtain ⟨hlow, hle, hhigh, tag, body, hmem, hk, way, hway, hindex⟩ := hcaptures (by omega)
  have hsize : s.stop ≤ subject.size := by have := hreads.stop_le; omega
  refine ⟨Capture.reads_ofSpan hle hsize, ?_, ?_, ⟨tag, body, hmem, hk⟩, ?_⟩
  · show _ ≤ s.start
    omega
  · show s.stop ≤ _
    omega
  · intro tag' body' hmem' hk'
    -- the key is that of one group only
    have hsame := eq_of_mem_ownKeys (nodup_keys_of_compile hre) hmem hmem' hk hk'
    cases hsame
    have hgives := Pattern.machine_enumerates re.flags subject body .forward
    exact ⟨way, hgives.gives_iff.mpr hway, hindex⟩

/-- `(?<x>a)b|(a)` matches the `a` of `xac` with its second branch, and does not report the `a` that
    its first branch has captured before it failed. -/
theorem execAt?_captures_of_abandoned_branch : ∃ re m,
    compile (Text.ofString "(?<x>a)b|(a)").toList .none = .ok re ∧
      re.execAt? #[0x78, 0x61, 0x63] 1 = some m ∧
      m.groups = [(.number 2, ⟨"a", 1, 2⟩)] ∧ m.whole.Reads #[0x78, 0x61, 0x63] ∧
      ∀ tag body, .group tag body ∈ re.root.subterms → .number 2 ∈ tag.keys →
        ∃ o, (Pattern.machine re.flags #[0x78, 0x61, 0x63] body .forward).Gives 1 o ∧
          o.index = 2 := by
  have hre : compile (Text.ofString "(?<x>a)b|(a)").toList .none =
      .ok ⟨[[.group ⟨some 1, some "x"⟩ [[.char (.literal 0x61)]], .char (.literal 0x62)],
        [.group ⟨some 2, none⟩ [[.char (.literal 0x61)]]]], .none, 2⟩ := by with_unfolding_all rfl
  have hm : execAt? ⟨[[.group ⟨some 1, some "x"⟩ [[.char (.literal 0x61)]],
        .char (.literal 0x62)], [.group ⟨some 2, none⟩ [[.char (.literal 0x61)]]]], .none, 2⟩
      #[0x78, 0x61, 0x63] 1 = some ⟨⟨"a", 1, 2⟩, [(.number 2, ⟨"a", 1, 2⟩)], 2⟩ := by
    rw [execAt?_of_le (by decide), matchAt_eq_head?]
    rfl
  obtain ⟨⟨-, hreads, -⟩, hgroups⟩ := execAt?_captures hre hm
  obtain ⟨-, -, -, -, hways⟩ := hgroups _ _ List.mem_cons_self
  exact ⟨_, _, hre, hm, rfl, hreads, hways⟩

end Regex

end Retrace
