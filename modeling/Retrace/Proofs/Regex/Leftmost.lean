import Retrace.Proofs.Match.Enumeration
import Retrace.Regex.Search

/-!
# The leftmost match

A search passes over the start positions at which its expression cannot match: those where the first
literal is missing, and all but the first one if every branch begins with `^`. A branch whose first
term has no way at a position has none itself, so that what is passed over has no match.

Results:

* `matchAt_eq_head?`: a match at a position is the first of the pattern's ways.
* `matchAt_eq_none_of_not_mem`: where a search does not try, there is no match.
* `exec?_eq_leftmost`: a search finds the match at the first position that has one.
-/

namespace Retrace

/-! ## Parts without a way -/

namespace Ways

variable {dir : Direction} {length : Nat}

theorem chains_cons_eq_nil_iff {w : Ways dir length} {ws : List (Ways dir length)} {pos : Int} :
    chains (w :: ws) pos = [] ↔ ∀ o ∈ w.list pos, chains ws o.index = [] := by
  simp only [chains, List.flatMap_eq_nil_iff, List.map_eq_nil_iff]

end Ways

section Patterns

variable {flags : Flags} {subject : Text}

/-- Where its first term has no way, a branch has none going forwards. -/
theorem Branch.ways_eq_nil {t : Term} {ts : Branch} {pos : Int}
    (h : (t.ways flags subject .forward).list pos = []) :
    (Branch.ways flags subject (t :: ts) .forward).list pos = [] := by
  refine List.map_eq_nil_iff.mpr (Ways.chains_cons_eq_nil_iff.mpr fun o ho => ?_)
  rw [h] at ho
  exact absurd ho List.not_mem_nil

/-- Where no branch has a way, a pattern that has branches has none. -/
theorem Pattern.ways_eq_nil {bs : Pattern} {pos : Int} (hne : bs ≠ [])
    (h : ∀ b ∈ bs, (Branch.ways flags subject b .forward).list pos = []) :
    (bs.ways flags subject .forward).list pos = [] := by
  have hws : ∀ w ∈ bs.branchWays flags subject .forward, w.list pos = [] := by
    clear hne
    induction bs with
    | nil => exact fun w hw => absurd hw List.not_mem_nil
    | cons b bs ih =>
      rintro w (_ | ⟨_, hw⟩)
      · exact h b List.mem_cons_self
      · exact ih (fun b' hb' => h b' (List.mem_cons_of_mem _ hb')) w hw
  have hlist : (bs.ways flags subject .forward).list pos =
      (bs.branchWays flags subject .forward).flatMap fun w => w.list pos := by
    cases bs with
    | nil => exact absurd rfl hne
    | cons b bs => rfl
  rw [hlist, List.flatMap_eq_nil_iff]
  exact hws

theorem Term.ways_start_eq_nil {pos : Int} (hflags : flags.multiline = false) (hpos : pos ≠ 0) :
    (Term.ways flags subject (.anchor .start) .forward).list pos = [] := by
  have hholds : Anchor.start.holds flags subject (Direction.forward.gap pos) = false := by
    simp [Anchor.holds, Direction.gap, hflags, hpos]
  simp [Term.ways, Ways.single, Ways.gapGoal, hholds]

theorem Term.ways_literal_eq_nil {cp : CodePoint} {start : Nat} (hflags : flags.ignoreCase = false)
    (hcp : subject[start]? ≠ some cp) :
    (Term.ways flags subject (.char (.literal cp)) .forward).list start = [] := by
  have hgoal : Ways.charGoal flags subject .forward (.literal cp) start = none := by
    have hat : Text.at? subject start = subject[start]? := by
      rw [Text.at?, if_pos (by omega), Int.toNat_natCast]
    rw [Ways.charGoal, hat]
    refine if_neg fun hany => ?_
    obtain ⟨x, hx, haccepts⟩ := (Option.any_eq_true _ _).mp hany
    simp only [CharExpr.accepts, CodePoint.matchesLiteral, hflags, Bool.false_and, Bool.or_false,
      decide_eq_true_eq] at haccepts
    rw [hx, haccepts] at hcp
    exact hcp rfl
  simp [Term.ways, Ways.single, hgoal]

/-- A branch that begins with `^` has no way behind the subject's beginning. -/
theorem Branch.ways_eq_nil_of_startsAnchored {b : Branch} {pos : Int}
    (hflags : flags.multiline = false) (hb : b.startsAnchored) (hpos : pos ≠ 0) :
    (Branch.ways flags subject b .forward).list pos = [] := by
  unfold Branch.startsAnchored at hb
  split at hb
  · exact Branch.ways_eq_nil (Term.ways_start_eq_nil hflags hpos)
  · exact absurd hb Bool.false_ne_true

/-- A branch that begins with a literal, perhaps behind `^`, has no way where the literal is
    missing. -/
theorem Branch.ways_eq_nil_of_firstLiteral {b : Branch} {cp : CodePoint} {start : Nat}
    (hflags : flags.ignoreCase = false) (hb : b.firstLiteral? = some cp)
    (hcp : subject[start]? ≠ some cp) :
    (Branch.ways flags subject b .forward).list start = [] := by
  unfold Branch.firstLiteral? at hb
  split at hb
  · rw [← Option.some.inj hb] at hcp
    exact Branch.ways_eq_nil (Term.ways_literal_eq_nil hflags hcp)
  · rename_i c ts
    rw [← Option.some.inj hb] at hcp
    refine List.map_eq_nil_iff.mpr (Ways.chains_cons_eq_nil_iff.mpr fun o ho => ?_)
    refine Ways.chains_cons_eq_nil_iff.mpr fun o' ho' => ?_
    -- the anchor stays where it is, so that the literal is looked for at `start`
    have hindex : o.index = start := by
      obtain ⟨next, hnext, rfl⟩ := List.mem_map.mp ho
      obtain ⟨-, hstay⟩ := Option.ite_none_right_eq_some.mp (Option.mem_toList.mp hnext)
      exact (Option.some.inj hstay).symm
    rw [hindex, Term.ways_literal_eq_nil hflags hcp] at ho'
    exact absurd ho' List.not_mem_nil
  · cases hb

end Patterns

namespace Regex

/-- The match at a position is the first of the pattern's ways. -/
theorem matchAt_eq_head? (re : Regex) (subject : Text) (start : Nat) :
    re.matchAt subject start =
      ((re.root.ways re.flags subject .forward).list start).head? := by
  have hways := Pattern.machine_enumerates re.flags subject re.root .forward start
  rw [matchAt, machine]
  generalize (re.root.ways re.flags subject .forward).list start = os at hways ⊢
  cases hways with
  | done h _ => rw [h]; rfl
  | found h _ => rw [h]; rfl

/-- Where a search does not try, there is no match. -/
theorem matchAt_eq_none_of_not_mem {re : Regex} {subject : Text} {start : Nat}
    (hstart : start ≤ subject.size) (h : start ∉ re.candidates subject) :
    re.matchAt subject start = none := by
  -- a pattern whose branches have no way has none itself
  have hroot (hne : re.root ≠ [])
      (hbs : ∀ b ∈ re.root, (Branch.ways re.flags subject b .forward).list start = []) :
      re.matchAt subject start = none := by
    rw [matchAt_eq_head?, Pattern.ways_eq_nil hne hbs]
    rfl
  rw [mem_candidates, not_and, not_and_or] at h
  rcases h hstart with hanchored | hliteral
  · simp only [isAnchored, Bool.and_eq_true, Bool.not_eq_true', List.all_eq_true,
      Classical.not_imp] at hanchored
    obtain ⟨⟨⟨hflags, hne⟩, hall⟩, hstart⟩ := hanchored
    refine hroot (by rintro hnil; rw [hnil] at hne; cases hne) fun b hb => ?_
    exact Branch.ways_eq_nil_of_startsAnchored hflags (hall b hb) (by omega)
  · simp only [not_forall, Option.mem_def] at hliteral
    obtain ⟨cp, hfirst, hcp⟩ := hliteral
    unfold firstLiteral? at hfirst
    split at hfirst
    · cases hfirst
    · rename_i hflags
      split at hfirst
      · rename_i b hb
        refine hroot (by rw [hb]; exact List.cons_ne_nil _ _) fun b' hb' => ?_
        rw [hb, List.mem_singleton] at hb'
        rw [hb']
        exact Branch.ways_eq_nil_of_firstLiteral (Bool.eq_false_iff.mpr hflags) hfirst hcp
      · cases hfirst

/-! ## Searching -/

theorem searchAt_hit_eq_none {attempt : Nat → Option Outcome} {starts : List Nat} :
    (searchAt attempt starts).hit = none ↔ ∀ s ∈ starts, attempt s = none := by
  induction starts with
  | nil => simp [searchAt]
  | cons start starts ih =>
    rw [searchAt]
    cases hstart : attempt start <;> simp [hstart, ih]

/-- Among start positions in order, a search hits the first one that has a match. -/
theorem searchAt_hit_eq_some {attempt : Nat → Option Outcome} {starts : List Nat} {s : Nat}
    {o : Outcome} (hsorted : starts.Pairwise (· < ·)) :
    (searchAt attempt starts).hit = some (s, o) ↔
      s ∈ starts ∧ attempt s = some o ∧ ∀ s' ∈ starts, s' < s → attempt s' = none := by
  induction starts with
  | nil => simp [searchAt]
  | cons start starts ih =>
    obtain ⟨hlt, hsorted⟩ := List.pairwise_cons.mp hsorted
    rw [searchAt]
    cases hstart : attempt start with
    | some o' =>
      simp only [Option.some.injEq, Prod.mk.injEq]
      constructor
      · rintro ⟨rfl, rfl⟩
        refine ⟨List.mem_cons_self, hstart, fun s' hs' hlt' => ?_⟩
        rcases List.mem_cons.mp hs' with rfl | hs'
        · omega
        · have := hlt s' hs'
          omega
      · rintro ⟨hs, hso, hleast⟩
        rcases List.mem_cons.mp hs with rfl | hs
        · rw [hstart, Option.some.injEq] at hso
          exact ⟨rfl, hso⟩
        · have := hleast start List.mem_cons_self (hlt s hs)
          rw [hstart] at this
          cases this
    | none =>
      rw [ih hsorted]
      constructor
      · rintro ⟨hs, hso, hleast⟩
        refine ⟨List.mem_cons_of_mem _ hs, hso, fun s' hs' hlt' => ?_⟩
        rcases List.mem_cons.mp hs' with rfl | hs'
        · exact hstart
        · exact hleast s' hs' hlt'
      · rintro ⟨hs, hso, hleast⟩
        rcases List.mem_cons.mp hs with rfl | hs
        · rw [hstart] at hso
          cases hso
        · exact ⟨hs, hso, fun s' hs' => hleast s' (List.mem_cons_of_mem _ hs')⟩

theorem pairwise_candidates (re : Regex) (subject : Text) :
    (re.candidates subject).Pairwise (· < ·) := by
  unfold candidates
  refine List.Pairwise.filter _ ?_
  split
  · exact List.pairwise_singleton _ _
  · exact List.pairwise_lt_range

section Search

variable {re : Regex} {subject : Text}

theorem execAt?_of_le {s : Nat} (hs : s ≤ subject.size) : re.execAt? subject s =
    (re.matchAt subject s).map fun o => Match.ofOutcome subject s o 0 re.groupCount :=
  if_pos hs

theorem execAt?_eq_none_iff {s : Nat} (hs : s ≤ subject.size) :
    re.execAt? subject s = none ↔ re.matchAt subject s = none := by
  rw [execAt?_of_le hs, Option.map_eq_none_iff]

theorem execAt?_eq_none_of_not_mem {s : Nat} (hs : s ∉ re.candidates subject) :
    re.execAt? subject s = none := by
  by_cases hsize : s ≤ subject.size
  · exact (execAt?_eq_none_iff hsize).mpr (matchAt_eq_none_of_not_mem hsize hs)
  · exact if_neg hsize

/-- A search that tries only some of the start positions finds nothing if none of all has a
    match. -/
theorem exec?_eq_none_iff :
    re.exec? subject = none ↔ ∀ s ≤ subject.size, re.execAt? subject s = none := by
  rw [exec?, Option.map_eq_none_iff, search, searchAt_hit_eq_none]
  constructor
  · intro h s hs
    by_cases hmem : s ∈ re.candidates subject
    · exact (execAt?_eq_none_iff hs).mpr (h s hmem)
    · exact execAt?_eq_none_of_not_mem hmem
  · intro h s hmem
    have hs : s ≤ subject.size := (mem_candidates.mp hmem).1
    exact (execAt?_eq_none_iff hs).mp (h s hs)

/-- A search finds the match at the least of all start positions that have one. -/
theorem exec?_eq_some_iff {m : Match} :
    re.exec? subject = some m ↔
      ∃ s ≤ subject.size, re.execAt? subject s = some m ∧
        ∀ s' < s, re.execAt? subject s' = none := by
  have hle {s : Nat} (hs : s ∈ re.candidates subject) : s ≤ subject.size := (mem_candidates.mp hs).1
  simp only [exec?, Option.map_eq_some_iff, search, Prod.exists,
    searchAt_hit_eq_some (pairwise_candidates re subject)]
  constructor
  · rintro ⟨s, o, ⟨hs, ho, hleast⟩, rfl⟩
    refine ⟨s, hle hs, by rw [execAt?_of_le (hle hs), ho]; rfl, fun s' hs' => ?_⟩
    by_cases hmem : s' ∈ re.candidates subject
    · exact (execAt?_eq_none_iff (hle hmem)).mpr (hleast s' hmem hs')
    · exact execAt?_eq_none_of_not_mem hmem
  · rintro ⟨s, hs, hm, hleast⟩
    have hmem : s ∈ re.candidates subject := by
      by_contra hnot
      rw [execAt?_eq_none_of_not_mem hnot] at hm
      cases hm
    rw [execAt?_of_le hs, Option.map_eq_some_iff] at hm
    obtain ⟨o, ho, rfl⟩ := hm
    exact ⟨s, o, ⟨hmem, ho, fun s' hs' hlt => (execAt?_eq_none_iff (hle hs')).mp (hleast s' hlt)⟩,
      rfl⟩

end Search

/-- A search finds the leftmost match. It finds none if no start position has one, and otherwise the
    match, its groups included, at the least start position that has one; the start positions that
    it does not try have none. -/
theorem exec?_eq_leftmost (re : Regex) (subject : Text) :
    (re.exec? subject = none ↔ ∀ s ≤ subject.size, re.execAt? subject s = none) ∧
    (∀ m, re.exec? subject = some m ↔
      ∃ s ≤ subject.size, re.execAt? subject s = some m ∧
        ∀ s' < s, re.execAt? subject s' = none) ∧
    ∀ s ∉ re.candidates subject, re.execAt? subject s = none :=
  ⟨exec?_eq_none_iff, fun _ => exec?_eq_some_iff, fun _ => execAt?_eq_none_of_not_mem⟩

end Regex

end Retrace
