import Retrace.Proofs.Match.Remainder
import Retrace.Proofs.Regex.AllMatches

/-!
# All matches in context

All matches of a subject are found by searching its remainders, each of which counts as a subject of
its own. One would rather have them found in the subject as it stands, trying one start position
after another. For an expression that never looks left the two are the same; for others they need
not be, since `^` holds at the beginning of each remainder.

Results:

* `Regex.execAt?_extract`: an expression that never looks left matches a remainder as it matches the
  subject.
* `Regex.findAll_in_context`: it has the same ways in both, and the list of all its matches is what
  a scan of the whole subject finds.
-/

namespace Retrace

/-- What is read at the same place of a subject is the same. -/
theorem Capture.Reads.unique {subject : Text} {c c' : Capture} (h : c.Reads subject)
    (h' : c'.Reads subject) (hstart : c.start = c'.start) (hstop : c.stop = c'.stop) : c = c' := by
  have htext : c.text = c'.text := by rw [h.text_eq, h'.text_eq, hstart, hstop]
  obtain ⟨text, start, stop⟩ := c
  obtain ⟨text', start', stop'⟩ := c'
  rw [Capture.mk.injEq]
  exact ⟨htext, hstart, hstop⟩

namespace Regex

variable {re : Regex} {subject : Text} {r s : Nat}

/-! ## One start position -/

/-- The way that an expression takes from a start position is the one it takes from there in a
    remainder of the subject. -/
theorem matchAt_extract (h : NeverLookLeft re.root.subterms) (hr : r ≤ subject.size) (s : Nat) :
    re.matchAt subject (r + s) =
      (re.matchAt (subject.extract r subject.size) s).map (Outcome.shifted r) := by
  have hlist := Part.list_shifted re.flags hr (.pattern re.root) h s
  rw [matchAt_eq_head?, matchAt_eq_head?, ← List.head?_map]
  exact congrArg List.head? hlist

/-- The match at a start position is the one there in a remainder of the subject. -/
theorem execAt?_extract (h : NeverLookLeft re.root.subterms) (hr : r ≤ subject.size) (s : Nat) :
    (re.execAt? subject (r + s)).map Match.whole =
      (re.execAt? (subject.extract r subject.size) s).map fun m => m.whole.shifted r := by
  have hsize : (subject.extract r subject.size).size = subject.size - r := by simp
  by_cases hs : s ≤ subject.size - r
  · have hs' : s ≤ (subject.extract r subject.size).size := by omega
    rw [execAt?_of_le (by omega : r + s ≤ subject.size), execAt?_of_le hs', matchAt_extract h hr s]
    cases ho : re.matchAt (subject.extract r subject.size) s with
    | none => rfl
    | some o =>
      -- both wholes are read in the subject, between the same ends
      have hshifted : re.matchAt subject (r + s) = some (o.shifted r) := by
        rw [matchAt_extract h hr s, ho]
        rfl
      obtain ⟨hstart, hstop, hreads⟩ := whole_reads hs' ho
      obtain ⟨hstart', hstop', hreads'⟩ := whole_reads (by omega) hshifted
      refine congrArg some (hreads'.unique (hreads.shifted hr) ?_ ?_)
      · rw [hstart', Capture.shifted_start, hstart, Nat.add_comm]
      · have hindex : (o.shifted r).index = r + o.index := rfl
        show _ = (Match.ofOutcome _ s o 0 re.groupCount).whole.stop + r
        omega
  · have hnone : re.execAt? subject (r + s) = none := if_neg (by omega)
    have hnone' : re.execAt? (subject.extract r subject.size) s = none := if_neg (by omega)
    rw [hnone, hnone']
    rfl

theorem execAt?_eq_none_of_extract (h : NeverLookLeft re.root.subterms) (hr : r ≤ subject.size)
    (hrs : r ≤ s) (hnone : re.execAt? (subject.extract r subject.size) (s - r) = none) :
    re.execAt? subject s = none := by
  have hmap := execAt?_extract h hr (s - r)
  rwa [hnone, Nat.add_sub_cancel' hrs, Option.map_none, Option.map_eq_none_iff] at hmap

/-! ## One match after another -/

/-- The matches found from `r` on in the subject as it stands: the one at the least start position
    that has one, and then those found behind it. -/
inductive FoundInContext (re : Regex) (subject : Text) : Nat → List Capture → Prop
  | done {r : Nat} : (∀ s, r ≤ s → re.execAt? subject s = none) → FoundInContext re subject r []
  | found {r s : Nat} {m : Match} {ms : List Capture} : r ≤ s → re.execAt? subject s = some m →
      (∀ s', r ≤ s' → s' < s → re.execAt? subject s' = none) →
      FoundInContext re subject (s + max m.whole.length 1) ms →
      FoundInContext re subject r (m.whole :: ms)

/-- From an offset on, only one list of matches is found. -/
theorem FoundInContext.eq {ms ms' : List Capture} (h : re.FoundInContext subject r ms)
    (h' : re.FoundInContext subject r ms') : ms = ms' := by
  induction h generalizing ms' with
  | done hnone =>
    cases h' with
    | done => rfl
    | found hle hm =>
      rw [hnone _ hle] at hm
      cases hm
  | @found r s m ms hle hm hleast _ ih =>
    cases h' with
    | done hnone =>
      rw [hnone s hle] at hm
      cases hm
    | @found _ s' m' ms' hle' hm' hleast' hrest' =>
      have hs : s = s' := by
        rcases Nat.lt_trichotomy s s' with hlt | heq | hlt
        · rw [hleast' s hle hlt] at hm
          cases hm
        · exact heq
        · rw [hleast s' hle' hlt] at hm'
          cases hm'
      subst hs
      cases hm.symm.trans hm'
      rw [ih hrest']

/-- What an expression that never looks left finds in the remainders, it finds in context. -/
theorem FoundInRemainders.inContext (h : NeverLookLeft re.root.subterms) {ms : List Capture}
    (hms : re.FoundInRemainders subject r ms) : re.FoundInContext subject r ms := by
  induction hms with
  | @done r hexhausted =>
    refine .done fun s hrs => ?_
    rcases hexhausted with rfl | ⟨hr, hnone⟩
    · exact if_neg (by omega)
    · by_cases hs : s ≤ subject.size
      · have hsize : s - r ≤ (subject.extract r subject.size).size := by
          rw [Array.size_extract]
          omega
        exact execAt?_eq_none_of_extract h hr hrs (exec?_eq_none_iff.mp hnone _ hsize)
      · exact if_neg hs
  | @found r m ms hfirst _ ih =>
    have hfrom := hfirst.from_le
    have hle := hfirst.reads.start_le
    have hstop := hfirst.reads.stop_le
    have hr : r ≤ subject.size := by omega
    obtain ⟨found, hfound, hm⟩ := hfirst.exec
    -- the match in the remainder is one of the subject, at the same place
    have hmap := execAt?_extract h hr (m.start - r)
    rw [hfound, Nat.add_sub_cancel' hfrom, Option.map_some, hm, Option.map_eq_some_iff] at hmap
    obtain ⟨m', hm', rfl⟩ := hmap
    refine .found hfrom hm' (fun s' hrs hlt => ?_) ih
    exact execAt?_eq_none_of_extract h hr hrs (hfirst.least _ (by omega))

/-- An expression without `^`, word boundaries and lookbehinds at any depth has the same ways in the
    remainder of a subject as in the subject from there on, in the same order, with their cursors
    and spans counted from the beginning of the remainder. The list of all its matches is then what
    a scan of the whole subject finds that never cuts it. -/
theorem findAll_in_context (re : Regex) (h : NeverLookLeft re.root.subterms) :
    (∀ (subject : Text) (offset p : Nat), offset ≤ subject.size →
      ∃ os, Yields (re.machine (subject.extract offset subject.size)).request p .fresh os ∧
        Yields (re.machine subject).request (offset + p) .fresh
          (os.map (Outcome.shifted offset))) ∧
    ∀ (subject : Text) (ms : List Capture),
      re.FoundInContext subject 0 ms ↔ ms = re.findAll subject := by
  refine ⟨fun subject offset p hoffset => ?_, fun subject ms => ?_⟩
  · have hlist := Part.list_shifted re.flags hoffset (.pattern re.root) h p
    have hsubject := Pattern.machine_enumerates re.flags subject re.root .forward (offset + p)
    refine ⟨_, Pattern.machine_enumerates re.flags _ re.root .forward p, ?_⟩
    exact hlist ▸ hsubject
  · have hfound : re.FoundInContext subject 0 (re.findAll subject) :=
      (hits_found (Nat.zero_le _)).inContext h
    constructor
    · exact fun hms => hms.eq hfound
    · rintro rfl
      exact hfound

/-- The expression `a(?=b)|b+?$` on `cabb`, and the `abb` that is left of it behind the `c`. -/
theorem findAll_in_context_of_lookahead : ∃ re,
    compile (Text.ofString "a(?=b)|b+?$").toList .none = .ok re ∧
      NeverLookLeft re.root.subterms ∧
      (∃ os, Yields (re.machine (Array.extract #[0x63, 0x61, 0x62, 0x62] 1 4)).request 0 .fresh os ∧
        Yields (re.machine #[0x63, 0x61, 0x62, 0x62]).request 1 .fresh
          (os.map (Outcome.shifted 1))) ∧
      re.FoundInContext #[0x63, 0x61, 0x62, 0x62] 0 (re.findAll #[0x63, 0x61, 0x62, 0x62]) := by
  obtain ⟨re, hre, h⟩ : ∃ re, compile (Text.ofString "a(?=b)|b+?$").toList .none = .ok re ∧
      NeverLookLeft re.root.subterms := ⟨_, by with_unfolding_all rfl, by decide⟩
  obtain ⟨hways, hall⟩ := findAll_in_context re h
  exact ⟨re, hre, h, hways #[0x63, 0x61, 0x62, 0x62] 1 0 (by decide), (hall _ _).mpr rfl⟩

end Regex

end Retrace
