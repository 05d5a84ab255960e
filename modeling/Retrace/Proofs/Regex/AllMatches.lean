import Retrace.Proofs.Regex.Bounds

/-!
# All matches of a subject

The matches of a subject are found in rounds, each of which searches what is left of the subject
behind the last match. A round either finds the leftmost match of its remainder, and the next round
begins behind it, or it is the last one. Since a match never ends before its beginning or behind the
subject, rounds go on to later and later offsets, and the matches are in order and do not overlap.

Results:

* `Regex.FoundInRemainders`: what one round after another finds.
* `Regex.hits_found`: the rounds from an offset on find what the relation says.
* `Regex.findAll_ordered`: the list of all matches is ordered, disjoint and without gaps.
-/

namespace Retrace

namespace Capture

/-- The capture where the text it is of begins at `offset` of a longer one. -/
def shifted (offset : Nat) (c : Capture) : Capture := ⟨c.text, c.start + offset, c.stop + offset⟩

/-- The offset at which the search goes on behind a match: its end, or one code point further if it
    is empty. -/
def next (c : Capture) : Nat := c.start + max c.length 1

@[simp] theorem shifted_start (offset : Nat) (c : Capture) :
    (c.shifted offset).start = c.start + offset := rfl

@[simp] theorem shifted_stop (offset : Nat) (c : Capture) :
    (c.shifted offset).stop = c.stop + offset := rfl

theorem start_lt_next (c : Capture) : c.start < c.next := by
  unfold next
  omega

theorem stop_le_next {c : Capture} (h : c.start ≤ c.stop) : c.stop ≤ c.next := by
  unfold next length
  omega

theorem next_le {c : Capture} {length : Nat} (h : c.start ≤ c.stop) (hstop : c.stop ≤ length) :
    c.next ≤ length + 1 := by
  unfold next Capture.length
  omega

/-- What is read in the remainder of a subject is read in the subject, further on. -/
theorem Reads.shifted {subject : Text} {offset : Nat} {c : Capture}
    (hoffset : offset ≤ subject.size) (h : c.Reads (subject.extract offset subject.size)) :
    (c.shifted offset).Reads subject := by
  have hsize : (subject.extract offset subject.size).size = subject.size - offset := by simp
  have hle := h.start_le
  have hstop := h.stop_le
  refine ⟨?_, ?_, ?_⟩
  · rw [shifted_start, shifted_stop]
    omega
  · rw [shifted_stop]
    omega
  · have hmin : min (offset + c.stop) subject.size = offset + c.stop := by omega
    rw [shifted_start, shifted_stop, Nat.add_comm c.start, Nat.add_comm c.stop]
    exact h.text_eq.trans (by rw [Array.extract_extract, hmin])

end Capture

namespace Regex

variable {re : Regex} {subject : Text} {r : Nat}

/-- The matches that the rounds from an offset on find. -/
def hits (re : Regex) (subject : Text) (offset : Nat) : List Capture :=
  (re.rounds subject offset).filterMap Round.hit

/-- A match is found by searching the remainder of the subject from `r` on: it is the match that the
    expression has in the remainder at the least of all start positions that have one. -/
structure FirstFrom (re : Regex) (subject : Text) (r : Nat) (m : Capture) : Prop where
  from_le : r ≤ m.start
  reads : m.Reads subject
  exec : ∃ found, re.execAt? (subject.extract r subject.size) (m.start - r) = some found ∧
    found.whole.shifted r = m
  least : ∀ s < m.start - r, re.execAt? (subject.extract r subject.size) s = none

/-- Nothing is left to find from `r` on: the subject is used up, or its remainder has no match. -/
def Exhausted (re : Regex) (subject : Text) (r : Nat) : Prop :=
  r = subject.size + 1 ∨
    (r ≤ subject.size ∧ re.exec? (subject.extract r subject.size) = none)

/-- The matches found from `r` on when one remainder of the subject is searched after another. -/
inductive FoundInRemainders (re : Regex) (subject : Text) : Nat → List Capture → Prop
  | done {r : Nat} : re.Exhausted subject r → FoundInRemainders re subject r []
  | found {r : Nat} {m : Capture} {ms : List Capture} : re.FirstFrom subject r m →
      FoundInRemainders re subject m.next ms → FoundInRemainders re subject r (m :: ms)

/-! ## One round -/

theorem hits_of_lt (hr : subject.size < r) : re.hits subject r = [] := by
  rw [hits, rounds, if_neg (by omega)]
  rfl

theorem hits_of_exec?_eq_none (hr : r ≤ subject.size)
    (h : re.exec? (subject.extract r subject.size) = none) : re.hits subject r = [] := by
  have hsearch := Option.map_eq_none_iff.mp h
  rw [hits, rounds, if_pos hr]
  simp only [hsearch, List.filterMap_cons, List.filterMap_nil]

/-- A round that finds a match is followed by the rounds behind it. -/
theorem hits_of_exec?_eq_some (hr : r ≤ subject.size) {found : Match}
    (h : re.exec? (subject.extract r subject.size) = some found) :
    re.hits subject r =
      found.whole.shifted r :: re.hits subject (found.whole.shifted r).next := by
  obtain ⟨⟨start, o⟩, hsearch, rfl⟩ := Option.map_eq_some_iff.mp h
  rw [hits, rounds, if_pos hr]
  simp only [hsearch, List.filterMap_cons]
  rfl

/-- What a search finds in the remainder is a match of the subject. -/
theorem firstFrom_of_exec? (hr : r ≤ subject.size) {found : Match}
    (h : re.exec? (subject.extract r subject.size) = some found) :
    re.FirstFrom subject r (found.whole.shifted r) := by
  obtain ⟨s, hs, hfound, hleast⟩ := exec?_eq_some_iff.mp h
  obtain ⟨hstart, hreads⟩ := whole_of_execAt? hfound
  have hsub : (found.whole.shifted r).start - r = s := by
    rw [Capture.shifted_start, hstart, Nat.add_sub_cancel]
  refine ⟨?_, hreads.shifted hr, ⟨_, ?_, rfl⟩, ?_⟩
  · rw [Capture.shifted_start]
    omega
  · rw [hsub]
    exact hfound
  · rw [hsub]
    exact hleast

/-! ## Round after round -/

theorem FirstFrom.next_le {m : Capture} (h : re.FirstFrom subject r m) :
    m.next ≤ subject.size + 1 :=
  Capture.next_le h.reads.start_le h.reads.stop_le

/-- The rounds from an offset on find one match after another until nothing is left to find. -/
theorem hits_found (hr : r ≤ subject.size + 1) :
    re.FoundInRemainders subject r (re.hits subject r) := by
  -- the induction is on how much of the subject is left
  induction hleft : subject.size + 1 - r using Nat.strongRecOn generalizing r with
  | ind left ih =>
    by_cases hsize : r ≤ subject.size
    · cases h : re.exec? (subject.extract r subject.size) with
      | none =>
        rw [hits_of_exec?_eq_none hsize h]
        exact .done (.inr ⟨hsize, h⟩)
      | some found =>
        have hfirst := firstFrom_of_exec? hsize h
        have hfrom := hfirst.from_le
        have hlt := (found.whole.shifted r).start_lt_next
        rw [hits_of_exec?_eq_some hsize h]
        exact .found hfirst (ih _ (by omega) hfirst.next_le rfl)
    · rw [hits_of_lt (by omega)]
      exact .done (.inl (by omega))

/-- The offset from which the search goes on when it has begun at `r` and found the given
    matches. -/
def resumeAfter (r : Nat) : List Capture → Nat
  | [] => r
  | m :: ms => resumeAfter m.next ms

namespace FoundInRemainders

variable {ms : List Capture}

theorem from_le (h : re.FoundInRemainders subject r ms) {m : Capture} (hm : m ∈ ms) :
    r ≤ m.start := by
  induction h with
  | done => exact absurd hm List.not_mem_nil
  | @found r m' ms hfirst _ ih =>
    have hfrom := hfirst.from_le
    rcases List.mem_cons.mp hm with rfl | hm
    · exact hfrom
    · have hlt := m'.start_lt_next
      have := ih hm
      omega

/-- Each match uses up a start position. -/
theorem length_add_le (h : re.FoundInRemainders subject r ms) :
    ms.length + r ≤ subject.size + 1 := by
  induction h with
  | done h =>
    rw [List.length_nil]
    rcases h with h | ⟨h, -⟩ <;> omega
  | @found r m ms hfirst _ ih =>
    have hfrom := hfirst.from_le
    have hlt := m.start_lt_next
    rw [List.length_cons]
    omega

theorem pairwise (h : re.FoundInRemainders subject r ms) :
    ms.Pairwise fun m m' => m.stop ≤ m'.start ∧ m.start < m'.start := by
  induction h with
  | done => exact .nil
  | @found r m ms hfirst hrest ih =>
    have hlt := m.start_lt_next
    have hle := Capture.stop_le_next hfirst.reads.start_le
    refine List.pairwise_cons.mpr ⟨fun m' hm' => ?_, ih⟩
    have := hrest.from_le hm'
    exact ⟨by omega, by omega⟩

/-- Each match is the first one from where the search went on before it. -/
theorem firstFrom_getElem (h : re.FoundInRemainders subject r ms) (i : Fin ms.length) :
    re.FirstFrom subject (resumeAfter r (ms.take i)) ms[i] := by
  induction h with
  | done => exact i.elim0
  | found hfirst _ ih =>
    cases i using Fin.cases with
    | zero => exact hfirst
    | succ i => exact ih i

theorem exhausted (h : re.FoundInRemainders subject r ms) :
    re.Exhausted subject (resumeAfter r ms) := by
  induction h with
  | done h => exact h
  | found _ _ ih => exact ih

end FoundInRemainders

/-- All matches of a subject are listed in order and without overlap, at most one for each position
    between its code points. Each of them is the leftmost match of what is left of the subject
    behind the one before it, and behind the last of them there is none. -/
theorem findAll_ordered (re : Regex) (subject : Text) :
    (re.findAll subject).length ≤ subject.size + 1 ∧
    (re.findAll subject).Pairwise (fun m m' => m.stop ≤ m'.start ∧ m.start < m'.start) ∧
    (∀ i : Fin (re.findAll subject).length,
      re.FirstFrom subject (resumeAfter 0 ((re.findAll subject).take i))
        (re.findAll subject)[i]) ∧
    re.Exhausted subject (resumeAfter 0 (re.findAll subject)) := by
  have h : re.FoundInRemainders subject 0 (re.findAll subject) := hits_found (Nat.zero_le _)
  exact ⟨h.length_add_le, h.pairwise, h.firstFrom_getElem, h.exhausted⟩

end Regex

end Retrace
