import Retrace.Proofs.Regex.AllMatches

/-!
# Searches that agree

Two expressions may pass over different start positions of a subject. Since these have no match,
what the two have in common at every start position, they have in common in searches.

Results:

* `Regex.exec?_rel`, `Regex.findAll_congr`: expressions that agree at all start positions agree in
  searches.
* `Regex.exists_exec?_start_le`: an expression that has a match wherever another one has begins its
  leftmost match no later.
* `Regex.offset?_eq`: expressions that have matches at the same start positions begin their leftmost
  matches at the same place.
-/

namespace Retrace

namespace Regex

variable {re re' : Regex} {subject : Text} {R : Match → Match → Prop}

/-- Where two expressions agree at every start position, so do their searches, whatever start
    positions each of them passes over. -/
theorem exec?_rel (h : ∀ s, Option.Rel R (re.execAt? subject s) (re'.execAt? subject s)) :
    Option.Rel R (re.exec? subject) (re'.exec? subject) := by
  have hnone {s : Nat} (hs : re.execAt? subject s = none) : re'.execAt? subject s = none := by
    have hrel := h s
    generalize re'.execAt? subject s = x at hrel ⊢
    rw [hs] at hrel
    cases hrel
    rfl
  cases hexec : re.exec? subject with
  | none =>
    have hexec' : re'.exec? subject = none :=
      exec?_eq_none_iff.mpr fun s hs => hnone (exec?_eq_none_iff.mp hexec s hs)
    rw [hexec']
    exact .none
  | some m =>
    obtain ⟨s, hs, hm, hleast⟩ := exec?_eq_some_iff.mp hexec
    have hrel := h s
    generalize hm' : re'.execAt? subject s = x at hrel
    rw [hm] at hrel
    cases hrel with
    | some hrel =>
      rw [exec?_eq_some_iff.mpr ⟨s, hs, hm', fun s' hs' => hnone (hleast s' hs')⟩]
      exact .some hrel

/-- Expressions whose searches match the same text in every remainder of a subject find the same in
    all rounds. -/
theorem hits_congr (hR : ∀ m m', R m m' → m'.whole = m.whole)
    (h : ∀ r, Option.Rel R (re.exec? (subject.extract r subject.size))
      (re'.exec? (subject.extract r subject.size))) (r : Nat) :
    re'.hits subject r = re.hits subject r := by
  -- the induction is on how much of the subject is left
  induction hleft : subject.size + 1 - r using Nat.strongRecOn generalizing r with
  | ind left ih =>
    by_cases hr : r ≤ subject.size
    · have hrel := h r
      generalize hexec : re.exec? (subject.extract r subject.size) = x,
        hexec' : re'.exec? (subject.extract r subject.size) = x' at hrel
      cases hrel with
      | none => rw [hits_of_exec?_eq_none hr hexec, hits_of_exec?_eq_none hr hexec']
      | @some m m' hmatch =>
        have hfrom := (firstFrom_of_exec? hr hexec).from_le
        have hlt := (m.whole.shifted r).start_lt_next
        rw [hits_of_exec?_eq_some hr hexec, hits_of_exec?_eq_some hr hexec',
          hR m m' hmatch, ih _ (by omega) _ rfl]
    · rw [hits_of_lt (by omega), hits_of_lt (by omega)]

theorem findAll_congr (hR : ∀ m m', R m m' → m'.whole = m.whole)
    (h : ∀ subject, Option.Rel R (re.exec? subject) (re'.exec? subject)) :
    re'.findAll subject = re.findAll subject :=
  hits_congr hR (fun _ => h _) 0

/-- Expressions whose searches find the same in every remainder of a subject find the same in all
    rounds. -/
theorem findAll_eq (h : ∀ r, re'.exec? (subject.extract r subject.size) =
    re.exec? (subject.extract r subject.size)) : re'.findAll subject = re.findAll subject := by
  refine hits_congr (R := Eq) (fun _ _ heq => congrArg _ heq.symm) (fun r => ?_) 0
  rw [h r]
  cases re.exec? (subject.extract r subject.size) with
  | none => exact .none
  | some m => exact .some rfl

/-- An expression has a match at the start positions of the subject at which its pattern has a
    way. -/
theorem isSome_execAt?_iff {s : Nat} : (re.execAt? subject s).isSome ↔
    s ≤ subject.size ∧ (re.root.ways re.flags subject .forward).list s ≠ [] := by
  by_cases hs : s ≤ subject.size
  · rw [execAt?_of_le hs, Option.isSome_map, matchAt_eq_head?, List.isSome_head?]
    exact (and_iff_right hs).symm
  · rw [execAt?, if_neg hs]
    exact iff_of_false Bool.false_ne_true fun h => hs h.1

/-- Where an expression has a match at every start position at which another one has, it finds a
    match that begins no later. -/
theorem exists_exec?_start_le
    (h : ∀ s, (re.execAt? subject s).isSome → (re'.execAt? subject s).isSome) {m : Match}
    (hm : re.exec? subject = some m) :
    ∃ m', re'.exec? subject = some m' ∧ m'.whole.start ≤ m.whole.start := by
  obtain ⟨s, hs, hms, -⟩ := exec?_eq_some_iff.mp hm
  have hsome : (re'.execAt? subject s).isSome := h s (by rw [hms]; rfl)
  cases hm' : re'.exec? subject with
  | none =>
    rw [exec?_eq_none_iff.mp hm' s hs] at hsome
    cases hsome
  | some m' =>
    obtain ⟨s', -, hms', hleast⟩ := exec?_eq_some_iff.mp hm'
    refine ⟨m', rfl, ?_⟩
    rw [(whole_of_execAt? hms).1, (whole_of_execAt? hms').1]
    by_contra hlt
    rw [hleast s (by omega)] at hsome
    cases hsome

/-- Where two expressions have matches at the same start positions, their leftmost matches begin at
    the same place. -/
theorem offset?_eq (h : ∀ s, (re.execAt? subject s).isSome = (re'.execAt? subject s).isSome) :
    re.offset? subject = re'.offset? subject := by
  have hstarts (s : Nat) : Option.Rel (fun m m' => m.whole.start = m'.whole.start)
      (re.execAt? subject s) (re'.execAt? subject s) := by
    have hsome := h s
    generalize hm : re.execAt? subject s = x, hm' : re'.execAt? subject s = x' at hsome
    match x, x', hsome with
    | none, none, _ => exact .none
    | some m, some m', _ =>
      exact .some ((whole_of_execAt? hm).1.trans (whole_of_execAt? hm').1.symm)
  have hrel := exec?_rel hstarts
  unfold offset?
  generalize re.exec? subject = x, re'.exec? subject = x' at hrel
  cases hrel with
  | none => rfl
  | some hstart => exact congrArg some hstart

theorem isMatch_eq_isSome_offset? (re : Regex) (subject : Text) :
    re.isMatch subject = (re.offset? subject).isSome := by
  rw [isMatch, offset?, Option.isSome_map]

end Regex

end Retrace
