import Retrace.Proofs.Syntax.Reading

/-!
# Invariants of reading

A pattern is read in steps: a bar, a closing parenthesis, an opening or a whole term. What every
step preserves holds of the pattern that is returned. An invariant about single terms follows from
what one element, one closing and one quantifier make.

Results:

* `Input.Invariant.reaches`: an invariant of the steps holds where the text ends.
* `Pattern.parse_subterms`: what every term has when it is made, every term of a parsed pattern has.
* `Pattern.parse_names`: no two groups of a parsed pattern have the same name.
-/

namespace Retrace

namespace Input

/-! ## Steps -/

/-- A condition on the open groups, the open pattern, the names in use and the rest of the text that
    every step of reading preserves. -/
structure Invariant (I : List OpenGroup → OpenPattern → List String → Input → Prop) : Prop where
  bar {stack p names cp rest} : I stack p names (cp :: rest) → cp.toChar = '|' →
    I stack p.nextBranch names rest
  close {g stack p names cp rest t r} : I (g :: stack) p names (cp :: rest) → cp.toChar = ')' →
    repeated (g.opening.close p.finish) rest = .ok (t, r) → I stack (g.around.addTerm t) names r
  opening {stack p names s o names' r} : I stack p names s → (∀ c ∈ peek? s, c ∉ ['|', ')']) →
    element names s = .ok (.opening o names', r) → I (⟨o, s, p⟩ :: stack) {} names' r
  term {stack p names s t r u r'} : I stack p names s → (∀ c ∈ peek? s, c ∉ ['|', ')']) →
    element names s = .ok (.term t, r) → repeated t r = .ok (u, r') → I stack (p.addTerm u) names r'

/-- An invariant that holds of a state holds of the last state that is reached from it. -/
theorem Invariant.reaches {I : List OpenGroup → OpenPattern → List String → Input → Prop}
    (h : Invariant I) {stack : List OpenGroup} {p : OpenPattern} {names : List String} {s : Input}
    {q : Pattern} (hi : I stack p names s) (hq : patternFrom stack p names s = .ok q) :
    ∃ p names, I [] p names [] ∧ p.finish = q := by
  fun_induction patternFrom stack p names s with
  | case1 p names =>
    cases hq
    exact ⟨p, names, hi, rfl⟩
  | case3 stack p names cp rest hc ih => exact ih (h.bar hi hc) hq
  | case6 p names cp rest _ hc g outer t r hr ih => exact ih (h.close hi hc hr) hq
  | case8 stack p names cp rest hbar hparen o names' r he ih =>
    exact ih (h.opening hi (by simp [peek?, hbar, hparen]) he) hq
  | case10 stack p names cp rest hbar hparen t r he u r' hr ih =>
    exact ih (h.term hi (by simp [peek?, hbar, hparen]) he hr) hq
  | case2 | case4 | case5 | case7 | case9 => cases hq

theorem Invariant.and {I J : List OpenGroup → OpenPattern → List String → Input → Prop}
    (hI : Invariant I) (hJ : Invariant J) :
    Invariant fun stack p names s => I stack p names s ∧ J stack p names s where
  bar h hc := ⟨hI.bar h.1 hc, hJ.bar h.2 hc⟩
  close h hc hr := ⟨hI.close h.1 hc hr, hJ.close h.2 hc hr⟩
  opening h hs he := ⟨hI.opening h.1 hs he, hJ.opening h.2 hs he⟩
  term h hs he hr := ⟨hI.term h.1 hs he hr, hJ.term h.2 hs he hr⟩

/-- What reading makes of inputs within `S`: each term and each quantified term has `Q`, and so has
    what an opening makes of any body that a text can have. -/
structure Produces (S : Input → Prop) (Q : Term → Prop) : Prop where
  suffix {s r} : S s → r <:+ s → S r
  term {names s t r} : S s → element names s = .ok (.term t, r) → Q t
  opening {names s o names' r body} : S s → element names s = .ok (.opening o names', r) →
    body ≠ [[]] → Q (o.close body)
  quantified {t s q r} : S s → quantifier? s = .ok (some (q, r)) → t.isAssertion = false →
    t.isRepeated = false → Q (.repeated t q)

namespace Produces

variable {S : Input → Prop} {Q : Term → Prop}

theorem forall_repeated (h : Produces S Q) {t u : Term} {s r : Input} (hs : S s)
    (hr : t.isRepeated = false) (ht : ∀ v ∈ t.subterms, Q v) (hu : repeated t s = .ok (u, r)) :
    ∀ v ∈ u.subterms, Q v := by
  rcases repeated_eq_ok hu with ⟨_, rfl, rfl⟩ | ⟨q, hq, ha, rfl⟩
  · exact ht
  · intro v hv
    rcases List.mem_cons.1 hv with rfl | hv
    · exact h.quantified hs hq ha hr
    · exact ht v hv

/-- All terms read so far have `Q`, and so will what the open groups close to. -/
theorem invariant (h : Produces S Q) :
    Invariant fun stack p _ s => S s ∧ (∀ u ∈ p.subterms, Q u) ∧
      ∀ g ∈ stack, (∀ body, body ≠ [[]] → Q (g.opening.close body)) ∧
        ∀ u ∈ g.around.subterms, Q u where
  bar := by
    rintro stack p names cp rest ⟨hs, hp, hg⟩ -
    refine ⟨h.suffix hs (List.suffix_cons _ _), fun u hu => ?_, hg⟩
    exact hp u (p.subterms_nextBranch_perm.mem_iff.1 hu)
  close := by
    rintro g stack p names cp rest t r ⟨hs, hp, hg⟩ - hr
    have hs := h.suffix hs (List.suffix_cons _ _)
    have ⟨hclose, haround⟩ := hg g List.mem_cons_self
    refine ⟨h.suffix hs (repeated_suffix hr), fun u hu => ?_, fun g hg' =>
      hg g (List.mem_cons_of_mem _ hg')⟩
    rw [OpenPattern.subterms_addTerm] at hu
    rcases List.mem_append.1 hu with hu | hu
    · refine h.forall_repeated hs (Opening.isRepeated_close _ _) (fun v hv => ?_) hr u hu
      rw [Opening.subterms_close] at hv
      rcases List.mem_cons.1 hv with rfl | hv
      · exact hclose _ p.finish_ne
      · exact hp v (p.subterms_finish_perm.mem_iff.1 hv)
    · exact haround u hu
  opening := by
    rintro stack p names s o names' r ⟨hs, hp, hg⟩ - he
    refine ⟨h.suffix hs (element_shorter he).1, by simp [OpenPattern.subterms, Branch.subterms,
      Pattern.subterms], fun g hg' => ?_⟩
    rcases List.mem_cons.1 hg' with rfl | hg'
    · exact ⟨fun body hb => h.opening hs he hb, hp⟩
    · exact hg g hg'
  term := by
    rintro stack p names s t r u r' ⟨hs, hp, hg⟩ - he hr
    have hl := (termRead_of_element he).isLeaf
    have hs' := h.suffix hs (element_shorter he).1
    refine ⟨h.suffix hs' (repeated_suffix hr), fun v hv => ?_, hg⟩
    rw [OpenPattern.subterms_addTerm] at hv
    rcases List.mem_append.1 hv with hv | hv
    · refine h.forall_repeated hs' (Term.isRepeated_of_isLeaf hl) (fun w hw => ?_) hr v hv
      rw [Term.subterms_of_isLeaf hl] at hw
      rw [List.mem_singleton.1 hw]
      exact h.term hs he
    · exact hp v hv

end Produces

end Input

theorem Pattern.parse_eq (text : Input) :
    parse text = (Input.patternFrom [] {} [] text).mapError (Failure.inText · text) := by
  unfold parse
  cases Input.patternFrom [] {} [] text with
  | error f => rfl
  | ok p => rfl

theorem Pattern.parse_eq_ok {text : Input} {p : Pattern} (h : parse text = .ok p) :
    Input.patternFrom [] {} [] text = .ok p := by
  unfold parse at h
  split at h
  case h_1 hq =>
    cases h
    exact hq
  case h_2 => cases h

theorem Pattern.parse_eq_ok_iff {text : Input} {p : Pattern} :
    parse text = .ok p ↔ Input.patternFrom [] {} [] text = .ok p := by
  refine ⟨parse_eq_ok, fun h => ?_⟩
  unfold parse
  rw [h]

/-- What every term of an input within `S` has when it is made, every term of the pattern has. -/
theorem Pattern.parse_subterms {S : Input → Prop} {Q : Term → Prop} (h : Input.Produces S Q)
    {text : Input} {p : Pattern} (hs : S text) (hp : parse text = .ok p) :
    ∀ u ∈ p.subterms, Q u := by
  have hp := parse_eq_ok hp
  obtain ⟨q, names, ⟨_, hq, _⟩, rfl⟩ := h.invariant.reaches ⟨hs, by simp [OpenPattern.subterms,
    Branch.subterms, subterms], by simp⟩ hp
  exact fun u hu => hq u (q.subterms_finish_perm.mem_iff.1 hu)

/-! ## Group names -/

/-- The name of a group, if the term is a named group. -/
def Term.groupName? : Term → Option String
  | .group tag _ => tag.name
  | _ => none

/-- The name of the group that an opening opens, if it is a named group. -/
def Opening.name? : Opening → Option String
  | .group tag => tag.name
  | .look .. => none

theorem Opening.groupNames_close (o : Opening) (body : Pattern) :
    (o.close body).subterms.filterMap Term.groupName? =
      o.name?.toList ++ body.subterms.filterMap Term.groupName? := by
  rw [subterms_close, List.filterMap_cons]
  cases o with
  | group tag => rcases h : tag.name <;> simp [close, name?, Term.groupName?, h]
  | look => rfl

theorem Pattern.groupNames_eq (p : Pattern) :
    p.groupNames = p.subterms.filterMap Term.groupName? := by
  unfold groupNames groupTags
  rw [List.filterMap_filterMap]
  congr 1
  funext t
  cases t <;> rfl

/-- The names of the groups read so far, closed or open. -/
def Input.heldNames (stack : List OpenGroup) (p : OpenPattern) : List String :=
  p.subterms.filterMap Term.groupName? ++
    stack.flatMap fun g => g.opening.name?.toList ++ g.around.subterms.filterMap Term.groupName?

theorem Input.filterMap_groupName?_repeated {t u : Term} {s r : Input}
    (h : repeated t s = .ok (u, r)) :
    u.subterms.filterMap Term.groupName? = t.subterms.filterMap Term.groupName? := by
  rcases repeated_eq_ok h with ⟨_, rfl, _⟩ | ⟨q, _, _, rfl⟩
  · rfl
  · rfl

/-- The names in use are those of the groups read so far, and differ from each other. -/
theorem Input.heldNames_invariant : Invariant fun stack p names _ =>
    (heldNames stack p).Perm names ∧ names.Nodup where
  bar := by
    rintro stack p names cp rest ⟨hn, hd⟩ -
    have hp : (heldNames stack p.nextBranch).Perm (heldNames stack p) :=
      (p.subterms_nextBranch_perm.filterMap _).append_right _
    exact ⟨hp.trans hn, hd⟩
  close := by
    rintro g stack p names cp rest t r ⟨hn, hd⟩ - hr
    have hp : (heldNames stack (g.around.addTerm t)).Perm (heldNames (g :: stack) p) := by
      unfold heldNames
      rw [OpenPattern.subterms_addTerm, List.filterMap_append, filterMap_groupName?_repeated hr,
        Opening.groupNames_close, List.flatMap_cons]
      simp only [← List.append_assoc]
      refine ((List.Perm.append_left _ ?_).trans List.perm_append_comm).append_right _
        |>.append_right _
      exact p.subterms_finish_perm.filterMap _
    exact ⟨hp.trans hn, hd⟩
  opening := by
    rintro stack p names s o names' r ⟨hn, hd⟩ - he
    have hh : heldNames (⟨o, s, p⟩ :: stack) {} = o.name?.toList ++ heldNames stack p := by
      simp [heldNames, OpenPattern.subterms, Branch.subterms, Pattern.subterms]
    rw [hh]
    cases openingRead_of_element he with
    | look | group | capture => exact ⟨hn, hd⟩
    | @named _ name _ hf => exact ⟨hn.cons name, List.nodup_cons.2 ⟨hf, hd⟩⟩
  term := by
    rintro stack p names s t r u r' ⟨hn, hd⟩ - he hr
    have hh : heldNames stack (p.addTerm u) = heldNames stack p := by
      have hl := (termRead_of_element he).isLeaf
      unfold heldNames
      rw [OpenPattern.subterms_addTerm, List.filterMap_append, filterMap_groupName?_repeated hr,
        Term.subterms_of_isLeaf hl]
      cases t <;> first | rfl | simp [Term.isLeaf] at hl
    rw [hh]
    exact ⟨hn, hd⟩

theorem Input.heldNames_start : (heldNames [] {}).Perm [] ∧ ([] : List String).Nodup := by
  simp [heldNames, OpenPattern.subterms, Branch.subterms, Pattern.subterms]

/-- Where the whole text has been read, the names in use are those of the pattern. -/
theorem Input.groupNames_finish {p : OpenPattern} {names : List String}
    (h : (heldNames [] p).Perm names) : p.finish.groupNames.Perm names := by
  rw [heldNames, List.flatMap_nil, List.append_nil] at h
  rw [Pattern.groupNames_eq]
  exact (p.subterms_finish_perm.filterMap _).trans h

/-- No pattern that was read is a single branch without terms. -/
theorem Pattern.parse_ne {text : Input} {p : Pattern} (hp : parse text = .ok p) : p ≠ [[]] := by
  have trivially : Input.Invariant fun _ _ _ _ => True := by constructor <;> intros <;> trivial
  obtain ⟨q, _, _, rfl⟩ := trivially.reaches trivial (parse_eq_ok hp)
  exact q.finish_ne

/-- No two groups of a pattern that was read have the same name. -/
theorem Pattern.parse_names {text : Input} {p : Pattern} (hp : parse text = .ok p) :
    p.groupNames.Nodup := by
  have hp := parse_eq_ok hp
  obtain ⟨q, names, ⟨hn, hd⟩, rfl⟩ :=
    Input.heldNames_invariant.reaches Input.heldNames_start hp
  exact (Input.groupNames_finish hn).nodup_iff.2 hd

end Retrace
