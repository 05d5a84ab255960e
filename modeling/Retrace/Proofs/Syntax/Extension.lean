import Retrace.Proofs.Syntax.Invariant

/-!
# Extending what has been read

Reading only ever adds to what has been read: the pattern that is returned extends the open pattern
and, around it, the open groups. Two patterns read differently at one place cannot both be extended
to one pattern, so a term once read wrongly is never put right.

Results:

* `Input.extends_of_patternFrom`: a pattern that is returned extends the state it was read from.
* `Extends.eq_of_addTerm`: what is extended determines the term that was added last.
-/

namespace Retrace

namespace OpenPattern

variable {p : OpenPattern} {body : Pattern} {t u : Term}

/-! ## Reading to the end of a body -/

/-- The open pattern after more terms. -/
def addTerms (p : OpenPattern) (b : Branch) : OpenPattern :=
  { p with terms := b.reverse ++ p.terms }

/-- The open pattern after more branches, each behind a bar. -/
def addBranches (p : OpenPattern) : Pattern → OpenPattern
  | [] => p
  | b :: bs => (p.nextBranch.addTerms b).addBranches bs

/-- The open pattern that holds all of a pattern. -/
def ofPattern : Pattern → OpenPattern
  | [] => {}
  | b :: bs => (addTerms {} b).addBranches bs

theorem addTerms_cons (p : OpenPattern) (t : Term) (b : Branch) :
    p.addTerms (t :: b) = (p.addTerm t).addTerms b := by
  simp [addTerms, addTerm]

/-- The branches read so far, the open one included. -/
def allBranches (p : OpenPattern) : Pattern := (p.terms.reverse :: p.branches).reverse

theorem finish_eq_allBranches (h : p.branches ≠ []) : p.finish = p.allBranches := by
  refine if_neg ?_
  simp [h]

theorem allBranches_addBranches (p : OpenPattern) (bs : Pattern) :
    (p.addBranches bs).allBranches = p.allBranches ++ bs := by
  induction bs generalizing p with
  | nil => simp [addBranches]
  | cons b bs ih =>
    rw [addBranches, ih]
    simp [allBranches, nextBranch, addTerms]

theorem finish_ofPattern (h : body ≠ [[]]) : (ofPattern body).finish = body := by
  rcases body with _ | ⟨b, bs⟩
  · rfl
  · have hall : (ofPattern (b :: bs)).allBranches = b :: bs := by
      rw [ofPattern, allBranches_addBranches]
      simp [allBranches, addTerms]
    unfold finish
    split
    case isTrue he =>
      have he : (ofPattern (b :: bs)).branches = [] ∧ (ofPattern (b :: bs)).terms = [] := by
        simpa using he
      refine absurd ?_ h
      rw [← hall]
      simp [allBranches, he]
    case isFalse => exact hall

/-! ## What a body can still become -/

/-- Whether a pattern begins with what has been read of the open one. -/
def Begins (p : OpenPattern) (body : Pattern) : Prop :=
  (p.branches = [] ∧ p.terms = []) ∨
    ∃ ts bs, body = p.branches.reverse ++ (p.terms.reverse ++ ts) :: bs

theorem begins_finish (p : OpenPattern) : p.Begins p.finish := by
  unfold finish
  split
  case isTrue h => exact .inl (by simpa using h)
  case isFalse => exact .inr ⟨[], [], by simp⟩

theorem Begins.of_nextBranch (h : p.nextBranch.Begins body) : p.Begins body := by
  rcases h with h | ⟨ts, bs, h⟩
  · simp [nextBranch] at h
  · exact .inr ⟨[], ts :: bs, by simpa [nextBranch] using h⟩

theorem Begins.of_addTerm (h : (p.addTerm t).Begins body) : p.Begins body := by
  rcases h with h | ⟨ts, bs, h⟩
  · simp [addTerm] at h
  · exact .inr ⟨t :: ts, bs, by simpa [addTerm] using h⟩

theorem Begins.of_addTerms {b : Branch} (h : (p.addTerms b).Begins body) : p.Begins body := by
  induction b generalizing p with
  | nil => exact h
  | cons t b ih =>
    rw [addTerms_cons] at h
    exact (ih h).of_addTerm

theorem Begins.of_addBranches {bs : Pattern} (h : (p.addBranches bs).Begins body) :
    p.Begins body := by
  induction bs generalizing p with
  | nil => exact h
  | cons b bs ih => exact (ih h).of_addTerms.of_nextBranch

theorem Begins.eq_of_addTerm (ht : (p.addTerm t).Begins body) (hu : (p.addTerm u).Begins body) :
    t = u := by
  rcases ht with h | ⟨ts, bs, ht⟩
  · simp [addTerm] at h
  · rcases hu with h | ⟨us, cs, hu⟩
    · simp [addTerm] at h
    · rw [ht] at hu
      simp only [addTerm, List.reverse_cons, List.append_assoc, List.singleton_append,
        List.append_cancel_left_eq, List.cons.injEq] at hu
      exact hu.1.1

end OpenPattern

/-! ## What a reading can still become -/

/-- The term that is repeated, or the term itself. -/
def Term.core : Term → Term
  | .repeated atom _ => atom
  | t => t

theorem Opening.close_injective {o : Opening} {a b : Pattern} (h : o.close a = o.close b) :
    a = b := by
  cases o <;> cases h <;> rfl

/-- Whether a pattern extends what has been read within the open groups: each group closes, with or
    without a quantifier, over a body that begins with what has been read of it. -/
def Extends : List OpenGroup → OpenPattern → Pattern → Prop
  | [], p, q => p.Begins q
  | g :: stack, p, q =>
    ∃ body t, p.Begins body ∧ t.core = g.opening.close body ∧ Extends stack (g.around.addTerm t) q

namespace Extends

variable {stack : List OpenGroup} {p p' : OpenPattern} {q : Pattern} {t u : Term}

theorem mono (h : Extends stack p q) (hb : ∀ body, p.Begins body → p'.Begins body) :
    Extends stack p' q := by
  rcases stack with _ | ⟨g, stack⟩
  · exact hb q h
  · obtain ⟨body, t, hp, ht⟩ := h
    exact ⟨body, t, hb body hp, ht⟩

theorem of_addTerm (h : Extends stack (p.addTerm t) q) : Extends stack p q :=
  h.mono fun _ hb => hb.of_addTerm

/-- What is extended determines the term that was added last. -/
theorem eq_of_addTerm (ht : Extends stack (p.addTerm t) q) (hu : Extends stack (p.addTerm u) q) :
    t = u := by
  -- From the outermost group inwards: equal terms around a body have equal bodies.
  induction stack generalizing p t u with
  | nil => exact ht.eq_of_addTerm hu
  | cons g stack ih =>
    obtain ⟨body, t', hbody, ht', ht⟩ := ht
    obtain ⟨body', u', hbody', hu', hu⟩ := hu
    have he : t' = u' := ih ht hu
    rw [he, hu'] at ht'
    have hb : body' = body := Opening.close_injective ht'
    rw [hb] at hbody'
    exact hbody.eq_of_addTerm hbody'

end Extends

namespace Input

theorem core_repeated {t u : Term} {s r : Input} (ht : t.isRepeated = false)
    (h : repeated t s = .ok (u, r)) : u.core = t := by
  rcases repeated_eq_ok h with ⟨_, rfl, _⟩ | ⟨q, _, _, rfl⟩
  · cases u with
    | repeated => cases ht
    | _ => rfl
  · rfl

/-- A pattern that is returned extends the state that it was read from. -/
theorem extends_of_patternFrom {stack : List OpenGroup} {p : OpenPattern} {names : List String}
    {s : Input} {q : Pattern} (h : patternFrom stack p names s = .ok q) : Extends stack p q := by
  fun_induction patternFrom stack p names s with
  | case1 p names =>
    cases h
    exact p.begins_finish
  | case3 stack p names cp rest hc ih => exact (ih h).mono fun _ hb => hb.of_nextBranch
  | case6 p names cp rest _ _ g outer t r hr ih =>
    have hcore := core_repeated (Opening.isRepeated_close _ _) hr
    exact ⟨p.finish, t, p.begins_finish, hcore, ih h⟩
  | case8 stack p names cp rest _ _ o names' r he ih =>
    obtain ⟨body, t, _, _, ht⟩ := ih h
    exact ht.of_addTerm
  | case10 stack p names cp rest _ _ t r he u r' hr ih => exact (ih h).of_addTerm
  | case2 | case4 | case5 | case7 | case9 => cases h

end Input

end Retrace
