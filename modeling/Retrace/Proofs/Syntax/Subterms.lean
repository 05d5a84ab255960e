import Retrace.Syntax.Numbering
import Retrace.Syntax.Parse

/-!
# Terms at any depth

The terms of a pattern at any depth, of which an open pattern holds a part: each step of reading
adds to them, and finishing an open pattern keeps them, up to their order.

Results:

* `Pattern.subterms_subset`: the terms within a term of a pattern are terms of the pattern.
* `OpenPattern.subterms_finish_perm`: what an open pattern holds is what the finished one has.
-/

namespace Retrace

theorem Branch.subterms_eq (b : Branch) : b.subterms = b.flatMap Term.subterms := by
  induction b with
  | nil => rfl
  | cons t b ih => rw [Branch.subterms, ih, List.flatMap_cons]

theorem Pattern.subterms_eq (p : Pattern) : p.subterms = p.flatMap Branch.subterms := by
  induction p with
  | nil => rfl
  | cons b p ih => rw [Pattern.subterms, ih, List.flatMap_cons]

/-- Whether a term is repeated as a whole. -/
def Term.isRepeated : Term → Bool
  | .repeated .. => true
  | _ => false

/-- Whether a term has no terms within it. -/
def Term.isLeaf : Term → Bool
  | .char _ | .anchor _ | .backreference _ => true
  | _ => false

/-- The pattern within a group or lookaround, if the term is one. -/
def Term.body? : Term → Option Pattern
  | .look _ _ body | .group _ body => some body
  | _ => none

theorem Term.body?_of_isLeaf {t : Term} (h : t.isLeaf) : t.body? = none := by
  cases t <;> first | rfl | simp [isLeaf] at h

theorem Term.subterms_of_isLeaf {t : Term} (h : t.isLeaf) : t.subterms = [t] := by
  cases t <;> first | rfl | simp [isLeaf] at h

theorem Term.isRepeated_of_isLeaf {t : Term} (h : t.isLeaf) : t.isRepeated = false := by
  cases t <;> first | rfl | simp [isLeaf] at h

theorem Term.mem_subterms_self (t : Term) : t ∈ t.subterms := by
  cases t <;> exact List.mem_cons_self

mutual

theorem Term.subterms_subset : (t : Term) → ∀ u ∈ t.subterms, u.subterms ⊆ t.subterms
  | .char _, u, hu | .anchor _, u, hu | .backreference _, u, hu => by
    rw [List.mem_singleton.1 hu]
    exact List.Subset.refl _
  | .look _ _ body, u, hu | .group _ body, u, hu => by
    rcases List.mem_cons.1 hu with rfl | hu
    · exact List.Subset.refl _
    · exact List.subset_cons_of_subset _ (Pattern.subterms_subset body u hu)
  | .repeated atom _, u, hu => by
    rcases List.mem_cons.1 hu with rfl | hu
    · exact List.Subset.refl _
    · exact List.subset_cons_of_subset _ (Term.subterms_subset atom u hu)
termination_by structural t => t

theorem Branch.subterms_subset : (b : Branch) → ∀ u ∈ b.subterms, u.subterms ⊆ b.subterms
  | [], _, hu => by cases hu
  | t :: b, u, hu => by
    rcases List.mem_append.1 hu with hu | hu
    · exact List.subset_append_of_subset_left _ (Term.subterms_subset t u hu)
    · exact List.subset_append_of_subset_right _ (Branch.subterms_subset b u hu)
termination_by structural b => b

/-- The terms within a term of a pattern are terms of the pattern. -/
theorem Pattern.subterms_subset : (p : Pattern) → ∀ u ∈ p.subterms, u.subterms ⊆ p.subterms
  | [], _, hu => by cases hu
  | b :: p, u, hu => by
    rcases List.mem_append.1 hu with hu | hu
    · exact List.subset_append_of_subset_left _ (Branch.subterms_subset b u hu)
    · exact List.subset_append_of_subset_right _ (Pattern.subterms_subset p u hu)
termination_by structural p => p

end

theorem Pattern.mem_subterms {p : Pattern} {b : Branch} {t : Term} (hb : b ∈ p) (ht : t ∈ b) :
    t ∈ p.subterms := by
  rw [subterms_eq]
  refine List.mem_flatMap.2 ⟨b, hb, ?_⟩
  rw [Branch.subterms_eq]
  exact List.mem_flatMap.2 ⟨t, ht, t.mem_subterms_self⟩

theorem Opening.subterms_close (o : Opening) (body : Pattern) :
    (o.close body).subterms = o.close body :: body.subterms := by
  cases o <;> rfl

theorem Opening.isRepeated_close (o : Opening) (body : Pattern) :
    (o.close body).isRepeated = false := by
  cases o <;> rfl

namespace OpenPattern

/-- Every term that has been read of an open pattern, at any depth. -/
def subterms (p : OpenPattern) : List Term := Branch.subterms p.terms ++ Pattern.subterms p.branches

theorem subterms_addTerm (p : OpenPattern) (t : Term) :
    (p.addTerm t).subterms = t.subterms ++ p.subterms := by
  simp [subterms, addTerm, Branch.subterms]

theorem subterms_nextBranch_perm (p : OpenPattern) : p.nextBranch.subterms.Perm p.subterms := by
  have h : (Branch.subterms p.terms.reverse).Perm (Branch.subterms p.terms) := by
    simp only [Branch.subterms_eq]
    exact (List.reverse_perm p.terms).flatMap_right _
  simpa [subterms, nextBranch, Branch.subterms, Pattern.subterms] using h.append_right _

theorem subterms_finish_perm (p : OpenPattern) : p.finish.subterms.Perm p.subterms := by
  refine .trans ?_ p.subterms_nextBranch_perm
  unfold finish
  split
  case isTrue h =>
    have h : p.branches = [] ∧ p.terms = [] := by simpa using h
    simp [subterms, nextBranch, h, Branch.subterms, Pattern.subterms]
  case isFalse =>
    simp only [subterms, nextBranch, Branch.subterms, Pattern.subterms_eq, List.nil_append]
    exact (List.reverse_perm _).flatMap_right _

/-- The text of a pattern never gives a single branch without terms. -/
theorem finish_ne (p : OpenPattern) : p.finish ≠ [[]] := by
  unfold finish
  split
  · simp
  case isFalse h =>
    intro he
    have he : p.branches = [] ∧ p.terms = [] := by
      simpa [List.append_eq_singleton_iff] using he
    simp [he] at h

end OpenPattern

end Retrace
