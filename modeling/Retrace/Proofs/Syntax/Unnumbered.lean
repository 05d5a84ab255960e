import Mathlib.Logic.Basic
import Retrace.Syntax.Numbering

/-!
# Patterns whose groups are still to be numbered

A numbered pattern with its numbers taken back is the pattern that it was before, apart from the
numbers that this one may have had. What a pattern is numbered as depends on nothing else, so of
several numberings only the last one counts.

Results:

* `Pattern.unnumbered_numbered`: numbering changes nothing but the numbers.
* `Pattern.numbered_numbered`: numbering again undoes what was there before.
* `Pattern.exists_mem_of_mem_numbered`: what a term of a numbered pattern comes from.
-/

namespace Retrace

mutual

/-- The term with the tag of every group mapped. -/
def Term.mapTags (f : GroupTag → GroupTag) : Term → Term
  | .look dir negated body => .look dir negated (Pattern.mapTags f body)
  | .group tag body => .group (f tag) (Pattern.mapTags f body)
  | .repeated atom q => .repeated (Term.mapTags f atom) q
  | .char e => .char e
  | .anchor a => .anchor a
  | .backreference target => .backreference target
termination_by structural t => t

/-- The branch with the tag of every group mapped. -/
def Branch.mapTags (f : GroupTag → GroupTag) : Branch → Branch
  | [] => []
  | t :: ts => Term.mapTags f t :: Branch.mapTags f ts
termination_by structural ts => ts

/-- The pattern with the tag of every group mapped. -/
def Pattern.mapTags (f : GroupTag → GroupTag) : Pattern → Pattern
  | [] => []
  | b :: bs => Branch.mapTags f b :: Pattern.mapTags f bs
termination_by structural bs => bs

end

section Subterms

variable (f : GroupTag → GroupTag)

mutual

theorem Term.subterms_mapTags :
    (t : Term) → (t.mapTags f).subterms = t.subterms.map (Term.mapTags f)
  | .char _ | .anchor _ | .backreference _ => rfl
  | .look _ _ body => congrArg (List.cons _) (Pattern.subterms_mapTags body)
  | .group _ body => congrArg (List.cons _) (Pattern.subterms_mapTags body)
  | .repeated atom _ => congrArg (List.cons _) (Term.subterms_mapTags atom)
termination_by structural t => t

theorem Branch.subterms_mapTags :
    (b : Branch) → (b.mapTags f).subterms = b.subterms.map (Term.mapTags f)
  | [] => rfl
  | t :: b => by
    rw [Branch.mapTags, Branch.subterms, Branch.subterms, List.map_append,
      Term.subterms_mapTags t, Branch.subterms_mapTags b]
termination_by structural b => b

/-- The terms at any depth are mapped one by one. -/
theorem Pattern.subterms_mapTags :
    (p : Pattern) → (p.mapTags f).subterms = p.subterms.map (Term.mapTags f)
  | [] => rfl
  | b :: p => by
    rw [Pattern.mapTags, Pattern.subterms, Pattern.subterms, List.map_append,
      Branch.subterms_mapTags b, Pattern.subterms_mapTags p]
termination_by structural p => p

end

end Subterms

/-! ## Numbering after taking numbers back -/

/-- The tag of a group that is still to be numbered, if it captures. -/
def GroupTag.unnumbered (tag : GroupTag) : GroupTag :=
  { tag with number := tag.number.map fun _ => 0 }

/-- The pattern with all of its capturing groups still to be numbered. -/
def Pattern.unnumbered (p : Pattern) : Pattern := p.mapTags GroupTag.unnumbered

theorem GroupTag.unnumbered_numbered (tag : GroupTag) (next : Nat) :
    (tag.numbered next).1.unnumbered = tag.unnumbered := by
  obtain ⟨number, name⟩ := tag
  cases number <;> rfl

theorem GroupTag.numbered_unnumbered (tag : GroupTag) (next : Nat) :
    tag.unnumbered.numbered next = tag.numbered next := by
  obtain ⟨number, name⟩ := tag
  cases number <;> rfl

mutual

theorem Term.unnumbered_numbered : (t : Term) → (next : Nat) →
    (t.numbered next).1.mapTags GroupTag.unnumbered = t.mapTags GroupTag.unnumbered
  | .char _, _ | .anchor _, _ | .backreference _, _ => rfl
  | .look dir negated body, next =>
    congrArg (Term.look dir negated) (Pattern.unnumbered_numbered body next)
  | .group tag body, next =>
    congrArg₂ Term.group (tag.unnumbered_numbered next)
      (Pattern.unnumbered_numbered body (tag.numbered next).2)
  | .repeated atom q, next =>
    congrArg (Term.repeated · q) (Term.unnumbered_numbered atom next)
termination_by structural t => t

theorem Branch.unnumbered_numbered : (b : Branch) → (next : Nat) →
    (b.numbered next).1.mapTags GroupTag.unnumbered = b.mapTags GroupTag.unnumbered
  | [], _ => rfl
  | t :: b, next =>
    congrArg₂ List.cons (Term.unnumbered_numbered t next)
      (Branch.unnumbered_numbered b (t.numbered next).2)
termination_by structural b => b

/-- Numbering changes nothing but the numbers of capturing groups. -/
theorem Pattern.unnumbered_numbered : (p : Pattern) → (next : Nat) →
    (p.numbered next).1.unnumbered = p.unnumbered
  | [], _ => rfl
  | b :: p, next =>
    congrArg₂ List.cons (Branch.unnumbered_numbered b next)
      (Pattern.unnumbered_numbered p (b.numbered next).2)
termination_by structural p => p

end

mutual

theorem Term.numbered_unnumbered : (t : Term) → (next : Nat) →
    (t.mapTags GroupTag.unnumbered).numbered next = t.numbered next
  | .char _, _ | .anchor _, _ | .backreference _, _ => rfl
  | .look dir negated body, next => by
    have hbody := Pattern.numbered_unnumbered body next
    rw [Pattern.unnumbered] at hbody
    rw [Term.mapTags, Term.numbered, hbody]
    rfl
  | .group tag body, next => by
    have hbody := Pattern.numbered_unnumbered body (tag.numbered next).2
    rw [Pattern.unnumbered] at hbody
    rw [Term.mapTags, Term.numbered, tag.numbered_unnumbered]
    dsimp only
    rw [hbody]
    rfl
  | .repeated atom q, next => by
    rw [Term.mapTags, Term.numbered, Term.numbered_unnumbered atom next]
    rfl
termination_by structural t => t

theorem Branch.numbered_unnumbered : (b : Branch) → (next : Nat) →
    (b.mapTags GroupTag.unnumbered).numbered next = b.numbered next
  | [], _ => rfl
  | t :: b, next => by
    rw [Branch.mapTags, Branch.numbered, Term.numbered_unnumbered t next]
    dsimp only
    rw [Branch.numbered_unnumbered b]
    rfl
termination_by structural b => b

/-- The numbers that a pattern had do not matter to the ones that it gets. -/
theorem Pattern.numbered_unnumbered : (p : Pattern) → (next : Nat) →
    p.unnumbered.numbered next = p.numbered next
  | [], _ => rfl
  | b :: p, next => by
    rw [Pattern.unnumbered, Pattern.mapTags, Pattern.numbered, Branch.numbered_unnumbered b next]
    dsimp only
    rw [← Pattern.unnumbered, Pattern.numbered_unnumbered p]
    rfl
termination_by structural p => p

end

/-- Every term of a numbered pattern was a term of the pattern, perhaps with other numbers. -/
theorem Pattern.exists_mem_of_mem_numbered {p : Pattern} {next : Nat} {t : Term}
    (ht : t ∈ (p.numbered next).1.subterms) :
    ∃ u ∈ p.subterms, u.mapTags GroupTag.unnumbered = t.mapTags GroupTag.unnumbered := by
  have hterms := congrArg subterms (p.unnumbered_numbered next)
  rw [unnumbered, unnumbered, subterms_mapTags, subterms_mapTags] at hterms
  have hmem := List.mem_map_of_mem ht (f := Term.mapTags GroupTag.unnumbered)
  rw [hterms] at hmem
  exact List.mem_map.mp hmem

/-- A pattern that is numbered again is numbered as if for the first time. -/
theorem Pattern.numbered_numbered (p : Pattern) (next next' : Nat) :
    (p.numbered next).1.numbered next' = p.numbered next' := by
  rw [← numbered_unnumbered, unnumbered_numbered, numbered_unnumbered]

end Retrace
