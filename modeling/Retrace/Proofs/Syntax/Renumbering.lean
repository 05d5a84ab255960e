import Retrace.Proofs.Syntax.Composition
import Retrace.Proofs.Syntax.GroupKeys

/-!
# Numbers that start later

Numbering the groups of a pattern from a later number raises every number by the same amount. So
where two patterns stand one behind the other, the groups of the second one have the numbers that
they have in it alone, raised by the number of groups of the first.

Results:

* `Pattern.numbered_add`: the effect of a later first number.
* `Pattern.numbered_append`: the branches of two patterns are numbered one after the other.
-/

namespace Retrace

/-- The tag with its number raised. -/
def GroupTag.raised (k : Nat) (tag : GroupTag) : GroupTag :=
  { tag with number := tag.number.map (· + k) }

mutual

/-- The term with the numbers of its groups raised. -/
def Term.raised (k : Nat) : Term → Term
  | .look dir negated body => .look dir negated (Pattern.raised k body)
  | .group tag body => .group (tag.raised k) (Pattern.raised k body)
  | .repeated atom q => .repeated (Term.raised k atom) q
  | .char e => .char e
  | .anchor a => .anchor a
  | .backreference target => .backreference target
termination_by structural t => t

/-- The branch with the numbers of its groups raised. -/
def Branch.raised (k : Nat) : Branch → Branch
  | [] => []
  | t :: ts => Term.raised k t :: Branch.raised k ts
termination_by structural ts => ts

/-- The pattern with the numbers of its groups raised. -/
def Pattern.raised (k : Nat) : Pattern → Pattern
  | [] => []
  | b :: bs => Branch.raised k b :: Pattern.raised k bs
termination_by structural bs => bs

end

theorem GroupTag.numbered_add (tag : GroupTag) (next k : Nat) :
    tag.numbered (next + k) = ((tag.numbered next).1.raised k, (tag.numbered next).2 + k) := by
  obtain ⟨number, name⟩ := tag
  cases number with
  | none => rfl
  | some => simp [numbered, raised, Nat.add_right_comm]

mutual

theorem Term.numbered_add (k : Nat) : (t : Term) → (next : Nat) →
    t.numbered (next + k) = ((t.numbered next).1.raised k, (t.numbered next).2 + k)
  | .char _, _ | .anchor _, _ | .backreference _, _ => rfl
  | .look _ _ body, next => by
    rw [Term.numbered, Pattern.numbered_add k body next]
    rfl
  | .group tag body, next => by
    rw [Term.numbered, GroupTag.numbered_add]
    dsimp only
    rw [Pattern.numbered_add k body]
    rfl
  | .repeated atom _, next => by
    rw [Term.numbered, Term.numbered_add k atom next]
    rfl
termination_by structural t => t

theorem Branch.numbered_add (k : Nat) : (b : Branch) → (next : Nat) →
    b.numbered (next + k) = ((b.numbered next).1.raised k, (b.numbered next).2 + k)
  | [], _ => rfl
  | t :: ts, next => by
    rw [Branch.numbered, Term.numbered_add k t next]
    dsimp only
    rw [Branch.numbered_add k ts]
    rfl
termination_by structural b => b

/-- Numbering from a later number raises every number. -/
theorem Pattern.numbered_add (k : Nat) : (p : Pattern) → (next : Nat) →
    p.numbered (next + k) = ((p.numbered next).1.raised k, (p.numbered next).2 + k)
  | [], _ => rfl
  | b :: bs, next => by
    rw [Pattern.numbered, Branch.numbered_add k b next]
    dsimp only
    rw [Pattern.numbered_add k bs]
    rfl
termination_by structural p => p

end

namespace Pattern

/-- The branches of two patterns are numbered one after the other. -/
theorem numbered_append (p q : Pattern) (next : Nat) : (p ++ q).numbered next =
    ((p.numbered next).1 ++ (q.numbered (p.numbered next).2).1,
      (q.numbered (p.numbered next).2).2) := by
  induction p generalizing next with
  | nil => rfl
  | cons b bs ih =>
    rw [List.cons_append, numbered, numbered]
    dsimp only
    rw [ih]
    rfl

theorem numbered_alternatives (p : Pattern) (next : Nat) : p.alternatives.numbered next =
    ((p.numbered next).1.alternatives, (p.numbered next).2) := by
  cases p <;> rfl

theorem subterms_append (p q : Pattern) : (p ++ q).subterms = p.subterms ++ q.subterms := by
  rw [subterms_eq, subterms_eq, subterms_eq, List.flatMap_append]

theorem subterms_alternatives (p : Pattern) : p.alternatives.subterms = p.subterms := by
  cases p <;> rfl

/-- Numbering leaves the names of groups as they are. -/
theorem groupNames_numbered (p : Pattern) (next : Nat) :
    (p.numbered next).1.groupNames = p.groupNames := by
  rw [groupNames_eq, groupNames_eq]
  exact (p.numbered_numbers next).names

end Pattern

end Retrace
