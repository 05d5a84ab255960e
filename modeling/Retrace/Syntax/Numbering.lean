import Retrace.Syntax.Term

/-!
# Group numbers

Capturing groups are numbered in the order of their opening parentheses, groups within repeated
terms, other groups and lookarounds included. The order is that of `Pattern.subterms`, which lists
every term before the terms within it.
-/

namespace Retrace

/-- The tag of a group when `next` is the next free number, and the next free number after it. -/
def GroupTag.numbered (tag : GroupTag) (next : Nat) : GroupTag × Nat :=
  match tag.number with
  | some _ => ({ tag with number := some next }, next + 1)
  | none => (tag, next)

mutual

/-- The term with its capturing groups numbered from `next`, and the next free number. -/
def Term.numbered : Term → Nat → Term × Nat
  | .look dir negated body, next =>
    let (body, next) := Pattern.numbered body next
    (.look dir negated body, next)
  | .group tag body, next =>
    let (tag, next) := tag.numbered next
    let (body, next) := Pattern.numbered body next
    (.group tag body, next)
  | .repeated atom q, next =>
    let (atom, next) := Term.numbered atom next
    (.repeated atom q, next)
  | .char e, next => (.char e, next)
  | .anchor a, next => (.anchor a, next)
  | .backreference target, next => (.backreference target, next)
termination_by structural t => t

/-- The terms with their capturing groups numbered from `next`, and the next free number. -/
def Branch.numbered : Branch → Nat → Branch × Nat
  | [], next => ([], next)
  | t :: ts, next =>
    let (t, next) := Term.numbered t next
    let (ts, next) := Branch.numbered ts next
    (t :: ts, next)
termination_by structural ts => ts

/-- The pattern with its capturing groups numbered from `next`, and the next free number. -/
def Pattern.numbered : Pattern → Nat → Pattern × Nat
  | [], next => ([], next)
  | b :: bs, next =>
    let (b, next) := Branch.numbered b next
    let (bs, next) := Pattern.numbered bs next
    (b :: bs, next)
termination_by structural bs => bs

end

mutual

/-- The term and every term within it, each before its parts. -/
def Term.subterms : Term → List Term
  | .look dir negated body => .look dir negated body :: Pattern.subterms body
  | .group tag body => .group tag body :: Pattern.subterms body
  | .repeated atom q => .repeated atom q :: Term.subterms atom
  | .char e => [.char e]
  | .anchor a => [.anchor a]
  | .backreference target => [.backreference target]
termination_by structural t => t

/-- Every term of a branch, at any depth. -/
def Branch.subterms : Branch → List Term
  | [] => []
  | t :: ts => Term.subterms t ++ Branch.subterms ts
termination_by structural ts => ts

/-- Every term of a pattern, at any depth. -/
def Pattern.subterms : Pattern → List Term
  | [] => []
  | b :: bs => Branch.subterms b ++ Pattern.subterms bs
termination_by structural bs => bs

end

namespace Pattern

/-- The tags of the groups of a pattern, in the order of their opening parentheses. -/
def groupTags (p : Pattern) : List GroupTag :=
  p.subterms.filterMap fun
    | .group tag _ => some tag
    | _ => none

/-- The names of the capturing groups of a pattern, in the order of their opening parentheses. -/
def groupNames (p : Pattern) : List String := p.groupTags.filterMap GroupTag.name

/-- The targets of the backreferences of a pattern, in the order of their text. -/
def backreferences (p : Pattern) : List GroupKey :=
  p.subterms.filterMap fun
    | .backreference target => some target
    | _ => none

end Pattern

end Retrace
