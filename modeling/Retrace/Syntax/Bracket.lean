import Retrace.Syntax.Escape

/-!
# Reading bracket classes

A bracket class lists literals, ranges and class escapes up to `]`. A hyphen makes a range of the
two literals beside it, unless it stands right before the closing bracket or ends the text.

Results:

* `bracketMember_shorter`, `bracketMembers_shorter`: each uses up part of the input.
-/

namespace Retrace

namespace Input

/-- One literal or class escape of a bracket class. -/
def bracketAtom (s : Input) : Reading (ClassMember × Input) :=
  match s with
  | [] => .error ⟨.unterminatedClass, s⟩
  | cp :: rest =>
    if cp.toChar = '\\' then
      match classEscape? s rest with
      | .error e => .error e
      | .ok (some (e, rest)) => .ok (.escape e, rest)
      | .ok none =>
        match after? 'b' rest with
        | some rest => .ok (.literal 0x08, rest)
        | none => (charEscape s rest).map fun (cp, rest) => (.literal cp, rest)
    else .ok (.literal cp, rest)

/-- Whether the input goes on with a hyphen that makes a range. -/
def rangeAhead (s : Input) : Bool :=
  match s.peek 2 with
  | ['-', c] => c ≠ ']'
  | _ => false

/-- One member of a bracket class: a literal, a range or a class escape. -/
def bracketMember (s : Input) : Reading (ClassMember × Input) := do
  let (lo, rest) ← bracketAtom s
  if rangeAhead rest then
    let (hi, rest) ← bracketAtom (rest.drop 1)
    match lo, hi with
    | .literal lo, .literal hi =>
      if hi < lo then throw ⟨.rangeOutOfOrder, s⟩ else return (.range lo hi, rest)
    | _, _ => throw ⟨.invalidClassRange, s⟩
  else return (lo, rest)

theorem bracketAtom_shorter {s r : Input} {m : ClassMember} (h : bracketAtom s = .ok (m, r)) :
    Shorter r s := by
  unfold bracketAtom at h
  split at h
  · cases h
  case h_2 cp rest =>
    split at h
    · split at h
      · cases h
      · cases h
        rename_i he
        exact (classEscape?_shorter he).trans (shorter_cons _ _)
      · split at h
        · cases h
          rename_i hr
          exact (after?_eq_some hr).trans (shorter_cons _ _)
        · obtain ⟨x, hc, hx⟩ := Reading.of_map_eq_ok h
          cases hx
          exact (charEscape_shorter hc).trans (shorter_cons _ _)
    · cases h
      exact shorter_cons _ _

/-- A member of a bracket class uses up part of the input. -/
theorem bracketMember_shorter {s r : Input} {m : ClassMember}
    (h : bracketMember s = .ok (m, r)) : Shorter r s := by
  simp only [bracketMember, bind, Except.bind, pure, Except.pure] at h
  split at h
  · cases h
  case h_2 x hx =>
    have h₁ := bracketAtom_shorter hx
    split at h
    · split at h
      · cases h
      case h_2 y hy =>
        have h₂ := (bracketAtom_shorter hy).trans_suffix
          ((List.drop_suffix 1 x.2).trans h₁.1)
        split at h
        · split at h
          · cases h
          · cases h
            exact h₂
        · cases h
    · cases h
      exact h₁

/-- The members of a bracket class up to its closing bracket. The opening bracket stands at
    `start`. -/
def bracketMembers (start s : Input) : Reading (List ClassMember × Input) :=
  match s with
  | [] => .error ⟨.unterminatedClass, start⟩
  | cp :: rest =>
    if cp.toChar = ']' then .ok ([], rest)
    else
      match _hm : bracketMember (cp :: rest) with
      | .error e => .error e
      | .ok (m, rest) =>
        match bracketMembers start rest with
        | .error e => .error e
        | .ok (ms, rest) => .ok (m :: ms, rest)
termination_by s.length
decreasing_by exact (bracketMember_shorter _hm).2

/-- The members of a bracket class use up at least the closing bracket. -/
theorem bracketMembers_shorter {start s r : Input} {ms : List ClassMember}
    (h : bracketMembers start s = .ok (ms, r)) : Shorter r s := by
  fun_induction bracketMembers start s generalizing ms r with
  | case1 => cases h
  | case2 =>
    cases h
    exact shorter_cons _ _
  | case3 => cases h
  | case4 => cases h
  | case5 cp rest _ m rest₁ hm ms₁ rest₂ hms ih =>
    cases h
    exact (ih hms).trans (bracketMember_shorter hm)

/-- The bracket class whose opening bracket has been read from `start`. -/
def bracketClass (start s : Input) : Reading (CharExpr × Input) :=
  match after? '^' s with
  | some s => (bracketMembers start s).map fun (ms, rest) => (.bracket true ms, rest)
  | none => (bracketMembers start s).map fun (ms, rest) => (.bracket false ms, rest)

theorem bracketClass_shorter {start s r : Input} {e : CharExpr}
    (h : bracketClass start s = .ok (e, r)) : Shorter r s := by
  have members {negated : Bool} {s : Input}
      (h : ((bracketMembers start s).map fun (ms, rest) => (CharExpr.bracket negated ms, rest)) =
        .ok (e, r)) : Shorter r s := by
    obtain ⟨x, hm, hx⟩ := Reading.of_map_eq_ok h
    cases hx
    exact bracketMembers_shorter hm
  unfold bracketClass at h
  split at h
  · rename_i hs
    exact (members h).trans (after?_eq_some hs)
  · exact members h

end Input

end Retrace
