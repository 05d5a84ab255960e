import Retrace.Syntax.Bracket
import Retrace.Syntax.Repetition

/-!
# Reading one element

The next element of a branch is a whole term, or the opening of a group or lookaround whose body
follows. The names of the groups opened so far are kept, since none may be used twice.

Results:

* `element_shorter`: an element uses up part of the input.
-/

namespace Retrace

/-- The opening of a group or of a lookaround. -/
inductive Opening where
  | group (tag : GroupTag)
  | look (dir : Direction) (negated : Bool)
deriving DecidableEq, Repr

/-- The term that an opening makes of the body behind it. -/
def Opening.close (o : Opening) (body : Pattern) : Term :=
  match o with
  | group tag => .group tag body
  | look dir negated => .look dir negated body

/-- An element of a branch: a whole term, or an opening together with the group names used up to
    there. -/
inductive Element where
  | term (t : Term)
  | opening (o : Opening) (names : List String)

namespace Input

/-- The escape outside of brackets whose backslash stands at `start`, and which `s` follows. -/
def termEscape (start s : Input) : Reading (Term × Input) :=
  match classEscape? start s with
  | .error e => .error e
  | .ok (some (e, rest)) => .ok (.char (.escape e), rest)
  | .ok none =>
    match s.peek 2 with
    | ['k', '<'] =>
      (groupName (s.drop 2)).map fun (name, rest) => (.backreference (.name name), rest)
    | _ =>
      if s.peek?.any fun c => '1' ≤ c && c ≤ '9' then
        (decimalFrom s 0 s).map fun (n, rest) => (.backreference (.number n), rest)
      else (charEscape start s).map fun (cp, rest) => (.char (.literal cp), rest)

/-- The opening behind a parenthesis that begins no lookaround, given the group names in use. -/
def groupOpening (names : List String) (s : Input) : Reading (Element × Input) :=
  match after? '?' s with
  | none => .ok (.opening (.group ⟨some 0, none⟩) names, s)
  | some s =>
    match after? ':' s with
    | some s => .ok (.opening (.group ⟨none, none⟩) names, s)
    | none =>
      match after? '<' s with
      | none => .error ⟨.invalidGroup, s⟩
      | some s =>
        match groupName s with
        | .error e => .error e
        | .ok (name, rest) =>
          if name ∈ names then .error ⟨.duplicateGroupName name, s⟩
          else .ok (.opening (.group ⟨some 0, some name⟩) (name :: names), rest)

/-- Whether a quantifier in braces begins behind the brace, which a number that is too large to be
    read counts as. -/
def quantifierAhead (s : Input) : Bool :=
  match braceBounds? s with
  | .ok none => false
  | _ => true

/-- The next element of a branch, given the group names in use. -/
def element (names : List String) (s : Input) : Reading (Element × Input) :=
  match s with
  | [] => .error ⟨.nothingToRepeat, s⟩
  | cp :: rest =>
    match peek 4 s with
    | '^' :: _ => .ok (.term (.anchor .start), rest)
    | '$' :: _ => .ok (.term (.anchor .finish), rest)
    | '\\' :: 'b' :: _ => .ok (.term (.anchor (.wordBoundary false)), rest.drop 1)
    | '\\' :: 'B' :: _ => .ok (.term (.anchor (.wordBoundary true)), rest.drop 1)
    | '(' :: '?' :: '=' :: _ => .ok (.opening (.look .forward false) names, rest.drop 2)
    | '(' :: '?' :: '!' :: _ => .ok (.opening (.look .forward true) names, rest.drop 2)
    | '(' :: '?' :: '<' :: '=' :: _ => .ok (.opening (.look .backward false) names, rest.drop 3)
    | '(' :: '?' :: '<' :: '!' :: _ => .ok (.opening (.look .backward true) names, rest.drop 3)
    | '(' :: _ => groupOpening names rest
    | '.' :: _ => .ok (.term (.char .any), rest)
    | '[' :: _ => (bracketClass s rest).map fun (e, rest) => (.term (.char e), rest)
    | '\\' :: _ => (termEscape s rest).map fun (t, rest) => (.term t, rest)
    | '*' :: _ | '+' :: _ | '?' :: _ => .error ⟨.nothingToRepeat, s⟩
    | '{' :: _ =>
      if quantifierAhead rest then .error ⟨.nothingToRepeat, s⟩
      else .ok (.term (.char (.literal cp)), rest)
    | _ => .ok (.term (.char (.literal cp)), rest)

/-! ## What remains -/

theorem termEscape_suffix {start s r : Input} {t : Term} (h : termEscape start s = .ok (t, r)) :
    r <:+ s := by
  unfold termEscape at h
  split at h
  · cases h
  · cases h
    rename_i he
    exact (classEscape?_shorter he).1
  · split at h
    · obtain ⟨x, hg, hx⟩ := Reading.of_map_eq_ok h
      cases hx
      exact (groupName_shorter hg).1.trans (List.drop_suffix 2 s)
    · split at h
      · obtain ⟨x, hd, hx⟩ := Reading.of_map_eq_ok h
        cases hx
        exact decimalFrom_suffix hd
      · obtain ⟨x, hc, hx⟩ := Reading.of_map_eq_ok h
        cases hx
        exact (charEscape_shorter hc).1

theorem groupOpening_suffix {names : List String} {s r : Input} {e : Element}
    (h : groupOpening names s = .ok (e, r)) : r <:+ s := by
  unfold groupOpening at h
  split at h
  · cases h
    exact List.suffix_refl _
  case h_2 s₁ h₁ =>
    have h₁ := (after?_eq_some h₁).1
    split at h
    case h_1 s₂ h₂ =>
      cases h
      exact (after?_eq_some h₂).1.trans h₁
    case h_2 =>
      split at h
      · cases h
      case h_2 s₂ h₂ =>
        split at h
        · cases h
        case h_2 name rest hg =>
          split at h
          · cases h
          · cases h
            exact ((groupName_shorter hg).1.trans (after?_eq_some h₂).1).trans h₁

/-- An element uses up part of the input. -/
theorem element_shorter {names : List String} {s r : Input} {e : Element}
    (h : element names s = .ok (e, r)) : Shorter r s := by
  unfold element at h
  split at h
  · cases h
  case h_2 cp rest =>
    refine .of_suffix ?_ (shorter_cons cp rest)
    split at h
    case h_9 => exact groupOpening_suffix h
    case h_11 =>
      obtain ⟨x, hb, hx⟩ := Reading.of_map_eq_ok h
      cases hx
      exact (bracketClass_shorter hb).1
    case h_12 =>
      obtain ⟨x, ht, hx⟩ := Reading.of_map_eq_ok h
      cases hx
      exact termEscape_suffix ht
    case h_16 =>
      split at h
      · cases h
      · cases h
        exact List.suffix_refl _
    case h_13 | h_14 | h_15 => cases h
    case h_1 | h_2 | h_10 | h_17 =>
      cases h
      exact List.suffix_refl _
    all_goals
      cases h
      exact List.drop_suffix _ _

end Input

end Retrace
