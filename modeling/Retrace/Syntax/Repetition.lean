import Retrace.Numeral
import Retrace.Syntax.Error
import Retrace.Syntax.Term

/-!
# Reading quantifiers

A quantifier is `*`, `+`, `?` or a number of repetitions in braces, with a further `?` if fewer
repetitions are preferred. A brace that does not begin a quantifier is not an error here, unless a
number behind it is too large: it reads as a literal.

Results:

* `decimal?_suffix`, `quantifier?_shorter`: what remains is a suffix of the input, and a quantifier
  uses up part of it.
-/

namespace Retrace

namespace Input

/-- Numbers in a pattern are below this bound, that is, they fit into 32 bits. -/
def numberBound : Nat := 4294967296

/-- The number whose digits begin with those of `value` and go on with the digits at the beginning
    of the input. A number that reaches the bound is an error at `start`, its first digit. -/
def decimalFrom (start : Input) (value : Nat) : Input → Reading (Nat × Input)
  | [] => .ok (value, [])
  | cp :: s =>
    match Numeral.digit? 10 cp.toChar with
    | none => .ok (value, cp :: s)
    | some d =>
      if 10 * value + d < numberBound then decimalFrom start (10 * value + d) s
      else .error ⟨.numberTooLarge, start⟩

/-- The decimal number at the beginning of the input, if there is a digit. -/
def decimal? (s : Input) : Reading (Option (Nat × Input)) :=
  match s.peek?.bind (Numeral.digit? 10) with
  | some _ => (decimalFrom s 0 s).map some
  | none => .ok none

/-- The bounds behind an opening brace: `n}`, `n,}` or `n,m}`. -/
def braceBounds? (s : Input) : Reading (Option ((Nat × Option Nat) × Input)) := do
  let some (min, s) ← decimal? s | return none
  if let some r := s.after? '}' then
    return some ((min, some min), r)
  let some s := s.after? ',' | return none
  if let some r := s.after? '}' then
    return some ((min, none), r)
  let some (max, s) ← decimal? s | return none
  return (s.after? '}').map fun r => ((min, some max), r)

/-- The bounds of the quantifier at the beginning of the input, if there is one. -/
def bounds? : Input → Reading (Option ((Nat × Option Nat) × Input))
  | [] => .ok none
  | cp :: s =>
    match cp.toChar with
    | '*' => .ok (some ((0, none), s))
    | '+' => .ok (some ((1, none), s))
    | '?' => .ok (some ((0, some 1), s))
    | '{' => braceBounds? s
    | _ => .ok none

/-- The quantifier at the beginning of the input, if there is one. -/
def quantifier? (s : Input) : Reading (Option (Quantifier × Input)) := do
  let some ((min, max), r) ← bounds? s | return none
  if max.any (· < min) then throw ⟨.quantifierOutOfOrder, s⟩
  else match r.after? '?' with
    | some r => return some (⟨min, max, true⟩, r)
    | none => return some (⟨min, max, false⟩, r)

/-- The term just read together with the quantifier behind it, if there is one. Assertions take no
    quantifier. -/
def repeated (t : Term) (s : Input) : Reading (Term × Input) := do
  let some (q, r) ← quantifier? s | return (t, s)
  if t.isAssertion then throw ⟨.nothingToRepeat, s⟩
  else return (.repeated t q, r)

/-! ## What remains -/

theorem decimalFrom_suffix {start : Input} {value n : Nat} {s r : Input}
    (h : decimalFrom start value s = .ok (n, r)) : r <:+ s := by
  induction s generalizing value with
  | nil => simp_all [decimalFrom]
  | cons cp s ih =>
    unfold decimalFrom at h
    split at h
    · cases h
      exact List.suffix_refl _
    · split at h
      · exact (ih h).trans (List.suffix_cons cp s)
      · cases h

theorem decimal?_suffix {n : Nat} {s r : Input} (h : decimal? s = .ok (some (n, r))) : r <:+ s := by
  unfold decimal? at h
  split at h
  · obtain ⟨x, hd, hx⟩ := Reading.of_map_eq_ok h
    cases hx
    exact decimalFrom_suffix hd
  · cases h

theorem braceBounds?_suffix {b : Nat × Option Nat} {s r : Input}
    (h : braceBounds? s = .ok (some (b, r))) : r <:+ s := by
  simp only [braceBounds?, bind, Except.bind, pure, Except.pure] at h
  split at h
  · cases h
  case h_2 first hd =>
    split at h
    case h_2 => cases h
    case h_1 min s₁ =>
      have h₁ := decimal?_suffix hd
      split at h
      case h_1 r₁ hr =>
        cases h
        exact (after?_eq_some hr).1.trans h₁
      case h_2 =>
        split at h
        case h_2 => cases h
        case h_1 s₂ hs₂ =>
          have h₂ := (after?_eq_some hs₂).1.trans h₁
          split at h
          case h_1 r₁ hr =>
            cases h
            exact (after?_eq_some hr).1.trans h₂
          case h_2 =>
            split at h
            · cases h
            case h_2 second hd₂ =>
              split at h
              case h_2 => cases h
              case h_1 max s₃ =>
                simp only [Except.ok.injEq, Option.map_eq_some_iff] at h
                obtain ⟨a, ha, hab⟩ := h
                cases hab
                exact ((after?_eq_some ha).1.trans (decimal?_suffix hd₂)).trans h₂

theorem bounds?_shorter {b : Nat × Option Nat} {s r : Input}
    (h : bounds? s = .ok (some (b, r))) : Shorter r s := by
  unfold bounds? at h
  split at h
  · cases h
  · split at h
    case h_4 => exact .of_suffix (braceBounds?_suffix h) (shorter_cons _ _)
    case h_5 => cases h
    all_goals
      cases h
      exact shorter_cons _ _

/-- A quantifier uses up part of the input. -/
theorem quantifier?_shorter {q : Quantifier} {s r : Input}
    (h : quantifier? s = .ok (some (q, r))) : Shorter r s := by
  simp only [quantifier?, bind, Except.bind, pure, Except.pure] at h
  split at h
  · cases h
  case h_2 b hb =>
    split at h
    case h_2 => cases h
    case h_1 min max s₁ =>
      have h₁ := bounds?_shorter hb
      split at h
      · cases h
      · split at h
        case h_1 r₁ hr =>
          cases h
          exact (after?_eq_some hr).trans h₁
        case h_2 =>
          cases h
          exact h₁

theorem repeated_suffix {t u : Term} {s r : Input} (h : repeated t s = .ok (u, r)) : r <:+ s := by
  simp only [repeated, bind, Except.bind, pure, Except.pure] at h
  split at h
  · cases h
  case h_2 q hq =>
    split at h
    case h_2 =>
      cases h
      exact List.suffix_refl _
    case h_1 q s₁ =>
      split at h
      · cases h
      · cases h
        exact (quantifier?_shorter hq).1

end Input

end Retrace
