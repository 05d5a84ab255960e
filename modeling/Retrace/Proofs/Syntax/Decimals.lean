import Retrace.Proofs.Syntax.Spelling

/-!
# The values of decimal numbers

A number in a pattern is read digit by digit, and reading stops with an error at the first digit
that makes it too large. Since more digits never make a number smaller, this is the case exactly if
the number that all its digits write is too large.

Results:

* `Input.decimal?_eq`: a number is read with the exact value of its digits, or it is too large.
* `Input.braceBounds?_error_iff`: bounds are an error exactly if one of their numbers is too large.
-/

namespace Retrace

namespace Input

/-- The digits with which the input begins. -/
def digits (s : Input) : Input := s.takeWhile fun cp => isDecimal cp.toChar

/-- The input behind the digits with which it begins. -/
def behindDigits (s : Input) : Input := s.dropWhile fun cp => isDecimal cp.toChar

/-- The number that is written by digits behind those of `value`. -/
def valueFrom (value : Nat) (ds : Input) : Nat :=
  ds.foldl (fun value cp => 10 * value + (cp.toChar.toNat - 0x30)) value

/-- The number that digits write, the most significant one first. -/
def decimalValue (ds : Input) : Nat := valueFrom 0 ds

theorem digits_append_behindDigits (s : Input) : digits s ++ behindDigits s = s :=
  List.takeWhile_append_dropWhile

theorem isDecimal_of_mem_digits {s : Input} {cp : CodePoint} (h : cp ∈ digits s) :
    isDecimal cp.toChar :=
  List.mem_takeWhile_imp (p := fun cp : CodePoint => isDecimal cp.toChar) h

theorem isDecimal_of_digits_ne {cp : CodePoint} {s : Input} (h : digits (cp :: s) ≠ []) :
    isDecimal cp.toChar :=
  Decidable.byContradiction fun hcp => h (List.takeWhile_cons_of_neg hcp)

/-- More digits never make a number smaller. -/
theorem le_valueFrom (value : Nat) (ds : Input) : value ≤ valueFrom value ds := by
  induction ds generalizing value with
  | nil => exact Nat.le_refl value
  | cons cp ds ih =>
    have hle : 10 * value + (cp.toChar.toNat - 0x30) ≤ valueFrom value (cp :: ds) := ih _
    omega

theorem decimalFrom_eq {start s : Input} {value : Nat} (hv : value < numberBound) :
    decimalFrom start value s =
      if valueFrom value (digits s) < numberBound then
        .ok (valueFrom value (digits s), behindDigits s)
      else .error ⟨.numberTooLarge, start⟩ := by
  induction s generalizing value with
  | nil => exact (if_pos hv).symm
  | cons cp s ih =>
    rw [decimalFrom, Numeral.digit?_ten]
    by_cases hcp : isDecimal cp.toChar
    · have hdigits : digits (cp :: s) = cp :: digits s := List.takeWhile_cons_of_pos hcp
      have hbehind : behindDigits (cp :: s) = behindDigits s := List.dropWhile_cons_of_pos hcp
      rw [if_pos hcp, hdigits, hbehind]
      dsimp only
      by_cases hnext : 10 * value + (cp.toChar.toNat - 0x30) < numberBound
      · rw [if_pos hnext, ih hnext]
        rfl
      · have hle : 10 * value + (cp.toChar.toNat - 0x30) ≤ valueFrom value (cp :: digits s) :=
          le_valueFrom _ _
        rw [if_neg hnext, if_neg (by omega)]
    · have hdigits : digits (cp :: s) = [] := List.takeWhile_cons_of_neg hcp
      have hbehind : behindDigits (cp :: s) = cp :: s := List.dropWhile_cons_of_neg hcp
      rw [if_neg hcp, hdigits, hbehind]
      exact (if_pos hv).symm

/-- There is a number at the beginning of an input if a digit stands there. It is read with the
    value of its digits, up to where they end, unless this value reaches the bound. -/
theorem decimal?_eq (s : Input) : decimal? s =
    if digits s = [] then .ok none
    else if decimalValue (digits s) < numberBound then
      .ok (some (decimalValue (digits s), behindDigits s))
    else .error ⟨.numberTooLarge, s⟩ := by
  have hpeek : s.peek?.bind (Numeral.digit? 10) = none ↔ digits s = [] := by
    cases s with
    | nil => exact iff_of_true rfl rfl
    | cons cp s =>
      show Numeral.digit? 10 cp.toChar = none ↔ _
      rw [Numeral.digit?_ten]
      by_cases hcp : isDecimal cp.toChar
      · have hdigits : digits (cp :: s) = cp :: digits s := List.takeWhile_cons_of_pos hcp
        simp [hcp, hdigits]
      · have hdigits : digits (cp :: s) = [] := List.takeWhile_cons_of_neg hcp
        simp [hcp, hdigits]
  unfold decimal?
  by_cases hs : digits s = []
  · rw [if_pos hs, hpeek.mpr hs]
  · obtain ⟨d, hd⟩ := Option.ne_none_iff_exists'.mp (mt hpeek.mp hs)
    rw [if_neg hs, hd, decimalValue]
    dsimp only
    rw [decimalFrom_eq (by decide)]
    split
    · rfl
    · rfl

theorem eq_of_decimal? {s r : Input} {n : Nat} (h : decimal? s = .ok (some (n, r))) :
    digits s ≠ [] ∧ decimalValue (digits s) < numberBound ∧ n = decimalValue (digits s) ∧
      r = behindDigits s := by
  rw [decimal?_eq] at h
  split at h
  case isTrue => cases h
  case isFalse hne =>
    split at h
    case isTrue hlt =>
      cases h
      exact ⟨hne, hlt, rfl, rfl⟩
    case isFalse => cases h

theorem digits_ne_of_le {s : Input} (h : numberBound ≤ decimalValue (digits s)) :
    digits s ≠ [] := by
  intro hnil
  rw [hnil] at h
  exact absurd h (by decide)

theorem decimal?_error_iff {s : Input} {f : Failure} : decimal? s = .error f ↔
    numberBound ≤ decimalValue (digits s) ∧ f = ⟨.numberTooLarge, s⟩ := by
  rw [decimal?_eq]
  constructor
  · intro h
    split at h
    case isTrue => cases h
    case isFalse =>
      split at h
      case isTrue => cases h
      case isFalse hle => exact ⟨Nat.le_of_not_lt hle, (Except.error.inj h).symm⟩
  · rintro ⟨hle, rfl⟩
    rw [if_neg (digits_ne_of_le hle), if_neg (Nat.not_lt.mpr hle)]

/-! ## Bounds in braces -/

/-- A number that is too large stands behind a brace, at a rest of the text: right behind the brace,
    or behind the comma that follows a number which is not too large. -/
inductive Overflows (s : Input) : Input → Prop where
  | first (h : numberBound ≤ decimalValue (digits s)) : Overflows s s
  | second {r : Input} (hne : digits s ≠ []) (hlt : decimalValue (digits s) < numberBound)
    (hcomma : behindDigits s = CodePoint.ofChar ',' :: r)
    (h : numberBound ≤ decimalValue (digits r)) : Overflows s r

theorem Overflows.digits_ne {s place : Input} (h : Overflows s place) : digits place ≠ [] := by
  cases h with
  | first h => exact digits_ne_of_le h
  | second _ _ _ h => exact digits_ne_of_le h

theorem Overflows.suffix {s place : Input} (h : Overflows s place) : place <:+ s := by
  cases h with
  | first => exact List.suffix_refl s
  | second hne hlt hcomma =>
    refine ⟨digits s ++ ofChars [','], ?_⟩
    rw [List.append_assoc]
    exact (congrArg (digits s ++ ·) hcomma).symm.trans (digits_append_behindDigits s)

/-- A number that is too large is an error of the bounds, whatever follows it. -/
theorem Overflows.braceBounds?_eq {s place : Input} (h : Overflows s place) :
    braceBounds? s = .error ⟨.numberTooLarge, place⟩ := by
  cases h with
  | first h =>
    have hd : decimal? s = .error ⟨.numberTooLarge, s⟩ := decimal?_error_iff.mpr ⟨h, rfl⟩
    simp only [braceBounds?, bind, Except.bind, hd]
  | second hne hlt hcomma h =>
    have hfirst : decimal? s = .ok (some (decimalValue (digits s), behindDigits s)) := by
      rw [decimal?_eq, if_neg hne, if_pos hlt]
    have hsecond : decimal? place = .error ⟨.numberTooLarge, place⟩ :=
      decimal?_error_iff.mpr ⟨h, rfl⟩
    -- a digit follows the comma, so no brace closes there
    have hclose : after? '}' place = none := by
      apply after?_eq_none
      intro hpeek
      cases place with
      | nil => cases hpeek
      | cons cp rest =>
        have hcp := isDecimal_of_digits_ne (digits_ne_of_le h)
        rw [Option.some.inj hpeek] at hcp
        exact absurd hcp (by decide)
    have hnone : after? '}' (CodePoint.ofChar ',' :: place) = none := by
      apply after?_eq_none
      rw [peek?_cons, CodePoint.toChar_ofChar]
      decide
    simp only [braceBounds?, bind, Except.bind, hfirst, hcomma, hnone, after?_ofChar, hclose,
      hsecond]

/-- Bounds in braces are an error exactly if one of their numbers is too large. -/
theorem braceBounds?_error_iff {s : Input} {f : Failure} : braceBounds? s = .error f ↔
    ∃ place, Overflows s place ∧ f = ⟨.numberTooLarge, place⟩ := by
  refine ⟨fun h => ?_, ?_⟩
  · simp only [braceBounds?, bind, Except.bind, pure, Except.pure] at h
    split at h
    case h_1 e hd =>
      cases h
      obtain ⟨hle, rfl⟩ := decimal?_error_iff.mp hd
      exact ⟨s, .first hle, rfl⟩
    case h_2 first hd =>
      split at h
      case h_2 => cases h
      case h_1 min s₁ =>
        obtain ⟨hne, hlt, -, rfl⟩ := eq_of_decimal? hd
        split at h
        · cases h
        · split at h
          case h_2 => cases h
          case h_1 s₂ hs₂ =>
            split at h
            · cases h
            · split at h
              case h_1 e hd₂ =>
                cases h
                obtain ⟨hle, rfl⟩ := decimal?_error_iff.mp hd₂
                exact ⟨s₂, .second hne hlt (eq_of_after? hs₂ (by decide)) hle, rfl⟩
              case h_2 => split at h <;> cases h
  · rintro ⟨place, hplace, rfl⟩
    exact hplace.braceBounds?_eq

end Input

end Retrace
