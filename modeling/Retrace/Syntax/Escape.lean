import Retrace.Numeral
import Retrace.Syntax.Error
import Retrace.Syntax.Term

/-!
# Reading escapes

What a backslash begins: a class such as `\d` or `\p{…}`, a group reference, or one code point given
by a letter, a control letter or a hexadecimal number. An escape that is none of these stands for
the escaped code point itself, and so does an incomplete `\x` or `\u`.

Results:

* `charEscape_shorter`, `classEscape?_shorter`, `groupName_shorter`: each uses up part of the input.
-/

namespace Retrace

namespace Input

/-! ## One code point -/

/-- The number whose digits begin with those of `value` and go on with exactly `count` hexadecimal
    digits. -/
def hexFrom? (value : Nat) : Nat → Input → Option (Nat × Input)
  | 0, s => some (value, s)
  | _ + 1, [] => none
  | count + 1, cp :: s =>
    match Numeral.digit? 16 cp.toChar with
    | some d => hexFrom? (16 * value + d) count s
    | none => none

/-- The code point given by hexadecimal digits up to a closing brace, of which the digits of `value`
    have been read. It may not lie beyond the last code point; errors are at `start`. -/
def bracedHexFrom (start : Input) (value : Option Nat) : Input → Reading (CodePoint × Input)
  | [] => .error ⟨.invalidUnicodeEscape, start⟩
  | cp :: s =>
    match Numeral.digit? 16 cp.toChar with
    | some d =>
      if CodePoint.last < 16 * value.getD 0 + d then .error ⟨.invalidUnicodeEscape, start⟩
      else bracedHexFrom start (some (16 * value.getD 0 + d)) s
    | none =>
      match value with
      | some value =>
        if cp.toChar = '}' then .ok (value, s) else .error ⟨.invalidUnicodeEscape, start⟩
      | none => .error ⟨.invalidUnicodeEscape, start⟩

/-- Whether a character is an ASCII letter. -/
def isLetter (c : Char) : Bool := ('a' ≤ c && c ≤ 'z') || ('A' ≤ c && c ≤ 'Z')

/-- Whether a character is an ASCII digit. -/
def isDecimal (c : Char) : Bool := '0' ≤ c && c ≤ '9'

/-- The code point that an escape denotes. The backslash stands at `start`, and `s` follows it. -/
def charEscape (start s : Input) : Reading (CodePoint × Input) :=
  match s with
  | [] => .error ⟨.trailingBackslash, start⟩
  | cp :: s =>
    match cp.toChar with
    | 'f' => .ok (0x0C, s)
    | 'n' => .ok (0x0A, s)
    | 'r' => .ok (0x0D, s)
    | 't' => .ok (0x09, s)
    | 'v' => .ok (0x0B, s)
    | '0' => .ok (0x00, s)
    | 'c' =>
      match s with
      | letter :: rest =>
        if isLetter letter.toChar then .ok (letter % 32, rest) else .ok (cp, letter :: rest)
      | [] => .ok (cp, [])
    | 'x' => .ok ((hexFrom? 0 2 s).getD (cp, s))
    | 'u' =>
      match after? '{' s with
      | some rest => bracedHexFrom start none rest
      | none => .ok ((hexFrom? 0 4 s).getD (cp, s))
    | _ => .ok (cp, s)

/-! ## Classes -/

/-- The name and the value in the braces of a property escape: the first equals sign divides them,
    and without one there is no name. -/
def propertyParts (text : List Char) : Option String × String :=
  match text.dropWhile (· ≠ '=') with
  | _ :: value => (some (String.ofList (text.takeWhile (· ≠ '='))), String.ofList value)
  | [] => (none, String.ofList text)

/-- The property escape whose text stands in the braces. Errors are at `start`. -/
def propertyClass (start : Input) (negated : Bool) (text : List Char) : Reading ClassEscape :=
  let (name, value) := propertyParts text
  if value = "" ∨ name = some "" then .error ⟨.invalidPropertyEscape, start⟩
  else match Unicode.Property.resolve? name value with
    | some property => .ok ⟨.property name value property, negated⟩
    | none => .error ⟨.unknownProperty (String.ofList text), start⟩

/-- The property escape whose `p` has been read. Errors are at `start`. -/
def propertyEscape (start : Input) (negated : Bool) (s : Input) : Reading (ClassEscape × Input) :=
  match s.after? '{' with
  | none => .error ⟨.invalidPropertyEscape, start⟩
  | some s =>
    match s.dropWhile fun cp => cp.toChar ≠ '}' with
    | [] => .error ⟨.invalidPropertyEscape, start⟩
    | _ :: rest =>
      match propertyClass start negated
          ((s.takeWhile fun cp => cp.toChar ≠ '}').map CodePoint.toChar) with
      | .ok e => .ok (e, rest)
      | .error e => .error e

/-- The class that an escape denotes, if it denotes one. The backslash stands at `start`, and `s`
    follows it. -/
def classEscape? (start s : Input) : Reading (Option (ClassEscape × Input)) :=
  match s with
  | [] => .ok none
  | cp :: s =>
    match cp.toChar with
    | 'd' => .ok (some (⟨.digit, false⟩, s))
    | 'D' => .ok (some (⟨.digit, true⟩, s))
    | 's' => .ok (some (⟨.space, false⟩, s))
    | 'S' => .ok (some (⟨.space, true⟩, s))
    | 'w' => .ok (some (⟨.word, false⟩, s))
    | 'W' => .ok (some (⟨.word, true⟩, s))
    | 'p' => (propertyEscape start false s).map some
    | 'P' => (propertyEscape start true s).map some
    | _ => .ok none

/-! ## Group names -/

/-- Whether a character may stand in the name of a group. -/
def isNameChar (c : Char) : Bool := isLetter c || isDecimal c || c = '_' || c = '$'

/-- The name of a group up to its closing angle bracket. A name is not empty and does not begin with
    a digit. -/
def groupName (s : Input) : Reading (String × Input) :=
  let name := (s.map CodePoint.toChar).takeWhile isNameChar
  match after? '>' (s.drop name.length) with
  | some rest =>
    if name.head?.all isDecimal then .error ⟨.invalidGroupName, s⟩
    else .ok (String.ofList name, rest)
  | none => .error ⟨.invalidGroupName, s⟩

/-! ## What remains -/

theorem hexFrom?_suffix {value n count : Nat} {s r : Input}
    (h : hexFrom? value count s = some (n, r)) : r <:+ s := by
  induction count generalizing value s with
  | zero =>
    cases h
    exact List.suffix_refl _
  | succ count ih =>
    cases s with
    | nil => cases h
    | cons cp s =>
      simp only [hexFrom?] at h
      split at h
      · exact (ih h).trans (List.suffix_cons cp s)
      · cases h

theorem bracedHexFrom_suffix {start s r : Input} {value : Option Nat} {cp : CodePoint}
    (h : bracedHexFrom start value s = .ok (cp, r)) : r <:+ s := by
  induction s generalizing value with
  | nil => cases h
  | cons c s ih =>
    unfold bracedHexFrom at h
    split at h
    · split at h
      · cases h
      · exact (ih h).trans (List.suffix_cons c s)
    · split at h
      · split at h
        · cases h
          exact List.suffix_cons c _
        · cases h
      · cases h

theorem hexFrom?_getD_suffix {n count : Nat} {s r : Input} {cp : CodePoint}
    (h : (hexFrom? 0 count s).getD (n, s) = (cp, r)) : r <:+ s := by
  cases hx : hexFrom? 0 count s with
  | none =>
    rw [hx] at h
    cases h
    exact List.suffix_refl _
  | some x =>
    rw [hx] at h
    cases h
    exact hexFrom?_suffix hx

/-- An escape of one code point uses up part of what follows the backslash. -/
theorem charEscape_shorter {start s r : Input} {cp : CodePoint}
    (h : charEscape start s = .ok (cp, r)) : Shorter r s := by
  unfold charEscape at h
  split at h
  · cases h
  · split at h
    case h_7 =>
      split at h
      · split at h
        · cases h
          exact (shorter_cons _ _).trans (shorter_cons _ _)
        · cases h
          exact shorter_cons _ _
      · cases h
        exact shorter_cons _ _
    case h_8 =>
      exact .of_suffix (hexFrom?_getD_suffix (Except.ok.inj h)) (shorter_cons _ _)
    case h_9 =>
      split at h
      case h_1 rest hr =>
        exact .of_suffix ((bracedHexFrom_suffix h).trans (after?_eq_some hr).1) (shorter_cons _ _)
      case h_2 =>
        exact .of_suffix (hexFrom?_getD_suffix (Except.ok.inj h)) (shorter_cons _ _)
    all_goals
      cases h
      exact shorter_cons _ _

theorem propertyEscape_suffix {start s r : Input} {negated : Bool} {e : ClassEscape}
    (h : propertyEscape start negated s = .ok (e, r)) : r <:+ s := by
  unfold propertyEscape at h
  split at h
  · cases h
  case h_2 s₁ hs₁ =>
    split at h
    · cases h
    case h_2 cp rest hrest =>
      split at h
      · cases h
        have : r <:+ s₁.dropWhile fun cp => cp.toChar ≠ '}' := by
          rw [hrest]
          exact List.suffix_cons _ _
        exact (this.trans (List.dropWhile_suffix _)).trans (after?_eq_some hs₁).1
      · cases h

/-- A class escape uses up part of what follows the backslash. -/
theorem classEscape?_shorter {start s r : Input} {e : ClassEscape}
    (h : classEscape? start s = .ok (some (e, r))) : Shorter r s := by
  have property {negated : Bool} {cp : CodePoint} {s : Input}
      (h : (propertyEscape start negated s).map some = .ok (some (e, r))) :
      Shorter r (cp :: s) := by
    obtain ⟨x, hp, hx⟩ := Reading.of_map_eq_ok h
    cases hx
    exact .of_suffix (propertyEscape_suffix hp) (shorter_cons _ _)
  unfold classEscape? at h
  split at h
  · cases h
  · split at h
    case h_7 => exact property h
    case h_8 => exact property h
    case h_9 => cases h
    all_goals
      cases h
      exact shorter_cons _ _

/-- A group name uses up at least its closing bracket. -/
theorem groupName_shorter {s r : Input} {name : String} (h : groupName s = .ok (name, r)) :
    Shorter r s := by
  simp only [groupName] at h
  split at h
  case h_1 rest hr =>
    split at h
    · cases h
    · cases h
      exact (after?_eq_some hr).trans_suffix (List.drop_suffix _ _)
  case h_2 => cases h

end Input

end Retrace
