/-!
# Code points

A pattern and a subject are sequences of code points. A code point here is any natural number, so
lone surrogates and values above U+10FFFF can stand in a sequence; only when a sequence becomes a
string do they read as U+FFFD.

Results:

* `toChar_ofChar`: a character survives the trip through its code point.
* `toChar_eq_iff`: apart from U+FFFD, only the code point of a character reads as that character.
-/

namespace Retrace

/-- A code point: a scalar value, a surrogate or any larger number. -/
abbrev CodePoint := Nat

/-- A sequence of code points with random access. -/
abbrev Text := Array CodePoint

namespace CodePoint

/-- The largest code point that Unicode assigns a meaning to. -/
def last : CodePoint := 0x10FFFF

/-- The code point of a character. -/
def ofChar (c : Char) : CodePoint := c.toNat

/-- The character that a code point reads as: itself for a scalar value, U+FFFD otherwise. -/
def toChar (cp : CodePoint) : Char :=
  if cp.isValidChar then Char.ofNat cp else '\uFFFD'

@[simp] theorem toChar_ofChar (c : Char) : toChar (ofChar c) = c := by
  have h : c.toNat.isValidChar := c.valid
  simp [toChar, ofChar, h]

/-- Only U+FFFD is read from more than one code point. -/
theorem toChar_eq_iff {cp : CodePoint} {c : Char} (hc : c ≠ '\uFFFD') :
    toChar cp = c ↔ cp = ofChar c := by
  constructor
  · intro h
    unfold toChar at h
    split at h
    case isTrue hv =>
      subst h
      rw [ofChar, Char.ofNat, dif_pos hv]
      rfl
    case isFalse => exact absurd h.symm hc
  · rintro rfl
    exact toChar_ofChar c

end CodePoint

namespace Text

/-- The code points of a string. -/
def ofString (s : String) : Text := (s.toList.map CodePoint.ofChar).toArray

/-- The string that a list of code points reads as. -/
def decode (cps : List CodePoint) : String := String.ofList (cps.map CodePoint.toChar)

end Text

end Retrace
