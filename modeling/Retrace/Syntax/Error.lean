import Retrace.CodePoint

/-!
# Syntax errors

What can be wrong with a pattern's text, and where. While a text is read, an error's place is the
rest of the text from the code point it is about; the reported position counts the code points
before that rest.
-/

namespace Retrace

/-- What is wrong with a pattern's text. -/
inductive SyntaxCause where
  | unmatchedParen
  | unterminatedGroup
  | invalidGroup
  | invalidGroupName
  | duplicateGroupName (name : String)
  | nothingToRepeat
  | quantifierOutOfOrder
  | numberTooLarge
  | unterminatedClass
  | rangeOutOfOrder
  | invalidClassRange
  | trailingBackslash
  | invalidUnicodeEscape
  | invalidPropertyEscape
  | unknownProperty (text : String)
deriving DecidableEq, Repr

/-- The wording of a cause. -/
def SyntaxCause.message : SyntaxCause → String
  | unmatchedParen => "unmatched ')'"
  | unterminatedGroup => "unterminated group"
  | invalidGroup => "invalid group"
  | invalidGroupName => "invalid capture group name"
  | duplicateGroupName name => "duplicate capture group name '" ++ name ++ "'"
  | nothingToRepeat => "nothing to repeat"
  | quantifierOutOfOrder => "numbers out of order in quantifier"
  | numberTooLarge => "number too large"
  | unterminatedClass => "unterminated character class"
  | rangeOutOfOrder => "range out of order in character class"
  | invalidClassRange => "invalid character class range"
  | trailingBackslash => "\\ at end of pattern"
  | invalidUnicodeEscape => "invalid unicode escape"
  | invalidPropertyEscape => "invalid property escape"
  | unknownProperty text => "unknown property '" ++ text ++ "'"

/-- An error in a pattern's text, at a position that counts code points. -/
structure SyntaxError where
  cause : SyntaxCause
  position : Nat
deriving DecidableEq, Repr

/-- The report of a syntax error. -/
def SyntaxError.message (e : SyntaxError) : String :=
  "invalid pattern at position " ++ toString e.position ++ ": " ++ e.cause.message

/-- The part of a pattern's text that is still to be read. -/
abbrev Input := List CodePoint

/-- An error met while reading, at the beginning of the given rest of the text. -/
structure Failure where
  cause : SyntaxCause
  place : Input
deriving DecidableEq, Repr

/-- The error as it is reported for the whole text. -/
def Failure.inText (f : Failure) (text : Input) : SyntaxError :=
  ⟨f.cause, text.length - f.place.length⟩

/-- The result of reading something from the beginning of an input, or an error. Most readers answer
    what was read together with the rest of the input. -/
abbrev Reading (α : Type) := Except Failure α

/-- What a changed reading answers comes from what the reading itself answers. -/
theorem Reading.of_map_eq_ok {α β : Type} {f : α → β} {x : Reading α} {b : β}
    (h : x.map f = .ok b) : ∃ a, x = .ok a ∧ f a = b := by
  cases x with
  | error => cases h
  | ok a =>
    cases h
    exact ⟨a, rfl, rfl⟩

namespace Input

/-- The next character, as it reads. -/
def peek? (s : Input) : Option Char := s.head?.map CodePoint.toChar

/-- The next `n` characters as they read, fewer at the end of the input. -/
def peek (n : Nat) (s : Input) : List Char := (s.take n).map CodePoint.toChar

/-- The rest of an input that begins with the given character. -/
def after? (c : Char) : Input → Option Input
  | [] => none
  | cp :: s => if CodePoint.toChar cp = c then some s else none

/-- The rest `r` of an input `s` of which something has been read. -/
def Shorter (r s : Input) : Prop := r <:+ s ∧ r.length < s.length

theorem Shorter.trans_suffix {a b c : Input} (h : Shorter a b) (hc : b <:+ c) : Shorter a c :=
  ⟨h.1.trans hc, Nat.lt_of_lt_of_le h.2 hc.length_le⟩

theorem Shorter.of_suffix {a b c : Input} (h : a <:+ b) (hc : Shorter b c) : Shorter a c :=
  ⟨h.trans hc.1, Nat.lt_of_le_of_lt h.length_le hc.2⟩

theorem Shorter.trans {a b c : Input} (h : Shorter a b) (hc : Shorter b c) : Shorter a c :=
  h.trans_suffix hc.1

theorem shorter_cons (cp : CodePoint) (s : Input) : Shorter s (cp :: s) :=
  ⟨List.suffix_cons cp s, by simp⟩

theorem shorter_drop {n : Nat} {s : Input} (hn : 0 < n) (hs : s ≠ []) : Shorter (s.drop n) s := by
  refine ⟨List.drop_suffix n s, ?_⟩
  have := List.length_pos_iff.2 hs
  simp only [List.length_drop]
  omega

theorem after?_eq_some {c : Char} {s r : Input} (h : after? c s = some r) : Shorter r s := by
  cases s with
  | nil => simp [after?] at h
  | cons cp s =>
    simp only [after?] at h
    split at h
    · cases h
      exact shorter_cons cp _
    · cases h

end Input

end Retrace
