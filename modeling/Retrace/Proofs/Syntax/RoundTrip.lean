import Retrace.Proofs.Syntax.ReadBack
import Retrace.Regex.Compile

/-!
# Printing and reading back

The canonical text of a pattern that was read gives the pattern again, unless the text cannot: a
literal beyond the last code point has no escape, and the number of a backreference runs into a
digit behind it.

Results:

* `Pattern.parse_text_iff`: a pattern that was read is read back from its canonical text if and only
  if its literals are Unicode code points and no digit follows a numeric backreference. What
  compiles from Unicode text compiles from its canonical text, to the same expression.
-/

namespace Retrace

/-! ## Numbered patterns -/

theorem GroupTag.printOpening_numbered (tag : GroupTag) (next : Nat) :
    (tag.numbered next).1.printOpening = tag.printOpening := by
  obtain ⟨number, name⟩ := tag
  rcases number with _ | n
  · rfl
  · cases name <;> rfl

mutual

theorem Term.print_numbered : (t : Term) → (next : Nat) → (t.numbered next).1.print = t.print
  | .char _, _ => rfl
  | .anchor _, _ => rfl
  | .backreference _, _ => rfl
  | .look dir negated body, next => by
    have hb := Pattern.print_numbered body next
    simp only [Term.numbered, Term.print, hb]
  | .group tag body, next => by
    have hb := Pattern.print_numbered body (tag.numbered next).2
    simp only [Term.numbered, Term.print, hb, tag.printOpening_numbered]
  | .repeated atom q, next => by
    have ha := Term.print_numbered atom next
    simp only [Term.numbered, Term.print, ha]
termination_by structural t => t

theorem Branch.print_numbered : (b : Branch) → (next : Nat) → (b.numbered next).1.print = b.print
  | [], _ => rfl
  | t :: b, next => by
    have ht := Term.print_numbered t next
    have hb := Branch.print_numbered b (t.numbered next).2
    simp only [Branch.numbered, Branch.print, ht, hb]
termination_by structural b => b

theorem Pattern.printBarred_numbered :
    (bs : Pattern) → (next : Nat) → (bs.numbered next).1.printBarred = bs.printBarred
  | [], _ => rfl
  | b :: bs, next => by
    have hb := Branch.print_numbered b next
    have hbs := Pattern.printBarred_numbered bs (Branch.numbered b next).2
    simp only [Pattern.numbered, Pattern.printBarred, hb, hbs]
termination_by structural bs => bs

/-- Numbers of groups do not show in the text. -/
theorem Pattern.print_numbered :
    (p : Pattern) → (next : Nat) → (p.numbered next).1.print = p.print
  | [], _ => rfl
  | b :: bs, next => by
    have hb := Branch.print_numbered b next
    have hbs := Pattern.printBarred_numbered bs (Branch.numbered b next).2
    simp only [Pattern.numbered, Pattern.print, hb, hbs]
termination_by structural p => p

end

/-! ## The round trip -/

open Input

namespace Pattern

/-- Every code point of a string is a Unicode code point. -/
theorem inUnicode_ofChars (cs : List Char) : InUnicode (ofChars cs) := by
  intro cp hcp
  obtain ⟨c, _, rfl⟩ := List.mem_map.1 hcp
  rcases c.valid with h | ⟨_, h⟩
  · exact Nat.le_trans (Nat.le_of_lt h) (by decide)
  · exact Nat.le_of_lt_succ h

/-- A well-formed pattern of Unicode literals reads back if it is separated, and only then. -/
theorem parse_print_iff {p : Pattern} (hp : p.WellFormed)
    (hl : ∀ cp ∈ p.literals, cp ≤ CodePoint.last) :
    parse (ofChars p.print) = .ok p ↔ p.Separated := by
  have hread : ∀ u ∈ p.subterms, u.Readable := fun u hu =>
    ⟨hp.sound u hu, fun cp hcp => hl cp (List.mem_flatMap.2 ⟨u, hu, hcp⟩)⟩
  have hn : (namesBehind [] p.subterms).Nodup := by
    have hd := hp.names_nodup
    rw [groupNames_eq] at hd
    rw [namesBehind, List.append_nil]
    exact (List.reverse_perm _).nodup_iff.2 hd
  have hs : Closing [] := by
    rintro c ⟨⟩
  have hfinish := OpenPattern.finish_ofPattern hp.ne
  have hend : patternFrom [] (.ofPattern p) (namesBehind [] p.subterms) [] = .ok p := by
    rw [patternFrom, hfinish]
  have hback := p.readsBack hread [] [] [] hn hs p
  rw [List.append_nil] at hback
  rw [parse_eq_ok_iff]
  constructor
  · intro h
    exact (hback.1 ⟨h, extends_of_patternFrom hend⟩).1
  · intro h
    exact (hback.2 ⟨h, hend⟩).1

/-- A pattern that was read is read back from its canonical text if and only if the text can spell
    its literals and it is separated. -/
theorem parse_ofString_text_iff {text : Input} {p : Pattern} (hp : parse text = .ok p) :
    parse (Text.ofString p.text).toList = .ok p ↔
      (∀ cp ∈ p.literals, cp ≤ CodePoint.last) ∧ p.Separated := by
  rw [Pattern.text, Text.toList_ofString_ofList]
  constructor
  · intro h
    have hl := parse_literals_le (inUnicode_ofChars _) h
    exact ⟨hl, (parse_print_iff (parse_wellFormed hp) hl).1 h⟩
  · rintro ⟨hl, hs⟩
    exact (parse_print_iff (parse_wellFormed hp) hl).2 hs

/-- What compiles has no backreferences and so is separated. -/
theorem compile_ofString_text {text : Input} {flags : Flags} {re : Regex}
    (htext : ∀ cp ∈ text, cp ≤ CodePoint.last) (h : Regex.compile text flags = .ok re) :
    Regex.compile (Text.ofString re.root.text).toList flags = .ok re := by
  obtain ⟨p, hp, hb, rfl⟩ := Regex.compile_eq_ok_iff.mp h
  have hl := parse_literals_le htext hp
  have hback := (parse_print_iff (parse_wellFormed hp) hl).2 (separated_of_backreferences hb)
  rw [Pattern.text, Text.toList_ofString_ofList, print_numbered]
  exact Regex.compile_eq_ok_iff.mpr ⟨p, hback, hb, rfl⟩

/-- A pattern that was read is read back from its canonical text if and only if its literals are
    Unicode code points and no digit follows the number of a backreference. In particular, what
    compiles from Unicode text compiles from the canonical text of its tree, to the same
    expression. -/
theorem parse_text_iff :
    (∀ (text : Input) (p : Pattern), parse text = .ok p →
      (parse (Text.ofString p.text).toList = .ok p ↔
        (∀ cp ∈ p.literals, cp ≤ CodePoint.last) ∧ p.Separated)) ∧
    ∀ (text : Input) (flags : Flags) (re : Regex), (∀ cp ∈ text, cp ≤ CodePoint.last) →
      Regex.compile text flags = .ok re →
        Regex.compile (Text.ofString re.root.text).toList flags = .ok re :=
  ⟨fun _ _ => parse_ofString_text_iff, fun _ _ _ => compile_ofString_text⟩

/-- The pattern of `(a)\1\x31` is not read back from its text `(a)\11`, while `a{1,}|` compiles to
    the same expression as its canonical text `a+|`. -/
theorem parse_text_of_reference_before_digit :
    (parse (ofChars ['(', 'a', ')', '\\', '1', '\\', 'x', '3', '1']) =
        .ok [[.group ⟨some 0, none⟩ [[.char (.literal 0x61)]], .backreference (.number 1),
          .char (.literal 0x31)]] ∧
      parse (Text.ofString (text [[.group ⟨some 0, none⟩ [[.char (.literal 0x61)]],
          .backreference (.number 1), .char (.literal 0x31)]])).toList ≠
        .ok [[.group ⟨some 0, none⟩ [[.char (.literal 0x61)]], .backreference (.number 1),
          .char (.literal 0x31)]]) ∧
    Regex.compile (ofChars ['a', '{', '1', ',', '}', '|']) .none =
        .ok ⟨[[.repeated (.char (.literal 0x61)) ⟨1, none, false⟩], []], .none, 0⟩ ∧
      Regex.compile (Text.ofString
          (text [[.repeated (.char (.literal 0x61)) ⟨1, none, false⟩], []])).toList .none =
        .ok ⟨[[.repeated (.char (.literal 0x61)) ⟨1, none, false⟩], []], .none, 0⟩ := by
  have hp : parse (ofChars ['(', 'a', ')', '\\', '1', '\\', 'x', '3', '1']) =
      .ok [[.group ⟨some 0, none⟩ [[.char (.literal 0x61)]], .backreference (.number 1),
        .char (.literal 0x31)]] := by with_unfolding_all rfl
  have hc : Regex.compile (ofChars ['a', '{', '1', ',', '}', '|']) .none =
      .ok ⟨[[.repeated (.char (.literal 0x61)) ⟨1, none, false⟩], []], .none, 0⟩ := by
    with_unfolding_all rfl
  have hback := parse_text_iff.2 _ _ _ (inUnicode_ofChars _) hc
  refine ⟨⟨hp, fun h => ?_⟩, hc, hback⟩
  obtain ⟨_, hs⟩ := (parse_text_iff.1 _ _ hp).1 h
  have hb := hs _ List.mem_cons_self
  simp [Branch.Separated, Term.isNumberReference, Term.beginsWithDigit, Term.isDigit] at hb

end Pattern

end Retrace
