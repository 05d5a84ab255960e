import Mathlib.Data.List.Basic
import Retrace.Proofs.Syntax.Printed
import Retrace.Proofs.Syntax.Unambiguous
import Retrace.Proofs.Syntax.Unnumbered
import Retrace.Syntax.Outline

/-!
# The lines of outlines

Each line of an outline has the heading of a pattern, a branch or a term. The heading says all about
a term except for the terms within it, and it can be told from its text, which ends where the line
does.

Results:

* `Heading.text_append_inj`: different headings have different texts.
-/

namespace Retrace

/-! ## Parts of headings -/

namespace CharExpr

theorem outline_literal (cp : CodePoint) : (literal cp).outline = "char ".toList ++
    cp.print CodePoint.isSyntax ++ " (U+".toList ++ Numeral.writePadded 16 4 cp ++ [')'] := rfl

theorem outline_any : any.outline = "dot".toList := rfl

theorem outline_escape (e : ClassEscape) :
    (escape e).outline = "predefined ".toList ++ e.print := rfl

theorem outline_bracket (negated : Bool) (members : List ClassMember) :
    (bracket negated members).outline = "class ".toList ++ (bracket negated members).print := rfl

theorem outline_prefixFree : PrefixFree Sound outline := by
  intro e e' he he' r s h
  cases e <;> cases e'
  case literal.literal cp cp' =>
    have hliteral : PrefixFree (fun _ => True) (CodePoint.print CodePoint.isSyntax) :=
      CodePoint.print_prefixFree CodePoint.isSyntax_not_alnum (by decide)
    simp only [outline_literal, List.append_assoc, List.append_cancel_left_eq] at h
    obtain ⟨rfl, hrest⟩ := hliteral trivial trivial h
    simp only [List.append_cancel_left_eq] at hrest
    exact ⟨rfl, hrest⟩
  case any.any => exact ⟨rfl, List.append_cancel_left h⟩
  case escape.escape e e' =>
    simp only [outline_escape, List.append_assoc, List.append_cancel_left_eq] at h
    obtain ⟨rfl, rfl⟩ := e.print_prefixFree he he' h
    exact ⟨rfl, rfl⟩
  case bracket.bracket =>
    simp only [outline_bracket, List.append_assoc, List.append_cancel_left_eq] at h
    exact bracket_append_inj he he' h
  all_goals
    simp [outline_literal, outline_any, outline_escape, outline_bracket] at h

end CharExpr

namespace Anchor

theorem outline_start : start.outline = "begin".toList := rfl

theorem outline_finish : finish.outline = "end".toList := rfl

theorem outline_wordBoundary (negated : Bool) : (wordBoundary negated).outline =
    "word boundary ".toList ++ ['\\', if negated then 'B' else 'b'] := rfl

theorem outline_prefixFree : PrefixFree (fun _ => True) outline := by
  intro a a' _ _ r s h
  cases a <;> cases a'
  case start.start | finish.finish => exact ⟨rfl, List.append_cancel_left h⟩
  case wordBoundary.wordBoundary negated negated' =>
    simp only [outline_wordBoundary, List.append_assoc, List.append_cancel_left_eq] at h
    obtain ⟨hletter, hrest⟩ := List.cons.inj (List.cons.inj h).2
    have hnegated : negated = negated' := by
      cases negated <;> cases negated' <;> first | rfl | exact absurd hletter (by decide)
    exact ⟨by rw [hnegated], hrest⟩
  all_goals simp [outline_start, outline_finish, outline_wordBoundary] at h

end Anchor

namespace Direction

theorem outline_forward (negated : Bool) : forward.outline negated =
    "lookahead".toList ++ (if negated then " not" else "").toList := rfl

theorem outline_backward (negated : Bool) : backward.outline negated =
    "lookbehind".toList ++ (if negated then " not" else "").toList := rfl

theorem negated_append_inj {negated negated' : Bool} {r s : List Char}
    (h : (if negated then " not" else "").toList ++ '\n' :: r =
      (if negated' then " not" else "").toList ++ '\n' :: s) : negated = negated' ∧ r = s := by
  cases negated <;> cases negated'
  case false.false => exact ⟨rfl, (List.cons.inj h).2⟩
  case true.true => exact ⟨rfl, (List.cons.inj (List.append_cancel_left h)).2⟩
  all_goals simp at h

theorem outline_append_inj {dir dir' : Direction} {negated negated' : Bool} {r s : List Char}
    (h : dir.outline negated ++ '\n' :: r = dir'.outline negated' ++ '\n' :: s) :
    dir = dir' ∧ negated = negated' ∧ r = s := by
  cases dir <;> cases dir'
  case forward.forward | backward.backward =>
    simp only [outline_forward, outline_backward, List.append_assoc,
      List.append_cancel_left_eq] at h
    exact ⟨rfl, negated_append_inj h⟩
  all_goals simp [outline_forward, outline_backward] at h

end Direction

namespace Quantifier

theorem outline_eq (min : Nat) (max : Option Nat) (lazy : Bool) : outline ⟨min, max, lazy⟩ =
    "quantified ".toList ++ '{' :: Numeral.write 10 min ++ ',' ::
      (max.elim [] (Numeral.write 10) ++ '}' :: (if lazy then " lazy" else " greedy").toList) := by
  cases max <;> rfl

theorem max_append_inj {max max' : Option Nat} {r s : List Char}
    (h : max.elim [] (Numeral.write 10) ++ '}' :: r =
      max'.elim [] (Numeral.write 10) ++ '}' :: s) : max = max' ∧ r = s := by
  have hbrace : Numeral.digit? 10 '}' = none := by decide
  have first := Numeral.write_append_ne (show 10 ∈ [10, 16] by decide) hbrace
  cases max with
  | none =>
    cases max' with
    | none => exact ⟨rfl, (List.cons.inj h).2⟩
    | some m => exact absurd h.symm (first m _ r)
  | some n =>
    cases max' with
    | none => exact absurd h (first n _ s)
    | some m =>
      obtain ⟨rfl, -, rfl⟩ := Numeral.write_append_inj (by decide) hbrace hbrace h
      exact ⟨rfl, rfl⟩

theorem lazy_append_inj {lazy lazy' : Bool} {r s : List Char}
    (h : (if lazy then " lazy" else " greedy").toList ++ r =
      (if lazy' then " lazy" else " greedy").toList ++ s) : lazy = lazy' ∧ r = s := by
  cases lazy <;> cases lazy'
  case false.false | true.true => exact ⟨rfl, List.append_cancel_left h⟩
  all_goals simp at h

theorem outline_prefixFree : PrefixFree (fun _ => True) outline := by
  rintro ⟨min, max, lazy⟩ ⟨min', max', lazy'⟩ - - r s h
  have hcomma : Numeral.digit? 10 ',' = none := by decide
  simp only [outline_eq, List.append_assoc, List.append_cancel_left_eq, List.cons_append,
    List.cons.injEq, true_and] at h
  obtain ⟨rfl, -, hmax⟩ := Numeral.write_append_inj (by decide) hcomma hcomma h
  obtain ⟨rfl, hlazy⟩ := max_append_inj hmax
  obtain ⟨rfl, hrest⟩ := lazy_append_inj hlazy
  exact ⟨rfl, hrest⟩

end Quantifier

/-- A name in front of the character that ends it. -/
theorem IsGroupName.append_inj {name name' : String} (hn : IsGroupName name)
    (hn' : IsGroupName name') {r s : List Char}
    (h : name.toList ++ '>' :: r = name'.toList ++ '>' :: s) : name = name' ∧ r = s := by
  have hend : Input.isNameChar '>' = false := by decide
  obtain ⟨hname, -, hrest⟩ := append_cons_inj (List.all_eq_true.mp hn.1)
    (List.all_eq_true.mp hn'.1) hend hend h
  exact ⟨String.toList_injective hname, hrest⟩

namespace GroupTag

theorem outline_plain (name : Option String) : outline ⟨none, name⟩ = "group".toList := rfl

theorem outline_capture (n : Nat) :
    outline ⟨some n, none⟩ = "capture #".toList ++ Numeral.write 10 n := rfl

theorem outline_named (n : Nat) (name : String) : outline ⟨some n, some name⟩ =
    "capture #".toList ++ Numeral.write 10 n ++ [' ', '<'] ++ name.toList ++ ['>'] := rfl

/-- A tag that is sound, whatever its number, has a text of its own up to the end of the line. -/
theorem outline_append_inj {tag tag' : GroupTag} (ht : tag.unnumbered.Sound)
    (ht' : tag'.unnumbered.Sound) {r s : List Char}
    (h : tag.outline ++ '\n' :: r = tag'.outline ++ '\n' :: s) : tag = tag' ∧ r = s := by
  have hline : Numeral.digit? 10 '\n' = none := by decide
  have hblank : Numeral.digit? 10 ' ' = none := by decide
  obtain ⟨number, name⟩ := tag
  obtain ⟨number', name'⟩ := tag'
  rcases number with _ | n <;> rcases number' with _ | m
  · obtain rfl : name = none := ht
    obtain rfl : name' = none := ht'
    exact ⟨rfl, (List.cons.inj (List.append_cancel_left h)).2⟩
  · rcases name' <;> simp [outline_plain, outline_capture, outline_named] at h
  · rcases name <;> simp [outline_plain, outline_capture, outline_named] at h
  · rcases name with _ | name <;> rcases name' with _ | name'
    all_goals
      simp only [outline_capture, outline_named, List.append_assoc, List.append_cancel_left_eq,
        List.cons_append, List.nil_append] at h
    · obtain ⟨rfl, -, rfl⟩ := Numeral.write_append_inj (by decide) hline hline h
      exact ⟨rfl, rfl⟩
    · exact absurd (Numeral.write_append_inj (by decide) hline hblank h).2.1 (by decide)
    · exact absurd (Numeral.write_append_inj (by decide) hblank hline h).2.1 (by decide)
    · obtain ⟨rfl, -, hname⟩ := Numeral.write_append_inj (by decide) hblank hblank h
      obtain ⟨rfl, hrest⟩ := (ht.2 name rfl).append_inj (ht'.2 name' rfl) (List.cons.inj hname).2
      exact ⟨rfl, (List.cons.inj hrest).2⟩

end GroupTag

/-- The target of a backreference in front of the end of the line. -/
theorem GroupKey.print_append_inj {target target' : GroupKey} (ht : target.Sound)
    (ht' : target'.Sound) {r s : List Char}
    (h : target.print ++ '\n' :: r = target'.print ++ '\n' :: s) : target = target' ∧ r = s := by
  have hline : Numeral.digit? 10 '\n' = none := by decide
  have hk : Numeral.digit? 10 'k' = none := by decide
  cases target with
  | number n =>
    cases target' with
    | number m =>
      obtain ⟨rfl, -, rfl⟩ := Numeral.write_append_inj (by decide) hline hline (List.cons.inj h).2
      exact ⟨rfl, rfl⟩
    | name name' =>
      exact absurd (List.cons.inj h).2 (Numeral.write_append_ne (by decide) hk n _ _)
  | name name =>
    cases target' with
    | number m =>
      exact absurd (List.cons.inj h).2.symm (Numeral.write_append_ne (by decide) hk m _ _)
    | name name' =>
      simp only [print, List.append_assoc, List.append_cancel_left_eq] at h
      obtain ⟨rfl, hrest⟩ := IsGroupName.append_inj ht ht' h
      exact ⟨rfl, (List.cons.inj hrest).2⟩

/-! ## Headings -/

/-- What a line of an outline is about. -/
inductive Heading where
  | pattern
  | branch
  | char (e : CharExpr)
  | anchor (a : Anchor)
  | look (dir : Direction) (negated : Bool)
  | group (tag : GroupTag)
  | repeated (q : Quantifier)
  | backreference (target : GroupKey)

namespace Heading

/-- The text of a heading. -/
def text : Heading → List Char
  | pattern => "disjunction".toList
  | branch => "alternative".toList
  | char e => e.outline
  | anchor a => a.outline
  | look dir negated => dir.outline negated
  | group tag => tag.outline
  | repeated q => q.outline
  | backreference target => "backreference ".toList ++ target.print

theorem text_backreference (target : GroupKey) :
    (backreference target).text = "backreference ".toList ++ target.print := rfl

/-- Whether a heading is one of a pattern that was read and numbered. -/
def Sound : Heading → Prop
  | char e => e.Sound
  | group tag => tag.unnumbered.Sound
  | backreference target => target.Sound
  | _ => True

/-- The kinds of headings. -/
inductive Kind where
  | pattern
  | branch
  | char
  | anchor
  | look
  | group
  | repeated
  | backreference

/-- The kind of a heading. -/
def kind : Heading → Kind
  | pattern => .pattern
  | branch => .branch
  | char _ => .char
  | anchor _ => .anchor
  | look .. => .look
  | group _ => .group
  | repeated _ => .repeated
  | backreference _ => .backreference

/-- The kind of the heading with which a text begins, by its first letters. -/
def kind? : List Char → Option Kind
  | 'd' :: 'i' :: _ => some .pattern
  | 'a' :: _ => some .branch
  | 'c' :: 'h' :: _ | 'd' :: 'o' :: _ | 'p' :: _ | 'c' :: 'l' :: _ => some .char
  | 'b' :: 'e' :: _ | 'e' :: _ | 'w' :: _ => some .anchor
  | 'l' :: _ => some .look
  | 'g' :: _ | 'c' :: 'a' :: _ => some .group
  | 'q' :: _ => some .repeated
  | 'b' :: 'a' :: _ => some .backreference
  | _ => none

theorem kind?_text (h : Heading) (r : List Char) : kind? (h.text ++ r) = some h.kind := by
  cases h with
  | pattern | branch | repeated | backreference => rfl
  | char e => cases e <;> rfl
  | anchor a => cases a <;> rfl
  | look dir negated => cases dir <;> rfl
  | group tag =>
    obtain ⟨number, name⟩ := tag
    rcases number with _ | n
    · rfl
    · cases name <;> rfl

/-- Different headings have different texts, up to the end of the line. -/
theorem text_append_inj {h h' : Heading} (hsound : h.Sound) (hsound' : h'.Sound) {r s : List Char}
    (heq : h.text ++ '\n' :: r = h'.text ++ '\n' :: s) : h = h' ∧ r = s := by
  have hkind : h.kind = h'.kind := by
    have hread := kind?_text h ('\n' :: r)
    rw [heq, kind?_text h'] at hread
    exact (Option.some.inj hread).symm
  cases h <;> cases h'
  case pattern.pattern | branch.branch =>
    exact ⟨rfl, (List.cons.inj (List.append_cancel_left heq)).2⟩
  case char.char =>
    obtain ⟨rfl, hrest⟩ := CharExpr.outline_prefixFree hsound hsound' heq
    exact ⟨rfl, (List.cons.inj hrest).2⟩
  case anchor.anchor =>
    obtain ⟨rfl, hrest⟩ := Anchor.outline_prefixFree trivial trivial heq
    exact ⟨rfl, (List.cons.inj hrest).2⟩
  case look.look =>
    obtain ⟨rfl, rfl, rfl⟩ := Direction.outline_append_inj heq
    exact ⟨rfl, rfl⟩
  case group.group =>
    obtain ⟨rfl, rfl⟩ := GroupTag.outline_append_inj hsound hsound' heq
    exact ⟨rfl, rfl⟩
  case repeated.repeated =>
    obtain ⟨rfl, hrest⟩ := Quantifier.outline_prefixFree trivial trivial heq
    exact ⟨rfl, (List.cons.inj hrest).2⟩
  case backreference.backreference =>
    simp only [text_backreference, List.append_assoc, List.append_cancel_left_eq] at heq
    obtain ⟨rfl, rfl⟩ := GroupKey.print_append_inj hsound hsound' heq
    exact ⟨rfl, rfl⟩
  all_goals cases hkind

/-- No heading begins with a blank. -/
theorem exists_text_eq_cons (h : Heading) : ∃ c cs, h.text = c :: cs ∧ c ≠ ' ' := by
  obtain ⟨c, cs, hc⟩ : ∃ c cs, h.text = c :: cs := by
    refine List.exists_cons_of_ne_nil fun hnil => ?_
    have hread := kind?_text h []
    rw [hnil] at hread
    cases hread
  refine ⟨c, cs, hc, ?_⟩
  rintro rfl
  have hread := kind?_text h []
  rw [hc] at hread
  cases hread

end Heading

end Retrace
