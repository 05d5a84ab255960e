import Retrace.Proofs.Syntax.Composition
import Retrace.Proofs.Syntax.Soundness

/-!
# Patterns put together

Whatever a text is read as, it is read as part of a larger pattern: as one side of a bar, and as the
body of a group or lookaround of every kind. This holds as well of a text that ends in the middle of
something, such as a quantifier in braces that is not closed: no bar and no parenthesis completes
it.

Results:

* `Pattern.parse_assembled`: two patterns with a bar between them, and a pattern within parentheses.
-/

namespace Retrace

theorem IsIdentifier.isGroupName {name : String} (h : IsIdentifier name) : IsGroupName name := by
  refine ⟨List.all_eq_true.mpr fun c hc => Input.isNameChar_iff.mpr (h.chars c hc), ?_⟩
  cases hl : name.toList with
  | nil => exact absurd (String.toList_eq_nil_iff.mp hl) h.ne
  | cons c cs =>
    have hc : c.isDigit = false := h.head c (by rw [hl]; rfl)
    simp [Input.isDecimal_eq_isDigit, hc]

open Input

namespace Pattern

/-- A text that was read is read in the same way within a larger text. With a bar and another text
    that was read behind it, and no group name in common, it gives the branches of the first
    pattern, followed by those of the second one; a pattern without branches counts as one empty
    branch. Within the parentheses of a group or a lookaround, it gives one branch with one term,
    whose body is its pattern; a group may take any name that the pattern does not use. -/
theorem parse_assembled {text : Input} {p : Pattern} (hp : parse text = .ok p) :
    (∀ (text' : Input) (p' : Pattern), parse text' = .ok p' →
      p.groupNames.Disjoint p'.groupNames →
        parse (text ++ ofChars ['|'] ++ text') = .ok (p.alternatives ++ p'.alternatives)) ∧
    parse (ofChars ['('] ++ text ++ ofChars [')']) = .ok [[.group ⟨some 0, none⟩ p]] ∧
    parse (ofChars ['(', '?', ':'] ++ text ++ ofChars [')']) = .ok [[.group ⟨none, none⟩ p]] ∧
    parse (ofChars ['(', '?', '='] ++ text ++ ofChars [')']) = .ok [[.look .forward false p]] ∧
    parse (ofChars ['(', '?', '!'] ++ text ++ ofChars [')']) = .ok [[.look .forward true p]] ∧
    parse (ofChars ['(', '?', '<', '='] ++ text ++ ofChars [')']) =
      .ok [[.look .backward false p]] ∧
    parse (ofChars ['(', '?', '<', '!'] ++ text ++ ofChars [')']) =
      .ok [[.look .backward true p]] ∧
    ∀ name, IsIdentifier name → name ∉ p.groupNames →
      parse (ofChars (['(', '?', '<'] ++ name.toList ++ ['>']) ++ text ++ ofChars [')']) =
        .ok [[.group ⟨some 0, some name⟩ p]] := by
  have enclosed {o : Opening} (ho : o.Sound) (hn : ∀ name ∈ o.name?, name ∉ p.groupNames) :
      parse (ofChars o.print ++ text ++ ofChars [')']) = .ok [[o.close p]] := by
    rw [List.append_assoc]
    exact parse_opened hp ho hn
  refine ⟨fun text' p' hp' hnames => ?_, enclosed (o := .group ⟨some 0, none⟩) ⟨rfl, by simp⟩ nofun,
    enclosed (o := .group ⟨none, none⟩) rfl nofun,
    enclosed (o := .look .forward false) trivial nofun,
    enclosed (o := .look .forward true) trivial nofun,
    enclosed (o := .look .backward false) trivial nofun,
    enclosed (o := .look .backward true) trivial nofun, fun name hname hfree => ?_⟩
  · rw [List.append_assoc]
    exact parse_bar hp hp' fun name hmem hmem' => hnames hmem' hmem
  · refine enclosed (o := .group ⟨some 0, some name⟩) ⟨rfl, ?_⟩ ?_
    · rintro _ ⟨⟩
      exact hname.isGroupName
    · rintro _ ⟨⟩
      exact hfree

/-- The text `(?<x>a)b{2,` ends in a brace that stays a literal in front of the bar and of a closing
    parenthesis, and an incomplete `\u` on the other side of the bar stays a `u`. -/
theorem parse_assembled_of_unclosed_brace : ∃ p p' : Pattern,
    parse (Text.ofString "(?<x>a)b\x7b2,").toList = .ok p ∧
    parse (Text.ofString "|\\u").toList = .ok p' ∧ p.groupNames.Disjoint p'.groupNames ∧
    parse ((Text.ofString "(?<x>a)b\x7b2,").toList ++ ofChars ['|'] ++
      (Text.ofString "|\\u").toList) = .ok (p ++ p') ∧
    parse (ofChars ['(', '?', '<', '!'] ++ (Text.ofString "(?<x>a)b\x7b2,").toList ++
      ofChars [')']) = .ok [[.look .backward true p]] ∧
    parse (ofChars (['(', '?', '<'] ++ "y".toList ++ ['>']) ++
      (Text.ofString "(?<x>a)b\x7b2,").toList ++ ofChars [')']) =
        .ok [[.group ⟨some 0, some "y"⟩ p]] := by
  have hp : parse (Text.ofString "(?<x>a)b\x7b2,").toList =
      .ok [[.group ⟨some 0, some "x"⟩ [[.char (.literal 0x61)]], .char (.literal 0x62),
        .char (.literal 0x7b), .char (.literal 0x32), .char (.literal 0x2c)]] := by
    with_unfolding_all rfl
  have hp' : parse (Text.ofString "|\\u").toList = .ok [[], [.char (.literal 0x75)]] := by
    with_unfolding_all rfl
  have hnames : (groupNames [[.group ⟨some 0, some "x"⟩ [[.char (.literal 0x61)]],
      .char (.literal 0x62), .char (.literal 0x7b), .char (.literal 0x32),
      .char (.literal 0x2c)]]).Disjoint (groupNames [[], [.char (.literal 0x75)]]) :=
    List.disjoint_nil_right _
  have hy : IsIdentifier "y" := by
    constructor <;> simp
  obtain ⟨hbar, -, -, -, -, -, hlook, hnamed⟩ := parse_assembled hp
  exact ⟨_, _, hp, hp', hnames, hbar _ _ hp' hnames, hlook, hnamed "y" hy (by decide)⟩

end Pattern

end Retrace
