import Retrace.Proofs.Syntax.WellFormed

/-!
# What holds of a pattern that was read

A pattern that was read is well formed. Part by part, this says what its branches, quantifiers,
classes, groups, backreferences and properties are like, at any depth.

Results:

* `Pattern.parse_sound`: what holds of each part of a pattern that was read.
-/

namespace Retrace

/-- The word consists of ASCII letters, ASCII digits, `_` and `$`, and begins with no digit. -/
structure IsIdentifier (word : String) : Prop where
  ne : word ≠ ""
  chars : ∀ c ∈ word.toList, c.isAlphanum ∨ c = '_' ∨ c = '$'
  head : ∀ c ∈ word.toList.head?, c.isDigit = false

/-- A pattern has no branch, a single branch with terms, or several branches. The empty text has no
    branch rather than one without terms. -/
def Pattern.IsCanonical (p : Pattern) : Prop := p = [] ∨ (∃ t b, p = [t :: b]) ∨ 2 ≤ p.length

/-- The class escapes of a term itself, in its bracket class too. -/
def Term.classEscapes : Term → List ClassEscape
  | .char (.escape e) => [e]
  | .char (.bracket _ members) => members.filterMap fun
    | .escape e => some e
    | _ => none
  | _ => []

theorem Input.isDecimal_eq_isDigit (c : Char) : isDecimal c = c.isDigit := rfl

theorem Input.isLetter_eq_isAlpha (c : Char) : isLetter c = c.isAlpha := by
  have upper : (decide ('A' ≤ c) && decide (c ≤ 'Z')) = c.isUpper := (Bool.decide_and _ _).symm
  have lower : (decide ('a' ≤ c) && decide (c ≤ 'z')) = c.isLower := rfl
  rw [isLetter, upper, lower, Bool.or_comm]
  rfl

theorem Input.isNameChar_iff {c : Char} :
    isNameChar c ↔ c.isAlphanum ∨ c = '_' ∨ c = '$' := by
  rw [isNameChar, isLetter_eq_isAlpha, isDecimal_eq_isDigit, ← Char.isAlphanum]
  simp only [Bool.or_eq_true, decide_eq_true_eq, or_assoc]

theorem IsGroupName.isIdentifier {name : String} (h : IsGroupName name) : IsIdentifier name where
  ne := by
    rintro rfl
    exact h.2 rfl
  chars c hc := Input.isNameChar_iff.1 (List.all_eq_true.1 h.1 c hc)
  head c hc := by
    have hd := h.2
    rw [Option.mem_def.1 hc] at hd
    simpa [Input.isDecimal_eq_isDigit] using hd

theorem Pattern.isCanonical_iff {p : Pattern} : p.IsCanonical ↔ p ≠ [[]] := by
  unfold IsCanonical
  rcases p with _ | ⟨_ | ⟨t, b⟩, _ | ⟨c, p⟩⟩ <;> simp

theorem Term.Sound.body?_ne {t : Term} (h : t.Sound) : ∀ body ∈ t.body?, body ≠ [[]] := by
  rintro body hb
  cases t with
  | look dir negated b =>
    cases hb
    exact h
  | group tag b =>
    cases hb
    exact h.2
  | char | anchor | repeated | backreference => cases hb

theorem Term.Sound.classEscapes {t : Term} (h : t.Sound) : ∀ e ∈ t.classEscapes, e.Sound := by
  intro e he
  rcases t with e' | _
  case char =>
    cases e' with
    | escape e' =>
      rw [List.mem_singleton.1 he]
      exact h
    | bracket negated members =>
      obtain ⟨m, hm, hme⟩ := List.mem_filterMap.1 he
      cases m with
      | escape e' =>
        cases hme
        exact h _ hm
      | literal | range => cases hme
    | literal | any => cases he
  all_goals cases he

namespace Pattern

/-- What holds of a pattern that was read, at every depth: no pattern in it is a single branch
    without terms; the bounds of a quantifier are in order, and what is repeated is neither an
    assertion nor repeated itself; ranges are in order; capturing groups are still to be numbered,
    only these have names, all names are identifiers, and no two groups have the same one; the
    number of a backreference is positive; and a property is what its name and value resolve to. -/
theorem parse_sound {text : Input} {p : Pattern} (hp : parse text = .ok p) :
    (p.IsCanonical ∧ ∀ u ∈ p.subterms, ∀ body ∈ u.body?, body.IsCanonical) ∧
    (∀ atom q, .repeated atom q ∈ p.subterms →
      (∀ max ∈ q.max, q.min ≤ max) ∧ atom.isAssertion = false ∧ atom.isRepeated = false) ∧
    (∀ negated members, .char (.bracket negated members) ∈ p.subterms →
      ∀ lo hi, .range lo hi ∈ members → lo ≤ hi) ∧
    (∀ tag body, .group tag body ∈ p.subterms →
      (tag.number = none ∧ tag.name = none) ∨
        (tag.number = some 0 ∧ ∀ name ∈ tag.name, IsIdentifier name)) ∧
    p.groupNames.Nodup ∧
    (∀ name, .backreference (.name name) ∈ p.subterms → IsIdentifier name) ∧
    (∀ n, .backreference (.number n) ∈ p.subterms → 1 ≤ n) ∧
    ∀ u ∈ p.subterms, ∀ e ∈ u.classEscapes, ∀ name value property,
      e.kind = .property name value property → IsProperty name value property := by
  have hwell := parse_wellFormed hp
  refine ⟨⟨isCanonical_iff.2 hwell.ne, fun u hu body hb => ?_⟩, fun atom q hu => ?_,
    fun negated members hu lo hi hm => ?_, fun tag body hu => ?_, hwell.names_nodup,
    fun name hu => ?_, fun n hu => ?_, fun u hu e he => ?_⟩
  · exact isCanonical_iff.2 ((hwell.sound u hu).body?_ne body hb)
  · obtain ⟨hq, ha, hr⟩ := hwell.sound _ hu
    exact ⟨hq.ordered, ha, hr⟩
  · exact hwell.sound _ hu _ hm
  · obtain ⟨htag, -⟩ := hwell.sound _ hu
    unfold GroupTag.Sound at htag
    split at htag
    case h_1 hn => exact .inl ⟨hn, htag⟩
    case h_2 n hn =>
      exact .inr ⟨by rw [hn, htag.1], fun name hname => (htag.2 name hname).isIdentifier⟩
  · exact (hwell.sound _ hu).isIdentifier
  · exact (hwell.sound _ hu).1
  · exact (hwell.sound u hu).classEscapes e he

/-- The pattern `(?<y>\d{2,3}?)|(?!\k<y>\1)`: what it repeats, its group and its backreferences. -/
theorem parse_sound_of_lookahead : ∃ p,
    parse (Text.ofString "(?<y>\\d{2,3}?)|(?!\\k<y>\\1)").toList = .ok p ∧ p.IsCanonical ∧
      (∀ atom q, .repeated atom q ∈ p.subterms → ∀ max ∈ q.max, q.min ≤ max) ∧
      (∀ name, .backreference (.name name) ∈ p.subterms → IsIdentifier name) ∧
      .backreference (.name "y") ∈ p.subterms ∧ IsIdentifier "y" := by
  obtain ⟨p, hp, hmem⟩ : ∃ p,
      parse (Text.ofString "(?<y>\\d{2,3}?)|(?!\\k<y>\\1)").toList = .ok p ∧
        .backreference (.name "y") ∈ p.subterms := by
    refine ⟨[[.group ⟨some 0, some "y"⟩
      [[.repeated (.char (.escape ⟨.digit, false⟩)) ⟨2, some 3, true⟩]]],
      [.look .forward true [[.backreference (.name "y"), .backreference (.number 1)]]]],
      by with_unfolding_all rfl, ?_⟩
    simp [subterms, Branch.subterms, Term.subterms]
  obtain ⟨⟨hcanonical, -⟩, hrepeated, -, -, -, hname, -⟩ := parse_sound hp
  exact ⟨p, hp, hcanonical, fun atom q hu => (hrepeated atom q hu).1, hname, hmem, hname "y" hmem⟩

end Pattern

end Retrace
