import Retrace.Proofs.Syntax.ErrorPlaces
import Retrace.Proofs.Syntax.ReadBack

/-!
# Braces that are literals

A brace that does not begin a quantifier reads as if it were escaped, provided that the numbers
behind it are not too large: the reader of bounds gives up on a number that does not fit before it
has seen whether a quantifier goes on there. Such a number is reported as an error behind a term,
and as a quantifier without a term at the beginning of a pattern, although the brace begins no
quantifier.

Results:

* `Input.quantifier_of_braceBounds?`: bounds that are read stand in the text as a quantifier.
* `Pattern.parse_brace_iff`: a brace that begins no quantifier reads as a literal exactly if no
  number behind it is too large.
-/

namespace Retrace

/-- A decimal number as it stands in a text: one or more digits. -/
def Input.IsNumeral (ds : Input) : Prop := ds ≠ [] ∧ ∀ cp ∈ ds, isDecimal cp.toChar

open Input in
/-- The texts of the quantifiers in braces. -/
inductive IsBraceQuantifier : Input → Prop where
  | exactly {ds : Input} (h : IsNumeral ds) :
    IsBraceQuantifier (ofChars ['{'] ++ ds ++ ofChars ['}'])
  | atLeast {ds : Input} (h : IsNumeral ds) :
    IsBraceQuantifier (ofChars ['{'] ++ ds ++ ofChars [',', '}'])
  | between {ds es : Input} (h : IsNumeral ds) (h' : IsNumeral es) :
    IsBraceQuantifier (ofChars ['{'] ++ ds ++ ofChars [','] ++ es ++ ofChars ['}'])

theorem IsBraceQuantifier.mem_close {t : Input} (h : IsBraceQuantifier t) :
    CodePoint.ofChar '}' ∈ t := by
  cases h <;> simp

namespace Input

variable {s r : Input} {f : Failure}

theorem isNumeral_digits (h : digits s ≠ []) : IsNumeral (digits s) :=
  ⟨h, fun _ hcp => isDecimal_of_mem_digits hcp⟩

/-! ## Bounds in braces -/

/-- Bounds that are read stand, with the brace before them, as a quantifier in the text. -/
theorem quantifier_of_braceBounds? {b : Nat × Option Nat}
    (h : braceBounds? s = .ok (some (b, r))) :
    ∃ t, IsBraceQuantifier t ∧ t <+: CodePoint.ofChar '{' :: s := by
  simp only [braceBounds?, bind, Except.bind, pure, Except.pure] at h
  split at h
  · cases h
  case h_2 first hd =>
    split at h
    case h_2 => cases h
    case h_1 min s₁ =>
      obtain ⟨hne, -, -, rfl⟩ := eq_of_decimal? hd
      have hs := digits_append_behindDigits s
      have hdigits := isNumeral_digits hne
      generalize digits s = ds at hs hdigits
      split at h
      case h_1 r₁ hr =>
        rw [eq_of_after? hr (by decide)] at hs
        exact ⟨_, .exactly hdigits, r₁, by rw [← hs]; simp⟩
      case h_2 =>
        split at h
        case h_2 => cases h
        case h_1 s₂ hs₂ =>
          rw [eq_of_after? hs₂ (by decide)] at hs
          split at h
          case h_1 r₁ hr =>
            rw [eq_of_after? hr (by decide)] at hs
            exact ⟨_, .atLeast hdigits, r₁, by rw [← hs]; simp⟩
          case h_2 =>
            split at h
            · cases h
            case h_2 second hd₂ =>
              split at h
              case h_2 => cases h
              case h_1 max s₃ =>
                obtain ⟨hne₂, -, -, rfl⟩ := eq_of_decimal? hd₂
                obtain ⟨r₁, hr, -⟩ := Option.map_eq_some_iff.mp (Except.ok.inj h)
                have hs₂ := digits_append_behindDigits s₂
                have hdigits₂ := isNumeral_digits hne₂
                generalize digits s₂ = es at hs₂ hdigits₂
                rw [eq_of_after? hr (by decide)] at hs₂
                refine ⟨_, .between hdigits hdigits₂, r₁, ?_⟩
                rw [← hs, ← hs₂]
                simp

/-- Behind a brace that begins no quantifier, there are no bounds, or a number is too large. -/
theorem braceBounds?_of_not_quantifier
    (hs : ∀ t, IsBraceQuantifier t → ¬t <+: CodePoint.ofChar '{' :: s)
    (h : ∀ place, ¬Overflows s place) : braceBounds? s = .ok none := by
  cases hb : braceBounds? s with
  | error f =>
    obtain ⟨place, hplace, -⟩ := braceBounds?_error_iff.mp hb
    exact absurd hplace (h place)
  | ok bounds =>
    cases bounds with
    | none => rfl
    | some bounds =>
      obtain ⟨t, ht, hbegins⟩ := quantifier_of_braceBounds? hb
      exact absurd hbegins (hs t ht)

/-! ## Reading on at a brace -/

theorem bounds?_brace (s : Input) : bounds? (CodePoint.ofChar '{' :: s) = braceBounds? s := by
  rw [bounds?, CodePoint.toChar_ofChar]
  rfl

theorem repeated_of_bounds?_none (t : Term) (h : bounds? s = .ok none) :
    repeated t s = .ok (t, s) := by
  simp only [repeated, quantifier?, h, bind, Except.bind, pure, Except.pure]

theorem repeated_of_bounds?_error (t : Term) (h : bounds? s = .error f) :
    repeated t s = .error f := by
  simp only [repeated, quantifier?, h, bind, Except.bind]

variable (names : List String)

theorem element_brace (h : braceBounds? s = .ok none) :
    element names (CodePoint.ofChar '{' :: s) =
      .ok (.term (.char (.literal (CodePoint.ofChar '{'))), s) := by
  simp [element, peek_succ_cons, quantifierAhead, h]

theorem element_brace_error (h : braceBounds? s = .error f) :
    element names (CodePoint.ofChar '{' :: s) =
      .error ⟨.nothingToRepeat, CodePoint.ofChar '{' :: s⟩ := by
  simp [element, peek_succ_cons, quantifierAhead, h]

theorem element_escaped_brace (s : Input) :
    element names (CodePoint.ofChar '\\' :: CodePoint.ofChar '{' :: s) =
      .ok (.term (.char (.literal (CodePoint.ofChar '{'))), s) := by
  have hchar (start : Input) : charEscape start (CodePoint.ofChar '{' :: s) =
      .ok (CodePoint.ofChar '{', s) := by
    simp [charEscape]
  rw [element_escape names (by decide) (by decide), termEscape_literal (by decide), hchar]
  rfl

variable {names} {stack : List OpenGroup} {p : OpenPattern} {t : Term}

/-- Two inputs that begin with the same term and go on in the same way are read in the same way. -/
theorem patternFrom_congr {s' : Input} (hs : ∀ c ∈ peek? s, c ∉ ['|', ')'])
    (hs' : ∀ c ∈ peek? s', c ∉ ['|', ')']) (he : element names s = .ok (.term t, r))
    (he' : element names s' = .ok (.term t, r)) :
    patternFrom stack p names s = patternFrom stack p names s' := by
  rw [patternFrom_element (ne_nil_of_element he) hs, he,
    patternFrom_element (ne_nil_of_element he') hs', he']

/-- Behind a term that begins a text, the text fails within what the term leaves. -/
theorem within_of_patternFrom (hs : ∀ c ∈ peek? s, c ∉ ['|', ')'])
    (he : element names s = .ok (.term t, r)) (h : patternFrom [] p names s = .error f) :
    f.Within r := by
  rw [patternFrom_element (ne_nil_of_element he) hs, he] at h
  dsimp only at h
  split at h
  case h_1 e hu =>
    cases h
    exact repeated_error hu
  case h_2 u r' hu =>
    exact patternFrom_error (repeated_suffix hu) (fun g hg => absurd hg List.not_mem_nil) h

end Input

/-! ## Patterns -/

/-- The error one code point later. -/
def SyntaxError.later (e : SyntaxError) : SyntaxError := { e with position := e.position + 1 }

namespace Pattern

open Input

/-- Between the two texts, a brace reads as if it were escaped: to the same pattern, or with the
    same error, which the escaped text has one code point later. -/
def ReadsAsLiteral (before behind : Input) : Prop :=
  parse (before ++ (ofChars ['\\', '{'] ++ behind)) =
    (parse (before ++ (ofChars ['{'] ++ behind))).mapError SyntaxError.later

theorem readsAsLiteral_of_patternFrom {before behind : Input}
    (h : patternFrom [] {} [] (before ++ (ofChars ['{'] ++ behind)) =
      patternFrom [] {} [] (before ++ (ofChars ['\\', '{'] ++ behind))) :
    ReadsAsLiteral before behind := by
  rw [ReadsAsLiteral, parse_eq, parse_eq, ← h]
  cases hf : patternFrom [] {} [] (before ++ (ofChars ['{'] ++ behind)) with
  | ok p => rfl
  | error f =>
    have hwithin : f.Within (before ++ (ofChars ['{'] ++ behind)) :=
      patternFrom_error (List.suffix_refl _) (fun g hg => absurd hg List.not_mem_nil) hf
    have hle := hwithin.place_suffix.length_le
    refine congrArg Except.error (congrArg (SyntaxError.mk f.cause) ?_)
    show _ - _ = _ - _ + 1
    simp only [List.length_append, ofChars, List.length_map, List.length_cons,
      List.length_nil] at hle ⊢
    omega

variable {w : Input}

theorem not_closing_of_ofChar {c : Char} (hc : c ∉ ['|', ')']) (s : Input) :
    ∀ c' ∈ peek? (CodePoint.ofChar c :: s), c' ∉ ['|', ')'] := by
  intro c' hc'
  rw [peek?_cons, CodePoint.toChar_ofChar] at hc'
  rwa [← Option.some.inj hc']

/-- At the beginning of a pattern or behind a term, a brace without bounds reads as a literal. -/
theorem readsAsLiteral_of_braceBounds? (h : braceBounds? w = .ok none) :
    ReadsAsLiteral (ofChars ['a']) w ∧ ReadsAsLiteral [] w := by
  have hbrace (p : OpenPattern) : patternFrom [] p [] (CodePoint.ofChar '{' :: w) =
      patternFrom [] p [] (CodePoint.ofChar '\\' :: CodePoint.ofChar '{' :: w) :=
    patternFrom_congr (not_closing_of_ofChar (by decide) _) (not_closing_of_ofChar (by decide) _)
      (element_brace [] h) (element_escaped_brace [] w)
  refine ⟨readsAsLiteral_of_patternFrom ?_, readsAsLiteral_of_patternFrom (hbrace {})⟩
  have hterm (s : Input) (hs : bounds? s = .ok none) :
      patternFrom [] {} [] (CodePoint.ofChar 'a' :: s) =
        patternFrom [] (OpenPattern.addTerm {} (.char (.literal (CodePoint.ofChar 'a')))) [] s :=
    patternFrom_term (not_closing_of_ofChar (by decide) s) (element_plain [] (by decide) s)
      (repeated_of_bounds?_none _ hs)
  have hbounds : bounds? (CodePoint.ofChar '{' :: w) = .ok none := (bounds?_brace w).trans h
  have hescaped : bounds? (CodePoint.ofChar '\\' :: CodePoint.ofChar '{' :: w) = .ok none := by
    rw [bounds?, CodePoint.toChar_ofChar]
    rfl
  exact (hterm _ hbounds).trans ((hbrace _).trans (hterm _ hescaped).symm)

theorem parse_overflow {place : Input} (h : Overflows w place) :
    parse (ofChars ['a', '{'] ++ w) =
        .error ⟨.numberTooLarge, 2 + (w.length - place.length)⟩ ∧
      parse (ofChars ['{'] ++ w) = .error ⟨.nothingToRepeat, 0⟩ := by
  have hle := h.suffix.length_le
  have hbounds := (bounds?_brace w).trans h.braceBounds?_eq
  have hterm : patternFrom [] {} [] (ofChars ['a', '{'] ++ w) =
      .error ⟨.numberTooLarge, place⟩ := by
    show patternFrom [] {} [] (CodePoint.ofChar 'a' :: CodePoint.ofChar '{' :: w) = _
    have hs := not_closing_of_ofChar (c := 'a') (by decide) (CodePoint.ofChar '{' :: w)
    rw [patternFrom_element (List.cons_ne_nil _ _) hs, element_plain [] (by decide)]
    dsimp only
    rw [repeated_of_bounds?_error _ hbounds]
  have hstart : patternFrom [] {} [] (ofChars ['{'] ++ w) =
      .error ⟨.nothingToRepeat, ofChars ['{'] ++ w⟩ := by
    show patternFrom [] {} [] (CodePoint.ofChar '{' :: w) = _
    have hs := not_closing_of_ofChar (c := '{') (by decide) w
    rw [patternFrom_element (List.cons_ne_nil _ _) hs, element_brace_error [] h.braceBounds?_eq]
    rfl
  constructor
  · rw [parse_eq, hterm]
    refine congrArg Except.error (congrArg (SyntaxError.mk _) ?_)
    show (ofChars ['a', '{'] ++ w).length - place.length = _
    simp only [List.length_append, ofChars, List.length_map, List.length_cons, List.length_nil]
    omega
  · rw [parse_eq, hstart]
    exact congrArg Except.error (congrArg (SyntaxError.mk _) (Nat.sub_self _))

/-- Behind an escaped brace at the beginning, no error is found at the brace itself. -/
theorem position_of_escaped_brace {e : SyntaxError}
    (h : parse (ofChars ['\\', '{'] ++ w) = .error e) : 2 ≤ e.position := by
  rw [parse_eq] at h
  cases hf : patternFrom [] {} [] (ofChars ['\\', '{'] ++ w) with
  | ok p =>
    rw [hf] at h
    cases h
  | error f =>
    rw [hf] at h
    cases h
    have hwithin : f.Within w :=
      within_of_patternFrom (not_closing_of_ofChar (by decide) _) (element_escaped_brace [] w) hf
    have hle := hwithin.place_suffix.length_le
    show 2 ≤ (ofChars ['\\', '{'] ++ w).length - f.place.length
    simp only [List.length_append, ofChars, List.length_map, List.length_cons, List.length_nil]
    omega

/-- A brace that begins no quantifier reads as if it were escaped, both behind a term and at the
    beginning of a pattern, exactly if no number behind it is too large. Otherwise the number is
    reported as too large behind a term, and the brace as a quantifier without a term at the
    beginning. -/
theorem parse_brace_iff {w : Input}
    (hw : ∀ t, IsBraceQuantifier t → ¬t <+: ofChars ['{'] ++ w) :
    ((ReadsAsLiteral (ofChars ['a']) w ∧ ReadsAsLiteral [] w) ↔ ∀ place, ¬Overflows w place) ∧
    ∀ place, Overflows w place →
      parse (ofChars ['a', '{'] ++ w) =
        .error ⟨.numberTooLarge, 2 + (w.length - place.length)⟩ ∧
      parse (ofChars ['{'] ++ w) = .error ⟨.nothingToRepeat, 0⟩ := by
  refine ⟨⟨fun hliteral place hplace => ?_, fun h => ?_⟩, fun place => parse_overflow⟩
  · have hescaped : parse (ofChars ['\\', '{'] ++ w) = .error ⟨.nothingToRepeat, 1⟩ := by
      have hreads : parse (ofChars ['\\', '{'] ++ w) =
          (parse (ofChars ['{'] ++ w)).mapError SyntaxError.later := hliteral.2
      rw [hreads, (parse_overflow hplace).2]
      rfl
    -- an error one code point later would stand at the escaped brace itself
    exact absurd (position_of_escaped_brace hescaped) (by decide)
  · exact readsAsLiteral_of_braceBounds? (braceBounds?_of_not_quantifier hw h)

/-- Without a closing brace, `{1,2` reads as a literal. -/
theorem parse_brace_iff_of_unclosed :
    (∀ t, IsBraceQuantifier t → ¬t <+: ofChars ['{'] ++ ofChars ['1', ',', '2']) ∧
      ReadsAsLiteral (ofChars ['a']) (ofChars ['1', ',', '2']) ∧
      ReadsAsLiteral [] (ofChars ['1', ',', '2']) := by
  have hw : ∀ t, IsBraceQuantifier t → ¬t <+: ofChars ['{'] ++ ofChars ['1', ',', '2'] :=
    fun t ht hbegins => absurd (hbegins.subset ht.mem_close) (by decide)
  refine ⟨hw, (parse_brace_iff hw).1.mpr fun place h => ?_⟩
  cases h with
  | first h => exact absurd h (by decide)
  | second _ _ hcomma h =>
    have hplace : place = ofChars ['2'] := (List.cons.inj hcomma).2.symm
    rw [hplace] at h
    exact absurd h (by decide)

/-- The number in `a{4294967296` is reported as too large, although no closing brace follows and
    `a\{4294967296` is a pattern. -/
theorem parse_brace_of_large_number :
    (∀ t, IsBraceQuantifier t →
      ¬t <+: ofChars ['{'] ++ ofChars ['4', '2', '9', '4', '9', '6', '7', '2', '9', '6']) ∧
    ¬ReadsAsLiteral (ofChars ['a'])
      (ofChars ['4', '2', '9', '4', '9', '6', '7', '2', '9', '6']) := by
  refine ⟨fun t ht hbegins => absurd (hbegins.subset ht.mem_close) (by decide), fun h => ?_⟩
  have hplain : parse (Text.ofString "a\x7b4294967296").toList = .error ⟨.numberTooLarge, 2⟩ := by
    with_unfolding_all rfl
  have hescaped : ∃ p, parse (Text.ofString "a\\\x7b4294967296").toList = .ok p :=
    ⟨_, by with_unfolding_all rfl⟩
  obtain ⟨p, hp⟩ := hescaped
  have hreads : parse (Text.ofString "a\\\x7b4294967296").toList =
      (parse (Text.ofString "a\x7b4294967296").toList).mapError SyntaxError.later := h
  rw [hplain, hp] at hreads
  cases hreads

end Pattern

end Retrace
