import Retrace.Proofs.Syntax.Spelling

/-!
# Reading back elements

Each element of a pattern's canonical text, and each quantifier, is read back in front of any rest
of the text that does not go on with the same piece.

Results:

* `element_char`, `element_anchor`, `element_name`, `element_number`, `element_look`,
  `element_group`: what is read where an element was printed.
* `repeated_print`, `repeated_quiet`: what is read where a quantifier was printed, and where there
  is none.
-/

namespace Retrace

/-! ## Quantifiers -/

namespace Input

/-- Whether no quantifier begins the input. -/
def Quiet (s : Input) : Prop := ∀ c ∈ peek? s, c ∉ ['*', '+', '?', '{']

theorem beginsDecimal_ofChar {c : Char} (hc : isDecimal c = false) (s : Input) :
    beginsDecimal (CodePoint.ofChar c :: s) = false := by
  simpa [beginsDecimal] using hc

theorem braceBounds?_exact {n : Nat} (hn : n < numberBound) (r : Input) :
    braceBounds? (ofChars (Numeral.write 10 n) ++ CodePoint.ofChar '}' :: r) =
      .ok (some ((n, some n), r)) := by
  unfold braceBounds?
  rw [decimal?_write hn (beginsDecimal_ofChar (by decide) r)]
  simp [bind, Except.bind, pure, Except.pure, after?]

theorem braceBounds?_least {n : Nat} (hn : n < numberBound) (r : Input) :
    braceBounds? (ofChars (Numeral.write 10 n) ++
      CodePoint.ofChar ',' :: CodePoint.ofChar '}' :: r) = .ok (some ((n, none), r)) := by
  unfold braceBounds?
  rw [decimal?_write hn (beginsDecimal_ofChar (by decide) _)]
  simp [bind, Except.bind, pure, Except.pure, after?]

theorem braceBounds?_between {n m : Nat} (hn : n < numberBound) (hm : m < numberBound) (r : Input) :
    braceBounds? (ofChars (Numeral.write 10 n) ++ CodePoint.ofChar ',' ::
      (ofChars (Numeral.write 10 m) ++ CodePoint.ofChar '}' :: r)) =
        .ok (some ((n, some m), r)) := by
  obtain ⟨d, cs, hw, hd, _⟩ := Numeral.write_eq_cons (show 2 ≤ 10 by decide) m
  have hr : after? '}' (ofChars (Numeral.write 10 m) ++ CodePoint.ofChar '}' :: r) = none := by
    refine after?_eq_none fun he => ?_
    have he : Numeral.digitChar d = '}' := by simpa [hw] using he
    have := isDecimal_digitChar d hd
    simp [he, isDecimal] at this
  unfold braceBounds?
  rw [decimal?_write hn (beginsDecimal_ofChar (by decide) _)]
  simp only [bind, Except.bind, after?_ofChar]
  rw [after?_eq_none (by simp), hr, decimal?_write hm (beginsDecimal_ofChar (by decide) _)]
  simp [after?, pure, Except.pure]

theorem bounds?_print {min : Nat} {max : Option Nat} (hmin : min < numberBound)
    (hmax : ∀ m ∈ max, m < numberBound) (r : Input) :
    bounds? (ofChars (Quantifier.printBounds min max) ++ r) = .ok (some ((min, max), r)) := by
  have brace (s : Input) : bounds? (CodePoint.ofChar '{' :: s) = braceBounds? s := by
    simp [bounds?]
  unfold Quantifier.printBounds
  split
  · simp [bounds?]
  · simp [bounds?]
  · simp [bounds?]
  · simpa [brace] using braceBounds?_least hmin r
  case h_5 m _ =>
    have hm : m < numberBound := hmax m rfl
    split
    case isTrue he =>
      subst he
      simpa [brace] using braceBounds?_exact hmin r
    case isFalse => simpa [brace] using braceBounds?_between hmin hm r

theorem bounds?_quiet {s : Input} (hs : s.Quiet) : bounds? s = .ok none := by
  unfold bounds?
  split
  · rfl
  case h_2 cp s =>
    have hc : cp.toChar ∉ ['*', '+', '?', '{'] := hs _ rfl
    split
    case h_5 => rfl
    all_goals
      rename_i he
      simp [he] at hc

theorem quantifier?_print {q : Quantifier} (hq : q.Sound) {r : Input} (hr : peek? r ≠ some '?') :
    quantifier? (ofChars q.print ++ r) = .ok (some (q, r)) := by
  have hord : ¬(q.max.any (· < q.min)) := by
    rcases hm : q.max with _ | max
    · simp
    · simpa using hq.ordered max hm
  unfold quantifier? Quantifier.print
  rw [ofChars_append, List.append_assoc, bounds?_print hq.min_lt hq.max_lt]
  simp only [bind, Except.bind, if_neg hord]
  obtain ⟨min, max, lazy⟩ := q
  cases lazy with
  | true => simp [after?_ofChar, pure, Except.pure]
  | false =>
    rw [if_neg (by simp), ofChars_nil, List.nil_append, after?_eq_none hr]
    rfl

theorem quantifier?_quiet {s : Input} (hs : s.Quiet) : quantifier? s = .ok none := by
  unfold quantifier?
  rw [bounds?_quiet hs]
  rfl

/-- A quantified term is read back with its quantifier. -/
theorem repeated_print {t : Term} (ht : t.isAssertion = false) {q : Quantifier} (hq : q.Sound)
    {r : Input} (hr : peek? r ≠ some '?') :
    repeated t (ofChars q.print ++ r) = .ok (.repeated t q, r) := by
  unfold repeated
  rw [quantifier?_print hq hr]
  simp [bind, Except.bind, ht, pure, Except.pure]

theorem repeated_quiet (t : Term) {s : Input} (hs : s.Quiet) : repeated t s = .ok (t, s) := by
  unfold repeated
  rw [quantifier?_quiet hs]
  rfl

end Input

/-! ## Elements -/

theorem CodePoint.isSyntax_not_alnum (c : Char) (h : isSyntax c) :
    Input.isLetter c = false ∧ Input.isDecimal c = false := by
  have hall : (['^', '$', '\\', '.', '*', '+', '?', '(', ')', '[', ']', '{', '}', '|'].all
      fun c => !Input.isLetter c && !Input.isDecimal c) = true := by decide
  simpa using List.all_eq_true.1 hall c (by simpa [isSyntax] using h)

namespace Input

variable (names : List String)

theorem peek_succ_cons (n : Nat) (cp : CodePoint) (s : Input) :
    peek (n + 1) (cp :: s) = cp.toChar :: peek n s := rfl

theorem peek?_of_peek {n : Nat} {c : Char} {cs : List Char} {s : Input}
    (h : peek (n + 1) s = c :: cs) : peek? s = some c := by
  cases s with
  | nil => simp [peek] at h
  | cons cp s => rw [peek?_cons, (List.cons.inj h).1]

theorem exists_peek (n : Nat) {c : Char} {s : Input} (h : peek? s = some c) :
    ∃ cs, peek (n + 1) s = c :: cs := by
  cases s with
  | nil => cases h
  | cons cp s => exact ⟨peek n s, by rw [peek_succ_cons, Option.some.inj h]⟩

/-- A character without a meaning of its own is a literal. -/
theorem element_of_plain {cp : CodePoint}
    (hcp : cp.toChar ∉ ['^', '$', '\\', '(', '.', '[', '*', '+', '?', '{']) (s : Input) :
    element names (cp :: s) = .ok (.term (.char (.literal cp)), s) := by
  unfold element
  rw [peek_succ_cons]
  dsimp only
  split
  case h_17 => rfl
  all_goals
    rename_i h
    rw [(List.cons.inj h).1] at hcp
    exact absurd (by decide) hcp

/-- Behind a backslash, what is no word boundary is an escape. -/
theorem element_of_backslash {cp : CodePoint} {s : Input} (hcp : cp.toChar = '\\')
    (hb : peek? s ≠ some 'b') (hB : peek? s ≠ some 'B') :
    element names (cp :: s) = (termEscape (cp :: s) s).map fun (t, rest) => (.term t, rest) := by
  unfold element
  rw [peek_succ_cons, hcp]
  dsimp only
  split
  case h_3 h => exact absurd (peek?_of_peek (List.cons.inj h).2) hb
  case h_4 h => exact absurd (peek?_of_peek (List.cons.inj h).2) hB
  case h_12 => rfl
  case h_17 h _ _ _ _ => exact absurd rfl (h _)
  all_goals
    rename_i h
    exact absurd (List.cons.inj h).1 (by decide)

/-- Behind an opening parenthesis, what begins no lookaround begins a group. -/
theorem element_of_paren {cp : CodePoint} {s : Input} (hcp : cp.toChar = '(')
    (hlook : ∀ cs ∈ [['?', '='], ['?', '!'], ['?', '<', '='], ['?', '<', '!']],
      ¬cs <+: peek 3 s) :
    element names (cp :: s) = groupOpening names s := by
  unfold element
  rw [peek_succ_cons, hcp]
  dsimp only
  split
  case h_5 h => exact absurd ⟨_, (List.cons.inj h).2.symm⟩ (hlook ['?', '='] (by simp))
  case h_6 h => exact absurd ⟨_, (List.cons.inj h).2.symm⟩ (hlook ['?', '!'] (by simp))
  case h_7 h => exact absurd ⟨_, (List.cons.inj h).2.symm⟩ (hlook ['?', '<', '='] (by simp))
  case h_8 h => exact absurd ⟨_, (List.cons.inj h).2.symm⟩ (hlook ['?', '<', '!'] (by simp))
  case h_9 => rfl
  case h_17 h _ _ _ _ _ _ _ => exact absurd rfl (h _)
  all_goals
    rename_i h
    exact absurd (List.cons.inj h).1 (by decide)

theorem element_plain {c : Char} (hc : CodePoint.isSyntax c = false) (r : Input) :
    element names (CodePoint.ofChar c :: r) =
      .ok (.term (.char (.literal (CodePoint.ofChar c))), r) := by
  refine element_of_plain names (fun hmem => ?_) r
  rw [CodePoint.toChar_ofChar] at hmem
  have hall : (['^', '$', '\\', '(', '.', '[', '*', '+', '?', '{'].all CodePoint.isSyntax) = true :=
    by decide
  rw [List.all_eq_true.1 hall c hmem] at hc
  cases hc

theorem element_escape {c : Char} (hb : c ≠ 'b') (hB : c ≠ 'B') (s : Input) :
    element names (CodePoint.ofChar '\\' :: CodePoint.ofChar c :: s) =
      (termEscape (CodePoint.ofChar '\\' :: CodePoint.ofChar c :: s) (CodePoint.ofChar c :: s)).map
        fun (t, rest) => (.term t, rest) := by
  apply element_of_backslash
  · exact CodePoint.toChar_ofChar _
  · rw [peek?_cons, CodePoint.toChar_ofChar]
    exact fun h => hb (Option.some.inj h)
  · rw [peek?_cons, CodePoint.toChar_ofChar]
    exact fun h => hB (Option.some.inj h)

theorem termEscape_literal {c : Char} (hc : c ∉ reservedChars) (start s : Input) :
    termEscape start (CodePoint.ofChar c :: s) =
      (charEscape start (CodePoint.ofChar c :: s)).map
        fun (cp, rest) => (.char (.literal cp), rest) := by
  have hk : c ≠ 'k' := by
    rintro rfl
    exact hc (by decide)
  have hdigit : ¬('1' ≤ c ∧ c ≤ '9') := by
    rintro ⟨h1, h9⟩
    have h1 : 49 ≤ c.toNat := h1
    have h9 : c.toNat ≤ 57 := h9
    have hall : ∀ n < 58, 49 ≤ n → Char.ofNat n ∈ reservedChars := by decide
    have := hall c.toNat (by omega) h1
    rw [Char.ofNat_toNat] at this
    exact hc this
  unfold termEscape
  rw [classEscape?_none fun h => hc (List.mem_append_left _ h)]
  simp only [peek_succ_cons, CodePoint.toChar_ofChar]
  split
  case h_1 h => exact absurd (List.cons.inj h).1 hk
  case h_2 => simp [hdigit]

theorem ne_of_mem_classChars {c x : Char} (hc : c ∈ classChars) (hx : x ∉ classChars) : c ≠ x := by
  rintro rfl
  exact hx hc

theorem element_literal {cp : CodePoint} (hcp : cp ≤ CodePoint.last) (r : Input) :
    element names (ofChars (cp.print CodePoint.isSyntax) ++ r) =
      .ok (.term (.char (.literal cp)), r) := by
  have hs := CodePoint.print_spelled CodePoint.isSyntax_not_alnum hcp
  generalize cp.print CodePoint.isSyntax = text at hs
  cases hs with
  | plain hc heq =>
    rw [heq]
    exact element_plain names hc r
  | @escaped c cs hc hread =>
    have hb : c ≠ 'b' := by
      rintro rfl
      exact hc (by decide)
    have hB : c ≠ 'B' := by
      rintro rfl
      exact hc (by decide)
    show element names (CodePoint.ofChar '\\' :: CodePoint.ofChar c :: (ofChars cs ++ r)) = _
    rw [element_escape names hb hB, termEscape_literal hc]
    have hread := hread (CodePoint.ofChar '\\' :: CodePoint.ofChar c :: (ofChars cs ++ r)) r
    rw [ofChars_cons, List.cons_append] at hread
    rw [hread]
    rfl

theorem element_classEscape {e : ClassEscape} (he : e.Sound) (r : Input) :
    element names (ofChars e.print ++ r) = .ok (.term (.char (.escape e)), r) := by
  obtain ⟨c, cs, hp, hc⟩ := e.print_eq_cons
  have hread := classEscape?_print he (CodePoint.ofChar '\\' :: (ofChars e.print.tail ++ r)) r
  rw [hp] at hread ⊢
  simp only [List.tail_cons, ofChars_cons, List.cons_append] at hread ⊢
  rw [element_escape names (ne_of_mem_classChars hc (by decide))
    (ne_of_mem_classChars hc (by decide)), termEscape, hread]
  rfl

/-- What matches one code point is read back. -/
theorem element_char {e : CharExpr} (he : e.Sound)
    (hl : ∀ cp ∈ (Term.char e).literals, cp ≤ CodePoint.last) (r : Input) :
    element names (ofChars e.print ++ r) = .ok (.term (.char e), r) := by
  cases e with
  | literal cp =>
    have hcp : cp ≤ CodePoint.last := hl cp List.mem_cons_self
    exact element_literal names hcp r
  | any => simp [CharExpr.print, element, peek_succ_cons]
  | escape e => exact element_classEscape names he r
  | bracket negated members =>
    have hl : ∀ m ∈ members, ∀ cp ∈ m.literals, cp ≤ CodePoint.last := by
      intro m hm cp hcp
      exact hl cp (List.mem_flatMap.2 ⟨m, hm, hcp⟩)
    have hread := bracketClass_print negated he hl
    show element names (CodePoint.ofChar '[' :: (ofChars _ ++ r)) = _
    unfold element
    simp only [peek_succ_cons, CodePoint.toChar_ofChar, hread]
    rfl

theorem element_anchor (a : Anchor) (r : Input) :
    element names (ofChars a.print ++ r) = .ok (.term (.anchor a), r) := by
  rcases a with _ | _ | negated
  · simp [Anchor.print, element, peek_succ_cons]
  · simp [Anchor.print, element, peek_succ_cons]
  · cases negated <;> simp [Anchor.print, element, peek_succ_cons]

theorem element_name {name : String} (hn : IsGroupName name) (r : Input) :
    element names (ofChars (GroupKey.name name).print ++ r) =
      .ok (.term (.backreference (.name name)), r) := by
  have htext : ofChars (GroupKey.name name).print ++ r = CodePoint.ofChar '\\' ::
      CodePoint.ofChar 'k' :: CodePoint.ofChar '<' ::
        (ofChars name.toList ++ CodePoint.ofChar '>' :: r) := by
    simp [GroupKey.print]
  rw [htext, element_escape names (by decide) (by decide), termEscape,
    classEscape?_none (by decide)]
  simp only [peek, List.drop_succ_cons, List.drop_zero]
  rw [groupName_print hn]
  rfl

/-- A number of a group goes on as far as digits do. -/
theorem element_number {n : Nat} (hn : 0 < n) (hlt : n < numberBound) (r : Input) :
    element names (ofChars (GroupKey.number n).print ++ r) =
      (decimalFrom (ofChars (Numeral.write 10 n) ++ r) n r).map
        fun (n, r) => (.term (.backreference (.number n)), r) := by
  obtain ⟨d, cs, hw, hd, hpos⟩ := Numeral.write_eq_cons (show 2 ≤ 10 by decide) n
  have hall : ∀ d < 10, 0 < d → Numeral.digitChar d ∉ classChars ∧ Numeral.digitChar d ≠ 'b' ∧
      Numeral.digitChar d ≠ 'B' ∧ Numeral.digitChar d ≠ 'k' ∧
        ('1' ≤ Numeral.digitChar d && Numeral.digitChar d ≤ '9') = true := by decide
  obtain ⟨hc, hb, hB, hk, hdigit⟩ := hall d hd (hpos hn)
  have hread (start : Input) : decimalFrom start 0 (ofChars (Numeral.write 10 n) ++ r) =
      decimalFrom start n r := decimalFrom_write hlt r
  show element names (CodePoint.ofChar '\\' :: (ofChars (Numeral.write 10 n) ++ r)) = _
  rw [hw] at hread ⊢
  rw [ofChars_cons, List.cons_append] at hread ⊢
  rw [element_escape names hb hB, termEscape, classEscape?_none hc]
  simp only [peek_succ_cons, CodePoint.toChar_ofChar]
  split
  case h_1 h => exact absurd (List.cons.inj h).1 hk
  case h_2 =>
    rw [if_pos (by simpa using hdigit), hread]
    generalize decimalFrom _ n r = x
    cases x <;> rfl

theorem element_look (dir : Direction) (negated : Bool) (r : Input) :
    element names (ofChars (dir.printOpening negated) ++ r) =
      .ok (.opening (.look dir negated) names, r) := by
  cases dir <;> cases negated <;> simp [Direction.printOpening, element, peek_succ_cons]

theorem element_capture {r : Input} (hr : peek? r ≠ some '?') :
    element names (CodePoint.ofChar '(' :: r) =
      .ok (.opening (.group ⟨some 0, none⟩) names, r) := by
  rw [element_of_paren names (CodePoint.toChar_ofChar _), groupOpening, after?_eq_none hr]
  rintro cs hcs ⟨es, hes⟩
  have hmark : cs.head? = some '?' := by
    simp only [List.mem_cons, List.not_mem_nil, or_false] at hcs
    rcases hcs with rfl | rfl | rfl | rfl <;> rfl
  obtain ⟨cs, rfl⟩ := List.head?_eq_some_iff.mp hmark
  exact hr (peek?_of_peek hes.symm)

theorem element_named {name : String} (hv : IsGroupName name) (hn : name ∉ names) (r : Input) :
    element names (CodePoint.ofChar '(' :: CodePoint.ofChar '?' :: CodePoint.ofChar '<' ::
        (ofChars name.toList ++ CodePoint.ofChar '>' :: r)) =
      .ok (.opening (.group ⟨some 0, some name⟩) (name :: names), r) := by
  have hopen : groupOpening names (CodePoint.ofChar '?' :: CodePoint.ofChar '<' ::
      (ofChars name.toList ++ CodePoint.ofChar '>' :: r)) =
        .ok (.opening (.group ⟨some 0, some name⟩) (name :: names), r) := by
    rw [groupOpening, after?_ofChar]
    dsimp only
    rw [after?_eq_none (by simp), after?_ofChar]
    dsimp only
    rw [groupName_print hv]
    exact if_neg hn
  obtain ⟨c, cs, hl⟩ : ∃ c cs, name.toList = c :: cs := by
    rcases hl : name.toList with _ | ⟨c, cs⟩
    · exact absurd (by simp [hl]) hv.2
    · exact ⟨c, cs, rfl⟩
  have hc : isNameChar c := List.all_eq_true.1 hv.1 c (by simp [hl])
  have hx {x : Char} (hx : isNameChar x = false) : c ≠ x := by
    rintro rfl
    simp [hc] at hx
  have heq : '=' ≠ c := (hx (by decide)).symm
  have hbang : '!' ≠ c := (hx (by decide)).symm
  rw [hl] at hopen ⊢
  rw [element_of_paren names (CodePoint.toChar_ofChar _)]
  · exact hopen
  · simp [ofChars_cons, peek_succ_cons, heq, hbang]

theorem element_group {tag : GroupTag} (ht : tag.Sound) (hn : ∀ name ∈ tag.name, name ∉ names)
    {r : Input} (hr : peek? r ≠ some '?') :
    element names (ofChars tag.printOpening ++ r) =
      .ok (.opening (.group tag) (tag.name.toList ++ names), r) := by
  obtain ⟨number, name⟩ := tag
  rcases number with _ | n
  · have hname : name = none := ht
    subst hname
    simp [GroupTag.printOpening, element, peek_succ_cons, groupOpening, after?]
  · obtain ⟨hzero, hvalid⟩ := ht
    have hzero : n = 0 := hzero
    subst hzero
    rcases name with _ | name
    · exact element_capture names hr
    · have hread := element_named names (hvalid name rfl) (hn name rfl) r
      simpa [GroupTag.printOpening] using hread

end Input

end Retrace
