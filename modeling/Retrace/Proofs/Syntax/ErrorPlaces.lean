import Retrace.Proofs.Syntax.Decimals

/-!
# What syntax errors point at

The place of a syntax error is the rest of the text from the code point that the error is about. For
some causes this is where something begins that does not end or is not known, for others it is where
the reader stopped; what stands right before or behind the place tells the two apart.

Each reader fails within the input that it was given, so that the place is one of the text, and only
a group or a name that breaks off can be missed at the very end of it.

Results:

* `SyntaxCause.About`: what an error of each cause points at.
* `Input.element_error`, `Input.patternFrom_error`: an error met while reading is about its place.
* `Pattern.parse_error`: the position of an error lies within the text and is what it is about.
-/

namespace Retrace

open Input in
/-- What an error of the cause is about, in a text that is parted into what stands `before` the
    place of the error and what stands `behind`, from the place on. -/
def SyntaxCause.About (before behind : Input) : SyntaxCause → Prop
  | unmatchedParen => ofChars [')'] <+: behind
  | unterminatedGroup => ofChars ['('] <+: behind
  | invalidGroup => ofChars ['(', '?'] <:+ before
  | invalidGroupName => ofChars ['<'] <:+ before
  | duplicateGroupName name =>
    ofChars ['<'] <:+ before ∧ ofChars (name.toList ++ ['>']) <+: behind
  | nothingToRepeat => ∃ c ∈ ['*', '+', '?', '{'], ofChars [c] <+: behind
  | quantifierOutOfOrder => ofChars ['{'] <+: behind
  | numberTooLarge => ∃ c, isDecimal c ∧ ofChars [c] <+: behind
  | unterminatedClass => ofChars ['['] <+: behind
  | rangeOutOfOrder | invalidClassRange => behind ≠ [] ∧ CodePoint.ofChar '[' ∈ before
  | trailingBackslash => behind = ofChars ['\\']
  | invalidUnicodeEscape => ofChars ['\\', 'u', '{'] <+: behind
  | invalidPropertyEscape => ∃ c ∈ ['p', 'P'], ofChars ['\\', c] <+: behind
  | unknownProperty text => ∃ c ∈ ['p', 'P'], ∃ body : Input, Text.decode body = text ∧
    ofChars ['\\', c, '{'] ++ body ++ ofChars ['}'] <+: behind

theorem SyntaxCause.About.append {cause : SyntaxCause} {before behind : Input}
    (h : cause.About before behind) (more : Input) : cause.About (more ++ before) behind := by
  cases cause with
  | invalidGroup | invalidGroupName => exact h.trans (List.suffix_append _ _)
  | duplicateGroupName => exact ⟨h.1.trans (List.suffix_append _ _), h.2⟩
  | rangeOutOfOrder | invalidClassRange => exact ⟨h.1, List.mem_append_right _ h.2⟩
  | _ => exact h

/-- The failure is met within the input, at a place that it is about. -/
def Failure.Within (f : Failure) (s : Input) : Prop :=
  ∃ before, s = before ++ f.place ∧ f.cause.About before f.place

namespace Failure

variable {f : Failure} {s t : Input}

theorem Within.mono (h : f.Within s) (hs : s <:+ t) : f.Within t := by
  obtain ⟨before, hplace, habout⟩ := h
  obtain ⟨more, rfl⟩ := hs
  exact ⟨more ++ before, by rw [hplace, List.append_assoc], habout.append more⟩

/-- A failure at the beginning of an input is within it. -/
theorem within_self {cause : SyntaxCause} (h : cause.About [] s) :
    (⟨cause, s⟩ : Failure).Within s := ⟨[], rfl, h⟩

theorem Within.place_suffix (h : f.Within s) : f.place <:+ s := by
  obtain ⟨before, hplace, -⟩ := h
  exact ⟨before, hplace.symm⟩

end Failure

theorem Reading.of_map_eq_error {α β : Type} {f : α → β} {x : Reading α} {e : Failure}
    (h : x.map f = .error e) : x = .error e := by
  cases x with
  | error => exact congrArg Except.error (Except.error.inj h)
  | ok => cases h

namespace Input

variable {f : Failure} {names : List String} {cp : CodePoint} {before start s r : Input}

/-! ## Single characters -/

theorem prefix_of_toChar {c : Char} (h : cp.toChar = c) (hc : c ≠ '\uFFFD') (s : Input) :
    ofChars [c] <+: cp :: s := by
  rw [(CodePoint.toChar_eq_iff hc).mp h]
  exact List.prefix_append [_] s

theorem toChar_of_peek {n : Nat} {c : Char} {cs : List Char} (h : peek n (cp :: s) = c :: cs) :
    cp.toChar = c := by
  cases n with
  | zero => cases h
  | succ n => exact (List.cons.inj h).1

theorem eq_of_toChar_isDecimal (h : isDecimal cp.toChar) : cp = CodePoint.ofChar cp.toChar := by
  refine (CodePoint.toChar_eq_iff fun heq => ?_).mp rfl
  rw [heq] at h
  exact absurd h (by decide)

/-- Characters that are not U+FFFD are read from their own code points. -/
theorem eq_ofChars_of_map {cs : List Char} (h : s.map CodePoint.toChar = cs) (hcs : '\uFFFD' ∉ cs) :
    s = ofChars cs := by
  rw [← h, ofChars, List.map_map]
  refine (List.map_id s).symm.trans (List.map_congr_left fun cp hcp => ?_)
  refine (CodePoint.toChar_eq_iff fun heq => hcs ?_).mp rfl
  rw [← h, ← heq]
  exact List.mem_map_of_mem hcp

/-! ## Numbers and quantifiers -/

theorem decimalFrom_error {value : Nat} (h : decimalFrom start value s = .error f) :
    f = ⟨.numberTooLarge, start⟩ := by
  induction s generalizing value with
  | nil => cases h
  | cons cp s ih =>
    rw [decimalFrom] at h
    split at h
    · cases h
    · split at h
      · exact ih h
      · exact (Except.error.inj h).symm

/-- A number that is too large points at its first digit. -/
theorem numberTooLarge_within (h : isDecimal cp.toChar) (s : Input) :
    (⟨.numberTooLarge, cp :: s⟩ : Failure).Within (cp :: s) := by
  refine Failure.within_self ⟨cp.toChar, h, ?_⟩
  rw [eq_of_toChar_isDecimal h, CodePoint.toChar_ofChar]
  exact List.prefix_append [_] s

theorem braceBounds?_error (h : braceBounds? s = .error f) : f.Within s := by
  obtain ⟨place, hplace, rfl⟩ := braceBounds?_error_iff.mp h
  refine Failure.Within.mono ?_ hplace.suffix
  cases place with
  | nil => exact absurd rfl hplace.digits_ne
  | cons cp rest => exact numberTooLarge_within (isDecimal_of_digits_ne hplace.digits_ne) rest

/-- What a quantifier can begin with. -/
theorem head_of_bounds? {b : Nat × Option Nat} (h : bounds? s = .ok (some (b, r))) :
    ∃ c ∈ ['*', '+', '?', '{'], ofChars [c] <+: s := by
  unfold bounds? at h
  split at h
  · cases h
  case h_2 cp s =>
    split at h
    case h_5 => cases h
    case h_1 heq => exact ⟨'*', by decide, prefix_of_toChar heq (by decide) s⟩
    case h_2 heq => exact ⟨'+', by decide, prefix_of_toChar heq (by decide) s⟩
    case h_3 heq => exact ⟨'?', by decide, prefix_of_toChar heq (by decide) s⟩
    case h_4 heq => exact ⟨'{', by decide, prefix_of_toChar heq (by decide) s⟩

/-- Only bounds in braces can be out of order. -/
theorem brace_of_bounds? {min max : Nat} (h : bounds? s = .ok (some ((min, some max), r)))
    (hlt : max < min) : ofChars ['{'] <+: s := by
  unfold bounds? at h
  split at h
  · cases h
  case h_2 cp s =>
    split at h
    case h_4 heq => exact prefix_of_toChar heq (by decide) s
    case h_3 =>
      cases h
      exact absurd hlt (Nat.not_lt_zero _)
    all_goals cases h

theorem bounds?_error (h : bounds? s = .error f) : f.Within s := by
  unfold bounds? at h
  split at h
  · cases h
  · split at h
    case h_4 => exact (braceBounds?_error h).mono (List.suffix_cons _ _)
    all_goals cases h

theorem quantifier?_error (h : quantifier? s = .error f) : f.Within s := by
  simp only [quantifier?, bind, Except.bind, pure, Except.pure] at h
  split at h
  case h_1 e hb =>
    cases h
    exact bounds?_error hb
  case h_2 b hb =>
    split at h
    case h_2 => cases h
    case h_1 min max s₁ =>
      split at h
      case isTrue hany =>
        cases h
        obtain ⟨max, rfl, hlt⟩ := (Option.any_eq_true _ _).mp hany
        exact Failure.within_self (brace_of_bounds? hb (of_decide_eq_true hlt))
      case isFalse => split at h <;> cases h

theorem head_of_quantifier? {q : Quantifier} (h : quantifier? s = .ok (some (q, r))) :
    ∃ c ∈ ['*', '+', '?', '{'], ofChars [c] <+: s := by
  simp only [quantifier?, bind, Except.bind, pure, Except.pure] at h
  split at h
  · cases h
  case h_2 b hb =>
    split at h
    case h_2 => cases h
    case h_1 min max s₁ => exact head_of_bounds? hb

theorem repeated_error {t : Term} (h : repeated t s = .error f) : f.Within s := by
  simp only [repeated, bind, Except.bind, pure, Except.pure] at h
  split at h
  case h_1 e hq =>
    cases h
    exact quantifier?_error hq
  case h_2 q hq =>
    split at h
    case h_2 => cases h
    case h_1 q s₁ =>
      split at h
      · cases h
        exact Failure.within_self (head_of_quantifier? hq)
      · cases h

/-! ## Escapes -/

theorem bracedHexFrom_error {value : Option Nat} (h : bracedHexFrom start value s = .error f) :
    f = ⟨.invalidUnicodeEscape, start⟩ := by
  induction s generalizing value with
  | nil => exact (Except.error.inj h).symm
  | cons cp s ih =>
    unfold bracedHexFrom at h
    split at h
    · split at h
      · exact (Except.error.inj h).symm
      · exact ih h
    · split at h
      · split at h
        · cases h
        · exact (Except.error.inj h).symm
      · exact (Except.error.inj h).symm

theorem charEscape_error (h : charEscape (CodePoint.ofChar '\\' :: s) s = .error f) :
    f.Within (CodePoint.ofChar '\\' :: s) := by
  unfold charEscape at h
  split at h
  · cases h
    exact Failure.within_self rfl
  case h_2 cp s =>
    split at h
    case h_7 => split at h <;> first | cases h | (split at h <;> cases h)
    case h_9 heq =>
      split at h
      case h_1 rest hrest =>
        rw [bracedHexFrom_error h, (CodePoint.toChar_eq_iff (by decide)).mp heq,
          eq_of_after? hrest (by decide)]
        exact Failure.within_self (List.prefix_append [_, _, _] rest)
      · cases h
    all_goals cases h

theorem propertyClass_error {negated : Bool} {text : List Char}
    (h : propertyClass start negated text = .error f) :
    f = ⟨.invalidPropertyEscape, start⟩ ∨ f = ⟨.unknownProperty (String.ofList text), start⟩ := by
  dsimp only [propertyClass] at h
  split at h
  · exact .inl (Except.error.inj h).symm
  · split at h
    · cases h
    · exact .inr (Except.error.inj h).symm

/-- What is read up to a closing brace stands before the brace. -/
theorem eq_append_of_dropWhile (h : (s.dropWhile fun cp => cp.toChar ≠ '}') = cp :: r) :
    s = (s.takeWhile fun cp => cp.toChar ≠ '}') ++ CodePoint.ofChar '}' :: r := by
  have hcp : cp.toChar = '}' := by
    have hhead := List.head_dropWhile_not (fun cp : CodePoint => cp.toChar ≠ '}')
      (h ▸ List.cons_ne_nil cp r)
    simpa only [h, List.head_cons, decide_eq_false_iff_not, ne_eq, not_not] using hhead
  rw [← (CodePoint.toChar_eq_iff (by decide)).mp hcp, ← h, List.takeWhile_append_dropWhile]

theorem propertyEscape_error {negated : Bool} {c : Char} (hc : c ∈ ['p', 'P'])
    (h : propertyEscape (ofChars ['\\', c] ++ s) negated s = .error f) :
    f.Within (ofChars ['\\', c] ++ s) := by
  have invalid : (⟨.invalidPropertyEscape, ofChars ['\\', c] ++ s⟩ : Failure).Within
      (ofChars ['\\', c] ++ s) :=
    Failure.within_self ⟨c, hc, List.prefix_append _ s⟩
  unfold propertyEscape at h
  split at h
  · cases h
    exact invalid
  case h_2 s₁ hs₁ =>
    split at h
    · cases h
      exact invalid
    case h_2 brace rest hrest =>
      split at h
      · cases h
      case h_2 e he =>
        cases h
        rcases propertyClass_error he with rfl | rfl
        · exact invalid
        · refine Failure.within_self ⟨c, hc, s₁.takeWhile fun cp => cp.toChar ≠ '}', rfl, rest, ?_⟩
          have hsplit := eq_append_of_dropWhile hrest
          rw [eq_of_after? hs₁ (by decide)]
          generalize (s₁.takeWhile fun cp => cp.toChar ≠ '}') = body at hsplit
          rw [hsplit]
          simp

theorem classEscape?_error (h : classEscape? (CodePoint.ofChar '\\' :: s) s = .error f) :
    f.Within (CodePoint.ofChar '\\' :: s) := by
  unfold classEscape? at h
  split at h
  · cases h
  case h_2 cp s =>
    split at h
    case h_7 heq =>
      rw [(CodePoint.toChar_eq_iff (by decide)).mp heq] at h ⊢
      exact propertyEscape_error (by decide) (Reading.of_map_eq_error h)
    case h_8 heq =>
      rw [(CodePoint.toChar_eq_iff (by decide)).mp heq] at h ⊢
      exact propertyEscape_error (by decide) (Reading.of_map_eq_error h)
    all_goals cases h

/-! ## Bracket classes -/

theorem bracketAtom_error (hs : s ≠ []) (h : bracketAtom s = .error f) : f.Within s := by
  unfold bracketAtom at h
  split at h
  · exact absurd rfl hs
  case h_2 cp s =>
    split at h
    case isTrue heq =>
      rw [(CodePoint.toChar_eq_iff (by decide)).mp heq] at h ⊢
      split at h
      case h_1 e he =>
        cases h
        exact classEscape?_error he
      · cases h
      · split at h
        · cases h
        · exact charEscape_error (Reading.of_map_eq_error h)
    case isFalse => cases h

/-- A member of a class fails within one of its atoms, or as a range where it begins. -/
theorem bracketMember_error (hs : s ≠ []) (hbefore : CodePoint.ofChar '[' ∈ before)
    (h : bracketMember s = .error f) : f.Within (before ++ s) := by
  have hsuffix : s <:+ before ++ s := List.suffix_append before s
  simp only [bracketMember, bind, Except.bind, pure, Except.pure] at h
  split at h
  case h_1 e he =>
    cases h
    exact (bracketAtom_error hs he).mono hsuffix
  case h_2 x hx =>
    split at h
    case isFalse => cases h
    case isTrue hrange =>
      split at h
      case h_1 e he =>
        cases h
        have hne : x.2.drop 1 ≠ [] := by
          intro hnil
          rcases hr : x.2 with _ | ⟨hyphen, _ | ⟨c, rest⟩⟩
          · simp [rangeAhead, hr, peek] at hrange
          · simp [rangeAhead, hr, peek] at hrange
          · simp [hr] at hnil
        refine (bracketAtom_error hne he).mono (((List.drop_suffix 1 x.2).trans ?_).trans hsuffix)
        exact (bracketAtom_shorter hx).1
      case h_2 y hy =>
        split at h
        · split at h
          · cases h
            exact ⟨before, rfl, hs, hbefore⟩
          · cases h
        · cases h
          exact ⟨before, rfl, hs, hbefore⟩

theorem bracketMembers_error (hstart : start = before ++ s) (hopen : ofChars ['['] <+: start)
    (hbefore : CodePoint.ofChar '[' ∈ before) (h : bracketMembers start s = .error f) :
    f.Within start := by
  fun_induction bracketMembers start s generalizing before with
  | case1 =>
    cases h
    exact Failure.within_self hopen
  | case2 => cases h
  | case3 cp rest hne e he =>
    cases h
    rw [hstart]
    exact bracketMember_error (List.cons_ne_nil _ _) hbefore he
  | case4 cp rest hne m rest₁ hm e hms ih =>
    cases h
    -- the member that was read now stands before the rest
    obtain ⟨read, hread⟩ := (bracketMember_shorter hm).1
    refine ih ?_ (List.mem_append_left read hbefore) hms
    rw [hstart, ← hread, List.append_assoc]
  | case5 => cases h

theorem bracketClass_error (h : bracketClass (CodePoint.ofChar '[' :: s) s = .error f) :
    f.Within (CodePoint.ofChar '[' :: s) := by
  have hopen : ofChars ['['] <+: CodePoint.ofChar '[' :: s := List.prefix_append [_] s
  unfold bracketClass at h
  split at h
  case h_1 r hr =>
    have hstart : CodePoint.ofChar '[' :: s = ofChars ['[', '^'] ++ r := by
      rw [eq_of_after? hr (by decide)]
      rfl
    exact bracketMembers_error hstart hopen List.mem_cons_self (Reading.of_map_eq_error h)
  case h_2 =>
    have hstart : CodePoint.ofChar '[' :: s = ofChars ['['] ++ s := rfl
    exact bracketMembers_error hstart hopen List.mem_cons_self (Reading.of_map_eq_error h)

/-! ## Groups -/

theorem groupName_error (h : groupName s = .error f) : f = ⟨.invalidGroupName, s⟩ := by
  simp only [groupName] at h
  split at h
  · split at h
    · exact (Except.error.inj h).symm
    · cases h
  · exact (Except.error.inj h).symm

/-- The name of a group stands in the text as it reads. -/
theorem prefix_of_groupName {name : String} (h : groupName s = .ok (name, r)) :
    ofChars (name.toList ++ ['>']) <+: s := by
  simp only [groupName] at h
  split at h
  case h_2 => cases h
  case h_1 rest hrest =>
    split at h
    · cases h
    · cases h
      rw [String.toList_ofList]
      generalize hname : (s.map CodePoint.toChar).takeWhile isNameChar = name at hrest
      have htake : (s.take name.length).map CodePoint.toChar = name := by
        rw [List.map_take, ← hname]
        exact (List.prefix_iff_eq_take.mp (List.takeWhile_prefix _)).symm
      have hchars : '\uFFFD' ∉ name := by
        intro hmem
        rw [← hname] at hmem
        exact absurd (List.mem_takeWhile_imp hmem) (by decide)
      have hsplit := List.take_append_drop name.length s
      rw [eq_ofChars_of_map htake hchars, eq_of_after? hrest (by decide)] at hsplit
      refine ⟨r, ?_⟩
      rw [← hsplit, ofChars_append, List.append_assoc]
      rfl

theorem groupOpening_error (h : groupOpening names s = .error f) :
    f.Within (CodePoint.ofChar '(' :: s) := by
  unfold groupOpening at h
  split at h
  · cases h
  case h_2 s₁ h₁ =>
    rw [eq_of_after? h₁ (by decide)]
    split at h
    · cases h
    · split at h
      · cases h
        exact ⟨ofChars ['(', '?'], rfl, List.suffix_refl _⟩
      case h_2 s₂ h₂ =>
        rw [eq_of_after? h₂ (by decide)]
        have hbefore : ofChars ['<'] <:+ ofChars ['(', '?', '<'] := ⟨ofChars ['(', '?'], rfl⟩
        split at h
        case h_1 e he =>
          cases h
          rw [groupName_error he]
          exact ⟨ofChars ['(', '?', '<'], rfl, hbefore⟩
        case h_2 name rest hname =>
          split at h
          · cases h
            exact ⟨ofChars ['(', '?', '<'], rfl, hbefore, prefix_of_groupName hname⟩
          · cases h

/-! ## Elements -/

theorem termEscape_error (h : termEscape (CodePoint.ofChar '\\' :: s) s = .error f) :
    f.Within (CodePoint.ofChar '\\' :: s) := by
  unfold termEscape at h
  split at h
  case h_1 e he =>
    cases h
    exact classEscape?_error he
  · cases h
  · split at h
    case h_1 hpeek =>
      rw [groupName_error (Reading.of_map_eq_error h)]
      have hsplit := List.take_append_drop 2 s
      rw [eq_ofChars_of_map hpeek (by decide)] at hsplit
      refine ⟨ofChars ['\\', 'k', '<'], ?_, ofChars ['\\', 'k'], rfl⟩
      exact congrArg (CodePoint.ofChar '\\' :: ·) hsplit.symm
    case h_2 =>
      split at h
      case isTrue hany =>
        rw [decimalFrom_error (Reading.of_map_eq_error h)]
        cases s with
        | nil => cases hany
        | cons cp s =>
          have hdigit : isDecimal cp.toChar := by
            have hrange : ('1' ≤ cp.toChar && cp.toChar ≤ '9') = true := hany
            rw [Bool.and_eq_true, decide_eq_true_eq] at hrange
            rw [isDecimal, Bool.and_eq_true, decide_eq_true_eq]
            exact ⟨Char.le_trans (by decide) hrange.1, hrange.2⟩
          exact (numberTooLarge_within hdigit s).mono (List.suffix_cons _ _)
      case isFalse => exact charEscape_error (Reading.of_map_eq_error h)

/-- An element fails within the input, at a place that the error is about. -/
theorem element_error (hs : s ≠ []) (h : element names s = .error f) : f.Within s := by
  unfold element at h
  split at h
  · exact absurd rfl hs
  case h_2 cp s =>
    split at h
    case h_9 hpeek =>
      rw [(CodePoint.toChar_eq_iff (by decide)).mp (toChar_of_peek hpeek)]
      exact groupOpening_error h
    case h_11 hpeek =>
      rw [(CodePoint.toChar_eq_iff (by decide)).mp (toChar_of_peek hpeek)] at h ⊢
      exact bracketClass_error (Reading.of_map_eq_error h)
    case h_12 hpeek =>
      rw [(CodePoint.toChar_eq_iff (by decide)).mp (toChar_of_peek hpeek)] at h ⊢
      exact termEscape_error (Reading.of_map_eq_error h)
    case h_13 hpeek =>
      cases h
      exact Failure.within_self ⟨'*', by decide,
        prefix_of_toChar (toChar_of_peek hpeek) (by decide) s⟩
    case h_14 hpeek =>
      cases h
      exact Failure.within_self ⟨'+', by decide,
        prefix_of_toChar (toChar_of_peek hpeek) (by decide) s⟩
    case h_15 hpeek =>
      cases h
      exact Failure.within_self ⟨'?', by decide,
        prefix_of_toChar (toChar_of_peek hpeek) (by decide) s⟩
    case h_16 hpeek =>
      split at h
      · cases h
        exact Failure.within_self ⟨'{', by decide,
          prefix_of_toChar (toChar_of_peek hpeek) (by decide) s⟩
      · cases h
    all_goals cases h

/-- Only a parenthesis opens a group. -/
theorem head_of_opening {o : Opening} {names' : List String}
    (h : element names s = .ok (.opening o names', r)) : ofChars ['('] <+: s := by
  unfold element at h
  split at h
  · cases h
  case h_2 cp s =>
    split at h
    case h_5 hpeek | h_6 hpeek | h_7 hpeek | h_8 hpeek | h_9 hpeek =>
      exact prefix_of_toChar (toChar_of_peek hpeek) (by decide) s
    case h_11 | h_12 =>
      obtain ⟨x, -, hx⟩ := Reading.of_map_eq_ok h
      cases hx
    case h_16 => split at h <;> cases h
    all_goals cases h

/-! ## Patterns -/

/-- The place of an open group is one of the text, where a parenthesis stands. -/
def OpensIn (text : Input) (g : OpenGroup) : Prop :=
  g.place <:+ text ∧ ofChars ['('] <+: g.place

/-- The rest of a text fails within the text, at a place that the error is about, if every open
    group opens in the text. -/
theorem patternFrom_error {text : Input} {stack : List OpenGroup} {p : OpenPattern}
    (hs : s <:+ text) (hstack : ∀ g ∈ stack, OpensIn text g)
    (h : patternFrom stack p names s = .error f) : f.Within text := by
  fun_induction patternFrom stack p names s with
  | case1 => cases h
  | case2 p names g outer =>
    cases h
    obtain ⟨hplace, hopen⟩ := hstack g List.mem_cons_self
    have hfailure : (⟨.unterminatedGroup, g.place⟩ : Failure).Within g.place :=
      Failure.within_self hopen
    exact hfailure.mono hplace
  | case3 stack p names cp rest hbar ih => exact ih ((List.suffix_cons cp rest).trans hs) hstack h
  | case4 p names cp rest hbar hparen =>
    cases h
    have hfailure : (⟨.unmatchedParen, cp :: rest⟩ : Failure).Within (cp :: rest) :=
      Failure.within_self (prefix_of_toChar hparen (by decide) rest)
    exact hfailure.mono hs
  | case5 p names cp rest hbar hparen g outer e hr =>
    cases h
    exact (repeated_error hr).mono ((List.suffix_cons cp rest).trans hs)
  | case6 p names cp rest hbar hparen g outer t rest₁ hr ih =>
    have hrest := (repeated_suffix hr).trans ((List.suffix_cons cp rest).trans hs)
    exact ih hrest (fun g hg => hstack g (List.mem_cons_of_mem _ hg)) h
  | case7 stack p names cp rest hbar hparen e he =>
    cases h
    exact (element_error (List.cons_ne_nil cp rest) he).mono hs
  | case8 stack p names cp rest hbar hparen o names' rest₁ he ih =>
    refine ih ((element_shorter he).1.trans hs) (List.forall_mem_cons.mpr ⟨?_, hstack⟩) h
    exact ⟨hs, head_of_opening he⟩
  | case9 stack p names cp rest hbar hparen t rest₁ he e hr =>
    cases h
    exact (repeated_error hr).mono ((element_shorter he).1.trans hs)
  | case10 stack p names cp rest hbar hparen t rest₁ he u rest₂ hr ih =>
    exact ih ((repeated_suffix hr).trans ((element_shorter he).1.trans hs)) hstack h

end Input

/-- At the end of a text, only a group or a name that breaks off is missed. -/
theorem SyntaxCause.About.eq_of_nil {cause : SyntaxCause} {before : Input}
    (h : cause.About before []) : cause = .invalidGroup ∨ cause = .invalidGroupName := by
  cases cause with
  | invalidGroup => exact .inl rfl
  | invalidGroupName => exact .inr rfl
  | _ => simp [About] at h

namespace Pattern

/-- A text that is not a pattern is reported with a position within the text, at which stands what
    the error is about. The position is that of the end of the text at most for a group or a name
    that breaks off there. -/
theorem parse_error {text : Input} {e : SyntaxError} (h : parse text = .error e) :
    e.position ≤ text.length ∧
      (e.position = text.length → e.cause = .invalidGroup ∨ e.cause = .invalidGroupName) ∧
      e.cause.About (text.take e.position) (text.drop e.position) := by
  unfold parse at h
  split at h
  · cases h
  case h_2 f hf =>
    cases h
    obtain ⟨before, hplace, habout⟩ :=
      Input.patternFrom_error (List.suffix_refl text) (fun g hg => absurd hg List.not_mem_nil) hf
    have hposition : (f.inText text).position = before.length := by
      show text.length - f.place.length = before.length
      rw [hplace, List.length_append, Nat.add_sub_cancel]
    have htake : text.take before.length = before := by rw [hplace, List.take_left]
    have hdrop : text.drop before.length = f.place := by rw [hplace, List.drop_left]
    rw [hposition, htake, hdrop]
    refine ⟨?_, fun hend => ?_, habout⟩
    · rw [hplace, List.length_append]
      exact Nat.le_add_right _ _
    · have hnil : f.place = [] := by
        rw [← hdrop, hend, List.drop_length]
      rw [hnil] at habout
      exact habout.eq_of_nil

/-- In `(?<x>a)|(?<x>b)` the second name is in use, at position 11 behind its angle bracket. -/
theorem parse_error_of_duplicate : ∃ e,
    parse (Text.ofString "(?<x>a)|(?<x>b)").toList = .error e ∧
      e = ⟨.duplicateGroupName "x", 11⟩ ∧ e.position ≤ 15 ∧
      Input.ofChars ['<'] <:+ ((Text.ofString "(?<x>a)|(?<x>b)").toList.take e.position) ∧
      Input.ofChars ['x', '>'] <+: ((Text.ofString "(?<x>a)|(?<x>b)").toList.drop e.position) := by
  have h : parse (Text.ofString "(?<x>a)|(?<x>b)").toList =
      .error ⟨.duplicateGroupName "x", 11⟩ := by with_unfolding_all rfl
  obtain ⟨hle, -, hbefore, hbehind⟩ := parse_error h
  exact ⟨_, h, rfl, hle, hbefore, hbehind⟩

end Pattern

end Retrace
