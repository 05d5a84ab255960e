import Retrace.Proofs.Syntax.Literals
import Retrace.Proofs.Syntax.WellFormed
import Retrace.Syntax.Print

/-!
# Reading back spelled characters

Numerals, literals, names, class escapes and bracket classes are read back from their canonical
text. Each is read in front of any rest of the text that does not go on with the same piece: a
number needs a rest that begins with no digit.

Results:

* `Input.decimalFrom_write`, `Input.lt_of_decimalFrom`: the digits of a number lead to the number,
  and a digit behind them to a larger one.
* `CodePoint.print_spelled`: a code point is written as itself or as an escape that denotes it.
* `Input.classEscape?_print`, `Input.groupName_print`, `Input.bracketClass_print`: the same for
  classes and names.
-/

namespace Retrace

/-! ## Characters -/

namespace Input

/-- The code points of characters. -/
def ofChars (cs : List Char) : Input := cs.map CodePoint.ofChar

@[simp] theorem ofChars_nil : ofChars [] = [] := rfl

@[simp] theorem ofChars_cons (c : Char) (cs : List Char) :
    ofChars (c :: cs) = CodePoint.ofChar c :: ofChars cs := rfl

@[simp] theorem ofChars_append (cs ds : List Char) :
    ofChars (cs ++ ds) = ofChars cs ++ ofChars ds := List.map_append

@[simp] theorem peek?_nil : peek? [] = none := rfl

@[simp] theorem peek?_cons (cp : CodePoint) (s : Input) : peek? (cp :: s) = some cp.toChar := rfl

theorem after?_ofChar (c : Char) (s : Input) : after? c (CodePoint.ofChar c :: s) = some s := by
  simp [after?]

theorem after?_eq_none {c : Char} {s : Input} (h : peek? s ≠ some c) : after? c s = none := by
  cases s with
  | nil => rfl
  | cons cp s => simpa [after?] using h

theorem eq_of_after? {c : Char} {s r : Input} (h : after? c s = some r) (hc : c ≠ '\uFFFD') :
    s = CodePoint.ofChar c :: r := by
  cases s with
  | nil => cases h
  | cons cp s =>
    obtain ⟨hcp, hs⟩ := Option.ite_none_right_eq_some.mp h
    rw [(CodePoint.toChar_eq_iff hc).mp hcp, Option.some.inj hs]

/-- Whether the input begins with a decimal digit. -/
def beginsDecimal (s : Input) : Bool := (peek? s).any isDecimal

end Input

theorem Text.toList_ofString_ofList (cs : List Char) :
    (Text.ofString (String.ofList cs)).toList = Input.ofChars cs := by
  simp [ofString, Input.ofChars]

/-! ## Numbers -/

namespace Numeral

theorem digit?_digitChar : ∀ base ∈ [10, 16], ∀ d < base, digit? base (digitChar d) = some d := by
  decide

/-- A numeral begins with a digit, which is zero only in the numeral of zero. -/
theorem write_eq_cons {base : Nat} (hb : 2 ≤ base) (n : Nat) :
    ∃ d cs, write base n = digitChar d :: cs ∧ d < base ∧ (0 < n → 0 < d) := by
  induction n using Nat.strongRecOn with
  | ind n ih =>
    rw [write]
    split
    case isTrue h =>
      obtain ⟨d, cs, hw, hd, hp⟩ := ih (n / base) (Nat.div_lt_self (by omega) (by omega))
      have hq : 0 < n / base := Nat.div_pos h.2 (by omega)
      exact ⟨d, cs ++ [digitChar (n % base)], by rw [hw, List.cons_append], hd, fun _ => hp hq⟩
    case isFalse h => exact ⟨n, [], rfl, by omega, id⟩

end Numeral

namespace Input

theorem isDecimal_digitChar : ∀ d < 10, isDecimal (Numeral.digitChar d) := by decide

/-- Reading the digits of a number leads to the number. -/
theorem decimalFrom_write {start : Input} {n : Nat} (hn : n < numberBound) (r : Input) :
    decimalFrom start 0 (ofChars (Numeral.write 10 n) ++ r) = decimalFrom start n r := by
  have step {value d : Nat} (hd : d < 10) (hv : 10 * value + d < numberBound) (r : Input) :
      decimalFrom start value (CodePoint.ofChar (Numeral.digitChar d) :: r) =
        decimalFrom start (10 * value + d) r := by
    rw [decimalFrom, CodePoint.toChar_ofChar, Numeral.digit?_digitChar 10 (by decide) d hd]
    exact if_pos hv
  -- The numeral ends in the last digit, so the rest of the input grows by it.
  induction n using Nat.strongRecOn generalizing r with
  | ind n ih =>
    rw [Numeral.write]
    split
    case isTrue h =>
      have he : 10 * (n / 10) + n % 10 = n := Nat.div_add_mod n 10
      rw [ofChars_append, List.append_assoc, ih (n / 10) (by omega) (by omega)]
      show decimalFrom start (n / 10) (CodePoint.ofChar _ :: r) = _
      rw [step (Nat.mod_lt n (by decide)) (by omega), he]
    case isFalse h =>
      show decimalFrom start 0 (CodePoint.ofChar _ :: r) = _
      rw [step (by omega) (by omega)]
      simp

theorem decimalFrom_stop {start : Input} {n : Nat} {r : Input} (hr : r.beginsDecimal = false) :
    decimalFrom start n r = .ok (n, r) := by
  cases r with
  | nil => rfl
  | cons cp r =>
    have hd : isDecimal cp.toChar = false := hr
    rw [decimalFrom, Numeral.digit?_ten, hd]
    rfl

/-- A digit behind a positive number makes it larger. -/
theorem lt_of_decimalFrom {start : Input} {n m : Nat} {s r : Input} (hs : s.beginsDecimal = true)
    (hn : 0 < n) (h : decimalFrom start n s = .ok (m, r)) : n < m := by
  cases s with
  | nil => simp [beginsDecimal] at hs
  | cons cp s =>
    have hd : isDecimal cp.toChar = true := hs
    rw [decimalFrom, Numeral.digit?_ten, if_pos hd] at h
    dsimp only at h
    split at h
    case isTrue hb =>
      have := (decimalFrom_bounds hb h).1
      omega
    case isFalse => cases h

theorem decimal?_write {n : Nat} (hn : n < numberBound) {r : Input}
    (hr : r.beginsDecimal = false) :
    decimal? (ofChars (Numeral.write 10 n) ++ r) = .ok (some (n, r)) := by
  obtain ⟨d, cs, hw, hd, _⟩ := Numeral.write_eq_cons (show 2 ≤ 10 by decide) n
  have hp : (peek? (ofChars (Numeral.write 10 n) ++ r)).bind (Numeral.digit? 10) = some d := by
    rw [hw]
    simp [Numeral.digit?_digitChar 10 (by decide) d hd]
  unfold decimal?
  rw [hp, decimalFrom_write hn, decimalFrom_stop hr]
  rfl

end Input

/-! ## Literals -/

/-- The characters that, behind a backslash, begin a class. -/
def classChars : List Char := ['d', 'D', 's', 'S', 'w', 'W', 'p', 'P']

/-- The characters that, behind a backslash, may begin something else than a literal. -/
def reservedChars : List Char :=
  classChars ++ ['b', 'B', 'k', '1', '2', '3', '4', '5', '6', '7', '8', '9']

/-- How a code point is written where `special` says which characters need a backslash: as the
    character it is, or as an escape that denotes it. -/
inductive CodePoint.Spelled (special : Char → Bool) (cp : CodePoint) : List Char → Prop where
  | plain {c : Char} : special c = false → cp = ofChar c → Spelled special cp [c]
  | escaped {c : Char} {cs : List Char} : c ∉ reservedChars →
    (∀ start r, Input.charEscape start (Input.ofChars (c :: cs) ++ r) = .ok (cp, r)) →
    Spelled special cp ('\\' :: c :: cs)

namespace Input

theorem bracedHexFrom_write {start : Input} {n : Nat} (hn : n ≤ CodePoint.last) (r : Input) :
    bracedHexFrom start none (ofChars (Numeral.write 16 n) ++ r) =
      bracedHexFrom start (some n) r := by
  have step {value : Option Nat} {d : Nat} (hd : d < 16)
      (hv : 16 * value.getD 0 + d ≤ CodePoint.last) (r : Input) :
      bracedHexFrom start value (CodePoint.ofChar (Numeral.digitChar d) :: r) =
        bracedHexFrom start (some (16 * value.getD 0 + d)) r := by
    rw [bracedHexFrom.eq_def]
    dsimp only
    rw [CodePoint.toChar_ofChar, Numeral.digit?_digitChar 16 (by decide) d hd]
    exact if_neg (Nat.not_lt.2 hv)
  induction n using Nat.strongRecOn generalizing r with
  | ind n ih =>
    rw [Numeral.write]
    split
    case isTrue h =>
      have he : 16 * (n / 16) + n % 16 = n := Nat.div_add_mod n 16
      rw [ofChars_append, List.append_assoc, ih (n / 16) (by omega) (by omega)]
      show bracedHexFrom start (some (n / 16)) (CodePoint.ofChar _ :: r) = _
      rw [step (Nat.mod_lt n (by decide)) (by simpa [he] using hn)]
      simp [he]
    case isFalse h =>
      show bracedHexFrom start none (CodePoint.ofChar _ :: r) = _
      rw [step (by omega) (by simpa using hn)]
      simp

theorem charEscape_hex {cp : CodePoint} (hcp : cp ≤ CodePoint.last) (start r : Input) :
    charEscape start (ofChars ('u' :: '{' :: (Numeral.write 16 cp ++ ['}'])) ++ r) =
      .ok (cp, r) := by
  have hd : Numeral.digit? 16 '}' = none := by decide
  have hr : bracedHexFrom start (some cp) (CodePoint.ofChar '}' :: r) = .ok (cp, r) := by
    unfold bracedHexFrom
    simp [hd]
  have hw : bracedHexFrom start none (ofChars (Numeral.write 16 cp) ++ CodePoint.ofChar '}' :: r) =
      bracedHexFrom start (some cp) (CodePoint.ofChar '}' :: r) := bracedHexFrom_write hcp _
  simpa [charEscape, after?_ofChar, hw] using hr

/-- Behind a backslash, a character that is no letter and no digit stands for itself. -/
theorem charEscape_self {c : Char} (hl : isLetter c = false) (hd : isDecimal c = false)
    (start r : Input) :
    charEscape start (CodePoint.ofChar c :: r) = .ok (CodePoint.ofChar c, r) := by
  have hx {x : Char} (hx : isLetter x ∨ isDecimal x) : c ≠ x := by
    rintro rfl
    simp [hl, hd] at hx
  unfold charEscape
  simp only [CodePoint.toChar_ofChar]
  split
  case h_10 => rfl
  all_goals exact absurd rfl (hx (by decide))

end Input

/-- A code point up to the last one is written in a way that denotes it. -/
theorem CodePoint.print_spelled {special : Char → Bool}
    (hs : ∀ c, special c → Input.isLetter c = false ∧ Input.isDecimal c = false) {cp : CodePoint}
    (hcp : cp ≤ last) : Spelled special cp (cp.print special) := by
  unfold print
  split
  case h_7 =>
    split
    case isTrue => exact .escaped (by decide) (Input.charEscape_hex hcp)
    case isFalse h =>
      have hv : cp.isValidChar := Decidable.of_not_not fun hv => h (.inl hv)
      have hc : ofChar cp.toChar = cp := by
        rw [toChar, if_pos hv, ofChar, Char.ofNat, dif_pos hv]
        rfl
      split
      case isTrue hsp =>
        obtain ⟨hl, hd⟩ := hs _ hsp
        refine .escaped (fun hr => ?_) fun start r => ?_
        · have hall : (reservedChars.all
              fun c => Input.isLetter c || Input.isDecimal c) = true := by decide
          have := List.all_eq_true.1 hall _ hr
          simp [hl, hd] at this
        · show Input.charEscape start (ofChar cp.toChar :: r) = _
          rw [Input.charEscape_self hl hd, hc]
      case isFalse hsp => exact .plain (by simpa using hsp) hc.symm
  all_goals exact .escaped (by decide) fun start r => by simp [Input.charEscape]

/-! ## Names and classes -/

namespace Input

theorem takeWhile_ofChars {f : Char → Bool} {cs : List Char} (hcs : ∀ c ∈ cs, f c) {c : Char}
    (hc : f c = false) (r : Input) :
    (ofChars cs ++ CodePoint.ofChar c :: r).takeWhile (fun cp => f cp.toChar) = ofChars cs := by
  rw [List.takeWhile_append_of_pos (by simpa [ofChars] using hcs)]
  simp [hc]

theorem dropWhile_ofChars {f : Char → Bool} {cs : List Char} (hcs : ∀ c ∈ cs, f c) {c : Char}
    (hc : f c = false) (r : Input) :
    (ofChars cs ++ CodePoint.ofChar c :: r).dropWhile (fun cp => f cp.toChar) =
      CodePoint.ofChar c :: r := by
  rw [List.dropWhile_append_of_pos (by simpa [ofChars] using hcs)]
  simp [hc]

theorem map_toChar_ofChars (cs : List Char) : (ofChars cs).map CodePoint.toChar = cs := by
  simp [ofChars, Function.comp_def]

theorem groupName_print {name : String} (hn : IsGroupName name) (r : Input) :
    groupName (ofChars name.toList ++ CodePoint.ofChar '>' :: r) = .ok (name, r) := by
  have ht : ((ofChars name.toList ++ CodePoint.ofChar '>' :: r).map CodePoint.toChar).takeWhile
      isNameChar = name.toList := by
    rw [List.map_append, map_toChar_ofChars,
      List.takeWhile_append_of_pos (by simpa using hn.1)]
    simp [isNameChar, isLetter, isDecimal]
  have hd : (ofChars name.toList ++ CodePoint.ofChar '>' :: r).drop name.toList.length =
      CodePoint.ofChar '>' :: r := by
    rw [List.drop_append_of_le_length (by simp [ofChars])]
    simp [ofChars]
  unfold groupName
  rw [ht]
  dsimp only
  rw [hd, after?_ofChar]
  simp [hn.2]

end Input

/-- The text in the braces of a property escape. -/
def propertyText (name : Option String) (value : String) : List Char :=
  (match name with
    | some name => name.toList ++ ['=']
    | none => []) ++ value.toList

namespace IsProperty

variable {name : Option String} {value : String} {property : Unicode.Property}

theorem not_mem_text (h : IsProperty name value property) : '}' ∉ propertyText name value := by
  have hv := h.value_chars
  rcases name with _ | n
  · simpa [propertyText] using hv
  · have hn := (h.name_chars n rfl).2
    simpa [propertyText] using ⟨hn, hv⟩

theorem propertyParts_text (h : IsProperty name value property) :
    Input.propertyParts (propertyText name value) = (name, value) := by
  rcases name with _ | n
  · have hv : ∀ c ∈ value.toList, decide (c ≠ '=') := by
      intro c hc
      have : c ≠ '=' := fun he => h.value_unnamed rfl (he ▸ hc)
      simpa using this
    have hd : value.toList.dropWhile (· ≠ '=') = [] := List.dropWhile_eq_nil_iff.2 hv
    have htext : propertyText none value = value.toList := rfl
    rw [htext]
    unfold Input.propertyParts
    rw [hd]
    simp
  · have hn : ∀ c ∈ n.toList, decide (c ≠ '=') := by
      intro c hc
      have : c ≠ '=' := fun he => (h.name_chars n rfl).1 (he ▸ hc)
      simpa using this
    have ht : (n.toList ++ '=' :: value.toList).takeWhile (· ≠ '=') = n.toList := by
      rw [List.takeWhile_append_of_pos hn]
      simp
    have hd : (n.toList ++ '=' :: value.toList).dropWhile (· ≠ '=') = '=' :: value.toList := by
      rw [List.dropWhile_append_of_pos hn]
      simp
    have htext : propertyText (some n) value = n.toList ++ '=' :: value.toList := by
      simp [propertyText]
    rw [htext]
    unfold Input.propertyParts
    rw [ht, hd]
    simp

theorem propertyEscape_text (h : IsProperty name value property) (start : Input) (negated : Bool)
    (r : Input) :
    Input.propertyEscape start negated
        (CodePoint.ofChar '{' :: (Input.ofChars (propertyText name value) ++
          CodePoint.ofChar '}' :: r)) = .ok (⟨.property name value property, negated⟩, r) := by
  have ht : ∀ c ∈ propertyText name value, decide (c ≠ '}') := by
    intro c hc
    have : c ≠ '}' := fun he => h.not_mem_text (he ▸ hc)
    simpa using this
  have hc : Input.propertyClass start negated (propertyText name value) =
      .ok ⟨.property name value property, negated⟩ := by
    unfold Input.propertyClass
    rw [h.propertyParts_text]
    dsimp only
    rw [if_neg (not_or.2 ⟨h.value_ne, h.name_ne⟩), h.resolves]
  unfold Input.propertyEscape
  rw [Input.after?_ofChar]
  dsimp only
  rw [Input.dropWhile_ofChars ht (by decide), Input.takeWhile_ofChars ht (by decide),
    Input.map_toChar_ofChars, hc]

end IsProperty

theorem ClassEscape.print_eq_cons (e : ClassEscape) :
    ∃ c cs, e.print = '\\' :: c :: cs ∧ c ∈ classChars := by
  obtain ⟨kind, negated⟩ := e
  cases kind <;> cases negated <;> exact ⟨_, _, rfl, by simp [classChars]⟩

namespace Input

theorem classEscape?_print {e : ClassEscape} (he : e.Sound) (start r : Input) :
    classEscape? start (ofChars e.print.tail ++ r) = .ok (some (e, r)) := by
  obtain ⟨kind, negated⟩ := e
  rcases kind with _ | _ | _ | ⟨name, value, property⟩
  · cases negated <;> simp [ClassEscape.print, classEscape?]
  · cases negated <;> simp [ClassEscape.print, classEscape?]
  · cases negated <;> simp [ClassEscape.print, classEscape?]
  · have hp := (he name value property rfl).propertyEscape_text start negated r
    have ht : ofChars (ClassEscape.print ⟨.property name value property, negated⟩).tail ++ r =
        CodePoint.ofChar (if negated then 'P' else 'p') :: CodePoint.ofChar '{' ::
          (ofChars (propertyText name value) ++ CodePoint.ofChar '}' :: r) := by
      rcases name with _ | n <;> simp [ClassEscape.print, propertyText]
    rw [ht]
    cases negated
    all_goals
      simp only [classEscape?, if_true, Bool.false_eq_true, if_false, CodePoint.toChar_ofChar]
      rw [hp]
      rfl

theorem classEscape?_none {c : Char} (hc : c ∉ classChars) (start r : Input) :
    classEscape? start (CodePoint.ofChar c :: r) = .ok none := by
  have hx {x : Char} (hx : x ∈ classChars) : c ≠ x := by
    rintro rfl
    exact hc hx
  unfold classEscape?
  simp only [CodePoint.toChar_ofChar]
  split
  case h_9 => rfl
  all_goals exact absurd rfl (hx (by decide))

end Input

/-! ## Bracket classes -/

theorem CodePoint.isBracketSyntax_not_alnum (c : Char) (h : isBracketSyntax c) :
    Input.isLetter c = false ∧ Input.isDecimal c = false := by
  have hall : (['\\', ']', '[', '^', '-'].all
      fun c => !Input.isLetter c && !Input.isDecimal c) = true := by decide
  simpa using List.all_eq_true.1 hall c (by simpa [isBracketSyntax] using h)

/-- A member of a bracket class begins with no character that means something between members. -/
theorem ClassMember.print_eq_cons {m : ClassMember} (hm : ∀ cp ∈ m.literals, cp ≤ CodePoint.last) :
    ∃ c cs, m.print = c :: cs ∧ c ≠ '-' ∧ c ≠ ']' ∧ c ≠ '^' := by
  have literal {cp : CodePoint} (hcp : cp ≤ CodePoint.last) : ∃ c cs,
      cp.print CodePoint.isBracketSyntax = c :: cs ∧ c ≠ '-' ∧ c ≠ ']' ∧ c ≠ '^' := by
    have hs := CodePoint.print_spelled CodePoint.isBracketSyntax_not_alnum hcp
    generalize cp.print CodePoint.isBracketSyntax = text at hs
    cases hs with
    | @plain c hc _ =>
      refine ⟨c, [], rfl, ?_, ?_, ?_⟩
      all_goals
        rintro rfl
        exact absurd hc (by decide)
    | escaped => exact ⟨'\\', _, rfl, by decide, by decide, by decide⟩
  cases m with
  | literal cp => exact literal (hm cp List.mem_cons_self)
  | range lo hi =>
    obtain ⟨c, cs, hc, h⟩ := literal (hm lo List.mem_cons_self)
    exact ⟨c, _, by rw [print, hc, List.cons_append], h⟩
  | escape e => exact ⟨'\\', _, rfl, by decide, by decide, by decide⟩

namespace Input

theorem bracketAtom_literal {cp : CodePoint} (hcp : cp ≤ CodePoint.last) (r : Input) :
    bracketAtom (ofChars (cp.print CodePoint.isBracketSyntax) ++ r) = .ok (.literal cp, r) := by
  have hs := CodePoint.print_spelled CodePoint.isBracketSyntax_not_alnum hcp
  generalize cp.print CodePoint.isBracketSyntax = text at hs
  cases hs with
  | @plain c hc he =>
    have hne : c ≠ '\\' := by
      rintro rfl
      exact absurd hc (by decide)
    simp [bracketAtom, hne, he]
  | @escaped c cs hc he =>
    have hb : after? 'b' (CodePoint.ofChar c :: (ofChars cs ++ r)) = none := by
      refine after?_eq_none fun h => hc ?_
      have h : c = 'b' := by simpa using h
      rw [h]
      decide
    have he := he (CodePoint.ofChar '\\' :: CodePoint.ofChar c :: (ofChars cs ++ r)) r
    simp only [ofChars_cons, List.cons_append] at he ⊢
    unfold bracketAtom
    simp only [CodePoint.toChar_ofChar, if_true, hb, he,
      classEscape?_none fun h => hc (List.mem_append_left _ h)]
    rfl

theorem bracketAtom_escape {e : ClassEscape} (he : e.Sound) (r : Input) :
    bracketAtom (ofChars e.print ++ r) = .ok (.escape e, r) := by
  show bracketAtom (CodePoint.ofChar '\\' :: (ofChars e.print.tail ++ r)) = _
  unfold bracketAtom
  simp only [CodePoint.toChar_ofChar, if_true, classEscape?_print he]

theorem rangeAhead_eq_false {s : Input} (hs : peek? s ≠ some '-') : rangeAhead s = false := by
  unfold rangeAhead
  split
  case h_1 c hp =>
    rcases s with _ | ⟨a, s⟩
    · simp [peek] at hp
    · simp only [peek, List.take_succ_cons, List.map_cons, List.cons.injEq] at hp
      exact absurd hp.1 (by simpa using hs)
  case h_2 => rfl

theorem bracketMember_print {m : ClassMember} (hm : m.Sound)
    (hl : ∀ cp ∈ m.literals, cp ≤ CodePoint.last) {r : Input} (hr : peek? r ≠ some '-') :
    bracketMember (ofChars m.print ++ r) = .ok (m, r) := by
  have single {m : ClassMember} (ha : bracketAtom (ofChars m.print ++ r) = .ok (m, r)) :
      bracketMember (ofChars m.print ++ r) = .ok (m, r) := by
    unfold bracketMember
    rw [ha]
    simp [bind, Except.bind, rangeAhead_eq_false hr, pure, Except.pure]
  cases m with
  | literal cp => exact single (bracketAtom_literal (hl cp List.mem_cons_self) r)
  | escape e => exact single (bracketAtom_escape hm r)
  | range lo hi =>
    have hlo : lo ≤ CodePoint.last := hl lo (by simp [ClassMember.literals])
    have hhi : hi ≤ CodePoint.last := hl hi (by simp [ClassMember.literals])
    have hle : ¬hi < lo := Nat.not_lt.2 hm
    have hahead : rangeAhead (CodePoint.ofChar '-' ::
        (ofChars (hi.print CodePoint.isBracketSyntax) ++ r)) = true := by
      obtain ⟨c, cs, hc, _, hc', _⟩ := ClassMember.print_eq_cons (m := .literal hi)
        (by simpa [ClassMember.literals] using hhi)
      have hc : hi.print CodePoint.isBracketSyntax = c :: cs := hc
      rw [hc]
      simp [rangeAhead, peek, hc']
    unfold bracketMember ClassMember.print
    rw [ofChars_append, List.append_assoc, bracketAtom_literal hlo, ofChars_cons, List.cons_append]
    simp only [bind, Except.bind, hahead, if_true, List.drop_succ_cons, List.drop_zero]
    rw [bracketAtom_literal hhi]
    simp [hle, pure, Except.pure]

theorem bracketMembers_print {ms : List ClassMember} (hm : ∀ m ∈ ms, m.Sound)
    (hl : ∀ m ∈ ms, ∀ cp ∈ m.literals, cp ≤ CodePoint.last) (start r : Input) :
    bracketMembers start (ofChars (ms.flatMap ClassMember.print) ++ CodePoint.ofChar ']' :: r) =
      .ok (ms, r) := by
  induction ms with
  | nil =>
    show bracketMembers start (CodePoint.ofChar ']' :: r) = _
    rw [bracketMembers]
    simp
  | cons m ms ih =>
    rw [List.forall_mem_cons] at hm hl
    obtain ⟨c, cs, hc, _, hne, _⟩ := ClassMember.print_eq_cons hl.1
    have hr : peek? (ofChars (ms.flatMap ClassMember.print) ++ CodePoint.ofChar ']' :: r) ≠
        some '-' := by
      rcases ms with _ | ⟨m', ms⟩
      · simp
      · obtain ⟨c, cs, hc, hne, _⟩ := ClassMember.print_eq_cons (hl.2 m' List.mem_cons_self)
        simpa [hc] using hne
    have hread := bracketMember_print hm.1 hl.1 hr
    rw [List.flatMap_cons, ofChars_append, List.append_assoc]
    rw [hc] at hread ⊢
    rw [ofChars_cons, List.cons_append] at hread ⊢
    rw [bracketMembers]
    simp only [CodePoint.toChar_ofChar, if_neg hne]
    split
    · rename_i h
      rw [hread] at h
      cases h
    · rename_i h
      rw [hread] at h
      cases h
      rw [ih hm.2 hl.2]

theorem bracketClass_print (negated : Bool) {ms : List ClassMember} (hm : ∀ m ∈ ms, m.Sound)
    (hl : ∀ m ∈ ms, ∀ cp ∈ m.literals, cp ≤ CodePoint.last) (start r : Input) :
    bracketClass start (ofChars (((if negated then ['^'] else []) ++
        ms.flatMap ClassMember.print) ++ [']']) ++ r) = .ok (.bracket negated ms, r) := by
  have hread := bracketMembers_print hm hl start r
  have htext : ofChars (((if negated then ['^'] else []) ++
      ms.flatMap ClassMember.print) ++ [']']) ++ r = ofChars (if negated then ['^'] else []) ++
        (ofChars (ms.flatMap ClassMember.print) ++ CodePoint.ofChar ']' :: r) := by
    simp
  rw [htext]
  unfold bracketClass
  cases negated with
  | true =>
    simp only [if_true, ofChars_cons, ofChars_nil, List.cons_append, List.nil_append, after?_ofChar]
    rw [hread]
    rfl
  | false =>
    have hr : peek? (ofChars (ms.flatMap ClassMember.print) ++ CodePoint.ofChar ']' :: r) ≠
        some '^' := by
      rcases ms with _ | ⟨m, ms⟩
      · simp
      · obtain ⟨c, cs, hc, _, _, hne⟩ := ClassMember.print_eq_cons (hl m List.mem_cons_self)
        simpa [hc] using hne
    simp only [Bool.false_eq_true, if_false, ofChars_nil, List.nil_append, after?_eq_none hr]
    rw [hread]
    rfl

end Input

end Retrace
