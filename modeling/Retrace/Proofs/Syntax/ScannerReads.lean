import Retrace.Proofs.Syntax.Decimals
import Retrace.Proofs.Syntax.Scanner

/-!
# What the scanners read

Each scanner of a number, an escape, a class or a quantifier does what its reader answers: it comes
to the same value with the cursor before the same rest of the text, or to the same error.

Results:

* `Scan.braceBounds_reads`, `Scan.braceQuantifierAhead_eq`, `Scan.hex_reads`: the cursor is put
  back, or left where it was, if there is nothing to read.
* `Scan.quantifier_reads`, `Scan.bracketClass_reads`, `Scan.termEscape_reads`,
  `Scan.groupName_reads`: the productions that are made of these.
-/

namespace Retrace

namespace Scan

open EStateM (Result run_bind run_pure)

variable {text : Input} {names : List String} {s : Input}

/-! ## Quantifiers -/

/-- What `number` reads from `s` on where `value` has been read from `start` up to there. -/
def numberFrom (start : Input) (value : Option Nat) (s : Input) : Reading (Option Nat × Input) :=
  match value, s.peek?.bind (Numeral.digit? 10) with
  | none, none => .ok (none, s)
  | _, _ => (Input.decimalFrom start (value.getD 0) s).map fun (n, r) => (some n, r)

theorem numberTurn_reads (start : Input) (value : Option Nat) (hs : s <:+ text) :
    TurnReads (numberFrom start) value names s
      ((numberTurn (text.length - start.length) value : Scan text _).run (.before names s)) := by
  simp only [numberTurn, run_bind, run_peek? hs]
  cases s with
  | nil =>
    refine .done (List.suffix_refl []) ?_
    cases value with
    | none => rfl
    | some v => rfl
  | cons cp s =>
    rw [Input.peek?_cons, Option.bind_some]
    cases hd : Numeral.digit? 10 cp.toChar with
    | none =>
      refine .done (List.suffix_refl _) ?_
      cases value with
      | none => simp only [numberFrom, Input.peek?_cons, Option.bind_some, hd]
      | some v => simp [numberFrom, Input.decimalFrom, hd, Except.map]
    | some d =>
      have hfrom : numberFrom start value (cp :: s) =
          if 10 * value.getD 0 + d < Input.numberBound then
            numberFrom start (some (10 * value.getD 0 + d)) s
          else .error ⟨.numberTooLarge, start⟩ := by
        simp only [numberFrom, Input.peek?_cons, Option.bind_some, hd, Input.decimalFrom,
          Option.getD_some]
        split
        · rfl
        · rfl
      dsimp only
      by_cases hlt : 10 * value.getD 0 + d < Input.numberBound
      · rw [if_pos hlt] at hfrom ⊢
        rw [run_bind, run_skip_one hs]
        exact .again (Input.shorter_cons cp s) hfrom
      · rw [if_neg hlt] at hfrom ⊢
        exact .fail (List.suffix_refl _) hfrom

theorem number_reads (hs : s <:+ text) :
    ReadsOption names s (Input.decimal? s) ((number : Scan text _).run (.before names s)) := by
  have hdecimal : (Input.decimal? s).map (orStay s) = numberFrom s none s := by
    simp only [Input.decimal?, numberFrom]
    cases s.peek?.bind (Numeral.digit? 10) with
    | none => rfl
    | some d =>
      show ((Input.decimalFrom s 0 s).map some).map (orStay s) =
        (Input.decimalFrom s 0 s).map fun (n, r) => (some n, r)
      cases Input.decimalFrom s 0 s with
      | error f => rfl
      | ok x => rfl
  refine Reads.option ?_
  rw [hdecimal, number, run_bind, run_position]
  exact TurnReads.loop (fun x names r hr => numberTurn_reads s x hr) none hs

theorem bracedBounds_ends (hs : s <:+ text) :
    Ends s (fun b names' r => names' = names ∧ ∃ s', Optional s' (Input.braceBounds? s) b r)
      (fun f names' => names' = names ∧ Input.braceBounds? s = .error f)
      ((bracedBounds : Scan text _).run (.before names s)) := by
  simp only [Input.braceBounds?, bind, Except.bind, pure, Except.pure]
  refine (number_reads hs).bind (fun h => ?_) (fun min r hr h => ?_) fun f hf => ⟨rfl, by rw [hf]⟩
  · rw [h]
    exact .ok (List.suffix_refl s) ⟨rfl, s, .none rfl⟩
  · have hrs := hr.trans hs
    rw [h]
    simp only [run_bind, run_eat hrs]
    cases hclose : Input.after? '}' r with
    | some r₁ => exact .ok (Input.after?_eq_some hclose).1 ⟨rfl, r₁, .some rfl⟩
    | none =>
      simp only [Bool.false_eq_true, if_false, run_bind, run_eat hrs]
      cases hcomma : Input.after? ',' r with
      | none => exact .ok (List.suffix_refl r) ⟨rfl, r, .none rfl⟩
      | some r₁ =>
        have hr₁ := (Input.after?_eq_some hcomma).1
        have hrs₁ := hr₁.trans hrs
        simp only [if_true, run_bind, run_eat hrs₁]
        refine Ends.of_suffix ?_ hr₁
        cases hclose : Input.after? '}' r₁ with
        | some r₂ => exact .ok (Input.after?_eq_some hclose).1 ⟨rfl, r₂, .some rfl⟩
        | none =>
          refine (number_reads hrs₁).bind (fun h => ?_) (fun max r₂ hr₂ h => ?_)
            fun f hf => ⟨rfl, by rw [hf]⟩
          · rw [h]
            exact .ok (List.suffix_refl r₁) ⟨rfl, r₁, .none rfl⟩
          · rw [h]
            simp only [run_bind, run_eat (hr₂.trans hrs₁)]
            cases hclose : Input.after? '}' r₂ with
            | some r₃ => exact .ok (Input.after?_eq_some hclose).1 ⟨rfl, r₃, .some rfl⟩
            | none => exact .ok (List.suffix_refl r₂) ⟨rfl, r₂, .none rfl⟩

/-- The cursor is put back to the brace where no bounds follow it. -/
theorem braceBounds_reads {cp : CodePoint} (hs : cp :: s <:+ text) :
    ReadsOption names (cp :: s) (Input.braceBounds? s)
      ((braceBounds : Scan text _).run (.before names (cp :: s))) := by
  have hs' : s <:+ text := (List.suffix_cons cp s).trans hs
  rw [braceBounds, run_bind_ok run_position, run_bind_ok (run_skip_one hs)]
  refine Ends.bind_back (List.suffix_cons cp s) (bracedBounds_ends hs') ?_ fun f names' hf => hf
  rintro bounds names r hr ⟨rfl, s', h⟩
  cases h with
  | none h =>
    rw [Option.isNone_none, if_pos rfl, run_bind_ok (run_seek r)]
    exact .ok (List.suffix_refl _) ⟨rfl, .none h⟩
  | some h => exact .ok (hr.trans (List.suffix_cons cp s)) ⟨rfl, .some h⟩

/-- Looking for a quantifier leaves the cursor where it is, also where the bounds are an error. -/
theorem braceQuantifierAhead_eq {cp : CodePoint} (hs : cp :: s <:+ text) :
    (braceQuantifierAhead : Scan text _).run (.before names (cp :: s)) =
      .ok (Input.quantifierAhead s) (.before names (cp :: s)) := by
  have hbounds := (@braceBounds_reads text names s cp hs).attempt
  rw [braceQuantifierAhead, run_bind_ok run_position, run_bind]
  unfold Input.quantifierAhead
  generalize (attempt braceBounds).run (.before names (cp :: s)) = x at hbounds
  cases hbounds with
  | error _ h => exact h.elim
  | @ok x names' r _ h =>
    dsimp only
    rw [run_bind_ok (run_seek r)]
    cases x with
    | error e =>
      obtain ⟨f, -, rfl, hf⟩ := h
      rw [hf]
      rfl
    | ok b =>
      obtain ⟨rfl, h⟩ := h
      cases h with
      | none h =>
        rw [h]
        rfl
      | some h =>
        rw [h]
        rfl

theorem bounds_reads (hs : s <:+ text) :
    ReadsOption names s (Input.bounds? s) ((bounds : Scan text _).run (.before names s)) := by
  simp only [bounds, run_bind, run_peek? hs]
  cases s with
  | nil => exact .stay
  | cons cp s =>
    simp only [Input.bounds?, Input.peek?_cons]
    generalize cp.toChar = ch
    split
    case h_4 => exact braceBounds_reads hs
    case h_5 =>
      simp only [run_pure, *]
      exact .stay
    all_goals
      simp only [run_bind, run_skip_one hs]
      exact .read (List.suffix_cons cp s)

theorem quantifier_reads (hs : s <:+ text) :
    ReadsOption names s (Input.quantifier? s)
      ((quantifier : Scan text _).run (.before names s)) := by
  simp only [Input.quantifier?, bind, Except.bind, pure, Except.pure]
  rw [quantifier, run_bind_ok run_position]
  refine (bounds_reads hs).bind (fun h => ?_) (fun b r hr h => ?_) fun f hf => ⟨rfl, by rw [hf]⟩
  · rw [h]
    exact ReadsOption.stay
  · rw [h]
    dsimp only
    split
    · exact .fail (List.suffix_refl r) ⟨rfl, rfl⟩
    · rw [run_bind, run_eat (hr.trans hs)]
      cases hlazy : Input.after? '?' r with
      | none => exact .ok (List.suffix_refl r) ⟨rfl, .some rfl⟩
      | some r₁ => exact .ok (Input.after?_eq_some hlazy).1 ⟨rfl, .some rfl⟩

theorem hexAhead_eq (hs : s <:+ text) (value offset count : Nat) :
    (hexAhead value offset count : Scan text _).run (.before names s) =
      .ok ((Input.hexFrom? value count (s.drop offset)).map Prod.fst) (.before names s) := by
  induction count generalizing value offset with
  | zero => rfl
  | succ count ih =>
    rw [hexAhead, run_bind_ok (run_peekAt? hs offset)]
    have htail : (s.drop offset).tail = s.drop (offset + 1) := List.tail_drop
    cases hrest : s.drop offset with
    | nil => rfl
    | cons cp r =>
      rw [hrest, List.tail_cons] at htail
      rw [Input.peek?_cons, Option.bind_some]
      cases hd : Numeral.digit? 16 cp.toChar with
      | none => simp [Input.hexFrom?, hd]
      | some d =>
        rw [ih, ← htail]
        simp only [Input.hexFrom?, hd]

theorem eq_drop_of_hexFrom? {value count n : Nat} {s r : Input}
    (h : Input.hexFrom? value count s = some (n, r)) : r = s.drop count ∧ count ≤ s.length := by
  induction count generalizing value s with
  | zero =>
    cases h
    exact ⟨rfl, Nat.zero_le _⟩
  | succ count ih =>
    cases s with
    | nil => cases h
    | cons cp s =>
      simp only [Input.hexFrom?] at h
      split at h
      case h_1 =>
        obtain ⟨hr, hle⟩ := ih h
        exact ⟨hr, Nat.succ_le_succ hle⟩
      case h_2 => cases h

/-- Where not enough hexadecimal digits stand, the cursor is left where it is. -/
theorem hex_reads (hs : s <:+ text) (count : Nat) :
    ReadsOption names s (.ok (Input.hexFrom? 0 count s))
      ((hex count : Scan text _).run (.before names s)) := by
  rw [hex, run_bind_ok (hexAhead_eq hs 0 0 count), List.drop_zero]
  cases h : Input.hexFrom? 0 count s with
  | none => exact .stay
  | some x =>
    obtain ⟨hr, hle⟩ := eq_drop_of_hexFrom? h
    simp only [Option.map_some, run_bind, run_skip hs hle, ← hr]
    exact .read (hr ▸ List.drop_suffix count s)

/-- What the digits of `bracedHex` come to behind those of `value`, up to where they end. -/
def hexRun (start : Input) (value : Option Nat) : Input → Reading (Option Nat × Input)
  | [] => .ok (value, [])
  | cp :: s =>
    match Numeral.digit? 16 cp.toChar with
    | none => .ok (value, cp :: s)
    | some d =>
      if CodePoint.last < 16 * value.getD 0 + d then .error ⟨.invalidUnicodeEscape, start⟩
      else hexRun start (some (16 * value.getD 0 + d)) s

theorem bracedHexTurn_reads (start : Input) (value : Option Nat) (hs : s <:+ text) :
    TurnReads (hexRun start) value names s
      ((bracedHexTurn (text.length - start.length) value : Scan text _).run (.before names s)) := by
  rw [bracedHexTurn, run_bind_ok (run_peek? hs)]
  cases s with
  | nil => exact .done (List.suffix_refl []) rfl
  | cons cp s =>
    rw [Input.peek?_cons, Option.bind_some]
    cases hd : Numeral.digit? 16 cp.toChar with
    | none => exact .done (List.suffix_refl _) (by simp only [hexRun, hd])
    | some d =>
      dsimp only
      split
      case isTrue hlarge =>
        exact .fail (List.suffix_refl _)
          (by simp only [hexRun, hd, if_pos hlarge])
      case isFalse hlarge =>
        rw [run_bind_ok (run_skip_one hs)]
        exact .again (Input.shorter_cons cp s) (by simp only [hexRun, hd, if_neg hlarge])

theorem bracedHexFrom_eq (start : Input) (value : Option Nat) (s : Input) :
    Input.bracedHexFrom start value s =
      match hexRun start value s with
      | .error f => .error f
      | .ok (none, _) => .error ⟨.invalidUnicodeEscape, start⟩
      | .ok (some n, r) =>
        match r.after? '}' with
        | some r => .ok (n, r)
        | none => .error ⟨.invalidUnicodeEscape, start⟩ := by
  induction s generalizing value with
  | nil =>
    cases value with
    | none => rfl
    | some n => rfl
  | cons cp s ih =>
    unfold Input.bracedHexFrom hexRun
    cases hd : Numeral.digit? 16 cp.toChar with
    | none =>
      cases value with
      | none => rfl
      | some n =>
        simp only [Input.after?]
        split
        · rfl
        · rfl
    | some d =>
      dsimp only
      split
      · rfl
      · exact ih _

theorem bracedHex_reads {cp : CodePoint} (start : Input) (hs : cp :: s <:+ text) :
    Reads names (cp :: s) (Input.bracedHexFrom start none s)
      ((bracedHex (text.length - start.length) : Scan text _).run (.before names (cp :: s))) := by
  have hs' : s <:+ text := (List.suffix_cons cp s).trans hs
  have hloop : Reads names s (hexRun start none s)
      ((loop (bracedHexTurn (text.length - start.length)) none : Scan text _).run
        (.before names s)) :=
    TurnReads.loop (fun x names r hr => bracedHexTurn_reads start x hr) none hs'
  rw [bracedHex, run_bind_ok (run_skip_one hs), bracedHexFrom_eq]
  refine Ends.of_suffix ?_ (List.suffix_cons cp s)
  refine hloop.bind (fun value r hr h => ?_) fun f hf => ⟨rfl, by rw [hf]⟩
  rw [h]
  cases value with
  | none => exact .fail (List.suffix_refl r) ⟨rfl, rfl⟩
  | some n =>
    simp only [run_bind, run_eat (hr.trans hs')]
    cases hclose : Input.after? '}' r with
    | none => exact .fail (List.suffix_refl r) ⟨rfl, rfl⟩
    | some r₁ => exact .ok (Input.after?_eq_some hclose).1 ⟨rfl, rfl⟩

theorem ofChar_of_isLetter {cp : CodePoint} (h : Input.isLetter cp.toChar) :
    CodePoint.ofChar cp.toChar = cp := by
  refine ((CodePoint.toChar_eq_iff ?_).mp rfl).symm
  intro heq
  rw [heq] at h
  exact absurd h (by decide)

theorem charEscape_reads (start : Input) (hs : s <:+ text) :
    Reads names s (Input.charEscape start s)
      ((charEscape (text.length - start.length) : Scan text _).run (.before names s)) := by
  rw [charEscape, run_bind_ok (run_advance? hs)]
  cases s with
  | nil => exact .fail (List.suffix_refl [])
  | cons cp s =>
    have hs' : s <:+ text := (List.suffix_cons cp s).trans hs
    have hsuffix := List.suffix_cons cp s
    -- an incomplete number leaves the letter to stand for itself
    have hhex (count : Nat) : Reads names (cp :: s) (.ok ((Input.hexFrom? 0 count s).getD (cp, s)))
        ((do return (← hex count).getD cp : Scan text _).run (.before names s)) := by
      refine Ends.of_suffix ?_ hsuffix
      refine (hex_reads hs' count).bind (fun h => ?_) (fun n r hr h => ?_) nofun
      · rw [Except.ok.inj h]
        exact .ok (List.suffix_refl s) ⟨rfl, rfl⟩
      · rw [Except.ok.inj h]
        exact .ok (List.suffix_refl r) ⟨rfl, rfl⟩
    simp only [List.head?_cons, List.tail_cons, Input.charEscape]
    generalize cp.toChar = ch
    split
    case h_7 =>
      simp only [run_bind, run_peek? hs']
      cases s with
      | nil => exact .ok hsuffix
      | cons letter s =>
        simp only [Input.peek?_cons]
        split
        case isTrue hletter =>
          simp only [run_bind, run_skip_one hs', ofChar_of_isLetter hletter]
          exact .ok ((List.suffix_cons letter s).trans hsuffix)
        case isFalse => exact .ok hsuffix
    case h_8 => exact hhex 2
    case h_9 =>
      simp only [run_bind, run_peek? hs']
      cases s with
      | nil => exact hhex 4
      | cons brace s =>
        by_cases hbrace : brace.toChar = '{'
        · have hpeek : Input.peek? (brace :: s) = some '{' := congrArg some hbrace
          simp only [if_pos hpeek, Input.after?, if_pos hbrace]
          exact Ends.of_suffix (bracedHex_reads start hs') hsuffix
        · have hpeek : Input.peek? (brace :: s) ≠ some '{' := fun h => hbrace (Option.some.inj h)
          simp only [if_neg hpeek, Input.after?, if_neg hbrace]
          exact hhex 4
    case h_10 =>
      simp only [run_pure, *]
      exact .ok hsuffix
    all_goals exact .ok hsuffix

/-- What the turns of `groupName` read from `s` on behind the characters of `name`. -/
def nameFrom (start : Input) (name : List Char) : Input → Reading (List Char × Input)
  | [] => .error ⟨.invalidGroupName, start⟩
  | cp :: s =>
    if cp.toChar = '>' then .ok (name, s)
    else if Input.isNameChar cp.toChar then nameFrom start (name ++ [cp.toChar]) s
    else .error ⟨.invalidGroupName, start⟩

theorem nameTurn_reads (start : Input) (name : List Char) (hs : s <:+ text) :
    TurnReads (nameFrom start) name names s
      ((nameTurn (text.length - start.length) name : Scan text _).run (.before names s)) := by
  rw [nameTurn, run_bind_ok (run_peek? hs)]
  cases s with
  | nil => exact .fail (List.suffix_refl []) rfl
  | cons cp s =>
    simp only [Input.peek?_cons]
    by_cases hclose : cp.toChar = '>'
    · rw [if_pos hclose, run_bind_ok (run_skip_one hs)]
      exact .done (List.suffix_cons cp s) (if_pos hclose)
    · rw [if_neg hclose]
      by_cases hchar : Input.isNameChar cp.toChar
      · rw [if_pos hchar, run_bind_ok (run_skip_one hs)]
        exact .again (Input.shorter_cons cp s) (by rw [nameFrom, if_neg hclose, if_pos hchar])
      · rw [if_neg hchar]
        exact .fail (List.suffix_refl _)
          (by rw [nameFrom, if_neg hclose, if_neg hchar])

theorem nameFrom_eq (start : Input) (name : List Char) (s : Input) :
    nameFrom start name s =
      match Input.after? '>'
          (s.drop ((s.map CodePoint.toChar).takeWhile Input.isNameChar).length) with
      | some r => .ok (name ++ (s.map CodePoint.toChar).takeWhile Input.isNameChar, r)
      | none => .error ⟨.invalidGroupName, start⟩ := by
  induction s generalizing name with
  | nil => rfl
  | cons cp s ih =>
    rw [nameFrom, List.map_cons]
    by_cases hclose : cp.toChar = '>'
    · have hchar : ¬ Input.isNameChar cp.toChar := by rw [hclose]; decide
      rw [if_pos hclose, List.takeWhile_cons_of_neg hchar]
      simp [Input.after?, hclose]
    · by_cases hchar : Input.isNameChar cp.toChar
      · rw [if_neg hclose, if_pos hchar, ih, List.takeWhile_cons_of_pos hchar, List.length_cons,
          List.drop_succ_cons, List.append_assoc]
        rfl
      · rw [if_neg hclose, if_neg hchar, List.takeWhile_cons_of_neg hchar]
        simp [Input.after?, hclose]

theorem groupName_reads (hs : s <:+ text) :
    Reads names s (Input.groupName s) ((groupName : Scan text _).run (.before names s)) := by
  have hloop : Reads names s (nameFrom s [] s)
      ((loop (nameTurn (text.length - s.length)) [] : Scan text _).run (.before names s)) :=
    TurnReads.loop (fun x names r hr => nameTurn_reads s x hr) [] hs
  rw [groupName, run_bind_ok run_position]
  rw [nameFrom_eq] at hloop
  unfold Input.groupName
  refine hloop.bind (fun name r hr h => ?_) fun f h => ?_
  · split at h
    case h_2 => cases h
    case h_1 r' hclose =>
      cases h
      simp only [hclose, List.nil_append]
      split
      · exact .fail (List.suffix_refl r) ⟨rfl, rfl⟩
      · exact .ok (List.suffix_refl r) ⟨rfl, rfl⟩
  · split at h
    case h_1 => cases h
    case h_2 hclose =>
      cases h
      exact ⟨rfl, by simp only [hclose]⟩

/-- What the turns of `property` read from `s` on behind the given characters. -/
def propertyFrom (start : Input) (chars : List Char) : Input → Reading (List Char × Input)
  | [] => .error ⟨.invalidPropertyEscape, start⟩
  | cp :: s =>
    if cp.toChar = '}' then .ok (chars, s) else propertyFrom start (chars ++ [cp.toChar]) s

theorem propertyTurn_reads (start : Input) (chars : List Char) (hs : s <:+ text) :
    TurnReads (propertyFrom start) chars names s
      ((propertyTurn (text.length - start.length) chars : Scan text _).run (.before names s)) := by
  rw [propertyTurn, run_bind_ok (run_peek? hs)]
  cases s with
  | nil => exact .fail (List.suffix_refl []) rfl
  | cons cp s =>
    simp only [Input.peek?_cons]
    rw [run_bind_ok (run_skip_one hs)]
    split
    case isTrue hclose => exact .done (List.suffix_cons cp s) (if_pos hclose)
    case isFalse hclose => exact .again (Input.shorter_cons cp s) (if_neg hclose)

theorem propertyFrom_eq (start : Input) (chars : List Char) (s : Input) :
    propertyFrom start chars s =
      match s.dropWhile fun cp => cp.toChar ≠ '}' with
      | [] => .error ⟨.invalidPropertyEscape, start⟩
      | _ :: r =>
        .ok (chars ++ (s.takeWhile fun cp => cp.toChar ≠ '}').map CodePoint.toChar, r) := by
  induction s generalizing chars with
  | nil => rfl
  | cons cp s ih =>
    rw [propertyFrom]
    by_cases hclose : cp.toChar = '}'
    · simp [hclose]
    · rw [if_neg hclose, ih]
      simp [hclose]

theorem propertyOf_reads (start : Input) (negated : Bool) (chars : List Char) :
    Reads names s
      (match Input.propertyClass start negated chars with
      | .ok e => .ok (e, s)
      | .error f => .error f)
      ((propertyOf (text.length - start.length) negated chars : Scan text _).run
        (.before names s)) := by
  dsimp only [Input.propertyClass, propertyOf]
  by_cases hempty : (Input.propertyParts chars).2 = "" ∨ (Input.propertyParts chars).1 = some ""
  · simp only [if_pos hempty]
    exact .fail (List.suffix_refl s)
  · simp only [if_neg hempty]
    cases Unicode.Property.resolve? (Input.propertyParts chars).1 (Input.propertyParts chars).2 with
    | some property => exact .ok (List.suffix_refl s)
    | none => exact .fail (List.suffix_refl s)

theorem property_reads (start : Input) (negated : Bool) (hs : s <:+ text) :
    Reads names s (Input.propertyEscape start negated s)
      ((property (text.length - start.length) negated : Scan text _).run (.before names s)) := by
  rw [property, run_bind, run_eat hs]
  unfold Input.propertyEscape
  cases hopen : Input.after? '{' s with
  | none => exact .fail (List.suffix_refl s)
  | some s₁ =>
    have hs₁ := (Input.after?_eq_some hopen).1
    have hloop : Reads names s₁ (propertyFrom start [] s₁)
        ((loop (propertyTurn (text.length - start.length)) [] : Scan text _).run
          (.before names s₁)) :=
      TurnReads.loop (fun x names r hr => propertyTurn_reads start x hr) [] (hs₁.trans hs)
    rw [propertyFrom_eq] at hloop
    refine Ends.of_suffix ?_ hs₁
    dsimp only
    generalize (s₁.dropWhile fun cp => cp.toChar ≠ '}') = rest at hloop ⊢
    cases rest with
    | nil =>
      refine hloop.bind nofun fun f h => ?_
      cases h
      exact ⟨rfl, rfl⟩
    | cons brace rest =>
      refine hloop.bind (fun chars r hr h => ?_) nofun
      cases h
      rw [List.nil_append]
      exact propertyOf_reads start negated _

theorem classEscape_reads (start : Input) (hs : s <:+ text) :
    ReadsOption names s (Input.classEscape? start s)
      ((classEscape (text.length - start.length) : Scan text _).run (.before names s)) := by
  rw [classEscape, run_bind_ok (run_peek? hs)]
  cases s with
  | nil => exact .stay
  | cons cp s =>
    have hs' : s <:+ text := (List.suffix_cons cp s).trans hs
    have hsuffix := List.suffix_cons cp s
    have hproperty (negated : Bool) :
        ReadsOption names (cp :: s) ((Input.propertyEscape start negated s).map some)
          ((do return some (← property (text.length - start.length) negated) : Scan text _).run
            (.before names s)) := by
      refine Ends.of_suffix ?_ hsuffix
      refine (property_reads start negated hs').bind (fun e r hr h => ?_) fun f hf => ⟨rfl, ?_⟩
      · rw [h]
        exact .ok (List.suffix_refl r) ⟨rfl, .some rfl⟩
      · rw [hf]
        rfl
    simp only [Input.peek?_cons, Input.classEscape?]
    generalize cp.toChar = ch
    split
    case h_7 =>
      simp only [run_bind_ok (run_skip_one hs)]
      exact hproperty false
    case h_8 =>
      simp only [run_bind_ok (run_skip_one hs)]
      exact hproperty true
    case h_9 =>
      simp only [run_pure, *]
      exact .stay
    all_goals
      simp only [run_bind_ok (run_skip_one hs)]
      exact .read hsuffix

theorem decimal?_of_digit (h : s.peek?.any fun c => '1' ≤ c && c ≤ '9') :
    Input.decimal? s = (Input.decimalFrom s 0 s).map some := by
  cases s with
  | nil => cases h
  | cons cp s =>
    have hdecimal : Input.isDecimal cp.toChar := by
      have h : ('1' ≤ cp.toChar && cp.toChar ≤ '9') = true := h
      rw [Bool.and_eq_true, decide_eq_true_eq, decide_eq_true_eq] at h
      have hle : '0' ≤ cp.toChar := Char.le_trans (by decide) h.1
      simp [Input.isDecimal, hle, h.2]
    unfold Input.decimal?
    rw [Input.peek?_cons, Option.bind_some, Numeral.digit?_ten, if_pos hdecimal]

/-- The cursor stands on the backslash. -/
theorem termEscape_reads {cp : CodePoint} (hs : cp :: s <:+ text) :
    Reads names (cp :: s) (Input.termEscape (cp :: s) s)
      ((termEscape : Scan text _).run (.before names (cp :: s))) := by
  have hs' : s <:+ text := (List.suffix_cons cp s).trans hs
  rw [termEscape, run_bind_ok run_position, run_bind_ok (run_skip_one hs)]
  refine Ends.of_suffix ?_ (List.suffix_cons cp s)
  unfold Input.termEscape
  refine (classEscape_reads (cp :: s) hs').bind (fun h => ?_) (fun e r hr h => ?_)
    fun f hf => ⟨rfl, ?_⟩
  · rw [h]
    simp only [run_bind_ok (run_peek hs' 2)]
    by_cases hk : Input.peek 2 s = ['k', '<']
    · have hlen : 2 ≤ s.length := by
        have hlen := congrArg List.length hk
        simp only [Input.peek, List.length_map, List.length_take, List.length_cons,
          List.length_nil] at hlen
        omega
      have hdrop := List.drop_suffix 2 s
      simp only [hk, run_bind_ok (run_skip hs' hlen)]
      refine Ends.of_suffix ?_ hdrop
      exact (groupName_reads (hdrop.trans hs')).map fun name => Term.backreference (.name name)
    · generalize Input.peek 2 s = ahead at hk
      split
      case h_1 => exact absurd rfl hk
      case h_2 =>
        simp only [run_bind_ok (run_peek? hs'), *]
        by_cases hdigit : s.peek?.any fun c => '1' ≤ c && c ≤ '9'
        · simp only [if_pos hdigit]
          have hdecimal := decimal?_of_digit hdigit
          refine (number_reads hs').bind (fun h => ?_) (fun n r hr h => ?_) fun f hf => ⟨rfl, ?_⟩
          · rw [hdecimal] at h
            obtain ⟨x, -, hx⟩ := Reading.of_map_eq_ok h
            cases hx
          · rw [hdecimal] at h
            obtain ⟨x, hx, hn⟩ := Reading.of_map_eq_ok h
            cases hn
            rw [hx]
            exact .ok (List.suffix_refl r) ⟨rfl, rfl⟩
          · rw [hdecimal] at hf
            cases hx : Input.decimalFrom s 0 s with
            | error f' =>
              rw [hx] at hf
              cases hf
              rfl
            | ok x =>
              rw [hx] at hf
              cases hf
        · simp only [if_neg hdigit]
          exact (charEscape_reads (cp :: s) hs').map fun cp => Term.char (.literal cp)
  · rw [h]
    exact .ok (List.suffix_refl r) ⟨rfl, rfl⟩
  · rw [hf]

/-! ### Bracket classes -/

theorem bracketAtom_reads (hs : s <:+ text) :
    Reads names s (Input.bracketAtom s) ((bracketAtom : Scan text _).run (.before names s)) := by
  rw [bracketAtom, run_bind_ok run_position, run_bind, run_eat hs]
  unfold Input.bracketAtom
  cases s with
  | nil =>
    have hslash : Input.after? '\\' [] = none := rfl
    simp only [hslash, Bool.false_eq_true, if_false, run_bind, run_advance? hs]
    exact .fail (List.suffix_refl [])
  | cons cp s =>
    have hs' : s <:+ text := (List.suffix_cons cp s).trans hs
    by_cases hcp : cp.toChar = '\\'
    · have hslash : Input.after? '\\' (cp :: s) = some s := if_pos hcp
      simp only [hslash, if_pos hcp]
      refine Ends.of_suffix ?_ (List.suffix_cons cp s)
      refine (classEscape_reads (cp :: s) hs').bind (fun h => ?_) (fun e r hr h => ?_)
        fun f hf => ⟨rfl, ?_⟩
      · rw [h]
        simp only [run_bind, run_eat hs']
        cases hb : Input.after? 'b' s with
        | some r => exact .ok (Input.after?_eq_some hb).1 ⟨rfl, rfl⟩
        | none => exact (charEscape_reads (cp :: s) hs').map fun cp => ClassMember.literal cp
      · rw [h]
        exact .ok (List.suffix_refl r) ⟨rfl, rfl⟩
      · rw [hf]
    · have hslash : Input.after? '\\' (cp :: s) = none := if_neg hcp
      simp only [hslash, if_neg hcp, Bool.false_eq_true, if_false, run_bind, run_advance? hs]
      exact .ok (List.suffix_cons cp s)

theorem rangeAhead_eq (hs : s <:+ text) :
    (rangeAhead : Scan text _).run (.before names s) =
      .ok (Input.rangeAhead s) (.before names s) := by
  rw [rangeAhead, run_bind_ok (run_peek hs 2), Input.rangeAhead]
  generalize Input.peek 2 s = ahead
  split
  · rfl
  · simp only [run_pure, *]

theorem bracketMember_reads (hs : s <:+ text) :
    Reads names s (Input.bracketMember s)
      ((bracketMember : Scan text _).run (.before names s)) := by
  simp only [Input.bracketMember, bind, Except.bind, pure, Except.pure]
  rw [bracketMember, run_bind_ok run_position]
  refine (bracketAtom_reads hs).bind (fun lo r hr h => ?_) fun f hf => ⟨rfl, by rw [hf]⟩
  rw [h]
  have hrs := hr.trans hs
  dsimp only
  rw [run_bind_ok (rangeAhead_eq hrs)]
  cases hrange : Input.rangeAhead r with
  | false => exact .ok (List.suffix_refl r) ⟨rfl, rfl⟩
  | true =>
    cases r with
    | nil => cases hrange
    | cons hyphen r =>
      simp only [if_true, run_bind_ok (run_skip_one hrs), List.drop_one, List.tail_cons]
      refine Ends.of_suffix ?_ (List.suffix_cons hyphen r)
      have hrs₁ := (List.suffix_cons hyphen r).trans hrs
      refine (bracketAtom_reads hrs₁).bind (fun hi r₁ hr₁ h => ?_) fun f hf => ⟨rfl, by rw [hf]⟩
      rw [h]
      dsimp only
      cases lo with
      | literal lo =>
        cases hi with
        | literal hi =>
          dsimp only
          split
          · exact .fail (List.suffix_refl r₁) ⟨rfl, rfl⟩
          · exact .ok (List.suffix_refl r₁) ⟨rfl, rfl⟩
        | range _ _ =>
          exact .fail (List.suffix_refl r₁) ⟨rfl, rfl⟩
        | escape _ =>
          exact .fail (List.suffix_refl r₁) ⟨rfl, rfl⟩
      | range _ _ => exact .fail (List.suffix_refl r₁) ⟨rfl, rfl⟩
      | escape _ => exact .fail (List.suffix_refl r₁) ⟨rfl, rfl⟩

/-- What the turns of `bracketClass` read from `s` on behind the given members. -/
def membersFrom (start : Input) (members : List ClassMember) (s : Input) :
    Reading (List ClassMember × Input) :=
  (Input.bracketMembers start s).map fun (ms, r) => (members ++ ms, r)

theorem membersFrom_cons {start : Input} {members : List ClassMember} {cp : CodePoint}
    (hclose : cp.toChar ≠ ']') : membersFrom start members (cp :: s) =
      match Input.bracketMember (cp :: s) with
      | .error f => .error f
      | .ok (m, r) => membersFrom start (members ++ [m]) r := by
  rw [membersFrom, Input.bracketMembers, if_neg hclose]
  split
  case h_1 hm =>
    rw [hm]
    rfl
  case h_2 m r hm =>
    rw [hm]
    dsimp only [membersFrom]
    cases Input.bracketMembers start r with
    | error f => rfl
    | ok x =>
      show Except.ok (members ++ m :: x.1, x.2) = Except.ok (members ++ [m] ++ x.1, x.2)
      rw [List.append_assoc]
      rfl

theorem bracketTurn_reads (start : Input) (members : List ClassMember) (hs : s <:+ text) :
    TurnReads (membersFrom start) members names s
      ((bracketTurn (text.length - start.length) members : Scan text _).run (.before names s)) := by
  rw [bracketTurn, run_bind_ok (run_peek? hs)]
  cases s with
  | nil =>
    exact .fail (List.suffix_refl [])
      (by rw [membersFrom, Input.bracketMembers]; rfl)
  | cons cp s =>
    simp only [Input.peek?_cons]
    by_cases hclose : cp.toChar = ']'
    · rw [if_pos hclose, run_bind_ok (run_skip_one hs)]
      refine .done (List.suffix_cons cp s) ?_
      rw [membersFrom, Input.bracketMembers, if_pos hclose]
      show Except.ok (members ++ [], s) = _
      rw [List.append_nil]
    · rw [if_neg hclose]
      have hmembers := @membersFrom_cons s start members cp hclose
      rw [run_bind]
      have hmember := @bracketMember_reads text names (cp :: s) hs
      generalize (bracketMember : Scan text _).run (.before names (cp :: s)) = x at hmember
      cases hmember with
      | ok hr h =>
        obtain ⟨rfl, h⟩ := h
        rw [h] at hmembers
        exact .again (Input.bracketMember_shorter h) hmembers
      | error hr h =>
        obtain ⟨rfl, h⟩ := h
        rw [h] at hmembers
        exact .error hr ⟨rfl, hmembers⟩

theorem bracketClass_reads {cp : CodePoint} (hs : cp :: s <:+ text) :
    Reads names (cp :: s) (Input.bracketClass (cp :: s) s)
      ((bracketClass : Scan text _).run (.before names (cp :: s))) := by
  have hs' : s <:+ text := (List.suffix_cons cp s).trans hs
  rw [bracketClass, run_bind_ok run_position, run_bind_ok (run_skip_one hs)]
  refine Ends.of_suffix ?_ (List.suffix_cons cp s)
  have hmembers (negated : Bool) {r : Input} (hr : r <:+ text) :
      Reads names r ((Input.bracketMembers (cp :: s) r).map fun (ms, r) =>
          (CharExpr.bracket negated ms, r))
        ((do return .bracket negated (← loop (bracketTurn (text.length - (cp :: s).length)) []) :
          Scan text _).run (.before names r)) := by
    have hfrom : membersFrom (cp :: s) [] r = Input.bracketMembers (cp :: s) r := by
      rw [membersFrom]
      cases Input.bracketMembers (cp :: s) r with
      | error f => rfl
      | ok x => rfl
    rw [← hfrom]
    exact (TurnReads.loop (fun x names r hr => bracketTurn_reads _ x hr) [] hr).map
      fun ms => CharExpr.bracket negated ms
  rw [run_bind, run_eat hs', Input.bracketClass]
  cases hneg : Input.after? '^' s with
  | none => exact hmembers false hs'
  | some r =>
    have hr := (Input.after?_eq_some hneg).1
    exact Ends.of_suffix (hmembers true (hr.trans hs')) hr

end Scan

end Retrace
