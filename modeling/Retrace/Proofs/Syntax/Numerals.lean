import Mathlib.Data.List.Induction
import Mathlib.Data.Nat.Digits.Defs
import Retrace.Proofs.Syntax.Decimals
import Retrace.Proofs.Syntax.ErrorPlaces

/-!
# Exact values of numerals

The numerals of a pattern are of any length and are read in 32 bits: decimal ones with arithmetic
that stops where a result does not fit, the hexadecimal ones of a braced escape with plain
arithmetic and a test behind each digit. What counts is only the value of the whole numeral, leading
zeros included, since further digits never make it smaller.

Results:

* `Input.numeralFrom_zero`: reading digit by digit comes to the value of the numeral.
* `Input.bracedHexFrom_eq_ok_iff`, `Input.bracedHexFrom_eq_error_iff`: when a braced escape denotes
  a code point.
* `Input.decimalWordFrom_toNat`, `Input.bracedHexWordFrom_toNat`: in 32 bits the readers do the
  same, and nothing that is computed wraps around.
* `Input.numerals_exact`: both readers answer the exact value or an error.
-/

namespace Retrace

namespace Numeral

/-- The value of a decimal digit, or of a hexadecimal one in either case. -/
def digitValue (c : Char) : Nat :=
  if c ≤ '9' then c.toNat - '0'.toNat
  else if c ≤ 'F' then 10 + (c.toNat - 'A'.toNat)
  else 10 + (c.toNat - 'a'.toNat)

/-- The number that digits write in a base, the most significant one first. -/
def value (base : Nat) (cs : List Char) : Nat := Nat.ofDigits base (cs.reverse.map digitValue)

theorem value_concat (base : Nat) (cs : List Char) (c : Char) :
    value base (cs ++ [c]) = base * value base cs + digitValue c := by
  rw [value, List.reverse_append, List.reverse_singleton, List.singleton_append, List.map_cons,
    Nat.ofDigits_cons, Nat.add_comm]
  rfl

end Numeral

namespace Input

/-- Whether a character is a hexadecimal digit. -/
def isHex (c : Char) : Bool := isDecimal c || ('a' ≤ c && c ≤ 'f') || ('A' ≤ c && c ≤ 'F')

/-- The number that a text of digits writes in a base. -/
def numeral (base : Nat) (ds : Input) : Nat := Numeral.value base (ds.map CodePoint.toChar)

/-- The number that is written by digits behind those of `value`. -/
def numeralFrom (base value : Nat) (ds : Input) : Nat :=
  ds.foldl (fun value cp => base * value + Numeral.digitValue cp.toChar) value

/-- More digits never make a number smaller. -/
theorem le_numeralFrom {base : Nat} (hb : 0 < base) (value : Nat) (ds : Input) :
    value ≤ numeralFrom base value ds := by
  induction ds generalizing value with
  | nil => exact Nat.le_refl value
  | cons cp ds ih =>
    calc value ≤ base * value := Nat.le_mul_of_pos_left value hb
      _ ≤ base * value + Numeral.digitValue cp.toChar := Nat.le_add_right _ _
      _ ≤ numeralFrom base value (cp :: ds) := ih _

/-- Reading digit by digit comes to the number that the digits write. -/
theorem numeralFrom_zero (base : Nat) (ds : Input) : numeralFrom base 0 ds = numeral base ds := by
  induction ds using List.reverseRecOn with
  | nil => rfl
  | append_singleton ds cp ih =>
    rw [numeral, List.map_append, List.map_singleton, Numeral.value_concat, ← numeral, ← ih,
      numeralFrom, List.foldl_append]
    rfl

/-! ## Decimal numerals -/

theorem digitValue_of_isDecimal {c : Char} (h : isDecimal c) :
    Numeral.digitValue c = c.toNat - 0x30 := by
  have hle : c ≤ '9' := (Bool.and_eq_true_iff.mp h).2 |> of_decide_eq_true
  exact if_pos hle

theorem valueFrom_eq_numeralFrom {ds : Input} (hds : ∀ d ∈ ds, isDecimal d.toChar) (value : Nat) :
    valueFrom value ds = numeralFrom 10 value ds := by
  induction ds generalizing value with
  | nil => rfl
  | cons d ds ih =>
    have hd : Numeral.digitValue d.toChar = d.toChar.toNat - 0x30 :=
      digitValue_of_isDecimal (hds d List.mem_cons_self)
    calc valueFrom value (d :: ds)
      _ = valueFrom (10 * value + Numeral.digitValue d.toChar) ds := by rw [hd]; rfl
      _ = numeralFrom 10 value (d :: ds) := ih (fun e he => hds e (List.mem_cons_of_mem d he)) _

theorem decimalValue_digits (s : Input) : decimalValue (digits s) = numeral 10 (digits s) :=
  (valueFrom_eq_numeralFrom (fun _ => isDecimal_of_mem_digits) 0).trans (numeralFrom_zero 10 _)

/-! ## Hexadecimal numerals in braces -/

/-- The hexadecimal digits and their values. -/
theorem digit?_sixteen (c : Char) :
    Numeral.digit? 16 c = if isHex c then some (Numeral.digitValue c) else none := by
  have hle (a b : Char) : a ≤ b ↔ a.toNat ≤ b.toNat := Iff.rfl
  have h0 : '0'.toNat = 48 := rfl
  have h9 : '9'.toNat = 57 := rfl
  have hA : 'A'.toNat = 65 := rfl
  have hF : 'F'.toNat = 70 := rfl
  have ha : 'a'.toNat = 97 := rfl
  have hf : 'f'.toNat = 102 := rfl
  simp only [Numeral.digit?, Numeral.digitValue, isHex, isDecimal, hle, Bool.and_eq_true,
    Bool.or_eq_true, decide_eq_true_eq, h0, h9, hA, hF, ha, hf]
  grind

/-- A text consists of hexadecimal digits that write `n`, at least one, the closing brace and
    `r`. -/
def BracedHex (s : Input) (n : Nat) (r : Input) : Prop :=
  ∃ ds, ds ≠ [] ∧ (∀ d ∈ ds, isHex d.toChar) ∧ s = ds ++ CodePoint.ofChar '}' :: r ∧
    n = numeral 16 ds

theorem bracedHexFrom_cons {start s : Input} {value : Option Nat} {cp : CodePoint}
    (hcp : isHex cp.toChar) : bracedHexFrom start value (cp :: s) =
      if CodePoint.last < 16 * value.getD 0 + Numeral.digitValue cp.toChar then
        .error ⟨.invalidUnicodeEscape, start⟩
      else bracedHexFrom start (some (16 * value.getD 0 + Numeral.digitValue cp.toChar)) s := by
  rw [bracedHexFrom.eq_def]
  simp only [digit?_sixteen, if_pos hcp]

theorem bracedHexFrom_brace {start r : Input} {n : Nat} :
    bracedHexFrom start (some n) (CodePoint.ofChar '}' :: r) = .ok (n, r) := by
  rw [bracedHexFrom.eq_def]
  simp only [CodePoint.toChar_ofChar]
  rfl

/-- What is read behind the digits of `value` is the number of all digits up to the brace. -/
theorem of_bracedHexFrom {start s r : Input} {value : Option Nat} {cp : CodePoint}
    (h : bracedHexFrom start value s = .ok (cp, r)) :
    ∃ ds, (∀ d ∈ ds, isHex d.toChar) ∧ (value = none → ds ≠ []) ∧
      s = ds ++ CodePoint.ofChar '}' :: r ∧ cp = numeralFrom 16 (value.getD 0) ds := by
  induction s generalizing value with
  | nil => cases h
  | cons c s ih =>
    by_cases hc : isHex c.toChar
    · rw [bracedHexFrom_cons hc] at h
      split at h
      case isTrue => cases h
      case isFalse =>
        obtain ⟨ds, hds, -, rfl, rfl⟩ := ih h
        exact ⟨c :: ds, List.forall_mem_cons.mpr ⟨hc, hds⟩, fun _ => List.cons_ne_nil c ds, rfl,
          rfl⟩
    · unfold bracedHexFrom at h
      simp only [digit?_sixteen, if_neg hc] at h
      split at h
      case h_2 => cases h
      case h_1 n =>
        split at h
        case isFalse => cases h
        case isTrue hbrace =>
          cases h
          rw [(CodePoint.toChar_eq_iff (by decide)).mp hbrace]
          exact ⟨[], fun _ hd => absurd hd List.not_mem_nil, fun hn => absurd hn nofun, rfl, rfl⟩

/-- A numeral up to the last code point is read behind the digits of `value`, since none of its
    beginnings writes a larger number. -/
theorem bracedHexFrom_digits {start r ds : Input} {value : Option Nat}
    (hds : ∀ d ∈ ds, isHex d.toChar) (hv : value = none → ds ≠ [])
    (hle : numeralFrom 16 (value.getD 0) ds ≤ CodePoint.last) :
    bracedHexFrom start value (ds ++ CodePoint.ofChar '}' :: r) =
      .ok (numeralFrom 16 (value.getD 0) ds, r) := by
  induction ds generalizing value with
  | nil =>
    cases value with
    | none => exact absurd rfl (hv rfl)
    | some n => exact bracedHexFrom_brace
  | cons d ds ih =>
    obtain ⟨hd, hds⟩ := List.forall_mem_cons.mp hds
    have hnext : 16 * value.getD 0 + Numeral.digitValue d.toChar ≤ CodePoint.last :=
      Nat.le_trans (le_numeralFrom (by decide) _ ds) hle
    rw [List.cons_append, bracedHexFrom_cons hd, if_neg (Nat.not_lt.mpr hnext)]
    exact ih hds (fun hn => absurd hn nofun) hle

theorem bracedHexFrom_eq_ok_iff {start s r : Input} {cp : CodePoint} :
    bracedHexFrom start none s = .ok (cp, r) ↔ BracedHex s cp r ∧ cp ≤ CodePoint.last := by
  constructor
  · intro h
    obtain ⟨ds, hds, hne, hs, hcp⟩ := of_bracedHexFrom h
    exact ⟨⟨ds, hne rfl, hds, hs, hcp.trans (numeralFrom_zero 16 ds)⟩,
      bracedHexFrom_le (by simp) h⟩
  · rintro ⟨⟨ds, hne, hds, rfl, rfl⟩, hle⟩
    rw [← numeralFrom_zero] at hle ⊢
    exact bracedHexFrom_digits hds (fun _ => hne) hle

theorem bracedHexFrom_eq_error_iff {start s : Input} {f : Failure} :
    bracedHexFrom start none s = .error f ↔
      f = ⟨.invalidUnicodeEscape, start⟩ ∧ ¬∃ n r, BracedHex s n r ∧ n ≤ CodePoint.last := by
  constructor
  · intro h
    refine ⟨bracedHexFrom_error h, ?_⟩
    rintro ⟨n, r, hn⟩
    rw [bracedHexFrom_eq_ok_iff.mpr hn] at h
    cases h
  · rintro ⟨rfl, hnone⟩
    cases h : bracedHexFrom start none s with
    | error f => rw [bracedHexFrom_error h]
    | ok x => exact absurd ⟨x.1, x.2, bracedHexFrom_eq_ok_iff.mp h⟩ hnone

theorem charEscape_braced (start s : Input) :
    charEscape start (ofChars ['u', '{'] ++ s) = bracedHexFrom start none s := by
  simp only [charEscape, ofChars_cons, ofChars_nil, List.cons_append, List.nil_append,
    CodePoint.toChar_ofChar, after?_ofChar]

/-! ## The readers in 32 bits -/

/-- The number of 32 bits that `d` makes of `value` as the next digit in a base, if neither the
    product nor the sum is too large. -/
def mulAdd? (value base d : BitVec 32) : Option (BitVec 32) :=
  if value.umulOverflow base || (value * base).uaddOverflow d then none
  else some (value * base + d)

theorem mulAdd?_of_lt (value base d : BitVec 32)
    (h : base.toNat * value.toNat + d.toNat < 2 ^ 32) :
    ∃ next, mulAdd? value base d = some next ∧
      next.toNat = base.toNat * value.toNat + d.toNat := by
  have hmul : (value * base).toNat = base.toNat * value.toNat := by
    rw [BitVec.toNat_mul, Nat.mul_comm, Nat.mod_eq_of_lt (by omega)]
  refine ⟨value * base + d, if_neg ?_, ?_⟩
  · simp only [BitVec.umulOverflow, BitVec.uaddOverflow, hmul, Bool.or_eq_true, decide_eq_true_eq,
      Nat.mul_comm value.toNat]
    omega
  · rw [BitVec.toNat_add, hmul, Nat.mod_eq_of_lt h]

theorem mulAdd?_of_le (value base d : BitVec 32)
    (h : 2 ^ 32 ≤ base.toNat * value.toNat + d.toNat) : mulAdd? value base d = none := by
  refine if_pos ?_
  simp only [BitVec.umulOverflow, BitVec.uaddOverflow, Bool.or_eq_true, decide_eq_true_eq,
    Nat.mul_comm value.toNat, BitVec.toNat_mul]
  by_cases hmul : base.toNat * value.toNat < 2 ^ 32
  · exact .inr (by rwa [Nat.mod_eq_of_lt hmul])
  · exact .inl (Nat.le_of_not_lt hmul)

theorem toNat_ofNat_digit {base d : Nat} {c : Char} (hb : base ≤ 2 ^ 32)
    (h : Numeral.digit? base c = some d) : (BitVec.ofNat 32 d).toNat = d := by
  have hd := Numeral.digit?_lt h
  rw [BitVec.toNat_ofNat, Nat.mod_eq_of_lt (by omega)]

/-- What was read as a number of 32 bits, with the number itself. -/
def unsigned (x : BitVec 32 × Input) : Nat × Input := (x.1.toNat, x.2)

/-- `decimalFrom` in 32 bits: an operation whose result does not fit is an error. -/
def decimalWordFrom (start : Input) (value : BitVec 32) : Input → Reading (BitVec 32 × Input)
  | [] => .ok (value, [])
  | cp :: s =>
    match Numeral.digit? 10 cp.toChar with
    | none => .ok (value, cp :: s)
    | some d =>
      match mulAdd? value 10 (BitVec.ofNat 32 d) with
      | some next => decimalWordFrom start next s
      | none => .error ⟨.numberTooLarge, start⟩

/-- `bracedHexFrom` in 32 bits, `none` as soon as the result of an operation does not fit. -/
def bracedHexWordFrom (start : Input) (value : Option (BitVec 32)) :
    Input → Option (Reading (BitVec 32 × Input))
  | [] => some (.error ⟨.invalidUnicodeEscape, start⟩)
  | cp :: s =>
    match Numeral.digit? 16 cp.toChar with
    | some d =>
      match mulAdd? (value.getD 0) 16 (BitVec.ofNat 32 d) with
      | some next =>
        if CodePoint.last < next.toNat then some (.error ⟨.invalidUnicodeEscape, start⟩)
        else bracedHexWordFrom start (some next) s
      | none => none
    | none =>
      match value with
      | some value =>
        if cp.toChar = '}' then some (.ok (value, s))
        else some (.error ⟨.invalidUnicodeEscape, start⟩)
      | none => some (.error ⟨.invalidUnicodeEscape, start⟩)

theorem decimalWordFrom_toNat (start : Input) (value : BitVec 32) (s : Input) :
    (decimalWordFrom start value s).map unsigned = decimalFrom start value.toNat s := by
  induction s generalizing value with
  | nil => rfl
  | cons cp s ih =>
    unfold decimalWordFrom decimalFrom
    cases hd : Numeral.digit? 10 cp.toChar with
    | none => rfl
    | some d =>
      have hdigit := toNat_ofNat_digit (by decide) hd
      by_cases hlt : 10 * value.toNat + d < numberBound
      · obtain ⟨next, hnext, hn⟩ := mulAdd?_of_lt value 10 (BitVec.ofNat 32 d)
          (hdigit.symm ▸ hlt)
        simp only [hnext, if_pos hlt, ih, hn, hdigit]
        rfl
      · have hnext := mulAdd?_of_le value 10 (BitVec.ofNat 32 d)
          (hdigit.symm ▸ Nat.le_of_not_lt hlt)
        simp only [hnext, if_neg hlt]
        rfl

/-- No operation of the hexadecimal reader wraps around, since the value before it is that of a code
    point. -/
theorem bracedHexWordFrom_toNat (start : Input) (value : Option (BitVec 32))
    (hv : (value.getD 0).toNat ≤ CodePoint.last) (s : Input) :
    ∃ x, bracedHexWordFrom start value s = some x ∧
      x.map unsigned = bracedHexFrom start (value.map BitVec.toNat) s := by
  induction s generalizing value with
  | nil => exact ⟨_, rfl, rfl⟩
  | cons cp s ih =>
    unfold bracedHexWordFrom bracedHexFrom
    cases hd : Numeral.digit? 16 cp.toChar with
    | none =>
      cases value with
      | none => exact ⟨_, rfl, rfl⟩
      | some n =>
        by_cases hbrace : cp.toChar = '}'
        · simp only [if_pos hbrace]
          exact ⟨_, rfl, rfl⟩
        · simp only [if_neg hbrace]
          exact ⟨_, rfl, rfl⟩
    | some d =>
      have hdigit := toNat_ofNat_digit (by decide) hd
      have hd := Numeral.digit?_lt hd
      have hvalue : (value.map BitVec.toNat).getD 0 = (value.getD 0).toNat := by
        cases value with
        | none => rfl
        | some n => rfl
      have hfits : 16 * (value.getD 0).toNat + d < 2 ^ 32 := by
        have hv : (value.getD 0).toNat ≤ 0x10FFFF := hv
        omega
      obtain ⟨next, hnext, hn⟩ := mulAdd?_of_lt (value.getD 0) 16
        (BitVec.ofNat 32 d) (hdigit.symm ▸ hfits)
      have hn : next.toNat = 16 * (value.getD 0).toNat + d := by rw [hn, hdigit]; rfl
      simp only [hnext, hvalue, ← hn]
      by_cases hlarge : CodePoint.last < next.toNat
      · simp only [if_pos hlarge]
        exact ⟨_, rfl, rfl⟩
      · simp only [if_neg hlarge]
        exact ih (some next) (Nat.le_of_not_lt hlarge)

/-! ## Both readers -/

/-- A number is read if digits stand at the beginning of the input. It has their exact value, and
    reading goes on behind them; a value that does not fit into 32 bits is an error at the first
    digit. A braced escape denotes a code point exactly if hexadecimal digits, at least one, write
    it before the closing brace, and reading goes on behind the brace; anything else is an error at
    the backslash, which stands at `start`. In 32 bits both readers come to the same, and no product
    or sum of the hexadecimal one is too large. -/
theorem numerals_exact :
    (∀ s, decimal? s =
        if digits s = [] then .ok none
        else if numeral 10 (digits s) < 2 ^ 32 then
          .ok (some (numeral 10 (digits s), behindDigits s))
        else .error ⟨.numberTooLarge, s⟩) ∧
      (∀ start s, decimalFrom start 0 s =
        if numeral 10 (digits s) < 2 ^ 32 then .ok (numeral 10 (digits s), behindDigits s)
        else .error ⟨.numberTooLarge, start⟩) ∧
      (∀ start s cp r, charEscape start (ofChars ['u', '{'] ++ s) = .ok (cp, r) ↔
        BracedHex s cp r ∧ cp ≤ CodePoint.last) ∧
      (∀ start s f, charEscape start (ofChars ['u', '{'] ++ s) = .error f ↔
        f = ⟨.invalidUnicodeEscape, start⟩ ∧ ¬∃ cp r, BracedHex s cp r ∧ cp ≤ CodePoint.last) ∧
      (∀ start s, (decimalWordFrom start 0 s).map unsigned = decimalFrom start 0 s) ∧
      ∀ start s, ∃ x, bracedHexWordFrom start none s = some x ∧
        x.map unsigned = charEscape start (ofChars ['u', '{'] ++ s) := by
  refine ⟨fun s => ?_, fun start s => ?_, fun start s cp r => ?_, fun start s f => ?_,
    fun start s => ?_, fun start s => ?_⟩
  · rw [decimal?_eq, decimalValue_digits]
    rfl
  · rw [decimalFrom_eq (by decide), ← decimalValue, decimalValue_digits]
    rfl
  · rw [charEscape_braced]
    exact bracedHexFrom_eq_ok_iff
  · rw [charEscape_braced]
    exact bracedHexFrom_eq_error_iff
  · exact decimalWordFrom_toNat start 0 s
  · rw [charEscape_braced]
    exact bracedHexWordFrom_toNat start none (Nat.zero_le _) s

end Input

end Retrace
