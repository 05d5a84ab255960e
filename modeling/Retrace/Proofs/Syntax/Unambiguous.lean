import Mathlib.Data.List.Basic
import Mathlib.Data.List.TakeWhile
import Retrace.Proofs.Syntax.Spelling

/-!
# Texts that tell where they end

The texts of code points, class escapes and bracket classes show what they are of and where they
end: of two different ones, neither is the beginning of the other. Numerals and names do so in front
of a character that cannot be a part of them.

This holds of every code point, even if it is larger than any that the text of a pattern can denote.

Results:

* `Numeral.write_append_inj`: a numeral in front of what is no digit.
* `CodePoint.print_prefixFree`, `ClassEscape.print_prefixFree`: literals and class escapes.
* `CharExpr.bracket_append_inj`: bracket classes.
-/

namespace Retrace

/-- Whether no text of one thing with `P` begins the text of another one. -/
def PrefixFree {α : Type} (P : α → Prop) (text : α → List Char) : Prop :=
  ∀ ⦃a b : α⦄, P a → P b → ∀ ⦃r s : List Char⦄, text a ++ r = text b ++ s → a = b ∧ r = s

/-- Texts one after another can be told apart as well, unless there is nothing to them. -/
theorem PrefixFree.flatMap_inj {α : Type} {P : α → Prop} {text : α → List Char}
    (h : PrefixFree P text) (hne : ∀ a, P a → text a ≠ []) {as bs : List α} (has : ∀ a ∈ as, P a)
    (hbs : ∀ b ∈ bs, P b) (heq : as.flatMap text = bs.flatMap text) : as = bs := by
  induction as generalizing bs with
  | nil =>
    cases bs with
    | nil => rfl
    | cons b bs =>
      rw [List.flatMap_cons] at heq
      exact absurd (List.append_eq_nil_iff.mp heq.symm).1 (hne b (hbs b List.mem_cons_self))
  | cons a as ih =>
    rw [List.forall_mem_cons] at has
    cases bs with
    | nil =>
      rw [List.flatMap_cons] at heq
      exact absurd (List.append_eq_nil_iff.mp heq).1 (hne a has.1)
    | cons b bs =>
      rw [List.forall_mem_cons] at hbs
      rw [List.flatMap_cons, List.flatMap_cons] at heq
      obtain ⟨rfl, hrest⟩ := h has.1 hbs.1 heq
      rw [ih has.2 hbs.2 hrest]

/-- Texts of characters of one kind, in front of other characters. -/
theorem append_cons_inj {f : Char → Bool} {a b r s : List Char} {c d : Char} (ha : ∀ x ∈ a, f x)
    (hb : ∀ x ∈ b, f x) (hc : f c = false) (hd : f d = false) (h : a ++ c :: r = b ++ d :: s) :
    a = b ∧ c = d ∧ r = s := by
  have hab : a = b := by
    have htake := congrArg (List.takeWhile f) h
    rw [List.takeWhile_append_of_pos ha, List.takeWhile_append_of_pos hb] at htake
    simpa [hc, hd] using htake
  subst hab
  exact ⟨rfl, List.cons.inj (List.append_cancel_left h)⟩

/-! ## Numerals -/

namespace Numeral

variable {base : Nat}

theorem two_le_of_mem (hb : base ∈ [10, 16]) : 2 ≤ base := by
  have hall : ∀ base ∈ [10, 16], 2 ≤ base := by decide
  exact hall base hb

theorem write_digits (hb : base ∈ [10, 16]) (n : Nat) :
    ∀ c ∈ write base n, (digit? base c).isSome := by
  have hle := two_le_of_mem hb
  have digit {d : Nat} (hd : d < base) : (digit? base (digitChar d)).isSome := by
    rw [digit?_digitChar base hb d hd]
    rfl
  induction n using Nat.strongRecOn with
  | ind n ih =>
    rw [write]
    split
    case isTrue h =>
      refine List.forall_mem_append.mpr ⟨ih (n / base) (Nat.div_lt_self (by omega) (by omega)), ?_⟩
      exact List.forall_mem_singleton.mpr (digit (Nat.mod_lt n (by omega)))
    case isFalse h => exact List.forall_mem_singleton.mpr (digit (by omega))

/-- A numeral has the value of its number. -/
theorem read?_write (hb : base ∈ [10, 16]) (n : Nat) : read? base (write base n) = some n := by
  have hle := two_le_of_mem hb
  induction n using Nat.strongRecOn with
  | ind n ih =>
    rw [write]
    split
    case isTrue h =>
      have hquot := ih (n / base) (Nat.div_lt_self (by omega) (by omega))
      unfold read? at hquot ⊢
      rw [List.foldl_append, hquot]
      simp [digit?_digitChar base hb (n % base) (Nat.mod_lt n (by omega)), Nat.div_add_mod]
    case isFalse h => simp [read?, digit?_digitChar base hb n (by omega)]

theorem write_inj (hb : base ∈ [10, 16]) {n m : Nat} (h : write base n = write base m) : n = m := by
  have hread := read?_write hb n
  rw [h, read?_write hb m] at hread
  exact (Option.some.inj hread).symm

/-- A numeral begins with a digit. -/
theorem write_append_ne (hb : base ∈ [10, 16]) {c : Char} (hc : digit? base c = none) (n : Nat)
    (r s : List Char) : write base n ++ r ≠ c :: s := by
  obtain ⟨d, cs, hw, hd, -⟩ := write_eq_cons (two_le_of_mem hb) n
  rw [hw]
  intro h
  have hdigit := digit?_digitChar base hb d hd
  rw [(List.cons.inj h).1, hc] at hdigit
  cases hdigit

/-- A numeral in front of what is no digit. -/
theorem write_append_inj (hb : base ∈ [10, 16]) {n m : Nat} {r s : List Char} {c d : Char}
    (hc : digit? base c = none) (hd : digit? base d = none)
    (h : write base n ++ c :: r = write base m ++ d :: s) : n = m ∧ c = d ∧ r = s := by
  obtain ⟨hwrite, hrest⟩ := append_cons_inj (f := fun c => (digit? base c).isSome)
    (write_digits hb n) (write_digits hb m) (by simp [hc]) (by simp [hd]) h
  exact ⟨write_inj hb hwrite, hrest⟩

end Numeral

/-! ## Code points -/

namespace CodePoint

/-- What a character denotes behind a backslash where it is the only one of the escape. -/
def ofEscape : Char → CodePoint
  | 'n' => 0x0A
  | 'r' => 0x0D
  | 't' => 0x09
  | 'v' => 0x0B
  | 'f' => 0x0C
  | '0' => 0x00
  | c => ofChar c

/-- How a code point is written where `special` says which characters need a backslash: as the
    character it is, as an escape of one character, or by its number. -/
inductive Written (special : Char → Bool) : CodePoint → List Char → Prop where
  | plain {c : Char} {cp : CodePoint} (hc : special c = false) (hcp : cp = ofChar c) :
    Written special cp [c]
  | escaped {c : Char} {cp : CodePoint} (hc : c ∉ 'u' :: classChars) (hcp : cp = ofEscape c) :
    Written special cp ['\\', c]
  | hex (cp : CodePoint) : Written special cp (printHex cp)

variable {special : Char → Bool}

section Special

variable (hs : ∀ c, special c → Input.isLetter c = false ∧ Input.isDecimal c = false)

include hs

theorem ofEscape_of_special {c : Char} (hc : special c) : ofEscape c = ofChar c := by
  have hx {x : Char} (hx : Input.isLetter x ∨ Input.isDecimal x) : c ≠ x := by
    rintro rfl
    simp [hs c hc] at hx
  unfold ofEscape
  split
  case h_7 => rfl
  all_goals exact absurd rfl (hx (by decide))

theorem print_written (cp : CodePoint) : Written special cp (cp.print special) := by
  unfold print
  split
  case h_7 =>
    split
    case isTrue => exact .hex cp
    case isFalse h =>
      have hv : cp.isValidChar := Decidable.of_not_not fun hv => h (.inl hv)
      have hc : ofChar cp.toChar = cp := by
        rw [toChar, if_pos hv, ofChar, Char.ofNat, dif_pos hv]
        rfl
      split
      case isTrue hsp =>
        have hletters : ('u' :: classChars).all Input.isLetter := by decide
        refine .escaped (fun hmem => ?_) ?_
        · have := List.all_eq_true.mp hletters _ hmem
          simp [hs _ hsp] at this
        · rw [ofEscape_of_special hs hsp, hc]
      case isFalse hsp => exact .plain (by simpa using hsp) hc.symm
  all_goals exact .escaped (by decide) rfl

end Special

/-- Neither of two texts of different code points begins the other. -/
theorem Written.inj (hs : special '\\') {cp cp' : CodePoint} {a b r s : List Char}
    (ha : Written special cp a) (hb : Written special cp' b) (h : a ++ r = b ++ s) :
    cp = cp' ∧ r = s := by
  have hplain {c : Char} (hc : special c = false) : c ≠ '\\' := by
    rintro rfl
    simp [hs] at hc
  cases ha with
  | @plain c _ hc hcp =>
    cases hb with
    | plain hc' hcp' =>
      obtain ⟨rfl, rfl⟩ := List.cons.inj h
      exact ⟨hcp.trans hcp'.symm, rfl⟩
    | escaped | hex => exact absurd (List.cons.inj h).1 (hplain hc)
  | @escaped c _ hc hcp =>
    cases hb with
    | plain hc' => exact absurd (List.cons.inj h).1.symm (hplain hc')
    | escaped hc' hcp' =>
      obtain ⟨-, h⟩ := List.cons.inj h
      obtain ⟨rfl, rfl⟩ := List.cons.inj h
      exact ⟨hcp.trans hcp'.symm, rfl⟩
    | hex =>
      obtain ⟨-, h⟩ := List.cons.inj h
      exact absurd (List.mem_cons.mpr (.inl (List.cons.inj h).1)) hc
  | hex =>
    cases hb with
    | plain hc' => exact absurd (List.cons.inj h).1.symm (hplain hc')
    | escaped hc' =>
      obtain ⟨-, h⟩ := List.cons.inj h
      exact absurd (List.mem_cons.mpr (.inl (List.cons.inj h).1.symm)) hc'
    | hex =>
      have hbrace : Numeral.digit? 16 '}' = none := by decide
      simp only [printHex, List.append_assoc, List.cons_append, List.nil_append, List.cons.injEq,
        true_and] at h
      obtain ⟨hcp, -, hrest⟩ := Numeral.write_append_inj (by decide) hbrace hbrace h
      exact ⟨hcp, hrest⟩

/-- No text of a code point begins like a class escape. -/
theorem Written.append_ne_classEscape (hbackslash : special '\\') {cp : CodePoint}
    {text : List Char} (h : Written special cp text) (e : ClassEscape) (r s : List Char) :
    text ++ r ≠ e.print ++ s := by
  obtain ⟨c, cs, he, hc⟩ := e.print_eq_cons
  rw [he]
  intro heq
  cases h with
  | plain hsp =>
    rw [(List.cons.inj heq).1] at hsp
    simp [hbackslash] at hsp
  | escaped hmem =>
    obtain ⟨-, heq⟩ := List.cons.inj heq
    rw [(List.cons.inj heq).1] at hmem
    exact hmem (List.mem_cons_of_mem _ hc)
  | hex =>
    obtain ⟨-, heq⟩ := List.cons.inj heq
    rw [← (List.cons.inj heq).1] at hc
    exact absurd hc (by decide)

theorem print_prefixFree
    (hs : ∀ c, special c → Input.isLetter c = false ∧ Input.isDecimal c = false)
    (hbackslash : special '\\') : PrefixFree (fun _ => True) (print special) :=
  fun cp cp' _ _ _ _ h => (print_written hs cp).inj hbackslash (print_written hs cp') h

end CodePoint

/-! ## Classes -/

theorem Input.ofChars_injective : Function.Injective ofChars :=
  List.map_injective_iff.mpr (Function.LeftInverse.injective CodePoint.toChar_ofChar)

theorem ClassEscape.print_prefixFree : PrefixFree Sound print := by
  intro e e' he he' r s h
  have htail : e.print.tail ++ r = e'.print.tail ++ s := (List.cons.inj h).2
  have hread := Input.classEscape?_print he [] (Input.ofChars r)
  rw [← Input.ofChars_append, htail, Input.ofChars_append,
    Input.classEscape?_print he' [] (Input.ofChars s)] at hread
  simp only [Except.ok.injEq, Option.some.injEq, Prod.mk.injEq] at hread
  exact ⟨hread.1.symm, Input.ofChars_injective hread.2.symm⟩

/-! ## Bracket classes -/

namespace ClassMember

theorem literal_written (cp : CodePoint) :
    CodePoint.Written CodePoint.isBracketSyntax cp (cp.print CodePoint.isBracketSyntax) :=
  CodePoint.print_written CodePoint.isBracketSyntax_not_alnum cp

theorem literal_prefixFree :
    PrefixFree (fun _ => True) (CodePoint.print CodePoint.isBracketSyntax) :=
  CodePoint.print_prefixFree CodePoint.isBracketSyntax_not_alnum (by decide)

theorem literal_ne_escape (cp : CodePoint) (e : ClassEscape) (r s : List Char) :
    cp.print CodePoint.isBracketSyntax ++ r ≠ e.print ++ s :=
  (literal_written cp).append_ne_classEscape (by decide) e r s

/-- A member begins with no character that means something between members. -/
theorem exists_print_eq_cons (m : ClassMember) :
    ∃ c cs, m.print = c :: cs ∧ c ∉ ['-', ']', '^'] := by
  have literal (cp : CodePoint) : ∃ c cs,
      cp.print CodePoint.isBracketSyntax = c :: cs ∧ c ∉ ['-', ']', '^'] := by
    have hcp := literal_written cp
    generalize cp.print CodePoint.isBracketSyntax = text at hcp
    cases hcp with
    | @plain c _ hsp =>
      refine ⟨c, [], rfl, fun hmem => ?_⟩
      have hall : ['-', ']', '^'].all CodePoint.isBracketSyntax := by decide
      simp [List.all_eq_true.mp hall c hmem] at hsp
    | escaped | hex => exact ⟨'\\', _, rfl, by decide⟩
  cases m with
  | literal cp => exact literal cp
  | range lo hi =>
    obtain ⟨c, cs, hlo, hc⟩ := literal lo
    exact ⟨c, _, by rw [print, hlo, List.cons_append], hc⟩
  | escape e => exact ⟨'\\', _, rfl, by decide⟩

/-- Neither of two texts of different members begins the other, in front of anything but the rest
    of a range. -/
theorem print_append_inj {m m' : ClassMember} (hm : m.Sound) (hm' : m'.Sound) {r s : List Char}
    (hr : r.head? ≠ some '-') (hs : s.head? ≠ some '-') (h : m.print ++ r = m'.print ++ s) :
    m = m' ∧ r = s := by
  cases m with
  | literal cp =>
    cases m' with
    | literal cp' =>
      obtain ⟨rfl, rfl⟩ := literal_prefixFree trivial trivial h
      exact ⟨rfl, rfl⟩
    | range lo' hi' =>
      simp only [print, List.append_assoc] at h
      obtain ⟨-, rfl⟩ := literal_prefixFree trivial trivial h
      exact absurd rfl hr
    | escape e' => exact absurd h (literal_ne_escape cp e' r s)
  | range lo hi =>
    simp only [print, List.append_assoc] at h
    cases m' with
    | literal cp' =>
      obtain ⟨-, rfl⟩ := literal_prefixFree trivial trivial h
      exact absurd rfl hs
    | range lo' hi' =>
      simp only [List.append_assoc] at h
      obtain ⟨rfl, hhi⟩ := literal_prefixFree trivial trivial h
      obtain ⟨rfl, rfl⟩ := literal_prefixFree trivial trivial (List.cons.inj hhi).2
      exact ⟨rfl, rfl⟩
    | escape e' => exact absurd h (literal_ne_escape lo e' _ s)
  | escape e =>
    cases m' with
    | literal cp' => exact absurd h.symm (literal_ne_escape cp' e s r)
    | range lo' hi' =>
      simp only [print, List.append_assoc] at h
      exact absurd h.symm (literal_ne_escape lo' e _ r)
    | escape e' =>
      obtain ⟨rfl, rfl⟩ := e.print_prefixFree hm hm' h
      exact ⟨rfl, rfl⟩

/-- What the members of a bracket class, up to its end, begin with. -/
theorem head?_members (ms : List ClassMember) (r : List Char) :
    ∃ c, (ms.flatMap print ++ ']' :: r).head? = some c ∧ c ∉ ['-', '^'] ∧ (c = ']' → ms = []) := by
  cases ms with
  | nil => exact ⟨']', rfl, by decide, fun _ => rfl⟩
  | cons m ms =>
    obtain ⟨c, cs, hm, hc⟩ := m.exists_print_eq_cons
    simp only [List.mem_cons, List.not_mem_nil, or_false, not_or] at hc
    refine ⟨c, by simp [hm], by simp [hc], fun h => absurd h hc.2.1⟩

/-- The members of a bracket class up to its end. -/
theorem print_members_inj {ms ms' : List ClassMember} (hms : ∀ m ∈ ms, m.Sound)
    (hms' : ∀ m ∈ ms', m.Sound) {r s : List Char}
    (h : ms.flatMap print ++ ']' :: r = ms'.flatMap print ++ ']' :: s) : ms = ms' ∧ r = s := by
  induction ms generalizing ms' with
  | nil =>
    obtain ⟨c, hc, -, hnil⟩ := head?_members ms' s
    rw [← h] at hc
    cases hc
    obtain rfl := hnil rfl
    exact ⟨rfl, (List.cons.inj h).2⟩
  | cons m ms ih =>
    cases ms' with
    | nil =>
      obtain ⟨c, hc, -, hnil⟩ := head?_members (m :: ms) r
      rw [h] at hc
      cases hc
      exact absurd (hnil rfl) (List.cons_ne_nil m ms)
    | cons m' ms' =>
      have dash (ms : List ClassMember) (r : List Char) :
          (ms.flatMap print ++ ']' :: r).head? ≠ some '-' := by
        obtain ⟨c, hc, hne, -⟩ := head?_members ms r
        rw [hc]
        rintro ⟨⟩
        exact absurd hne (by decide)
      rw [List.forall_mem_cons] at hms hms'
      rw [List.flatMap_cons, List.flatMap_cons, List.append_assoc, List.append_assoc] at h
      obtain ⟨rfl, hrest⟩ := print_append_inj hms.1 hms'.1 (dash ms r) (dash ms' s) h
      obtain ⟨rfl, rfl⟩ := ih hms.2 hms'.2 hrest
      exact ⟨rfl, rfl⟩

end ClassMember

/-- Neither of two texts of different bracket classes begins the other. -/
theorem CharExpr.bracket_append_inj {negated negated' : Bool} {ms ms' : List ClassMember}
    (hms : ∀ m ∈ ms, m.Sound) (hms' : ∀ m ∈ ms', m.Sound) {r s : List Char}
    (h : (bracket negated ms).print ++ r = (bracket negated' ms').print ++ s) :
    bracket negated ms = bracket negated' ms' ∧ r = s := by
  have caret (ms : List ClassMember) (r s : List Char) :
      ms.flatMap ClassMember.print ++ ']' :: r ≠ '^' :: s := by
    obtain ⟨c, hc, hne, -⟩ := ClassMember.head?_members ms r
    intro h
    rw [h] at hc
    cases hc
    exact absurd hne (by decide)
  simp only [print, List.cons_append, List.append_assoc, List.cons.injEq, true_and,
    List.nil_append] at h
  have hnegated : negated = negated' := by
    cases negated <;> cases negated'
    · rfl
    · exact absurd h (caret ms r _)
    · exact absurd h.symm (caret ms' s _)
    · rfl
  subst hnegated
  obtain ⟨rfl, rfl⟩ := ClassMember.print_members_inj hms hms' (List.append_cancel_left h)
  exact ⟨rfl, rfl⟩

end Retrace
