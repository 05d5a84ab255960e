import Mathlib.Data.List.Chain
import Retrace.Proofs.Syntax.Extension
import Retrace.Proofs.Syntax.Printed

/-!
# Where printed terms meet

The text of a term ends where the text of the next one begins. No term begins like a quantifier or
like the end of a branch. Only a digit can be taken for a part of what stands before it, and only
behind the number of a backreference.

Results:

* `Pattern.separated_of_backreferences`: a pattern without backreferences is separated.
* `Input.quiet_print`: what may begin behind a printed term.
-/

namespace Retrace

/-! ## Backreferences before digits -/

namespace Term

/-- Whether a term is a backreference by number. -/
def isNumberReference : Term → Bool
  | .backreference (.number _) => true
  | _ => false

/-- Whether a term is an ASCII digit. -/
def isDigit : Term → Bool
  | .char (.literal cp) => 0x30 ≤ cp && cp ≤ 0x39
  | _ => false

/-- Whether a term is an ASCII digit, perhaps with a quantifier. -/
def beginsWithDigit : Term → Bool
  | .repeated atom _ => atom.isDigit
  | t => t.isDigit

/-- The branches of the pattern within a group or lookaround. -/
def body (t : Term) : Pattern := t.body?.getD []

end Term

/-- Whether no number of a backreference is right before a digit. -/
def Branch.Separated (b : Branch) : Prop :=
  b.IsChain fun t u => ¬(t.isNumberReference ∧ u.beginsWithDigit)

/-- The branches of a pattern, at any depth. -/
def Pattern.allBranches (p : Pattern) : List Branch := p ++ p.subterms.flatMap Term.body

/-- Whether in no branch, at any depth, the number of a backreference is right before a digit. -/
def Pattern.Separated (p : Pattern) : Prop := ∀ b ∈ p.allBranches, b.Separated

theorem Pattern.mem_subterms_of_mem_allBranches {p : Pattern} {b : Branch} (hb : b ∈ p.allBranches)
    {t : Term} (ht : t ∈ b) : t ∈ p.subterms := by
  rcases List.mem_append.1 hb with hb | hb
  · exact mem_subterms hb ht
  · obtain ⟨u, hu, hb⟩ := List.mem_flatMap.1 hb
    refine p.subterms_subset u hu ?_
    cases u with
    | look | group => exact List.mem_cons_of_mem _ (mem_subterms hb ht)
    | char | anchor | repeated | backreference => cases hb

/-- Whether the branches within terms are separated. -/
def PartsSeparated (us : List Term) : Prop := ∀ b ∈ us.flatMap Term.body, b.Separated

theorem partsSeparated_nil : PartsSeparated [] := by
  simp [PartsSeparated]

theorem partsSeparated_of_isLeaf {t : Term} (ht : t.isLeaf) : PartsSeparated t.subterms := by
  rw [Term.subterms_of_isLeaf ht]
  simp [PartsSeparated, Term.body, Term.body?_of_isLeaf ht]

theorem partsSeparated_append (us vs : List Term) :
    PartsSeparated (us ++ vs) ↔ PartsSeparated us ∧ PartsSeparated vs := by
  simp only [PartsSeparated, List.flatMap_append, List.forall_mem_append]

theorem Pattern.separated_cons (b : Branch) (p : Pattern) :
    Separated (b :: p) ↔ (b.Separated ∧ PartsSeparated b.subterms) ∧ Separated p := by
  simp only [Separated, allBranches, subterms, List.flatMap_append, List.forall_mem_append,
    List.forall_mem_cons, PartsSeparated]
  constructor
  · rintro ⟨⟨hb, hp⟩, hbs, hps⟩
    exact ⟨⟨hb, hbs⟩, hp, hps⟩
  · rintro ⟨⟨hb, hbs⟩, hp, hps⟩
    exact ⟨⟨hb, hp⟩, hbs, hps⟩

theorem Opening.partsSeparated_close (o : Opening) (body : Pattern) :
    PartsSeparated (o.close body).subterms ↔ body.Separated := by
  rw [subterms_close, PartsSeparated, List.flatMap_cons]
  cases o <;> rfl

theorem Branch.separated_cons (t : Term) (b : Branch) :
    Separated (t :: b) ↔
      (t.isNumberReference → b.head?.any Term.beginsWithDigit = false) ∧ b.Separated := by
  unfold Separated
  cases b with
  | nil => simp
  | cons u b => simp [List.isChain_cons_cons]

theorem Branch.separated_nil : Branch.Separated [] ∧ PartsSeparated (Branch.subterms []) :=
  ⟨List.isChain_nil, partsSeparated_nil⟩

theorem Pattern.separated_nil : Pattern.Separated [] := by
  simp [Pattern.Separated, Pattern.allBranches, Pattern.subterms]

/-- Without backreferences, nothing in a pattern runs into each other. -/
theorem Pattern.separated_of_backreferences {p : Pattern} (hp : p.backreferences = []) :
    p.Separated := by
  have hnone : ∀ u ∈ p.subterms, u.isNumberReference = false := by
    intro u hu
    have := List.filterMap_eq_nil_iff.1 hp u hu
    cases u <;> first | rfl | simp at this
  intro b hmem
  have hb : ∀ t ∈ b, t.isNumberReference = false := fun t ht =>
    hnone t (Pattern.mem_subterms_of_mem_allBranches hmem ht)
  clear hmem
  induction b with
  | nil => exact Branch.separated_nil.1
  | cons t b ih =>
    rw [List.forall_mem_cons] at hb
    exact (Branch.separated_cons t b).2 ⟨by simp [hb.1], ih hb.2⟩

/-! ## Where a printed term begins -/

/-- Whether a term can be read where it is printed. -/
def Term.Readable (t : Term) : Prop := t.Sound ∧ ∀ cp ∈ t.literals, cp ≤ CodePoint.last

/-- What may follow a whole branch: a bar, a closing parenthesis or nothing. -/
def Input.Closing (s : Input) : Prop := ∀ c ∈ Input.peek? s, c ∈ ['|', ')']

theorem Input.isDecimal_eq (c : Char) :
    isDecimal c = (0x30 ≤ CodePoint.ofChar c && CodePoint.ofChar c ≤ 0x39) := by
  have h0 : '0' ≤ c ↔ 0x30 ≤ CodePoint.ofChar c := Iff.rfl
  have h9 : c ≤ '9' ↔ CodePoint.ofChar c ≤ 0x39 := Iff.rfl
  simp only [isDecimal, h0, h9]

theorem CodePoint.print_digit : ∀ cp < 0x3A, 0x30 ≤ cp → print isSyntax cp = [toChar cp] := by
  decide

/-- A literal is written so that it does not begin a quantifier or end a branch, and begins with a
    digit only where it is that digit. -/
theorem CodePoint.print_eq_cons {cp : CodePoint} (hcp : cp ≤ last) :
    ∃ c cs, cp.print isSyntax = c :: cs ∧ c ∉ ['|', ')', '*', '+', '?', '{'] ∧
      Input.isDecimal c = (0x30 ≤ cp && cp ≤ 0x39) := by
  by_cases hd : 0x30 ≤ cp ∧ cp ≤ 0x39
  · have hall : ∀ cp < 0x3A, 0x30 ≤ cp → toChar cp ∉ ['|', ')', '*', '+', '?', '{'] ∧
        Input.isDecimal (toChar cp) = true := by decide
    have hlt : cp < 0x3A := Nat.lt_succ_of_le hd.2
    obtain ⟨hc, hdigit⟩ := hall cp hlt hd.1
    exact ⟨_, [], print_digit cp hlt hd.1, hc, by simp [hdigit, hd]⟩
  · have hd : (0x30 ≤ cp && cp ≤ 0x39) = false := by simpa using hd
    have hs := print_spelled isSyntax_not_alnum hcp
    generalize cp.print isSyntax = text at hs
    cases hs with
    | @plain c hc he =>
      refine ⟨c, [], rfl, fun hm => ?_, by rw [Input.isDecimal_eq, ← he]⟩
      have hall : (['|', ')', '*', '+', '?', '{'].all isSyntax) = true := by decide
      simp [List.all_eq_true.1 hall c hm] at hc
    | escaped => exact ⟨'\\', _, rfl, by decide, by rw [hd]; decide⟩

theorem Term.print_eq_cons {t : Term} (hr : t.isRepeated = false) (ht : t.Readable) :
    ∃ c cs, t.print = c :: cs ∧ c ∉ ['|', ')', '*', '+', '?', '{'] ∧
      Input.isDecimal c = t.isDigit := by
  cases t with
  | char e =>
    cases e with
    | literal cp => exact CodePoint.print_eq_cons (ht.2 cp List.mem_cons_self)
    | any => exact ⟨'.', _, rfl, by decide, rfl⟩
    | escape e => exact ⟨'\\', _, rfl, by decide, rfl⟩
    | bracket negated members => exact ⟨'[', _, rfl, by decide, rfl⟩
  | anchor a => cases a <;> exact ⟨_, _, rfl, by decide, rfl⟩
  | look dir negated body => cases dir <;> exact ⟨'(', _, rfl, by decide, rfl⟩
  | group tag body =>
    obtain ⟨number, name⟩ := tag
    rcases number with _ | n
    · exact ⟨'(', _, rfl, by decide, rfl⟩
    · rcases name with _ | name
      · exact ⟨'(', _, rfl, by decide, rfl⟩
      · exact ⟨'(', _, rfl, by decide, rfl⟩
  | repeated => cases hr
  | backreference target => cases target <;> exact ⟨'\\', _, rfl, by decide, rfl⟩

/-- A whole term begins as its atom does. -/
theorem Term.print_eq_cons_of_subterms {t : Term} (ht : ∀ u ∈ t.subterms, u.Readable) :
    ∃ c cs, t.print = c :: cs ∧ c ∉ ['|', ')', '*', '+', '?', '{'] ∧
      Input.isDecimal c = t.beginsWithDigit := by
  cases t with
  | repeated atom q =>
    obtain ⟨_, _, hr⟩ := (ht _ List.mem_cons_self).1
    have ha : atom.Readable := ht atom (List.mem_cons_of_mem _ atom.mem_subterms_self)
    obtain ⟨c, cs, hc, h⟩ := print_eq_cons hr ha
    exact ⟨c, cs ++ q.print, by rw [print, hc, List.cons_append], h⟩
  | char | anchor | look | group | backreference =>
    exact print_eq_cons rfl (ht _ (mem_subterms_self _))

/-- The first character of a term's text. -/
theorem Term.peek?_print {t : Term} (hr : t.isRepeated = false) (ht : t.Readable) (s : Input) :
    ∀ c ∈ Input.peek? (Input.ofChars t.print ++ s), c ∉ ['|', ')'] := by
  obtain ⟨c, cs, hc, hne, _⟩ := print_eq_cons hr ht
  rw [hc]
  rintro d ⟨⟩
  simp_all

namespace Input

variable {s : Input}

theorem Closing.quiet (hs : Closing s) : Quiet s := by
  intro c hc
  have hc : c = '|' ∨ c = ')' := by simpa using hs c hc
  rcases hc with rfl | rfl <;> decide

theorem Closing.beginsDecimal (hs : Closing s) : beginsDecimal s = false := by
  rcases s with _ | ⟨cp, s⟩
  · rfl
  · have hc : cp.toChar = '|' ∨ cp.toChar = ')' := by simpa using hs _ rfl
    show isDecimal cp.toChar = false
    rcases hc with hc | hc <;> rw [hc] <;> decide

/-- No quantifier begins behind a printed term, and a digit only with the next term. -/
theorem quiet_print {b : Branch} (hb : ∀ u ∈ b.subterms, u.Readable) (hs : Closing s) :
    Quiet (ofChars b.print ++ s) ∧
      beginsDecimal (ofChars b.print ++ s) = b.head?.any Term.beginsWithDigit := by
  cases b with
  | nil => exact ⟨hs.quiet, hs.beginsDecimal⟩
  | cons t b =>
    have ht : ∀ u ∈ t.subterms, u.Readable := fun u hu => hb u (List.mem_append_left _ hu)
    obtain ⟨c, cs, hc, hne, hd⟩ := Term.print_eq_cons_of_subterms ht
    rw [Branch.print, hc]
    refine ⟨fun d hd => ?_, by simpa [Input.beginsDecimal] using hd⟩
    have hd : c = d := by simpa using hd
    subst hd
    simp_all

theorem closing_paren (s : Input) : Closing (CodePoint.ofChar ')' :: s) := by
  rintro c ⟨⟩
  simp

theorem closing_printBarred (bs : Pattern) (hs : Closing s) :
    Closing (ofChars bs.printBarred ++ s) := by
  cases bs with
  | nil => exact hs
  | cons b bs =>
    rintro c ⟨⟩
    simp

theorem quiet_printPattern {body : Pattern} (hb : ∀ u ∈ body.subterms, u.Readable)
    (hs : Closing s) : Quiet (ofChars body.print ++ s) := by
  cases body with
  | nil => exact hs.quiet
  | cons b bs =>
    rw [Pattern.print, ofChars_append, List.append_assoc]
    exact (quiet_print (fun u hu => hb u (List.mem_append_left _ hu))
      (closing_printBarred bs hs)).1

theorem beginsDecimal_quantifier (q : Quantifier) (s : Input) :
    beginsDecimal (ofChars q.print ++ s) = false := by
  unfold Quantifier.print Quantifier.printBounds
  split
  case h_5 => split <;> rfl
  all_goals rfl

end Input

end Retrace
