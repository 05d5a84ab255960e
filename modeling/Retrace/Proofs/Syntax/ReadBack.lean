import Retrace.Proofs.Syntax.Separation

/-!
# Reading back what was printed

Reading the text of a term, a branch or a pattern in any state leads on with exactly what was
printed, if it is separated. If it is not, the number of a backreference is read too large, and what
is returned no longer extends the state with what was printed.

Results:

* `Input.leadsTo_number`: the number of a backreference is read as it was printed exactly if no
  digit follows.
* `Term.readsBack`, `Branch.readsBack`, `Pattern.readsBack`: what was printed reads back exactly if
  it is separated, at any depth and in front of any rest of the text that may follow.
-/

namespace Retrace

namespace Input

variable {s : Input}

/-! ## Steps over printed text -/

variable {stack : List OpenGroup} {p : OpenPattern} {names : List String}

/-- Where no bar and no parenthesis closes a branch, an element is read, and behind a whole term its
    quantifier. -/
theorem patternFrom_element (hne : s ≠ []) (hs : ∀ c ∈ peek? s, c ∉ ['|', ')']) :
    patternFrom stack p names s =
      match element names s with
      | .error e => .error e
      | .ok (.opening o names', r) => patternFrom (⟨o, s, p⟩ :: stack) {} names' r
      | .ok (.term t, r) =>
        match repeated t r with
        | .error e => .error e
        | .ok (u, r') => patternFrom stack (p.addTerm u) names r' := by
  cases s with
  | nil => exact absurd rfl hne
  | cons cp s =>
    have hc : cp.toChar ≠ '|' ∧ cp.toChar ≠ ')' := by simpa using hs _ rfl
    rw [patternFrom.eq_def]
    dsimp only
    rw [if_neg hc.1, if_neg hc.2]
    split
    case h_1 he => rw [he]
    case h_2 he => rw [he]
    case h_3 he =>
      rw [he]
      dsimp only
      split
      case h_1 hu => rw [hu]
      case h_2 hu => rw [hu]

theorem ne_nil_of_element {x : Element × Input} (he : element names s = .ok x) : s ≠ [] := by
  rintro rfl
  cases he

theorem patternFrom_term {r r' : Input} {t u : Term} (hs : ∀ c ∈ peek? s, c ∉ ['|', ')'])
    (he : element names s = .ok (.term t, r)) (hu : repeated t r = .ok (u, r')) :
    patternFrom stack p names s = patternFrom stack (p.addTerm u) names r' := by
  rw [patternFrom_element (ne_nil_of_element he) hs, he]
  dsimp only
  rw [hu]

theorem patternFrom_opening {names' : List String} {r : Input} {o : Opening}
    (hs : ∀ c ∈ peek? s, c ∉ ['|', ')']) (he : element names s = .ok (.opening o names', r)) :
    patternFrom stack p names s = patternFrom (⟨o, s, p⟩ :: stack) {} names' r := by
  rw [patternFrom_element (ne_nil_of_element he) hs, he]

theorem element_of_patternFrom {q : Pattern} (hne : s ≠ []) (hs : ∀ c ∈ peek? s, c ∉ ['|', ')'])
    (h : patternFrom stack p names s = .ok q) :
    (∃ o names' r, element names s = .ok (.opening o names', r)) ∨
      ∃ t r u r', element names s = .ok (.term t, r) ∧ repeated t r = .ok (u, r') ∧
        patternFrom stack (p.addTerm u) names r' = .ok q := by
  rw [patternFrom_element hne hs] at h
  split at h
  · cases h
  case h_2 o names' r he => exact .inl ⟨o, names', r, he⟩
  case h_3 t r he =>
    split at h
    · cases h
    case h_2 u r' hu => exact .inr ⟨t, r, u, r', he, hu, h⟩

theorem patternFrom_bar (s : Input) :
    patternFrom stack p names (CodePoint.ofChar '|' :: s) =
      patternFrom stack p.nextBranch names s := by
  rw [patternFrom.eq_def]
  exact if_pos (CodePoint.toChar_ofChar _)

theorem patternFrom_close {g : OpenGroup} {r : Input} {u : Term}
    (hu : repeated (g.opening.close p.finish) s = .ok (u, r)) :
    patternFrom (g :: stack) p names (CodePoint.ofChar ')' :: s) =
      patternFrom stack (g.around.addTerm u) names r := by
  rw [patternFrom, if_neg (by simp), if_pos (CodePoint.toChar_ofChar _)]
  split <;> rename_i h <;> rw [hu] at h <;> cases h
  rfl

/-- The group names in use behind the given terms. -/
def namesBehind (names : List String) (us : List Term) : List String :=
  (us.filterMap Term.groupName?).reverse ++ names

theorem namesBehind_append (us vs : List Term) :
    namesBehind names (us ++ vs) = namesBehind (namesBehind names us) vs := by
  simp [namesBehind]

theorem namesBehind_close (o : Opening) (body : Pattern) :
    namesBehind names (o.close body).subterms =
      namesBehind (o.name?.toList ++ names) body.subterms := by
  unfold namesBehind
  rw [Opening.groupNames_close]
  rcases o.name? with _ | name <;> simp

theorem nodup_of_namesBehind {us : List Term} (h : (namesBehind names us).Nodup) : names.Nodup :=
  (List.nodup_append.1 h).2.1

/-- Reading at `s` returns those patterns that extend `p'` exactly if `A` holds, and then as reading
    on from `p'` does, at `s'` with the names `names'` in use. -/
def LeadsTo (stack : List OpenGroup) (p : OpenPattern) (names : List String) (s : Input) (A : Prop)
    (p' : OpenPattern) (names' : List String) (s' : Input) : Prop :=
  ∀ q, (patternFrom stack p names s = .ok q ∧ Extends stack p' q) ↔
    A ∧ patternFrom stack p' names' s' = .ok q

theorem leadsTo_of_eq {p' : OpenPattern} {names' : List String} {s' : Input} {A : Prop} (hA : A)
    (h : patternFrom stack p names s = patternFrom stack p' names' s') :
    LeadsTo stack p names s A p' names' s' := by
  intro q
  rw [h]
  exact ⟨fun hq => ⟨hA, hq.1⟩, fun hq => ⟨hq.2, extends_of_patternFrom hq.2⟩⟩

theorem LeadsTo.congr {p' : OpenPattern} {names' : List String} {s' : Input} {A B : Prop}
    (h : LeadsTo stack p names s A p' names' s') (hAB : A ↔ B) :
    LeadsTo stack p names s B p' names' s' := by
  intro q
  rw [h q, hAB]

/-- Reading one text and then another. -/
theorem LeadsTo.trans {p₁ p₂ : OpenPattern} {names₁ names₂ : List String} {s₁ s₂ : Input}
    {A B : Prop} (h₁ : LeadsTo stack p names s A p₁ names₁ s₁)
    (h₂ : LeadsTo stack p₁ names₁ s₁ B p₂ names₂ s₂)
    (hmono : ∀ body, p₂.Begins body → p₁.Begins body) :
    LeadsTo stack p names s (A ∧ B) p₂ names₂ s₂ := by
  intro q
  constructor
  · rintro ⟨h, hext⟩
    obtain ⟨ha, h⟩ := (h₁ q).1 ⟨h, hext.mono hmono⟩
    obtain ⟨hb, h⟩ := (h₂ q).1 ⟨h, hext⟩
    exact ⟨⟨ha, hb⟩, h⟩
  · rintro ⟨⟨ha, hb⟩, h⟩
    obtain ⟨h, hext⟩ := (h₂ q).2 ⟨hb, h⟩
    exact ⟨((h₁ q).2 ⟨ha, h⟩).1, hext⟩

/-- A term without parts is read as it was printed. -/
theorem leadsTo_leaf {text r : Input} {t u : Term} (ht : t.isLeaf)
    (hs : ∀ c ∈ peek? text, c ∉ ['|', ')']) (he : element names text = .ok (.term t, s))
    (hu : repeated t s = .ok (u, r)) :
    LeadsTo stack p names text (PartsSeparated t.subterms) (p.addTerm u)
      (namesBehind names t.subterms) r := by
  have hname : t.groupName? = none := by
    cases t <;> first | rfl | cases ht
  have hnames : namesBehind names t.subterms = names := by
    rw [Term.subterms_of_isLeaf ht]
    simp [namesBehind, hname]
  rw [hnames]
  exact leadsTo_of_eq (partsSeparated_of_isLeaf ht) (patternFrom_term hs he hu)

/-- The number of a backreference is read as it was printed unless a digit follows: then a larger
    number is read, which no later reading undoes. -/
theorem leadsTo_number {n : Nat} (hn : 0 < n) (hlt : n < numberBound) {u : Term} {r : Input}
    (hu : repeated (.backreference (.number n)) s = .ok (u, r)) :
    LeadsTo stack p names (ofChars (GroupKey.number n).print ++ s) (s.beginsDecimal = false)
      (p.addTerm u) names r := by
  have hs : ∀ c ∈ peek? (ofChars (GroupKey.number n).print ++ s), c ∉ ['|', ')'] := by
    simp [GroupKey.print]
  have he := element_number names hn hlt s
  rcases hd : s.beginsDecimal with _ | _
  · rw [decimalFrom_stop hd] at he
    exact leadsTo_of_eq rfl (patternFrom_term hs he hu)
  · intro q
    refine ⟨fun hread => ?_, fun h => absurd h.1 (by simp)⟩
    obtain ⟨h, hext⟩ := hread
    have hne : ofChars (GroupKey.number n).print ++ s ≠ [] := by simp [GroupKey.print]
    rcases hm : decimalFrom (ofChars (Numeral.write 10 n) ++ s) n s with e | ⟨m, r₁⟩
    all_goals rw [hm] at he
    · rcases element_of_patternFrom hne hs h with ⟨_, _, _, he'⟩ | ⟨_, _, _, _, he', _⟩
      all_goals
        rw [he] at he'
        cases he'
    · have hlt := lt_of_decimalFrom hd hn hm
      rcases element_of_patternFrom hne hs h with ⟨_, _, _, he'⟩ | ⟨_, _, v, _, he', hv, hq⟩
      all_goals
        rw [he] at he'
        cases he'
      -- The term that was read stands where the printed one should, with another number.
      have hvu : v = u := (extends_of_patternFrom hq).eq_of_addTerm hext
      have hcore : Term.backreference (.number m) = .backreference (.number n) := by
        rw [← core_repeated rfl hv, ← core_repeated rfl hu, hvu]
      cases hcore
      omega

/-- A group or lookaround is read as it was printed if its body is. -/
theorem leadsTo_close {text inner r : Input} {o : Opening} {body : Pattern} {u : Term}
    {names' names'' : List String} (hbody : body ≠ [[]]) (hs : ∀ c ∈ peek? text, c ∉ ['|', ')'])
    (he : element names text = .ok (.opening o names', inner))
    (hu : repeated (o.close body) s = .ok (u, r))
    (hb : ∀ stack, LeadsTo stack {} names' inner body.Separated (.ofPattern body) names''
      (CodePoint.ofChar ')' :: s)) :
    LeadsTo stack p names text body.Separated (p.addTerm u) names'' r := by
  have hfinish := OpenPattern.finish_ofPattern hbody
  have hcore : u.core = o.close body := core_repeated (Opening.isRepeated_close _ _) hu
  have hclose : patternFrom (⟨o, text, p⟩ :: stack) (.ofPattern body) names''
      (CodePoint.ofChar ')' :: s) = patternFrom stack (p.addTerm u) names'' r :=
    patternFrom_close (by rw [hfinish]; exact hu)
  intro q
  have hb := hb (⟨o, text, p⟩ :: stack) q
  rw [hclose] at hb
  rw [patternFrom_opening hs he]
  constructor
  · rintro ⟨h, hext⟩
    have hbegins : (OpenPattern.ofPattern body).Begins body := by
      have := (OpenPattern.ofPattern body).begins_finish
      rwa [hfinish] at this
    exact hb.1 ⟨h, body, u, hbegins, hcore, hext⟩
  · intro h
    exact ⟨(hb.2 h).1, extends_of_patternFrom h.2⟩

end Input

/-! ## Reading back what was printed -/

open Input

/-- The text of a term's atom reads back: whatever term the atom and the quantifier behind it make,
    reading leads to it exactly if the branches within the atom are separated and no digit is
    behind the number of a backreference. -/
def Term.ReadsBack (t : Term) : Prop :=
  ∀ (stack : List OpenGroup) (p : OpenPattern) (names : List String) (s r : Input) (u : Term),
    (namesBehind names t.subterms).Nodup → Input.repeated t.core s = .ok (u, r) →
    LeadsTo stack p names (ofChars t.core.print ++ s)
      (PartsSeparated t.subterms ∧ (t.core.isNumberReference → s.beginsDecimal = false))
      (p.addTerm u) (namesBehind names t.subterms) r

/-- The text of a branch reads back: reading leads to its terms exactly if it is separated, at any
    depth. -/
def Branch.ReadsBack (b : Branch) : Prop :=
  ∀ (stack : List OpenGroup) (p : OpenPattern) (names : List String) (s : Input),
    (namesBehind names b.subterms).Nodup → Closing s →
    LeadsTo stack p names (ofChars b.print ++ s) (b.Separated ∧ PartsSeparated b.subterms)
      (p.addTerms b) (namesBehind names b.subterms) s

/-- The same for branches behind bars. -/
def Pattern.BarredReadsBack (bs : Pattern) : Prop :=
  ∀ (stack : List OpenGroup) (p : OpenPattern) (names : List String) (s : Input),
    (namesBehind names bs.subterms).Nodup → Closing s →
    LeadsTo stack p names (ofChars bs.printBarred ++ s) bs.Separated (p.addBranches bs)
      (namesBehind names bs.subterms) s

/-- The same for a whole pattern. -/
def Pattern.ReadsBack (body : Pattern) : Prop :=
  ∀ (stack : List OpenGroup) (names : List String) (s : Input),
    (namesBehind names body.subterms).Nodup → Closing s →
    LeadsTo stack {} names (ofChars body.print ++ s) body.Separated (.ofPattern body)
      (namesBehind names body.subterms) s

theorem Term.core_of_isRepeated {t : Term} (h : t.isRepeated = false) : t.core = t := by
  cases t <;> first | rfl | cases h

/-- A term without parts reads back. -/
theorem Term.readsBack_of_isLeaf {t : Term} (hl : t.isLeaf) (ht : t.Readable)
    (hnum : t.isNumberReference = false)
    (he : ∀ names s, element names (ofChars t.print ++ s) = .ok (.term t, s)) : t.ReadsBack := by
  have hr := Term.isRepeated_of_isLeaf hl
  intro stack p names s r u _ hu
  rw [core_of_isRepeated hr] at hu ⊢
  exact (leadsTo_leaf hl (peek?_print hr ht s) (he names s) hu).congr (by simp [hnum])

/-- A group or lookaround reads back if its body does. -/
theorem Opening.readsBack_close {o : Opening} {body : Pattern} {opening : List Char}
    (ht : (o.close body).Readable) (hbody : body ≠ [[]]) (hb : body.ReadsBack)
    (hp : (o.close body).print = opening ++ body.print ++ [')'])
    (he : ∀ (names : List String) (s : Input), (o.name?.toList ++ names).Nodup →
      element names (ofChars opening ++ (ofChars body.print ++ CodePoint.ofChar ')' :: s)) =
        .ok (.opening o (o.name?.toList ++ names),
          ofChars body.print ++ CodePoint.ofChar ')' :: s)) :
    (o.close body).ReadsBack := by
  have hr := isRepeated_close o body
  have hnum : (o.close body).isNumberReference = false := by
    cases o <;> rfl
  intro stack p names s r u hn hu
  have htext : ofChars (o.close body).print ++ s =
      ofChars opening ++ (ofChars body.print ++ CodePoint.ofChar ')' :: s) := by
    rw [hp]
    simp
  have hs := Term.peek?_print hr ht s
  rw [Term.core_of_isRepeated hr] at hu ⊢
  rw [htext] at hs ⊢
  rw [namesBehind_close] at hn ⊢
  have hread : LeadsTo stack p names _ body.Separated (p.addTerm u) _ r :=
    leadsTo_close hbody hs (he names s (nodup_of_namesBehind hn)) hu
      fun stack => hb stack _ _ hn (closing_paren s)
  exact hread.congr (by simp [partsSeparated_close, hnum])

/-- A term with its quantifier is read as it was printed. -/
theorem Term.ReadsBack.whole {t : Term} (h : t.ReadsBack) (ht : t.Sound) (stack : List OpenGroup)
    (p : OpenPattern) {names : List String} {s : Input}
    (hn : (namesBehind names t.subterms).Nodup) (hs : Quiet s) :
    LeadsTo stack p names (ofChars t.print ++ s)
      (PartsSeparated t.subterms ∧ (t.isNumberReference → s.beginsDecimal = false)) (p.addTerm t)
      (namesBehind names t.subterms) s := by
  cases t with
  | repeated atom quantifier =>
    obtain ⟨hq, ha, hr⟩ := ht
    have hs : peek? s ≠ some '?' := fun he => hs _ he (by decide)
    have hd := beginsDecimal_quantifier quantifier s
    have hread := h stack p names (ofChars quantifier.print ++ s) s (.repeated atom quantifier) hn
      (repeated_print ha hq hs)
    rw [Term.print, ofChars_append, List.append_assoc]
    exact hread.congr (by simp [hd, isNumberReference])
  | char | anchor | look | group | backreference =>
    exact h stack p names s s _ hn (repeated_quiet _ hs)

mutual

theorem Term.readsBack : (t : Term) → (∀ u ∈ t.subterms, u.Readable) → t.ReadsBack
  | .char e, ht => by
    have ht := ht _ List.mem_cons_self
    exact Term.readsBack_of_isLeaf rfl ht rfl fun names s => element_char names ht.1 ht.2 s
  | .anchor a, ht => by
    have ht := ht _ List.mem_cons_self
    exact Term.readsBack_of_isLeaf rfl ht rfl fun names s => element_anchor names a s
  | .backreference (.name name), ht => by
    have ht := ht _ List.mem_cons_self
    exact Term.readsBack_of_isLeaf rfl ht rfl fun names s => element_name names ht.1 s
  | .backreference (.number n), ht => by
    have ht := ht _ List.mem_cons_self
    intro stack p names s r u hn hu
    have hparts : PartsSeparated (Term.backreference (.number n)).subterms :=
      partsSeparated_of_isLeaf rfl
    refine (leadsTo_number ht.1.1 ht.1.2 hu).congr ⟨fun hd => ⟨hparts, fun _ => hd⟩, ?_⟩
    exact fun h => h.2 rfl
  | .look dir negated body, ht => by
    have ⟨hbody, _⟩ := ht _ List.mem_cons_self
    have hb := Pattern.readsBack body fun u hu => ht u (List.mem_cons_of_mem _ hu)
    have ht : ((Opening.look dir negated).close body).Readable := ht _ List.mem_cons_self
    refine Opening.readsBack_close ht hbody hb rfl ?_
    intro names s _
    exact element_look names dir negated _
  | .group tag body, ht => by
    have ⟨⟨htag, hbody⟩, _⟩ := ht _ List.mem_cons_self
    have hparts : ∀ u ∈ Pattern.subterms body, u.Readable :=
      fun u hu => ht u (List.mem_cons_of_mem _ hu)
    have hb := Pattern.readsBack body hparts
    have ht : ((Opening.group tag).close body).Readable := ht _ List.mem_cons_self
    refine Opening.readsBack_close ht hbody hb rfl ?_
    intro names s hn
    have hquiet := quiet_printPattern hparts (closing_paren s)
    refine element_group names htag (fun name hname hmem => ?_) fun he => hquiet _ he (by decide)
    have hn : (tag.name.toList ++ names).Nodup := hn
    rw [hname] at hn
    exact (List.nodup_cons.1 hn).1 hmem
  | .repeated atom quantifier, ht => by
    have ⟨⟨_, _, hr⟩, _⟩ := ht _ List.mem_cons_self
    have ha := Term.readsBack atom fun u hu => ht u (List.mem_cons_of_mem _ hu)
    unfold Term.ReadsBack at ha
    rw [Term.core_of_isRepeated hr] at ha
    exact ha
termination_by structural t => t

theorem Branch.readsBack : (b : Branch) → (∀ u ∈ b.subterms, u.Readable) → b.ReadsBack
  | [], _ => by
    intro stack p names s _ _
    exact leadsTo_of_eq Branch.separated_nil rfl
  | t :: b, h => by
    have hpart : ∀ u ∈ Branch.subterms b, u.Readable :=
      fun u hu => h u (List.mem_append_right _ hu)
    have ht := Term.readsBack t fun u hu => h u (List.mem_append_left _ hu)
    have hb := Branch.readsBack b hpart
    have hsound := (h t (List.mem_append_left _ t.mem_subterms_self)).1
    intro stack p names s hn hs
    rw [Branch.subterms, namesBehind_append] at hn ⊢
    obtain ⟨hquiet, hdigit⟩ := quiet_print hpart hs
    have hterm := ht.whole hsound stack p (nodup_of_namesBehind hn) hquiet
    rw [hdigit] at hterm
    rw [Branch.print, ofChars_append, List.append_assoc, OpenPattern.addTerms_cons]
    refine (hterm.trans (hb stack _ _ s hn hs) fun _ hb => hb.of_addTerms).congr ?_
    rw [Branch.separated_cons, partsSeparated_append]
    constructor
    · rintro ⟨⟨htp, htd⟩, hbs, hbp⟩
      exact ⟨⟨htd, hbs⟩, htp, hbp⟩
    · rintro ⟨⟨htd, hbs⟩, htp, hbp⟩
      exact ⟨⟨htp, htd⟩, hbs, hbp⟩
termination_by structural b => b

theorem Pattern.barredReadsBack :
    (bs : Pattern) → (∀ u ∈ bs.subterms, u.Readable) → bs.BarredReadsBack
  | [], _ => by
    intro stack p names s _ _
    exact leadsTo_of_eq Pattern.separated_nil rfl
  | b :: bs, h => by
    have hb := Branch.readsBack b fun u hu => h u (List.mem_append_left _ hu)
    have hbs := Pattern.barredReadsBack bs fun u hu => h u (List.mem_append_right _ hu)
    intro stack p names s hn hs
    rw [Pattern.subterms, namesBehind_append] at hn ⊢
    rw [Pattern.printBarred, ofChars_cons, List.cons_append, ofChars_append, List.append_assoc,
      OpenPattern.addBranches]
    have hbar (s : Input) :
        LeadsTo stack p names (CodePoint.ofChar '|' :: s) True p.nextBranch names s :=
      leadsTo_of_eq trivial (patternFrom_bar s)
    have hbranch := hb stack p.nextBranch names _ (nodup_of_namesBehind hn)
      (closing_printBarred bs hs)
    have hrest := hbs stack (p.nextBranch.addTerms b) _ s hn hs
    refine (((hbar _).trans hbranch fun _ hb => hb.of_addTerms).trans hrest
      fun _ hb => hb.of_addBranches).congr ?_
    rw [Pattern.separated_cons, true_and]
termination_by structural bs => bs

theorem Pattern.readsBack :
    (body : Pattern) → (∀ u ∈ body.subterms, u.Readable) → body.ReadsBack
  | [], _ => by
    intro stack names s _ _
    exact leadsTo_of_eq Pattern.separated_nil rfl
  | b :: bs, h => by
    have hb := Branch.readsBack b fun u hu => h u (List.mem_append_left _ hu)
    have hbs := Pattern.barredReadsBack bs fun u hu => h u (List.mem_append_right _ hu)
    intro stack names s hn hs
    rw [Pattern.subterms, namesBehind_append] at hn ⊢
    rw [Pattern.print, ofChars_append, List.append_assoc, OpenPattern.ofPattern]
    have hbranch := hb stack {} names _ (nodup_of_namesBehind hn) (closing_printBarred bs hs)
    have hrest := hbs stack (.addTerms {} b) _ s hn hs
    refine (hbranch.trans hrest fun _ hb => hb.of_addBranches).congr ?_
    rw [Pattern.separated_cons]
termination_by structural body => body

end

end Retrace
