import Retrace.Proofs.Syntax.Subterms

/-!
# What readers answer

Each reader said once in terms of what it can answer, so that no later proof opens it: the members
of a bracket class, the terms and openings of an element, and a term with its quantifier.

Results:

* `forall_of_bracketClass`: what every member of a bracket class has when it is read.
* `termRead_of_element`, `openingRead_of_element`: what an element can be.
* `repeated_eq_ok`: what a term becomes with what stands behind it.
-/

namespace Retrace

namespace Input

/-! ## Bracket classes -/

/-- The literals and class escapes that an atom of a bracket class at the input `s` with the rest
    `r` can be, each with the reading it comes from. -/
inductive AtomRead (s r : Input) : ClassMember → Prop where
  | literal {cp : CodePoint} : cp ∈ s → AtomRead s r (.literal cp)
  | backspace : AtomRead s r (.literal 0x08)
  | escapedLiteral {cp : CodePoint} : charEscape s s.tail = .ok (cp, r) → AtomRead s r (.literal cp)
  | escape {e : ClassEscape} : classEscape? s s.tail = .ok (some (e, r)) → AtomRead s r (.escape e)

theorem atomRead_of_bracketAtom {s r : Input} {m : ClassMember}
    (h : bracketAtom s = .ok (m, r)) : AtomRead s r m := by
  unfold bracketAtom at h
  split at h
  · cases h
  · split at h
    · split at h
      · cases h
      case h_2 he =>
        cases h
        exact .escape he
      · split at h
        · cases h
          exact .backspace
        · obtain ⟨x, hc, hx⟩ := Reading.of_map_eq_ok h
          cases hx
          exact .escapedLiteral hc
    · cases h
      exact .literal List.mem_cons_self

/-- The members of a bracket class at the input `s` with the rest `r`: one atom, or a range of two
    literals in order. -/
inductive MemberRead (s r : Input) : ClassMember → Prop where
  | atom {m : ClassMember} : AtomRead s r m → MemberRead s r m
  | range {s' r' : Input} {lo hi : CodePoint} : s' <:+ s → AtomRead s r' (.literal lo) →
    AtomRead s' r (.literal hi) → lo ≤ hi → MemberRead s r (.range lo hi)

theorem memberRead_of_bracketMember {s r : Input} {m : ClassMember}
    (h : bracketMember s = .ok (m, r)) : MemberRead s r m := by
  simp only [bracketMember, bind, Except.bind, pure, Except.pure] at h
  split at h
  · cases h
  case h_2 x hx =>
    split at h
    · split at h
      · cases h
      case h_2 y hy =>
        obtain ⟨lo, r'⟩ := x
        obtain ⟨hi, r''⟩ := y
        dsimp only at h hy
        split at h
        · split at h
          · cases h
          case isFalse hlt =>
            cases h
            exact .range ((List.drop_suffix 1 r').trans (bracketAtom_shorter hx).1)
              (atomRead_of_bracketAtom hx) (atomRead_of_bracketAtom hy) (Nat.le_of_not_lt hlt)
        · cases h
    · cases h
      exact .atom (atomRead_of_bracketAtom hx)

/-- What every member that is read within `S` has, every member of a bracket class has. -/
theorem forall_of_bracketMembers {S : Input → Prop} {Q : ClassMember → Prop}
    (hS : ∀ {s r}, S s → r <:+ s → S r) (hQ : ∀ {s r m}, S s → MemberRead s r m → Q m)
    {start s r : Input} {ms : List ClassMember} (hs : S s)
    (h : bracketMembers start s = .ok (ms, r)) : ∀ m ∈ ms, Q m := by
  fun_induction bracketMembers start s generalizing ms r with
  | case1 | case3 | case4 => cases h
  | case2 =>
    cases h
    simp
  | case5 cp rest _ m rest₁ hm ms₁ rest₂ hms ih =>
    cases h
    intro n hn
    rcases List.mem_cons.1 hn with rfl | hn
    · exact hQ hs (memberRead_of_bracketMember hm)
    · exact ih (hS hs (bracketMember_shorter hm).1) hms n hn

theorem forall_of_bracketClass {S : Input → Prop} {Q : ClassMember → Prop}
    (hS : ∀ {s r}, S s → r <:+ s → S r) (hQ : ∀ {s r m}, S s → MemberRead s r m → Q m)
    {start s r : Input} {e : CharExpr} (hs : S s) (h : bracketClass start s = .ok (e, r)) :
    ∃ negated ms, e = .bracket negated ms ∧ ∀ m ∈ ms, Q m := by
  unfold bracketClass at h
  split at h
  case h_1 hr =>
    obtain ⟨x, hm, hx⟩ := Reading.of_map_eq_ok h
    cases hx
    exact ⟨true, x.1, rfl, forall_of_bracketMembers hS hQ (hS hs (after?_eq_some hr).1) hm⟩
  case h_2 =>
    obtain ⟨x, hm, hx⟩ := Reading.of_map_eq_ok h
    cases hx
    exact ⟨false, x.1, rfl, forall_of_bracketMembers hS hQ hs hm⟩

/-! ## Elements -/

/-- The terms that an element of the input `s` with the rest `r` can be, each with the reading it
    comes from. -/
inductive TermRead (s r : Input) : Term → Prop where
  | anchor (a : Anchor) : TermRead s r (.anchor a)
  | any : TermRead s r (.char .any)
  | literal {cp : CodePoint} : cp ∈ s → TermRead s r (.char (.literal cp))
  | escapedLiteral {cp : CodePoint} : charEscape s s.tail = .ok (cp, r) →
    TermRead s r (.char (.literal cp))
  | escape {e : ClassEscape} : classEscape? s s.tail = .ok (some (e, r)) →
    TermRead s r (.char (.escape e))
  | bracket {e : CharExpr} : bracketClass s s.tail = .ok (e, r) → TermRead s r (.char e)
  | number {n : Nat} : ((peek? s.tail).any fun c => '1' ≤ c && c ≤ '9') = true →
    decimalFrom s.tail 0 s.tail = .ok (n, r) → TermRead s r (.backreference (.number n))
  | name {name : String} : groupName (s.tail.drop 2) = .ok (name, r) →
    TermRead s r (.backreference (.name name))

theorem termRead_of_termEscape {s r : Input} {t : Term} (h : termEscape s s.tail = .ok (t, r)) :
    TermRead s r t := by
  unfold termEscape at h
  split at h
  · cases h
  case h_2 he =>
    cases h
    exact .escape he
  · split at h
    · obtain ⟨x, hg, hx⟩ := Reading.of_map_eq_ok h
      cases hx
      exact .name hg
    · split at h
      case isTrue hd =>
        obtain ⟨x, hn, hx⟩ := Reading.of_map_eq_ok h
        cases hx
        exact .number hd hn
      case isFalse =>
        obtain ⟨x, hc, hx⟩ := Reading.of_map_eq_ok h
        cases hx
        exact .escapedLiteral hc

theorem termRead_of_element {names : List String} {s r : Input} {t : Term}
    (h : element names s = .ok (.term t, r)) : TermRead s r t := by
  unfold element at h
  split at h
  · cases h
  case h_2 cp rest =>
    split at h
    case h_1 | h_2 | h_3 | h_4 =>
      cases h
      exact .anchor _
    case h_9 =>
      unfold groupOpening at h
      repeat' (split at h)
      all_goals cases h
    case h_10 =>
      cases h
      exact .any
    case h_11 =>
      obtain ⟨x, hb, hx⟩ := Reading.of_map_eq_ok h
      cases hx
      exact .bracket hb
    case h_12 =>
      obtain ⟨x, ht, hx⟩ := Reading.of_map_eq_ok h
      cases hx
      exact termRead_of_termEscape ht
    case h_16 =>
      split at h
      · cases h
      · cases h
        exact .literal List.mem_cons_self
    case h_17 =>
      cases h
      exact .literal List.mem_cons_self
    all_goals cases h

theorem TermRead.isLeaf {s r : Input} {t : Term} (h : TermRead s r t) : t.isLeaf := by
  cases h <;> rfl

/-- The openings that an element of an input with the rest `r` can be, with the group names in use
    behind them. -/
inductive OpeningRead (names : List String) (r : Input) : Opening → List String → Prop where
  | look (dir : Direction) (negated : Bool) : OpeningRead names r (.look dir negated) names
  | group : OpeningRead names r (.group ⟨none, none⟩) names
  | capture : OpeningRead names r (.group ⟨some 0, none⟩) names
  | named {s : Input} {name : String} : groupName s = .ok (name, r) → name ∉ names →
    OpeningRead names r (.group ⟨some 0, some name⟩) (name :: names)

theorem openingRead_of_element {names names' : List String} {s r : Input} {o : Opening}
    (h : element names s = .ok (.opening o names', r)) : OpeningRead names r o names' := by
  unfold element at h
  split at h
  · cases h
  · split at h
    case h_5 | h_6 | h_7 | h_8 =>
      cases h
      exact .look _ _
    case h_9 =>
      unfold groupOpening at h
      split at h
      · cases h
        exact .capture
      · split at h
        · cases h
          exact .group
        · split at h
          · cases h
          · split at h
            · cases h
            case h_2 name rest hg =>
              split at h
              · cases h
              case isFalse hn =>
                cases h
                exact .named hg hn
    case h_11 | h_12 =>
      obtain ⟨x, _, hx⟩ := Reading.of_map_eq_ok h
      cases hx
    case h_16 => split at h <;> cases h
    all_goals cases h

/-- What a reading of a term and its quantifier answers. -/
theorem repeated_eq_ok {t u : Term} {s r : Input} (h : repeated t s = .ok (u, r)) :
    (quantifier? s = .ok none ∧ u = t ∧ r = s) ∨
      ∃ q, quantifier? s = .ok (some (q, r)) ∧ t.isAssertion = false ∧ u = .repeated t q := by
  simp only [repeated, bind, Except.bind, pure, Except.pure] at h
  split at h
  · cases h
  case h_2 x hx =>
    rcases x with _ | ⟨q, s₁⟩
    · cases h
      exact .inl ⟨hx, rfl, rfl⟩
    · rcases ha : t.isAssertion
      · rw [ha] at h
        cases h
        exact .inr ⟨q, hx, rfl, rfl⟩
      · rw [ha] at h
        cases h

end Input

end Retrace
