import Mathlib.Algebra.Group.Nat.Defs
import Retrace.Proofs.Syntax.Invariant

/-!
# Literals

The code points that a pattern names are Unicode code points if those of its text are: a hexadecimal
escape cannot denote a larger one, and no other escape does.

Results:

* `Pattern.parse_literals_le`: the literals of a pattern lie no further than the last code point if
  its text does not.
-/

namespace Retrace

/-- The code points that a member of a bracket class names. -/
def ClassMember.literals : ClassMember → List CodePoint
  | literal cp => [cp]
  | range lo hi => [lo, hi]
  | escape _ => []

/-- The code points that a term names itself, in a literal or in a bracket class. -/
def Term.literals : Term → List CodePoint
  | .char (.literal cp) => [cp]
  | .char (.bracket _ members) => members.flatMap ClassMember.literals
  | _ => []

/-- The code points that a pattern names, in literals and in bracket classes at any depth. -/
def Pattern.literals (p : Pattern) : List CodePoint := p.subterms.flatMap Term.literals

/-! ## What is read -/

theorem Numeral.digit?_lt {base d : Nat} {c : Char} (h : digit? base c = some d) : d < base := by
  simp only [digit?, Option.ite_none_right_eq_some, Option.some.injEq] at h
  obtain ⟨hlt, rfl⟩ := h
  exact hlt

namespace Input

theorem hexFrom?_lt {value count n : Nat} {s r : Input}
    (h : hexFrom? value count s = some (n, r)) : n < (value + 1) * 16 ^ count := by
  induction count generalizing value s with
  | zero =>
    cases h
    simp
  | succ count ih =>
    cases s with
    | nil => cases h
    | cons cp s =>
      unfold hexFrom? at h
      split at h
      case h_1 d hd =>
        have hd := Numeral.digit?_lt hd
        calc n < (16 * value + d + 1) * 16 ^ count := ih h
          _ ≤ ((value + 1) * 16) * 16 ^ count := Nat.mul_le_mul_right _ (by omega)
          _ = (value + 1) * 16 ^ (count + 1) := by rw [Nat.mul_assoc, Nat.pow_succ']
      case h_2 => cases h

theorem bracedHexFrom_le {start s r : Input} {value : Option Nat} {cp : CodePoint}
    (hv : ∀ n ∈ value, n ≤ CodePoint.last) (h : bracedHexFrom start value s = .ok (cp, r)) :
    cp ≤ CodePoint.last := by
  induction s generalizing value with
  | nil => cases h
  | cons c s ih =>
    unfold bracedHexFrom at h
    split at h
    · split at h
      · cases h
      case isFalse hd =>
        refine ih (fun n hn => ?_) h
        cases hn
        exact Nat.le_of_not_lt hd
    · split at h
      · split at h
        · cases h
          exact hv _ rfl
        · cases h
      · cases h

/-- No code point lies beyond the last one. -/
def InUnicode (s : Input) : Prop := ∀ cp ∈ s, cp ≤ CodePoint.last

theorem InUnicode.of_suffix {s r : Input} (h : InUnicode s) (hr : r <:+ s) : InUnicode r :=
  fun cp hcp => h cp (hr.subset hcp)

theorem hexFrom?_getD_le {n count : Nat} {s r : Input} {cp : CodePoint} (hn : n ≤ CodePoint.last)
    (hc : count ≤ 4) (h : (hexFrom? 0 count s).getD (n, s) = (cp, r)) : cp ≤ CodePoint.last := by
  rcases hx : hexFrom? 0 count s with _ | x
  · rw [hx] at h
    cases h
    exact hn
  · rw [hx] at h
    cases h
    have hlast : 16 ^ 4 ≤ CodePoint.last := by decide
    calc cp ≤ (0 + 1) * 16 ^ count := Nat.le_of_lt (hexFrom?_lt hx)
      _ = 16 ^ count := Nat.one_mul _
      _ ≤ 16 ^ 4 := Nat.pow_le_pow_right (by decide) hc
      _ ≤ CodePoint.last := hlast

theorem charEscape_le {start s r : Input} {cp : CodePoint} (hs : InUnicode s)
    (h : charEscape start s = .ok (cp, r)) : cp ≤ CodePoint.last := by
  unfold charEscape at h
  split at h
  · cases h
  case h_2 c s =>
    have hc : c ≤ CodePoint.last := hs c List.mem_cons_self
    split at h
    case h_7 =>
      split at h
      · split at h
        · cases h
          exact Nat.le_trans (Nat.le_of_lt (Nat.mod_lt _ (by decide))) (by decide)
        · cases h
          exact hc
      · cases h
        exact hc
    case h_8 => exact hexFrom?_getD_le hc (by decide) (Except.ok.inj h)
    case h_9 =>
      split at h
      · exact bracedHexFrom_le (by simp) h
      · exact hexFrom?_getD_le hc (by decide) (Except.ok.inj h)
    case h_10 =>
      cases h
      exact hc
    all_goals
      cases h
      decide

theorem AtomRead.literals_le {s r : Input} {m : ClassMember} (hs : InUnicode s)
    (h : AtomRead s r m) : ∀ cp ∈ m.literals, cp ≤ CodePoint.last := by
  cases h with
  | literal h => simpa [ClassMember.literals] using hs _ h
  | backspace => simp [ClassMember.literals, CodePoint.last]
  | escapedLiteral h =>
    simpa [ClassMember.literals] using charEscape_le (hs.of_suffix (List.tail_suffix s)) h
  | escape => simp [ClassMember.literals]

theorem MemberRead.literals_le {s r : Input} {m : ClassMember} (hs : InUnicode s)
    (h : MemberRead s r m) : ∀ cp ∈ m.literals, cp ≤ CodePoint.last := by
  cases h with
  | atom h => exact h.literals_le hs
  | range hsuffix hlo hhi _ =>
    have hlo := hlo.literals_le hs
    have hhi := hhi.literals_le (hs.of_suffix hsuffix)
    simp only [ClassMember.literals, List.forall_mem_cons] at hlo hhi ⊢
    exact ⟨hlo.1, hhi.1, by simp⟩

theorem TermRead.literals_le {s r : Input} {t : Term} (hs : InUnicode s) (h : TermRead s r t) :
    ∀ cp ∈ t.literals, cp ≤ CodePoint.last := by
  have htail : InUnicode s.tail := hs.of_suffix (List.tail_suffix s)
  cases h with
  | anchor | any | escape | number | name => simp [Term.literals]
  | literal h => simpa [Term.literals] using hs _ h
  | escapedLiteral h => simpa [Term.literals] using charEscape_le htail h
  | bracket h =>
    obtain ⟨_, ms, rfl, hms⟩ := forall_of_bracketClass InUnicode.of_suffix
      (fun hs hm => hm.literals_le hs) htail h
    intro cp hcp
    obtain ⟨m, hm, hcp⟩ := List.mem_flatMap.1 hcp
    exact hms m hm cp hcp

/-- Reading makes terms with Unicode literals of a text of Unicode code points. -/
theorem produces_literals_le :
    Produces InUnicode fun u => ∀ cp ∈ u.literals, cp ≤ CodePoint.last where
  suffix := InUnicode.of_suffix
  term hs he := (termRead_of_element he).literals_le hs
  opening {_ _ o} _ _ _ := by cases o <;> simp [Opening.close, Term.literals]
  quantified _ _ _ _ := by simp [Term.literals]

end Input

/-- The literals of a pattern lie no further than the last code point if its text does not. -/
theorem Pattern.parse_literals_le {text : Input} {p : Pattern} (hs : Input.InUnicode text)
    (hp : parse text = .ok p) : ∀ cp ∈ p.literals, cp ≤ CodePoint.last := by
  intro cp hcp
  obtain ⟨u, hu, hcp⟩ := List.mem_flatMap.1 hcp
  exact parse_subterms Input.produces_literals_le hs hp u hu cp hcp

end Retrace
