import Retrace.Proofs.Syntax.ReadBack
import Retrace.Proofs.Syntax.ScannerReads

/-!
# Recursive descent

The reader keeps what is open on a stack, while the scanners call each other. At a place where a
branch goes on, a term or a failure of the scanners is what the reader comes to there, whatever is
open around it; so are branches and patterns, one turn of a loop after another, and the bodies of
groups by induction on how deep they may lie in each other.

Results:

* `Scan.assertion_ends`, `Scan.atom_ends`, `Scan.term_ends`: the scanners of terms come to an end; a
  term and an atom use up part of the text.
* `Scan.pattern_reads`: the scanner of patterns does what the reader does with a body.
* `Scan.parse_ends`: scanning a whole text is parsing it.
-/

namespace Retrace

namespace Input

/-! ## Elements -/

/-- Whether a branch goes on at the beginning of the input. -/
def GoesOn (s : Input) : Prop := s ≠ [] ∧ ∀ c ∈ peek? s, c ∉ ['|', ')']

/-- Whether an anchor or a lookaround begins the input. -/
def beginsAssertion (s : Input) : Bool :=
  match s.peek 4 with
  | '^' :: _ | '$' :: _ | '\\' :: 'b' :: _ | '\\' :: 'B' :: _ => true
  | '(' :: '?' :: '=' :: _ | '(' :: '?' :: '!' :: _ => true
  | '(' :: '?' :: '<' :: '=' :: _ | '(' :: '?' :: '<' :: '!' :: _ => true
  | _ => false

/-- The element at the beginning of an input where no anchor or lookaround begins. -/
def atomElement (names : List String) (s : Input) : Reading (Element × Input) :=
  match s with
  | [] => .error ⟨.nothingToRepeat, s⟩
  | cp :: rest =>
    match cp.toChar with
    | '.' => .ok (.term (.char .any), rest)
    | '[' => (bracketClass s rest).map fun (e, rest) => (.term (.char e), rest)
    | '(' => groupOpening names rest
    | '\\' => (termEscape s rest).map fun (t, rest) => (.term t, rest)
    | '*' => .error ⟨.nothingToRepeat, s⟩
    | '+' => .error ⟨.nothingToRepeat, s⟩
    | '?' => .error ⟨.nothingToRepeat, s⟩
    | '{' =>
      if quantifierAhead rest then .error ⟨.nothingToRepeat, s⟩
      else .ok (.term (.char (.literal cp)), rest)
    | _ => .ok (.term (.char (.literal cp)), rest)

theorem element_eq_atomElement (names : List String) {s : Input} (h : beginsAssertion s = false) :
    element names s = atomElement names s := by
  cases s with
  | nil => rfl
  | cons cp rest =>
    have hpeek : peek 4 (cp :: rest) = cp.toChar :: peek 3 rest := rfl
    unfold beginsAssertion at h
    rw [element, atomElement, hpeek]
    rw [hpeek] at h
    generalize cp.toChar = ch at h ⊢
    generalize peek 3 rest = ahead at h ⊢
    split
    case h_17 =>
      -- a character that `atomElement` tells apart is excluded by an earlier case
      split
      case h_9 => rfl
      all_goals
        exfalso
        solve_by_elim
    case h_1 heq | h_2 heq | h_3 heq | h_4 heq | h_5 heq | h_6 heq | h_7 heq | h_8 heq =>
      obtain ⟨rfl, rfl⟩ := List.cons.inj heq
      cases h
    all_goals
      rename_i heq
      obtain ⟨rfl, rfl⟩ := List.cons.inj heq
      rfl

theorem isAssertion_of_termEscape {start s r : Input} {t : Term}
    (h : termEscape start s = .ok (t, r)) : t.isAssertion = false := by
  unfold termEscape at h
  split at h
  · cases h
  · cases h
    rfl
  · split at h
    · obtain ⟨x, -, hx⟩ := Reading.of_map_eq_ok h
      cases hx
      rfl
    · split at h
      · obtain ⟨x, -, hx⟩ := Reading.of_map_eq_ok h
        cases hx
        rfl
      · obtain ⟨x, -, hx⟩ := Reading.of_map_eq_ok h
        cases hx
        rfl

/-- Whatever is open around it, the reader goes on at `s` as behind the term `t` whose quantifier
    has not been read, which leaves `names'` in use and `r` to be read. -/
def UnitRead (names : List String) (s : Input) (t : Term) (names' : List String) (r : Input) :
    Prop :=
  ∀ stack p, patternFrom stack p names s =
    match repeated t r with
    | .error f => .error f
    | .ok (u, r') => patternFrom stack (p.addTerm u) names' r'

/-- Whatever is open around it, the reader goes on at `s` as behind the term `t`. -/
def QuantifiedRead (names : List String) (s : Input) (t : Term) (names' : List String) (r : Input) :
    Prop :=
  ∀ stack p, patternFrom stack p names s = patternFrom stack (p.addTerm t) names' r

/-- Whatever is open around it, the reader fails at `s`. -/
def UnitFails (names : List String) (s : Input) (f : Failure) : Prop :=
  ∀ stack p, patternFrom stack p names s = .error f

/-- Whatever it is the body of, the reader goes on at `s` as behind the pattern `q`, where a body
    ends. -/
def BodyRead (names : List String) (s : Input) (q : Pattern) (names' : List String) (r : Input) :
    Prop :=
  (∀ c ∈ peek? r, c = ')') ∧ ∃ p : OpenPattern, p.finish = q ∧
    ∀ stack, patternFrom stack {} names s = patternFrom stack p names' r

/-- Whatever it is the body of, the reader fails in the pattern at `s`. -/
def BodyFails (names : List String) (s : Input) (f : Failure) : Prop :=
  ∀ stack, patternFrom stack {} names s = .error f

variable {names names' names₁ : List String} {s r r₁ : Input} {o : Opening} {f : Failure}

theorem length_peek_le (n : Nat) (s : Input) : (s.peek n).length ≤ s.length := by
  rw [peek, List.length_map, List.length_take]
  exact Nat.min_le_right n s.length

theorem GoesOn.of_peek {n : Nat} {c : Char} {cs : List Char} (h : s.peek n = c :: cs)
    (hc : c ∉ ['|', ')']) : s.GoesOn := by
  cases n with
  | zero => cases h
  | succ n =>
    cases s with
    | nil => cases h
    | cons cp s =>
      obtain ⟨rfl, -⟩ := List.cons.inj h
      exact ⟨List.cons_ne_nil cp s, fun _ hd => by cases hd; exact hc⟩

theorem patternFrom_closing {stack : List OpenGroup} {p : OpenPattern} (g : OpenGroup) (s : Input) :
    patternFrom (g :: stack) p names (CodePoint.ofChar ')' :: s) =
      match repeated (g.opening.close p.finish) s with
      | .error f => .error f
      | .ok (u, r) => patternFrom stack (g.around.addTerm u) names r := by
  rw [patternFrom, if_neg (by simp), if_pos (CodePoint.toChar_ofChar _)]
  split
  case h_1 h => rw [h]
  case h_2 h => rw [h]

theorem repeated_eq (t : Term) (s : Input) :
    repeated t s = match quantifier? s with
      | .error f => .error f
      | .ok none => .ok (t, s)
      | .ok (some (q, r)) =>
        if t.isAssertion then .error ⟨.nothingToRepeat, s⟩ else .ok (.repeated t q, r) := by
  simp only [repeated, bind, Except.bind, pure, Except.pure]
  cases quantifier? s with
  | error f => rfl
  | ok x =>
    cases x with
    | none => rfl
    | some x => rfl

theorem UnitRead.of_element {t : Term} (hs : s.GoesOn) (he : element names s = .ok (.term t, r)) :
    UnitRead names s t names r := by
  intro stack p
  have hread : patternFrom stack p names s = _ := patternFrom_element hs.1 hs.2
  rw [he] at hread
  exact hread

theorem UnitFails.of_element (hs : s.GoesOn) (he : element names s = .error f) :
    UnitFails names s f := by
  intro stack p
  rw [patternFrom_element hs.1 hs.2, he]

/-- An opening, the body behind it and the closing parenthesis. -/
theorem UnitRead.of_body {q : Pattern} (hs : s.GoesOn)
    (he : element names s = .ok (.opening o names₁, r₁))
    (hbody : BodyRead names₁ r₁ q names' (CodePoint.ofChar ')' :: r)) :
    UnitRead names s (o.close q) names' r := by
  intro stack p
  obtain ⟨-, p', rfl, hp'⟩ := hbody
  rw [patternFrom_opening hs.2 he, hp', patternFrom_closing]

theorem UnitFails.of_body (hs : s.GoesOn) (he : element names s = .ok (.opening o names₁, r₁))
    (hbody : BodyFails names₁ r₁ f) : UnitFails names s f := by
  intro stack p
  rw [patternFrom_opening hs.2 he, hbody]

/-- A body in which the text ends is not closed. -/
theorem UnitFails.of_unterminated {q : Pattern} (hs : s.GoesOn)
    (he : element names s = .ok (.opening o names₁, r₁)) (hbody : BodyRead names₁ r₁ q names' []) :
    UnitFails names s ⟨.unterminatedGroup, s⟩ := by
  intro stack p
  obtain ⟨-, p', rfl, hp'⟩ := hbody
  rw [patternFrom_opening hs.2 he, hp', patternFrom]

end Input

namespace Scan

open Input (beginsAssertion atomElement GoesOn UnitRead QuantifiedRead UnitFails BodyRead BodyFails
  patternFrom element)
open EStateM (Result run_bind)

variable {text : Input} {names : List String} {s : Input}

/-! ## Groups -/

theorem captureName_ends (hs : s <:+ text) :
    Ends s (fun name names' r => Input.groupName s = .ok (name, r) ∧ name ∉ names ∧
        names' = name :: names)
      (fun f _ => Input.groupName s = .error f ∨ ∃ name r, Input.groupName s = .ok (name, r) ∧
        name ∈ names ∧ f = ⟨.duplicateGroupName name, s⟩)
      ((captureName : Scan text _).run (.before names s)) := by
  rw [captureName, run_bind_ok run_position]
  refine (groupName_reads hs).bind (fun name r hr h => ?_) fun f hf => .inl hf
  rw [run_bind_ok (EStateM.run_get _)]
  by_cases hmem : name ∈ names
  · have hmem' : name ∈ (Cursor.before names r : Cursor text).names := hmem
    rw [if_pos hmem']
    exact .fail (List.suffix_refl r)
      (.inr ⟨name, r, h, hmem, rfl⟩)
  · have hmem' : name ∉ (Cursor.before names r : Cursor text).names := hmem
    rw [if_neg hmem']
    exact .ok (List.suffix_refl r) ⟨h, hmem, rfl⟩

theorem groupTag_ends (hs : s <:+ text) :
    Ends s (fun tag names' r => Input.groupOpening names s = .ok (.opening (.group tag) names', r))
      (fun f _ => Input.groupOpening names s = .error f)
      ((groupTag : Scan text _).run (.before names s)) := by
  rw [groupTag, run_bind, run_eat hs]
  unfold Input.groupOpening
  cases hquestion : Input.after? '?' s with
  | none => exact .ok (List.suffix_refl s) rfl
  | some s₁ =>
    have hs₁ := (Input.after?_eq_some hquestion).1
    simp only [if_true, run_bind, run_eat (hs₁.trans hs)]
    refine Ends.of_suffix ?_ hs₁
    cases hcolon : Input.after? ':' s₁ with
    | some s₂ => exact .ok (Input.after?_eq_some hcolon).1 rfl
    | none =>
      simp only [Bool.false_eq_true, if_false, run_bind, run_eat (hs₁.trans hs)]
      cases hname : Input.after? '<' s₁ with
      | none => exact .fail (List.suffix_refl s₁) rfl
      | some s₂ =>
        have hs₂ := (Input.after?_eq_some hname).1
        simp only [if_true]
        refine Ends.of_suffix ?_ hs₂
        refine (captureName_ends ((hs₂.trans hs₁).trans hs)).bind ?_ ?_
        · rintro name _ r - ⟨h, hmem, rfl⟩
          simp only [h, if_neg hmem]
          exact .ok (List.suffix_refl r) rfl
        · rintro f - (h | ⟨name, r, h, hmem, rfl⟩)
          · rw [h]
          · simp only [h, if_pos hmem]

/-! ## Terms -/

/-- The scanner of a body does what the reader does with bodies of less than `n` code points. -/
def ReadsBodies (n : Nat) (body : Scan text Pattern) : Prop :=
  ∀ names s, s <:+ text → s.length < n →
    Ends s (BodyRead names s) (fun f _ => BodyFails names s f) (body.run (.before names s))

variable {body : Scan text Pattern} {n : Nat}

theorem enclosed_ends (hbody : ReadsBodies n body) {G : Prop} {o : Opening} {names₁ : List String}
    {r₁ : Input} (hr₁ : r₁ <:+ text) (hn : r₁.length < n)
    (he : G → s.GoesOn ∧ element names s = .ok (.opening o names₁, r₁)) :
    Ends r₁ (fun t names' r => (∃ q, t = o.close q) ∧ (G → UnitRead names s t names' r))
      (fun f _ => G → UnitFails names s f)
      ((enclosed body (text.length - s.length) o).run (.before names₁ r₁)) := by
  refine (hbody names₁ r₁ hr₁ hn).bind ?_ fun f _ hf hg => .of_body (he hg).1 (he hg).2 hf
  intro q names' r hr hq
  rw [run_bind, run_eat (hr.trans hr₁)]
  cases r with
  | nil =>
    exact .fail (List.suffix_refl [])
      fun hg => .of_unterminated (he hg).1 (he hg).2 hq
  | cons cp r =>
    have hcp : cp.toChar = ')' := hq.1 _ rfl
    rw [(CodePoint.toChar_eq_iff (by decide)).mp hcp] at hq ⊢
    rw [Input.after?_ofChar]
    exact .ok (List.suffix_cons _ r) ⟨⟨q, rfl⟩, fun hg => .of_body (he hg).1 (he hg).2 hq⟩

/-- What `assertion` comes to: an assertion that is not repeated, or nothing and no move where none
    begins. -/
inductive AssertionRead (names : List String) (s : Input) :
    Option Term → List String → Input → Prop where
  | none (h : beginsAssertion s = false) : AssertionRead names s none names s
  | some {t : Term} {names' : List String} {r : Input} (hr : Input.Shorter r s)
    (ht : t.isAssertion) (h : UnitRead names s t names' r) : AssertionRead names s (some t) names' r

theorem anchor_ends {k : Nat} {a : Anchor} (hs : s <:+ text) (hgo : s.GoesOn) (hk : 0 < k)
    (hlen : k ≤ s.length) (he : element names s = .ok (.term (.anchor a), s.drop k)) :
    Ends s (AssertionRead names s) (fun f _ => UnitFails names s f)
      ((do skip k; return some (.anchor a) : Scan text _).run (.before names s)) := by
  rw [run_bind_ok (run_skip hs hlen)]
  exact .ok (List.drop_suffix k s) (.some (Input.shorter_drop hk hgo.1) rfl (.of_element hgo he))

theorem look_ends (hbody : ReadsBodies n body) {k : Nat} {dir : Direction} {negated : Bool}
    (hs : s <:+ text) (hn : s.length ≤ n) (hgo : s.GoesOn) (hk : 0 < k) (hlen : k ≤ s.length)
    (he : element names s = .ok (.opening (.look dir negated) names, s.drop k)) :
    Ends s (AssertionRead names s) (fun f _ => UnitFails names s f)
      ((do
        skip k
        return some (← enclosed body (text.length - s.length) (.look dir negated))).run
          (.before names s)) := by
  have hdrop := List.drop_suffix k s
  have hlt : (s.drop k).length < n := by
    rw [List.length_drop]
    omega
  rw [run_bind_ok (run_skip hs hlen)]
  refine Ends.of_suffix ?_ hdrop
  refine (enclosed_ends (G := True) hbody (hdrop.trans hs) hlt fun _ => ⟨hgo, he⟩).bind ?_
    fun f _ hf => hf trivial
  rintro _ names' r hr ⟨⟨q, rfl⟩, h⟩
  exact .ok (List.suffix_refl r)
    (.some (.of_suffix hr (Input.shorter_drop hk hgo.1)) rfl (h trivial))

theorem assertion_ends (hbody : ReadsBodies n body) (hs : s <:+ text) (hn : s.length ≤ n) :
    Ends s (AssertionRead names s) (fun f _ => UnitFails names s f)
      ((assertion body).run (.before names s)) := by
  rw [assertion, run_bind_ok run_position, run_bind_ok (run_peek hs 4)]
  have hlen := Input.length_peek_le 4 s
  have helement {x : Reading (Element × Input)} (hgo : s.GoesOn)
      (h : ∀ cp rest, s = cp :: rest → element names (cp :: rest) = x) : element names s = x := by
    cases s with
    | nil => exact absurd rfl hgo.1
    | cons cp rest => exact h cp rest rfl
  generalize hahead : Input.peek 4 s = ahead at hlen
  split
  case h_9 =>
    refine .ok (List.suffix_refl s) (.none ?_)
    unfold beginsAssertion
    simp only [*]
  case h_1 | h_2 | h_3 | h_4 =>
    have hgo : s.GoesOn := .of_peek hahead (by decide)
    refine anchor_ends hs hgo (by decide) (Nat.le_trans (by simp) hlen) (helement hgo ?_)
    rintro cp rest rfl
    simp only [element, hahead]
    rfl
  all_goals
    have hgo : s.GoesOn := .of_peek hahead (by decide)
    refine look_ends hbody hs hn hgo (by decide) (Nat.le_trans (by simp) hlen) (helement hgo ?_)
    rintro cp rest rfl
    simp only [element, hahead]
    rfl

/-- The reader reads what an atom is where `atom` is called: in a branch that goes on, where no
    anchor or lookaround begins. -/
def AtAtom (s : Input) : Prop := s.GoesOn ∧ beginsAssertion s = false

/-- What `atom` comes to. -/
structure AtomRead (names : List String) (s : Input) (t : Term) (names' : List String) (r : Input) :
    Prop where
  shorter : Input.Shorter r s
  not_assertion : t.isAssertion = false
  read : AtAtom s → UnitRead names s t names' r

/-- A scanner of an atom before `s` has done what the reader does there. -/
def AtomEnds (names : List String) (s : Input) : Result Halt (Cursor text) Term → Prop :=
  Ends s (AtomRead names s) fun f _ => AtAtom s → UnitFails names s f

/-- An atom that is a whole element of the reader. -/
theorem AtomEnds.of_reads {x : Reading (Term × Input)} {y : Result Halt (Cursor text) Term}
    (h : Reads names s x y) (he : atomElement names s = x.map fun (t, r) => (.term t, r))
    (hx : ∀ t r, x = .ok (t, r) → Input.Shorter r s ∧ t.isAssertion = false) :
    AtomEnds names s y := by
  refine Ends.mono h ?_ ?_
  · rintro t names' r - ⟨rfl, hok⟩
    obtain ⟨hr, ht⟩ := hx t r hok
    refine ⟨hr, ht, fun hs => .of_element hs.1 ?_⟩
    rw [Input.element_eq_atomElement names' hs.2, he, hok]
    rfl
  · rintro f _ ⟨-, h⟩ hs
    refine .of_element hs.1 ?_
    rw [Input.element_eq_atomElement names hs.2, he, h]
    rfl

theorem group_ends (hbody : ReadsBodies n body) {cp : CodePoint} (hs : cp :: s <:+ text)
    (hn : s.length < n) (he : atomElement names (cp :: s) = Input.groupOpening names s) :
    AtomEnds names (cp :: s) ((group body).run (.before names (cp :: s))) := by
  have hs' : s <:+ text := (List.suffix_cons cp s).trans hs
  rw [group, run_bind_ok run_position, run_bind_ok (run_skip_one hs)]
  refine Ends.of_suffix ?_ (List.suffix_cons cp s)
  refine (groupTag_ends hs').bind ?_ ?_
  · intro tag names₁ r₁ hr₁ htag
    have hlt : r₁.length < n := Nat.lt_of_le_of_lt hr₁.length_le hn
    have helement (h : AtAtom (cp :: s)) : GoesOn (cp :: s) ∧
        element names (cp :: s) = .ok (.opening (.group tag) names₁, r₁) := by
      refine ⟨h.1, ?_⟩
      rw [Input.element_eq_atomElement names h.2, he, htag]
    refine (enclosed_ends hbody (hr₁.trans hs') hlt helement).mono ?_ fun f _ hf => hf
    rintro _ names' r hr ⟨⟨q, rfl⟩, h⟩
    exact ⟨.of_suffix (hr.trans hr₁) (Input.shorter_cons cp s), rfl, h⟩
  · intro f _ hf hat
    refine .of_element hat.1 ?_
    rw [Input.element_eq_atomElement names hat.2, he, hf]

theorem literal_ends {cp : CodePoint} (hs : cp :: s <:+ text)
    (he : atomElement names (cp :: s) = .ok (.term (.char (.literal cp)), s)) :
    AtomEnds names (cp :: s) ((literal : Scan text _).run (.before names (cp :: s))) := by
  rw [literal, run_bind_ok (run_advance? hs)]
  refine .of_reads (Reads.ok (List.suffix_cons cp s)) he ?_
  rintro t r h
  cases h
  exact ⟨Input.shorter_cons cp s, rfl⟩

theorem nothingToRepeat_ends {cp : CodePoint}
    (he : atomElement names (cp :: s) = .error ⟨.nothingToRepeat, cp :: s⟩) :
    AtomEnds names (cp :: s)
      ((fail (text.length - (cp :: s).length) .nothingToRepeat : Scan text _).run
        (.before names (cp :: s))) :=
  .of_reads (Reads.fail (List.suffix_refl _)) he nofun

theorem atom_ends (hbody : ReadsBodies n body) (hs : s <:+ text) (hn : s.length ≤ n) :
    AtomEnds names s ((atom body).run (.before names s)) := by
  rw [atom, run_bind_ok run_position, run_bind_ok (run_peek? hs)]
  cases s with
  | nil =>
    exact .fail (List.suffix_refl [])
      fun hat => absurd rfl hat.1.1
  | cons cp s =>
    simp only [Input.peek?_cons]
    generalize hch : cp.toChar = ch
    split
    case h_1 =>
      rw [run_bind_ok (run_skip_one hs)]
      refine .of_reads (Reads.ok (List.suffix_cons cp s)) (by simp only [atomElement, hch]; rfl) ?_
      rintro t r h
      cases h
      exact ⟨Input.shorter_cons cp s, rfl⟩
    case h_2 =>
      refine .of_reads ((bracketClass_reads hs).map Term.char) ?_ ?_
      · simp only [atomElement, hch]
        cases Input.bracketClass (cp :: s) s with
        | error f => rfl
        | ok x => rfl
      · intro t r h
        obtain ⟨x, hx, htr⟩ := Reading.of_map_eq_ok h
        cases htr
        exact ⟨(Input.bracketClass_shorter hx).trans (Input.shorter_cons cp s), rfl⟩
    case h_3 => exact group_ends hbody hs hn (by simp only [atomElement, hch])
    case h_4 =>
      refine .of_reads (termEscape_reads hs) (by simp only [atomElement, hch]) fun t r h => ⟨?_, ?_⟩
      · exact .of_suffix (Input.termEscape_suffix h) (Input.shorter_cons cp s)
      · exact Input.isAssertion_of_termEscape h
    case h_5 | h_6 | h_7 => exact nothingToRepeat_ends (by simp only [atomElement, hch])
    case h_8 =>
      rw [run_bind_ok (braceQuantifierAhead_eq hs)]
      cases hahead : Input.quantifierAhead s with
      | true => exact nothingToRepeat_ends (by simp only [atomElement, hch, hahead, if_true])
      | false =>
        refine literal_ends hs ?_
        simp only [atomElement, hch, hahead, Bool.false_eq_true, if_false]
    case h_9 => exact literal_ends hs (by simp only [atomElement, *])

/-- A term is read where a branch goes on, and its scanner moves the cursor on anywhere. -/
def TermEnds (names : List String) (s : Input) : Result Halt (Cursor text) Term → Prop :=
  Ends s (fun t names' r => Input.Shorter r s ∧ (s.GoesOn → QuantifiedRead names s t names' r))
    fun f _ => s.GoesOn → UnitFails names s f

theorem term_ends (hbody : ReadsBodies n body) (hs : s <:+ text) (hn : s.length ≤ n) :
    TermEnds names s ((term body).run (.before names s)) := by
  refine (assertion_ends hbody hs hn).bind ?_ fun f _ hf _ => hf
  intro o names' r hr ho
  have hrs := hr.trans hs
  cases ho with
  | @some t _ _ hshort ht hread =>
    have hrepeated := Input.repeated_eq t r
    dsimp only
    rw [run_bind_ok run_position]
    refine (quantifier_reads hrs).bind (fun h => ?_) (fun q r' hr' h => ?_) fun f h _ stack p => ?_
    · rw [h] at hrepeated
      refine .ok (List.suffix_refl r) ⟨hshort, fun _ stack p => ?_⟩
      rw [hread, hrepeated]
    · rw [h] at hrepeated
      refine .fail (List.suffix_refl r') fun _ stack p => ?_
      rw [hread, hrepeated]
      simp only [ht, if_true]
    · rw [h] at hrepeated
      rw [hread, hrepeated]
  | none hno =>
    refine (atom_ends hbody hs hn).bind ?_ fun f _ hf hgo => hf ⟨hgo, hno⟩
    intro t names' r hr hatom
    have hrs := hr.trans hs
    have hrepeated := Input.repeated_eq t r
    refine (quantifier_reads hrs).bind (fun h => ?_) (fun q r' hr' h => ?_)
      fun f h hgo stack p => ?_
    · rw [h] at hrepeated
      refine .ok (List.suffix_refl r) ⟨hatom.shorter, fun hgo stack p => ?_⟩
      rw [hatom.read ⟨hgo, hno⟩, hrepeated]
    · rw [h] at hrepeated
      refine .ok (List.suffix_refl r') ⟨.of_suffix hr' hatom.shorter, fun hgo stack p => ?_⟩
      rw [hatom.read ⟨hgo, hno⟩, hrepeated]
      simp only [hatom.not_assertion, Bool.false_eq_true, if_false]
    · rw [h] at hrepeated
      rw [hatom.read ⟨hgo, hno⟩, hrepeated]

/-! ## Branches and patterns -/

/-- The reader goes on at `s` in a branch of which `terms` has been read as it does at `r`, where
    the branch ends with the terms of `b`. -/
def BranchRead (terms : Branch) (names : List String) (s : Input) (b : Branch)
    (names' : List String) (r : Input) : Prop :=
  (∀ c ∈ r.peek?, c ∈ ['|', ')']) ∧ ∀ stack p, p.terms.reverse = terms →
    patternFrom stack p names s = patternFrom stack { p with terms := b.reverse } names' r

theorem branchTurn_ends (hbody : ReadsBodies n body) (terms : Branch) (hs : s <:+ text)
    (hn : s.length ≤ n) :
    Ends s (Turn.Leaves BranchRead (fun _ names s f _ => UnitFails names s f) terms names s)
      (fun f _ => UnitFails names s f) ((branchTurn body terms).run (.before names s)) := by
  rw [branchTurn, run_bind_ok (run_peek? hs)]
  cases s with
  | nil =>
    refine .ok (List.suffix_refl []) ⟨nofun, fun stack p hp => ?_⟩
    rw [← hp, List.reverse_reverse]
  | cons cp s =>
    simp only [Input.peek?_cons]
    by_cases hend : cp.toChar = ')' ∨ cp.toChar = '|'
    · rw [if_pos hend]
      refine .ok (List.suffix_refl _) ⟨?_, fun stack p hp => ?_⟩
      · rintro c hc
        cases hc
        simpa [or_comm] using hend
      · rw [← hp, List.reverse_reverse]
    · rw [if_neg hend]
      have hgo : GoesOn (cp :: s) := by
        refine ⟨List.cons_ne_nil cp s, ?_⟩
        rintro c hc
        cases hc
        simpa [or_comm] using hend
      refine (term_ends hbody hs hn).bind ?_ fun f _ hf => hf hgo
      rintro t names' r hr ⟨hshort, hread⟩
      refine .ok (List.suffix_refl r) ⟨hshort, ?_, ?_⟩
      · rintro b names'' r' _ ⟨hr', hb⟩
        refine ⟨hr', fun stack p hp => ?_⟩
        rw [hread hgo, hb stack (p.addTerm t) (by simp [OpenPattern.addTerm, hp])]
        rfl
      · rintro f _ hf stack p
        rw [hread hgo, hf]

theorem branch_ends (hbody : ReadsBodies n body) (hs : s <:+ text) (hn : s.length ≤ n) :
    Ends s (BranchRead [] names s) (fun f _ => UnitFails names s f)
      ((branch body).run (.before names s)) :=
  Ends.loop hs (fun terms _ _ hr => branchTurn_ends hbody terms (hr.trans hs)
    (Nat.le_trans hr.length_le hn)) [] names (List.suffix_refl s)

/-- Behind `branches`, the reader goes on at `s` as at `r`, where a body ends that has the branches
    of `q`. There are at least two, since a bar has been read or stands at `s`. -/
def PatternRead (branches : Pattern) (names : List String) (s : Input) (q : Pattern)
    (names' : List String) (r : Input) : Prop :=
  (∀ c ∈ s.peek?, c ∈ ['|', ')']) → (∀ c ∈ r.peek?, c = ')') ∧
    ∀ p : OpenPattern, p.allBranches = branches → (p.branches ≠ [] ∨ s.peek? = some '|') →
      ∃ p' : OpenPattern, p'.allBranches = q ∧ p'.branches ≠ [] ∧
        ∀ stack, patternFrom stack p names s = patternFrom stack p' names' r

theorem patternTurn_ends (hbody : ReadsBodies n body) (branches : Pattern) (hs : s <:+ text)
    (hn : s.length ≤ n) :
    Ends s (Turn.Leaves PatternRead (fun _ names s f _ => UnitFails names s f) branches names s)
      (fun f _ => UnitFails names s f) ((patternTurn body branches).run (.before names s)) := by
  rw [patternTurn, run_bind, run_eat hs]
  cases hbar : Input.after? '|' s with
  | none =>
    have hpeek : s.peek? ≠ some '|' := by
      intro h
      cases s with
      | nil => cases h
      | cons cp s => simp [Input.after?, Option.some.inj h] at hbar
    refine .ok (List.suffix_refl s) fun hends => ⟨fun c hc => ?_, fun p hp hbranches => ?_⟩
    · rcases List.mem_pair.mp (hends c hc) with rfl | rfl
      · exact absurd hc hpeek
      · rfl
    · exact ⟨p, hp, hbranches.resolve_right hpeek, fun _ => rfl⟩
  | some s₁ =>
    have hshort := Input.after?_eq_some hbar
    have heq := Input.eq_of_after? hbar (by decide)
    have hlen : s₁.length ≤ n := Nat.le_trans hshort.1.length_le hn
    refine Ends.of_suffix ?_ hshort.1
    refine (branch_ends hbody (hshort.1.trans hs) hlen).bind ?_ fun f _ hf stack p => ?_
    · rintro b names' r hr ⟨hends, hb⟩
      refine .ok (List.suffix_refl r) ⟨.of_suffix hr hshort, ?_, ?_⟩
      · intro q names'' r' _ hq _
        obtain ⟨hends', hq⟩ := hq hends
        refine ⟨hends', fun p hp _ => ?_⟩
        obtain ⟨p', hp', hne, hread⟩ := hq { p.nextBranch with terms := b.reverse }
          (by simp [OpenPattern.allBranches, OpenPattern.nextBranch, ← hp])
          (.inl (List.cons_ne_nil _ _))
        refine ⟨p', hp', hne, fun stack => ?_⟩
        rw [heq, Input.patternFrom_bar, hb stack p.nextBranch rfl, hread]
      · intro f _ hf stack p
        rw [heq, Input.patternFrom_bar, hb stack p.nextBranch rfl, hf]
    · rw [heq, Input.patternFrom_bar, hf]

theorem patternOver_ends (hbody : ReadsBodies n body) (hs : s <:+ text) (hn : s.length ≤ n) :
    Ends s (BodyRead names s) (fun f _ => BodyFails names s f)
      ((patternOver body).run (.before names s)) := by
  rw [patternOver]
  refine (branch_ends hbody hs hn).bind ?_ fun f _ hf stack => hf stack {}
  rintro first names' r hr ⟨hends, hfirst⟩
  have hrs := hr.trans hs
  have hfirst (stack : List OpenGroup) := hfirst stack {} rfl
  rw [run_bind_ok (run_peek? hrs)]
  split
  case isTrue hbar =>
    have hloop := Ends.loop hrs (fun branches _ _ hr' => patternTurn_ends hbody branches
      (hr'.trans hrs) (Nat.le_trans (hr'.trans hr).length_le hn)) [first] names'
      (List.suffix_refl r)
    refine hloop.mono (fun q names'' r' _ hq => ?_)
      fun f _ hf stack => (hfirst stack).trans (hf _ _)
    obtain ⟨hends', hq⟩ := hq hends
    obtain ⟨p, hp, hne, hread⟩ := hq { terms := first.reverse } (by simp [OpenPattern.allBranches])
      (.inr hbar)
    exact ⟨hends', p, (OpenPattern.finish_eq_allBranches hne).trans hp,
      fun stack => (hfirst stack).trans (hread stack)⟩
  case isFalse hbar =>
    have hends' : ∀ c ∈ Input.peek? r, c = ')' := by
      intro c hc
      rcases List.mem_pair.mp (hends c hc) with rfl | rfl
      · exact absurd hc hbar
      · rfl
    cases first with
    | nil => exact .ok (List.suffix_refl r) ⟨hends', {}, rfl, hfirst⟩
    | cons t ts =>
      exact .ok (List.suffix_refl r) ⟨hends', { terms := (t :: ts).reverse },
        by simp [OpenPattern.finish], hfirst⟩

/-- The scanner of patterns does what the reader does with any body that may lie so deep. -/
theorem pattern_reads (n : Nat) : ReadsBodies n (pattern n : Scan text Pattern) := by
  induction n with
  | zero => exact fun names s _ hn => absurd hn (Nat.not_lt_zero _)
  | succ n ih => exact fun names s hs hn => patternOver_ends ih hs (Nat.le_of_lt_succ hn)

/-- Scanning a text comes to what parsing it answers, and to the end of the text if it succeeds. -/
theorem parse_ends (text : Input) :
    Ends text (fun p _ r => Pattern.parse text = .ok p ∧ r = [])
      (fun f _ => Pattern.parse text = .error (f.inText text))
      ((parse : Scan text Pattern).run (.before [] text)) := by
  rw [parse]
  refine (pattern_reads (text.length + 1) [] text (List.suffix_refl text) (Nat.lt_succ_self _)).bind
    ?_ fun f _ hf => ?_
  · rintro q names r hr ⟨hends, p, rfl, hread⟩
    have hparse : Pattern.parse text =
        (Input.patternFrom [] p names r).mapError (Failure.inText · text) := by
      rw [Pattern.parse_eq, hread]
    rw [run_bind_ok run_position]
    cases r with
    | nil =>
      have hpos : ¬ text.length - ([] : Input).length < text.length := Nat.lt_irrefl _
      rw [if_neg hpos]
      exact .ok (List.suffix_refl []) ⟨hparse.trans (by rw [Input.patternFrom]; rfl), rfl⟩
    | cons cp r =>
      have hlen := hr.length_le
      have hpos : text.length - (cp :: r).length < text.length := by
        rw [List.length_cons] at hlen ⊢
        omega
      have hcp : cp.toChar = ')' := hends _ rfl
      rw [if_pos hpos, run_bind_ok run_position]
      refine .fail (List.suffix_refl _) (hparse.trans ?_)
      rw [Input.patternFrom, if_neg (by rw [hcp]; decide), if_pos hcp]
      rfl
  · rw [Pattern.parse_eq, hf]
    rfl

end Scan

end Retrace
