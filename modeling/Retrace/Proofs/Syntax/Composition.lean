import Retrace.Proofs.Syntax.ReadBack
import Retrace.Proofs.Syntax.Stability

/-!
# Patterns within larger texts

A text that is read as a pattern is read in the same way inside a larger text: behind branches that
are finished, within groups that are open, and in front of a bar, a closing parenthesis or the end.
Only the names of the groups around it must differ from its own. So a bar puts the branches of two
patterns into one, and parentheses make a term of a pattern.

Results:

* `Surroundings.reads`: reading a text in its surroundings leads to what it is read as alone.
* `Pattern.parse_bar`: two patterns with a bar between them.
* `Pattern.parse_opened`: a pattern within parentheses.
-/

namespace Retrace

/-- What stands around the text of a pattern: open groups, finished branches of the innermost one,
    the last one first, the group names in use, and the text behind. -/
structure Surroundings where
  groups : List OpenGroup
  branches : List Branch
  names : List String
  rest : Input
  closing : Input.Closing rest

namespace Surroundings

variable (w : Surroundings) {stack : List OpenGroup} {p : OpenPattern} {names : List String}
  {s : Input}

/-- The open groups and the open pattern, with the surroundings around them. -/
def around : List OpenGroup → OpenPattern → List OpenGroup × OpenPattern
  | [], p => (w.groups, { p with branches := p.branches ++ w.branches })
  | g :: stack, p =>
    (⟨g.opening, g.place ++ w.rest, (around stack g.around).2⟩ :: (around stack g.around).1, p)

/-- The reading of an input in the surroundings. -/
def read (stack : List OpenGroup) (p : OpenPattern) (names : List String) (s : Input) :
    Reading Pattern :=
  Input.patternFrom (w.around stack p).1 (w.around stack p).2 (names ++ w.names) (s ++ w.rest)

theorem around_nextBranch (stack : List OpenGroup) (p : OpenPattern) :
    w.around stack p.nextBranch = ((w.around stack p).1, (w.around stack p).2.nextBranch) := by
  cases stack <;> rfl

theorem around_addTerm (stack : List OpenGroup) (p : OpenPattern) (t : Term) :
    w.around stack (p.addTerm t) = ((w.around stack p).1, (w.around stack p).2.addTerm t) := by
  cases stack <;> rfl

/-- Each step of reading a text alone is also a step of reading it in the surroundings, as long as
    the names of its groups are not in use there. -/
theorem read_invariant (x : Reading Pattern) : Input.Invariant fun stack p names s =>
    (∀ name ∈ names, name ∉ w.names) → w.read stack p names s = x where
  bar := by
    intro stack p names cp rest h hc hn
    rw [← h hn, (CodePoint.toChar_eq_iff (by decide)).1 hc]
    unfold read
    rw [around_nextBranch]
    exact (Input.patternFrom_bar (rest ++ w.rest)).symm
  close := by
    intro g stack p names cp rest t r h hc hr hn
    rw [← h hn, (CodePoint.toChar_eq_iff (by decide)).1 hc]
    unfold read
    rw [around_addTerm]
    let outer : OpenGroup := ⟨g.opening, g.place ++ w.rest, (w.around stack g.around).2⟩
    exact (Input.patternFrom_close (g := outer) (Input.repeated_append w.closing hr)).symm
  opening := by
    intro stack p names s o names' r h hs he hn
    have hsub : ∀ name ∈ names, name ∈ names' := by
      cases Input.openingRead_of_element he with
      | look | group | capture => exact fun _ hm => hm
      | named => exact fun _ hm => List.mem_cons_of_mem _ hm
    have hne : s ≠ [] := by
      rintro rfl
      cases he
    have he : Input.element (names ++ w.names) (s ++ w.rest) = _ :=
      Input.element_append w.closing he hn
    rw [← h fun name hm => hn name (hsub name hm)]
    refine (Input.patternFrom_opening ?_ he).symm
    rwa [Input.peek?_append hne]
  term := by
    intro stack p names s t r u r' h hs he hr hn
    have hne : s ≠ [] := by
      rintro rfl
      cases he
    have he : Input.element (names ++ w.names) (s ++ w.rest) = _ :=
      Input.element_append w.closing he trivial
    rw [← h hn]
    unfold read
    rw [around_addTerm]
    refine (Input.patternFrom_term ?_ he (Input.repeated_append w.closing hr)).symm
    rwa [Input.peek?_append hne]

/-- Reading a text in its surroundings leads to what the text is read as alone, with its group names
    in use, and goes on behind it. -/
theorem reads {text : Input} {t : Pattern} (ht : Pattern.parse text = .ok t)
    (hn : ∀ name ∈ t.groupNames, name ∉ w.names) :
    ∃ (p : OpenPattern) (names : List String), p.finish = t ∧ t.groupNames.Perm names ∧
      w.read [] {} [] text = Input.patternFrom w.groups
        { p with branches := p.branches ++ w.branches } (names ++ w.names) w.rest := by
  have start : (∀ name ∈ ([] : List String), name ∉ w.names) →
      w.read [] {} [] text = w.read [] {} [] text := fun _ => rfl
  obtain ⟨p, names, ⟨⟨hperm, -⟩, hread⟩, rfl⟩ :=
    (Input.heldNames_invariant.and (w.read_invariant _)).reaches ⟨Input.heldNames_start, start⟩
      (Pattern.parse_eq_ok ht)
  have hperm := Input.groupNames_finish hperm
  exact ⟨p, names, rfl, hperm, (hread fun name hm => hn name (hperm.mem_iff.2 hm)).symm⟩

end Surroundings

/-! ## Alternatives -/

/-- The branches of a pattern, of which there is always one: the empty one, if it has none. -/
def Pattern.alternatives (p : Pattern) : Pattern := if p.isEmpty then [[]] else p

theorem OpenPattern.alternatives_finish (p : OpenPattern) :
    p.finish.alternatives = p.allBranches := by
  unfold finish
  split
  case isTrue h =>
    have h : p.branches = [] ∧ p.terms = [] := by simpa using h
    rw [allBranches, h.1, h.2]
    rfl
  case isFalse =>
    rw [Pattern.alternatives, if_neg (by simp)]
    rfl

/-- The text of two patterns with a bar between them has the branches of both. -/
theorem Pattern.parse_bar {p q : Input} {t u : Pattern} (ht : parse p = .ok t)
    (hu : parse q = .ok u) (hn : ∀ name ∈ u.groupNames, name ∉ t.groupNames) :
    parse (p ++ CodePoint.ofChar '|' :: q) = .ok (t.alternatives ++ u.alternatives) := by
  have hbar : Input.Closing (CodePoint.ofChar '|' :: q) := by
    rintro c ⟨⟩
    simp
  obtain ⟨first, names, rfl, hnames, hfirst⟩ := Surroundings.reads
    ⟨[], [], [], CodePoint.ofChar '|' :: q, hbar⟩ ht (by simp)
  obtain ⟨second, names', rfl, -, hsecond⟩ := Surroundings.reads
    ⟨[], first.nextBranch.branches, names, [], by rintro c ⟨⟩⟩ hu
    fun name hm hm' => hn name hm (hnames.mem_iff.2 hm')
  rw [parse_eq_ok_iff]
  calc Input.patternFrom [] {} [] (p ++ CodePoint.ofChar '|' :: q)
      = Input.patternFrom [] first names (CodePoint.ofChar '|' :: q) := by
        simpa [Surroundings.read, Surroundings.around] using hfirst
    _ = Input.patternFrom [] first.nextBranch names q := Input.patternFrom_bar q
    _ = Input.patternFrom []
          { second with branches := second.branches ++ first.nextBranch.branches }
          (names' ++ names) [] := by
        simpa [Surroundings.read, Surroundings.around, OpenPattern.nextBranch] using hsecond
    _ = .ok (first.finish.alternatives ++ second.finish.alternatives) := by
        rw [OpenPattern.alternatives_finish, OpenPattern.alternatives_finish]
        simp [Input.patternFrom, OpenPattern.finish, OpenPattern.allBranches,
          OpenPattern.nextBranch]

/-! ## Parentheses -/

/-- Nothing that can be read begins with a question mark. -/
theorem Pattern.peek?_of_parse {text : Input} {t : Pattern} (ht : parse text = .ok t) :
    Input.peek? text ≠ some '?' := by
  intro hc
  have hne : text ≠ [] := by
    rintro rfl
    cases hc
  have herror {e : Element} {r : Input} : Input.element [] text ≠ .ok (e, r) := by
    cases text with
    | nil => cases hc
    | cons cp s =>
      have hc : cp.toChar = '?' := Option.some.inj hc
      simp [Input.element, Input.peek_succ_cons, hc]
  have hs : ∀ c ∈ Input.peek? text, c ∉ ['|', ')'] := by
    rw [hc]
    rintro c ⟨⟩
    simp
  rcases Input.element_of_patternFrom hne hs (parse_eq_ok ht) with
    ⟨_, _, _, he⟩ | ⟨_, _, _, _, he, -⟩
  · exact herror he
  · exact herror he

/-- A text within parentheses makes one term of its pattern. -/
theorem Pattern.parse_enclosed {text : Input} {t : Pattern} (ht : parse text = .ok t) {o : Opening}
    {opening : Input} {names : List String} (hn : ∀ name ∈ t.groupNames, name ∉ names)
    (hs : Input.peek? (opening ++ (text ++ [CodePoint.ofChar ')'])) = some '(')
    (he : Input.element [] (opening ++ (text ++ [CodePoint.ofChar ')'])) =
      .ok (.opening o names, text ++ [CodePoint.ofChar ')'])) :
    parse (opening ++ (text ++ [CodePoint.ofChar ')'])) = .ok [[o.close t]] := by
  set whole := opening ++ (text ++ [CodePoint.ofChar ')']) with hwhole
  obtain ⟨p, names', rfl, -, hread⟩ := Surroundings.reads
    ⟨[⟨o, whole, {}⟩], [], names, [CodePoint.ofChar ')'], Input.closing_paren []⟩ ht hn
  rw [parse_eq_ok_iff]
  calc Input.patternFrom [] {} [] whole
      = Input.patternFrom [⟨o, whole, {}⟩] {} names (text ++ [CodePoint.ofChar ')']) := by
        refine Input.patternFrom_opening ?_ he
        rw [hs]
        rintro c ⟨⟩
        simp
    _ = Input.patternFrom [⟨o, whole, {}⟩] p (names' ++ names) [CodePoint.ofChar ')'] := by
        simpa [Surroundings.read, Surroundings.around] using hread
    _ = Input.patternFrom [] (OpenPattern.addTerm {} (o.close p.finish)) (names' ++ names) [] :=
        Input.patternFrom_close (g := ⟨o, whole, {}⟩) rfl
    _ = .ok [[o.close p.finish]] := by
        simp [Input.patternFrom, OpenPattern.finish, OpenPattern.addTerm]

/-- The text of an opening. -/
def Opening.print : Opening → List Char
  | group tag => tag.printOpening
  | look dir negated => dir.printOpening negated

/-- Whether an opening is one that a text can give. -/
def Opening.Sound : Opening → Prop
  | group tag => tag.Sound
  | look .. => True

theorem Opening.peek?_print (o : Opening) (s : Input) :
    Input.peek? (Input.ofChars o.print ++ s) = some '(' := by
  cases o with
  | group tag =>
    obtain ⟨number, name⟩ := tag
    cases number <;> cases name <;> rfl
  | look dir negated => cases dir <;> rfl

theorem Input.element_opening (names : List String) {o : Opening} (ho : o.Sound)
    (hn : ∀ name ∈ o.name?, name ∉ names) {r : Input} (hr : peek? r ≠ some '?') :
    element names (ofChars o.print ++ r) = .ok (.opening o (o.name?.toList ++ names), r) := by
  cases o with
  | group tag => exact element_group names ho hn hr
  | look dir negated => exact element_look names dir negated r

/-- A text between an opening and a closing parenthesis makes one term of its pattern, unless the
    pattern uses the opening's name. -/
theorem Pattern.parse_opened {text : Input} {t : Pattern} (ht : parse text = .ok t) {o : Opening}
    (ho : o.Sound) (hn : ∀ name ∈ o.name?, name ∉ t.groupNames) :
    parse (Input.ofChars o.print ++ (text ++ [CodePoint.ofChar ')'])) = .ok [[o.close t]] := by
  have hmark : Input.peek? (text ++ [CodePoint.ofChar ')']) ≠ some '?' := by
    cases text with
    | nil => decide
    | cons cp s =>
      rw [Input.peek?_append (List.cons_ne_nil cp s)]
      exact peek?_of_parse ht
  have he := Input.element_opening [] ho (by simp) hmark
  rw [List.append_nil] at he
  have hnames : ∀ name ∈ t.groupNames, name ∉ o.name?.toList := fun name hname hmem =>
    hn name (Option.mem_toList.mp hmem) hname
  exact parse_enclosed ht hnames (o.peek?_print _) he

/-- A text within the parentheses of a group without a name makes a group of its pattern. -/
theorem Pattern.parse_group {text : Input} {t : Pattern} (ht : parse text = .ok t) {tag : GroupTag}
    (htag : tag.Sound) (hname : tag.name = none) :
    parse (Input.ofChars tag.printOpening ++ (text ++ [CodePoint.ofChar ')'])) =
      .ok [[.group tag t]] :=
  parse_opened (o := .group tag) ht htag (by simp [Opening.name?, hname])

end Retrace
