import Retrace.Proofs.Match.Unordered
import Retrace.Proofs.Regex.Agreement

/-!
# What the flags change

A text compiles to the same pattern whatever the flags are; they only matter when it is matched.

Without regard to case, literals and ranges accept more code points than with it. Where a pattern
negates nothing, it then has all ways that it has with regard to case, and perhaps others. So it
matches wherever it did, and its leftmost match begins no later.

In multiline mode, `^`, `$` and the dot treat line terminators in a manner of their own. On a
subject that has none, a pattern has the same ways in both modes, although only outside of multiline
mode does a search stop at the first start position if every branch begins with `^`.

Results:

* `Regex.compile_flags`: what a text compiles to under other flags.
* `Regex.withIgnoreCase_adds`: what is matched with regard to case is matched without it.
* `Regex.withMultiline_inert`: multiline mode has no effect on a subject without line terminators.
-/

namespace Retrace

/-- The flags with case disregarded. -/
def Flags.withIgnoreCase (flags : Flags) : Flags := { flags with ignoreCase := true }

/-- The flags in multiline mode. -/
def Flags.withMultiline (flags : Flags) : Flags := { flags with multiline := true }

namespace Regex

/-- The expression under other flags. -/
def withFlags (re : Regex) (flags : Flags) : Regex := { re with flags := flags }

/-- Flags have no say in which texts compile, nor in the pattern that a text compiles to. -/
theorem compile_flags (text : Input) (flags flags' : Flags) :
    compile text flags' = (compile text flags).map fun re => re.withFlags flags' := by
  unfold compile
  cases Pattern.parse text with
  | error e => rfl
  | ok p =>
    cases hp : p.backreferences with
    | nil => simp only [hp]; rfl
    | cons target targets => simp only [hp]; rfl

theorem flags_of_compile {text : Input} {flags : Flags} {re : Regex}
    (h : compile text flags = .ok re) : re.flags = flags := by
  obtain ⟨-, -, -, rfl⟩ := compile_eq_ok_iff.mp h
  rfl

end Regex

variable {flags : Flags} {subject : Text} {dir : Direction}

/-! ## Without regard to case -/

/-- Whether a term accepts what its members or its body do not. -/
def Term.isNegation : Term → Bool
  | .char (.bracket negated _) => negated
  | .look _ negated _ => negated
  | _ => false

/-- Whether no term among the given ones is negated. -/
def NothingNegated (ts : List Term) : Prop := ∀ t ∈ ts, t.isNegation = false

instance (ts : List Term) : Decidable (NothingNegated ts) :=
  inferInstanceAs (Decidable (∀ t ∈ ts, t.isNegation = false))

theorem NothingNegated.mono {ts us : List Term} (h : NothingNegated us) (hsub : ts ⊆ us) :
    NothingNegated ts := fun t ht => h t (hsub ht)

theorem CodePoint.matchesLiteral_withIgnoreCase {expected cp : CodePoint}
    (h : matchesLiteral flags expected cp) : matchesLiteral flags.withIgnoreCase expected cp := by
  unfold matchesLiteral at h ⊢
  rw [Bool.or_eq_true, Bool.and_eq_true] at h ⊢
  exact h.imp_right fun hfold => ⟨rfl, hfold.2⟩

theorem ClassMember.accepts_withIgnoreCase {m : ClassMember} {cp : CodePoint}
    (h : m.accepts flags cp) : m.accepts flags.withIgnoreCase cp := by
  cases m with
  | literal expected => exact CodePoint.matchesLiteral_withIgnoreCase h
  | range lo hi =>
    unfold accepts CodePoint.matchesRange at h ⊢
    rw [Bool.or_eq_true, Bool.and_eq_true] at h ⊢
    exact h.imp_right fun hcases => ⟨rfl, hcases.2⟩
  | escape e => exact h

theorem CharExpr.accepts_withIgnoreCase {e : CharExpr} (he : (Term.char e).isNegation = false)
    {cp : CodePoint} (h : e.accepts flags cp) : e.accepts flags.withIgnoreCase cp := by
  cases e with
  | literal expected => exact CodePoint.matchesLiteral_withIgnoreCase h
  | any => exact h
  | escape e => exact h
  | bracket negated members =>
    cases negated with
    | true => cases he
    | false =>
      simp only [accepts, Bool.bne_false, List.any_eq_true] at h ⊢
      obtain ⟨m, hm, hcp⟩ := h
      exact ⟨m, hm, m.accepts_withIgnoreCase hcp⟩

namespace Ways

theorem single_contained {length : Nat} {goal goal' : Int → Option Int}
    {hgoal : ∀ {pos next}, goal pos = some next → Ahead dir length pos next}
    {hgoal' : ∀ {pos next}, goal' pos = some next → Ahead dir length pos next}
    (h : ∀ {pos next}, goal pos = some next → goal' pos = some next) :
    Compares .containment (single goal hgoal) (single goal' hgoal') := by
  intro pos o ho
  obtain ⟨next, hnext, rfl⟩ := List.mem_map.mp ho
  exact List.mem_map.mpr ⟨next, Option.mem_toList.mpr (h (Option.mem_toList.mp hnext)), rfl⟩

/-- A condition on the gap that holds wherever another one does. -/
theorem gap_contained {length : Nat} {holds holds' : Int → Bool}
    (h : ∀ pos, holds pos → holds' pos) :
    Compares .containment (single (gapGoal holds) gapGoal_ahead : Ways dir length)
      (single (gapGoal holds') gapGoal_ahead) := by
  refine single_contained fun hnext => ?_
  unfold gapGoal at hnext ⊢
  rw [Option.ite_none_right_eq_some] at hnext ⊢
  exact hnext.imp_left (h _)

/-- One code point that is accepted wherever another expression accepts it. -/
theorem char_contained {flags flags' : Flags} {e e' : CharExpr}
    (h : ∀ cp, e.accepts flags cp → e'.accepts flags' cp) :
    Compares .containment (single (charGoal flags subject dir e) charGoal_ahead)
      (single (charGoal flags' subject dir e') charGoal_ahead) := by
  refine single_contained fun hnext => ?_
  unfold charGoal at hnext ⊢
  rw [Option.ite_none_right_eq_some, Option.any_eq_true] at hnext ⊢
  obtain ⟨⟨cp, hcp, haccepts⟩, hnext⟩ := hnext
  exact ⟨⟨cp, hcp, h cp haccepts⟩, hnext⟩

end Ways

mutual

theorem Term.ways_withIgnoreCase (t : Term) (dir : Direction) (h : NothingNegated t.subterms) :
    Ways.Compares .containment (t.ways flags subject dir)
      (t.ways flags.withIgnoreCase subject dir) := by
  cases t with
  | char e =>
    have he := h _ List.mem_cons_self
    exact Ways.char_contained fun cp hcp => e.accepts_withIgnoreCase he hcp
  | anchor a => exact Ways.Compares.refl _
  | look look negated body =>
    have hbody := Ways.pattern_compares
      (Pattern.branchWays_withIgnoreCase body look (h.mono (List.subset_cons_self _ _)))
    have hlook : negated = false := h _ List.mem_cons_self
    subst hlook
    refine Ways.gap_contained fun pos hholds => ?_
    -- a way of the body is one without regard to case, too
    rw [beq_iff_eq, List.isEmpty_eq_false_iff_exists_mem] at hholds ⊢
    obtain ⟨o, ho⟩ := hholds
    exact ⟨o, hbody _ ho⟩
  | group tag body =>
    have hbody := Ways.pattern_compares
      (Pattern.branchWays_withIgnoreCase body dir (h.mono (List.subset_cons_self _ _)))
    exact Ways.mapCaptures_compares hbody _
  | repeated atom q =>
    exact Ways.repetition_compares q
      (Term.ways_withIgnoreCase atom dir (h.mono (List.subset_cons_self _ _))) q.lazy
  | backreference target => exact Ways.Compares.refl _
termination_by structural t

theorem Branch.termWays_withIgnoreCase (b : Branch) (dir : Direction)
    (h : NothingNegated b.subterms) :
    List.Forall₂ (Ways.Compares .containment) (b.termWays flags subject dir)
      (b.termWays flags.withIgnoreCase subject dir) := by
  cases b with
  | nil => exact .nil
  | cons t b =>
    have ht := Term.ways_withIgnoreCase t dir (h.mono (List.subset_append_left _ _))
    have hb := Branch.termWays_withIgnoreCase b dir (h.mono (List.subset_append_right _ _))
    exact .cons ht hb
termination_by structural b

theorem Pattern.branchWays_withIgnoreCase (p : Pattern) (dir : Direction)
    (h : NothingNegated p.subterms) :
    List.Forall₂ (Ways.Compares .containment) (p.branchWays flags subject dir)
      (p.branchWays flags.withIgnoreCase subject dir) := by
  cases p with
  | nil => exact .nil
  | cons b p =>
    have hb := Branch.termWays_withIgnoreCase b dir (h.mono (List.subset_append_left _ _))
    have hp := Pattern.branchWays_withIgnoreCase p dir (h.mono (List.subset_append_right _ _))
    exact .cons (Ways.sequence_compares hb) hp
termination_by structural p

end

/-- Disregarding case only adds matches where nothing is negated. A text that compiles, to a pattern
    without negated bracket classes and lookarounds at any depth, compiles to the same pattern
    without regard to case. From every position and in both directions, the ways that the pattern
    has are then ways that it has without regard to case. So it has a match at every start position
    at which it had one, and the leftmost match begins no later. Nothing is asked of the case
    mappings. -/
theorem Regex.withIgnoreCase_adds {text : Input} {flags : Flags} {re : Regex}
    (hre : compile text flags = .ok re) (h : NothingNegated re.root.subterms) :
    compile text flags.withIgnoreCase = .ok (re.withFlags flags.withIgnoreCase) ∧
    (∀ (subject : Text) (dir : Direction) (pos : Int) (o : Outcome),
      (Pattern.machine flags subject re.root dir).Gives pos o →
        (Pattern.machine flags.withIgnoreCase subject re.root dir).Gives pos o) ∧
    ∀ subject : Text,
      (∀ start, (re.execAt? subject start).isSome →
        ((re.withFlags flags.withIgnoreCase).execAt? subject start).isSome) ∧
      ∀ m, re.exec? subject = some m →
        ∃ m', (re.withFlags flags.withIgnoreCase).exec? subject = some m' ∧
          m'.whole.start ≤ m.whole.start := by
  have hways (subject : Text) (dir : Direction) : Ways.Compares .containment
      (re.root.ways flags subject dir) (re.root.ways flags.withIgnoreCase subject dir) :=
    Ways.pattern_compares (Pattern.branchWays_withIgnoreCase re.root dir h)
  have hflags : re.flags = flags := flags_of_compile hre
  have hsome (subject : Text) (start : Nat) (hstart : (re.execAt? subject start).isSome) :
      ((re.withFlags flags.withIgnoreCase).execAt? subject start).isSome := by
    obtain ⟨hle, hne⟩ := isSome_execAt?_iff.mp hstart
    obtain ⟨o, ho⟩ := List.exists_mem_of_ne_nil _ hne
    rw [hflags] at ho
    exact isSome_execAt?_iff.mpr ⟨hle, List.ne_nil_of_mem (hways subject .forward start ho)⟩
  refine ⟨?_, fun subject dir pos o ho => ?_, fun subject => ⟨hsome subject, fun m hm => ?_⟩⟩
  · rw [compile_flags text flags, hre]
    rfl
  · rw [(Pattern.machine_enumerates _ subject re.root dir).gives_iff] at ho ⊢
    exact hways subject dir pos ho
  · exact exists_exec?_start_le (hsome subject) hm

/-- `(k)(?=b)` matches the second letter pair of `Kbkb`, and without regard to case a pair that
    begins no later. -/
theorem Regex.withIgnoreCase_adds_of_lookahead : ∃ re m m',
    compile (Text.ofString "(k)(?=b)").toList .none = .ok re ∧
      NothingNegated re.root.subterms ∧
      re.exec? #[0x4b, 0x62, 0x6b, 0x62] = some m ∧ m.whole = ⟨"k", 2, 3⟩ ∧
      (re.withFlags Flags.none.withIgnoreCase).exec? #[0x4b, 0x62, 0x6b, 0x62] = some m' ∧
      m'.whole.start ≤ 2 := by
  have hre : compile (Text.ofString "(k)(?=b)").toList .none =
      .ok ⟨[[.group ⟨some 1, none⟩ [[.char (.literal 0x6b)]],
        .look .forward false [[.char (.literal 0x62)]]]], .none, 1⟩ := by with_unfolding_all rfl
  have hexec : exec? ⟨[[.group ⟨some 1, none⟩ [[.char (.literal 0x6b)]],
      .look .forward false [[.char (.literal 0x62)]]]], .none, 1⟩
      #[0x4b, 0x62, 0x6b, 0x62] = some ⟨⟨"k", 2, 3⟩, [(.number 1, ⟨"k", 2, 3⟩)], 1⟩ := by
    refine exec?_eq_some_iff.mpr ⟨2, by decide, ?_, fun s hs => ?_⟩
    · rw [execAt?_of_le (by decide), matchAt_eq_head?]
      rfl
    · rw [execAt?_of_le (by simp; omega), matchAt_eq_head?]
      have hs : s = 0 ∨ s = 1 := by omega
      rcases hs with rfl | rfl
      · rfl
      · rfl
  obtain ⟨-, -, hsearch⟩ := withIgnoreCase_adds hre (by decide)
  obtain ⟨m', hm', hle⟩ := (hsearch _).2 _ hexec
  exact ⟨_, _, m', hre, by decide, hexec, rfl, hm', hle⟩

/-! ## In multiline mode -/

/-- No code point of the subject ends a line. -/
def Text.SingleLine (subject : Text) : Prop := ∀ cp ∈ subject, cp.isLineTerminator = false

theorem Text.SingleLine.extract (h : subject.SingleLine) (start stop : Nat) :
    Text.SingleLine (Array.extract subject start stop) := by
  intro cp hcp
  obtain ⟨k, hk, rfl⟩ := Array.mem_extract_iff_getElem.mp hcp
  exact h _ (Array.getElem_mem _)

theorem Text.SingleLine.of_at? (h : subject.SingleLine) {pos : Int} {cp : CodePoint}
    (hcp : Text.at? subject pos = some cp) : cp.isLineTerminator = false := by
  obtain ⟨-, hcp⟩ := Option.ite_none_right_eq_some.mp hcp
  exact h cp (Array.mem_of_getElem? hcp)

theorem Anchor.holds_withMultiline (h : subject.SingleLine) (a : Anchor) (g : Int) :
    a.holds flags.withMultiline subject g = a.holds flags subject g := by
  have hany (pos : Int) : (Text.at? subject pos).any CodePoint.isLineTerminator = false := by
    cases hcp : Text.at? subject pos with
    | none => rfl
    | some cp => exact h.of_at? hcp
  cases a <;> simp [holds, hany]

theorem CharExpr.accepts_withMultiline (e : CharExpr) {cp : CodePoint}
    (hcp : cp.isLineTerminator = false) :
    e.accepts flags.withMultiline cp = e.accepts flags cp := by
  cases e with
  | literal expected => rfl
  | any => simp [accepts, hcp]
  | escape e => rfl
  | bracket negated members =>
    have hmember : ClassMember.accepts flags.withMultiline = ClassMember.accepts flags := by
      funext m cp
      cases m <;> rfl
    rw [accepts, accepts, hmember]

theorem Ways.char_withMultiline (h : subject.SingleLine) (e : CharExpr) :
    single (charGoal flags.withMultiline subject dir e) charGoal_ahead =
      single (charGoal flags subject dir e) charGoal_ahead := by
  have hgoal : charGoal flags.withMultiline subject dir e = charGoal flags subject dir e := by
    funext pos
    unfold charGoal
    cases hcp : Text.at? subject pos with
    | none => rfl
    | some cp => rw [Option.any_some, Option.any_some, e.accepts_withMultiline (h.of_at? hcp)]
  simp only [hgoal]

/-- A pattern has the same ways under other flags if its branches have. -/
theorem Pattern.ways_congr {flags' : Flags} {p : Pattern}
    (h : p.branchWays flags' subject dir = p.branchWays flags subject dir) :
    p.ways flags' subject dir = p.ways flags subject dir := by
  rw [ways_eq_choice, ways_eq_choice, h]

mutual

theorem Term.ways_withMultiline (h : subject.SingleLine) : (t : Term) → (dir : Direction) →
    t.ways flags.withMultiline subject dir = t.ways flags subject dir
  | .char e, _ => Ways.char_withMultiline h e
  | .anchor a, dir => Ways.gap_congr fun pos => a.holds_withMultiline h (dir.gap pos)
  | .look look negated body, dir => by
    have hbody := Pattern.ways_congr (Pattern.branchWays_withMultiline h body look)
    exact Ways.gap_congr fun pos => by rw [hbody]
  | .group tag body, dir => by
    rw [Term.ways, Term.ways, Pattern.ways_congr (Pattern.branchWays_withMultiline h body dir)]
  | .repeated atom q, dir => by
    rw [Term.ways, Term.ways, Term.ways_withMultiline h atom dir]
  | .backreference _, _ => rfl
termination_by structural t => t

theorem Branch.termWays_withMultiline (h : subject.SingleLine) : (b : Branch) →
    (dir : Direction) → b.termWays flags.withMultiline subject dir = b.termWays flags subject dir
  | [], _ => rfl
  | t :: b, dir => by
    rw [Branch.termWays, Branch.termWays, Term.ways_withMultiline h t dir,
      Branch.termWays_withMultiline h b dir]
termination_by structural b => b

theorem Pattern.branchWays_withMultiline (h : subject.SingleLine) : (p : Pattern) →
    (dir : Direction) → p.branchWays flags.withMultiline subject dir =
      p.branchWays flags subject dir
  | [], _ => rfl
  | b :: p, dir => by
    rw [Pattern.branchWays, Pattern.branchWays, Branch.termWays_withMultiline h b dir,
      Pattern.branchWays_withMultiline h p dir]
termination_by structural p => p

end

/-- Multiline mode has no effect where no line ends. In it, a text compiles if it does outside of
    it, to the same pattern with the same number of groups, and fails to compile with the same error
    otherwise. On a subject without line terminators, attempts at all start positions and searches
    then find the same matches, with the same groups, and so does the search for all matches. -/
theorem Regex.withMultiline_inert (text : Input) (flags : Flags) :
    compile text flags.withMultiline =
      (compile text flags).map (fun re => re.withFlags flags.withMultiline) ∧
    ∀ re, compile text flags = .ok re → ∀ subject : Text, subject.SingleLine →
      (re.withFlags flags.withMultiline).exec? subject = re.exec? subject ∧
      (∀ start, (re.withFlags flags.withMultiline).execAt? subject start =
        re.execAt? subject start) ∧
      (re.withFlags flags.withMultiline).findAll subject = re.findAll subject := by
  refine ⟨compile_flags text flags _, fun re hre subject hsubject => ?_⟩
  have hflags : re.flags = flags := flags_of_compile hre
  have hexecAt {subject : Text} (h : subject.SingleLine) (start : Nat) :
      (re.withFlags flags.withMultiline).execAt? subject start = re.execAt? subject start := by
    have hways : re.root.ways flags.withMultiline subject .forward =
        re.root.ways flags subject .forward :=
      Pattern.ways_congr (Pattern.branchWays_withMultiline h re.root .forward)
    have hmatch : (re.withFlags flags.withMultiline).matchAt subject start =
        re.matchAt subject start := by
      rw [matchAt_eq_head?, matchAt_eq_head?, hflags]
      exact congrArg (fun w => (w.list start).head?) hways
    unfold execAt?
    rw [hmatch]
    rfl
  have hexec {subject : Text} (h : subject.SingleLine) :
      (re.withFlags flags.withMultiline).exec? subject = re.exec? subject :=
    Option.ext fun m => by simp only [exec?_eq_some_iff, hexecAt h]
  exact ⟨hexec hsubject, hexecAt hsubject, findAll_eq fun r => hexec (hsubject.extract r _)⟩

/-- Outside of multiline mode, a search for `^a|^b` stops at the first start position of `ab`. In
    both modes, the `a` and then the `b` are found. -/
theorem Regex.withMultiline_inert_of_anchored : ∃ re,
    compile (Text.ofString "^a|^b").toList .none = .ok re ∧
      compile (Text.ofString "^a|^b").toList Flags.none.withMultiline =
        .ok (re.withFlags Flags.none.withMultiline) ∧
      re.isAnchored ∧ (re.withFlags Flags.none.withMultiline).isAnchored = false ∧
      Text.SingleLine #[0x61, 0x62] ∧
      (re.withFlags Flags.none.withMultiline).exec? #[0x61, 0x62] = re.exec? #[0x61, 0x62] ∧
      (re.withFlags Flags.none.withMultiline).findAll #[0x61, 0x62] =
        re.findAll #[0x61, 0x62] := by
  have hre : compile (Text.ofString "^a|^b").toList .none =
      .ok ⟨[[.anchor .start, .char (.literal 0x61)], [.anchor .start, .char (.literal 0x62)]],
        .none, 0⟩ := by with_unfolding_all rfl
  have hsubject : Text.SingleLine #[0x61, 0x62] := by
    unfold Text.SingleLine
    decide
  obtain ⟨hcompile, hall⟩ := withMultiline_inert (Text.ofString "^a|^b").toList .none
  obtain ⟨hexec, -, hfind⟩ := hall _ hre _ hsubject
  rw [hre] at hcompile
  exact ⟨_, hre, hcompile, rfl, rfl, hsubject, hexec, hfind⟩

end Retrace
