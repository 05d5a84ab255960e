import Retrace.Proofs.Syntax.Headings
import Retrace.Syntax.Parse

/-!
# Outlines show the whole pattern

The outline of a pattern that was read and numbered shows everything about it, the numbers of groups
included: different patterns have different outlines. A line is told from its text by the blanks in
front and the heading behind them, and lines further in belong to the last line before them that is
less far in.

Results:

* `OutlineLine.render_prefixFree`: where a line ends, and what it is.
* `Pattern.outline_inj`: the lines of a pattern tell the pattern.
* `Pattern.eq_of_outlineText_eq`: equal outlines are those of equal patterns.
-/

namespace Retrace

/-! ## Lines -/

/-- Whether the text of a line is that of a heading. -/
def OutlineLine.HasHeading (line : OutlineLine) : Prop :=
  ∃ heading : Heading, heading.Sound ∧ line.text = heading.text

theorem OutlineLine.render_ne_nil (line : OutlineLine) : line.render ≠ [] := by
  simp [render]

theorem OutlineLine.render_prefixFree : PrefixFree HasHeading render := by
  rintro ⟨depth, text⟩ ⟨depth', text'⟩ ⟨heading, hsound, rfl⟩ ⟨heading', hsound', rfl⟩ r s h
  obtain ⟨c, cs, hc, hne⟩ := heading.exists_text_eq_cons
  obtain ⟨c', cs', hc', hne'⟩ := heading'.exists_text_eq_cons
  have hblank (n : Nat) : ∀ x ∈ List.replicate (2 * n) ' ', (x == ' ') = true := by
    simp
  simp only [render, hc, hc', List.append_assoc, List.cons_append, List.nil_append] at h
  obtain ⟨hdepth, rfl, hrest⟩ := append_cons_inj (hblank depth) (hblank depth')
    (beq_false_of_ne hne) (beq_false_of_ne hne') h
  have htext : heading.text ++ '\n' :: r = heading'.text ++ '\n' :: s := by
    rw [hc, hc', List.cons_append, List.cons_append, hrest]
  obtain ⟨rfl, rfl⟩ := Heading.text_append_inj hsound hsound' htext
  have hlength := congrArg List.length hdepth
  rw [List.length_replicate, List.length_replicate] at hlength
  obtain rfl : depth = depth' := by omega
  exact ⟨rfl, rfl⟩

/-! ## Terms and their lines -/

/-- The heading of a term. -/
def Term.heading : Term → Heading
  | .char e => .char e
  | .anchor a => .anchor a
  | .look dir negated _ => .look dir negated
  | .group tag _ => .group tag
  | .repeated _ q => .repeated q
  | .backreference target => .backreference target

/-- The lines of the terms within a term. -/
def Term.innerOutline (depth : Nat) : Term → List OutlineLine
  | .look _ _ body | .group _ body => Pattern.outline (depth + 1) body
  | .repeated atom _ => Term.outline (depth + 1) atom
  | .char _ | .anchor _ | .backreference _ => []

theorem Term.outline_eq_cons (depth : Nat) (t : Term) :
    t.outline depth = ⟨depth, t.heading.text⟩ :: t.innerOutline depth := by
  cases t <;> rfl

theorem Pattern.outline_eq_cons (depth : Nat) (p : Pattern) :
    p.outline depth = ⟨depth, Heading.pattern.text⟩ :: p.outlineBranches (depth + 1) := by
  cases p <;> rfl

/-- Whether the headings of terms are those of a pattern that was read and numbered. -/
def HeadingsSound (ts : List Term) : Prop := ∀ t ∈ ts, t.heading.Sound

namespace HeadingsSound

variable {t : Term} {ts us : List Term}

theorem of_cons (h : HeadingsSound (t :: ts)) : HeadingsSound ts :=
  fun u hu => h u (List.mem_cons_of_mem t hu)

theorem left (h : HeadingsSound (ts ++ us)) : HeadingsSound ts :=
  fun u hu => h u (List.mem_append_left us hu)

theorem right (h : HeadingsSound (ts ++ us)) : HeadingsSound us :=
  fun u hu => h u (List.mem_append_right ts hu)

end HeadingsSound

mutual

theorem Term.hasHeading_outline : (t : Term) → HeadingsSound t.subterms → (depth : Nat) →
    ∀ line ∈ t.outline depth, line.HasHeading
  | .char e, h, _ =>
    List.forall_mem_singleton.mpr ⟨.char e, h _ List.mem_cons_self, rfl⟩
  | .anchor a, _, _ => List.forall_mem_singleton.mpr ⟨.anchor a, trivial, rfl⟩
  | .backreference target, h, _ =>
    List.forall_mem_singleton.mpr ⟨.backreference target, h _ List.mem_cons_self, rfl⟩
  | .look dir negated body, h, depth =>
    List.forall_mem_cons.mpr ⟨⟨.look dir negated, trivial, rfl⟩,
      Pattern.hasHeading_outline body h.of_cons (depth + 1)⟩
  | .group tag body, h, depth =>
    List.forall_mem_cons.mpr ⟨⟨.group tag, h _ List.mem_cons_self, rfl⟩,
      Pattern.hasHeading_outline body h.of_cons (depth + 1)⟩
  | .repeated atom q, h, depth =>
    List.forall_mem_cons.mpr ⟨⟨.repeated q, trivial, rfl⟩,
      Term.hasHeading_outline atom h.of_cons (depth + 1)⟩
termination_by structural t => t

theorem Branch.hasHeading_outlineTerms : (b : Branch) → HeadingsSound b.subterms →
    (depth : Nat) → ∀ line ∈ b.outlineTerms depth, line.HasHeading
  | [], _, _ => List.forall_mem_nil _
  | t :: b, h, depth =>
    List.forall_mem_append.mpr
      ⟨Term.hasHeading_outline t h.left depth,
        Branch.hasHeading_outlineTerms b h.right depth⟩
termination_by structural b => b

theorem Pattern.hasHeading_outlineBranches : (p : Pattern) → HeadingsSound p.subterms →
    (depth : Nat) → ∀ line ∈ p.outlineBranches depth, line.HasHeading
  | [], _, _ => List.forall_mem_nil _
  | b :: p, h, depth =>
    List.forall_mem_cons.mpr ⟨⟨.branch, trivial, rfl⟩, List.forall_mem_append.mpr
      ⟨Branch.hasHeading_outlineTerms b h.left (depth + 1),
        Pattern.hasHeading_outlineBranches p h.right depth⟩⟩
termination_by structural p => p

theorem Pattern.hasHeading_outline (p : Pattern) (h : HeadingsSound p.subterms) (depth : Nat) :
    ∀ line ∈ p.outline depth, line.HasHeading := by
  cases p with
  | nil => exact List.forall_mem_singleton.mpr ⟨.pattern, trivial, rfl⟩
  | cons b p =>
    refine List.forall_mem_cons.mpr ⟨⟨.pattern, trivial, rfl⟩, List.forall_mem_cons.mpr
      ⟨⟨.branch, trivial, rfl⟩, List.forall_mem_append.mpr ⟨?_, ?_⟩⟩⟩
    · exact Branch.hasHeading_outlineTerms b h.left (depth + 2)
    · exact Pattern.hasHeading_outlineBranches p h.right (depth + 1)
termination_by structural p

end

/-! ## Lines that tell terms -/

/-- Whether lines begin, if there are any, with one that is less far in than `depth`. -/
def Outdented (depth : Nat) (lines : List OutlineLine) : Prop :=
  ∀ line ∈ lines.head?, line.depth < depth

theorem Outdented.mono {depth : Nat} {lines : List OutlineLine} (h : Outdented depth lines) :
    Outdented (depth + 1) lines :=
  fun line hline => Nat.lt_succ_of_lt (h line hline)

theorem Outdented.not_cons {depth : Nat} {text : List Char} {lines : List OutlineLine} :
    ¬Outdented depth (⟨depth, text⟩ :: lines) :=
  fun h => Nat.lt_irrefl depth (h _ rfl)

theorem Outdented.cons (depth : Nat) (text : List Char) (lines : List OutlineLine) :
    Outdented (depth + 1) (⟨depth, text⟩ :: lines) := by
  rintro line ⟨⟩
  exact Nat.lt_succ_self depth

variable {depth : Nat} {r s : List OutlineLine}

theorem Branch.outdented_outlineTerms (b : Branch) (hr : Outdented depth r) :
    Outdented (depth + 1) (b.outlineTerms depth ++ r) := by
  cases b with
  | nil => exact hr.mono
  | cons t b =>
    rw [outlineTerms, t.outline_eq_cons]
    exact .cons _ _ _

theorem Pattern.outdented_outlineBranches (p : Pattern) (hr : Outdented depth r) :
    Outdented (depth + 1) (p.outlineBranches depth ++ r) := by
  cases p with
  | nil => exact hr.mono
  | cons b p => exact .cons _ _ _

theorem Branch.not_outdented (t : Term) (b : Branch) (r : List OutlineLine) :
    ¬Outdented depth (outlineTerms depth (t :: b) ++ r) := by
  rw [outlineTerms, t.outline_eq_cons]
  exact Outdented.not_cons

theorem Pattern.not_outdented (b : Branch) (p : Pattern) (r : List OutlineLine) :
    ¬Outdented depth (outlineBranches depth (b :: p) ++ r) :=
  Outdented.not_cons

theorem Pattern.outlineBranches_eq {p q : Pattern}
    (h : p.outline depth ++ r = q.outline depth ++ s) :
    p.outlineBranches (depth + 1) ++ r = q.outlineBranches (depth + 1) ++ s := by
  rw [p.outline_eq_cons, q.outline_eq_cons] at h
  exact (List.cons.inj h).2

/-- The first line of a term tells its heading, and the others are within it. -/
theorem Term.heading_eq {t u : Term} (ht : HeadingsSound t.subterms) (hu : HeadingsSound u.subterms)
    (h : t.outline depth ++ r = u.outline depth ++ s) :
    t.heading = u.heading ∧ t.innerOutline depth ++ r = u.innerOutline depth ++ s := by
  rw [t.outline_eq_cons, u.outline_eq_cons, List.cons_append, List.cons_append] at h
  obtain ⟨hline, hinner⟩ := List.cons.inj h
  have htext : t.heading.text ++ ['\n'] = u.heading.text ++ ['\n'] :=
    congrArg (· ++ ['\n']) (congrArg OutlineLine.text hline)
  exact ⟨(Heading.text_append_inj (ht t t.mem_subterms_self) (hu u u.mem_subterms_self) htext).1,
    hinner⟩

mutual

/-- Lines that begin with those of a term, where what follows begins no further in than they do, are
    those of no other term. -/
theorem Term.outline_append_inj (t u : Term) (ht : HeadingsSound t.subterms)
    (hu : HeadingsSound u.subterms) {depth : Nat} {r s : List OutlineLine}
    (hr : Outdented (depth + 1) r) (hs : Outdented (depth + 1) s)
    (h : t.outline depth ++ r = u.outline depth ++ s) : t = u ∧ r = s := by
  obtain ⟨hheading, hinner⟩ := Term.heading_eq ht hu h
  cases t with
  | char e | anchor a | backreference target =>
    cases u <;> cases hheading
    exact ⟨rfl, hinner⟩
  | look dir negated body =>
    cases u with
    | look dir' negated' body' =>
      cases hheading
      obtain ⟨rfl, hrest⟩ := Pattern.outlineBranches_append_inj body body' ht.of_cons hu.of_cons
        hr.mono hs.mono (Pattern.outlineBranches_eq hinner)
      exact ⟨rfl, hrest⟩
    | char | anchor | group | repeated | backreference => cases hheading
  | group tag body =>
    cases u with
    | group tag' body' =>
      cases hheading
      obtain ⟨rfl, hrest⟩ := Pattern.outlineBranches_append_inj body body' ht.of_cons hu.of_cons
        hr.mono hs.mono (Pattern.outlineBranches_eq hinner)
      exact ⟨rfl, hrest⟩
    | char | anchor | look | repeated | backreference => cases hheading
  | repeated atom q =>
    cases u with
    | repeated atom' q' =>
      cases hheading
      obtain ⟨rfl, hrest⟩ := Term.outline_append_inj atom atom' ht.of_cons hu.of_cons hr.mono
        hs.mono hinner
      exact ⟨rfl, hrest⟩
    | char | anchor | look | group | backreference => cases hheading
termination_by structural t

theorem Branch.outlineTerms_append_inj (b c : Branch) (hb : HeadingsSound b.subterms)
    (hc : HeadingsSound c.subterms) {depth : Nat} {r s : List OutlineLine} (hr : Outdented depth r)
    (hs : Outdented depth s) (h : b.outlineTerms depth ++ r = c.outlineTerms depth ++ s) :
    b = c ∧ r = s := by
  cases b with
  | nil =>
    cases c with
    | nil => exact ⟨rfl, h⟩
    | cons u c =>
      -- the line behind the first branch would be as far in as the terms of a branch
      rw [show r = _ from h] at hr
      exact absurd hr (Branch.not_outdented u c s)
  | cons t b =>
    cases c with
    | nil =>
      rw [show s = _ from h.symm] at hs
      exact absurd hs (Branch.not_outdented t b r)
    | cons u c =>
      rw [Branch.outlineTerms, Branch.outlineTerms, List.append_assoc, List.append_assoc] at h
      obtain ⟨rfl, hterms⟩ := Term.outline_append_inj t u hb.left hc.left
        (Branch.outdented_outlineTerms b hr) (Branch.outdented_outlineTerms c hs) h
      obtain ⟨rfl, hrest⟩ := Branch.outlineTerms_append_inj b c hb.right hc.right hr hs hterms
      exact ⟨rfl, hrest⟩
termination_by structural b

theorem Pattern.outlineBranches_append_inj (p q : Pattern) (hp : HeadingsSound p.subterms)
    (hq : HeadingsSound q.subterms) {depth : Nat} {r s : List OutlineLine} (hr : Outdented depth r)
    (hs : Outdented depth s) (h : p.outlineBranches depth ++ r = q.outlineBranches depth ++ s) :
    p = q ∧ r = s := by
  cases p with
  | nil =>
    cases q with
    | nil => exact ⟨rfl, h⟩
    | cons c q =>
      rw [show r = _ from h] at hr
      exact absurd hr (Pattern.not_outdented c q s)
  | cons b p =>
    cases q with
    | nil =>
      rw [show s = _ from h.symm] at hs
      exact absurd hs (Pattern.not_outdented b p r)
    | cons c q =>
      rw [Pattern.outlineBranches, Pattern.outlineBranches, List.cons_append, List.cons_append,
        List.append_assoc, List.append_assoc] at h
      obtain ⟨rfl, hbranches⟩ := Branch.outlineTerms_append_inj b c hp.left hq.left
        (Pattern.outdented_outlineBranches p hr) (Pattern.outdented_outlineBranches q hs)
        (List.cons.inj h).2
      obtain ⟨rfl, hrest⟩ := Pattern.outlineBranches_append_inj p q hp.right hq.right hr hs
        hbranches
      exact ⟨rfl, hrest⟩
termination_by structural p

end

/-- Equal outlines are those of equal patterns. -/
theorem Pattern.outline_inj {p q : Pattern} (hp : HeadingsSound p.subterms)
    (hq : HeadingsSound q.subterms) (h : p.outline depth = q.outline depth) : p = q := by
  have hnil : Outdented (depth + 1) [] := by
    rintro line ⟨⟩
  have hlines : p.outline depth ++ [] = q.outline depth ++ [] := congrArg (· ++ []) h
  exact (Pattern.outlineBranches_append_inj p q hp hq hnil hnil (outlineBranches_eq hlines)).1

/-! ## Patterns that were read and numbered -/

theorem GroupTag.unnumbered_unnumbered (tag : GroupTag) :
    tag.unnumbered.unnumbered = tag.unnumbered := by
  obtain ⟨number, name⟩ := tag
  cases number <;> rfl

theorem Term.heading_mapTags_sound (t : Term) :
    (t.mapTags GroupTag.unnumbered).heading.Sound ↔ t.heading.Sound := by
  cases t with
  | group tag body =>
    show tag.unnumbered.unnumbered.Sound ↔ tag.unnumbered.Sound
    rw [tag.unnumbered_unnumbered]
  | _ => exact Iff.rfl

theorem Term.Sound.heading {t : Term} (h : t.Sound) : t.heading.Sound := by
  cases t with
  | char => exact h
  | group tag body =>
    obtain ⟨number, name⟩ := tag
    cases number with
    | none => exact h.1
    | some => exact ⟨rfl, h.1.2⟩
  | backreference => exact h
  | anchor | look | repeated => trivial

theorem Pattern.headingsSound_numbered {text : Input} {p : Pattern} (hp : parse text = .ok p)
    (start : Nat) : HeadingsSound (p.numbered start).1.subterms := by
  intro u hu
  obtain ⟨v, hv, heq⟩ := exists_mem_of_mem_numbered hu
  rw [← u.heading_mapTags_sound, ← heq, v.heading_mapTags_sound]
  exact ((parse_wellFormed hp).sound v hv).heading

/-- Two patterns that were read, and whose groups were then numbered from any numbers, are the same,
    numbers included, if the texts of their outlines are. -/
theorem Pattern.eq_of_outlineText_eq {text text' : Input} {p q : Pattern}
    (hp : parse text = .ok p) (hq : parse text' = .ok q) (start start' : Nat)
    (h : (p.numbered start).1.outlineText = (q.numbered start').1.outlineText) :
    (p.numbered start).1 = (q.numbered start').1 := by
  have hsound := headingsSound_numbered hp start
  have hsound' := headingsSound_numbered hq start'
  have hlines := String.ofList_injective h
  have houtline := OutlineLine.render_prefixFree.flatMap_inj (fun line _ => line.render_ne_nil)
    (hasHeading_outline _ hsound 0) (hasHeading_outline _ hsound' 0) hlines
  exact outline_inj hsound hsound' houtline

/-- The outlines of `(?<x>a{1,}|\n)` and `(?<x>a+|\x0A)`, with groups numbered from seven. -/
theorem Pattern.eq_of_outlineText_eq_of_spellings : ∃ p q : Pattern,
    parse (Text.ofString "(?<x>a\x7b1,\x7d|\\n)").toList = .ok p ∧
    parse (Text.ofString "(?<x>a+|\\x0A)").toList = .ok q ∧
    (p.numbered 7).1.outlineText = (q.numbered 7).1.outlineText ∧
    (p.numbered 7).1 = (q.numbered 7).1 := by
  have hp : parse (Text.ofString "(?<x>a\x7b1,\x7d|\\n)").toList =
      .ok [[.group ⟨some 0, some "x"⟩ [[.repeated (.char (.literal 0x61)) ⟨1, none, false⟩],
        [.char (.literal 0x0A)]]]] := by with_unfolding_all rfl
  have hq : parse (Text.ofString "(?<x>a+|\\x0A)").toList =
      .ok [[.group ⟨some 0, some "x"⟩ [[.repeated (.char (.literal 0x61)) ⟨1, none, false⟩],
        [.char (.literal 0x0A)]]]] := by with_unfolding_all rfl
  exact ⟨_, _, hp, hq, rfl, eq_of_outlineText_eq hp hq 7 7 rfl⟩

end Retrace
