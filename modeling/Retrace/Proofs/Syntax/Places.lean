import Retrace.Proofs.Syntax.Subterms
import Retrace.Syntax.Print

/-!
# Places of terms in the text

Every term of a pattern, at any depth, has a place in the text of the pattern, where its own text
stands. Listing each term before the terms within it lists the places from left to right: what
comes later begins later. Only a repeated term begins where the term that it repeats does.

Results:

* `Pattern.map_term_places`: the terms that have a place are all terms of the pattern.
* `Pattern.arranged_places`: every term stands at its place, and the places are in order.
-/

namespace Retrace

/-- A term of a pattern, and the text in front of it. -/
structure Place where
  before : List Char
  term : Term

mutual

/-- The places of the terms of a term with the given text in front of it. -/
def Term.places (before : List Char) : Term → List Place
  | .look dir negated body => ⟨before, .look dir negated body⟩ ::
    Pattern.places (before ++ dir.printOpening negated) body
  | .group tag body => ⟨before, .group tag body⟩ ::
    Pattern.places (before ++ tag.printOpening) body
  | .repeated atom q => ⟨before, .repeated atom q⟩ :: Term.places before atom
  | .char e => [⟨before, .char e⟩]
  | .anchor a => [⟨before, .anchor a⟩]
  | .backreference target => [⟨before, .backreference target⟩]
termination_by structural t => t

/-- The places of the terms of a branch with the given text in front of it. -/
def Branch.places (before : List Char) : Branch → List Place
  | [] => []
  | t :: ts => Term.places before t ++ Branch.places (before ++ t.print) ts
termination_by structural ts => ts

/-- The places of the terms of branches, each behind a bar. -/
def Pattern.placesBarred (before : List Char) : Pattern → List Place
  | [] => []
  | b :: bs => Branch.places (before ++ ['|']) b ++
    Pattern.placesBarred (before ++ '|' :: Branch.print b) bs
termination_by structural bs => bs

/-- The places of the terms of a pattern with the given text in front of it. -/
def Pattern.places (before : List Char) : Pattern → List Place
  | [] => []
  | b :: bs => Branch.places before b ++ Pattern.placesBarred (before ++ Branch.print b) bs
termination_by structural bs => bs

end

/-! ## Which terms have a place -/

mutual

theorem Term.map_term_places : (t : Term) → (before : List Char) →
    (t.places before).map Place.term = t.subterms
  | .char _, _ | .anchor _, _ | .backreference _, _ => rfl
  | .look dir negated body, before => by
    rw [Term.places, Term.subterms, List.map_cons, Pattern.map_term_places body]
  | .group tag body, before => by
    rw [Term.places, Term.subterms, List.map_cons, Pattern.map_term_places body]
  | .repeated atom q, before => by
    rw [Term.places, Term.subterms, List.map_cons, Term.map_term_places atom]
termination_by structural t => t

theorem Branch.map_term_places : (b : Branch) → (before : List Char) →
    (b.places before).map Place.term = b.subterms
  | [], _ => rfl
  | t :: b, before => by
    rw [Branch.places, Branch.subterms, List.map_append, Term.map_term_places t,
      Branch.map_term_places b]
termination_by structural b => b

theorem Pattern.map_term_placesBarred : (p : Pattern) → (before : List Char) →
    (p.placesBarred before).map Place.term = p.subterms
  | [], _ => rfl
  | b :: p, before => by
    rw [Pattern.placesBarred, Pattern.subterms, List.map_append, Branch.map_term_places b,
      Pattern.map_term_placesBarred p]
termination_by structural p => p

/-- The terms that have a place are all terms of the pattern, each before the terms within it. -/
theorem Pattern.map_term_places : (p : Pattern) → (before : List Char) →
    (p.places before).map Place.term = p.subterms
  | [], _ => rfl
  | b :: p, before => by
    rw [Pattern.places, Pattern.subterms, List.map_append, Branch.map_term_places b,
      Pattern.map_term_placesBarred p]
termination_by structural p => p

end

/-! ## Where the terms stand -/

theorem CodePoint.print_ne_nil (special : Char → Bool) (cp : CodePoint) :
    cp.print special ≠ [] := by
  unfold print
  split
  case h_7 =>
    split
    · exact List.cons_ne_nil _ _
    · split <;> exact List.cons_ne_nil _ _
  all_goals exact List.cons_ne_nil _ _

theorem GroupTag.printOpening_ne_nil (tag : GroupTag) : tag.printOpening ≠ [] := by
  unfold printOpening
  split <;> exact List.cons_ne_nil _ _

theorem Direction.printOpening_ne_nil (dir : Direction) (negated : Bool) :
    dir.printOpening negated ≠ [] := by
  cases dir <;> exact List.cons_ne_nil _ _

/-- Every term has a text. -/
theorem Term.print_ne_nil : (t : Term) → t.print ≠ []
  | .char (.literal cp) => cp.print_ne_nil _
  | .char .any | .char (.escape _) | .char (.bracket ..) => List.cons_ne_nil _ _
  | .anchor a => by cases a <;> exact List.cons_ne_nil _ _
  | .look dir negated _ => by
    rw [print, List.append_assoc]
    exact List.append_ne_nil_of_left_ne_nil (dir.printOpening_ne_nil negated) _
  | .group tag _ => by
    rw [print, List.append_assoc]
    exact List.append_ne_nil_of_left_ne_nil tag.printOpening_ne_nil _
  | .repeated atom _ => List.append_ne_nil_of_left_ne_nil atom.print_ne_nil _
  | .backreference target => by cases target <;> exact List.cons_ne_nil _ _
termination_by structural t => t

/-- The place is in the given text, which stands behind `before`, and its term is shown there. -/
structure Place.StandsIn (before text : List Char) (pl : Place) : Prop where
  behind : before <+: pl.before
  shown : pl.before ++ pl.term.print <+: before ++ text

/-- The second place is further on in the text than the first one, or may be the same, if there a
    term is repeated. -/
def Place.Precedes (pl pl' : Place) : Prop :=
  pl.before.length ≤ pl'.before.length ∧
    (pl.term.isRepeated = false → pl.before.length < pl'.before.length)

/-- Places of terms in a text, which stands behind `before`, from left to right. -/
structure Arranged (before text : List Char) (places : List Place) : Prop where
  stand : ∀ pl ∈ places, pl.StandsIn before text
  inOrder : places.Pairwise Place.Precedes

namespace Arranged

variable {before text text' : List Char} {places places' : List Place}

theorem nil (before text : List Char) : Arranged before text [] :=
  ⟨by simp, .nil⟩

/-- What is arranged in the middle of a text is arranged in the text. -/
theorem surround (h : Arranged (before ++ text) text' places) (text'' : List Char) :
    Arranged before (text ++ text' ++ text'') places where
  stand pl hpl := by
    obtain ⟨hbehind, hshown⟩ := h.stand pl hpl
    refine ⟨(List.prefix_append before text).trans hbehind, hshown.trans ?_⟩
    exact ⟨text'', by simp⟩
  inOrder := h.inOrder

/-- Places in one text, followed by places in the text behind it. -/
theorem append (h : Arranged before text places)
    (h' : Arranged (before ++ text) text' places') :
    Arranged before (text ++ text') (places ++ places') where
  stand pl hpl := by
    rcases List.mem_append.mp hpl with hpl | hpl
    · obtain ⟨hbehind, hshown⟩ := h.stand pl hpl
      exact ⟨hbehind, hshown.trans ⟨text', by simp⟩⟩
    · have := (h'.surround []).stand pl hpl
      rwa [List.append_nil] at this
  inOrder := by
    refine List.pairwise_append.mpr ⟨h.inOrder, h'.inOrder, fun pl hpl pl' hpl' => ?_⟩
    have hshown := (h.stand pl hpl).shown.length_le
    have hbehind := (h'.stand pl' hpl').behind.length_le
    have hpos := List.length_pos_iff.mpr pl.term.print_ne_nil
    rw [List.length_append] at hshown
    exact ⟨by omega, fun _ => by omega⟩

/-- A term, followed by places within it. -/
theorem cons {t : Term} {opening closing : List Char}
    (h : Arranged (before ++ opening) text places)
    (hopening : t.isRepeated = false → opening ≠ [])
    (hprint : t.print = opening ++ text ++ closing) :
    Arranged before t.print (⟨before, t⟩ :: places) where
  stand pl hpl := by
    rcases List.mem_cons.mp hpl with rfl | hpl
    · exact ⟨List.prefix_rfl, List.prefix_rfl⟩
    · rw [hprint]
      exact (h.surround closing).stand pl hpl
  inOrder := by
    refine List.pairwise_cons.mpr ⟨fun pl hpl => ?_, h.inOrder⟩
    have hbehind := (h.stand pl hpl).behind.length_le
    rw [List.length_append] at hbehind
    refine ⟨Nat.le_trans (Nat.le_add_right _ _) hbehind, fun ht => ?_⟩
    have hpos := List.length_pos_iff.mpr (hopening ht)
    exact Nat.lt_of_lt_of_le (Nat.lt_add_of_pos_right hpos) hbehind

/-- A term without terms within it. -/
theorem singleton (before : List Char) (t : Term) : Arranged before t.print [⟨before, t⟩] where
  stand pl hpl := by
    rw [List.mem_singleton.mp hpl]
    exact ⟨List.prefix_rfl, List.prefix_rfl⟩
  inOrder := List.pairwise_singleton _ _

end Arranged

mutual

theorem Term.arranged_places : (t : Term) → (before : List Char) →
    Arranged before t.print (t.places before)
  | .char e, before => .singleton before (.char e)
  | .anchor a, before => .singleton before (.anchor a)
  | .backreference target, before => .singleton before (.backreference target)
  | .look dir negated body, before =>
    (Pattern.arranged_places body _).cons (fun _ => dir.printOpening_ne_nil negated) rfl
  | .group tag body, before =>
    (Pattern.arranged_places body _).cons (fun _ => tag.printOpening_ne_nil) rfl
  | .repeated atom q, before => by
    have hatom : Arranged (before ++ []) atom.print (atom.places before) := by
      rw [List.append_nil]
      exact Term.arranged_places atom before
    exact hatom.cons (fun h => nomatch h) rfl
termination_by structural t => t

theorem Branch.arranged_places : (b : Branch) → (before : List Char) →
    Arranged before b.print (b.places before)
  | [], before => .nil before []
  | t :: b, before =>
    (Term.arranged_places t before).append (Branch.arranged_places b (before ++ t.print))
termination_by structural b => b

theorem Pattern.arranged_placesBarred : (p : Pattern) → (before : List Char) →
    Arranged before p.printBarred (p.placesBarred before)
  | [], before => .nil before []
  | b :: p, before => by
    have hb := (Branch.arranged_places b (before ++ ['|'])).surround []
    rw [List.append_nil] at hb
    exact hb.append (Pattern.arranged_placesBarred p (before ++ '|' :: b.print))
termination_by structural p => p

/-- Every term stands at its place, and the places are in order. -/
theorem Pattern.arranged_places : (p : Pattern) → (before : List Char) →
    Arranged before p.print (p.places before)
  | [], before => .nil before []
  | b :: p, before =>
    (Branch.arranged_places b before).append
      (Pattern.arranged_placesBarred p (before ++ b.print))
termination_by structural p => p

end

end Retrace
