import Retrace.Proofs.Syntax.GroupKeys
import Retrace.Proofs.Syntax.Places
import Retrace.Proofs.Syntax.RoundTrip
import Retrace.Proofs.Syntax.Unnumbered

/-!
# Numbers in the order of the text

Capturing groups get consecutive numbers, in the order in which they open in the text of the
pattern, and nothing else about a pattern changes. In a compiled expression they are numbered from
one to the number of groups.

Results:

* `Pattern.numbered_spec`: what numbering does to every pattern, and the numbers of compiled ones.
-/

namespace Retrace

/-- Whether a term is a group that captures. -/
def Term.isCapture (t : Term) : Bool := t.groupNumber?.isSome

/-- How many capturing groups a pattern has, at any depth. -/
def Pattern.captureCount (p : Pattern) : Nat := p.subterms.countP Term.isCapture

/-- Whether of two places the one with the smaller number comes first in the text, if both are those
    of numbered groups. -/
def Place.NumbersAgree (pl pl' : Place) : Prop :=
  ∀ m ∈ pl.term.groupNumber?, ∀ n ∈ pl'.term.groupNumber?,
    (m < n ↔ pl.before.length < pl'.before.length)

/-- Every term stands at its place in the text of the pattern, and of two capturing groups the one
    that opens first has the smaller number. -/
structure Pattern.NumberedByText (p : Pattern) : Prop where
  complete : (p.places []).map Place.term = p.subterms
  shown : ∀ pl ∈ p.places [], pl.before ++ pl.term.print <+: p.print
  agree : ∀ pl ∈ p.places [], ∀ pl' ∈ p.places [], pl.NumbersAgree pl'

theorem Term.isRepeated_of_groupNumber? {t : Term} {n : Nat} (h : n ∈ t.groupNumber?) :
    t.isRepeated = false := by
  cases t <;> first | rfl | cases h

namespace Numbers

variable {ts ts' : List Term} {next later : Nat}

theorem isCapture (h : Numbers ts ts' next later) :
    ts'.map Term.isCapture = ts.map Term.isCapture := by
  have hshapes := congrArg (List.map Prod.snd) h.shapes
  rw [List.map_map, List.map_map] at hshapes
  exact hshapes

theorem later_eq (h : Numbers ts ts' next later) : later = next + ts.countP Term.isCapture := by
  have hlength := congrArg List.length h.numbers
  have hcount := congrArg (List.countP id) h.isCapture
  rw [List.length_filterMap_eq_countP, List.length_range'] at hlength
  rw [List.countP_map, List.countP_map] at hcount
  have hle := h.le
  have : ts'.countP Term.isCapture = ts.countP Term.isCapture := hcount
  have : ts'.countP Term.isCapture = later - next := hlength
  omega

end Numbers

namespace Pattern

theorem numbered_next (p : Pattern) (start : Nat) :
    (p.numbered start).2 = start + p.captureCount :=
  (p.numbered_numbers start).later_eq

theorem numbered_one (p : Pattern) : (p.numbered 1).2 - 1 = p.captureCount := by
  rw [numbered_next, Nat.add_sub_cancel_left]

theorem groupNumbers_numbered (p : Pattern) (start : Nat) :
    (p.numbered start).1.subterms.filterMap Term.groupNumber? =
      List.range' start p.captureCount := by
  have h := (p.numbered_numbers start).numbers
  rwa [numbered_next, Nat.add_sub_cancel_left] at h

theorem captureCount_numbered (p : Pattern) (start : Nat) :
    (p.numbered start).1.captureCount = p.captureCount := by
  have h := numbered_next (p.numbered start).1 start
  rw [numbered_numbered, numbered_next] at h
  omega

/-- If the numbers grow in the order of the terms, they grow with the places in the text. -/
theorem numberedByText {p : Pattern}
    (h : (p.subterms.filterMap Term.groupNumber?).Pairwise (· < ·)) : p.NumberedByText where
  complete := p.map_term_places []
  shown pl hpl := ((p.arranged_places []).stand pl hpl).shown
  agree := by
    rw [← p.map_term_places [], List.filterMap_map, List.pairwise_filterMap] at h
    have hboth : (p.places []).Pairwise fun pl pl' =>
        pl.NumbersAgree pl' ∧ pl'.NumbersAgree pl := by
      refine (h.and (p.arranged_places []).inOrder).imp fun {pl pl'} hlt => ?_
      have hnumber {m n : Nat} (hm : m ∈ pl.term.groupNumber?) (hn : n ∈ pl'.term.groupNumber?) :
          m < n ∧ pl.before.length < pl'.before.length :=
        ⟨hlt.1 m hm n hn, hlt.2.2 (Term.isRepeated_of_groupNumber? hm)⟩
      refine ⟨fun m hm n hn => ?_, fun n hn m hm => ?_⟩
      · have := hnumber hm hn
        omega
      · have := hnumber hm hn
        omega
    have hsymm : Std.Symm fun pl pl' : Place => pl.NumbersAgree pl' ∧ pl'.NumbersAgree pl :=
      ⟨fun _ _ => And.symm⟩
    intro pl hpl pl' hpl'
    rcases eq_or_ne pl pl' with rfl | hne
    · intro m hm n hn
      obtain rfl : m = n := Option.mem_unique hm hn
      omega
    · exact (hboth.forall hpl hpl' hne).1

theorem numberedByText_numbered (p : Pattern) (start : Nat) :
    (p.numbered start).1.NumberedByText := by
  apply numberedByText
  rw [groupNumbers_numbered]
  exact List.pairwise_lt_range'

/-- Numbering a pattern gives its capturing groups consecutive numbers, the first one being `start`,
    in the order in which they open in the text, and returns the number behind the last one. Groups
    that do not capture stay without a number, and everything else, the text included, stays as it
    is. To number the pattern again gives what the last number alone gives. In a compiled expression
    the groups have the numbers from one to the number of groups, in the order of the text. -/
theorem numbered_spec :
    (∀ (p : Pattern) (start : Nat),
      (p.numbered start).2 = start + p.captureCount ∧
      (p.numbered start).1.subterms.filterMap Term.groupNumber? =
        List.range' start p.captureCount ∧
      (p.numbered start).1.subterms.map Term.isCapture = p.subterms.map Term.isCapture ∧
      (p.numbered start).1.unnumbered = p.unnumbered ∧
      (p.numbered start).1.text = p.text ∧
      (p.numbered start).1.NumberedByText ∧
      ∀ start', (p.numbered start).1.numbered start' = p.numbered start') ∧
    ∀ (text : Input) (flags : Flags) (re : Regex), Regex.compile text flags = .ok re →
      re.groupCount = re.root.captureCount ∧
      re.root.subterms.filterMap Term.groupNumber? = List.range' 1 re.groupCount ∧
      re.root.NumberedByText := by
  refine ⟨fun p start => ⟨p.numbered_next start, p.groupNumbers_numbered start,
    (p.numbered_numbers start).isCapture, p.unnumbered_numbered start, ?_,
    p.numberedByText_numbered start, p.numbered_numbered start⟩, fun text flags re h => ?_⟩
  · rw [text, text, print_numbered]
  · obtain ⟨p, -, -, rfl⟩ := Regex.compile_eq_ok_iff.mp h
    dsimp only
    rw [numbered_one, captureCount_numbered]
    exact ⟨rfl, p.groupNumbers_numbered 1, p.numberedByText_numbered 1⟩

/-- The groups of `((?:b)(?<x>c))*(?=(d))`. -/
theorem numbered_spec_of_nested_groups : ∃ re : Regex,
    Regex.compile (Text.ofString "((?:b)(?<x>c))*(?=(d))").toList .none = .ok re ∧
      re.groupCount = 3 ∧ re.root.subterms.filterMap Term.groupNumber? = [1, 2, 3] ∧
      re.root.NumberedByText := by
  obtain ⟨re, hre, hcount⟩ : ∃ re : Regex,
      Regex.compile (Text.ofString "((?:b)(?<x>c))*(?=(d))").toList .none = .ok re ∧
        re.groupCount = 3 := ⟨_, by with_unfolding_all rfl, rfl⟩
  obtain ⟨-, hnumbers, htext⟩ := numbered_spec.2 _ _ re hre
  rw [hcount] at hnumbers
  exact ⟨re, hre, hcount, hnumbers, htext⟩

end Pattern

end Retrace
