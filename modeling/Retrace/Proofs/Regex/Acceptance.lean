import Retrace.Proofs.Match.Backreferences
import Retrace.Proofs.Regex.Numbering
import Retrace.Regex.Search

/-!
# What compiles

A text compiles if and only if it is read as a pattern without backreferences, whatever the flags.
If it is not read at all, compiling reports the error of reading it, and otherwise the backreference
that comes first in the text of the pattern. So a search never comes across a backreference.

Results:

* `Regex.compile_spec`: what compiling gives for every text, and what an attempt depends on.
-/

namespace Retrace

namespace Pattern

variable {p : Pattern} {target : GroupKey}

theorem mem_backreferences : target ∈ p.backreferences ↔ .backreference target ∈ p.subterms := by
  refine List.mem_filterMap.trans ⟨?_, fun h => ⟨_, h, rfl⟩⟩
  rintro ⟨u, hu, h⟩
  cases u with
  | backreference =>
    cases h
    exact hu
  | _ => cases h

theorem backreferences_eq_nil_iff :
    p.backreferences = [] ↔ ∀ target, .backreference target ∉ p.subterms := by
  simp only [List.eq_nil_iff_forall_not_mem, mem_backreferences]

theorem backreference_mem_numbered (next : Nat) (h : .backreference target ∈
    (p.numbered next).1.subterms) : .backreference target ∈ p.subterms := by
  obtain ⟨u, hu, heq⟩ := exists_mem_of_mem_numbered h
  cases u with
  | backreference =>
    cases heq
    exact hu
  | _ => cases heq

/-- A backreference to `target` stands behind the text `before`, and every other backreference of
    the pattern stands further on in the text. -/
structure FirstBackreference (p : Pattern) (before : List Char) (target : GroupKey) : Prop where
  complete : (p.places []).map Place.term = p.subterms
  mem : ⟨before, .backreference target⟩ ∈ p.places []
  shown : before ++ target.print <+: p.print
  first : ∀ pl ∈ p.places [], ∀ target', pl.term = .backreference target' →
    pl = ⟨before, .backreference target⟩ ∨ before.length < pl.before.length

/-- The first backreference of a pattern in the order of its terms is the first one in its text. -/
theorem firstBackreference {targets : List GroupKey} (h : p.backreferences = target :: targets) :
    ∃ before, p.FirstBackreference before target := by
  have hplaces := p.arranged_places []
  rw [backreferences, ← p.map_term_places [], List.filterMap_map,
    List.filterMap_eq_cons_iff] at h
  obtain ⟨earlier, ⟨before, t⟩, later, hsplit, hnone, hsome, -⟩ := h
  obtain rfl : t = .backreference target := by
    cases t with
    | backreference =>
      cases hsome
      rfl
    | _ => cases hsome
  have hmem : ⟨before, .backreference target⟩ ∈ p.places [] := by simp [hsplit]
  have hshown := (hplaces.stand _ hmem).shown
  have horder := hplaces.inOrder
  rw [hsplit, List.pairwise_append, List.pairwise_cons] at horder
  refine ⟨before, p.map_term_places [], hmem, hshown, fun pl hpl target' ht => ?_⟩
  rw [hsplit] at hpl
  rcases List.mem_append.mp hpl with hpl | hpl
  · have := hnone pl hpl
    simp [ht] at this
  · rcases List.mem_cons.mp hpl with rfl | hpl
    · exact .inl rfl
    · exact .inr ((horder.2.1.1 pl hpl).2 rfl)

end Pattern

namespace Regex

variable {text : Input}

theorem compile_of_error {e : SyntaxError} (h : Pattern.parse text = .error e) (flags : Flags) :
    compile text flags = .error (.invalid e) := by
  rw [compile, h]

theorem compile_of_backreference {p : Pattern} (h : Pattern.parse text = .ok p)
    (hb : ∃ target, .backreference target ∈ p.subterms) :
    ∃ before target, p.FirstBackreference before target ∧
      ∀ flags, compile text flags = .error (.unsupportedBackreference target) := by
  cases hrefs : p.backreferences with
  | nil =>
    obtain ⟨target, ht⟩ := hb
    exact absurd ht (Pattern.backreferences_eq_nil_iff.mp hrefs target)
  | cons target targets =>
    obtain ⟨before, hfirst⟩ := Pattern.firstBackreference hrefs
    refine ⟨before, target, hfirst, fun flags => ?_⟩
    simp only [compile, h, hrefs]

theorem compile_of_no_backreference {p : Pattern} (h : Pattern.parse text = .ok p)
    (hb : ∀ target, .backreference target ∉ p.subterms) (flags : Flags) :
    compile text flags = .ok ⟨(p.numbered 1).1, flags, p.captureCount⟩ := by
  refine compile_eq_ok_iff.mpr ⟨p, h, Pattern.backreferences_eq_nil_iff.mpr hb, ?_⟩
  rw [p.numbered_one]

theorem not_backreference_mem_root {flags : Flags} {re : Regex} (h : compile text flags = .ok re)
    (target : GroupKey) : .backreference target ∉ re.root.subterms := by
  obtain ⟨p, -, hb, rfl⟩ := compile_eq_ok_iff.mp h
  exact fun hmem =>
    Pattern.backreferences_eq_nil_iff.mp hb target (Pattern.backreference_mem_numbered 1 hmem)

/-- A text that is not read does not compile, for the same reason, under any flags. A text that is
    read as a pattern with backreferences, at any depth, does not compile either, and the error
    names the one that comes first in the text of the pattern. Any other text compiles, under all
    flags, to its pattern numbered from one, with the number of its capturing groups. So the pattern
    of a compiled expression has no backreferences, and its ways in a subject would be the same
    whatever a backreference were to match. -/
theorem compile_spec (text : Input) :
    (∀ e, Pattern.parse text = .error e → ∀ flags, compile text flags = .error (.invalid e)) ∧
    (∀ p, Pattern.parse text = .ok p → (∃ target, .backreference target ∈ p.subterms) →
      ∃ before target, p.FirstBackreference before target ∧
        ∀ flags, compile text flags = .error (.unsupportedBackreference target)) ∧
    (∀ p, Pattern.parse text = .ok p → (∀ target, .backreference target ∉ p.subterms) →
      ∀ flags, compile text flags = .ok ⟨(p.numbered 1).1, flags, p.captureCount⟩) ∧
    ∀ flags re, compile text flags = .ok re →
      (∀ target, .backreference target ∉ re.root.subterms) ∧
      ∀ (subject : Text) (refer : GroupKey → (dir : Direction) → Machine dir subject.size),
        re.root.machineWith re.flags subject refer .forward = re.machine subject := by
  refine ⟨fun e => compile_of_error, fun p => compile_of_backreference,
    fun p => compile_of_no_backreference, fun flags re h => ?_⟩
  have hnone := not_backreference_mem_root h
  refine ⟨hnone, fun subject refer => ?_⟩
  exact Pattern.machineWith_eq re.root (fun target ht => absurd ht (hnone target)) .forward

/-- The text `(\1` is not read; of the backreferences in `(?<x>a)(?=\k<x>)\1`, the one within the
    lookahead comes first; and `(a)+` compiles. -/
theorem compile_spec_of_lookahead :
    (∃ e, Pattern.parse (Text.ofString "(\\1").toList = .error e ∧
      ∀ flags, compile (Text.ofString "(\\1").toList flags = .error (.invalid e)) ∧
    (∃ p before, Pattern.parse (Text.ofString "(?<x>a)(?=\\k<x>)\\1").toList = .ok p ∧
      p.FirstBackreference before (.name "x") ∧
      ∀ flags, compile (Text.ofString "(?<x>a)(?=\\k<x>)\\1").toList flags =
        .error (.unsupportedBackreference (.name "x"))) ∧
    ∀ flags, compile (Text.ofString "(a)+").toList flags =
      .ok ⟨[[.repeated (.group ⟨some 1, none⟩ [[.char (.literal 0x61)]]) ⟨1, none, false⟩]],
        flags, 1⟩ := by
  obtain ⟨e, he⟩ : ∃ e, Pattern.parse (Text.ofString "(\\1").toList = .error e :=
    ⟨_, by with_unfolding_all rfl⟩
  refine ⟨⟨e, he, (compile_spec _).1 e he⟩, ?_, ?_⟩
  · have hp : Pattern.parse (Text.ofString "(?<x>a)(?=\\k<x>)\\1").toList =
        .ok [[.group ⟨some 0, some "x"⟩ [[.char (.literal 0x61)]],
          .look .forward false [[.backreference (.name "x")]], .backreference (.number 1)]] := by
      with_unfolding_all rfl
    have hmem : ∃ target, .backreference target ∈ Pattern.subterms
        [[.group ⟨some 0, some "x"⟩ [[.char (.literal 0x61)]],
          .look .forward false [[.backreference (.name "x")]], .backreference (.number 1)]] :=
      ⟨.number 1, by simp [Pattern.subterms, Branch.subterms, Term.subterms]⟩
    obtain ⟨before, target, hfirst, hcompile⟩ := (compile_spec _).2.1 _ hp hmem
    have hx : compile (Text.ofString "(?<x>a)(?=\\k<x>)\\1").toList .none =
        .error (.unsupportedBackreference (.name "x")) := by with_unfolding_all rfl
    obtain rfl : target = .name "x" := by simpa [hcompile] using hx
    exact ⟨_, before, hp, hfirst, hcompile⟩
  · have hp : Pattern.parse (Text.ofString "(a)+").toList =
        .ok [[.repeated (.group ⟨some 0, none⟩ [[.char (.literal 0x61)]]) ⟨1, none, false⟩]] := by
      with_unfolding_all rfl
    refine (compile_spec _).2.2.1 _ hp fun target hmem => ?_
    simp [Pattern.subterms, Branch.subterms, Term.subterms] at hmem

end Regex

end Retrace
