import Retrace.Proofs.Syntax.Descent

/-!
# Progress of the scanners

From wherever it is called in a text, each scanner comes to an end with the cursor in the text and
not before its start, whether it fails or not. A term and an atom move the cursor on, and so does
each turn of a loop but the last; what may be missing leaves the cursor where it is if it is
missing.

Results:

* `Scan.Production.ends`, `Scan.Loop.ends`: every scanner comes to an end at every place.
* `Scan.scan_progress`: the scan of a whole text, and all of its scanners from any place in it.
-/

namespace Retrace

namespace Scan

namespace Cursor

variable {text : Input} {c c' : Cursor text}

theorem pos_le_of_suffix (hc : c.pos ≤ text.length) (h : c'.rest <:+ c.rest) : c.pos ≤ c'.pos := by
  have hlen := h.length_le
  rw [length_rest, length_rest] at hlen
  omega

theorem pos_lt_of_shorter (h : Input.Shorter c'.rest c.rest) : c.pos < c'.pos := by
  have hlen := h.2
  rw [length_rest, length_rest] at hlen
  omega

theorem exists_cons_of_pos_lt (hc : c.pos < text.length) : ∃ cp s, c.rest = cp :: s := by
  refine List.ne_nil_iff_exists_cons.mp fun h => ?_
  have hlen := c.length_rest
  rw [h, List.length_nil] at hlen
  omega

/-- Each position in a text is where a rest of it begins. -/
theorem exists_eq_sub_length {n : Nat} (hn : n ≤ text.length) :
    ∃ s : Input, n = text.length - s.length := by
  refine ⟨text.drop n, ?_⟩
  rw [List.length_drop]
  omega

end Cursor

open EStateM (Result)

variable {text : Input} {α σ : Type} {c : Cursor text}

/-! ## What a run does to the cursor -/

/-- A run from `c` comes to an end, with the cursor in the text and not before `c`. -/
def StaysInside (m : Scan text α) (c : Cursor text) : Prop :=
  match m.run c with
  | .ok _ c' => c.pos ≤ c'.pos ∧ c'.pos ≤ text.length
  | .error (.error _) c' => c.pos ≤ c'.pos ∧ c'.pos ≤ text.length
  | .error .stuck _ => False

/-- A run from `c` that succeeds moves the cursor on. -/
def Advances (m : Scan text α) (c : Cursor text) : Prop :=
  ∀ a c', m.run c = .ok a c' → c.pos < c'.pos

/-- A run from `c` that finds nothing leaves the cursor where it is. -/
def Restores (m : Scan text (Option α)) (c : Cursor text) : Prop :=
  ∀ c', m.run c = .ok none c' → c' = c

/-- A turn from `c` comes to an end in the text and moves the cursor on unless it is the last. -/
def TurnAdvances (turn : σ → Scan text (Turn σ α)) (c : Cursor text) : Prop :=
  ∀ x, StaysInside (turn x) c ∧ ∀ x' c', (turn x).run c = .ok (.again x') c' → c.pos < c'.pos

section

variable {P : α → List String → Input → Prop} {E : Failure → List String → Prop} {m : Scan text α}

theorem Ends.staysInside (hc : c.pos ≤ text.length)
    (h : Ends c.rest P E (m.run (.before c.names c.rest))) : StaysInside m c := by
  rw [Cursor.before_rest hc] at h
  have hinside {names : List String} {r : Input} (hr : r <:+ c.rest) :
      c.pos ≤ (Cursor.before names r : Cursor text).pos ∧
        (Cursor.before names r : Cursor text).pos ≤ text.length := by
    refine ⟨Cursor.pos_le_of_suffix hc ?_, Nat.sub_le _ _⟩
    rwa [Cursor.rest_before (hr.trans c.rest_suffix)]
  unfold StaysInside
  generalize m.run c = x at h
  cases h with
  | ok hr _ => exact hinside hr
  | error hr _ => exact hinside hr

/-- What is known of a run that succeeds, said of the cursor behind it. -/
theorem Ends.of_ok {a : α} {c' : Cursor text} (hc : c.pos ≤ text.length)
    (h : Ends c.rest P E (m.run (.before c.names c.rest))) (hrun : m.run c = .ok a c') :
    P a c'.names c'.rest ∧ c'.pos ≤ text.length := by
  rw [Cursor.before_rest hc, hrun] at h
  cases h with
  | ok hr h =>
    rw [Cursor.rest_before (hr.trans c.rest_suffix)]
    exact ⟨h, Nat.sub_le _ _⟩

end

theorem Ends.advances {P : α → List String → Input → Prop} {E : Failure → List String → Prop}
    {m : Scan text α} (hc : c.pos ≤ text.length)
    (h : Ends c.rest P E (m.run (.before c.names c.rest)))
    (hP : ∀ a names r, P a names r → Input.Shorter r c.rest) : Advances m c :=
  fun _ _ hrun => Cursor.pos_lt_of_shorter (hP _ _ _ (h.of_ok hc hrun).1)

theorem Ends.restores {P : Option α → List String → Input → Prop}
    {E : Failure → List String → Prop} {m : Scan text (Option α)} (hc : c.pos ≤ text.length)
    (h : Ends c.rest P E (m.run (.before c.names c.rest)))
    (hP : ∀ names r, P none names r → names = c.names ∧ r = c.rest) : Restores m c := by
  intro c' hrun
  obtain ⟨hnone, hc'⟩ := h.of_ok hc hrun
  obtain ⟨hnames, hrest⟩ := hP _ _ hnone
  rw [← Cursor.before_rest hc', hnames, hrest, Cursor.before_rest hc]

theorem ReadsOption.restores {x : Reading (Option (α × Input))} {m : Scan text (Option α)}
    (hc : c.pos ≤ text.length)
    (h : ReadsOption c.names c.rest x (m.run (.before c.names c.rest))) : Restores m c := by
  refine Ends.restores hc h ?_
  rintro names r ⟨rfl, hr⟩
  cases hr
  exact ⟨rfl, rfl⟩

/-! ## Every place -/

/-- The scanners that are called with the cursor at `c`, where bodies may lie less than `depth` deep
    in each other. A scanner that is given a position has begun there. -/
inductive Production (depth : Nat) (c : Cursor text) : {α : Type} → Scan text α → Prop where
  | number : Production depth c number
  | bracedBounds : Production depth c bracedBounds
  | braceBounds (h : c.pos < text.length) : Production depth c braceBounds
  | braceQuantifierAhead (h : c.pos < text.length) : Production depth c braceQuantifierAhead
  | bounds : Production depth c bounds
  | quantifier : Production depth c quantifier
  | hex (count : Nat) : Production depth c (hex count)
  | bracedHex {start : Nat} (hstart : start ≤ text.length) (h : c.pos < text.length) :
    Production depth c (bracedHex start)
  | charEscape {start : Nat} (hstart : start ≤ text.length) : Production depth c (charEscape start)
  | groupName : Production depth c groupName
  | property {start : Nat} (negated : Bool) (hstart : start ≤ text.length) :
    Production depth c (property start negated)
  | classEscape {start : Nat} (hstart : start ≤ text.length) :
    Production depth c (classEscape start)
  | termEscape (h : c.pos < text.length) : Production depth c termEscape
  | bracketAtom : Production depth c bracketAtom
  | bracketMember : Production depth c bracketMember
  | bracketClass (h : c.pos < text.length) : Production depth c bracketClass
  | captureName : Production depth c captureName
  | groupTag : Production depth c groupTag
  | group (h : c.rest.peek? = some '(') : Production depth c (group (pattern depth))
  | assertion : Production depth c (assertion (pattern depth))
  | atom : Production depth c (atom (pattern depth))
  | term : Production depth c (term (pattern depth))
  | branch : Production depth c (branch (pattern depth))
  | pattern : Production depth c (pattern (depth + 1))

/-- The turns of the loops of the scanners. -/
inductive Loop (depth : Nat) : {σ α : Type} → (σ → Scan text (Turn σ α)) → Prop where
  | number {start : Nat} (hstart : start ≤ text.length) : Loop depth (numberTurn start)
  | bracedHex {start : Nat} (hstart : start ≤ text.length) : Loop depth (bracedHexTurn start)
  | groupName {start : Nat} (hstart : start ≤ text.length) : Loop depth (nameTurn start)
  | property {start : Nat} (hstart : start ≤ text.length) : Loop depth (propertyTurn start)
  | bracketClass {start : Nat} (hstart : start ≤ text.length) : Loop depth (bracketTurn start)
  | branch : Loop depth (branchTurn (pattern depth))
  | pattern : Loop depth (patternTurn (pattern depth))

/-- Whatever is left to another turn is less than what was left to this one. -/
def Turn.MovesOn (s : Input) : Turn σ α → List String → Input → Prop
  | .done _, _, _ => True
  | .again _, _, r => Input.Shorter r s

theorem Production.ends {depth : Nat} {m : Scan text α} (h : Production depth c m)
    (hdepth : text.length - c.pos ≤ depth) :
    ∃ P E, Ends c.rest P E (m.run (.before c.names c.rest)) := by
  have hs := c.rest_suffix
  have hn : c.rest.length ≤ depth := c.length_rest ▸ hdepth
  have hbody : ReadsBodies depth (Scan.pattern depth : Scan text Pattern) := pattern_reads depth
  cases h with
  | number => exact ⟨_, _, number_reads hs⟩
  | bracedBounds => exact ⟨_, _, bracedBounds_ends hs⟩
  | braceBounds h =>
    obtain ⟨cp, s, hcons⟩ := Cursor.exists_cons_of_pos_lt h
    rw [hcons] at hs ⊢
    exact ⟨_, _, braceBounds_reads hs⟩
  | braceQuantifierAhead h =>
    obtain ⟨cp, s, hcons⟩ := Cursor.exists_cons_of_pos_lt h
    rw [hcons] at hs ⊢
    rw [braceQuantifierAhead_eq hs]
    exact ⟨fun _ _ _ => True, fun _ _ => False, .ok (List.suffix_refl _) trivial⟩
  | bounds => exact ⟨_, _, bounds_reads hs⟩
  | quantifier => exact ⟨_, _, quantifier_reads hs⟩
  | hex count => exact ⟨_, _, hex_reads hs count⟩
  | bracedHex hstart h =>
    obtain ⟨start, rfl⟩ := Cursor.exists_eq_sub_length hstart
    obtain ⟨cp, s, hcons⟩ := Cursor.exists_cons_of_pos_lt h
    rw [hcons] at hs ⊢
    exact ⟨_, _, bracedHex_reads start hs⟩
  | charEscape hstart =>
    obtain ⟨start, rfl⟩ := Cursor.exists_eq_sub_length hstart
    exact ⟨_, _, charEscape_reads start hs⟩
  | groupName => exact ⟨_, _, groupName_reads hs⟩
  | property negated hstart =>
    obtain ⟨start, rfl⟩ := Cursor.exists_eq_sub_length hstart
    exact ⟨_, _, property_reads start negated hs⟩
  | classEscape hstart =>
    obtain ⟨start, rfl⟩ := Cursor.exists_eq_sub_length hstart
    exact ⟨_, _, classEscape_reads start hs⟩
  | termEscape h =>
    obtain ⟨cp, s, hcons⟩ := Cursor.exists_cons_of_pos_lt h
    rw [hcons] at hs ⊢
    exact ⟨_, _, termEscape_reads hs⟩
  | bracketAtom => exact ⟨_, _, bracketAtom_reads hs⟩
  | bracketMember => exact ⟨_, _, bracketMember_reads hs⟩
  | bracketClass h =>
    obtain ⟨cp, s, hcons⟩ := Cursor.exists_cons_of_pos_lt h
    rw [hcons] at hs ⊢
    exact ⟨_, _, bracketClass_reads hs⟩
  | captureName => exact ⟨_, _, captureName_ends hs⟩
  | groupTag => exact ⟨_, _, groupTag_ends hs⟩
  | group h =>
    generalize c.rest = s at h hs hn
    cases s with
    | nil => cases h
    | cons cp s =>
      have hcp : cp.toChar = '(' := Option.some.inj h
      refine ⟨_, _, group_ends hbody hs hn ?_⟩
      simp only [Input.atomElement, hcp]
  | assertion => exact ⟨_, _, assertion_ends hbody hs hn⟩
  | atom => exact ⟨_, _, atom_ends hbody hs hn⟩
  | term => exact ⟨_, _, term_ends hbody hs hn⟩
  | branch => exact ⟨_, _, branch_ends hbody hs hn⟩
  | pattern => exact ⟨_, _, patternOver_ends hbody hs hn⟩

theorem TurnReads.movesOn {Y : σ → Input → Reading (α × Input)} {x : σ} {names : List String}
    {s : Input} {y : Result Halt (Cursor text) (Turn σ α)} (h : TurnReads Y x names s y) :
    ∃ E, Ends s (Turn.MovesOn s) E y := by
  refine ⟨_, Ends.mono h (fun t names' r _ ht => ?_) fun f _ hf => hf⟩
  cases t with
  | done a => trivial
  | again x' => exact ht.2.1

theorem Turn.Leaves.movesOn {P : σ → List String → Input → α → List String → Input → Prop}
    {E : σ → List String → Input → Failure → List String → Prop} {x : σ}
    {names names' : List String} {s r : Input} {t : Turn σ α}
    (h : Turn.Leaves P E x names s t names' r) : Turn.MovesOn s t names' r := by
  cases t with
  | done a => trivial
  | again x' => exact h.1

theorem Loop.ends {depth : Nat} {turn : σ → Scan text (Turn σ α)} (h : Loop depth turn)
    (hdepth : text.length - c.pos ≤ depth) (x : σ) :
    ∃ E, Ends c.rest (Turn.MovesOn c.rest) E ((turn x).run (.before c.names c.rest)) := by
  have hs := c.rest_suffix
  have hn : c.rest.length ≤ depth := c.length_rest ▸ hdepth
  have hbody : ReadsBodies depth (Scan.pattern depth : Scan text Pattern) := pattern_reads depth
  cases h with
  | number hstart =>
    obtain ⟨start, rfl⟩ := Cursor.exists_eq_sub_length hstart
    exact (numberTurn_reads start x hs).movesOn
  | bracedHex hstart =>
    obtain ⟨start, rfl⟩ := Cursor.exists_eq_sub_length hstart
    exact (bracedHexTurn_reads start x hs).movesOn
  | groupName hstart =>
    obtain ⟨start, rfl⟩ := Cursor.exists_eq_sub_length hstart
    exact (nameTurn_reads start x hs).movesOn
  | property hstart =>
    obtain ⟨start, rfl⟩ := Cursor.exists_eq_sub_length hstart
    exact (propertyTurn_reads start x hs).movesOn
  | bracketClass hstart =>
    obtain ⟨start, rfl⟩ := Cursor.exists_eq_sub_length hstart
    exact (bracketTurn_reads start x hs).movesOn
  | branch =>
    exact ⟨_, (branchTurn_ends hbody x hs hn).mono (fun _ _ _ _ ht => ht.movesOn) fun _ _ hf => hf⟩
  | pattern =>
    exact ⟨_, (patternTurn_ends hbody x hs hn).mono (fun _ _ _ _ ht => ht.movesOn) fun _ _ hf => hf⟩

/-! ## Progress -/

/-- What the scanners do from `c`, where bodies may lie less than `depth` deep in each other. -/
structure Progress (depth : Nat) (c : Cursor text) : Prop where
  inside : ∀ {α : Type} {m : Scan text α}, Production depth c m → StaysInside m c
  atom_advances : Advances (atom (pattern depth)) c
  term_advances : Advances (term (pattern depth)) c
  assertion_restores : Restores (assertion (pattern depth)) c
  quantifier_restores : Restores quantifier c
  braceBounds_restores : c.pos < text.length → Restores braceBounds c
  hex_restores : ∀ count, Restores (hex count) c
  ahead_restores : c.pos < text.length →
    braceQuantifierAhead.run c = .ok (Input.quantifierAhead c.rest.tail) c
  turns_advance : ∀ {σ α : Type} {turn : σ → Scan text (Turn σ α)}, Loop depth turn →
    TurnAdvances turn c

theorem progress {depth : Nat} (hc : c.pos ≤ text.length) (hdepth : text.length - c.pos ≤ depth) :
    Progress depth c where
  inside h := by
    obtain ⟨P, E, hends⟩ := h.ends hdepth
    exact hends.staysInside hc
  atom_advances :=
    Ends.advances hc (atom_ends (pattern_reads depth) c.rest_suffix (c.length_rest ▸ hdepth))
      fun _ _ _ h => h.shorter
  term_advances :=
    Ends.advances hc (term_ends (pattern_reads depth) c.rest_suffix (c.length_rest ▸ hdepth))
      fun _ _ _ h => h.1
  assertion_restores := by
    have hn : c.rest.length ≤ depth := c.length_rest ▸ hdepth
    refine Ends.restores hc (assertion_ends (pattern_reads depth) c.rest_suffix hn) ?_
    rintro names r h
    cases h
    exact ⟨rfl, rfl⟩
  quantifier_restores := (quantifier_reads c.rest_suffix).restores hc
  braceBounds_restores h := by
    have hs := c.rest_suffix
    obtain ⟨cp, s, hcons⟩ := Cursor.exists_cons_of_pos_lt h
    rw [hcons] at hs
    have hreads := @braceBounds_reads text c.names s cp hs
    rw [← hcons] at hreads
    exact hreads.restores hc
  hex_restores count := (hex_reads c.rest_suffix count).restores hc
  ahead_restores h := by
    have hs := c.rest_suffix
    obtain ⟨cp, s, hcons⟩ := Cursor.exists_cons_of_pos_lt h
    rw [hcons] at hs
    have hrun := @braceQuantifierAhead_eq text c.names s cp hs
    rw [← hcons, Cursor.before_rest hc] at hrun
    rw [hrun, hcons, List.tail_cons]
  turns_advance h x := by
    obtain ⟨E, hends⟩ := h.ends hdepth x
    refine ⟨hends.staysInside hc, fun x' c' hrun => ?_⟩
    exact Cursor.pos_lt_of_shorter (hends.of_ok hc hrun).1

/-- The scan of a whole text comes to an end, with what parsing the text answers. If there is no
    error, the whole text has been read. -/
def ParseProgress (text : Input) : Prop :=
  match (parse : Scan text Pattern).run ⟨0, []⟩ with
  | .ok p c => Pattern.parse text = .ok p ∧ c.pos = text.length
  | .error (.error e) c => Pattern.parse text = .error e ∧ c.pos ≤ text.length
  | .error .stuck _ => False

theorem parseProgress (text : Input) : ParseProgress text := by
  have hstart : (Cursor.before [] text : Cursor text) = ⟨0, []⟩ := by
    rw [Cursor.before, Nat.sub_self]
  have hends := parse_ends text
  rw [hstart] at hends
  unfold ParseProgress
  generalize (parse : Scan text Pattern).run ⟨0, []⟩ = x at hends
  cases hends with
  | ok _ h =>
    obtain ⟨hparse, rfl⟩ := h
    exact ⟨hparse, Nat.sub_zero _⟩
  | error _ h => exact ⟨h, Nat.sub_le _ _⟩

/-- Scanning always makes progress and puts the cursor back. The scan of a text comes to an end, and
    it has read the whole text if it succeeds. From any cursor in the text, no scanner gets stuck or
    leaves the text, each turn of a loop and each term and atom moves the cursor on, and what is not
    there leaves it in place, as looking for a quantifier does in any case. What is left of the text
    bounds how deep bodies have to be able to lie in each other, as it does in the scan of the whole
    text. -/
theorem scan_progress {text : Input} {c : Cursor text} {depth : Nat} (hc : c.pos ≤ text.length)
    (hdepth : text.length - c.pos ≤ depth) : ParseProgress text ∧ Progress depth c :=
  ⟨parseProgress text, progress hc hdepth⟩

/-- Before the brace of `a{4294967296}`, where the number cannot be read, the scanners make
    progress, and looking for a quantifier leaves the cursor in place. -/
theorem scan_progress_of_large_number : ∃ (text : Input) (c : Cursor text) (f : Failure),
    text = Input.ofChars ['a', '{', '4', '2', '9', '4', '9', '6', '7', '2', '9', '6', '}'] ∧
    c = ⟨1, []⟩ ∧ c.pos ≤ text.length ∧ text.length - c.pos ≤ 12 ∧
    Input.braceBounds? c.rest.tail = .error f ∧ braceQuantifierAhead.run c = .ok true c ∧
    ParseProgress text ∧ Progress 12 c := by
  let text := Input.ofChars ['a', '{', '4', '2', '9', '4', '9', '6', '7', '2', '9', '6', '}']
  let c : Cursor text := ⟨1, []⟩
  have hscan : ParseProgress text ∧ Progress 12 c := scan_progress (by decide) (by decide)
  exact ⟨text, c, ⟨.numberTooLarge, c.rest.tail⟩, rfl, rfl, by decide, by decide, by rfl,
    hscan.2.ahead_restores (by decide), hscan⟩

end Scan

end Retrace
