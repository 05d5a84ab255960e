import Retrace.Syntax.Error

/-!
# A cursor in a text

The readers of a pattern pass on the rest of the text. Here the text stays as it is and a cursor
moves through it, which can also be put back. A scanner is written with moves of the cursor alone,
and what it must never do leaves it stuck: to move the cursor out of the text, to go through a loop
once more without having moved the cursor on, or to nest deeper than it may.

Results:

* `Scan.Cursor.before_rest`: a cursor in the text stands for the rest of the text behind it.
* `Scan.Ends.bind`, `Scan.Ends.loop`: how scanners are put together that come to an end without
  getting stuck.
* `Scan.Reads.bind`: the same for scanners that follow a reader.
-/

namespace Retrace

namespace Scan

/-- A place in a text, given by the number of code points before it, and the names of the groups
    opened so far. -/
structure Cursor (text : Input) where
  pos : Nat
  names : List String

namespace Cursor

variable {text : Input}

/-- What stands behind the cursor. -/
def rest (c : Cursor text) : Input := text.drop c.pos

/-- The cursor before a rest of the text. -/
def before (names : List String) (s : Input) : Cursor text := ⟨text.length - s.length, names⟩

theorem rest_suffix (c : Cursor text) : c.rest <:+ text := List.drop_suffix c.pos text

theorem length_rest (c : Cursor text) : c.rest.length = text.length - c.pos := List.length_drop

theorem rest_before {names : List String} {s : Input} (hs : s <:+ text) :
    (before names s : Cursor text).rest = s :=
  (List.suffix_iff_eq_drop.mp hs).symm

theorem before_rest {c : Cursor text} (hc : c.pos ≤ text.length) : before c.names c.rest = c := by
  have hpos : text.length - c.rest.length = c.pos := by
    rw [length_rest]
    omega
  rw [before, hpos]

end Cursor

/-- Why a scanner stops early. -/
inductive Halt where
  | error (e : SyntaxError)
  | stuck

/-- What a turn of a loop comes to: another turn, or the end of the loop. -/
inductive Turn (σ α : Type) where
  | again (x : σ)
  | done (a : α)

end Scan

/-- A scanner of a text. -/
abbrev Scan (text : Input) := EStateM Scan.Halt (Scan.Cursor text)

namespace Scan

open EStateM (Result run_bind run_get)

variable {text : Input} {α β σ : Type}

/-! ## Moves -/

/-- The position of the cursor. -/
def position : Scan text Nat := return (← get).pos

/-- The character at an offset from the cursor. -/
def peekAt? (offset : Nat) : Scan text (Option Char) :=
  return Input.peek? ((← get).rest.drop offset)

/-- The next character. -/
def peek? : Scan text (Option Char) := return (← get).rest.peek?

/-- The next `n` characters, fewer at the end of the text. -/
def peek (n : Nat) : Scan text (List Char) := return (← get).rest.peek n

/-- Moves the cursor over `n` code points. -/
def skip (n : Nat) : Scan text Unit := do
  let c ← get
  if c.pos + n ≤ text.length then set (⟨c.pos + n, c.names⟩ : Cursor text) else throw .stuck

/-- Puts the cursor back to a position. -/
def seek (pos : Nat) : Scan text Unit :=
  if pos ≤ text.length then modify fun c => { c with pos } else throw .stuck

/-- Moves the cursor over the next code point, if there is one. -/
def advance? : Scan text (Option CodePoint) := do
  match (← get).rest.head? with
  | some cp =>
    skip 1
    return some cp
  | none => return none

/-- Moves the cursor over the next code point if it reads as the given character. -/
def eat (ch : Char) : Scan text Bool := do
  if (← peek?) = some ch then
    skip 1
    return true
  else return false

/-- An error at a position. -/
def fail (pos : Nat) (cause : SyntaxCause) : Scan text α := throw (.error ⟨cause, pos⟩)

/-- An error of a scanner as its result. The cursor stays where the scanner left it. -/
def attempt (m : Scan text α) : Scan text (Except SyntaxError α) := fun c =>
  match m.run c with
  | .ok a c' => .ok (.ok a) c'
  | .error (.error e) c' => .ok (.error e) c'
  | .error .stuck c' => .error .stuck c'

/-- Turns of a loop up to the last. Each other one must move the cursor on. -/
def loop (turn : σ → Scan text (Turn σ α)) (x : σ) : Scan text α := fun c =>
  match (turn x).run c with
  | .error h c' => .error h c'
  | .ok (.done a) c' => .ok a c'
  | .ok (.again x') c' =>
    if c.pos < c'.pos ∧ c'.pos ≤ text.length then loop turn x' c' else .error .stuck c'
termination_by c => text.length - c.pos

/-! ## Moves before a rest of the text -/

/-- What follows a scanner that has come to an end. -/
theorem run_bind_ok {m : Scan text α} {k : α → Scan text β} {a : α} {c c' : Cursor text}
    (h : m.run c = .ok a c') : (m >>= k).run c = (k a).run c' := by
  rw [run_bind, h]

section

variable {names : List String} {s : Input}

theorem run_position :
    (position : Scan text Nat).run (.before names s) =
      .ok (text.length - s.length) (.before names s) := rfl

theorem run_seek (s' : Input) :
    (seek (text.length - s.length) : Scan text Unit).run (.before names s') =
      .ok () (.before names s) := by
  rw [seek, if_pos (Nat.sub_le _ _)]
  rfl

variable (hs : s <:+ text)

include hs

theorem run_peekAt? (offset : Nat) : (peekAt? offset : Scan text _).run (.before names s) =
    .ok (Input.peek? (s.drop offset)) (.before names s) := by
  show Result.ok (Input.peek? ((Cursor.before names s : Cursor text).rest.drop offset)) _ = _
  rw [Cursor.rest_before hs]

theorem run_peek? : (peek? : Scan text _).run (.before names s) =
    .ok s.peek? (.before names s) := by
  show Result.ok (Cursor.before names s : Cursor text).rest.peek? _ = _
  rw [Cursor.rest_before hs]

theorem run_peek (n : Nat) : (peek n : Scan text _).run (.before names s) =
    .ok (s.peek n) (.before names s) := by
  show Result.ok ((Cursor.before names s : Cursor text).rest.peek n) _ = _
  rw [Cursor.rest_before hs]

theorem run_skip {n : Nat} (hn : n ≤ s.length) : (skip n : Scan text _).run (.before names s) =
    .ok () (.before names (s.drop n)) := by
  have hlen := hs.length_le
  have hpos : text.length - s.length + n = text.length - (s.drop n).length := by
    rw [List.length_drop]
    omega
  have hle : text.length - (s.drop n).length ≤ text.length := Nat.sub_le _ _
  simp only [skip, run_bind, run_get, Cursor.before, hpos, if_pos hle]
  rfl

omit hs in
theorem run_skip_one {cp : CodePoint} (hs : cp :: s <:+ text) :
    (skip 1 : Scan text _).run (.before names (cp :: s)) = .ok () (.before names s) :=
  run_skip hs (Nat.succ_le_succ (Nat.zero_le _))

theorem run_advance? : (advance? : Scan text _).run (.before names s) =
    .ok s.head? (.before names s.tail) := by
  simp only [advance?, run_bind, run_get, Cursor.rest_before hs]
  cases s with
  | nil => rfl
  | cons cp s =>
    simp only [List.head?_cons, run_bind, run_skip_one hs]
    rfl

theorem run_eat (ch : Char) : (eat ch : Scan text _).run (.before names s) =
    match s.after? ch with
    | some r => .ok true (.before names r)
    | none => .ok false (.before names s) := by
  simp only [eat, run_bind, run_peek? hs]
  cases s with
  | nil => rfl
  | cons cp s =>
    by_cases hch : cp.toChar = ch
    · have hpeek : Input.peek? (cp :: s) = some ch := congrArg some hch
      simp only [if_pos hpeek, run_bind, run_skip_one hs, Input.after?, if_pos hch]
      rfl
    · have hpeek : Input.peek? (cp :: s) ≠ some ch := fun h => hch (Option.some.inj h)
      simp only [if_neg hpeek, Input.after?, if_neg hch]
      rfl

end

/-! ## Coming to an end -/

/-- A scanner that started before `s` has come to an end: the cursor was not moved out of the text
    or back behind its start, and `P` holds of the value, of the names in use and of the rest of the
    text, or `E` of the error and the names. -/
inductive Ends (s : Input) (P : α → List String → Input → Prop) (E : Failure → List String → Prop) :
    Result Halt (Cursor text) α → Prop where
  | ok {a : α} {names : List String} {r : Input} (hr : r <:+ s) (h : P a names r) :
    Ends s P E (.ok a (.before names r))
  | error {f : Failure} {names : List String} {r : Input} (hr : r <:+ s) (h : E f names) :
    Ends s P E (.error (.error (f.inText text)) (.before names r))

variable {s : Input} {P : α → List String → Input → Prop} {Q : β → List String → Input → Prop}
  {E E' : Failure → List String → Prop} {names : List String}

/-- An error at the beginning of a rest of the text. -/
theorem Ends.fail {cause : SyntaxCause} {start r : Input} (hr : r <:+ s)
    (h : E ⟨cause, start⟩ names) :
    Ends s P E
      ((Scan.fail (text.length - start.length) cause : Scan text α).run (.before names r)) :=
  .error (f := ⟨cause, start⟩) hr h

theorem Ends.mono {P' : α → List String → Input → Prop} {x : Result Halt (Cursor text) α}
    (h : Ends s P E x) (hP : ∀ a names r, r <:+ s → P a names r → P' a names r)
    (hE : ∀ f names, E f names → E' f names) : Ends s P' E' x := by
  cases h with
  | ok hr h => exact .ok hr (hP _ _ _ hr h)
  | error hr h => exact .error hr (hE _ _ h)

/-- What ends behind the start of a text ends behind a start before it. -/
theorem Ends.of_suffix {s' : Input} {x : Result Halt (Cursor text) α} (h : Ends s P E x)
    (hs : s <:+ s') : Ends s' P E x := by
  cases h with
  | ok hr h => exact .ok (hr.trans hs) h
  | error hr h => exact .error (hr.trans hs) h

/-- What follows a scanner may put the cursor back, if not behind `s'`. -/
theorem Ends.bind_back {m : Scan text α} {k : α → Scan text β} {s' : Input} (hs : s <:+ s')
    (hm : Ends s P E' (m.run (.before names s)))
    (hk : ∀ a names r, r <:+ s → P a names r → Ends s' Q E ((k a).run (.before names r)))
    (hE : ∀ f names, E' f names → E f names) :
    Ends s' Q E ((m >>= k).run (.before names s)) := by
  rw [run_bind]
  generalize m.run (.before names s) = x at hm
  cases hm with
  | ok hr h => exact hk _ _ _ hr h
  | error hr h => exact .error (hr.trans hs) (hE _ _ h)

theorem Ends.bind {m : Scan text α} {k : α → Scan text β}
    (hm : Ends s P E' (m.run (.before names s)))
    (hk : ∀ a names r, r <:+ s → P a names r → Ends r Q E ((k a).run (.before names r)))
    (hE : ∀ f names, E' f names → E f names) : Ends s Q E ((m >>= k).run (.before names s)) :=
  Ends.bind_back (List.suffix_refl s) hm (fun a names r hr h => (hk a names r hr h).of_suffix hr) hE

/-- An error does not end a scanner that is attempted. -/
theorem Ends.attempt {m : Scan text α} (hm : Ends s P E (m.run (.before names s))) :
    Ends s (fun x names r => match x with
        | .ok a => P a names r
        | .error e => ∃ f : Failure, e = f.inText text ∧ E f names)
      (fun _ _ => False) ((attempt m).run (.before names s)) := by
  show Ends s _ _ (Scan.attempt m (.before names s))
  unfold Scan.attempt
  generalize m.run (.before names s) = x at hm
  cases hm with
  | ok hr h => exact .ok hr h
  | @error f _ _ hr h => exact .ok hr ⟨f, rfl, h⟩

/-- What a turn of a loop before `s` leaves to the turns behind it, if `P` and `E` are to hold at
    the end of the loop. -/
def Turn.Leaves (P : σ → List String → Input → α → List String → Input → Prop)
    (E : σ → List String → Input → Failure → List String → Prop) (x : σ) (names : List String)
    (s : Input) : Turn σ α → List String → Input → Prop
  | .done a, names', r => P x names s a names' r
  | .again x', names', r => Input.Shorter r s ∧
    (∀ a names'' r', r' <:+ r → P x' names' r a names'' r' → P x names s a names'' r') ∧
    ∀ f names'', E x' names' r f names'' → E x names s f names''

/-- A loop comes to an end if each of its turns does and moves the cursor on. -/
theorem Ends.loop {turn : σ → Scan text (Turn σ α)}
    {P : σ → List String → Input → α → List String → Input → Prop}
    {E : σ → List String → Input → Failure → List String → Prop} {start : Input}
    (hstart : start <:+ text)
    (h : ∀ x names s, s <:+ start →
      Ends s (Turn.Leaves P E x names s) (E x names s) ((turn x).run (.before names s)))
    (x : σ) (names : List String) {s : Input} (hs : s <:+ start) :
    Ends s (P x names s) (E x names s) ((loop turn x).run (.before names s)) := by
  -- the turns are counted by what is left of the text
  induction hn : s.length using Nat.strongRecOn generalizing x names s with
  | _ n ih =>
    have hturn := h x names s hs
    show Ends s _ _ (Scan.loop turn x (.before names s))
    rw [Scan.loop]
    generalize (turn x).run (.before names s) = y at hturn
    cases hturn with
    | error hr h => exact .error hr h
    | @ok t names' r hr h =>
      cases t with
      | done a => exact .ok hr h
      | again x' =>
        obtain ⟨hshorter, hP, hE⟩ := h
        have hlen := (hs.trans hstart).length_le
        have hlt := hshorter.2
        have hmoved : text.length - s.length < text.length - r.length := by omega
        have hloop := ih r.length (hn ▸ hlt) x' names' (hr.trans hs) rfl
        simp only [Cursor.before, hmoved, Nat.sub_le, and_self, if_true]
        exact (hloop.mono hP hE).of_suffix hr

/-! ## Following a reader -/

/-- A scanner that started before `s` has done what a reader answers there. -/
def Reads (names : List String) (s : Input) (x : Reading (α × Input)) :
    Result Halt (Cursor text) α → Prop :=
  Ends s (fun a names' r => names' = names ∧ x = .ok (a, r)) fun f names' =>
    names' = names ∧ x = .error f

theorem Reads.ok {a : α} {r : Input} (hr : r <:+ s) :
    Reads names s (.ok (a, r)) (.ok a (.before names r : Cursor text)) :=
  Ends.ok hr ⟨rfl, rfl⟩

theorem Reads.fail {cause : SyntaxCause} {start r : Input} (hr : r <:+ s) :
    Reads names s (.error ⟨cause, start⟩)
      ((Scan.fail (text.length - start.length) cause : Scan text α).run (.before names r)) :=
  Ends.fail hr ⟨rfl, rfl⟩

theorem Reads.bind {m : Scan text α} {k : α → Scan text β} {x : Reading (α × Input)}
    (hm : Reads names s x (m.run (.before names s)))
    (hk : ∀ a r, r <:+ s → x = .ok (a, r) → Ends r Q E ((k a).run (.before names r)))
    (hE : ∀ f, x = .error f → E f names) : Ends s Q E ((m >>= k).run (.before names s)) := by
  refine Ends.bind hm ?_ ?_
  · rintro a names' r hr ⟨rfl, hx⟩
    exact hk a r hr hx
  · rintro f names' ⟨rfl, hx⟩
    exact hE f hx

/-- A scanner follows a changed reading if it changes what it has read in the same way. -/
theorem Reads.map {m : Scan text α} {x : Reading (α × Input)}
    (hm : Reads names s x (m.run (.before names s))) (g : α → β) :
    Reads names s (x.map fun (a, r) => (g a, r)) ((do return g (← m)).run (.before names s)) := by
  refine hm.bind (fun a r _ h => ?_) fun f hf => ⟨rfl, ?_⟩
  · rw [h]
    exact .ok (List.suffix_refl r) ⟨rfl, rfl⟩
  · rw [hf]
    rfl

/-- What is left where something may have been read from `s`: the rest of the input behind it, or
    `s` itself. -/
inductive Optional (s : Input) (x : Reading (Option (α × Input))) : Option α → Input → Prop where
  | none (h : x = .ok none) : Optional s x none s
  | some {a : α} {r : Input} (h : x = .ok (some (a, r))) : Optional s x (some a) r

/-- A scanner that started before `s` has done what a reader answers there, and stands before `s`
    where the reader reads nothing. -/
def ReadsOption (names : List String) (s : Input) (x : Reading (Option (α × Input))) :
    Result Halt (Cursor text) (Option α) → Prop :=
  Ends s (fun a names' r => names' = names ∧ Optional s x a r) fun f names' =>
    names' = names ∧ x = .error f

theorem ReadsOption.stay :
    ReadsOption names s (.ok none : Reading (Option (α × Input)))
      (.ok none (.before names s : Cursor text)) :=
  Ends.ok (List.suffix_refl s) ⟨rfl, .none rfl⟩

theorem ReadsOption.read {a : α} {r : Input} (hr : r <:+ s) :
    ReadsOption names s (.ok (some (a, r))) (.ok (some a) (.before names r : Cursor text)) :=
  Ends.ok hr ⟨rfl, .some rfl⟩

theorem ReadsOption.bind {m : Scan text (Option α)} {k : Option α → Scan text β}
    {x : Reading (Option (α × Input))} (hm : ReadsOption names s x (m.run (.before names s)))
    (hnone : x = .ok none → Ends s Q E ((k none).run (.before names s)))
    (hsome : ∀ a r, r <:+ s → x = .ok (some (a, r)) →
      Ends r Q E ((k (some a)).run (.before names r)))
    (hE : ∀ f, x = .error f → E f names) : Ends s Q E ((m >>= k).run (.before names s)) := by
  refine Ends.bind hm ?_ ?_
  · rintro a names' r hr ⟨rfl, h⟩
    cases h with
    | none h => exact hnone h
    | some h => exact hsome _ _ hr h
  · rintro f names' ⟨rfl, hx⟩
    exact hE f hx

/-- What a reader answers, with the input left as it is where nothing is read. -/
def orStay (s : Input) : Option (α × Input) → Option α × Input
  | none => (none, s)
  | some (a, r) => (some a, r)

theorem Reads.option {x : Reading (Option (α × Input))} {y : Result Halt (Cursor text) (Option α)}
    (h : Reads names s (x.map (orStay s)) y) : ReadsOption names s x y := by
  refine h.mono ?_ ?_
  · rintro a names' r - ⟨rfl, hx⟩
    obtain ⟨o, ho, hoa⟩ := Reading.of_map_eq_ok hx
    cases o with
    | none =>
      cases hoa
      exact ⟨rfl, .none ho⟩
    | some b =>
      cases hoa
      exact ⟨rfl, .some ho⟩
  · rintro f names' ⟨rfl, hf⟩
    cases x with
    | error f' =>
      cases hf
      exact ⟨rfl, rfl⟩
    | ok o => cases hf

/-- What a turn before `s` has done that reads a part of what `Y` reads from there. -/
def TurnReads (Y : σ → Input → Reading (α × Input)) (x : σ) (names : List String) (s : Input) :
    Result Halt (Cursor text) (Turn σ α) → Prop :=
  Ends s (fun t names' r => names' = names ∧ match t with
      | .done a => Y x s = .ok (a, r)
      | .again x' => Input.Shorter r s ∧ Y x s = Y x' r)
    fun f names' => names' = names ∧ Y x s = .error f

section

variable {Y : σ → Input → Reading (α × Input)} {x : σ}

theorem TurnReads.done {a : α} {r : Input} (hr : r <:+ s) (hY : Y x s = .ok (a, r)) :
    TurnReads Y x names s (.ok (.done a) (.before names r : Cursor text)) :=
  Ends.ok hr ⟨rfl, hY⟩

theorem TurnReads.again {x' : σ} {r : Input} (hr : Input.Shorter r s) (hY : Y x s = Y x' r) :
    TurnReads Y x names s (.ok (.again x') (.before names r : Cursor text)) :=
  Ends.ok hr.1 ⟨rfl, hr, hY⟩

theorem TurnReads.fail {cause : SyntaxCause} {start r : Input} (hr : r <:+ s)
    (hY : Y x s = .error ⟨cause, start⟩) :
    TurnReads Y x names s
      ((Scan.fail (text.length - start.length) cause : Scan text (Turn σ α)).run
        (.before names r)) :=
  Ends.fail hr ⟨rfl, hY⟩

/-- A loop reads what its turns read one after another. -/
theorem TurnReads.loop {turn : σ → Scan text (Turn σ α)}
    (h : ∀ x names s, s <:+ text → TurnReads Y x names s ((turn x).run (.before names s)))
    (x : σ) (hs : s <:+ text) : Reads names s (Y x s) ((loop turn x).run (.before names s)) := by
  refine Ends.loop (P := fun x names s a names' r => names' = names ∧ Y x s = .ok (a, r))
    (E := fun x names s f names' => names' = names ∧ Y x s = .error f) (List.suffix_refl text)
    (fun x names s hs => ?_) x names hs
  refine (h x names s hs).mono (fun t names' r _ ht => ?_) fun f names' hf => hf
  obtain ⟨rfl, ht⟩ := ht
  cases t with
  | done a => exact ⟨rfl, ht⟩
  | again x' =>
    obtain ⟨hr, hY⟩ := ht
    exact ⟨hr, fun a names'' r' _ h => ⟨h.1, hY.trans h.2⟩, fun f names'' h => ⟨h.1, hY.trans h.2⟩⟩

end

end Scan

end Retrace
