import Retrace.Proofs.Match.Correspondence

/-!
# Shapes of states

A state is plain data, and nothing in it says which part of a pattern it belongs to, which subject
it was used with, or in which direction. So a part can be asked again with a state of its own on
another subject, at another position and in the other direction. What a part relies on is the shape
of its state alone: the state of a choice holds one of the branch it has come to, the state of a
sequence has one slot for each term, the state of a repetition counts its slots. Every request keeps
the shape (`Machine.HasShape`), and no request faults in a state of the right shape.

Results:

* `Part.hasShape`: the machine of a part keeps the shape of the part's states.
* `Part.fits_of_arises`: every state that comes up while a part is asked fits.
* `Part.queries_safe`: whatever a part is asked, and however often, neither it nor a smaller part
  is ever given a state of another kind, misses a slot, or miscounts its repetitions.
-/

namespace Retrace

/-! ## Shapes -/

/-- A condition on the states of one part. -/
abbrev Shape := State → Prop

namespace Shape

/-- The shape of a part that matches in at most one way. -/
def single : Shape
  | .fresh | .spent => True
  | _ => False

/-- The shape of a part that leaves every state as it is. -/
def never : Shape := fun s => s = .fresh

/-- The shape of a choice: the branch it has come to is in a state of its own shape. Behind the last
    branch, a choice holds a fresh state. -/
def choice (shapes : List Shape) : Shape
  | .fresh => True
  | .choice branch inner _ => (shapes[branch]?.getD never) inner
  | _ => False

/-- Slots in the states of terms of the given shapes, one for each term. -/
def Slots : List Shape → List (Slot State) → Prop :=
  List.Forall₂ fun shape slot => shape slot.state

/-- The shape of a sequence: one slot for each term, in a state of the term's shape. -/
def sequence (shapes : List Shape) : Shape
  | .fresh | .sequenceDone => True
  | .sequence slots => Slots shapes slots
  | _ => False

/-- A stack that counts its slots, which are in states of the term's shape. -/
def Stack (shape : Shape) (stack : RepetitionStack State) : Prop :=
  stack.count = stack.slots.length ∧ ∀ slot ∈ stack.slots, shape slot.state

/-- The shape of a repetition. -/
def repetition (shape : Shape) : Shape
  | .fresh | .repetitionDone => True
  | .repetition stack => Stack shape stack
  | _ => False

end Shape

/-- The reply is no fault and leaves a state of the shape. -/
def Reply.Leaves (shape : Shape) : Reply State → Prop
  | found _ s | none s => shape s
  | fault _ => False

theorem Reply.Leaves.next {shape : Shape} {r : Reply State} (h : r.Leaves shape) :
    shape r.next := by
  cases r with
  | found | none => exact h
  | fault => exact h.elim

/-- A walk that does not fault and leaves slots of the given shapes, in the order of the visits. -/
def Walk.Leaves (shapes : List Shape) : Walk → Prop
  | .complete slots => Shape.Slots shapes slots
  | .exhausted => True
  | .fault _ => False

/-- A turn at which the stack counts its slots, and all states are of the shape of the atom. -/
def Turn.Fits (shape : Shape) : Turn → Prop
  | .arrive stack | .extend stack | .leave stack | .back stack => shape.Stack stack
  | .ask s below => shape s ∧ shape.Stack below

/-- A turn or an offer that keeps the stack in shape, or the end of the search. -/
def TurnResult.Leaves (shape : Shape) : TurnResult → Prop
  | .turn next => next.Fits shape
  | .offer stack => shape.Stack stack
  | .done => True
  | .fault _ => False

/-- The fresh state has the shape, and every request in a state of the shape is answered without a
    fault and leaves a state of the shape. -/
structure Machine.HasShape {dir : Direction} {length : Nat} (m : Machine dir length)
    (shape : Shape) : Prop where
  fresh : shape .fresh
  leaves : ∀ {s}, shape s → ∀ pos, (m.request pos s).Leaves shape

namespace Machine

variable {dir : Direction} {length : Nat} {m : Machine dir length} {ms : List (Machine dir length)}
  {shape : Shape} {shapes : List Shape}

/-! ## Parts that match in one way -/

theorem hasShape_single {test : Int → Reply Unit}
    (ahead : ∀ {pos o}, test pos = .found o () → Ahead dir length pos o.index)
    (h : ∀ pos u, test pos ≠ .fault u) : (single test ahead).HasShape .single where
  fresh := trivial
  leaves {s} hs pos := by
    cases s with
    | fresh =>
      change (singleRequest test pos .fresh).Leaves _
      unfold singleRequest
      cases ht : test pos with
      | found | none => trivial
      | fault u => exact absurd ht (h pos u)
    | spent => trivial
    | _ => exact hs.elim

theorem hasShape_never : (never : Machine dir length).HasShape .never where
  fresh := rfl
  leaves hs _ := hs

theorem HasShape.mapCaptures (h : m.HasShape shape) (f : Int → Outcome → CaptureMap) :
    (m.mapCaptures f).HasShape shape where
  fresh := h.fresh
  leaves {s} hs pos := by
    have := h.leaves hs pos
    change (captureRequest f m.request pos s).Leaves shape
    unfold captureRequest
    cases hr : m.request pos s with
    | found | none | fault => rw [hr] at this; exact this

/-! ## Choices -/

/-- The next branch begins in a state of its shape. -/
theorem fresh_of_drop (branch : Nat) (h : List.Forall₂ HasShape ms (shapes.drop branch)) :
    (shapes[branch]?.getD .never) .fresh := by
  cases hd : shapes.drop branch with
  | nil =>
    rw [List.getElem?_eq_none (List.drop_eq_nil_iff.mp hd)]
    rfl
  | cons shape rest =>
    rw [hd] at h
    obtain ⟨m, rest', hm, -, -⟩ := List.forall₂_cons_right_iff.mp h
    have : shapes[branch]? = some shape := by
      rw [← List.head?_drop, hd]
      rfl
    rw [this]
    exact hm.fresh

/-- The branches from one on keep the choice in shape: the induction is on the branches that are
    left, and a branch without ways leaves the next one fresh. -/
theorem leaves_branchRequest {branch : Nat} {inner : State} (pos : Int) (e : Bool)
    (h : List.Forall₂ HasShape ms (shapes.drop branch))
    (hs : (shapes[branch]?.getD .never) inner) :
    (branchRequest pos e ms branch inner).Leaves (.choice shapes) := by
  induction ms generalizing branch inner with
  | nil => exact hs
  | cons m ms ih =>
    obtain ⟨shape, rest, hm, hms, hd⟩ := List.forall₂_cons_left_iff.mp h
    have hshape : shapes[branch]?.getD .never = shape := by
      rw [← List.head?_drop, hd]
      rfl
    have hrest : shapes.drop (branch + 1) = rest := by
      rw [← List.drop_drop, hd]
      rfl
    have := hm.leaves (hshape ▸ hs) pos
    unfold branchRequest
    cases hr : m.request pos inner with
    | found o inner' =>
      rw [hr] at this
      change (shapes[branch]?.getD .never) inner'
      rw [hshape]
      exact this
    | none => exact ih (hrest ▸ hms) (fresh_of_drop _ (hrest ▸ hms))
    | fault => exact (hr ▸ this).elim

theorem hasShape_choice (h : List.Forall₂ HasShape ms shapes) :
    (choice ms).HasShape (.choice shapes) where
  fresh := trivial
  leaves {s} hs pos := by
    have step {branch : Nat} {inner : State} {e : Bool}
        (hs : (shapes[branch]?.getD .never) inner) :
        (choiceFrom ms pos branch inner e).Leaves (.choice shapes) := by
      unfold choiceFrom
      split
      · split <;> exact hs
      · exact leaves_branchRequest pos e (List.forall₂_drop branch h) hs
    cases s with
    | fresh => exact step (fresh_of_drop 0 h)
    | choice => exact step hs
    | _ => exact hs.elim

/-! ## Sequences -/

/-- Asking a term until the later ones can be completed keeps every slot in shape. -/
theorem leaves_seek {rest : Int → Walk} {later : Nat} {pos : Int} {slot : Slot State}
    (h : m.HasShape shape) (hrest : ∀ pos, (rest pos).Leaves shapes) (hs : shape slot.state) :
    (seek m pos rest later slot).Leaves (shape :: shapes) := by
  obtain ⟨s, outcome⟩ := slot
  induction s using (m.ends pos).induction generalizing outcome with
  | _ s ih =>
    have hm := h.leaves hs pos
    unfold seek
    split
    case h_1 => trivial
    case h_2 s' hr => exact (hr ▸ hm).elim
    case h_3 o s' hr =>
      rw [hr] at hm
      have hlater := hrest o.index
      split
      case h_1 => exact ih s' ⟨o, hr⟩ (some o) hm
      case h_2 slots hw =>
        rw [hw] at hlater
        exact .cons hm hlater
      case h_3 slots hw => exact (hw ▸ hlater).elim

theorem leaves_enter (h : List.Forall₂ HasShape ms shapes) (pos : Int) :
    (enter ms pos).Leaves shapes := by
  induction h generalizing pos with
  | nil => exact .nil
  | cons hm _ ih => exact leaves_seek hm ih hm.fresh

theorem leaves_retry {slots : List (Slot State)} (h : List.Forall₂ HasShape ms shapes)
    (hs : Shape.Slots shapes slots) (entry pos : Int) :
    (retry ms entry pos slots).Leaves shapes := by
  induction h generalizing pos slots with
  | nil => trivial
  | @cons m shape ms shapes hm hms ih =>
    obtain ⟨slot, rest, hslot, hrest, rfl⟩ := List.forall₂_cons_left_iff.mp hs
    have hlater := ih hrest (slot.endFrom entry)
    unfold retry
    split
    case h_1 => exact leaves_seek hm (leaves_enter hms) hslot
    case h_2 slots hw =>
      rw [hw] at hlater
      exact .cons hslot hlater
    case h_3 slots hw => exact (hw ▸ hlater).elim

theorem leaves_answer {w : Walk} (h : w.Leaves (dir.arrange shapes)) (pos : Int) :
    (answer dir pos [] w).Leaves (.sequence shapes) := by
  cases w with
  | complete slots =>
    have := dir.forall₂_arrange h
    rw [Direction.arrange_arrange] at this
    change Shape.Slots shapes (dir.arrange slots ++ [])
    rw [List.append_nil]
    exact this
  | exhausted => trivial
  | fault => exact h.elim

/-- A sequence has a slot for each of its terms, so that it retries all of them. -/
theorem hasShape_sequence (h : List.Forall₂ HasShape ms shapes) :
    (sequence ms).HasShape (.sequence shapes) where
  fresh := trivial
  leaves {s} hs pos := by
    have harranged := dir.forall₂_arrange h
    cases s with
    | fresh => exact leaves_answer (leaves_enter harranged pos) pos
    | sequenceDone => trivial
    | sequence slots =>
      have hlen : slots.length = ms.length := by
        rw [h.length_eq, List.Forall₂.length_eq hs]
      change (answer dir pos (slots.drop ms.length)
        (resume (dir.arrange ms) pos (dir.arrange (slots.take ms.length)))).Leaves _
      rw [← hlen, List.drop_length, List.take_length, resume, if_neg (by simp [hlen])]
      exact leaves_answer (leaves_retry harranged (dir.forall₂_arrange hs) pos pos) pos
    | _ => exact hs.elim

/-! ## Repetitions -/

variable {q : Quantifier}

theorem leaves_turn {t : Turn} (h : m.HasShape shape) (ht : t.Fits shape) (pos : Int) :
    (q.turn m.request pos t).Leaves shape := by
  cases t with
  | arrive stack | leave stack =>
    simp only [Quantifier.turn]
    split <;> exact ht
  | extend stack =>
    simp only [Quantifier.turn]
    split
    · exact ⟨h.fresh, ht⟩
    · exact ht
  | ask s below =>
    obtain ⟨hs, hcount, hslots⟩ := ht
    have hm := h.leaves hs (below.endFrom pos)
    simp only [Quantifier.turn]
    cases hr : m.request (below.endFrom pos) s with
    | found o s' =>
      rw [hr] at hm
      dsimp only
      split
      · exact ⟨hm, hcount, hslots⟩
      · exact ⟨congrArg (· + 1) hcount, List.forall_mem_cons.mpr ⟨hm, hslots⟩⟩
    | none => exact ⟨hcount, hslots⟩
    | fault => exact (hr ▸ hm).elim
  | back stack =>
    obtain ⟨count, slots⟩ := stack
    cases slots with
    | nil => trivial
    | cons slot below =>
      obtain ⟨hcount, hslots⟩ := ht
      obtain ⟨hslot, hbelow⟩ := List.forall_mem_cons.mp hslots
      have hcount : count = below.length + 1 := hcount
      exact ⟨hslot, Nat.sub_eq_of_eq_add hcount, hbelow⟩

theorem leaves_walk {t : Turn} (h : m.HasShape shape) (ht : t.Fits shape) (pos : Int) :
    (walk q m pos t).Leaves (.repetition shape) := by
  induction t using (turn_acc q m pos).induction with
  | _ t ih =>
    have hturn := leaves_turn (q := q) h ht pos
    unfold walk
    split
    case h_1 t' hr =>
      rw [hr] at hturn
      exact ih t' (.inl hr) hturn
    case h_2 stack hr =>
      rw [hr] at hturn
      exact hturn
    case h_3 => trivial
    case h_4 stack hr => exact (hr ▸ hturn).elim

theorem fits_resume {stack : RepetitionStack State} (h : shape.Stack stack) :
    (q.resume stack).Fits shape := by
  unfold Quantifier.resume
  split <;> exact h

theorem HasShape.repetition (h : m.HasShape shape) :
    (repetition q m).HasShape (.repetition shape) where
  fresh := trivial
  leaves {s} hs pos := by
    cases s with
    | fresh =>
      exact leaves_walk (t := .arrive .bottom) h ⟨rfl, by simp [RepetitionStack.bottom]⟩ pos
    | repetition stack => exact leaves_walk h (fits_resume hs) pos
    | repetitionDone => trivial
    | _ => exact hs.elim

end Machine

/-! ## The shapes of the parts of a pattern -/

mutual

/-- The shape of a term's states. A group shares the states of its body. -/
def Term.Fits : Term → Shape
  | .char _ | .anchor _ | .look _ _ _ => .single
  | .group _ body => Pattern.Fits body
  | .repeated atom _ => .repetition (Term.Fits atom)
  | .backreference _ => .never
termination_by structural t => t

/-- The shapes of the states of each term of a branch. -/
def Branch.termShapes : Branch → List Shape
  | [] => []
  | t :: ts => Term.Fits t :: Branch.termShapes ts
termination_by structural ts => ts

/-- The shapes of the states of each branch of a pattern. -/
def Pattern.branchShapes : Pattern → List Shape
  | [] => []
  | b :: bs => .sequence (Branch.termShapes b) :: Pattern.branchShapes bs
termination_by structural bs => bs

/-- The shape of a pattern's states. -/
def Pattern.Fits : Pattern → Shape
  | [] => .choice []
  | b :: bs => .choice (.sequence (Branch.termShapes b) :: Pattern.branchShapes bs)
termination_by structural bs => bs

end

/-- The shape of the states of a part. -/
def Part.Fits : Part → Shape
  | term t => t.Fits
  | branch b => .sequence b.termShapes
  | pattern p => p.Fits

theorem Pattern.fits_eq_choice (p : Pattern) : p.Fits = .choice p.branchShapes := by
  cases p <;> rfl

theorem Branch.termShapes_eq_map (b : Branch) : b.termShapes = b.map Term.Fits := by
  induction b with
  | nil => rfl
  | cons t ts ih => rw [termShapes, ih, List.map_cons]

theorem Pattern.branchShapes_eq_map (p : Pattern) :
    p.branchShapes = p.map fun b => Part.Fits (.branch b) := by
  induction p with
  | nil => rfl
  | cons b bs ih => rw [branchShapes, ih, List.map_cons]; rfl

section Parts

variable {flags : Flags} {subject : Text}

theorem charTest_ne_fault {dir : Direction} {e : CharExpr} (pos : Int) (u : Unit) :
    charTest flags subject dir e pos ≠ .fault u := by
  unfold charTest
  split
  · split <;> simp
  · simp

theorem anchorTest_ne_fault {dir : Direction} {a : Anchor} (pos : Int) (u : Unit) :
    anchorTest flags subject dir a pos ≠ .fault u := by
  unfold anchorTest
  split <;> simp

/-- A lookaround asks its body in the fresh state. -/
theorem lookTest_ne_fault {dir look : Direction} {negated : Bool} {shape : Shape}
    {body : Machine look subject.size} (h : body.HasShape shape) (pos : Int) (u : Unit) :
    lookTest dir look negated body.request pos ≠ .fault u := by
  have hbody := h.leaves h.fresh (look.cursor (dir.gap pos))
  unfold lookTest
  split
  · split <;> simp
  · split <;> simp
  · next hr => exact (hr ▸ hbody).elim

variable (flags subject)

mutual

theorem Term.hasShape : (t : Term) → (dir : Direction) →
    (Term.machine flags subject t dir).HasShape t.Fits
  | .char _, _ => Machine.hasShape_single charTest_ahead charTest_ne_fault
  | .anchor _, _ => Machine.hasShape_single anchorTest_ahead anchorTest_ne_fault
  | .look look _ body, _ =>
    Machine.hasShape_single lookTest_ahead (lookTest_ne_fault (Pattern.hasShape body look))
  | .group _ body, dir => (Pattern.hasShape body dir).mapCaptures _
  | .repeated atom _, dir => (Term.hasShape atom dir).repetition
  | .backreference _, _ => Machine.hasShape_never
termination_by structural t => t

theorem Branch.termShapes_hold : (b : Branch) → (dir : Direction) →
    List.Forall₂ Machine.HasShape (Branch.machines flags subject b dir) b.termShapes
  | [], _ => .nil
  | t :: ts, dir => .cons (Term.hasShape t dir) (Branch.termShapes_hold ts dir)
termination_by structural b => b

theorem Pattern.branchShapes_hold : (p : Pattern) → (dir : Direction) →
    List.Forall₂ Machine.HasShape (Pattern.machines flags subject p dir) p.branchShapes
  | [], _ => .nil
  | b :: bs, dir =>
    .cons (Machine.hasShape_sequence (Branch.termShapes_hold b dir))
      (Pattern.branchShapes_hold bs dir)
termination_by structural p => p

theorem Pattern.hasShape : (p : Pattern) → (dir : Direction) →
    (Pattern.machine flags subject p dir).HasShape p.Fits
  | [], _ => Machine.hasShape_choice .nil
  | b :: bs, dir => Machine.hasShape_choice
    (.cons (Machine.hasShape_sequence (Branch.termShapes_hold b dir))
      (Pattern.branchShapes_hold bs dir))
termination_by structural p => p

end

/-- The machine of a part keeps the shape of the part's states, on any subject and in either
    direction. -/
theorem Part.hasShape (part : Part) (dir : Direction) :
    (part.machine flags subject dir).HasShape part.Fits := by
  cases part with
  | term t => exact Term.hasShape flags subject t dir
  | branch b => exact Machine.hasShape_sequence (Branch.termShapes_hold flags subject b dir)
  | pattern p => exact Pattern.hasShape flags subject p dir

end Parts

/-! ## Queries -/

/-- What a part is asked: to match a subject from a cursor on. -/
structure Query where
  flags : Flags
  subject : Text
  dir : Direction
  pos : Int

/-- The reply of a part to a query in the given state. -/
def Part.reply (part : Part) (query : Query) (s : State) : Reply State :=
  (part.machine query.flags query.subject query.dir).request query.pos s

/-- The state of a part after queries made one after another, from the fresh state on. -/
def Part.stateAfter (part : Part) (queries : List Query) : State :=
  queries.foldl (fun s query => (part.reply query s).next) .fresh

theorem Part.leaves_reply {part : Part} {s : State} (h : part.Fits s) (query : Query) :
    (part.reply query s).Leaves part.Fits :=
  (part.hasShape query.flags query.subject query.dir).leaves h query.pos

theorem Part.fits_fresh (part : Part) : part.Fits .fresh :=
  (part.hasShape ⟨false, false⟩ #[] .forward).fresh

/-- After any queries, the state of a part fits. -/
theorem Part.fits_stateAfter (part : Part) (queries : List Query) :
    part.Fits (part.stateAfter queries) := by
  have run (s : State) (hs : part.Fits s) :
      part.Fits (queries.foldl (fun s query => (part.reply query s).next) s) := by
    induction queries generalizing s with
    | nil => exact hs
    | cons query queries ih => exact ih _ (part.leaves_reply hs query).next
  exact run _ part.fits_fresh

/-! ## Smaller parts -/

/-- A part and one of the smaller parts it is made of. -/
inductive Part.Has : Part → Part → Prop where
  | body {tag : GroupTag} {body : Pattern} : Has (.term (.group tag body)) (.pattern body)
  | lookBody {dir : Direction} {negated : Bool} {body : Pattern} :
    Has (.term (.look dir negated body)) (.pattern body)
  | atom {atom : Term} {q : Quantifier} : Has (.term (.repeated atom q)) (.term atom)
  | branch {p : Pattern} {b : Branch} (h : b ∈ p) : Has (.pattern p) (.branch b)
  | term {b : Branch} {t : Term} (h : t ∈ b) : Has (.branch b) (.term t)

/-- A state of a part and the state that it holds for a smaller part. -/
inductive Part.Holds : Part → State → Part → State → Prop where
  | body {tag : GroupTag} {body : Pattern} {s : State} :
    Holds (.term (.group tag body)) s (.pattern body) s
  | atom {atom : Term} {q : Quantifier} {stack : RepetitionStack State} {slot : Slot State}
      (h : slot ∈ stack.slots) :
    Holds (.term (.repeated atom q)) (.repetition stack) (.term atom) slot.state
  | branch {p : Pattern} {i : Nat} {b : Branch} {inner : State} {e : Bool} (h : p[i]? = some b) :
    Holds (.pattern p) (.choice i inner e) (.branch b) inner
  | term {b : Branch} {slots : List (Slot State)} {i : Nat} {t : Term} {slot : Slot State}
      (ht : b[i]? = some t) (hs : slots[i]? = some slot) :
    Holds (.branch b) (.sequence slots) (.term t) slot.state

/-- The states in which `whole` and its smaller parts can be asked during and after queries. A
    smaller part is asked in the fresh state, in the state that the part around it holds for it, or
    in the state that it was left in when it was asked before. -/
inductive Part.Arises (whole : Part) (queries : List Query) : Part → State → Prop where
  | whole : Arises whole queries whole (whole.stateAfter queries)
  | fresh {part part' : Part} {s : State} (h : Arises whole queries part s)
      (hpart : part.Has part') : Arises whole queries part' .fresh
  | held {part part' : Part} {s s' : State} (h : Arises whole queries part s)
      (hs : part.Holds s part' s') : Arises whole queries part' s'
  | left {part : Part} {s : State} (h : Arises whole queries part s) (query : Query) :
    Arises whole queries part (part.reply query s).next

/-- A fitting state holds fitting states. -/
theorem Part.Fits.held {part part' : Part} {s s' : State} (h : part.Fits s)
    (hs : part.Holds s part' s') : part'.Fits s' := by
  cases hs with
  | body => exact h
  | atom hslot => exact h.2 _ hslot
  | @branch p i b _ _ hb =>
    simp only [Part.Fits, Pattern.fits_eq_choice, Shape.choice, Pattern.branchShapes_eq_map,
      List.getElem?_map, hb] at h
    exact h
  | @term b slots i t slot ht hslot =>
    obtain ⟨hi, rfl⟩ := List.getElem?_eq_some_iff.mp ht
    obtain ⟨hi', rfl⟩ := List.getElem?_eq_some_iff.mp hslot
    have h : Shape.Slots b.termShapes slots := h
    rw [Branch.termShapes_eq_map] at h
    have hfits := h.get (by simpa using hi) hi'
    rw [List.get_eq_getElem, List.getElem_map] at hfits
    exact hfits

theorem Part.fits_of_arises {whole part : Part} {queries : List Query} {s : State}
    (h : whole.Arises queries part s) : part.Fits s := by
  induction h with
  | whole => exact whole.fits_stateAfter queries
  | fresh => exact Part.fits_fresh _
  | held _ hs ih => exact ih.held hs
  | left _ query ih => exact (Part.leaves_reply ih query).next

/-! ## Internal errors -/

/-- The repetitions in use at a turn. One that is being asked is on top of the others. -/
def Turn.stack : Turn → RepetitionStack State
  | .arrive stack | .extend stack | .leave stack | .back stack => stack
  | .ask s below => below.push ⟨s, none⟩

/-- In answering a request in the state `s`, the search of a repetition comes to the given turn. -/
inductive Quantifier.Passes (q : Quantifier) (request : Request) (pos : Int) :
    State → Turn → Prop where
  | arrive : Passes q request pos .fresh (.arrive .bottom)
  | resume {stack : RepetitionStack State} :
    Passes q request pos (.repetition stack) (q.resume stack)
  | next {s : State} {t t' : Turn} (h : Passes q request pos s t)
      (ht : q.turn request pos t = .turn t') : Passes q request pos s t'

/-- A state of a part in which no query makes the part run into an internal error. -/
structure Part.Safe (part : Part) (s : State) : Prop where
  /-- The state is of the part's own kind, and so are the states in it that the reply depends on. -/
  answered : ∀ query s', part.reply query s ≠ .fault s'
  /-- A sequence has a slot for each of its terms. -/
  slots : ∀ b slots, part = .branch b → s = .sequence slots → slots.length = b.length
  /-- In the search of a repetition, the count of the stack is always right. It is one less below
      the repetition that is being asked, where the stack is therefore not empty, and it is positive
      where it is made one less. -/
  stack : ∀ atom q, part = .term (.repeated atom q) → ∀ (query : Query) t,
    q.Passes (Term.machine query.flags query.subject atom query.dir).request query.pos s t →
    t.stack.count = t.stack.slots.length ∧
      (∀ inner below, t = .ask inner below → below.count + 1 = t.stack.slots.length) ∧
      ∀ count slot below, t = .back ⟨count, slot :: below⟩ → 0 < count

/-- The search of a repetition in a fitting state comes to turns with fitting stacks only. -/
theorem Quantifier.Passes.fits {flags : Flags} {subject : Text} {atom : Term} {q : Quantifier}
    {dir : Direction} {pos : Int} {s : State} {t : Turn}
    (hs : Part.Fits (.term (.repeated atom q)) s)
    (h : q.Passes (Term.machine flags subject atom dir).request pos s t) : t.Fits atom.Fits := by
  induction h with
  | arrive => exact ⟨rfl, by simp [RepetitionStack.bottom]⟩
  | resume => exact Machine.fits_resume hs
  | next _ ht ih =>
    have := Machine.leaves_turn (q := q) (Term.hasShape flags subject atom dir) (ih hs) pos
    rw [ht] at this
    exact this

theorem Turn.Fits.counted {shape : Shape} {t : Turn} (h : t.Fits shape) :
    t.stack.count = t.stack.slots.length := by
  cases t with
  | ask s below => exact congrArg (· + 1) h.2.1
  | _ => exact h.1

theorem Part.Fits.safe {part : Part} {s : State} (h : part.Fits s) : part.Safe s where
  answered query s' hr := by
    have := part.leaves_reply h query
    rw [hr] at this
    exact this
  slots b slots hb hs := by
    subst hb hs
    have h : Shape.Slots b.termShapes slots := h
    rw [← h.length_eq, Branch.termShapes_eq_map, List.length_map]
  stack atom q hpart query t ht := by
    subst hpart
    have hcounted := (ht.fits h).counted
    refine ⟨hcounted, ?_, ?_⟩
    · rintro inner below rfl
      exact hcounted
    · rintro count slot below rfl
      have hcount : count = below.length + 1 := hcounted
      omega

/-- Whatever a part is asked from the fresh state on, on whatever subjects, and however often,
    neither it nor a smaller part runs into an internal error. -/
theorem Part.queries_safe (whole : Part) (queries : List Query) :
    whole.Safe (whole.stateAfter queries) ∧
      ∀ part s, whole.Arises queries part s → part.Safe s :=
  ⟨(whole.fits_stateAfter queries).safe, fun _ _ h => (Part.fits_of_arises h).safe⟩

/-- While `(a|b)*?` is asked backwards for what it matches in `ab`, the group may be asked again
    with the state that it was left in on `b` going forwards. -/
theorem Part.queries_safe_of_repeated_group :
    Part.Safe (.term (.group ⟨some 0, none⟩ [[.char (.literal 0x61)], [.char (.literal 0x62)]]))
      (Part.reply (.term (.group ⟨some 0, none⟩ [[.char (.literal 0x61)], [.char (.literal 0x62)]]))
        ⟨⟨false, false⟩, #[0x62], .forward, 0⟩ .fresh).next :=
  (Part.queries_safe
    (.term (.repeated
      (.group ⟨some 0, none⟩ [[.char (.literal 0x61)], [.char (.literal 0x62)]]) ⟨0, none, true⟩))
    [⟨⟨false, false⟩, #[0x61, 0x62], .backward, 1⟩]).2 _ _ (.left (.fresh .whole .atom) _)

end Retrace
