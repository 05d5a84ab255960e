import Retrace.Match.State

/-!
# Machines

A machine gives the ways in which one part of a pattern matches a subject, one per request. Two
facts belong to it. From any state whatever, ways run out: the relation "the next way leaves the
state" is well founded. And from the fresh state, every way ends where it began or further on in the
scan, that is, with less room left before the subject's end.

Together the two bound every search that a machine is part of, so that the machines of larger parts
can be built by recursion without a limit on the number of steps.

Results:

* `Ahead.trans`: to be further on in the scan is transitive.
-/

namespace Retrace

/-- How many code points a cursor at `pos` can still pass, in a subject of the given length. -/
def Direction.room (dir : Direction) (length : Nat) (pos : Int) : Nat :=
  match dir with
  | forward => (length - pos).toNat
  | backward => (pos + 1).toNat

/-- The cursor `next` is at `pos` or further on in the scan. -/
def Ahead (dir : Direction) (length : Nat) (pos next : Int) : Prop :=
  next = pos ∨ dir.room length next < dir.room length pos

namespace Ahead

variable {dir : Direction} {length : Nat} {a b c : Int}

theorem refl (a : Int) : Ahead dir length a a := .inl rfl

theorem trans (h : Ahead dir length a b) (h' : Ahead dir length b c) : Ahead dir length a c := by
  rcases h with rfl | h
  · exact h'
  · rcases h' with rfl | h'
    · exact .inr h
    · exact .inr (Nat.lt_trans h' h)

theorem room_le (h : Ahead dir length a b) : dir.room length b ≤ dir.room length a := by
  rcases h with rfl | h
  · exact Nat.le_refl _
  · exact Nat.le_of_lt h

end Ahead

/-- A request: the answer at a position, given a state. -/
abbrev Request := Int → State → Reply State

/-- The state `s'` is left by a way that was found from `s`. -/
def Next (request : Request) (pos : Int) (s' s : State) : Prop :=
  ∃ o, request pos s = .found o s'

/-- The states that repeated requests at `pos` lead to from the fresh state. -/
inductive Reached (request : Request) (pos : Int) : State → Prop where
  | fresh : Reached request pos .fresh
  | next {s s' : State} {o : Outcome} (h : Reached request pos s)
      (hs : request pos s = .found o s') : Reached request pos s'

/-- The ways of one part of a pattern, in a subject of the given length. -/
structure Machine (dir : Direction) (length : Nat) where
  /-- The next way of matching at a position. -/
  request : Request
  /-- Ways run out. -/
  ends : ∀ pos, WellFounded (Next request pos)
  /-- Ways lead ahead. -/
  ahead : ∀ {pos s o s'}, Reached request pos s → request pos s = .found o s' →
    Ahead dir length pos o.index

namespace Machine

variable {dir : Direction} {length : Nat}

/-! ## Parts that match in one way -/

/-- The request of a part that matches in at most one way, which `test` finds. -/
def singleRequest (test : Int → Reply Unit) : Request := fun pos s =>
  match s with
  | .fresh =>
    match test pos with
    | .found o _ => .found o .spent
    | .none _ => .none .spent
    | .fault _ => .fault .spent
  | .spent => .none .spent
  | s => .fault s

theorem singleRequest_eq_found {test : Int → Reply Unit} {pos : Int} {s s' : State} {o : Outcome}
    (h : singleRequest test pos s = .found o s') :
    s = .fresh ∧ s' = .spent ∧ test pos = .found o () := by
  unfold singleRequest at h
  split at h
  · split at h
    · cases h
      exact ⟨rfl, rfl, by assumption⟩
    · cases h
    · cases h
  · cases h
  · cases h

/-- A part that matches in at most one way. -/
def single (test : Int → Reply Unit)
    (ahead : ∀ {pos o}, test pos = .found o () → Ahead dir length pos o.index) :
    Machine dir length where
  request := singleRequest test
  ends pos := by
    have spent : Acc (Next (singleRequest test) pos) .spent := by
      refine .intro _ ?_
      rintro s' ⟨o, h⟩
      cases (singleRequest_eq_found h).1
    refine ⟨fun s => .intro _ ?_⟩
    rintro s' ⟨o, h⟩
    obtain ⟨_, rfl, _⟩ := singleRequest_eq_found h
    exact spent
  ahead _ h := ahead (singleRequest_eq_found h).2.2

/-- A part that never matches and leaves every state as it is. -/
def never : Machine dir length where
  request _ s := .none s
  ends _ := ⟨fun _ => .intro _ fun _ ⟨_, h⟩ => nomatch h⟩
  ahead _ h := nomatch h

/-! ## Parts that add to the captures -/

/-- The request of a part whose ways capture more, as `f` says for the way's beginning. -/
def captureRequest (f : Int → Outcome → CaptureMap) (request : Request) : Request := fun pos s =>
  (request pos s).mapOutcome fun o => { o with captures := f pos o }

theorem captureRequest_eq_found {f : Int → Outcome → CaptureMap} {request : Request} {pos : Int}
    {s s' : State} {o : Outcome} (h : captureRequest f request pos s = .found o s') :
    ∃ o', request pos s = .found o' s' ∧ o = { o' with captures := f pos o' } := by
  unfold captureRequest at h
  cases hr : request pos s with
  | found o' s'' =>
    rw [hr] at h
    cases h
    exact ⟨o', rfl, rfl⟩
  | none => rw [hr] at h; cases h
  | fault => rw [hr] at h; cases h

theorem reached_of_captureRequest {f : Int → Outcome → CaptureMap} {request : Request} {pos : Int}
    {s : State} (h : Reached (captureRequest f request) pos s) : Reached request pos s := by
  induction h with
  | fresh => exact .fresh
  | next _ hs ih =>
    obtain ⟨_, hr, _⟩ := captureRequest_eq_found hs
    exact .next ih hr

/-- The part whose ways capture more, as `f` says for the way's beginning. -/
def mapCaptures (f : Int → Outcome → CaptureMap) (m : Machine dir length) :
    Machine dir length where
  request := captureRequest f m.request
  ends pos := by
    refine Subrelation.wf ?_ (m.ends pos)
    rintro s' s ⟨o, h⟩
    obtain ⟨o', hr, _⟩ := captureRequest_eq_found h
    exact ⟨o', hr⟩
  ahead hs h := by
    obtain ⟨o', hr, rfl⟩ := captureRequest_eq_found h
    have := m.ahead (reached_of_captureRequest hs) hr
    exact this

end Machine

end Retrace
