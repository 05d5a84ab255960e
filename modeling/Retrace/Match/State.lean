import Retrace.Match.Captures

/-!
# Ways of matching, one at a time

A part of a pattern can match at a position in several ways. The ways are asked for one after
another: each request is given the state that the last one left, and answers with the next way, or
that there is none left. A state is plain data. It records how far the part has got, with one slot
for each smaller part in use, and nothing ties it to the part that made it; a part that is given the
state of another kind of part answers with a fault.
-/

namespace Retrace

/-- One way of matching: the cursor after it and what its groups have captured. -/
structure Outcome where
  index : Int
  captures : CaptureMap
deriving DecidableEq

namespace Outcome

/-- The way that ends at `pos` and captures nothing. -/
def bare (pos : Int) : Outcome := ⟨pos, .empty⟩

end Outcome

/-- The record of a smaller part in use: its state and the way it matched last. -/
structure Slot (σ : Type) where
  state : σ
  outcome : Option Outcome

/-- The repetitions in use: how many there are, and a slot for each, the last one first. -/
structure RepetitionStack (σ : Type) where
  count : Nat
  slots : List (Slot σ)

/-- How far a part of a pattern has got. -/
inductive State where
  /-- Nothing has been asked yet. -/
  | fresh
  /-- A part that can match in one way only has been asked. -/
  | spent
  /-- A choice has come to the branch with the given number, which is in the state `inner`. Where
      there is no branch to choose, `matchedEmpty` says that the empty way has been given. -/
  | choice (branch : Nat) (inner : State) (matchedEmpty : Bool)
  /-- A sequence holds one slot per term, in the order of the terms. -/
  | sequence (slots : List (Slot State))
  /-- A sequence has no way left. -/
  | sequenceDone
  /-- A repetition holds one slot per repetition of its term. -/
  | repetition (stack : RepetitionStack State)
  /-- A repetition has no way left. -/
  | repetitionDone

/-- The answer to a request, with the state that is left. -/
inductive Reply (σ : Type) where
  /-- The next way of matching. -/
  | found (outcome : Outcome) (next : σ)
  /-- There is no way left. -/
  | none (next : σ)
  /-- The state belongs to a part of another kind. -/
  | fault (next : σ)

namespace Reply

/-- The state that is left. -/
def next {σ : Type} : Reply σ → σ
  | found _ s | none s | fault s => s

/-- The reply with its outcome changed. -/
def mapOutcome {σ : Type} (f : Outcome → Outcome) : Reply σ → Reply σ
  | found o s => found (f o) s
  | none s => none s
  | fault s => fault s

end Reply

namespace Slot

/-- The slot of a part that has not been asked yet. -/
def unvisited : Slot State := ⟨.fresh, none⟩

/-- Where the part has got to, or `pos` if it has not matched. -/
def endFrom {σ : Type} (slot : Slot σ) (pos : Int) : Int :=
  match slot.outcome with
  | some o => o.index
  | none => pos

/-- The captures of the part's last way. -/
def captures {σ : Type} (slot : Slot σ) : CaptureMap :=
  match slot.outcome with
  | some o => o.captures
  | none => .empty

end Slot

end Retrace
