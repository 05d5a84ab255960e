import Retrace.Match.Machine

/-!
# Choices

A choice tries its branches in order. It gives every way of one branch before it turns to the next,
which begins afresh. A choice without branches matches the empty string, once.
-/

namespace Retrace

namespace Machine

variable {dir : Direction} {length : Nat}

/-- The next way of the branches `ms`, of which the first has the number `branch` and is in the
    state `inner`. -/
def branchRequest (pos : Int) (matchedEmpty : Bool) :
    List (Machine dir length) → Nat → State → Reply State
  | [], branch, inner => .none (.choice branch inner matchedEmpty)
  | m :: ms, branch, inner =>
    match m.request pos inner with
    | .found o inner => .found o (.choice branch inner matchedEmpty)
    | .none _ => branchRequest pos matchedEmpty ms (branch + 1) .fresh
    | .fault inner => .fault (.choice branch inner matchedEmpty)

/-- The next way of a choice that has come to the branch with the given number. -/
def choiceFrom (ms : List (Machine dir length)) (pos : Int) (branch : Nat) (inner : State)
    (matchedEmpty : Bool) : Reply State :=
  if ms.isEmpty then
    if matchedEmpty then .none (.choice branch inner true)
    else .found (.bare pos) (.choice branch inner true)
  else branchRequest pos matchedEmpty (ms.drop branch) branch inner

/-- The request of a choice. -/
def choiceRequest (ms : List (Machine dir length)) : Request := fun pos s =>
  match s with
  | .fresh => choiceFrom ms pos 0 .fresh false
  | .choice branch inner matchedEmpty => choiceFrom ms pos branch inner matchedEmpty
  | s => .fault s

/-! ## Ways run out -/

/-- A way of the branches is a way of one of them: of the first from its own state, or of a later
    one, all of whose ways before were found from the fresh state. -/
theorem branchRequest_eq_found {pos : Int} {e : Bool} {ms : List (Machine dir length)}
    {branch : Nat} {inner s' : State} {o : Outcome}
    (h : branchRequest pos e ms branch inner = .found o s') :
    (∃ m rest inner', ms = m :: rest ∧ m.request pos inner = .found o inner' ∧
      s' = .choice branch inner' e) ∨
    (∃ k m rest inner', ms.drop (k + 1) = m :: rest ∧ m.request pos .fresh = .found o inner' ∧
      s' = .choice (branch + k + 1) inner' e) := by
  induction ms generalizing branch inner with
  | nil => cases h
  | cons m ms ih =>
    unfold branchRequest at h
    split at h
    case h_1 o' inner' hm =>
      cases h
      exact .inl ⟨m, ms, inner', rfl, hm, rfl⟩
    case h_3 => cases h
    case h_2 =>
      right
      rcases ih h with ⟨m', rest, inner', hms, hm, rfl⟩ | ⟨k, m', rest, inner', hms, hm, rfl⟩
      · exact ⟨0, m', rest, inner', by simpa using hms, hm, rfl⟩
      · exact ⟨k + 1, m', rest, inner', by simpa using hms, hm,
          by rw [show branch + 1 + k + 1 = branch + (k + 1) + 1 by omega]⟩

/-- The state of a choice without branches, once matched, has no next way. -/
theorem acc_choice_nil (pos : Int) (branch : Nat) (inner : State) (e : Bool) :
    Acc (Next (choiceRequest ([] : List (Machine dir length))) pos) (.choice branch inner e) := by
  have matched : Acc (Next (choiceRequest ([] : List (Machine dir length))) pos)
      (.choice branch inner true) := .intro _ fun _ ⟨_, h⟩ => by
    simp [choiceRequest, choiceFrom] at h
  cases e with
  | true => exact matched
  | false =>
    refine .intro _ ?_
    rintro s' ⟨o, h⟩
    simp only [choiceRequest, choiceFrom, List.isEmpty_nil, if_true, Bool.false_eq_true, if_false,
      Reply.found.injEq] at h
    exact h.2 ▸ matched

/-- Ways run out from any branch on, since each branch's do and later branches come in order. -/
theorem acc_choice_cons {ms : List (Machine dir length)} (hms : ms ≠ []) (pos : Int) (e : Bool)
    (left : Nat) (branch : Nat) (hleft : ms.length ≤ branch + left) (inner : State) :
    Acc (Next (choiceRequest ms) pos) (.choice branch inner e) := by
  have request (branch : Nat) (inner : State) : choiceRequest ms pos (.choice branch inner e) =
      branchRequest pos e (ms.drop branch) branch inner := by
    simp [choiceRequest, choiceFrom, hms]
  induction left generalizing branch inner with
  | zero =>
    refine .intro _ ?_
    rintro s' ⟨o, h⟩
    rw [request, List.drop_eq_nil_of_le (by omega)] at h
    cases h
  | succ left ih =>
    cases hdrop : ms.drop branch with
    | nil =>
      refine .intro _ ?_
      rintro s' ⟨o, h⟩
      rw [request, hdrop] at h
      cases h
    | cons m rest =>
      induction inner using (m.ends pos).induction with
      | _ inner ihi =>
        refine .intro _ ?_
        rintro s' ⟨o, h⟩
        rw [request] at h
        rcases branchRequest_eq_found h with
          ⟨m', rest', inner', hd, hm, rfl⟩ | ⟨k, m', rest', inner', hd, hm, rfl⟩
        · rw [hdrop] at hd
          cases hd
          exact ihi _ ⟨_, hm⟩
        · exact ih (branch + k + 1) (by omega) inner'

theorem choice_ends (ms : List (Machine dir length)) (pos : Int) :
    WellFounded (Next (choiceRequest ms) pos) := by
  have acc (branch : Nat) (inner : State) (e : Bool) :
      Acc (Next (choiceRequest ms) pos) (.choice branch inner e) := by
    by_cases hms : ms = []
    · subst hms
      exact acc_choice_nil pos branch inner e
    · exact acc_choice_cons hms pos e ms.length branch (by omega) inner
  refine ⟨fun s => .intro _ ?_⟩
  rintro s' ⟨o, h⟩
  have step {branch : Nat} {inner : State} {e : Bool}
      (h : choiceFrom ms pos branch inner e = .found o s') :
      Acc (Next (choiceRequest ms) pos) s' :=
    (acc branch inner e).inv ⟨o, h⟩
  cases s with
  | fresh => exact step h
  | choice => exact step h
  | _ => cases h

/-! ## Ways lead ahead -/

/-- In a state of a choice that requests have led to, the branch at hand is in a state that requests
    have led to. -/
theorem inner_reached {ms : List (Machine dir length)} {pos : Int} {s : State}
    (h : Reached (choiceRequest ms) pos s) :
    s = .fresh ∨ ∃ branch inner e, s = .choice branch inner e ∧
      ∀ m ∈ (ms.drop branch).head?, Reached m.request pos inner := by
  have step {branch : Nat} {inner s' : State} {e : Bool} {o : Outcome}
      (hi : ∀ m ∈ (ms.drop branch).head?, Reached m.request pos inner)
      (h : choiceFrom ms pos branch inner e = .found o s') :
      ∃ branch inner e, s' = .choice branch inner e ∧
        ∀ m ∈ (ms.drop branch).head?, Reached m.request pos inner := by
    unfold choiceFrom at h
    split at h
    · split at h
      · cases h
      · cases h
        exact ⟨_, _, _, rfl, hi⟩
    · rcases branchRequest_eq_found h with
        ⟨m, rest, inner', hd, hm, rfl⟩ | ⟨k, m, rest, inner', hd, hm, rfl⟩
      · refine ⟨_, _, _, rfl, fun m' hm' => ?_⟩
        rw [hd] at hi hm'
        cases hm'
        exact .next (hi m rfl) hm
      · refine ⟨_, _, _, rfl, fun m' hm' => ?_⟩
        rw [List.drop_drop, show branch + (k + 1) = branch + k + 1 by omega] at hd
        rw [hd] at hm'
        cases hm'
        exact .next .fresh hm
  induction h with
  | fresh => exact .inl rfl
  | next _ hs ih =>
    right
    rcases ih with rfl | ⟨branch, inner, e, rfl, hi⟩
    · exact step (fun m _ => .fresh) hs
    · exact step hi hs

theorem choice_ahead {ms : List (Machine dir length)} {pos : Int} {s s' : State} {o : Outcome}
    (hs : Reached (choiceRequest ms) pos s) (h : choiceRequest ms pos s = .found o s') :
    Ahead dir length pos o.index := by
  have step {branch : Nat} {inner : State} {e : Bool}
      (hi : ∀ m ∈ (ms.drop branch).head?, Reached m.request pos inner)
      (h : choiceFrom ms pos branch inner e = .found o s') : Ahead dir length pos o.index := by
    unfold choiceFrom at h
    split at h
    · split at h
      · cases h
      · cases h
        exact .refl pos
    · rcases branchRequest_eq_found h with
        ⟨m, rest, inner', hd, hm, rfl⟩ | ⟨k, m, rest, inner', hd, hm, rfl⟩
      · exact m.ahead (hi m (by rw [hd]; rfl)) hm
      · exact m.ahead .fresh hm
  rcases inner_reached hs with rfl | ⟨branch, inner, e, rfl, hi⟩
  · exact step (fun m _ => .fresh) h
  · exact step hi h

/-- The choice among machines, in order of preference. -/
def choice (ms : List (Machine dir length)) : Machine dir length where
  request := choiceRequest ms
  ends := choice_ends ms
  ahead := choice_ahead

end Machine

end Retrace
