import Mathlib.Data.List.Range
import Mathlib.Order.Lattice
import Mathlib.Tactic.Ring
import Retrace.Proofs.Match.Covering

/-!
# Repetitions of one code point

An expression for one code point matches at a cursor in at most one way. So the chains of its
repetitions all go along one run of accepted code points, and a repetition has one way for every
number of them that lies within its bounds and within the run. A lazy repetition gives these ways
with the shortest first, a greedy one with the longest first.

Results:

* `CharExpr.run_spec`: the run from a cursor on is the longest stretch of accepted code points.
* `Ways.repeatFrom_char`: the ways of a repetition from a chain along the run on.
* `Term.yields_repeated_char`: the ways of a repetition, in their order.
-/

namespace Retrace

section Run

variable (flags : Flags) (subject : Text) (dir : Direction)

/-- Whether the expression accepts the code point at a position. -/
def CharExpr.acceptsAt (e : CharExpr) (pos : Int) : Bool :=
  (Text.at? subject pos).any (e.accepts flags)

variable {flags subject}

theorem CharExpr.room_of_acceptsAt {e : CharExpr} {pos : Int} (h : e.acceptsAt flags subject pos) :
    dir.room subject.size (pos + dir.step) < dir.room subject.size pos := by
  obtain ⟨cp, hcp, -⟩ := (Option.any_eq_true _ _).mp h
  have := Text.lt_size_of_at? hcp
  cases dir <;> simp only [Direction.room, Direction.step] <;> omega

variable (flags subject)

/-- How many code points in a row the expression accepts, from a cursor on. -/
def CharExpr.run (e : CharExpr) (pos : Int) : Nat :=
  if _h : e.acceptsAt flags subject pos then e.run (pos + dir.step) + 1 else 0
termination_by dir.room subject.size pos
decreasing_by exact room_of_acceptsAt dir _h

/-- The run is a stretch of accepted code points, behind which none is accepted. -/
theorem CharExpr.run_spec (e : CharExpr) (pos : Int) :
    (∀ k < e.run flags subject dir pos, e.acceptsAt flags subject (pos + dir.step * k)) ∧
      e.acceptsAt flags subject (pos + dir.step * e.run flags subject dir pos) = false := by
  induction pos using CharExpr.run.induct flags subject dir e with
  | case1 pos h ih =>
    obtain ⟨haccepts, hstop⟩ := ih
    have hnext (k : Nat) : pos + dir.step * (k + 1 : Nat) = pos + dir.step + dir.step * k := by
      push_cast
      ring
    rw [run, dif_pos h]
    refine ⟨fun k hk => ?_, ?_⟩
    · cases k with
      | zero => simpa using h
      | succ k =>
        rw [hnext]
        exact haccepts k (by omega)
    · rw [hnext]
      exact hstop
  | case2 pos h =>
    rw [run, dif_neg h]
    exact ⟨fun k hk => absurd hk (Nat.not_lt_zero k), by simpa using h⟩

end Run

namespace Quantifier

/-- The greatest number of repetitions within the upper bound when there are at most `r`. -/
def cap (q : Quantifier) (r : Nat) : Nat :=
  match q.max with
  | some max => Min.min r max
  | none => r

/-- Ways listed with the fewest repetitions first, in the order of preference. -/
def arrange (q : Quantifier) (os : List Outcome) : List Outcome := if q.lazy then os else os.reverse

theorem arrange_nil (q : Quantifier) : q.arrange [] = [] := by
  unfold arrange
  split <;> rfl

theorem allows_cap (q : Quantifier) (r : Nat) : q.allows (q.cap r) := by
  unfold allows cap
  cases q.max <;> simp

theorem cap_le (q : Quantifier) (r : Nat) : q.cap r ≤ r := by
  unfold cap
  cases q.max <;> simp

theorem cap_eq_or (q : Quantifier) (r : Nat) :
    q.cap r = r ∨ q.allows (q.cap r + 1) = false := by
  unfold allows cap
  cases q.max with
  | none => exact .inl rfl
  | some max =>
    simp only [decide_eq_false_iff_not]
    omega

end Quantifier

namespace Ways

variable {flags : Flags} {subject : Text} {dir : Direction} {e : CharExpr} {q : Quantifier}

/-- A chain joins the longer ones where its number of repetitions belongs. -/
theorem order_settled (q : Quantifier) (count : Nat) (o : Outcome) (os : List Outcome) :
    order q (settled q count o) (q.arrange os) = q.arrange (settled q count o ++ os) := by
  unfold order settled Quantifier.arrange
  by_cases hmin : q.min ≤ count <;> cases q.lazy <;> simp [hmin]

theorem list_char (flags : Flags) (subject : Text) (dir : Direction) (e : CharExpr) (pos : Int) :
    (single (charGoal flags subject dir e) charGoal_ahead).list pos =
      if e.acceptsAt flags subject pos then [.bare (pos + dir.step)] else [] := by
  show (charGoal flags subject dir e pos).toList.map Outcome.bare = _
  unfold charGoal CharExpr.acceptsAt
  split <;> rfl

/-- From a code point that is accepted, a chain goes on by one more repetition. -/
theorem repeatFrom_char_of_accepts {count : Nat} {pos : Int}
    (haccepts : e.acceptsAt flags subject pos) (hallows : q.allows (count + 1)) :
    repeatFrom q (single (charGoal flags subject dir e) charGoal_ahead) count pos .empty =
      order q (settled q count (.bare pos))
        (repeatFrom q (single (charGoal flags subject dir e) charGoal_ahead) (count + 1)
          (pos + dir.step) .empty) := by
  have hmoves : ¬(pos + dir.step = pos ∧ q.min ≤ count) := by
    cases dir <;> simp only [Direction.step] <;> omega
  rw [repeatFrom_eq, longer, if_pos hallows, list_char, if_pos haccepts, extended,
    List.flatMap_singleton,
    if_neg (show ¬((Outcome.bare (pos + dir.step)).index = pos ∧ q.min ≤ count) from hmoves)]
  rfl

/-- Where no code point is accepted, or no more repetition is allowed, a chain ends. -/
theorem repeatFrom_char_of_stop {count : Nat} {pos : Int}
    (hstop : e.acceptsAt flags subject pos = false ∨ q.allows (count + 1) = false) :
    repeatFrom q (single (charGoal flags subject dir e) charGoal_ahead) count pos .empty =
      order q (settled q count (.bare pos)) [] := by
  have hlonger : longer q (single (charGoal flags subject dir e) charGoal_ahead) count
      ⟨pos, .empty⟩ = [] := by
    unfold longer
    rcases hstop with hstop | hstop
    · rw [list_char, if_neg (ne_true_of_eq_false hstop)]
      exact ite_self []
    · rw [if_neg (ne_true_of_eq_false hstop)]
  rw [repeatFrom_eq, hlonger]
  rfl

/-- The ways along a run from `start` on with `low` to `high` code points, the fewest first. -/
def stretches (dir : Direction) (start : Int) (low high : Nat) : List Outcome :=
  (List.range' low (high + 1 - low)).map fun k : Nat => .bare (start + dir.step * k)

theorem stretches_succ {start : Int} {low high : Nat} (h : low ≤ high) :
    stretches dir start low high =
      .bare (start + dir.step * low) :: stretches dir start (low + 1) high := by
  unfold stretches
  rw [show high + 1 - low = high + 1 - (low + 1) + 1 by omega, List.range'_succ, List.map_cons]

theorem stretches_of_lt {start : Int} {low high : Nat} (h : high < low) :
    stretches dir start low high = [] := by
  unfold stretches
  rw [show high + 1 - low = 0 by omega]
  rfl

/-- A chain that is long enough is the first of those that are at least as long. -/
theorem settled_append_stretches {start : Int} {count top : Nat} (h : count ≤ top) :
    settled q count (.bare (start + dir.step * count)) ++
      stretches dir start (max q.min (count + 1)) top =
        stretches dir start (max q.min count) top := by
  unfold settled
  split
  case isTrue hmin =>
    rw [max_eq_right hmin, max_eq_right (Nat.le_succ_of_le hmin), stretches_succ h]
    rfl
  case isFalse hmin =>
    rw [max_eq_left (by omega), max_eq_left (by omega)]
    rfl

/-- A chain of `count` repetitions along a run from `start` on has all ways with at least as many,
    up to the greatest number `top` that the run and the upper bound leave room for. -/
theorem repeatFrom_char {start : Int} {top : Nat}
    (hrun : ∀ k < top, e.acceptsAt flags subject (start + dir.step * k)) (hallows : q.allows top)
    (hstop : e.acceptsAt flags subject (start + dir.step * top) = false ∨
      q.allows (top + 1) = false) {count : Nat} (hcount : count ≤ top) :
    repeatFrom q (single (charGoal flags subject dir e) charGoal_ahead) count
      (start + dir.step * count) .empty =
        q.arrange (stretches dir start (max q.min count) top) := by
  -- the induction goes down from the longest chain
  induction hcount using Nat.decreasingInduction with
  | self =>
    rw [repeatFrom_char_of_stop hstop, ← settled_append_stretches (Nat.le_refl top),
      stretches_of_lt (by omega), ← order_settled, Quantifier.arrange_nil]
  | of_succ count hlt ih =>
    have hnext : start + dir.step * (count + 1 : Nat) = start + dir.step * count + dir.step := by
      push_cast
      ring
    rw [hnext] at ih
    rw [repeatFrom_char_of_accepts (hrun count hlt) (allows_of_le hlt hallows), ih, order_settled,
      settled_append_stretches (Nat.le_of_lt hlt)]

end Ways

/-- The ways of a repetition of one code point. Let `r` be the number of code points in a row that
    the expression accepts from a cursor on, in the direction of the scan. Requests to a repetition
    are answered with no way if `r` is below the least number of repetitions, and otherwise with one
    way, which captures nothing, for every number of repetitions from the least one up to `r` or, if
    that is less, to the upper bound: the fewest come first if the repetition is lazy, and the most
    otherwise. From then on there is none left. -/
theorem Term.yields_repeated_char (e : CharExpr) (q : Quantifier) (flags : Flags) (subject : Text)
    (dir : Direction) (pos : Int) :
    let r := e.run flags subject dir pos
    ((∀ k < r, e.acceptsAt flags subject (pos + dir.step * k)) ∧
      e.acceptsAt flags subject (pos + dir.step * r) = false) ∧
    Yields (Term.machine flags subject (.repeated (.char e) q) dir).request pos .fresh
      (if r < q.min then [] else q.arrange (Ways.stretches dir pos q.min (q.cap r))) := by
  intro r
  obtain ⟨haccepts, hstop⟩ := e.run_spec flags subject dir pos
  refine ⟨⟨haccepts, hstop⟩, ?_⟩
  have hcap : q.cap r ≤ r := q.cap_le r
  have htop : e.acceptsAt flags subject (pos + dir.step * q.cap r) = false ∨
      q.allows (q.cap r + 1) = false := by
    refine (q.cap_eq_or r).imp_left fun heq => ?_
    rw [heq]
    exact hstop
  have hways := Ways.repeatFrom_char (fun k hk => haccepts k (Nat.lt_of_lt_of_le hk hcap))
    (q.allows_cap r) htop (Nat.zero_le _)
  rw [Nat.cast_zero, mul_zero, add_zero, max_eq_left (Nat.zero_le q.min)] at hways
  have hends : (if r < q.min then [] else q.arrange (Ways.stretches dir pos q.min (q.cap r))) =
      q.arrange (Ways.stretches dir pos q.min (q.cap r)) := by
    split
    · rw [Ways.stretches_of_lt (by omega), Quantifier.arrange_nil]
    · rfl
  rw [hends, ← hways]
  exact Term.machine_enumerates flags subject (.repeated (.char e) q) dir pos

end Retrace
