import Mathlib.Data.List.Nodup
import Retrace.Proofs.Syntax.Invariant

/-!
# The keys of groups

A capturing group captures under its number and, if it has one, its name. Numbering the groups of a
pattern gives them consecutive numbers and leaves their names as they are, so that no two groups of
a numbered pattern share a key.

Results:

* `Pattern.numbered_numbers`: the numbers given are consecutive, and the names stay.
* `Pattern.nodup_keys_numbered`: the groups of a pattern that was read and numbered have distinct
  keys.
-/

namespace Retrace

/-- The keys under which a group captures. -/
def GroupTag.keys (tag : GroupTag) : List GroupKey :=
  match tag.number with
  | none => []
  | some n => .number n :: tag.name.toList.map .name

/-- The keys under which a term itself captures. -/
def Term.ownKeys : Term → List GroupKey
  | .group tag _ => tag.keys
  | _ => []

/-- The number of the group, if the term is a numbered group. -/
def Term.groupNumber? : Term → Option Nat
  | .group tag _ => tag.number
  | _ => none

/-- The name of the group, if the term is a group with a name, and whether the group is numbered. -/
def Term.groupShape (t : Term) : Option String × Bool := (t.groupName?, t.groupNumber?.isSome)

theorem Term.number_mem_ownKeys {t : Term} {n : Nat} (h : .number n ∈ t.ownKeys) :
    t.groupNumber? = some n := by
  cases t with
  | group tag body =>
    show tag.number = some n
    unfold ownKeys GroupTag.keys at h
    cases hn : tag.number with
    | none => simp [hn] at h
    | some m => simpa [hn, eq_comm] using h
  | _ => exact absurd h List.not_mem_nil

theorem Term.name_mem_ownKeys {t : Term} {name : String} (h : .name name ∈ t.ownKeys) :
    t.groupName? = some name := by
  cases t with
  | group tag body =>
    show tag.name = some name
    unfold ownKeys GroupTag.keys at h
    cases hn : tag.number with
    | none => simp [hn] at h
    | some m => simpa [hn] using h
  | _ => exact absurd h List.not_mem_nil

theorem Term.nodup_ownKeys (t : Term) : t.ownKeys.Nodup := by
  cases t with
  | group tag body =>
    obtain ⟨number, name⟩ := tag
    cases number <;> cases name <;> simp [ownKeys, GroupTag.keys]
  | _ => exact List.nodup_nil

/-- Groups with distinct numbers and distinct names have distinct keys. -/
theorem nodup_keys {ts : List Term} (hnumbers : (ts.filterMap Term.groupNumber?).Nodup)
    (hnames : (ts.filterMap Term.groupName?).Nodup) : (ts.flatMap Term.ownKeys).Nodup := by
  rw [List.nodup_flatMap]
  refine ⟨fun t _ => t.nodup_ownKeys, ?_⟩
  have hnumber := List.pairwise_filterMap.mp hnumbers
  have hname := List.pairwise_filterMap.mp hnames
  refine (hnumber.and hname).imp fun {t u} h key ht hu => ?_
  cases key with
  | number n => exact h.1 n (Term.number_mem_ownKeys ht) n (Term.number_mem_ownKeys hu) rfl
  | name name => exact h.2 name (Term.name_mem_ownKeys ht) name (Term.name_mem_ownKeys hu) rfl

/-! ## Numbering -/

/-- The terms `ts'` are the terms `ts` with their groups numbered from `next`; `later` is the next
    free number. -/
structure Numbers (ts ts' : List Term) (next later : Nat) : Prop where
  le : next ≤ later
  numbers : ts'.filterMap Term.groupNumber? = List.range' next (later - next)
  shapes : ts'.map Term.groupShape = ts.map Term.groupShape

namespace Numbers

variable {ts ts' us us' : List Term} {t t' : Term} {a b c : Nat}

theorem names (h : Numbers ts ts' a b) :
    ts'.filterMap Term.groupName? = ts.filterMap Term.groupName? := by
  have hnames := congrArg (List.filterMap Prod.fst) h.shapes
  rw [List.filterMap_map, List.filterMap_map] at hnames
  exact hnames

theorem nil (a : Nat) : Numbers [] [] a a := ⟨Nat.le_refl a, by rw [Nat.sub_self]; rfl, rfl⟩

theorem append (h : Numbers ts ts' a b) (h' : Numbers us us' b c) :
    Numbers (ts ++ us) (ts' ++ us') a c where
  le := Nat.le_trans h.le h'.le
  numbers := by
    have hb : a + (b - a) = b := by have := h.le; omega
    have hc : b - a + (c - b) = c - a := by have := h.le; have := h'.le; omega
    rw [List.filterMap_append, h.numbers, h'.numbers, ← hc, ← List.range'_append_1, hb]
  shapes := by rw [List.map_append, List.map_append, h.shapes, h'.shapes]

/-- A term without a number goes before. -/
theorem cons (h : Numbers ts ts' a b) (hnumber : t'.groupNumber? = none)
    (hshape : t'.groupShape = t.groupShape) : Numbers (t :: ts) (t' :: ts') a b where
  le := h.le
  numbers := by rw [List.filterMap_cons, hnumber, h.numbers]
  shapes := by rw [List.map_cons, List.map_cons, hshape, h.shapes]

/-- A group with the first number goes before. -/
theorem cons_group (h : Numbers ts ts' (a + 1) b) (hnumber : t'.groupNumber? = some a)
    (hshape : t'.groupShape = t.groupShape) : Numbers (t :: ts) (t' :: ts') a b where
  le := by have := h.le; omega
  numbers := by
    have hb : b - a = b - (a + 1) + 1 := by have := h.le; omega
    rw [List.filterMap_cons, hnumber, h.numbers, hb, List.range'_succ]
  shapes := by rw [List.map_cons, List.map_cons, hshape, h.shapes]

end Numbers

mutual

theorem Term.numbered_numbers : (t : Term) → (next : Nat) →
    Numbers t.subterms (t.numbered next).1.subterms next (t.numbered next).2
  | .char _, next => (Numbers.nil next).cons rfl rfl
  | .anchor _, next => (Numbers.nil next).cons rfl rfl
  | .backreference _, next => (Numbers.nil next).cons rfl rfl
  | .look _ _ body, next => (Pattern.numbered_numbers body next).cons rfl rfl
  | .repeated atom _, next => (Term.numbered_numbers atom next).cons rfl rfl
  | .group ⟨none, _⟩ body, next => (Pattern.numbered_numbers body next).cons rfl rfl
  | .group ⟨some _, _⟩ body, next =>
    (Pattern.numbered_numbers body (next + 1)).cons_group rfl rfl
termination_by structural t => t

theorem Branch.numbered_numbers : (b : Branch) → (next : Nat) →
    Numbers b.subterms (b.numbered next).1.subterms next (b.numbered next).2
  | [], next => .nil next
  | t :: b, next =>
    (Term.numbered_numbers t next).append (Branch.numbered_numbers b (t.numbered next).2)
termination_by structural b => b

/-- Groups are numbered one after another, and their names stay. -/
theorem Pattern.numbered_numbers : (p : Pattern) → (next : Nat) →
    Numbers p.subterms (p.numbered next).1.subterms next (p.numbered next).2
  | [], next => .nil next
  | b :: p, next =>
    (Branch.numbered_numbers b next).append (Pattern.numbered_numbers p (b.numbered next).2)
termination_by structural p => p

end

/-- The groups of a pattern that was read and numbered have distinct keys. -/
theorem Pattern.nodup_keys_numbered {text : Input} {p : Pattern} (hp : parse text = .ok p)
    (next : Nat) : ((p.numbered next).1.subterms.flatMap Term.ownKeys).Nodup := by
  have hnumbered := p.numbered_numbers next
  apply nodup_keys
  · rw [hnumbered.numbers]
    exact List.nodup_range'
  · rw [hnumbered.names, ← groupNames_eq]
    exact parse_names hp

end Retrace
