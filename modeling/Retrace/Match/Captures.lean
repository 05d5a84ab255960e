import Retrace.Direction
import Retrace.Syntax.Term

/-!
# Captures

What the groups of a pattern have captured: a finite map from group numbers and names to spans. Its
entries are kept in order, numbers before names, so that equal maps have equal entries.

Results:

* `CaptureMap.find?_insert`: what a map holds after one key has been set.
* `CaptureMap.find?_merge`: a union holds what the second map holds, and else what the first does.
-/

namespace Retrace

/-- The stretch of a subject from gap `start` to gap `stop`. -/
structure Span where
  start : Nat
  stop : Nat
deriving DecidableEq, Repr

/-- The span between two cursors of a scan, low end first. Cursors before the subject count as its
    beginning. -/
def Span.between (dir : Direction) (entry exit : Int) : Span :=
  match dir with
  | .forward => ⟨(dir.gap entry).toNat, (dir.gap exit).toNat⟩
  | .backward => ⟨(dir.gap exit).toNat, (dir.gap entry).toNat⟩

namespace GroupKey

/-- The order of keys: numbers by size, then names by their code points. -/
def lt : GroupKey → GroupKey → Prop
  | .number a, .number b => a < b
  | .number _, .name _ => True
  | .name _, .number _ => False
  | .name a, .name b => a < b

instance : LT GroupKey := ⟨lt⟩

instance (a b : GroupKey) : Decidable (a < b) :=
  match a, b with
  | .number a, .number b => inferInstanceAs (Decidable (a < b))
  | .number _, .name _ => isTrue trivial
  | .name _, .number _ => isFalse id
  | .name a, .name b => inferInstanceAs (Decidable (a < b))

theorem lt_irrefl : ∀ a : GroupKey, ¬a < a
  | .number a => Nat.lt_irrefl a
  | .name a => String.lt_irrefl a

theorem lt_trans : ∀ {a b c : GroupKey}, a < b → b < c → a < c
  | .number _, .number _, .number _, h, h' => Nat.lt_trans h h'
  | .number _, .number _, .name _, _, _ => trivial
  | .number _, .name _, .name _, _, _ => trivial
  | .name _, .name _, .name _, h, h' => String.lt_trans h h'
  | .number _, .name _, .number _, _, h' => h'.elim
  | .name _, .number _, _, h, _ => h.elim
  | .name _, .name _, .number _, _, h' => h'.elim

theorem lt_of_not_lt_of_ne : ∀ {a b : GroupKey}, ¬a < b → a ≠ b → b < a
  | .number a, .number b, h, hne => by
    have h : ¬a < b := h
    have hne : a ≠ b := fun e => hne (e ▸ rfl)
    exact (by omega : b < a)
  | .number _, .name _, h, _ => (h trivial).elim
  | .name _, .number _, _, _ => trivial
  | .name a, .name b, h, hne => by
    have h : ¬a < b := h
    have hne : a ≠ b := fun e => hne (e ▸ rfl)
    by_cases hba : b < a
    · exact hba
    · exact (hne (String.le_antisymm (String.not_lt.1 hba) (String.not_lt.1 h))).elim

end GroupKey

/-- A map from group keys to spans, as entries in the order of their keys. -/
structure CaptureMap where
  entries : List (GroupKey × Span)
  sorted : entries.Pairwise fun a b => a.1 < b.1
deriving DecidableEq

namespace CaptureMap

/-- No captures. -/
def empty : CaptureMap := ⟨[], .nil⟩

/-- The span captured under a key. -/
def find? (m : CaptureMap) (key : GroupKey) : Option Span :=
  (m.entries.find? fun e => e.1 = key).map Prod.snd

/-- The entries with the span of one key set. -/
def insertEntry (key : GroupKey) (span : Span) : List (GroupKey × Span) → List (GroupKey × Span)
  | [] => [(key, span)]
  | e :: rest =>
    if key < e.1 then (key, span) :: e :: rest
    else if key = e.1 then (key, span) :: rest
    else e :: insertEntry key span rest

theorem mem_insertEntry {key : GroupKey} {span : Span} {entries : List (GroupKey × Span)}
    {e : GroupKey × Span} (h : e ∈ insertEntry key span entries) :
    e = (key, span) ∨ e ∈ entries := by
  induction entries with
  | nil => simpa [insertEntry] using h
  | cons x rest ih =>
    unfold insertEntry at h
    split at h
    · simpa using h
    · split at h <;> grind

theorem pairwise_insertEntry {key : GroupKey} {span : Span} {entries : List (GroupKey × Span)}
    (h : entries.Pairwise fun a b => a.1 < b.1) :
    (insertEntry key span entries).Pairwise fun a b => a.1 < b.1 := by
  induction entries with
  | nil => simp [insertEntry]
  | cons x rest ih =>
    obtain ⟨hx, hrest⟩ := List.pairwise_cons.1 h
    unfold insertEntry
    split
    case isTrue hlt =>
      refine List.pairwise_cons.2 ⟨fun e he => ?_, h⟩
      rcases List.mem_cons.1 he with rfl | he
      · exact hlt
      · exact GroupKey.lt_trans hlt (hx e he)
    case isFalse hlt =>
      split
      case isTrue heq => exact List.pairwise_cons.2 ⟨heq ▸ hx, hrest⟩
      case isFalse hne =>
        refine List.pairwise_cons.2 ⟨fun e he => ?_, ih hrest⟩
        rcases mem_insertEntry he with rfl | he
        · exact GroupKey.lt_of_not_lt_of_ne hlt hne
        · exact hx e he

/-- The map with the span of one key set. -/
def insert (m : CaptureMap) (key : GroupKey) (span : Span) : CaptureMap :=
  ⟨insertEntry key span m.entries, pairwise_insertEntry m.sorted⟩

/-- The union of two maps. Where both have a key, the second wins. -/
def merge (a b : CaptureMap) : CaptureMap :=
  b.entries.foldl (fun m e => m.insert e.1 e.2) a

theorem find?_insertEntry (key k : GroupKey) (span : Span) (entries : List (GroupKey × Span))
    (h : entries.Pairwise fun a b => a.1 < b.1) :
    ((insertEntry key span entries).find? fun e => e.1 = k).map Prod.snd =
      if k = key then some span else (entries.find? fun e => e.1 = k).map Prod.snd := by
  induction entries with
  | nil => by_cases hk : key = k <;> simp [insertEntry, hk, eq_comm]
  | cons x rest ih =>
    have hrest := (List.pairwise_cons.1 h).2
    unfold insertEntry
    split
    · by_cases hk : key = k <;> simp [List.find?_cons, hk, eq_comm]
    · split
      · by_cases hk : key = k <;> grind
      · rw [List.find?_cons, List.find?_cons]
        by_cases hx : x.1 = k <;> grind

theorem find?_insert (m : CaptureMap) (key k : GroupKey) (span : Span) :
    (m.insert key span).find? k = if k = key then some span else m.find? k :=
  find?_insertEntry key k span m.entries m.sorted

@[simp] theorem find?_empty (k : GroupKey) : empty.find? k = none := rfl

/-- Setting the keys of sorted entries one after another sets each of them. -/
theorem find?_foldl_insert (k : GroupKey) (entries : List (GroupKey × Span))
    (h : entries.Pairwise fun a b => a.1 < b.1) (m : CaptureMap) :
    (entries.foldl (fun m e => m.insert e.1 e.2) m).find? k =
      ((entries.find? fun e => e.1 = k).map Prod.snd).or (m.find? k) := by
  induction entries generalizing m with
  | nil => simp
  | cons e rest ih =>
    obtain ⟨he, hrest⟩ := List.pairwise_cons.1 h
    rw [List.foldl_cons, ih hrest, find?_insert]
    by_cases hk : k = e.1
    · subst hk
      have later : (rest.find? fun x => x.1 = e.1) = none := by
        refine List.find?_eq_none.2 fun x hx => ?_
        have hlt := he x hx
        intro hxe
        rw [of_decide_eq_true hxe] at hlt
        exact GroupKey.lt_irrefl e.1 hlt
      simp [later]
    · simp [hk, Ne.symm hk]

theorem find?_merge (a b : CaptureMap) (k : GroupKey) :
    (a.merge b).find? k = (b.find? k).or (a.find? k) :=
  find?_foldl_insert k b.entries b.sorted a

end CaptureMap

end Retrace
