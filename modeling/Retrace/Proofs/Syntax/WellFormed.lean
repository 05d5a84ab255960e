import Mathlib.Data.List.TakeWhile
import Retrace.Proofs.Syntax.Invariant

/-!
# Well-formed patterns

What holds of the terms of every pattern that was read from a text: bounds of quantifiers and ranges
are in order, names are names, numbers fit, properties are known, and no name is used twice.

Results:

* `Pattern.parse_wellFormed`: a pattern that was read is well formed.
-/

namespace Retrace

/-! ## Conditions on one term -/

/-- Whether a string may be the name of a group: letters, digits, `_` and `$`, no digit first. -/
def IsGroupName (name : String) : Prop :=
  name.toList.all Input.isNameChar ∧ ¬name.toList.head?.all Input.isDecimal

/-- A property with a name and a value that it can be written with. -/
structure IsProperty (name : Option String) (value : String) (property : Unicode.Property) :
    Prop where
  resolves : Unicode.Property.resolve? name value = some property
  value_ne : value ≠ ""
  name_ne : name ≠ some ""
  name_chars : ∀ n ∈ name, '=' ∉ n.toList ∧ '}' ∉ n.toList
  value_chars : '}' ∉ value.toList
  /-- Without a name, an equals sign would end one. -/
  value_unnamed : name = none → '=' ∉ value.toList

/-- Whether the class of an escape is one that a text can give. -/
def ClassEscape.Sound (e : ClassEscape) : Prop :=
  ∀ name value property, e.kind = .property name value property → IsProperty name value property

/-- Whether a member of a bracket class is one that a text can give. -/
def ClassMember.Sound : ClassMember → Prop
  | literal _ => True
  | range lo hi => lo ≤ hi
  | escape e => e.Sound

/-- Whether a character class is one that a text can give. -/
def CharExpr.Sound : CharExpr → Prop
  | literal _ | any => True
  | escape e => e.Sound
  | bracket _ members => ∀ m ∈ members, m.Sound

/-- The bounds of a quantifier are in order and fit into 32 bits. -/
structure Quantifier.Sound (q : Quantifier) : Prop where
  min_lt : q.min < Input.numberBound
  max_lt : ∀ max ∈ q.max, max < Input.numberBound
  ordered : ∀ max ∈ q.max, q.min ≤ max

/-- Whether a group is one that a text can give: a group with a name captures, and a capturing group
    is still to be numbered. -/
def GroupTag.Sound (tag : GroupTag) : Prop :=
  match tag.number with
  | none => tag.name = none
  | some n => n = 0 ∧ ∀ name ∈ tag.name, IsGroupName name

/-- Whether the target of a backreference is one that a text can give. -/
def GroupKey.Sound : GroupKey → Prop
  | number n => 0 < n ∧ n < Input.numberBound
  | name s => IsGroupName s

/-- Whether a term is one that a text can give, apart from the terms within it. -/
def Term.Sound : Term → Prop
  | .char e => e.Sound
  | .anchor _ => True
  | .look _ _ body => body ≠ [[]]
  | .group tag body => tag.Sound ∧ body ≠ [[]]
  | .repeated atom q => q.Sound ∧ atom.isAssertion = false ∧ atom.isRepeated = false
  | .backreference target => target.Sound

/-- What holds of every pattern that was read. -/
structure Pattern.WellFormed (p : Pattern) : Prop where
  /-- A single branch has terms. -/
  ne : p ≠ [[]]
  sound : ∀ u ∈ p.subterms, u.Sound
  names_nodup : p.groupNames.Nodup

/-! ## Numbers -/

/-- The decimal digits and their values. -/
theorem Numeral.digit?_ten (c : Char) :
    digit? 10 c = if Input.isDecimal c then some (c.toNat - 0x30) else none := by
  have hle (a b : Char) : a ≤ b ↔ a.toNat ≤ b.toNat := Iff.rfl
  have h0 : '0'.toNat = 48 := rfl
  have h9 : '9'.toNat = 57 := rfl
  have hA : 'A'.toNat = 65 := rfl
  have hF : 'F'.toNat = 70 := rfl
  have ha : 'a'.toNat = 97 := rfl
  have hf : 'f'.toNat = 102 := rfl
  simp only [digit?, Input.isDecimal, hle, Bool.and_eq_true, decide_eq_true_eq, h0, h9, hA, hF, ha,
    hf]
  by_cases hd : 48 ≤ c.toNat ∧ c.toNat ≤ 57
  · simp only [if_pos hd]
    rw [if_pos (by omega)]
  · simp only [if_neg hd]
    rw [if_neg]
    split
    · omega
    · split <;> omega

namespace Input

/-- A number is not smaller than what its first digits give. -/
theorem decimalFrom_bounds {start s r : Input} {value n : Nat} (hv : value < numberBound)
    (h : decimalFrom start value s = .ok (n, r)) : value ≤ n ∧ n < numberBound := by
  induction s generalizing value with
  | nil =>
    cases h
    exact ⟨Nat.le_refl _, hv⟩
  | cons cp s ih =>
    unfold decimalFrom at h
    split at h
    · cases h
      exact ⟨Nat.le_refl _, hv⟩
    · split at h
      case isTrue hd =>
        have := ih hd h
        omega
      case isFalse => cases h

theorem decimal?_lt {s r : Input} {n : Nat} (h : decimal? s = .ok (some (n, r))) :
    n < numberBound := by
  unfold decimal? at h
  split at h
  · obtain ⟨x, hd, hx⟩ := Reading.of_map_eq_ok h
    cases hx
    exact (decimalFrom_bounds (by decide) hd).2
  · cases h

/-- A number that begins with a digit other than zero is positive. -/
theorem decimalFrom_pos {s r : Input} {n : Nat}
    (hs : ((peek? s).any fun c => '1' ≤ c && c ≤ '9') = true)
    (h : decimalFrom s 0 s = .ok (n, r)) : 0 < n := by
  cases s with
  | nil => simp [peek?] at hs
  | cons cp s =>
    have hc : '1' ≤ cp.toChar ∧ cp.toChar ≤ '9' := by simpa [peek?] using hs
    have hd : isDecimal cp.toChar := by
      simp only [isDecimal, Bool.and_eq_true, decide_eq_true_eq]
      exact ⟨Char.le_trans (by decide) hc.1, hc.2⟩
    have h1 : 49 ≤ cp.toChar.toNat := hc.1
    have h9 : cp.toChar.toNat ≤ 57 := hc.2
    unfold decimalFrom at h
    rw [Numeral.digit?_ten, if_pos hd] at h
    have hb : 10 * 0 + (cp.toChar.toNat - 0x30) < numberBound := by
      unfold numberBound
      omega
    simp only [if_pos hb] at h
    have := (decimalFrom_bounds hb h).1
    omega

/-! ## What is read is sound -/

theorem groupName_sound {s r : Input} {name : String} (h : groupName s = .ok (name, r)) :
    IsGroupName name := by
  simp only [groupName] at h
  split at h
  · split at h
    · cases h
    case isFalse hd =>
      cases h
      refine ⟨?_, by simpa using hd⟩
      rw [String.toList_ofList]
      exact List.all_takeWhile
  · cases h

theorem propertyParts_spec (text : List Char) :
    (∀ name ∈ (propertyParts text).1, '=' ∉ name.toList ∧ ∀ c ∈ name.toList, c ∈ text) ∧
      (∀ c ∈ (propertyParts text).2.toList, c ∈ text) ∧
      ((propertyParts text).1 = none → '=' ∉ (propertyParts text).2.toList) := by
  unfold propertyParts
  split
  case h_1 c value hv =>
    have hsub : ∀ c ∈ value, c ∈ text := by
      intro c hc
      exact (List.dropWhile_suffix _).subset (hv ▸ List.mem_cons_of_mem _ hc)
    refine ⟨?_, by simpa using hsub, by simp⟩
    rintro name ⟨⟩
    simp only [String.toList_ofList]
    refine ⟨fun he => ?_, fun c hc => (List.takeWhile_prefix _).subset hc⟩
    simpa using List.mem_takeWhile_imp he
  case h_2 hv =>
    refine ⟨by simp, by simp, fun _ he => ?_⟩
    have := List.dropWhile_eq_nil_iff.1 hv _ (by simpa using he)
    simp at this

theorem propertyClass_sound {start : Input} {negated : Bool} {text : List Char} {e : ClassEscape}
    (ht : '}' ∉ text) (h : propertyClass start negated text = .ok e) : e.Sound := by
  obtain ⟨hname, hvalue, hnone⟩ := propertyParts_spec text
  unfold propertyClass at h
  dsimp only at h
  split at h
  · cases h
  case isFalse he =>
    obtain ⟨hv, hn⟩ := not_or.1 he
    split at h
    case h_1 property hr =>
      cases h
      rintro name value property ⟨⟩
      exact {
        resolves := hr
        value_ne := hv
        name_ne := hn
        name_chars := fun n hn => ⟨(hname n hn).1, fun h => ht ((hname n hn).2 _ h)⟩
        value_chars := fun h => ht (hvalue _ h)
        value_unnamed := hnone }
    case h_2 => cases h

theorem propertyEscape_sound {start s r : Input} {negated : Bool} {e : ClassEscape}
    (h : propertyEscape start negated s = .ok (e, r)) : e.Sound := by
  unfold propertyEscape at h
  split at h
  · cases h
  · split at h
    · cases h
    · split at h
      case h_1 hc =>
        cases h
        refine propertyClass_sound (fun hm => ?_) hc
        obtain ⟨cp, hcp, he⟩ := List.mem_map.1 hm
        simpa [he] using List.mem_takeWhile_imp hcp
      case h_2 => cases h

theorem classEscape?_sound {start s r : Input} {e : ClassEscape}
    (h : classEscape? start s = .ok (some (e, r))) : e.Sound := by
  have property {negated : Bool} {s : Input}
      (h : (propertyEscape start negated s).map some = .ok (some (e, r))) : e.Sound := by
    obtain ⟨x, hp, hx⟩ := Reading.of_map_eq_ok h
    cases hx
    exact propertyEscape_sound hp
  unfold classEscape? at h
  split at h
  · cases h
  · split at h
    case h_7 => exact property h
    case h_8 => exact property h
    case h_9 => cases h
    all_goals
      cases h
      rintro name value property ⟨⟩

theorem AtomRead.sound {s r : Input} {m : ClassMember} (h : AtomRead s r m) : m.Sound := by
  cases h with
  | literal | backspace | escapedLiteral => trivial
  | escape h => exact classEscape?_sound h

theorem MemberRead.sound {s r : Input} {m : ClassMember} (h : MemberRead s r m) : m.Sound := by
  cases h with
  | atom h => exact h.sound
  | range _ _ _ hle => exact hle

theorem braceBounds?_lt {s r : Input} {min : Nat} {max : Option Nat}
    (h : braceBounds? s = .ok (some ((min, max), r))) :
    min < numberBound ∧ ∀ m ∈ max, m < numberBound := by
  simp only [braceBounds?, bind, Except.bind, pure, Except.pure] at h
  split at h
  · cases h
  case h_2 first hd =>
    split at h
    case h_2 => cases h
    case h_1 =>
      have hmin := decimal?_lt hd
      split at h
      · cases h
        exact ⟨hmin, by simpa using hmin⟩
      · split at h
        case h_2 => cases h
        case h_1 =>
          split at h
          · cases h
            exact ⟨hmin, by simp⟩
          · split at h
            · cases h
            case h_2 second hd₂ =>
              split at h
              case h_2 => cases h
              case h_1 =>
                have hmax := decimal?_lt hd₂
                simp only [Except.ok.injEq, Option.map_eq_some_iff] at h
                obtain ⟨a, _, hab⟩ := h
                cases hab
                exact ⟨hmin, by simpa using hmax⟩

theorem bounds?_lt {s r : Input} {min : Nat} {max : Option Nat}
    (h : bounds? s = .ok (some ((min, max), r))) :
    min < numberBound ∧ ∀ m ∈ max, m < numberBound := by
  unfold bounds? at h
  split at h
  · cases h
  · split at h
    case h_4 => exact braceBounds?_lt h
    case h_5 => cases h
    all_goals
      cases h
      exact ⟨by decide, by simp [numberBound]⟩

theorem quantifier?_sound {s r : Input} {q : Quantifier} (h : quantifier? s = .ok (some (q, r))) :
    q.Sound := by
  simp only [quantifier?, bind, Except.bind, pure, Except.pure] at h
  split at h
  · cases h
  case h_2 b hb =>
    split at h
    case h_2 => cases h
    case h_1 min max s₁ =>
      obtain ⟨hmin, hmax⟩ := bounds?_lt hb
      split at h
      · cases h
      case isFalse ho =>
        have hord : ∀ m ∈ max, min ≤ m := by
          rintro m ⟨⟩
          simpa using ho
        split at h
        all_goals
          cases h
          exact ⟨hmin, hmax, hord⟩

theorem TermRead.sound {s r : Input} {t : Term} (h : TermRead s r t) : t.Sound := by
  cases h with
  | anchor | any | literal | escapedLiteral => trivial
  | escape h => exact classEscape?_sound h
  | bracket h =>
    have hsound := forall_of_bracketClass (S := fun _ => True) (fun _ _ => trivial)
      (fun _ hm => hm.sound) trivial h
    obtain ⟨_, ms, rfl, hms⟩ := hsound
    exact hms
  | number hd h => exact ⟨decimalFrom_pos hd h, (decimalFrom_bounds (by decide) h).2⟩
  | name h => exact groupName_sound h

theorem OpeningRead.sound {names names' : List String} {r : Input} {o : Opening}
    (h : OpeningRead names r o names') {body : Pattern} (hb : body ≠ [[]]) :
    (o.close body).Sound := by
  cases h with
  | look => exact hb
  | group | capture => exact ⟨by simp [GroupTag.Sound], hb⟩
  | named hg => exact ⟨⟨rfl, by simpa using groupName_sound hg⟩, hb⟩

/-- Reading makes sound terms of any text. -/
theorem produces_sound : Produces (fun _ => True) Term.Sound where
  suffix _ _ := trivial
  term _ he := (termRead_of_element he).sound
  opening _ he hb := (openingRead_of_element he).sound hb
  quantified _ hq ha hr := ⟨quantifier?_sound hq, ha, hr⟩

end Input

namespace Pattern

/-- Every pattern that was read is well formed. -/
theorem parse_wellFormed {text : Input} {p : Pattern} (hp : parse text = .ok p) : p.WellFormed where
  ne := parse_ne hp
  sound := parse_subterms Input.produces_sound trivial hp
  names_nodup := parse_names hp

end Pattern

end Retrace
