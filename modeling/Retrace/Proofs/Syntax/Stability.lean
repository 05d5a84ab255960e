import Retrace.Proofs.Syntax.Separation

/-!
# Reading in front of more text

What is read without an error at the end of a text is read in the same way, with the same rest left,
if the text goes on with a bar or a closing parenthesis. No reader takes either character for a part
of what it reads unless it has seen the beginning of a bracket class, a name or a property that the
text itself must close; and where a reader looks ahead, neither of the two begins anything.

Results:

* `Input.repeated_append`, `Input.element_append`: a term with its quantifier and an element are
  read in the same way in front of more text.
-/

namespace Retrace

/-- The element with more group names in use around it. -/
def Element.using (used : List String) : Element → Element
  | .term t => .term t
  | .opening o names => .opening o (names ++ used)

/-- No name in use behind the element is one of the given ones. -/
def Element.Apart (used : List String) : Element → Prop
  | .term _ => True
  | .opening _ names => ∀ name ∈ names, name ∉ used

namespace Input

/-- What was read, with more text behind what it left. -/
def behind {α : Type} (rest : Input) (x : α × Input) : α × Input := (x.1, x.2 ++ rest)

variable {rest : Input}

/-! ## Single characters -/

theorem Closing.ne_head (hrest : Closing rest) {c : Char} (hc : c ∉ ['|', ')']) :
    peek? rest ≠ some c := fun h => hc (hrest c h)

theorem after?_append (hrest : Closing rest) {c : Char} (hc : c ∉ ['|', ')']) (s : Input) :
    after? c (s ++ rest) = (after? c s).map (· ++ rest) := by
  cases s with
  | nil => exact after?_eq_none (hrest.ne_head hc)
  | cons cp s =>
    rw [List.cons_append, after?, after?]
    split <;> rfl

theorem Closing.digit? (hrest : Closing rest) {base : Nat} :
    (peek? rest).bind (Numeral.digit? base) = none := by
  cases hp : peek? rest with
  | none => rfl
  | some c =>
    have hc : c = '|' ∨ c = ')' := by simpa using hrest c hp
    show Numeral.digit? base c = none
    rcases hc with rfl | rfl <;> simp [Numeral.digit?]

theorem peek?_append {s : Input} (hs : s ≠ []) : peek? (s ++ rest) = peek? s := by
  cases s with
  | nil => exact absurd rfl hs
  | cons => rfl

theorem peek_append (n : Nat) (s : Input) :
    peek n (s ++ rest) = peek n s ++ peek (n - s.length) rest := by
  rw [peek, List.take_append, List.map_append]
  rfl

theorem length_le_of_peek {n : Nat} {s : Input} {cs : List Char} (h : peek n s = cs) :
    cs.length ≤ s.length := by
  rw [← h, peek, List.length_map, List.length_take]
  exact Nat.min_le_right n s.length

/-- Characters seen in front of more text were there before. -/
theorem starts_of_peek_append (hrest : Closing rest) {n : Nat} {s : Input} {cs : List Char}
    (hcs : ∀ c ∈ cs, c ∉ ['|', ')']) (h : cs <+: peek n (s ++ rest)) : cs <+: peek n s := by
  obtain ⟨ds, h⟩ := h
  rw [peek_append, List.append_eq_append_iff] at h
  rcases h with ⟨es, hes, -⟩ | ⟨as, hcs', has⟩
  · exact ⟨es, hes.symm⟩
  · cases as with
    | nil => exact ⟨[], by rw [hcs', List.append_nil, List.append_nil]⟩
    | cons c as =>
      have hc : peek? rest = some c := by
        have := congrArg List.head? has
        cases hn : n - s.length with
        | zero => simp [hn, peek] at this
        | succ m => cases rest <;> simp_all [peek]
      exact absurd (hrest c hc) (hcs c (by rw [hcs']; simp))

theorem peek?_append_ne (hrest : Closing rest) {c : Char} (hc : c ∉ ['|', ')']) {s : Input}
    (hs : peek? s ≠ some c) : peek? (s ++ rest) ≠ some c := by
  cases s with
  | nil => exact hrest.ne_head hc
  | cons => exact hs

/-! ## Numbers and quantifiers -/

theorem decimalFrom_append (hrest : Closing rest) {start start' : Input} {value : Nat} {s : Input}
    {x : Nat × Input} (h : decimalFrom start value s = .ok x) :
    decimalFrom start' value (s ++ rest) = .ok (behind rest x) := by
  induction s generalizing value with
  | nil =>
    cases h
    exact decimalFrom_stop hrest.beginsDecimal
  | cons cp s ih =>
    rw [decimalFrom] at h
    rw [List.cons_append, decimalFrom]
    split at h
    case h_1 hd =>
      cases h
      rfl
    case h_2 d hd =>
      split at h
      case isTrue hb =>
        rw [if_pos hb]
        exact ih h
      case isFalse => cases h

theorem decimal?_append (hrest : Closing rest) {s : Input} {x : Option (Nat × Input)}
    (h : decimal? s = .ok x) : decimal? (s ++ rest) = .ok (x.map (behind rest)) := by
  cases s with
  | nil =>
    cases h
    rw [decimal?, List.nil_append, hrest.digit?]
    rfl
  | cons cp s =>
    rw [decimal?] at h
    rw [decimal?, List.cons_append, peek?_cons]
    rw [peek?_cons] at h
    split at h
    case h_1 =>
      obtain ⟨x, hx, rfl⟩ := Reading.of_map_eq_ok h
      have hx : decimalFrom (cp :: (s ++ rest)) 0 (cp :: (s ++ rest)) = .ok (behind rest x) :=
        decimalFrom_append hrest hx
      rw [hx]
      rfl
    case h_2 =>
      cases h
      rfl

theorem braceBounds?_append (hrest : Closing rest) {s : Input}
    {x : Option ((Nat × Option Nat) × Input)} (h : braceBounds? s = .ok x) :
    braceBounds? (s ++ rest) = .ok (x.map (behind rest)) := by
  simp only [braceBounds?, bind, Except.bind, pure, Except.pure] at h ⊢
  have close (s : Input) := after?_append hrest (c := '}') (by decide) s
  have comma (s : Input) := after?_append hrest (c := ',') (by decide) s
  cases hfirst : decimal? s
  case error e =>
    rw [hfirst] at h
    cases h
  case ok first =>
  rw [hfirst] at h
  rw [decimal?_append hrest hfirst]
  obtain _ | ⟨min, s₁⟩ := first
  · cases h
    rfl
  simp only [Option.map_some, behind, close, comma] at h ⊢
  cases hexact : after? '}' s₁
  case some r =>
    simp only [hexact, Option.map_some] at h ⊢
    cases h
    rfl
  simp only [hexact, Option.map_none] at h ⊢
  cases hcomma : after? ',' s₁
  case none =>
    simp only [hcomma, Option.map_none] at h ⊢
    cases h
    rfl
  case some s₂ =>
  simp only [hcomma, Option.map_some, close] at h ⊢
  cases hleast : after? '}' s₂
  case some r =>
    simp only [hleast, Option.map_some] at h ⊢
    cases h
    rfl
  simp only [hleast, Option.map_none] at h ⊢
  cases hsecond : decimal? s₂
  case error e =>
    rw [hsecond] at h
    cases h
  case ok second =>
  rw [hsecond] at h
  rw [decimal?_append hrest hsecond]
  obtain _ | ⟨max, s₃⟩ := second
  · cases h
    rfl
  simp only [Option.map_some, behind, close, Except.ok.injEq] at h ⊢
  rw [← h]
  cases after? '}' s₃ <;> rfl

theorem bounds?_append (hrest : Closing rest) {s : Input}
    {x : Option ((Nat × Option Nat) × Input)} (h : bounds? s = .ok x) :
    bounds? (s ++ rest) = .ok (x.map (behind rest)) := by
  cases s with
  | nil =>
    cases h
    exact bounds?_quiet hrest.quiet
  | cons cp s =>
    rw [bounds?] at h
    rw [List.cons_append, bounds?]
    split at h
    case h_4 => exact braceBounds?_append hrest h
    all_goals
      cases h
      rfl

theorem quantifier?_append (hrest : Closing rest) {s : Input} {x : Option (Quantifier × Input)}
    (h : quantifier? s = .ok x) : quantifier? (s ++ rest) = .ok (x.map (behind rest)) := by
  simp only [quantifier?, bind, Except.bind, pure, Except.pure] at h ⊢
  split at h
  · cases h
  case h_2 bounds hb =>
    rw [bounds?_append hrest hb]
    rcases bounds with _ | ⟨⟨min, max⟩, r⟩
    · cases h
      rfl
    · simp only [Option.map_some, behind, after?_append hrest (c := '?') (by decide)] at h ⊢
      split at h
      · cases h
      case isFalse hm =>
        rw [if_neg hm]
        cases hr : after? '?' r with
        | none | some =>
          simp only [hr, Option.map_none, Option.map_some] at h ⊢
          cases h
          rfl

/-- A term takes the same quantifier in front of more text. -/
theorem repeated_append (hrest : Closing rest) {t : Term} {s : Input} {x : Term × Input}
    (h : repeated t s = .ok x) : repeated t (s ++ rest) = .ok (behind rest x) := by
  simp only [repeated, bind, Except.bind, pure, Except.pure] at h ⊢
  split at h
  · cases h
  case h_2 quantifier hq =>
    rw [quantifier?_append hrest hq]
    rcases quantifier with _ | ⟨q, r⟩
    · cases h
      rfl
    · simp only [Option.map_some] at h ⊢
      split at h
      · cases h
      case isFalse ha =>
        cases h
        rw [if_neg ha]
        rfl

/-! ## Escapes -/

theorem hexFrom?_append (hrest : Closing rest) (value count : Nat) (s : Input) :
    hexFrom? value count (s ++ rest) = (hexFrom? value count s).map (behind rest) := by
  induction count generalizing value s with
  | zero => rfl
  | succ count ih =>
    cases s with
    | nil =>
      cases rest with
      | nil => rfl
      | cons cp rest =>
        have hd : Numeral.digit? 16 cp.toChar = none := hrest.digit?
        rw [List.nil_append, hexFrom?, hexFrom?, hd]
        rfl
    | cons cp s =>
      rw [List.cons_append, hexFrom?, hexFrom?]
      cases Numeral.digit? 16 cp.toChar with
      | none => rfl
      | some d => exact ih _ s

theorem bracedHexFrom_append {start start' : Input} {value : Option Nat} {s : Input}
    {x : CodePoint × Input} (h : bracedHexFrom start value s = .ok x) :
    bracedHexFrom start' value (s ++ rest) = .ok (behind rest x) := by
  induction s generalizing value with
  | nil => cases h
  | cons cp s ih =>
    rw [List.cons_append]
    unfold bracedHexFrom at h ⊢
    split at h
    case h_1 d hd =>
      split at h
      · cases h
      case isFalse hlast =>
        rw [if_neg hlast]
        exact ih h
    case h_2 hd =>
      split at h
      case h_1 value =>
        split at h
        case isTrue hbrace =>
          cases h
          rw [if_pos hbrace]
          rfl
        case isFalse => cases h
      case h_2 => cases h

theorem charEscape_append (hrest : Closing rest) {start start' s : Input} {x : CodePoint × Input}
    (h : charEscape start s = .ok x) : charEscape start' (s ++ rest) = .ok (behind rest x) := by
  have hex (count : Nat) (cp : CodePoint) (s : Input) :
      (hexFrom? 0 count (s ++ rest)).getD (cp, s ++ rest) =
        behind rest ((hexFrom? 0 count s).getD (cp, s)) := by
    rw [hexFrom?_append hrest]
    cases hexFrom? 0 count s <;> rfl
  cases s with
  | nil => cases h
  | cons cp s =>
    rw [List.cons_append]
    unfold charEscape at h ⊢
    dsimp only at h ⊢
    split at h
    case h_7 =>
      -- At the end of the text, a bar or a parenthesis behind `\c` is no letter.
      cases s with
      | nil =>
        cases h
        cases rest with
        | nil => rfl
        | cons c rest =>
          have hc : c.toChar = '|' ∨ c.toChar = ')' := by simpa using hrest _ rfl
          have hl : isLetter c.toChar = false := by rcases hc with hc | hc <;> rw [hc] <;> rfl
          rw [List.nil_append]
          dsimp only
          rw [if_neg (by simp [hl])]
          rfl
      | cons letter s =>
        dsimp only [List.cons_append] at h ⊢
        split at h
        case isTrue hl =>
          cases h
          rw [if_pos hl]
          rfl
        case isFalse hl =>
          cases h
          rw [if_neg hl]
          rfl
    case h_8 =>
      cases h
      exact congrArg Except.ok (hex 2 cp s)
    case h_9 =>
      rw [after?_append hrest (by decide)]
      cases hr : after? '{' s with
      | some r =>
        rw [hr] at h
        exact bracedHexFrom_append h
      | none =>
        rw [hr] at h
        cases h
        exact congrArg Except.ok (hex 4 cp s)
    all_goals
      cases h
      rfl

theorem propertyClass_eq_ok {start start' : Input} {negated : Bool} {text : List Char}
    {e : ClassEscape} (h : propertyClass start negated text = .ok e) :
    propertyClass start' negated text = .ok e := by
  simp only [propertyClass] at h ⊢
  split at h
  · cases h
  case isFalse hn =>
    rw [if_neg hn]
    split at h
    case h_1 => exact h
    case h_2 => cases h

theorem propertyEscape_append (hrest : Closing rest) {start start' s : Input} {negated : Bool}
    {x : ClassEscape × Input} (h : propertyEscape start negated s = .ok x) :
    propertyEscape start' negated (s ++ rest) = .ok (behind rest x) := by
  rw [propertyEscape] at h
  rw [propertyEscape, after?_append hrest (by decide)]
  cases hs : after? '{' s with
  | none =>
    rw [hs] at h
    cases h
  | some s =>
    rw [hs] at h
    dsimp only [Option.map_some] at h ⊢
    rw [List.dropWhile_append, List.takeWhile_append]
    cases hd : s.dropWhile fun cp => decide (cp.toChar ≠ '}') with
    | nil =>
      rw [hd] at h
      cases h
    | cons cp r =>
      -- The closing brace stands in the text itself.
      have hlen : (s.takeWhile fun cp => decide (cp.toChar ≠ '}')).length ≠ s.length := by
        have := congrArg List.length
          (List.takeWhile_append_dropWhile (p := fun cp => decide (cp.toChar ≠ '}')) (l := s))
        rw [hd, List.length_append, List.length_cons] at this
        omega
      rw [hd] at h
      rw [if_neg hlen]
      dsimp only [List.isEmpty_cons, List.cons_append] at h ⊢
      split at h
      case h_1 e he =>
        cases h
        rw [propertyClass_eq_ok he]
        rfl
      case h_2 => cases h

theorem classEscape?_append (hrest : Closing rest) {start start' s : Input}
    {x : Option (ClassEscape × Input)} (hs : s ≠ []) (h : classEscape? start s = .ok x) :
    classEscape? start' (s ++ rest) = .ok (x.map (behind rest)) := by
  cases s with
  | nil => exact absurd rfl hs
  | cons cp s =>
    rw [classEscape?] at h
    rw [List.cons_append, classEscape?]
    split at h
    case h_7 | h_8 =>
      obtain ⟨x, hx, rfl⟩ := Reading.of_map_eq_ok h
      rw [propertyEscape_append hrest hx]
      rfl
    all_goals
      cases h
      rfl

theorem groupName_append (hrest : Closing rest) {s : Input} {x : String × Input}
    (h : groupName s = .ok x) : groupName (s ++ rest) = .ok (behind rest x) := by
  simp only [groupName] at h
  cases hr : after? '>' (s.drop ((s.map CodePoint.toChar).takeWhile isNameChar).length) with
  | none =>
    rw [hr] at h
    cases h
  | some r =>
    -- The closing bracket stands in the text itself.
    have hlt : ((s.map CodePoint.toChar).takeWhile isNameChar).length < s.length := by
      have := (after?_eq_some hr).2
      rw [List.length_drop] at this
      omega
    have hname : (((s ++ rest).map CodePoint.toChar).takeWhile isNameChar) =
        (s.map CodePoint.toChar).takeWhile isNameChar := by
      rw [List.map_append, List.takeWhile_append, if_neg]
      rw [List.length_map]
      omega
    rw [hr] at h
    dsimp only at h
    simp only [groupName]
    rw [hname, List.drop_append_of_le_length (Nat.le_of_lt hlt), after?_append hrest (by decide),
      hr]
    dsimp only [Option.map_some]
    split at h
    · cases h
    case isFalse hd =>
      cases h
      rw [if_neg hd]
      rfl

/-! ## Bracket classes -/

theorem bracketAtom_append (hrest : Closing rest) {s : Input} {x : ClassMember × Input}
    (h : bracketAtom s = .ok x) (hx : x.2 ≠ []) :
    bracketAtom (s ++ rest) = .ok (behind rest x) := by
  cases s with
  | nil => cases h
  | cons cp s =>
    unfold bracketAtom at h ⊢
    dsimp only [List.cons_append] at h ⊢
    split at h
    case isFalse hc =>
      cases h
      rw [if_neg hc]
      rfl
    case isTrue hc =>
      have hs : s ≠ [] := by
        rintro rfl
        cases h
      rw [if_pos hc]
      split at h
      · cases h
      case h_2 he =>
        cases h
        rw [classEscape?_append hrest hs he]
        rfl
      case h_3 he =>
        rw [classEscape?_append hrest hs he]
        dsimp only [Option.map_none]
        rw [after?_append hrest (by decide)]
        cases hb : after? 'b' s with
        | some r =>
          rw [hb] at h
          cases h
          rfl
        | none =>
          rw [hb] at h
          obtain ⟨y, hy, rfl⟩ := Reading.of_map_eq_ok h
          dsimp only [Option.map_none]
          rw [charEscape_append hrest hy]
          rfl

/-- Where the members of a bracket class are read to its end, no hyphen is the last character. -/
theorem rangeAhead_append {start s : Input} {x : List ClassMember × Input}
    (h : bracketMembers start s = .ok x) : rangeAhead (s ++ rest) = rangeAhead s := by
  match s with
  | [] =>
    rw [bracketMembers] at h
    cases h
  | [cp] =>
    have hc : cp.toChar = ']' := by
      by_contra hc
      rw [bracketMembers, if_neg hc] at h
      split at h
      · cases h
      case h_2 m r hm =>
        -- A member would use up the whole text, and the class would not be closed.
        have hr : r = [] := List.length_eq_zero_iff.mp (by
          have := (bracketMember_shorter hm).2
          simpa using this)
        rw [hr, bracketMembers] at h
        cases h
    cases rest <;> simp [rangeAhead, peek, hc]
  | _ :: _ :: _ => rfl

theorem bracketMember_append (hrest : Closing rest) {start s : Input} {x : ClassMember × Input}
    {y : List ClassMember × Input} (h : bracketMember s = .ok x)
    (hy : bracketMembers start x.2 = .ok y) : bracketMember (s ++ rest) = .ok (behind rest x) := by
  have hx : x.2 ≠ [] := by
    intro hx
    rw [hx, bracketMembers] at hy
    cases hy
  simp only [bracketMember, bind, Except.bind, pure, Except.pure] at h ⊢
  split at h
  · cases h
  case h_2 lo hlo =>
    split at h
    case isFalse hr =>
      cases h
      rw [bracketAtom_append hrest hlo hx]
      dsimp only [behind]
      rw [rangeAhead_append hy, if_neg hr]
    case isTrue hr =>
      -- A hyphen and the other end of the range follow the first literal.
      obtain ⟨a, b, r, hlo₂⟩ : ∃ a b r, lo.2 = a :: b :: r := by
        rcases hl : lo.2 with _ | ⟨a, _ | ⟨b, r⟩⟩
        · simp [hl, rangeAhead, peek] at hr
        · simp [hl, rangeAhead, peek] at hr
        · exact ⟨a, b, r, rfl⟩
      rw [bracketAtom_append hrest hlo (by simp [hlo₂])]
      dsimp only [behind]
      rw [hlo₂] at h hr ⊢
      rw [show rangeAhead (a :: b :: r ++ rest) = rangeAhead (a :: b :: r) from rfl, if_pos hr]
      dsimp only [List.cons_append, List.drop_one, List.tail_cons] at h ⊢
      split at h
      · cases h
      case h_2 hi hhi =>
        obtain ⟨lo, r₁⟩ := lo
        obtain ⟨hi, r₂⟩ := hi
        have hsecond : r₂ ≠ [] → bracketAtom (b :: (r ++ rest)) = .ok (hi, r₂ ++ rest) :=
          fun hr => bracketAtom_append hrest hhi hr
        dsimp only at h ⊢
        split at h
        case h_1 lo' hi' =>
          split at h
          · cases h
          case isFalse hlt =>
            cases h
            rw [show List.drop 1 (a :: b :: (r ++ rest)) = b :: (r ++ rest) from rfl, hsecond hx]
            dsimp only
            rw [if_neg hlt]
        case h_2 => cases h

theorem bracketMembers_append (hrest : Closing rest) {start start' s : Input}
    {x : List ClassMember × Input} (h : bracketMembers start s = .ok x) :
    bracketMembers start' (s ++ rest) = .ok (behind rest x) := by
  fun_induction bracketMembers start s generalizing x with
  | case1 | case3 | case4 => cases h
  | case2 cp r hc =>
    cases h
    rw [List.cons_append, bracketMembers, if_pos hc]
    rfl
  | case5 cp r hc m r₁ hm ms r₂ hms ih =>
    cases h
    have hmember := bracketMember_append hrest hm hms
    have hmembers := ih hms
    rw [List.cons_append] at hmember ⊢
    rw [bracketMembers, if_neg hc]
    split <;> rename_i h' <;> rw [hmember] at h' <;> cases h'
    dsimp only [behind] at hmembers ⊢
    rw [hmembers]

theorem bracketClass_append (hrest : Closing rest) {start start' s : Input} {x : CharExpr × Input}
    (h : bracketClass start s = .ok x) :
    bracketClass start' (s ++ rest) = .ok (behind rest x) := by
  unfold bracketClass at h ⊢
  rw [after?_append hrest (by decide)]
  cases hs : after? '^' s with
  | none | some =>
    rw [hs] at h
    obtain ⟨y, hy, rfl⟩ := Reading.of_map_eq_ok h
    dsimp only [Option.map_none, Option.map_some]
    rw [bracketMembers_append hrest hy]
    rfl

/-! ## Elements -/

theorem termEscape_append (hrest : Closing rest) {start start' s : Input} {x : Term × Input}
    (h : termEscape start s = .ok x) : termEscape start' (s ++ rest) = .ok (behind rest x) := by
  have hs : s ≠ [] := by
    rintro rfl
    cases h
  unfold termEscape at h ⊢
  split at h
  · cases h
  case h_2 he =>
    cases h
    rw [classEscape?_append hrest hs he]
    rfl
  case h_3 he =>
    rw [classEscape?_append hrest hs he]
    dsimp only [Option.map_none]
    split at h
    case h_1 hk =>
      obtain ⟨y, hy, rfl⟩ := Reading.of_map_eq_ok h
      have hlen : 2 ≤ s.length := by
        have := congrArg List.length hk
        simp only [peek, List.length_map, List.length_take, List.length_cons,
          List.length_nil] at this
        omega
      rw [peek_append, hk, Nat.sub_eq_zero_of_le hlen, List.drop_append_of_le_length hlen]
      show (groupName (s.drop 2 ++ rest)).map _ = _
      rw [groupName_append hrest hy]
      rfl
    case h_2 hk =>
      have hk : peek 2 (s ++ rest) ≠ ['k', '<'] := by
        intro hk'
        have hstarts : ['k', '<'] <+: peek 2 (s ++ rest) := hk' ▸ List.prefix_rfl
        have hlen : (peek 2 s).length ≤ 2 := by
          rw [peek, List.length_map, List.length_take]
          exact Nat.min_le_left 2 s.length
        exact hk ((starts_of_peek_append hrest (by simp) hstarts).eq_of_length_le hlen).symm
      split
      case h_1 hk' => exact absurd hk' hk
      case h_2 =>
        rw [peek?_append hs]
        split at h
        case isTrue hd =>
          obtain ⟨y, hy, rfl⟩ := Reading.of_map_eq_ok h
          rw [if_pos hd, decimalFrom_append hrest hy]
          rfl
        case isFalse hd =>
          obtain ⟨y, hy, rfl⟩ := Reading.of_map_eq_ok h
          rw [if_neg hd, charEscape_append hrest hy]
          rfl

theorem groupOpening_append (hrest : Closing rest) {names used : List String} {s r : Input}
    {e : Element} (h : groupOpening names s = .ok (e, r)) (he : e.Apart used) :
    groupOpening (names ++ used) (s ++ rest) = .ok (e.using used, r ++ rest) := by
  unfold groupOpening at h ⊢
  rw [after?_append hrest (by decide)]
  cases h₁ : after? '?' s with
  | none =>
    rw [h₁] at h
    cases h
    rfl
  | some s₁ =>
    rw [h₁] at h
    dsimp only [Option.map_some] at h ⊢
    rw [after?_append hrest (by decide)]
    cases h₂ : after? ':' s₁ with
    | some s₂ =>
      rw [h₂] at h
      cases h
      rfl
    | none =>
      rw [h₂] at h
      dsimp only [Option.map_none] at h ⊢
      rw [after?_append hrest (by decide)]
      cases h₃ : after? '<' s₁ with
      | none =>
        rw [h₃] at h
        cases h
      | some s₃ =>
        rw [h₃] at h
        dsimp only [Option.map_some] at h ⊢
        split at h
        · cases h
        case h_2 name r hname =>
          rw [groupName_append hrest hname]
          dsimp only [behind]
          split at h
          · cases h
          case isFalse hn =>
            cases h
            have hused : name ∉ used := he name List.mem_cons_self
            rw [if_neg (by simp [hn, hused])]
            rfl

/-- An element is read in the same way in front of more text, and with more group names in use. -/
theorem element_append (hrest : Closing rest) {names used : List String} {s r : Input}
    {e : Element} (h : element names s = .ok (e, r)) (he : e.Apart used) :
    element (names ++ used) (s ++ rest) = .ok (e.using used, r ++ rest) := by
  cases s with
  | nil => cases h
  | cons cp s =>
    unfold element at h ⊢
    dsimp only [List.cons_append] at h ⊢
    have hpeek : peek 4 (cp :: (s ++ rest)) =
        peek 4 (cp :: s) ++ peek (4 - (cp :: s).length) rest := peek_append 4 (cp :: s)
    have hdrop (n : Nat) (hn : n ≤ s.length) : (s ++ rest).drop n = s.drop n ++ rest :=
      List.drop_append_of_le_length hn
    split at h
    case h_1 heq | h_2 heq | h_10 heq =>
      cases h
      rw [hpeek, heq]
      rfl
    case h_3 heq | h_4 heq =>
      cases h
      have hlen := length_le_of_peek heq
      simp only [List.length_cons] at hlen
      rw [hpeek, heq, hdrop 1 (by omega)]
      rfl
    case h_5 heq | h_6 heq =>
      cases h
      have hlen := length_le_of_peek heq
      simp only [List.length_cons] at hlen
      rw [hpeek, heq, hdrop 2 (by omega)]
      rfl
    case h_7 heq | h_8 heq =>
      cases h
      have hlen := length_le_of_peek heq
      simp only [List.length_cons] at hlen
      rw [hpeek, heq, hdrop 3 (by omega)]
      rfl
    case h_9 tail h₁ h₂ h₃ h₄ heq =>
      obtain ⟨hc, rfl⟩ := List.cons.inj heq
      refine (element_of_paren _ hc fun cs hcs hstarts => ?_).trans (groupOpening_append hrest h he)
      -- What begins no lookaround begins none in front of more text.
      simp only [List.mem_cons, List.not_mem_nil, or_false] at hcs
      obtain ⟨es, hes⟩ := starts_of_peek_append hrest
        (by rcases hcs with rfl | rfl | rfl | rfl <;> simp) hstarts
      rcases hcs with rfl | rfl | rfl | rfl
      · exact h₁ es hes.symm
      · exact h₂ es hes.symm
      · exact h₃ es hes.symm
      · exact h₄ es hes.symm
    case h_11 heq =>
      obtain ⟨y, hy, hx⟩ := Reading.of_map_eq_ok h
      cases hx
      rw [hpeek, heq]
      dsimp only [List.cons_append]
      rw [bracketClass_append hrest hy]
      rfl
    case h_12 tail hb hB heq =>
      obtain ⟨hc, rfl⟩ := List.cons.inj heq
      obtain ⟨y, hy, hx⟩ := Reading.of_map_eq_ok h
      cases hx
      have hword {c : Char} (h : ∀ tail, peek 3 s = c :: tail → False) (hc : c ∉ ['|', ')']) :
          peek? (s ++ rest) ≠ some c := by
        refine peek?_append_ne hrest hc fun hp => ?_
        obtain ⟨cs, hcs⟩ := exists_peek 2 hp
        exact h cs hcs
      have hescape := element_of_backslash (names ++ used) hc (hword hb (by simp))
        (hword hB (by simp))
      rw [termEscape_append hrest hy] at hescape
      exact hescape
    case h_13 | h_14 | h_15 => cases h
    case h_16 heq =>
      split at h
      · cases h
      case isFalse hq =>
        cases h
        rw [hpeek, heq]
        dsimp only [List.cons_append]
        have hq : quantifierAhead (r ++ rest) = false := by
          unfold quantifierAhead at hq ⊢
          split at hq
          case h_1 hb =>
            rw [braceBounds?_append hrest hb]
            rfl
          case h_2 => exact absurd rfl hq
        rw [hq]
        rfl
    case h_17 hcaret hdollar _ _ _ _ _ _ hparen hdot hbracket hbackslash hstar hplus hmark hbrace =>
      have other {c : Char} (h : ∀ tail, peek 4 (cp :: s) = c :: tail → False) : cp.toChar ≠ c :=
        fun hc => h (peek 3 s) (by rw [peek_succ_cons, hc])
      cases h
      refine element_of_plain _ ?_ _
      simp only [List.mem_cons, List.not_mem_nil, or_false, not_or]
      exact ⟨other hcaret, other hdollar, other hbackslash, other hparen, other hdot,
        other hbracket, other hstar, other hplus, other hmark, other hbrace⟩

end Input

end Retrace
