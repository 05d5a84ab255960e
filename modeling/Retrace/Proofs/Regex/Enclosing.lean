import Retrace.Proofs.Regex.Agreement
import Retrace.Proofs.Regex.Numbers

/-!
# Parentheses around an expression

Parentheses around a text change nothing but the numbers of its groups. What begins the text is then
within a group, so that a search may try start positions that it could pass over before. Since these
have no match, it finds the same matches. If the parentheses capture, the group is the first one and
captures the whole match.

Results:

* `Regex.matchAt_enclosed`: a match of an expression in parentheses.
* `Regex.exec?_enclosed`: what searches with and without parentheses have in common.
-/

namespace Retrace

/-- A match within parentheses that capture reports what the match without them does, with the
    numbers of its groups raised by one, and the whole match as the first group. -/
structure Match.Captured (m m' : Match) : Prop extends m.Raises 1 m' where
  group?_one : m'.group? 1 = some m.whole

namespace Regex

/-- The expression as the body of a group, with the numbers of its own groups raised. -/
def enclosed (tag : GroupTag) (k : Nat) (re : Regex) : Regex where
  root := [[.group tag (re.root.raised k)]]
  flags := re.flags
  groupCount := re.groupCount + k

/-- A text that compiles compiles within parentheses, to a group that is numbered before its own. -/
theorem compile_enclosed (tag : GroupTag) (htag : tag.Sound) (hname : tag.name = none) {k : Nat}
    (hk : (tag.numbered 1).2 = 1 + k) {text : Input} {flags : Flags} {re : Regex}
    (h : compile text flags = .ok re) :
    compile (Input.ofChars tag.printOpening ++ (text ++ [CodePoint.ofChar ')'])) flags =
      .ok (re.enclosed (tag.numbered 1).1 k) := by
  obtain ⟨t, ht, hback, rfl⟩ := compile_eq_ok_iff.mp h
  refine compile_eq_ok_iff.mpr ⟨_, Pattern.parse_group ht htag hname, ?_, ?_⟩
  · have hsubterms : Pattern.subterms [[.group tag t]] = .group tag t :: t.subterms := by
      simp [Pattern.subterms, Branch.subterms, Term.subterms]
    rw [Pattern.backreferences, hsubterms]
    exact hback
  · have hle := (t.numbered_numbers 1).le
    have hbody := t.numbered_add k 1
    rw [← hk] at hbody
    simp only [Pattern.numbered, Branch.numbered, Term.numbered, hbody, enclosed, Regex.mk.injEq,
      true_and]
    omega

variable {re : Regex} {subject : Text} {start : Nat}

theorem matchAt_enclosed (tag : GroupTag) (k : Nat) :
    (re.enclosed tag k).matchAt subject start = (re.matchAt subject start).map fun o =>
      { o.raised k with captures := tag.capture .forward start (o.raised k) } := by
  rw [matchAt_eq_head?, matchAt_eq_head?, enclosed, Pattern.list_group, Pattern.list_raised,
    List.map_map, List.head?_map]
  rfl

/-- Parentheses that do not capture leave every attempt as it is. -/
theorem execAt?_enclosed_plain :
    (re.enclosed ⟨none, none⟩ 0).execAt? subject start = re.execAt? subject start := by
  by_cases hstart : start ≤ subject.size
  · have hsame : (fun o : Outcome => { o.raised 0 with captures := (o.raised 0).captures }) = id :=
      funext fun o => congrArg (Outcome.mk o.index) o.captures.raised_zero
    have hmatch : (re.enclosed ⟨none, none⟩ 0).matchAt subject start =
        re.matchAt subject start := by
      rw [matchAt_enclosed]
      exact (congrArg (Option.map · _) hsame).trans Option.map_id_apply
    rw [execAt?_of_le hstart, execAt?_of_le hstart, hmatch]
    rfl
  · rw [execAt?, execAt?, if_neg hstart, if_neg hstart]

/-- What parentheses that capture add to an attempt is their group. -/
theorem execAt?_enclosed_capturing : Option.Rel Match.Captured (re.execAt? subject start)
    ((re.enclosed ⟨some 1, none⟩ 1).execAt? subject start) := by
  by_cases hstart : start ≤ subject.size
  · rw [execAt?_of_le hstart, execAt?_of_le hstart, matchAt_enclosed]
    cases ho : re.matchAt subject start with
    | none => exact .none
    | some o =>
      obtain ⟨stop, hindex, hle, -⟩ := exists_stop_of_matchAt hstart ho
      have hraises := Match.raises_ofOutcome 1 subject start o 0 re.groupCount (re.groupCount + 1)
      have hindex : (o.raised 1).index = stop := hindex
      have hkeys {key : GroupKey} : key ∈ GroupTag.keys ⟨some 1, none⟩ ↔ key = .number 1 :=
        List.mem_singleton
      refine .some ⟨⟨rfl, fun n hn => ?_, fun name => ?_⟩, ?_⟩
      · have hkey : GroupKey.number (n + 1) ≠ .number 1 := by
          rw [ne_eq, GroupKey.number.injEq]
          omega
        rw [← hraises.group?_eq n hn, Match.group?_of_pos n.succ_pos,
          Match.group?_of_pos n.succ_pos, enclosed, Match.find?_group hindex hle,
          if_neg (mt hkeys.mp hkey)]
      · have hkey : GroupKey.name name ≠ .number 1 := nofun
        rw [← hraises.named?_eq name, Match.named?, Match.named?, enclosed,
          Match.find?_group hindex hle, if_neg (mt hkeys.mp hkey)]
      · rw [Match.group?_of_pos Nat.one_pos, enclosed, Match.find?_group hindex hle,
          if_pos (hkeys.mpr rfl)]
        rfl
  · rw [execAt?, execAt?, if_neg hstart, if_neg hstart]
    exact .none

/-- Parentheses around a text that compiles change nothing but the numbers of its groups. With `(?:`
    before it and `)` behind, it compiles, and every search finds what it finds without. With `(`
    before it, it compiles as well, and every search finds the same match and reports the same
    groups, their numbers raised by one, and the whole match as the first group. The list of all
    matches is the same in either case. -/
theorem exec?_enclosed {text : Input} {flags : Flags} {re : Regex}
    (h : compile text flags = .ok re) :
    ∃ plain capturing,
      compile (Input.ofChars ['(', '?', ':'] ++ text ++ Input.ofChars [')']) flags = .ok plain ∧
      compile (Input.ofChars ['('] ++ text ++ Input.ofChars [')']) flags = .ok capturing ∧
      ∀ subject : Text,
        plain.exec? subject = re.exec? subject ∧
        Option.Rel Match.Captured (re.exec? subject) (capturing.exec? subject) ∧
        plain.findAll subject = re.findAll subject ∧
        capturing.findAll subject = re.findAll subject := by
  have hplain : compile (Input.ofChars ['(', '?', ':'] ++ text ++ Input.ofChars [')']) flags =
      .ok (re.enclosed ⟨none, none⟩ 0) := by
    rw [List.append_assoc]
    exact compile_enclosed ⟨none, none⟩ rfl rfl rfl h
  have hcapturing : compile (Input.ofChars ['('] ++ text ++ Input.ofChars [')']) flags =
      .ok (re.enclosed ⟨some 1, none⟩ 1) := by
    rw [List.append_assoc]
    exact compile_enclosed ⟨some 0, none⟩ ⟨rfl, nofun⟩ rfl rfl h
  have hsame (subject : Text) : (re.enclosed ⟨none, none⟩ 0).exec? subject = re.exec? subject :=
    Option.ext fun m => by simp only [exec?_eq_some_iff, execAt?_enclosed_plain]
  have hrel (subject : Text) : Option.Rel Match.Captured (re.exec? subject)
      ((re.enclosed ⟨some 1, none⟩ 1).exec? subject) :=
    exec?_rel fun _ => execAt?_enclosed_capturing
  refine ⟨_, _, hplain, hcapturing, fun subject => ⟨hsame subject, hrel subject, ?_, ?_⟩⟩
  · refine findAll_congr (R := Eq) (fun _ _ h => congrArg _ h.symm) fun subject => ?_
    rw [hsame subject]
    cases re.exec? subject with
    | none => exact .none
    | some m => exact .some rfl
  · exact findAll_congr (fun _ _ h => h.whole_eq) hrel

/-- `b(a)` passes over the start positions before the `b` of `xba`, while `(b(a))` tries them. It
    finds the same match and reports it as its first group. -/
theorem exec?_enclosed_of_literal : ∃ re plain capturing m,
    compile (Input.ofChars ['b', '(', 'a', ')']) .none = .ok re ∧
      compile (Input.ofChars ['(', '?', ':'] ++ Input.ofChars ['b', '(', 'a', ')'] ++
        Input.ofChars [')']) .none = .ok plain ∧
      compile (Input.ofChars ['('] ++ Input.ofChars ['b', '(', 'a', ')'] ++
        Input.ofChars [')']) .none = .ok capturing ∧
      plain.exec? #[0x78, 0x62, 0x61] = re.exec? #[0x78, 0x62, 0x61] ∧
      capturing.exec? #[0x78, 0x62, 0x61] = some m ∧ m.whole = ⟨"ba", 1, 3⟩ ∧
      m.group? 1 = some ⟨"ba", 1, 3⟩ ∧ m.group? 2 = some ⟨"a", 2, 3⟩ ∧
      capturing.findAll #[0x78, 0x62, 0x61] = re.findAll #[0x78, 0x62, 0x61] := by
  have hre : compile (Input.ofChars ['b', '(', 'a', ')']) .none =
      .ok ⟨[[.char (.literal 0x62), .group ⟨some 1, none⟩ [[.char (.literal 0x61)]]]],
        .none, 1⟩ := by with_unfolding_all rfl
  have hexec : exec? ⟨[[.char (.literal 0x62), .group ⟨some 1, none⟩ [[.char (.literal 0x61)]]]],
      .none, 1⟩ #[0x78, 0x62, 0x61] =
        some ⟨⟨"ba", 1, 3⟩, [(.number 1, ⟨"a", 2, 3⟩)], 1⟩ := by
    refine exec?_eq_some_iff.mpr ⟨1, by decide, ?_, fun s hs => ?_⟩
    · rw [execAt?_of_le (by decide), matchAt_eq_head?]
      rfl
    · rw [Nat.lt_one_iff.mp hs, execAt?_of_le (by decide), matchAt_eq_head?]
      rfl
  obtain ⟨plain, capturing, hplain, hcapturing, hsearches⟩ := exec?_enclosed hre
  obtain ⟨hsame, hrel, -, hall⟩ := hsearches #[0x78, 0x62, 0x61]
  generalize hcaptured : capturing.exec? #[0x78, 0x62, 0x61] = found at hrel
  rw [hexec] at hrel
  cases hrel with
  | @some _ m hm =>
    exact ⟨_, plain, capturing, m, hre, hplain, hcapturing, hsame, hcaptured, hm.whole_eq,
      hm.group?_one, hm.group?_eq 1 Nat.one_pos, hall⟩

end Regex

end Retrace
