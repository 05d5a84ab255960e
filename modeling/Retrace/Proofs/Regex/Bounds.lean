import Retrace.Proofs.Match.Covering
import Retrace.Proofs.Match.Provenance
import Retrace.Proofs.Regex.Leftmost

/-!
# Where matches lie

A way forwards from a gap of the subject ends on a gap, at its beginning or behind it. So a match
ends where its way does, within the subject, and its text is what the subject holds between its
ends.

Results:

* `Regex.exists_stop_of_matchAt`: a way of an expression ends within the subject.
* `Regex.whole_reads`: a match holds the text between its ends.
-/

namespace Retrace

/-- Forwards from a gap, ways end on a gap that is no earlier. -/
theorem Part.exists_stop {part : Part} {flags : Flags} {subject : Text} {start : Nat}
    (hstart : start ≤ subject.size) {o : Outcome}
    (ho : o ∈ (part.ways flags subject .forward).list start) :
    ∃ stop : Nat, o.index = stop ∧ start ≤ stop ∧ stop ≤ subject.size := by
  let g : Gap subject := ⟨start, by omega⟩
  obtain ⟨h, hindex, -⟩ := (part.ways_realize flags subject .forward g o.index).mp ⟨o, ho, rfl⟩
  have hindex : o.index = h.val := hindex
  have hle := ((part.ways flags subject .forward).ahead ho).le_of_forward
  have hlt := h.isLt
  exact ⟨h.val, hindex, by omega, by omega⟩

namespace Capture

/-- The capture lies within the subject and holds the text between its ends. -/
structure Reads (subject : Text) (c : Capture) : Prop where
  start_le : c.start ≤ c.stop
  stop_le : c.stop ≤ subject.size
  text_eq : c.text = Text.decode (subject.extract c.start c.stop).toList

theorem text_ofSpan {text : Text} {s : Span} (hle : s.start ≤ s.stop) (hstop : s.stop ≤ text.size)
    (offset : Nat) :
    (ofSpan text s offset).text = Text.decode (text.extract s.start s.stop).toList :=
  if_pos ⟨hle, hstop⟩

theorem reads_ofSpan {subject : Text} {s : Span} (hle : s.start ≤ s.stop)
    (hstop : s.stop ≤ subject.size) : (ofSpan subject s 0).Reads subject :=
  ⟨hle, hstop, text_ofSpan hle hstop 0⟩

end Capture

/-- The whole of a match is the span between the ends of its way. -/
theorem Match.whole_ofOutcome {text : Text} {start stop : Nat} {o : Outcome}
    (hindex : o.index = stop) (hle : start ≤ stop) (offset groupCount : Nat) :
    (Match.ofOutcome text start o offset groupCount).whole =
      Capture.ofSpan text ⟨start, stop⟩ offset := by
  have hmax : max o.index.toNat start = stop := by omega
  have hneg : ¬o.index < 0 := by omega
  show Capture.ofSpan text ⟨start, if o.index < 0 then start else max o.index.toNat start⟩ offset =
    Capture.ofSpan text ⟨start, stop⟩ offset
  rw [if_neg hneg, hmax]

namespace Regex

variable {re : Regex} {subject : Text} {start : Nat}

theorem mem_ways_of_matchAt {o : Outcome} (h : re.matchAt subject start = some o) :
    o ∈ ((Part.pattern re.root).ways re.flags subject .forward).list start := by
  rw [matchAt_eq_head?] at h
  exact List.mem_of_head? h

/-- The way that an expression takes from a gap ends on a gap that is no earlier. -/
theorem exists_stop_of_matchAt (hstart : start ≤ subject.size) {o : Outcome}
    (h : re.matchAt subject start = some o) :
    ∃ stop : Nat, o.index = stop ∧ start ≤ stop ∧ stop ≤ subject.size :=
  Part.exists_stop hstart (mem_ways_of_matchAt h)

theorem execAt?_eq_some_iff {m : Match} : re.execAt? subject start = some m ↔
    start ≤ subject.size ∧ ∃ o, re.matchAt subject start = some o ∧
      Match.ofOutcome subject start o 0 re.groupCount = m := by
  unfold execAt?
  rw [Option.ite_none_right_eq_some, Option.map_eq_some_iff]

/-- A match begins where it was looked for, ends where its way does and holds the text between. -/
theorem whole_reads {o : Outcome} (hstart : start ≤ subject.size)
    (h : re.matchAt subject start = some o) :
    let whole := (Match.ofOutcome subject start o 0 re.groupCount).whole
    whole.start = start ∧ o.index = whole.stop ∧ whole.Reads subject := by
  obtain ⟨stop, hindex, hle, hstop⟩ := exists_stop_of_matchAt hstart h
  rw [Match.whole_ofOutcome hindex hle]
  exact ⟨rfl, hindex, Capture.reads_ofSpan hle hstop⟩

theorem whole_of_execAt? {m : Match} (h : re.execAt? subject start = some m) :
    m.whole.start = start ∧ m.whole.Reads subject := by
  obtain ⟨hstart, o, ho, rfl⟩ := execAt?_eq_some_iff.mp h
  obtain ⟨hwhole, -, hreads⟩ := whole_reads hstart ho
  exact ⟨hwhole, hreads⟩

end Regex

end Retrace
