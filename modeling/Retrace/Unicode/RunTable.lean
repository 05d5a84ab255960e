import Retrace.CodePoint
import Retrace.Numeral

/-!
# Tables by runs of code points

A property of code points is nearly constant: neighbours tend to share its value. A run table keeps
one entry per run, under the run's first code point, and a look-up finds the last entry that starts
at or before the code point in question.

Tables are written as text, one word `START:VALUE` per run with `START` in hexadecimal.
-/

namespace Retrace.Unicode

/-- A function on code points that is constant on runs: `values[i]` holds from `starts[i]` up to the
    next start. The starts increase. -/
structure RunTable (α : Type) where
  starts : Array CodePoint
  values : Array α

namespace RunTable

/-- The entry that a word of a written table stands for. -/
def readEntry {α : Type} (value : String → Option α) (word : String) : Option (CodePoint × α) :=
  match word.splitOn ":" with
  | [start, name] => do return (← Numeral.read? 16 start.toList, ← value name)
  | _ => none

/-- The table written as `text`, one entry per word, whose values `value` reads. -/
def ofText {α : Type} (value : String → Option α) (text : String) : RunTable α :=
  let words := (text.map fun c => if c = '\n' then ' ' else c).splitOn " "
  let entries := words.filterMap (readEntry value)
  { starts := (entries.map Prod.fst).toArray, values := (entries.map Prod.snd).toArray }

/-- How many of the increasing `starts` in the window from `lo` to `hi` are at most `cp`, counted
    from the array's beginning: the window halves until it is empty. -/
def countUpTo (starts : Array CodePoint) (cp lo hi : Nat) : Nat :=
  if lo < hi then
    let mid := (lo + hi) / 2
    match starts[mid]? with
    | some start => if start ≤ cp then countUpTo starts cp (mid + 1) hi
                    else countUpTo starts cp lo mid
    | none => countUpTo starts cp lo mid
  else lo
termination_by hi - lo

/-- The first code point and the value of the run that holds `cp`. -/
def find? {α : Type} (table : RunTable α) (cp : CodePoint) : Option (CodePoint × α) :=
  let count := countUpTo table.starts cp 0 table.starts.size
  if count = 0 then none
  else do return (← table.starts[count - 1]?, ← table.values[count - 1]?)

end RunTable

end Retrace.Unicode
