import Retrace.Regex.Search
import Retrace.Syntax.Outline

/-!
# Sessions

A session holds regular expressions and cursors under names. A cursor asks for the ways of an
expression at one position of a subject, one per request. It can also ask for the ways of a single
branch or term; all requests of a cursor share one state, which belongs to the part that used it
first.

Results:

* `find?_put`: what a table of names holds after one name has been set.
-/

namespace Retrace

/-- Values under names; the value set last comes first. -/
abbrev Named (α : Type) := List (String × α)

namespace Named

variable {α : Type}

/-- The value under a name. -/
def find? (table : Named α) (name : String) : Option α :=
  (List.find? (fun e => e.1 = name) table).map Prod.snd

/-- The table with the value of a name set. -/
def put (table : Named α) (name : String) (value : α) : Named α :=
  (name, value) :: List.filter (fun e => e.1 ≠ name) table

/-- The table without a name. -/
def remove (table : Named α) (name : String) : Named α := List.filter (fun e => e.1 ≠ name) table

theorem find?_put (table : Named α) (name n : String) (value : α) :
    (table.put name value).find? n = if n = name then some value else table.find? n := by
  by_cases h : n = name
  · simp [find?, put, h]
  · have : ¬name = n := fun e => h e.symm
    simp only [find?, put, this, h, List.find?_cons, decide_false, if_false, List.find?_filter]
    congr 2
    funext e
    by_cases he : e.1 = n <;> simp [he, h]

end Named

/-- Which part of a cursor's expression is asked: the whole pattern, a branch, or a term of a
    branch. -/
inductive Level where
  | pattern
  | branch (b : Nat)
  | term (b t : Nat)
deriving DecidableEq, Repr

/-- A place in a subject at which ways of an expression are asked for, and how far this has got. -/
structure Cursor where
  regex : Regex
  subject : Text
  pos : Int
  dir : Direction
  state : State

namespace Cursor

/-- The request of the part at a level, if there is such a part. -/
def request? (c : Cursor) (level : Level) : Option Request :=
  match level with
  | .pattern => some (Pattern.machine c.regex.flags c.subject c.regex.root c.dir).request
  | .branch b =>
    (c.regex.root[b]?).map fun branch =>
      (Branch.machine c.regex.flags c.subject branch c.dir).request
  | .term b t => do
    let branch ← c.regex.root[b]?
    let term ← branch[t]?
    return (Term.machine c.regex.flags c.subject term c.dir).request

/-- The answer of the part at a level, with the cursor that is left. -/
def next? (c : Cursor) (level : Level) : Option (Reply Cursor) := do
  let request ← c.request? level
  match request c.pos c.state with
  | .found o s => return .found o { c with state := s }
  | .none s => return .none { c with state := s }
  | .fault s => return .fault { c with state := s }

/-- The cursor as it was when it was opened. -/
def reset (c : Cursor) : Cursor := { c with state := .fresh }

end Cursor

/-- The expressions and the cursors of a session. -/
structure Session where
  regexes : Named Regex := []
  cursors : Named Cursor := []

/-- Why a step of a session fails. -/
inductive SessionError where
  /-- Nothing has the name that was used. -/
  | noSlot
  /-- The expression has no part at the level. -/
  | noPart
  /-- The cursor's state belongs to a part of another kind. -/
  | foreignState
  | compile (e : CompileError)
deriving DecidableEq, Repr

namespace Session

/-- The expression under a name. -/
def regex (s : Session) (name : String) : Except SessionError Regex :=
  match s.regexes.find? name with
  | some re => .ok re
  | none => .error .noSlot

/-- The cursor under a name. -/
def cursor (s : Session) (name : String) : Except SessionError Cursor :=
  match s.cursors.find? name with
  | some c => .ok c
  | none => .error .noSlot

/-- The session with an expression under a name. -/
def putRegex (s : Session) (name : String) (re : Regex) : Session :=
  { s with regexes := s.regexes.put name re }

/-- The session with a cursor under a name. -/
def putCursor (s : Session) (name : String) (c : Cursor) : Session :=
  { s with cursors := s.cursors.put name c }

/-- The session with the expression of a text under a name. -/
def compile (s : Session) (name : String) (text : Input) (flags : Flags) :
    Except SessionError (Regex × Session) :=
  match Regex.compile text flags with
  | .ok re => .ok (re, s.putRegex name re)
  | .error e => .error (.compile e)

/-- The session with an expression under a second name. -/
def copy (s : Session) (source name : String) : Except SessionError (Regex × Session) := do
  let re ← s.regex source
  return (re, s.putRegex name re)

/-- The session in which the canonical text of an expression is compiled under a name. -/
def recompile (s : Session) (source name : String) : Except SessionError (Regex × Session) := do
  let re ← s.regex source
  s.compile name (Text.ofString re.root.text).toList re.flags

/-- The session without an expression, and whether there was one. -/
def drop (s : Session) (name : String) : Bool × Session :=
  ((s.regexes.find? name).isSome, { s with regexes := s.regexes.remove name })

/-- Whether two expressions have the same tree. -/
def sameTree (s : Session) (a b : String) : Except SessionError Bool := do
  return (← s.regex a).root == (← s.regex b).root

/-- The session with a new cursor of an expression. -/
def openCursor (s : Session) (source name : String) (subject : Text) (pos : Int)
    (dir : Direction) : Except SessionError Session := do
  let re ← s.regex source
  return s.putCursor name ⟨re, subject, pos, dir, .fresh⟩

/-- The next way at a level of a cursor, `none` if there is none left, or the reason why there is no
    answer, with the session that is left. -/
def next (s : Session) (name : String) (level : Level) :
    Except SessionError (Option Outcome) × Session :=
  match s.cursor name with
  | .error e => (.error e, s)
  | .ok c =>
    match c.next? level with
    | some (.found o c) => (.ok (some o), s.putCursor name c)
    | some (.none c) => (.ok none, s.putCursor name c)
    | some (.fault c) => (.error .foreignState, s.putCursor name c)
    | none => (.error .noPart, s)

/-- The session in which a cursor begins afresh. -/
def resetCursor (s : Session) (name : String) : Except SessionError Session := do
  return s.putCursor name (← s.cursor name).reset

end Session

end Retrace
