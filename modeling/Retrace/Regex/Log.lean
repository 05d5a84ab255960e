import Retrace.Regex.Search

/-!
# The log

What compiling and searching report as they go: that an expression was compiled, each start position
that is tried, and each match.
-/

namespace Retrace

/-- How detailed a log entry is. -/
inductive LogLevel where
  | debug
  | trace
deriving DecidableEq, Repr

/-- Something that is reported. -/
inductive LogEvent where
  | compiled (re : Regex)
  /-- A start position is tried. -/
  | attempting (start : Nat)
  /-- A match from `start` to `stop` has been found. -/
  | matched (start : Nat) (stop : Int)

namespace LogEvent

/-- The level at which an event is reported. -/
def level : LogEvent → LogLevel
  | attempting _ => .trace
  | compiled _ | matched .. => .debug

/-- The wording of an event. -/
def message : LogEvent → String
  | compiled re =>
    "compiled pattern `" ++ re.root.text ++ "`: " ++ toString re.groupCount ++
    " capture(s), first char " ++
    (match re.firstLiteral? with
      | some cp => "Some(" ++ toString cp ++ ")"
      | none => "None") ++
    ", anchored " ++ (if re.isAnchored then "true" else "false")
  | attempting start => "attempting match at " ++ toString start
  | matched start stop => "match at " ++ toString start ++ ".." ++ toString stop

end LogEvent

namespace Regex

/-- The events of finding the leftmost match. -/
def execEvents (re : Regex) (subject : Text) : List LogEvent :=
  let search := re.search subject
  search.tried.map .attempting ++
    match search.hit with
    | some (start, o) => [.matched start o.index]
    | none => []

/-- The events of finding all matches. Start positions count from the beginning of what is left of
    the subject, matches from the beginning of the subject. -/
def findAllEvents (re : Regex) (subject : Text) : List LogEvent :=
  (re.rounds subject 0).flatMap fun round =>
    round.tried.map .attempting ++
      match round.hit with
      | some c => [.matched c.start c.stop]
      | none => []

end Regex

end Retrace
