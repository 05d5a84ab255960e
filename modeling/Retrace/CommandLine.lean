import Retrace.Regex.Search
import Retrace.Syntax.Outline

/-!
# The command line

Matches a pattern against an input and prints what was found: the first match with its groups, or
every match. Options may stand before, between and behind the two operands, short ones joined behind
one hyphen; each may be given once. Behind `--` everything is an operand. Arguments are read from
left to right, and the first one that is wrong, or asks for help, decides.

Results:

* `readFrom_separator`: operands behind `--` are taken as they are, as long as there is room for
  them.
-/

namespace Retrace.CommandLine

/-- The options of a call. -/
inductive Switch where
  | ignoreCase
  | multiline
  | all
  | tree
deriving DecidableEq, Repr

/-- What a call asks for. -/
structure Call where
  switches : List Switch
  /-- The pattern and the input, as far as they have been given. -/
  operands : List String
deriving DecidableEq, Repr

/-- The answer to a call: what is printed, and the exit status. -/
structure Answer where
  status : Nat
  stdout : String
deriving DecidableEq, Repr

/-- How reading the arguments goes wrong or is cut short. -/
inductive Stop where
  | usage
  | help
deriving DecidableEq, Repr

/-- The option with the given long name. -/
def longSwitch? : String → Option Switch
  | "ignore-case" => some .ignoreCase
  | "multiline" => some .multiline
  | "all" => some .all
  | "tree" => some .tree
  | _ => none

/-- The option with the given letter. -/
def shortSwitch? : Char → Option Switch
  | 'i' => some .ignoreCase
  | 'm' => some .multiline
  | _ => none

namespace Call

/-- The call with one more option, which must not be there yet. -/
def addSwitch (call : Call) (s : Switch) : Except Stop Call :=
  if s ∈ call.switches then .error .usage else .ok { call with switches := s :: call.switches }

/-- The call with one more operand. There are two, the pattern and the input. -/
def addOperand (call : Call) (operand : String) : Except Stop Call :=
  if call.operands.length < 2 then .ok { call with operands := call.operands ++ [operand] }
  else .error .usage

/-- The call with the options of letters behind one hyphen. -/
def addLetters (call : Call) : List Char → Except Stop Call
  | [] => .ok call
  | c :: cs =>
    if c = 'h' then .error .help
    else match shortSwitch? c with
      | some s => do (← call.addSwitch s).addLetters cs
      | none => .error .usage

end Call

/-- The call that arguments make, where `call` holds those already read. -/
def readFrom (call : Call) : List String → Except Stop Call
  | [] => .ok call
  | arg :: args =>
    match arg.toList with
    | ['-', '-'] => args.foldlM Call.addOperand call
    | '-' :: '-' :: name =>
      if String.ofList name = "help" then .error .help
      else match longSwitch? (String.ofList name) with
        | some s => do readFrom (← call.addSwitch s) args
        | none => .error .usage
    | '-' :: c :: cs => do readFrom (← call.addLetters (c :: cs)) args
    | _ => do readFrom (← call.addOperand arg) args

/-- The call that arguments make. -/
def read? (args : List String) : Except Stop Call := readFrom ⟨[], []⟩ args

/-- Operands are added one after another as long as there are at most two. -/
theorem foldlM_addOperand (call : Call) (args : List String)
    (h : call.operands.length + args.length ≤ 2) :
    args.foldlM Call.addOperand call = .ok { call with operands := call.operands ++ args } := by
  induction args generalizing call with
  | nil => simp [pure, Except.pure]
  | cons arg args ih =>
    rw [List.length_cons] at h
    have hadd : call.addOperand arg = .ok { call with operands := call.operands ++ [arg] } :=
      if_pos (by omega)
    rw [List.foldlM_cons, hadd]
    have := ih { call with operands := call.operands ++ [arg] }
      (by rw [List.length_append, List.length_singleton]; omega)
    simpa [bind, Except.bind] using this

theorem readFrom_separator (call : Call) (args : List String)
    (h : call.operands.length + args.length ≤ 2) :
    readFrom call ("--" :: args) = .ok { call with operands := call.operands ++ args } :=
  foldlM_addOperand call args h

/-- The lines for the first match and its groups. -/
def reportFirst : Option Match → String
  | none => "NO_MATCH\n"
  | some m =>
    "MATCH:" ++ m.whole.text ++ "\n" ++
    String.join ((m.toList.zipIdx.drop 1).map fun (group, n) =>
      "GROUP " ++ toString n ++ ":" ++ ((group.map Capture.text).getD "") ++ "\n")

/-- The lines for all matches. -/
def reportAll : List Capture → String
  | [] => "NO_MATCH\n"
  | cs => String.join (cs.map fun c =>
    "MATCH " ++ toString c.start ++ ".." ++ toString c.stop ++ ":" ++ c.text ++ "\n")

/-- What is printed for a pattern and an input. -/
def report (switches : List Switch) (pattern input : String) : String :=
  let flags : Flags := ⟨switches.contains .ignoreCase, switches.contains .multiline⟩
  match Regex.compile (Text.ofString pattern).toList flags with
  | .error e => "ERROR:" ++ e.message ++ "\n"
  | .ok re =>
    (if switches.contains .tree then re.root.outlineText else "") ++
    (if switches.contains .all then reportAll (re.findAll (Text.ofString input))
      else reportFirst (re.exec? (Text.ofString input)))

/-- How the program is called. -/
def usage : String :=
  "Usage: retrace [-i|--ignore-case] [-m|--multiline] [--all] [--tree] [--] PATTERN INPUT\n"

/-- The answer to a call with the given arguments. Wrong arguments print nothing and have the status
    two; a pattern that does not compile is reported like a result. -/
def run (args : List String) : Answer :=
  match read? args with
  | .error .help => ⟨0, usage⟩
  | .error .usage => ⟨2, ""⟩
  | .ok call =>
    match call.operands with
    | [pattern, input] => ⟨0, report call.switches pattern input⟩
    | _ => ⟨2, ""⟩

end Retrace.CommandLine
