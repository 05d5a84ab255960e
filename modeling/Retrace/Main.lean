import Retrace.CommandLine

/-!
# The program

Answers one call of the command line. The usage goes to the error output if the arguments are wrong.
-/

/-- Runs the command line. -/
def main (args : List String) : IO UInt32 := do
  let answer := Retrace.CommandLine.run args
  IO.print answer.stdout
  if answer.status ≠ 0 then
    IO.eprint Retrace.CommandLine.usage
  return answer.status.toUInt32
