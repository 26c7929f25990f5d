import RegisterMachine.CommandLine

/-!
# The command

Prints the reply of the command line to its arguments.
-/

open RegisterMachine in
def main (arguments : List String) : IO UInt32 := do
  match CommandLine.respond arguments with
  | .ok reply =>
    IO.print reply.output
    IO.eprint reply.errors
    return reply.exitCode
  | .error usageError =>
    IO.eprintln usageError.message
    return 2
