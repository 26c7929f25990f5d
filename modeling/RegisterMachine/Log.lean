import RegisterMachine.Assembly

/-!
# The log of a program

All events of the assembly and the run of a program, in the order in which they
are reported.
-/

namespace RegisterMachine

namespace Dialect

/-- What is reported while a program is assembled, up to and including the first
invocation that is refused. -/
def assemblyEvents (dialect : Dialect) (submission : Submission)
    (machine : Machine) : List Invocation → List Event
  | [] => []
  | invocation :: rest =>
    dialect.submissionEvents submission invocation machine ++
      match dialect.submit submission invocation machine with
      | .done next => assemblyEvents dialect submission next rest
      | .failed _ _ => []

def endingEvents (dialect : Dialect) : Ending → List Event
  | .halted machine =>
    [.finished (dialect.registers.zip (dialect.results machine))]
  | .faulted _ _ | .paused _ => []

def runEvents (dialect : Dialect) (budget : Nat) (machine : Machine) :
    List Event :=
  .started machine.queued ::
    ((machine.attempts budget).flatMap Attempt.events ++
      dialect.endingEvents (machine.run budget))

/-- What is reported about a program that is assembled and then run for at most
`budget` steps. -/
def log (dialect : Dialect) (submission : Submission) (budget : Nat)
    (program : List Invocation) : List Event :=
  dialect.assemblyEvents submission dialect.machine program ++
    match dialect.assembleBy submission program with
    | .ok machine => dialect.runEvents budget machine
    | .error _ => []

end Dialect

end RegisterMachine
