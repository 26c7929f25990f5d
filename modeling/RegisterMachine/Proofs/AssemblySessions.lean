import RegisterMachine.Proofs.ReferenceAssembly

/-!
# Assembly that goes on after a refusal

An assembler can be asked for one thing after the other, and whoever asks can go
on after a request that is refused.  Whether a request is refused is told from
the request and the names of the dialect, so what was asked before makes no
difference, and the machine at the end is the one that the accepted lines build.
-/

namespace RegisterMachine

/-- What an assembler can be asked for. -/
inductive Request where
  /-- To take a line into the program. -/
  | invoke (line : Invocation)
  /-- To write down a reference to a register. -/
  | reference (name : Name)
deriving DecidableEq

namespace Request

/-- The line that a request adds to the program if it is accepted. -/
def line? : Request → Option Invocation
  | invoke line => some line
  | reference _ => none

/-- What is wrong with a request when the user has these registers. -/
def refusal? (registers : List Name) : Request → Option Fault
  | invoke line => line.refusal? registers
  | reference name =>
    if name ∈ registers then none else some (Invocation.strayFault name)

end Request

namespace Dialect

/-- The machine under assembly after a request, with the fault if the request is
refused.  A reference is handed back and not put into the machine. -/
def answer (dialect : Dialect) (request : Request) (machine : Machine) :
    Outcome :=
  match request with
  | .invoke line => dialect.invoke line machine
  | .reference name =>
    match dialect.reference name with
    | .ok _ => .done machine
    | .error fault => .failed fault machine

/-- The machine under assembly after all these requests, refused ones
included. -/
def session (dialect : Dialect) (machine : Machine) (requests : List Request) :
    Machine :=
  requests.foldl (fun machine request => (dialect.answer request machine).machine)
    machine

/-- The lines among these requests that are accepted when their turn comes. -/
def acceptedLines (dialect : Dialect) (machine : Machine) :
    List Request → Program
  | [] => []
  | request :: rest =>
    match dialect.answer request machine with
    | .done next => request.line?.toList ++ acceptedLines dialect next rest
    | .failed _ stopped => acceptedLines dialect stopped rest

variable {dialect : Dialect} {machine : Machine} {request : Request}

/-- This holds in every dialect, whatever its operations are. -/
theorem machine_of_answer_failed {fault : Fault} {stopped : Machine}
    (failed : dialect.answer request machine = .failed fault stopped) :
    stopped = machine := by
  cases request with
  | invoke line => exact machine_of_invoke_failed failed
  | reference name =>
    simp only [answer] at failed
    split at failed
    next => cases failed
    next => exact (Outcome.failed.inj failed).2.symm

open Program

/-- A machine under assembly takes an accepted line, and no notice of any other
request. -/
theorem answer_assembled (isStandard : dialect.IsStandard) (program : Program)
    (request : Request) :
    dialect.answer request (assembled dialect.registers program) =
      match request.refusal? dialect.registers with
      | some fault => .failed fault (assembled dialect.registers program)
      | none =>
        .done (assembled dialect.registers
          (program ++ request.line?.toList)) := by
  cases request with
  | invoke line => exact invoke_assembled isStandard program line
  | reference name =>
    rw [answer, reference, referenceFault?_eq isStandard]
    by_cases isRegister : name ∈ dialect.registers <;>
      simp [Request.refusal?, Request.line?, isRegister]

theorem fault?_answer_assembled (isStandard : dialect.IsStandard)
    (program : Program) (request : Request) :
    (dialect.answer request (assembled dialect.registers program)).fault? =
      request.refusal? dialect.registers := by
  rw [answer_assembled isStandard]
  cases request.refusal? dialect.registers <;> rfl

/-- The accepted lines are what a session adds to the program. -/
theorem session_assembled (isStandard : dialect.IsStandard) (before : Program)
    (requests : List Request) :
    dialect.session (assembled dialect.registers before) requests =
      assembled dialect.registers (before ++
        dialect.acceptedLines (assembled dialect.registers before)
          requests) := by
  induction requests generalizing before with
  | nil => simp [session, acceptedLines]
  | cons request rest induction =>
    rw [session, List.foldl_cons, ← session, acceptedLines,
      answer_assembled isStandard]
    cases request.refusal? dialect.registers with
    | some fault => exact induction before
    | none =>
      have continued := induction (before ++ request.line?.toList)
      rwa [List.append_assoc] at continued

theorem refusal?_of_acceptedLines (isStandard : dialect.IsStandard)
    (before : Program) {requests : List Request} {line : Invocation}
    (isAccepted : line ∈ dialect.acceptedLines
      (assembled dialect.registers before) requests) :
    line.refusal? dialect.registers = none := by
  induction requests generalizing before with
  | nil => cases isAccepted
  | cons request rest induction =>
    rw [acceptedLines, answer_assembled isStandard] at isAccepted
    cases refused : request.refusal? dialect.registers with
    | some fault =>
      rw [refused] at isAccepted
      exact induction before isAccepted
    | none =>
      rw [refused] at isAccepted
      rcases List.mem_append.1 isAccepted with isFirst | isLater
      · cases request with
        | invoke first =>
          obtain rfl : line = first := by
            simpa [Request.line?] using isFirst
          exact refused
        | reference name => simp [Request.line?] at isFirst
      · exact induction _ isLater

/-- Every machine under assembly is that of some program. -/
theorem session_eq_assembled (isStandard : dialect.IsStandard)
    (requests : List Request) :
    dialect.session dialect.machine requests =
      assembled dialect.registers
        (dialect.acceptedLines dialect.machine requests) := by
  have start : dialect.machine = assembled dialect.registers [] :=
    machine_eq isStandard
  rw [start, session_assembled isStandard, List.nil_append]

/-- However a session mixes requests that are accepted and requests that are
refused, a refused one leaves the machine as it was, the machine at the end is
the one that the accepted lines are assembled to by themselves, and what becomes
of a request does not depend on the requests before it. -/
theorem refused_requests_leave_no_trace {registers : List Name}
    (declared : declare registers Operation.standard = .ok dialect)
    (requests : List Request) :
    (∀ request fault stopped,
        dialect.answer request (dialect.session dialect.machine requests) =
          .failed fault stopped →
        stopped = dialect.session dialect.machine requests) ∧
      dialect.assemble (dialect.acceptedLines dialect.machine requests) =
        .ok (dialect.session dialect.machine requests) ∧
      ∀ request others,
        (dialect.answer request
            (dialect.session dialect.machine requests)).fault? =
          (dialect.answer request
            (dialect.session dialect.machine others)).fault? := by
  have isStandard := isStandard_of_declare declared
  refine ⟨fun _ _ _ failed => machine_of_answer_failed failed, ?_, ?_⟩
  · rw [session_eq_assembled isStandard, assemble_eq isStandard]
    have accepted : (dialect.acceptedLines dialect.machine requests).findSome?
        (Invocation.refusal? dialect.registers) = none := by
      rw [List.findSome?_eq_none_iff]
      intro line isAccepted
      rw [machine_eq isStandard] at isAccepted
      exact refusal?_of_acceptedLines isStandard [] isAccepted
    rw [accepted]
  · intro request others
    rw [session_eq_assembled isStandard, session_eq_assembled isStandard,
      fault?_answer_assembled isStandard, fault?_answer_assembled isStandard]

/-- Requests that are refused for an argument that is no register, for a name
that is no register, for a label that is none, and for an unknown name, between
two lines that are accepted. -/
def mixedRequests : List Request :=
  [.invoke ⟨"label", [.label "top"]⟩,
    .invoke ⟨"inc", [.register "ax", .register "mov"]⟩, .reference "mov",
    .invoke ⟨"label", [.literal 3]⟩, .reference "bx", .invoke ⟨"halt", []⟩,
    .invoke ⟨"increment", [.register "ax"]⟩]

theorem mixedRequests_leave_two_lines :
    declare standardRegisters Operation.standard = .ok standard ∧
      standard.assemble
          [⟨"label", [.label "top"]⟩, ⟨"increment", [.register "ax"]⟩] =
        .ok (standard.session standard.machine mixedRequests) ∧
      ∃ stopped, standard.answer (.invoke ⟨"label", [.literal 3]⟩)
          (standard.session standard.machine mixedRequests) =
          .failed (.expectedLabel "label" (.literal 3)) stopped ∧
        stopped = standard.session standard.machine mixedRequests := by
  have declared : declare standardRegisters Operation.standard = .ok standard :=
    declare_eq_ok_iff.2 ⟨rfl, rfl⟩
  obtain ⟨unchanged, assembles, _⟩ :=
    refused_requests_leave_no_trace declared mixedRequests
  have failed : standard.answer (.invoke ⟨"label", [.literal 3]⟩)
      (standard.session standard.machine mixedRequests) =
      .failed (.expectedLabel "label" (.literal 3)) _ := rfl
  exact ⟨declared, assembles, _, failed, unchanged _ _ _ failed⟩

end Dialect

end RegisterMachine
