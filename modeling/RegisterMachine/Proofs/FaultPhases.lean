import RegisterMachine.Proofs.AssembledRun

/-!
# Faults and the phases in which they are reported

Each kind of fault belongs to one phase: the declaration of a dialect, the
assembly of a program, or its run.  Operations check the number of their
arguments and look up registers in both later phases, but behind assembly these
checks cannot fail any more: what is left for a run are operands of the wrong
kind and jumps without a target.
-/

namespace RegisterMachine

inductive Phase where
  | declaration
  | assembly
  | run
deriving DecidableEq

def Fault.phase : Fault → Phase
  | nameCollision _ => .declaration
  | unknownName _ | notARegister _ | wrongArity _ _ _ | expectedLabel _ _ =>
    .assembly
  | expectedRegister _ _ | notANumber _ _ | notNumeric _ | undefinedLabel _
  | notAnAddress _ | invalidAddress _ => .run

namespace Program

variable {registers : List Name} {program : Program} {machine : Machine}

theorem not_mem_of_get?_labelTable {label : Name}
    (missing : (labelTable program).get? label = none) :
    ⟨"label", [.label label]⟩ ∉ program := by
  intro inProgram
  rw [get?_labelTable, Option.map_eq_none_iff] at missing
  have defined := labelPosition?_isSome_iff.2 inProgram
  rw [missing] at defined
  cases defined

/-- No label leads to an address in front of the program. -/
theorem lowest_le_of_get?_labelTable (short : program.length < 2 ^ 63)
    {label : Name} {address : Word}
    (recorded : (labelTable program).get? label = some address) :
    -1 ≤ address.toInt := by
  obtain ⟨_, _, _, _, value⟩ := (get?_labelTable_eq_some_iff short).1 recorded
  omega

/-- What is known of the fault with which an instruction of an accepted program
fails. -/
structure FailsBecause (registers : List Name) (program : Program)
    (machine : Machine) (instruction : Instruction) (fault : Fault) : Prop where
  phase : fault.phase = .run
  notANumber : ∀ name found, fault = .notANumber name found →
    name ∈ registers ∧ machine.read? name = some found ∧
      ((∃ other, found = .register other) ∨ ∃ label, found = .label label)
  invalidAddress : ∀ target, fault = .invalidAddress target →
    program.length < 2 ^ 63 → target.toInt < -1 ∧ ∃ condition,
      instruction = ⟨.ofMnemonic (.jump condition), [.literal target]⟩
  undefinedLabel : ∀ label, fault = .undefinedLabel label →
    ⟨"label", [.label label]⟩ ∉ program ∧ ∃ condition,
      instruction = ⟨.ofMnemonic (.jump condition), [.label label]⟩

theorem Running.failsBecause_of_refuses {mnemonic : Mnemonic}
    {arguments : List Argument} {fault : Fault}
    (running : Running registers program machine) (notLabel : mnemonic ≠ .label)
    (accepts : mnemonic.arity.accepts arguments.length = true)
    (covered : ∀ name, .register name ∈ arguments → name ∈ registers)
    (refuses : Mnemonic.Refuses machine mnemonic arguments fault) :
    FailsBecause registers program machine ⟨.ofMnemonic mnemonic, arguments⟩
      fault := by
  cases refuses with
  | arity notAccepted =>
    rw [accepts] at notAccepted
    cases notAccepted
  | unbound isArgument unbound =>
    obtain ⟨cell, reads, _⟩ := running.cells _ (covered _ isArgument)
    rw [reads] at unbound
    cases unbound
  | destination amount notRegister => exact ⟨rfl, nofun, nofun, nofun⟩
  | @contents _ _ name cell isArgument reads notNumber =>
    have isRegister := covered name isArgument
    obtain ⟨held, readsHeld, storable⟩ := running.cells name isRegister
    rw [reads] at readsHeld
    obtain rfl := Option.some.inj readsHeld
    refine ⟨rfl, ?_, nofun, nofun⟩
    rintro _ _ ⟨⟩
    refine ⟨isRegister, reads, ?_⟩
    cases storable with
    | number value => exact absurd rfl (notNumber value)
    | register _ => exact .inl ⟨_, rfl⟩
    | label _ _ => exact .inr ⟨_, rfl⟩
  | amount destination name => exact ⟨rfl, nofun, nofun, nofun⟩
  | label _ => exact absurd rfl notLabel
  | @undefined condition name undefined =>
    refine ⟨rfl, nofun, nofun, ?_⟩
    rintro _ ⟨⟩
    rw [running.labelTable] at undefined
    exact ⟨not_mem_of_get?_labelTable undefined, condition, rfl⟩
  | register condition name => exact ⟨rfl, nofun, nofun, nofun⟩

theorem Running.failsBecause_of_target {mnemonic : Mnemonic}
    {arguments : List Argument} {target : Word}
    (running : Running registers program machine)
    (yields : Mnemonic.Yields machine mnemonic arguments (.goto target))
    (before : target.toInt < -1) :
    FailsBecause registers program machine ⟨.ofMnemonic mnemonic, arguments⟩
      (.invalidAddress target) := by
  refine ⟨rfl, nofun, ?_, nofun⟩
  rintro _ ⟨⟩ short
  refine ⟨before, ?_⟩
  cases yields with
  | @leap condition argument _ _ found =>
    cases argument with
    | literal address =>
      cases found
      exact ⟨condition, rfl⟩
    | register name => cases found
    | label name =>
      -- The address of a label is never that low.
      rw [Machine.target_label, running.labelTable] at found
      cases recorded : (Program.labelTable program).get? name with
      | none =>
        rw [recorded] at found
        cases found
      | some address =>
        rw [recorded] at found
        obtain rfl := Except.ok.inj found
        have bound := lowest_le_of_get?_labelTable short recorded
        omega

theorem Running.failsBecause {fault : Fault} {stopped : Machine}
    (running : Running registers program machine)
    (accepted : Accepted registers program)
    (failed : machine.step = some (.failed fault stopped)) :
    stopped = machine ∧ ∃ instruction, machine.fetch? = some instruction ∧
      FailsBecause registers program machine instruction fault := by
  obtain ⟨rfl, instruction, fetched, reason⟩ :=
    Machine.step_eq_failed_iff.1 failed
  obtain ⟨line, _, mnemonic, _, notLabel, rfl, accepts, covered⟩ :=
    accepted.line_of_instruction (running.mem_instructions fetched)
  refine ⟨rfl, _, fetched, ?_⟩
  rcases reason with refused | ⟨target, worked, before, rfl⟩
  · exact running.failsBecause_of_refuses notLabel accepts covered
      (Mnemonic.refuses_of_effect refused)
  · exact running.failsBecause_of_target (Mnemonic.effect_eq_ok_iff.1 worked)
      before

end Program

namespace Invocation

variable {registers : List Name} {line : Invocation}

theorem phase_strayFault (name : Name) :
    (strayFault name).phase = .assembly := by
  unfold strayFault
  split <;> rfl

theorem phase_labelFault? {mnemonic : Mnemonic} {arguments : List Argument}
    {fault : Fault} (refused : labelFault? mnemonic arguments = some fault) :
    fault.phase = .assembly := by
  unfold labelFault? at refused
  split at refused
  next => cases refused
  next =>
    cases refused
    rfl
  next => cases refused

theorem phase_refusal? {fault : Fault}
    (refused : line.refusal? registers = some fault) :
    fault.phase = .assembly := by
  unfold refusal? at refused
  split at refused
  next =>
    split at refused
    next => cases refused
    next =>
      cases refused
      rfl
  next =>
    split at refused
    next =>
      cases refused
      rfl
    next mnemonic _ =>
      split at refused
      next =>
        split at refused
        next name _ =>
          cases refused
          exact phase_strayFault name
        next => exact phase_labelFault? refused
      next =>
        cases refused
        rfl

theorem phase_refusalBy? {submission : Submission} {fault : Fault}
    (refused : line.refusalBy? registers submission = some fault) :
    fault.phase = .assembly := by
  cases submission with
  | direct => exact phase_refusal? refused
  | byReference =>
    rcases Option.or_eq_some_iff.1 refused with stray | ⟨_, refused⟩
    · obtain ⟨name, _, rfl⟩ := Option.map_eq_some_iff.1 stray
      exact phase_strayFault name
    · exact phase_refusal? refused

end Invocation

namespace Dialect

open Program

variable {dialect : Dialect} {program : Program} {machine : Machine}
  {submission : Submission}

theorem phase_of_declare {registers : List Name} {operations : List Operation}
    {fault : Fault} (refused : declare registers operations = .error fault) :
    fault.phase = .declaration := by
  unfold declare at refused
  split at refused
  next =>
    cases refused
    rfl
  next => cases refused

/-- Submission by reference accepts no line that is refused otherwise. -/
theorem submit_eq_done {line : Invocation} {next : Machine}
    (done : dialect.submit submission line machine = .done next) :
    dialect.submit .direct line machine = .done next :=
  submit_eq_done_iff.2 ⟨rfl, (submit_eq_done_iff.1 done).2⟩

theorem assembleOnto_eq_done {final : Machine}
    (done : dialect.assembleOnto submission machine program = .done final) :
    dialect.assembleOnto .direct machine program = .done final := by
  induction program generalizing machine with
  | nil => exact done
  | cons line rest induction =>
    obtain ⟨next, submitted, done⟩ := assembleOnto_cons_eq_done_iff.1 done
    exact assembleOnto_cons_eq_done_iff.2
      ⟨next, submit_eq_done submitted, induction done⟩

theorem assemble_of_assembleBy
    (assembles : dialect.assembleBy submission program = .ok machine) :
    dialect.assemble program = .ok machine :=
  assembleBy_eq_ok_iff.2
    (assembleOnto_eq_done (assembleBy_eq_ok_iff.1 assembles))

theorem phase_of_assembleBy (isStandard : dialect.IsStandard) {fault : Fault}
    (refused : dialect.assembleBy submission program = .error fault) :
    fault.phase = .assembly := by
  rw [assembleBy_eq isStandard] at refused
  cases found : program.findSome?
      (Invocation.refusalBy? dialect.registers submission) with
  | none =>
    rw [found] at refused
    cases refused
  | some reason =>
    rw [found] at refused
    cases refused
    obtain ⟨line, _, isRefused⟩ := List.exists_of_findSome?_eq_some found
    exact Invocation.phase_refusalBy? isRefused

/-- Every fault is reported in the phase to which it belongs.  When an assembled
program fails, the register that holds no number is one of the user and holds an
identity or a label, an invalid address was written as a literal, and no line
defines the label that is undefined.  That no label leads to an invalid address
is said of programs of less than `2 ^ 63` lines, as addresses of longer ones
would wrap. -/
theorem faults_keep_to_their_phase (registers : List Name) (program : Program) :
    (∀ operations fault, declare registers operations = .error fault →
        fault.phase = .declaration) ∧
      ∀ dialect submission,
        declare registers Operation.standard = .ok dialect →
        (∀ fault, dialect.assembleBy submission program = .error fault →
          fault.phase = .assembly) ∧
        ∀ machine, dialect.assembleBy submission program = .ok machine →
          ∀ budget fault stopped,
            machine.run budget = .faulted fault stopped →
            ∃ instruction, stopped.fetch? = some instruction ∧
              FailsBecause registers program stopped instruction fault := by
  refine ⟨fun _ _ => phase_of_declare, ?_⟩
  intro dialect submission declared
  have isStandard := isStandard_of_declare declared
  obtain rfl := registers_of_declare declared
  refine ⟨fun _ => phase_of_assembleBy isStandard, ?_⟩
  intro machine assembles budget fault stopped fails
  obtain ⟨accepted, rfl⟩ :=
    accepted_of_assemble isStandard (assemble_of_assembleBy assembles)
  have running := (running_assembled accepted).run accepted budget
  rw [fails] at running
  have failed := Machine.step_of_run_faulted fails
  exact (running.failsBecause accepted failed).2

theorem storesSymbols_fails_in_its_run :
    (∃ fault, declare ["ax", "bool"] Operation.standard = .error fault ∧
        fault.phase = .declaration) ∧
      declare standardRegisters Operation.standard = .ok standard ∧
      (∃ fault,
        standard.assembleBy .byReference [⟨"inc", [.register "mov"]⟩] =
          .error fault ∧ fault.phase = .assembly) ∧
      ∃ machine stopped instruction,
        standard.assembleBy .direct storesSymbols = .ok machine ∧
        machine.run 10 = .faulted (.notANumber "ax" (.register "bx")) stopped ∧
        FailsBecause standardRegisters storesSymbols stopped instruction
          (.notANumber "ax" (.register "bx")) := by
  have declared : declare standardRegisters Operation.standard = .ok standard :=
    declare_eq_ok_iff.2 ⟨rfl, rfl⟩
  have collides : declare ["ax", "bool"] Operation.standard =
      .error (.nameCollision "bool") := rfl
  obtain ⟨instruction, _, because⟩ :=
    ((faults_keep_to_their_phase standardRegisters storesSymbols).2 standard
      .direct declared).2 _ rfl 10 _ _ rfl
  exact ⟨⟨_, collides,
      (faults_keep_to_their_phase ["ax", "bool"] []).1 _ _ collides⟩,
    declared,
    ⟨_, rfl, ((faults_keep_to_their_phase standardRegisters
      [⟨"inc", [.register "mov"]⟩]).2 standard .byReference declared).1 _ rfl⟩,
    _, _, instruction, rfl, rfl, because⟩

end Dialect

end RegisterMachine
