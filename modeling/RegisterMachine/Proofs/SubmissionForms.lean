import RegisterMachine.Proofs.ReferenceAssembly

/-!
# The two forms of a program

Whoever hands in a program can submit its lines as they stand, or first ask for
a reference to every register that a line mentions.  The second form finds a
wrong register before anything else about its line, and the first form finds it
last.  So the two can report different faults, but a line that one of them
refuses is refused by the other one too, and the lines that are accepted build
the same machine.
-/

namespace RegisterMachine

namespace Invocation

variable {registers : List Name} {line : Invocation} {submission : Submission}

theorem refusalBy?_of_covered
    (covered : ∀ name, .register name ∈ line.arguments → name ∈ registers) :
    line.refusalBy? registers submission = line.refusal? registers := by
  cases submission with
  | direct => rfl
  | byReference =>
    rw [refusalBy?, strayRegister?_eq_none_iff.2 covered, Option.map_none,
      Option.none_or]

theorem strayRegister?_of_leftmost {front back : List Argument} {name : Name}
    (covered : ∀ other, .register other ∈ front → other ∈ registers)
    (stray : name ∉ registers) :
    strayRegister? registers (front ++ .register name :: back) = some name := by
  have noneInFront := strayRegister?_eq_none_iff.2 covered
  rw [strayRegister?] at noneInFront ⊢
  rw [List.findSome?_append, noneInFront, Option.none_or, List.findSome?_cons]
  simp [Argument.registerName?, Option.filter, stray]

end Invocation

namespace Dialect

open Invocation Program

variable {dialect : Dialect} {submission : Submission} {program : Program}
  {machine : Machine}

/-- The argument that is written down for an argument: a reference if it is a
register, and otherwise the argument itself. -/
def lookUp (dialect : Dialect) : Argument → Except Fault Argument
  | .register name => dialect.reference name
  | .literal value => .ok (.literal value)
  | .label name => .ok (.label name)

/-- Looks the arguments of a line up from left to right and submits the line
with what is written down for them. -/
def invokeLookedUp (dialect : Dialect) (line : Invocation) (machine : Machine) :
    Outcome :=
  match line.arguments.mapM dialect.lookUp with
  | .ok arguments => dialect.invoke ⟨line.name, arguments⟩ machine
  | .error fault => .failed fault machine

theorem lookUp_eq (dialect : Dialect) (argument : Argument) :
    dialect.lookUp argument =
      match argument.registerName?.bind dialect.referenceFault? with
      | some fault => .error fault
      | none => .ok argument := by
  cases argument <;> rfl

theorem argumentFault?_cons (dialect : Dialect) (argument : Argument)
    (rest : List Argument) :
    dialect.argumentFault? (argument :: rest) =
      (argument.registerName?.bind dialect.referenceFault?).or
        (dialect.argumentFault? rest) := by
  rw [argumentFault?, List.findSome?_cons, argumentFault?]
  cases argument.registerName?.bind dialect.referenceFault? <;> rfl

theorem mapM_lookUp (dialect : Dialect) (arguments : List Argument) :
    arguments.mapM dialect.lookUp =
      match dialect.argumentFault? arguments with
      | some fault => .error fault
      | none => .ok arguments := by
  induction arguments with
  | nil => rfl
  | cons argument rest induction =>
    rw [List.mapM_cons, induction, lookUp_eq, argumentFault?_cons]
    cases argument.registerName?.bind dialect.referenceFault? with
    | some fault => rfl
    | none => cases dialect.argumentFault? rest <;> rfl

theorem submit_byReference (dialect : Dialect) (line : Invocation)
    (machine : Machine) :
    dialect.submit .byReference line machine =
      dialect.invokeLookedUp line machine := by
  rw [submit, submissionFault?, invokeLookedUp, mapM_lookUp]
  cases dialect.argumentFault? line.arguments <;> rfl

/-- A program that is refused splits at its first line that is not
acceptable. -/
theorem exists_refused_line (isStandard : dialect.IsStandard) {fault : Fault}
    (refused : dialect.assembleBy submission program = .error fault) :
    ∃ before line after, program = before ++ line :: after ∧
      (∀ earlier ∈ before, earlier.Acceptable dialect.registers) ∧
      line.refusalBy? dialect.registers submission = some fault := by
  rw [assembleBy_eq isStandard] at refused
  cases found :
      program.findSome? (refusalBy? dialect.registers submission) with
  | none =>
    rw [found] at refused
    cases refused
  | some first =>
    rw [found] at refused
    cases refused
    obtain ⟨before, line, after, split, isRefused, accepted⟩ :=
      List.findSome?_eq_some_iff.1 found
    refine ⟨before, line, after, split, ?_, isRefused⟩
    intro earlier isEarlier
    exact (refusalBy?_eq_none_iff isStandard submission earlier).1
      (accepted earlier isEarlier)

/-- What the two forms make of a program whose first line that is not
acceptable is `line`, when both of them have built `machine` from the lines in
front of it. -/
structure RefusedAlike (dialect : Dialect) (line : Invocation)
    (machine : Machine) (fault otherFault : Fault) : Prop where
  direct : dialect.submit .direct line machine = .failed fault machine
  byReference :
    dialect.submit .byReference line machine = .failed otherFault machine
  sameFault :
    (∀ name, .register name ∈ line.arguments → name ∈ dialect.registers) →
      otherFault = fault
  /-- The leftmost argument that is no register of the user is reported. -/
  leftmost : ∀ front name back,
    line.arguments = front ++ .register name :: back →
    (∀ other, .register other ∈ front → other ∈ dialect.registers) →
    name ∉ dialect.registers →
      dialect.reference name = .error otherFault ∧
        ((dialect.operation? name).isSome ∧ otherFault = .notARegister name ∨
          dialect.operation? name = none ∧ otherFault = .unknownName name)

theorem reference_of_stray (isStandard : dialect.IsStandard) {name : Name}
    (stray : name ∉ dialect.registers) :
    dialect.reference name = .error (strayFault name) ∧
      ((dialect.operation? name).isSome ∧
          strayFault name = .notARegister name ∨
        dialect.operation? name = none ∧
          strayFault name = .unknownName name) := by
  refine ⟨?_, ?_⟩
  · rw [reference, referenceFault?_eq isStandard, if_neg stray]
  · rw [operation?_eq isStandard, strayFault]
    cases Mnemonic.named? name <;> simp

theorem refusedAlike (isStandard : dialect.IsStandard) (before : Program)
    {line : Invocation} {fault otherFault : Fault}
    (refused : line.refusalBy? dialect.registers .direct = some fault)
    (otherRefused :
      line.refusalBy? dialect.registers .byReference = some otherFault) :
    dialect.RefusedAlike line (assembled dialect.registers before) fault
      otherFault where
  direct := by
    rw [submit_assembled isStandard, refused]
  byReference := by
    rw [submit_assembled isStandard, otherRefused]
  sameFault := by
    intro covered
    rw [refusalBy?_of_covered covered] at refused otherRefused
    exact Option.some.inj (otherRefused.symm.trans refused)
  leftmost := by
    intro front name back split covered stray
    rw [refusalBy?, split, strayRegister?_of_leftmost covered stray,
      Option.map_some, Option.some_or] at otherRefused
    obtain rfl := Option.some.inj otherRefused
    exact reference_of_stray isStandard stray

/-- Submission by reference, in which every register argument of a line is
looked up from left to right before the line is submitted, accepts the programs
that are accepted as they stand, builds the same machine from them, and so runs
them with the same results.  A program that is refused is refused in both forms
at the same line.  The fault is the same if the register arguments of this line
are registers of the user, and otherwise submission by reference reports the
leftmost one that is not. -/
theorem program_forms_agree {registers : List Name}
    (declared : declare registers Operation.standard = .ok dialect)
    (program : Program) :
    (∀ line machine, dialect.submit .byReference line machine =
        dialect.invokeLookedUp line machine) ∧
      (∀ machine, dialect.assembleBy .byReference program = .ok machine ↔
        dialect.assembleBy .direct program = .ok machine) ∧
      (∀ machine, dialect.assembleBy .direct program = .ok machine →
        ∀ budget, dialect.run .byReference budget program =
          dialect.run .direct budget program) ∧
      ∀ fault, dialect.assembleBy .direct program = .error fault →
        ∃ before line after machine otherFault,
          program = before ++ line :: after ∧
          dialect.assembleBy .direct before = .ok machine ∧
          dialect.assembleBy .byReference before = .ok machine ∧
          dialect.assembleBy .byReference program = .error otherFault ∧
          dialect.RefusedAlike line machine fault otherFault := by
  have isStandard := isStandard_of_declare declared
  have sameMachine (machine : Machine) :
      dialect.assembleBy .byReference program = .ok machine ↔
        dialect.assembleBy .direct program = .ok machine := by
    rw [assembleBy_eq_ok_iff_acceptable isStandard,
      assembleBy_eq_ok_iff_acceptable isStandard]
  refine ⟨dialect.submit_byReference, sameMachine, ?_, ?_⟩
  · intro machine assembles budget
    rw [run, (sameMachine machine).2 assembles, run, assembles]
  · intro fault refused
    obtain ⟨before, line, after, rfl, accepted, isRefused⟩ :=
      exists_refused_line isStandard refused
    have notAcceptable : line.refusalBy? dialect.registers .byReference ≠
        none := by
      rw [ne_eq, refusalBy?_eq_none_iff isStandard,
        ← refusalBy?_eq_none_iff isStandard, isRefused]
      exact Option.some_ne_none fault
    obtain ⟨otherFault, otherRefused⟩ :=
      Option.ne_none_iff_exists'.1 notAcceptable
    have assembles (submission : Submission) :
        dialect.assembleBy submission before =
          .ok (assembled dialect.registers before) :=
      (assembleBy_eq_ok_iff_acceptable isStandard).2 ⟨accepted, rfl⟩
    exact ⟨before, line, after, _, otherFault, rfl, assembles .direct,
      assembles .byReference,
      assembleBy_of_first_refusal isStandard accepted otherRefused,
      refusedAlike isStandard before isRefused otherRefused⟩

/-- A program whose last line has one argument too many, the second of which
names an operation and the third one nothing. -/
def mentionsStrays : Program :=
  [⟨"label", [.label "top"]⟩, ⟨"dec", [.register "ax"]⟩,
    ⟨"inc", [.register "ax", .register "mov", .register "halt"]⟩]

theorem mentionsStrays_refused_for_different_faults :
    declare standardRegisters Operation.standard = .ok standard ∧
      standard.assembleBy .direct mentionsStrays =
        .error (.wrongArity "inc" ⟨1, 2⟩ 3) ∧
      standard.assembleBy .byReference mentionsStrays =
        .error (.notARegister "mov") ∧
      (∃ line ∈ mentionsStrays, ∃ machine, standard.RefusedAlike line machine
        (.wrongArity "inc" ⟨1, 2⟩ 3) (.notARegister "mov")) ∧
      standard.run .byReference 10 (mentionsStrays.take 2) =
        .results [.number (-1), .number 0, .number 0, .number 0] := by
  have declared : declare standardRegisters Operation.standard = .ok standard :=
    declare_eq_ok_iff.2 ⟨rfl, rfl⟩
  have refused : standard.assembleBy .direct mentionsStrays =
      .error (.wrongArity "inc" ⟨1, 2⟩ 3) := rfl
  have otherRefused : standard.assembleBy .byReference mentionsStrays =
      .error (.notARegister "mov") := rfl
  obtain ⟨before, line, after, machine, otherFault, split, _, _, reported,
    alike⟩ := (program_forms_agree declared mentionsStrays).2.2.2 _ refused
  obtain rfl : otherFault = .notARegister "mov" :=
    Except.error.inj (reported.symm.trans otherRefused)
  have inProgram : line ∈ mentionsStrays := by
    rw [split]
    simp
  have sameRun :=
    (program_forms_agree declared (mentionsStrays.take 2)).2.2.1 _ rfl 10
  exact ⟨declared, refused, otherRefused, ⟨line, inProgram, machine, alike⟩,
    sameRun⟩

end Dialect

end RegisterMachine
