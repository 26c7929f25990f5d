import RegisterMachine.Log
import RegisterMachine.Proofs.LargerDialects
import RegisterMachine.Proofs.ReferenceAssembly

/-!
# The log of an assembly

What is reported while a program is assembled, as rules about its text: one rule
for each kind of line, and then the lines of a program in order, up to the first
one that is refused.  The numbers in the entries count the instructions of the
lines in front.  The entries of queued instructions alone list the instructions
of the machine with their addresses.
-/

namespace RegisterMachine

namespace Event

/-- An event as a listener sees it. -/
def entry (event : Event) : Level × String :=
  (event.level, event.message)

def isQueued : Event → Bool
  | queued _ _ => true
  | immediate _ | labelled _ _ _ | started _ | fetched _ _ | stored _ _ _
  | taken _ _ _ | finished _ => false

end Event

namespace Dialect

open Program

/-- The entries of a line that is submitted after the lines `before`. -/
inductive LineLog (dialect : Dialect) (before : Program) (line : Invocation) :
    List (Level × String) → Prop
  | refused {fault : Fault} (refused : dialect.dispatch line = .error fault) :
      LineLog dialect before line []
  | register (accepted : dialect.dispatch line = .ok .ignore) :
      LineLog dialect before line []
  | queued {instruction : Instruction}
      (accepted : dialect.dispatch line = .ok (.queue instruction)) :
      LineLog dialect before line
        [(.debug, "[" ++ toString (instructions before).length ++ "] " ++
          instruction.text)]
  /-- The definition of a label passes the checks of the dialect, but its
  argument is no label. -/
  | malformed {action : Action} (isLabel : line.name = "label")
      (accepted : dialect.dispatch line = .ok action)
      (noLabel : ∀ label, line.arguments ≠ [.label label]) :
      LineLog dialect before line [(.debug, "immediate " ++ line.text)]
  | newLabel {label : Name} (defines : line = ⟨"label", [.label label]⟩)
      (new : ⟨"label", [.label label]⟩ ∉ before) :
      LineLog dialect before line
        [(.debug, "immediate " ++ line.text),
          (.debug, "label " ++ label ++ " = " ++
            Word.text (Int64.ofNat (instructions before).length - 1))]
  | movedLabel {label : Name} {first second : Program}
      (defines : line = ⟨"label", [.label label]⟩)
      (split : before = first ++ ⟨"label", [.label label]⟩ :: second)
      (last : ⟨"label", [.label label]⟩ ∉ second) :
      LineLog dialect before line
        [(.debug, "immediate " ++ line.text),
          (.debug, "label " ++ label ++ " moved from " ++
            Word.text (Int64.ofNat (instructions first).length - 1) ++ " to " ++
            Word.text (Int64.ofNat (instructions before).length - 1))]

/-- The entries of the lines that follow the lines `before`, up to the first
line that is refused. -/
inductive AssemblyLog (dialect : Dialect) :
    Program → Program → List (Level × String) → Prop
  | nil (before : Program) : AssemblyLog dialect before [] []
  | accepted {before rest : Program} {line : Invocation}
      {entries later : List (Level × String)}
      (logged : dialect.LineLog before line entries)
      (acceptable : line.Acceptable dialect.registers)
      (goesOn : AssemblyLog dialect (before ++ [line]) rest later) :
      AssemblyLog dialect before (line :: rest) (entries ++ later)
  | refused {before rest : Program} {line : Invocation}
      {entries : List (Level × String)}
      (logged : dialect.LineLog before line entries)
      (notAcceptable : ¬ line.Acceptable dialect.registers) :
      AssemblyLog dialect before (line :: rest) entries

variable {dialect : Dialect} {line : Invocation} {action : Action}

/-- What is wrong with a register argument is found by the dialect, too. -/
theorem submissionFault?_of_dispatch (submission : Submission)
    (accepted : dialect.dispatch line = .ok action) :
    dialect.submissionFault? submission line = none := by
  cases submission with
  | direct => rfl
  | byReference =>
    refine argumentFault?_eq_none_iff.2 ?_
    rcases dispatch_eq_ok_iff.1 accepted with
      ⟨_, bare, _⟩ | ⟨_, _, _, _, covered, _⟩
    · simp [bare]
    · exact covered

/-- Under the standard operations a definition of a label acts at once, and all
other operations are queued. -/
theorem action_of_dispatch (isStandard : dialect.IsStandard)
    (accepted : dialect.dispatch line = .ok action) :
    action = .ignore ∨
      (∃ instruction, action = .queue instruction) ∨
      ∃ argument, line = ⟨"label", [argument]⟩ ∧
        action = .carryOut ⟨.ofMnemonic .label, [argument]⟩ := by
  rcases dispatch_eq_ok_iff.1 accepted with
    ⟨_, _, rfl⟩ | ⟨operation, isOperation, isName, accepts, _, rfl⟩
  · exact .inl rfl
  right
  rw [isStandard, Operation.standard_eq_map] at isOperation
  obtain ⟨mnemonic, _, rfl⟩ := List.mem_map.1 isOperation
  cases mnemonic with
  | label =>
    right
    obtain ⟨name, arguments⟩ := line
    obtain rfl : name = "label" := by
      simpa [Operation.ofMnemonic, Operation.names, Mnemonic.text,
        Mnemonic.aliases] using isName
    obtain ⟨argument, rfl⟩ : ∃ argument, arguments = [argument] :=
      List.length_eq_one_iff.1 ((Arity.exactly_accepts_iff 1 _).1 accepts)
    exact ⟨argument, rfl, rfl⟩
  | _ => exact .inl ⟨_, rfl⟩

theorem lineLog (isStandard : dialect.IsStandard) (submission : Submission)
    (before : Program) (line : Invocation) :
    dialect.LineLog before line
      ((dialect.submissionEvents submission line
        (assembled dialect.registers before)).map Event.entry) := by
  cases dispatched : dialect.dispatch line with
  | error fault =>
    have silent : dialect.submissionEvents submission line
        (assembled dialect.registers before) = [] := by
      rw [submissionEvents, invocationEvents, dispatched]
      split <;> rfl
    rw [silent]
    exact .refused dispatched
  | ok action =>
    rw [submissionEvents, submissionFault?_of_dispatch submission dispatched]
    simp only [invocationEvents, dispatched]
    rcases action_of_dispatch isStandard dispatched with
      rfl | ⟨instruction, rfl⟩ | ⟨argument, rfl, rfl⟩
    · exact .register dispatched
    · rw [Action.events, queued_assembled]
      exact .queued dispatched
    · cases argument with
      | label label =>
        have reported : Instruction.events
            ⟨.ofMnemonic .label, [.label label]⟩
            (assembled dialect.registers before) =
            [.labelled label ((labelTable before).get? label)
              (Int64.ofNat (instructions before).length - 1)] := by
          rw [← labelTable_assembled (labelRegister_not_mem isStandard) before,
            ← queued_assembled dialect.registers before]
          rfl
        rw [Action.events, reported]
        cases known : (labelTable before).get? label with
        | none =>
          have undefined := get?_labelTable before label
          rw [known, eq_comm, Option.map_eq_none_iff,
            ← Option.not_isSome_iff_eq_none, labelPosition?_isSome_iff]
            at undefined
          exact .newLabel rfl undefined
        | some previous =>
          obtain ⟨first, second, split, last, rfl⟩ :=
            get?_labelTable_eq_some_iff_last.1 known
          exact .movedLabel rfl split last
      | literal value => exact .malformed rfl dispatched nofun
      | register name => exact .malformed rfl dispatched nofun

theorem assemblyLog (isStandard : dialect.IsStandard) (submission : Submission)
    (before rest : Program) :
    dialect.AssemblyLog before rest
      ((dialect.assemblyEvents submission (assembled dialect.registers before)
        rest).map Event.entry) := by
  induction rest generalizing before with
  | nil => exact .nil before
  | cons line rest induction =>
    have logged := lineLog isStandard submission before line
    have acceptable := refusalBy?_eq_none_iff isStandard submission line
    rw [assemblyEvents, submit_assembled isStandard, List.map_append]
    cases refused : line.refusalBy? dialect.registers submission with
    | some fault =>
      rw [refused] at acceptable
      have notAcceptable := acceptable.not.1 nofun
      rw [List.map_nil, List.append_nil]
      exact .refused logged notAcceptable
    | none =>
      exact .accepted logged (acceptable.1 refused)
        (induction (before ++ [line]))

end Dialect

/-- The events list the instructions that `later` has beside those of `machine`,
each with its address. -/
def Machine.QueuesUpTo (machine later : Machine) (events : List Event) : Prop :=
  ∃ added : List Instruction,
    later.instructions.toList = machine.instructions.toList ++ added ∧
      events.filter Event.isQueued =
        (added.zipIdx machine.queued).map fun entry =>
          .queued entry.2 entry.1

namespace Machine

variable {machine later final : Machine} {events more : List Event}

theorem QueuesUpTo.refl (machine : Machine) : machine.QueuesUpTo machine [] :=
  ⟨[], by rw [List.append_nil], rfl⟩

theorem QueuesUpTo.trans (first : machine.QueuesUpTo later events)
    (second : later.QueuesUpTo final more) :
    machine.QueuesUpTo final (events ++ more) := by
  obtain ⟨added, longer, listed⟩ := first
  obtain ⟨addedLater, longerStill, listedLater⟩ := second
  have count : later.queued = machine.queued + added.length := by
    rw [queued, ← Array.length_toList, longer, List.length_append,
      Array.length_toList, queued]
  refine ⟨added ++ addedLater, ?_, ?_⟩
  · rw [longerStill, longer, List.append_assoc]
  · rw [List.filter_append, listed, listedLater, count, List.zipIdx_append,
      List.map_append, Nat.add_comm]

theorem queuesUpTo_of_same (same : later.instructions = machine.instructions)
    (silent : ∀ event ∈ events, event.isQueued = false) :
    machine.QueuesUpTo later events := by
  refine ⟨[], by rw [same, List.append_nil], ?_⟩
  rw [List.zipIdx_nil, List.map_nil, List.filter_eq_nil_iff]
  intro event isEvent
  simp [silent event isEvent]

end Machine

namespace Instruction

variable {instruction : Instruction} {machine : Machine} {event : Event}

/-- An instruction reports its effect and nothing else. -/
theorem exists_effect_of_mem_events
    (reported : event ∈ instruction.events machine) :
    ∃ mnemonic effect, instruction.effect machine = .ok effect ∧
      event ∈ effect.events mnemonic machine := by
  unfold events at reported
  split at reported
  next mnemonic effect _ worked => exact ⟨mnemonic, effect, worked, reported⟩
  next => cases reported

theorem not_isQueued (reported : event ∈ instruction.events machine) :
    event.isQueued = false := by
  obtain ⟨_, effect, _, ofEffect⟩ := exists_effect_of_mem_events reported
  cases effect <;> simp_all [Effect.events, Event.isQueued]

end Instruction

namespace Dialect

variable (dialect : Dialect)

theorem queuesUpTo_submit (submission : Submission) (line : Invocation)
    (machine : Machine) :
    machine.QueuesUpTo (dialect.submit submission line machine).machine
      (dialect.submissionEvents submission line machine) := by
  rw [submit, submissionEvents]
  cases dialect.submissionFault? submission line with
  | some fault => exact .refl machine
  | none =>
    simp only [invoke, invocationEvents]
    cases dialect.dispatch line with
    | error fault => exact .refl machine
    | ok action =>
      cases action with
      | ignore => exact .refl machine
      | queue instruction =>
        exact ⟨[instruction], Array.toList_push, rfl⟩
      | carryOut instruction =>
        have same : (instruction.execute machine).machine.instructions =
            machine.instructions := by
          cases executed : instruction.execute machine with
          | failed fault stopped =>
            rw [Outcome.machine, instruction.machine_of_execute_failed executed]
          | done changed =>
            rw [Instruction.execute] at executed
            cases worked : instruction.effect machine with
            | error fault =>
              rw [worked] at executed
              cases executed
            | ok effect =>
              rw [worked] at executed
              exact Machine.instructions_of_apply executed
        refine Machine.queuesUpTo_of_same same fun event reported => ?_
        rcases List.mem_cons.1 reported with rfl | reported
        · rfl
        · exact Instruction.not_isQueued reported

theorem queuesUpTo_assembleOnto (submission : Submission) (machine : Machine)
    (program : Program) :
    machine.QueuesUpTo
      (dialect.assembleOnto submission machine program).machine
      (dialect.assemblyEvents submission machine program) := by
  induction program generalizing machine with
  | nil => exact .refl machine
  | cons line rest induction =>
    have first := dialect.queuesUpTo_submit submission line machine
    rw [assembleOnto, assemblyEvents]
    cases submitted : dialect.submit submission line machine with
    | done next =>
      rw [submitted] at first
      exact first.trans (induction next)
    | failed fault stopped =>
      rw [submitted] at first
      rw [List.append_nil]
      exact first

/-- The entries of queued instructions list the instructions of the machine in
which assembly ends, also where it stops at a line that is refused. -/
theorem queued_entry (submission : Submission) (program : Program)
    (address : Nat) :
    (((dialect.assemblyEvents submission dialect.machine program).filter
        Event.isQueued).map Event.entry)[address]? =
      ((dialect.assembleOnto submission dialect.machine
        program).machine.instructions[address]?).map fun instruction =>
          (.debug, "[" ++ toString address ++ "] " ++ instruction.text) := by
  obtain ⟨added, longer, listed⟩ :=
    dialect.queuesUpTo_assembleOnto submission dialect.machine program
  have none : dialect.machine.instructions = #[] := rfl
  have count : dialect.machine.queued = 0 := rfl
  rw [none, List.nil_append] at longer
  rw [listed, count, ← Array.getElem?_toList, longer, List.getElem?_map,
    List.getElem?_map, List.getElem?_zipIdx, Option.map_map, Option.map_map,
    Nat.zero_add]
  rfl

end Dialect

end RegisterMachine
