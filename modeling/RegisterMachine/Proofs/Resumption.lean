import RegisterMachine.Proofs.Step

/-!
# Executing a machine again

Execution can be interrupted and taken up again anywhere.  Whoever makes some of
the steps by hand and then has the rest executed gets the same ending, and an
ending stays what it is: a machine that has come to its end is at its end, and a
machine whose instruction has failed fails again in the same way.  This rests on
instructions that change nothing when they fail, and on a counter that stays at
the instruction that failed.
-/

namespace RegisterMachine

namespace Machine

/-- The machine after one step by hand: the instruction at the counter is
fetched and executed, and the counter is advanced.  There is none if there is
nothing to fetch or the instruction fails. -/
def stepByHand (machine : Machine) : Option Machine :=
  machine.fetch?.bind fun instruction =>
    match instruction.execute machine with
    | .done changed => some changed.advance
    | .failed _ _ => none

def stepsByHand : Nat → Machine → Option Machine
  | 0, machine => some machine
  | count + 1, machine => machine.stepByHand.bind (stepsByHand count)

/-- Execution, which has no budget, comes to this ending. -/
def Executes (machine : Machine) (ending : Ending) : Prop :=
  (∃ budget, machine.run budget = ending) ∧ ∀ later, ending ≠ .paused later

/-- The ending stays the same when execution is taken up behind any of the steps
that lead to it, and when it is taken up at the ending. -/
structure ResumesTo (machine : Machine) (ending : Ending) : Prop where
  steps : ∃ executed, machine.stepsByHand executed = some ending.machine ∧
    ∀ count ≤ executed, ∃ later, machine.stepsByHand count = some later ∧
      ∀ other, later.Executes other ↔ other = ending
  again : ∀ other, ending.machine.Executes other ↔ other = ending

variable {machine later : Machine} {ending : Ending}

theorem stepByHand_eq_some_iff {next : Machine} :
    machine.stepByHand = some next ↔ machine.step = some (.done next) := by
  rw [stepByHand]
  cases fetched : machine.fetch? with
  | none => simp [step, attempt?, fetched]
  | some instruction =>
    cases executed : instruction.execute machine <;>
      simp [step, attempt?, fetched, Attempt.outcome, executed]

/-- Steps by hand are the steps that a run makes before it pauses. -/
theorem stepsByHand_eq_some_iff {count : Nat} :
    machine.stepsByHand count = some later ↔
      machine.run count = .paused later := by
  induction count generalizing machine with
  | zero => simp [stepsByHand, run]
  | succ count induction =>
    rw [stepsByHand, Option.bind_eq_some_iff]
    simp only [stepByHand_eq_some_iff, induction]
    constructor
    · rintro ⟨next, stepped, pauses⟩
      rw [run_of_step count stepped, pauses]
    · intro pauses
      cases stepped : machine.step with
      | none => simp [run, stepped] at pauses
      | some outcome =>
        cases outcome with
        | done next =>
          rw [run_of_step count stepped] at pauses
          exact ⟨next, rfl, pauses⟩
        | failed fault stopped => simp [run, stepped] at pauses

theorem Executes.unique {other : Ending} (executes : machine.Executes ending)
    (again : machine.Executes other) : ending = other := by
  obtain ⟨⟨budget, ended⟩, notPaused⟩ := executes
  obtain ⟨⟨otherBudget, otherEnded⟩, otherNotPaused⟩ := again
  rcases Nat.le_total budget otherBudget with enough | enough
  · exact (run_of_le ended notPaused enough).symm.trans otherEnded
  · exact ended.symm.trans (run_of_le otherEnded otherNotPaused enough)

theorem Executes.eq_iff {other : Ending} (executes : machine.Executes ending) :
    machine.Executes other ↔ other = ending := by
  constructor
  · intro again
    exact again.unique executes
  · rintro rfl
    exact executes

/-- Steps that have been made do not change the ending. -/
theorem executes_iff_of_stepsByHand {count : Nat}
    (made : machine.stepsByHand count = some later) :
    machine.Executes ending ↔ later.Executes ending := by
  have pauses := stepsByHand_eq_some_iff.1 made
  refine and_congr_left fun notPaused => ⟨?_, ?_⟩
  · rintro ⟨budget, ended⟩
    -- A run that has ended has made more steps than one that pauses.
    have more : count < budget := by
      by_contra notMore
      obtain ⟨paused, pausesBefore⟩ := paused_of_le pauses (Nat.not_lt.1 notMore)
      exact notPaused paused (ended.symm.trans pausesBefore)
    obtain ⟨rest, rfl⟩ := Nat.exists_eq_add_of_lt more
    rw [Nat.add_assoc, run_add _ pauses] at ended
    exact ⟨rest + 1, ended⟩
  · rintro ⟨budget, ended⟩
    exact ⟨count + budget, (run_add budget pauses).trans ended⟩

theorem Executes.resumesTo (executes : machine.Executes ending) :
    machine.ResumesTo ending := by
  have ⟨⟨budget, ended⟩, notPaused⟩ := executes
  obtain ⟨executed, _, pauses, _⟩ :=
    (run_eq_iff_of_not_paused notPaused).1 ended
  have behind (count : Nat) (later : Machine)
      (made : machine.stepsByHand count = some later) (other : Ending) :
      later.Executes other ↔ other = ending :=
    ((executes_iff_of_stepsByHand made).1 executes).eq_iff
  have made := stepsByHand_eq_some_iff.2 pauses
  refine ⟨⟨executed, made, ?_⟩, behind executed _ made⟩
  intro count notMore
  obtain ⟨later, pausesBefore⟩ := paused_of_le pauses notMore
  have madeBefore := stepsByHand_eq_some_iff.2 pausesBefore
  exact ⟨later, madeBefore, behind count later madeBefore⟩

/-- Execution that fails stops at an instruction, and leaves the machine as this
instruction found it. -/
theorem Executes.failing_instruction {fault : Fault} {stopped : Machine}
    (fails : machine.Executes (.faulted fault stopped)) :
    ∃ (address : Nat) (instruction : Instruction),
      stopped.counter.address.toInt = address ∧
        machine.instructions[address]? = some instruction ∧
        instruction.execute stopped = .failed fault stopped := by
  obtain ⟨⟨budget, ended⟩, notPaused⟩ := fails
  obtain ⟨_, _, pauses, _⟩ := (run_eq_iff_of_not_paused notPaused).1 ended
  have stepped := step_of_run_faulted ended
  obtain ⟨_, instruction, fetched, _⟩ := step_eq_failed_iff.1 stepped
  obtain ⟨address, value, isInstruction⟩ := fetch?_eq_some_iff.1 fetched
  have sameInstructions := instructions_of_paused pauses
  rw [Ending.machine] at sameInstructions
  rw [sameInstructions] at isInstruction
  refine ⟨address, instruction, value, isInstruction, ?_⟩
  rw [step, attempt?, fetched, Option.map_some, Option.map_some,
    Attempt.outcome] at stepped
  cases executed : instruction.execute stopped with
  | done changed => simp [executed] at stepped
  | failed reason rest => simpa [executed] using stepped

/-- Execution is fail-stop: it leaves the machine at the instruction that failed,
as the steps in front of it left it, and fails in the same way when it is asked
for again.  At its end, where nothing is left to be fetched, it stays, too.  And
it is resumable: behind any number of steps made by hand it comes to the same
ending, if it comes to any. -/
theorem execution_is_resumable (machine : Machine) :
    (∀ ending, machine.Executes ending → machine.ResumesTo ending) ∧
      (∀ fault stopped, machine.Executes (.faulted fault stopped) →
        ∃ (address : Nat) (instruction : Instruction),
          stopped.counter.address.toInt = address ∧
            machine.instructions[address]? = some instruction ∧
            instruction.execute stopped = .failed fault stopped) ∧
      (∀ final, machine.Executes (.halted final) → final.fetch? = none) ∧
      ∀ count later, machine.stepsByHand count = some later →
        ∀ ending, machine.Executes ending ↔ later.Executes ending := by
  refine ⟨fun _ => Executes.resumesTo, fun _ _ => Executes.failing_instruction,
    ?_, fun _ _ made _ => executes_iff_of_stepsByHand made⟩
  rintro final ⟨⟨budget, halts⟩, _⟩
  obtain ⟨_, _, _, ends⟩ := run_eq_halted_iff.1 halts
  exact ends

/-- A machine without a label register, which defines a label in its run and
then fails at an instruction without arguments. -/
def stopsAtMalformed : Machine :=
  (((ofRegisters ["ax"] []).queue
    ⟨.ofMnemonic .inc, [.register "ax", .literal 4]⟩).queue
    ⟨.ofMnemonic .label, [.label "here"]⟩).queue ⟨.ofMnemonic .dec, []⟩

theorem stopsAtMalformed_fails_again :
    ∃ stopped, stopsAtMalformed.Executes
        (.faulted (.wrongArity "dec" ⟨1, 2⟩ 0) stopped) ∧
      stopsAtMalformed.stepsByHand 2 = some stopped ∧
      stopped.read? labelRegister =
        some (.labels (LabelTable.empty.insert "here" 2)) ∧
      stopped.Executes (.faulted (.wrongArity "dec" ⟨1, 2⟩ 0) stopped) := by
  have executes : stopsAtMalformed.Executes (.faulted
      (.wrongArity "dec" ⟨1, 2⟩ 0) (stopsAtMalformed.run 2).machine) :=
    ⟨⟨3, rfl⟩, nofun⟩
  have resumes :=
    (execution_is_resumable stopsAtMalformed).1 _ executes
  exact ⟨_, executes, rfl, rfl, (resumes.again _).2 rfl⟩

end Machine

end RegisterMachine
