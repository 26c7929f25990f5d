import RegisterMachine.Event

/-!
# Running a machine

A step executes the instruction at the counter and then advances the counter,
and a run repeats steps until the counter leaves the instructions or an
instruction fails.  Nothing else ends a program, so a run is given a budget of
steps and pauses when it is used up.
-/

namespace RegisterMachine

/-- An instruction with the machine that fetched it. -/
structure Attempt where
  before : Machine
  instruction : Instruction
deriving DecidableEq

namespace Attempt

/-- The outcome of an attempt.  The counter advances after a success only. -/
def outcome (attempt : Attempt) : Outcome :=
  (attempt.instruction.execute attempt.before).andThen fun machine =>
    .done machine.advance

def events (attempt : Attempt) : List Event :=
  .fetched attempt.before.counter attempt.instruction ::
    attempt.instruction.events attempt.before

end Attempt

inductive Ending where
  /-- The counter has left the instructions. -/
  | halted (machine : Machine)
  /-- The instruction at the counter fails. -/
  | faulted (fault : Fault) (machine : Machine)
  /-- The budget is used up. -/
  | paused (machine : Machine)
deriving DecidableEq

namespace Ending

def machine : Ending → Machine
  | halted machine | faulted _ machine | paused machine => machine

end Ending

namespace Machine

/-- The next instruction, with this machine. -/
def attempt? (machine : Machine) : Option Attempt :=
  machine.fetch?.map fun instruction => ⟨machine, instruction⟩

/-- Executes the instruction at the counter and advances, if there is an
instruction. -/
def step (machine : Machine) : Option Outcome :=
  machine.attempt?.map Attempt.outcome

/-- Makes at most `budget` steps.  The budget is looked at first, so a run whose
budget is just used up pauses even if no instruction is left. -/
def run : Nat → Machine → Ending
  | 0, machine => .paused machine
  | budget + 1, machine =>
    match machine.step with
    | none => .halted machine
    | some (.done next) => run budget next
    | some (.failed fault stopped) => .faulted fault stopped

/-- The attempts of a run with this budget, in order. -/
def attempts : Nat → Machine → List Attempt
  | 0, _ => []
  | budget + 1, machine =>
    match machine.attempt? with
    | none => []
    | some attempt =>
      match attempt.outcome with
      | .done next => attempt :: attempts budget next
      | .failed _ _ => [attempt]

@[simp]
theorem step_eq_none_iff {machine : Machine} :
    machine.step = none ↔ machine.fetch? = none := by
  simp [step, attempt?]

/-- A run that pauses goes on as if it had not paused. -/
theorem run_add {machine rest : Machine} {first : Nat} (second : Nat)
    (pauses : machine.run first = .paused rest) :
    machine.run (first + second) = rest.run second := by
  induction first generalizing machine with
  | zero =>
    simp only [run, Ending.paused.injEq] at pauses
    rw [pauses, Nat.zero_add]
  | succ first induction =>
    rw [Nat.succ_add]
    cases stepped : machine.step with
    | none => simp [run, stepped] at pauses
    | some outcome =>
      cases outcome with
      | done next =>
        simp only [run, stepped] at pauses ⊢
        exact induction pauses
      | failed fault stopped => simp [run, stepped] at pauses

end Machine

end RegisterMachine
