import Mathlib.Data.List.Forall2
import RegisterMachine.Run
import RegisterMachine.Proofs.Program

/-!
# Steps of a machine

What a step makes of the parts of a machine, told once for every effect.  The
counter is at an instruction when its address is the number of one; a store
changes the cell of its register, and neither the instructions nor the registers
that the machine keeps for itself.  The attempts of a run are its steps, so they
all succeed when the run does not end in a fault.
-/

namespace RegisterMachine

namespace Counter

/-- The instruction that a counter with this address is at. -/
theorem index?_of_address {counter : Counter} {address : Nat} (size : Nat)
    (value : counter.address.toInt = address) :
    counter.index? size = if address < size then some address else none := by
  by_cases inside : address < size
  · rw [if_pos inside, index?_eq_some_iff]
    exact ⟨value, inside⟩
  · rw [if_neg inside, index?_eq_none_iff]
    omega

theorem toInt_advance {counter : Counter}
    (notLast : counter.address.toInt < 2 ^ 63 - 1) :
    counter.advance.address.toInt = counter.address.toInt + 1 := by
  have one : (1 : Int64).toInt = 1 := by decide
  have lower := Int64.le_toInt counter.address
  rw [advance, Int64.toInt_add, one]
  exact Int.bmod_eq_of_le (by omega) (by omega)

theorem jump_eq (target : Word) :
    jump target =
      if target.toInt < -1 then .error (.invalidAddress target)
      else .ok ⟨target⟩ := by
  have lowest : lowestTarget.toInt = -1 := by decide
  simp only [jump, Int64.lt_iff_toInt_lt, lowest]

theorem jump_of_le {target : Word} (notBefore : -1 ≤ target.toInt) :
    jump target = .ok ⟨target⟩ := by
  rw [jump_eq, if_neg (Int.not_lt.2 notBefore)]

end Counter

namespace Machine

variable {machine : Machine}

theorem fetch?_eq_some_iff {instruction : Instruction} :
    machine.fetch? = some instruction ↔
      ∃ address : Nat, machine.counter.address.toInt = address ∧
        machine.instructions[address]? = some instruction := by
  rw [fetch?, Option.bind_eq_some_iff]
  constructor
  · rintro ⟨address, found, isInstruction⟩
    exact ⟨address, (Counter.index?_eq_some_iff.1 found).1, isInstruction⟩
  · rintro ⟨address, value, isInstruction⟩
    obtain ⟨inside, _⟩ := Array.getElem?_eq_some_iff.1 isInstruction
    exact ⟨address, Counter.index?_eq_some_iff.2 ⟨value, inside⟩, isInstruction⟩

theorem fetch?_eq_none_iff :
    machine.fetch? = none ↔ machine.counter.index? machine.queued = none := by
  constructor
  · intro unfetched
    by_contra inside
    obtain ⟨address, isIndex⟩ := Option.ne_none_iff_exists'.1 inside
    have isInside := (Counter.index?_eq_some_iff.1 isIndex).2
    rw [fetch?, isIndex, Option.bind_some, Array.getElem?_eq_none_iff]
      at unfetched
    exact absurd isInside (Nat.not_lt.2 unfetched)
  · intro outside
    rw [fetch?, outside, Option.bind_none]

/-- A step carries out the effect of the instruction at the counter. -/
theorem step_of_fetch? {instruction : Instruction}
    (fetched : machine.fetch? = some instruction) :
    machine.step =
      some ((Effect.carryOut (instruction.effect machine) machine).andThen
        fun changed => .done changed.advance) := by
  rw [step, attempt?, fetched]
  rfl

theorem step_of_effect {instruction : Instruction} {effect : Effect}
    {changed : Machine} (fetched : machine.fetch? = some instruction)
    (worked : instruction.effect machine = .ok effect)
    (applied : effect.apply machine = .done changed) :
    machine.step = some (.done changed.advance) := by
  rw [step_of_fetch? fetched, worked, Effect.carryOut, applied]
  rfl

theorem step_of_fault {instruction : Instruction} {fault : Fault}
    (fetched : machine.fetch? = some instruction)
    (failed : instruction.effect machine = .error fault) :
    machine.step = some (.failed fault machine) := by
  rw [step_of_fetch? fetched, failed]
  rfl

theorem step_of_apply_failed {instruction : Instruction} {effect : Effect}
    {fault : Fault} (fetched : machine.fetch? = some instruction)
    (worked : instruction.effect machine = .ok effect)
    (failed : effect.apply machine = .failed fault machine) :
    machine.step = some (.failed fault machine) := by
  rw [step_of_fetch? fetched, worked, Effect.carryOut, failed]
  rfl

/-- A jump that is taken leads behind its target. -/
theorem step_of_jump_taken {condition : Condition} {argument : Argument}
    {target : Word}
    (fetched : machine.fetch? =
      some ⟨.ofMnemonic (.jump condition), [argument]⟩)
    (leads : machine.target argument = .ok target)
    (allowed : Counter.jump target = .ok ⟨target⟩)
    (taken : condition.holds machine.comparison = true) :
    machine.step =
      some (.done { machine with counter := ⟨target + 1⟩ }) := by
  have worked : Instruction.effect
      ⟨.ofMnemonic (.jump condition), [argument]⟩ machine =
        Mnemonic.jumpEffect machine condition argument := rfl
  rw [Mnemonic.jumpEffect, if_pos taken, leads] at worked
  have jumped : (Effect.goto target).apply machine =
      .done { machine with counter := ⟨target⟩ } := by
    rw [Effect.apply, jump, allowed]
    rfl
  exact step_of_effect fetched worked jumped

theorem step_of_jump_not_taken {condition : Condition} {argument : Argument}
    (fetched : machine.fetch? =
      some ⟨.ofMnemonic (.jump condition), [argument]⟩)
    (notTaken : ¬ condition.holds machine.comparison = true) :
    machine.step = some (.done machine.advance) := by
  have worked : Instruction.effect
      ⟨.ofMnemonic (.jump condition), [argument]⟩ machine =
        Mnemonic.jumpEffect machine condition argument := rfl
  exact step_of_effect fetched (worked.trans (if_neg notTaken)) rfl

/-- An effect can only be refused for its target. -/
theorem apply_eq_failed_iff {effect : Effect} {fault : Fault}
    {stopped : Machine} :
    effect.apply machine = .failed fault stopped ↔
      stopped = machine ∧ ∃ target : Word, effect = .goto target ∧
        target.toInt < -1 ∧ fault = .invalidAddress target := by
  cases effect with
  | goto target =>
    rw [Effect.apply, jump, Counter.jump_eq]
    by_cases before : target.toInt < -1
    · simp [before, Outcome.ofExcept, Except.map, eq_comm, and_comm]
    · simp [before, Outcome.ofExcept, Except.map]
  | _ => simp [Effect.apply]

theorem apply_goto_eq_done {target : Word} {changed : Machine}
    (applied : (Effect.goto target).apply machine = .done changed) :
    -1 ≤ target.toInt ∧ changed = { machine with counter := ⟨target⟩ } := by
  rw [Effect.apply, jump, Counter.jump_eq] at applied
  by_cases before : target.toInt < -1
  · simp [before, Outcome.ofExcept, Except.map] at applied
  · rw [if_neg before] at applied
    exact ⟨Int.not_lt.1 before, (Outcome.done.inj applied).symm⟩

theorem step_eq_done_iff {next : Machine} :
    machine.step = some (.done next) ↔
      ∃ instruction effect changed, machine.fetch? = some instruction ∧
        instruction.effect machine = .ok effect ∧
        effect.apply machine = .done changed ∧ next = changed.advance := by
  constructor
  · intro stepped
    cases fetched : machine.fetch? with
    | none =>
      rw [step_eq_none_iff.2 fetched] at stepped
      cases stepped
    | some instruction =>
      rw [step_of_fetch? fetched] at stepped
      cases worked : instruction.effect machine with
      | error fault =>
        rw [worked] at stepped
        cases stepped
      | ok effect =>
        rw [worked, Effect.carryOut] at stepped
        cases applied : effect.apply machine with
        | failed fault stopped =>
          rw [applied] at stepped
          cases stepped
        | done changed =>
          rw [applied] at stepped
          cases stepped
          exact ⟨instruction, effect, changed, rfl, worked, applied, rfl⟩
  · rintro ⟨instruction, effect, changed, fetched, worked, applied, rfl⟩
    exact step_of_effect fetched worked applied

/-- A step fails because the instruction has no effect, or because it jumps to
an address before the lowest target. -/
theorem step_eq_failed_iff {fault : Fault} {stopped : Machine} :
    machine.step = some (.failed fault stopped) ↔
      stopped = machine ∧ ∃ instruction, machine.fetch? = some instruction ∧
        (instruction.effect machine = .error fault ∨
          ∃ target : Word, instruction.effect machine = .ok (.goto target) ∧
            target.toInt < -1 ∧ fault = .invalidAddress target) := by
  constructor
  · intro stepped
    cases fetched : machine.fetch? with
    | none =>
      rw [step_eq_none_iff.2 fetched] at stepped
      cases stepped
    | some instruction =>
      rw [step_of_fetch? fetched] at stepped
      cases worked : instruction.effect machine with
      | error fault =>
        rw [worked] at stepped
        cases stepped
        exact ⟨rfl, instruction, rfl, .inl worked⟩
      | ok effect =>
        rw [worked, Effect.carryOut] at stepped
        cases applied : effect.apply machine with
        | done changed =>
          rw [applied] at stepped
          cases stepped
        | failed fault stopped =>
          rw [applied] at stepped
          cases stepped
          obtain ⟨rfl, target, rfl, before, rfl⟩ :=
            apply_eq_failed_iff.1 applied
          exact ⟨rfl, instruction, rfl, .inr ⟨target, worked, before, rfl⟩⟩
  · rintro ⟨rfl, instruction, fetched, failed | ⟨target, worked, before, rfl⟩⟩
    · exact step_of_fault fetched failed
    · exact step_of_apply_failed fetched worked
        (apply_eq_failed_iff.2 ⟨rfl, target, rfl, before, rfl⟩)

theorem read?_write (machine : Machine) (name : Name) (cell : Cell)
    (wanted : Name) :
    (machine.write name cell).read? wanted =
      if wanted = name then (machine.read? wanted).map fun _ => cell
      else machine.read? wanted :=
  RegisterBank.read?_write machine.registers name cell wanted

theorem read?_write_self {name : Name} {cell : Cell}
    (bound : (machine.read? name).isSome) :
    (machine.write name cell).read? name = some cell := by
  obtain ⟨held, reads⟩ := Option.isSome_iff_exists.1 bound
  rw [read?_write, if_pos rfl, reads, Option.map_some]

theorem labels?_write {name : Name} (machine : Machine) (cell : Cell)
    (other : name ≠ labelRegister) :
    (machine.write name cell).labels? = machine.labels? := by
  rw [labels?, read?_write, if_neg (Ne.symm other), labels?]

theorem comparison_write {name : Name} (machine : Machine) (cell : Cell)
    (other : name ≠ comparisonRegister) :
    (machine.write name cell).comparison = machine.comparison := by
  rw [comparison, read?_write, if_neg (Ne.symm other), comparison]

theorem labelTable_setLabels (machine : Machine) (table : LabelTable) :
    (machine.setLabels table).labelTable = table := by
  rw [labelTable, labels?_setLabels, Option.getD_some]

theorem instructions_of_apply {effect : Effect} {changed : Machine}
    (applied : effect.apply machine = .done changed) :
    changed.instructions = machine.instructions := by
  cases effect with
  | goto target =>
    obtain ⟨_, rfl⟩ := apply_goto_eq_done applied
    rfl
  | _ =>
    cases applied
    rfl

theorem instructions_of_step {next : Machine}
    (stepped : machine.step = some (.done next)) :
    next.instructions = machine.instructions := by
  obtain ⟨_, _, changed, _, _, applied, rfl⟩ := step_eq_done_iff.1 stepped
  have unmoved : changed.advance.instructions = changed.instructions := rfl
  rw [unmoved, instructions_of_apply applied]

theorem attempt?_eq_some_iff {attempt : Attempt} :
    machine.attempt? = some attempt ↔
      attempt.before = machine ∧
        machine.fetch? = some attempt.instruction := by
  rw [attempt?, Option.map_eq_some_iff]
  constructor
  · rintro ⟨instruction, fetched, rfl⟩
    exact ⟨rfl, fetched⟩
  · rintro ⟨rfl, fetched⟩
    exact ⟨attempt.instruction, fetched, rfl⟩

theorem step_of_attempt? {attempt : Attempt}
    (attempted : machine.attempt? = some attempt) :
    machine.step = some attempt.outcome := by
  rw [step, attempted, Option.map_some]

theorem run_of_step {next : Machine} (budget : Nat)
    (stepped : machine.step = some (.done next)) :
    machine.run (budget + 1) = next.run budget := by
  rw [run, stepped]

theorem attempts_of_step {attempt : Attempt} {next : Machine} (budget : Nat)
    (attempted : machine.attempt? = some attempt)
    (succeeds : attempt.outcome = .done next) :
    machine.attempts (budget + 1) = attempt :: next.attempts budget := by
  rw [attempts, attempted]
  simp only [succeeds]

/-- A run that has paused can be cut off anywhere. -/
theorem paused_of_le {first second : Nat} {later : Machine}
    (pauses : machine.run second = .paused later) (earlier : first ≤ second) :
    ∃ paused, machine.run first = .paused paused := by
  induction first generalizing machine second with
  | zero => exact ⟨machine, rfl⟩
  | succ first induction =>
    obtain ⟨rest, rfl⟩ := Nat.exists_eq_add_of_le' earlier
    rw [← Nat.add_assoc, run] at pauses
    rw [run]
    cases stepped : machine.step with
    | none => simp [stepped] at pauses
    | some outcome =>
      cases outcome with
      | done next =>
        simp only [stepped] at pauses
        exact induction pauses (by omega)
      | failed fault stopped => simp [stepped] at pauses

/-- The last of the steps before a pause. -/
theorem run_succ_eq_paused_iff {steps : Nat} {later : Machine} :
    machine.run (steps + 1) = .paused later ↔
      ∃ paused attempt, machine.run steps = .paused paused ∧
        paused.attempt? = some attempt ∧ attempt.outcome = .done later := by
  constructor
  · intro pauses
    obtain ⟨paused, pausedBefore⟩ := paused_of_le pauses (Nat.le_succ steps)
    rw [run_add 1 pausedBefore, run] at pauses
    cases attempted : paused.attempt? with
    | none => simp [step, attempted] at pauses
    | some attempt =>
      cases outcome : attempt.outcome with
      | done next =>
        have sameLater : next = later := by
          simpa [step_of_attempt? attempted, outcome, run] using pauses
        exact ⟨paused, attempt, pausedBefore, attempted, sameLater ▸ outcome⟩
      | failed fault stopped =>
        simp [step_of_attempt? attempted, outcome] at pauses
  · rintro ⟨paused, attempt, pausedBefore, attempted, succeeds⟩
    have stepped := step_of_attempt? attempted
    rw [succeeds] at stepped
    rw [run_add 1 pausedBefore, run_of_step 0 stepped, run]

/-- The attempts of a run are made on the machines in which it pauses. -/
theorem getElem?_attempts_eq_some_iff {budget steps : Nat} {attempt : Attempt} :
    (machine.attempts budget)[steps]? = some attempt ↔
      steps < budget ∧ ∃ paused, machine.run steps = .paused paused ∧
        paused.attempt? = some attempt := by
  induction budget generalizing machine steps with
  | zero => simp [attempts]
  | succ budget induction =>
    cases attempted : machine.attempt? with
    | none =>
      cases steps with
      | zero => simp [attempts, attempted, run]
      | succ steps => simp [attempts, attempted, run, step]
    | some first =>
      have stepped := step_of_attempt? attempted
      cases outcome : first.outcome with
      | done next =>
        rw [outcome] at stepped
        rw [attempts_of_step budget attempted outcome]
        cases steps with
        | zero => simp [run, attempted]
        | succ steps =>
          rw [List.getElem?_cons_succ, induction, run_of_step steps stepped,
            Nat.succ_lt_succ_iff]
      | failed fault stopped =>
        cases steps with
        | zero => simp [attempts, attempted, outcome, run]
        | succ steps => simp [attempts, attempted, outcome, run, stepped]

theorem mem_attempts_iff {budget : Nat} {attempt : Attempt} :
    attempt ∈ machine.attempts budget ↔
      ∃ steps < budget, ∃ paused, machine.run steps = .paused paused ∧
        paused.attempt? = some attempt := by
  rw [List.mem_iff_getElem?]
  exact exists_congr fun _ => getElem?_attempts_eq_some_iff

theorem mem_attempts_of_attempt? {attempt : Attempt}
    (attempted : machine.attempt? = some attempt) (budget : Nat) :
    attempt ∈ machine.attempts (budget + 1) :=
  mem_attempts_iff.2 ⟨0, Nat.succ_pos budget, machine, rfl, attempted⟩

theorem mem_attempts_of_le {first second : Nat} {attempt : Attempt}
    (isAttempt : attempt ∈ machine.attempts first) (earlier : first ≤ second) :
    attempt ∈ machine.attempts second := by
  obtain ⟨steps, inBudget, reached⟩ := mem_attempts_iff.1 isAttempt
  exact mem_attempts_iff.2 ⟨steps, Nat.lt_of_lt_of_le inBudget earlier, reached⟩

/-- A program that comes to its end after some steps makes no further
attempt. -/
theorem halts_after {steps budget : Nat} {final : Machine}
    (pauses : machine.run steps = .paused final) (ends : final.fetch? = none)
    (enough : steps < budget) :
    machine.run budget = .halted final ∧
      (machine.attempts budget).length = steps := by
  -- One more than the steps is needed, since the budget is looked at first.
  induction steps generalizing machine budget with
  | zero =>
    obtain rfl : machine = final := by simpa [run] using pauses
    obtain ⟨rest, rfl⟩ := Nat.exists_eq_add_of_lt enough
    simp [run, step, attempts, attempt?, ends]
  | succ steps induction =>
    obtain ⟨rest, rfl⟩ := Nat.exists_eq_add_of_lt enough
    cases attempted : machine.attempt? with
    | none => simp [run, step, attempted] at pauses
    | some attempt =>
      have stepped := step_of_attempt? attempted
      cases succeeds : attempt.outcome with
      | done next =>
        rw [succeeds] at stepped
        rw [run_of_step steps stepped] at pauses
        have enoughLeft : steps < steps + rest + 1 := by omega
        obtain ⟨halts, count⟩ := induction pauses enoughLeft
        have regroup : steps + 1 + rest + 1 = steps + rest + 1 + 1 := by omega
        rw [regroup, run_of_step _ stepped,
          attempts_of_step _ attempted succeeds, List.length_cons, count]
        exact ⟨halts, rfl⟩
      | failed fault stopped => simp [run, stepped, succeeds] at pauses

/-- A run that has ended gains nothing from a larger budget. -/
theorem run_of_le {budget larger : Nat} {ending : Ending}
    (ended : machine.run budget = ending)
    (notPaused : ∀ later, ending ≠ .paused later) (enough : budget ≤ larger) :
    machine.run larger = ending := by
  induction budget generalizing machine larger with
  | zero => exact absurd ended.symm (notPaused machine)
  | succ budget induction =>
    obtain ⟨rest, rfl⟩ := Nat.exists_eq_add_of_le' enough
    rw [← Nat.add_assoc]
    cases stepped : machine.step with
    | none =>
      rw [run, stepped] at ended ⊢
      exact ended
    | some outcome =>
      cases outcome with
      | done next =>
        rw [run_of_step _ stepped] at ended ⊢
        exact induction ended (by omega)
      | failed fault stopped =>
        rw [run, stepped] at ended ⊢
        exact ended

/-- A run ends at the machine that it has come to when there is no further
step. -/
theorem run_eq_iff_of_not_paused {budget : Nat} {ending : Ending}
    (notPaused : ∀ later, ending ≠ .paused later) :
    machine.run budget = ending ↔
      ∃ steps < budget, machine.run steps = .paused ending.machine ∧
        ending.machine.run 1 = ending := by
  constructor
  · intro ended
    induction budget generalizing machine with
    | zero => exact absurd ended.symm (notPaused machine)
    | succ budget induction =>
      cases stepped : machine.step with
      | none =>
        rw [run, stepped] at ended
        subst ended
        exact ⟨0, Nat.succ_pos budget, rfl, by rw [Ending.machine, run, stepped]⟩
      | some outcome =>
        cases outcome with
        | done next =>
          rw [run_of_step budget stepped] at ended
          obtain ⟨steps, enough, pauses, ends⟩ := induction ended
          exact ⟨steps + 1, Nat.succ_lt_succ enough,
            (run_of_step steps stepped).trans pauses, ends⟩
        | failed fault stopped =>
          obtain ⟨rfl, _⟩ := step_eq_failed_iff.1 stepped
          rw [run, stepped] at ended
          subst ended
          exact ⟨0, Nat.succ_pos budget, rfl,
            by rw [Ending.machine, run, stepped]⟩
  · rintro ⟨steps, enough, pauses, ends⟩
    obtain ⟨rest, rfl⟩ := Nat.exists_eq_add_of_lt enough
    rw [Nat.add_assoc, run_add (rest + 1) pauses]
    exact run_of_le ends notPaused (Nat.le_add_left 1 rest)

theorem run_eq_halted_iff {budget : Nat} {final : Machine} :
    machine.run budget = .halted final ↔
      ∃ steps < budget, machine.run steps = .paused final ∧
        final.fetch? = none := by
  rw [run_eq_iff_of_not_paused (by simp)]
  refine exists_congr fun steps => and_congr_right fun _ =>
    and_congr_right fun _ => ?_
  rw [← step_eq_none_iff, Ending.machine]
  cases stepped : final.step with
  | none => simp [run, stepped]
  | some outcome => cases outcome <;> simp [run, stepped]

/-- A run that fails stops at the instruction that fails. -/
theorem step_of_run_faulted {budget : Nat} {fault : Fault} {stopped : Machine}
    (fails : machine.run budget = .faulted fault stopped) :
    stopped.step = some (.failed fault stopped) := by
  obtain ⟨_, _, _, failsAtOnce⟩ :=
    (run_eq_iff_of_not_paused (by simp)).1 fails
  rw [Ending.machine] at failsAtOnce
  cases stepped : stopped.step with
  | none => simp [run, stepped] at failsAtOnce
  | some outcome => cases outcome <;> simp_all [run]

/-- A run that does not end in a fault has made no attempt that fails. -/
theorem attempts_done {budget : Nat}
    (noFault : ∀ fault stopped, machine.run budget ≠ .faulted fault stopped) :
    ∀ attempt ∈ machine.attempts budget,
      ∃ next, attempt.outcome = .done next := by
  intro attempt isAttempt
  obtain ⟨steps, inBudget, paused, pauses, attempted⟩ :=
    mem_attempts_iff.1 isAttempt
  cases outcome : attempt.outcome with
  | done next => exact ⟨next, rfl⟩
  | failed fault stopped =>
    have fails : machine.run (steps + 1) = .faulted fault stopped := by
      rw [run_add 1 pauses, run, step_of_attempt? attempted, outcome]
    exact absurd (run_of_le fails (by simp) inBudget) (noFault fault stopped)

/-- A machine that never fails either comes to its end or never stops. -/
theorem halts_or_goes_on
    (noFault : ∀ budget fault stopped,
      machine.run budget ≠ .faulted fault stopped) :
    (∃ budget final, machine.run budget = .halted final) ∨
      ∀ budget, ∃ later, machine.run budget = .paused later := by
  by_cases halts : ∃ budget final, machine.run budget = .halted final
  · exact .inl halts
  · right
    intro budget
    cases ended : machine.run budget with
    | halted final => exact absurd ⟨budget, final, ended⟩ halts
    | faulted fault stopped => exact absurd ended (noFault budget fault stopped)
    | paused later => exact ⟨later, rfl⟩

section Invariant

variable {invariant : Machine → Prop}

/-- What every successful step keeps holds of the machine in which a run
ends. -/
theorem invariant_run
    (kept : ∀ machine next, invariant machine →
      machine.step = some (.done next) → invariant next)
    (holds : invariant machine) (budget : Nat) :
    invariant (machine.run budget).machine := by
  induction budget generalizing machine with
  | zero => exact holds
  | succ budget induction =>
    cases stepped : machine.step with
    | none =>
      rw [run, stepped]
      exact holds
    | some outcome =>
      cases outcome with
      | done next =>
        rw [run_of_step budget stepped]
        exact induction (kept machine next holds stepped)
      | failed fault stopped =>
        obtain ⟨rfl, _⟩ := step_eq_failed_iff.1 stepped
        rw [run, stepped]
        exact holds

/-- What every successful step keeps holds in front of every attempt. -/
theorem invariant_attempts
    (kept : ∀ machine next, invariant machine →
      machine.step = some (.done next) → invariant next)
    (holds : invariant machine) {budget : Nat} {attempt : Attempt}
    (isAttempt : attempt ∈ machine.attempts budget) :
    invariant attempt.before ∧
      attempt.before.fetch? = some attempt.instruction := by
  obtain ⟨steps, _, paused, pauses, attempted⟩ := mem_attempts_iff.1 isAttempt
  obtain ⟨rfl, fetched⟩ := attempt?_eq_some_iff.1 attempted
  have reached := invariant_run kept holds steps
  rw [pauses] at reached
  exact ⟨reached, fetched⟩

/-- A machine that always comes back after some steps never stops. -/
theorem paused_of_round {length : Nat} (nonempty : 0 < length)
    (round : ∀ machine, invariant machine → ∃ next, invariant next ∧
      ∀ rest, machine.run (rest + length) = next.run rest)
    (holds : invariant machine) (budget : Nat) :
    ∃ later, machine.run budget = .paused later := by
  have rounds : ∃ later, machine.run (length * budget) = .paused later := by
    induction budget generalizing machine with
    | zero => exact ⟨machine, rfl⟩
    | succ budget induction =>
      obtain ⟨next, holdsNext, comesBack⟩ := round machine holds
      rw [Nat.mul_succ, comesBack]
      exact induction holdsNext
  obtain ⟨later, pauses⟩ := rounds
  exact paused_of_le pauses (Nat.le_mul_of_pos_left budget nonempty)

end Invariant

theorem instructions_run (machine : Machine) (budget : Nat) :
    (machine.run budget).machine.instructions = machine.instructions := by
  have kept (first next : Machine)
      (same : first.instructions = machine.instructions)
      (stepped : first.step = some (.done next)) :
      next.instructions = machine.instructions :=
    (instructions_of_step stepped).trans same
  exact invariant_run kept rfl budget

theorem instructions_of_paused {count : Nat} {later : Machine}
    (pauses : machine.run count = .paused later) :
    later.instructions = machine.instructions := by
  have kept := instructions_run machine count
  rwa [pauses] at kept

end Machine

/-- The registers with these names and the flag are the same. -/
def Machine.SameResults (names : List Name) (first second : Machine) : Prop :=
  (∀ name ∈ names, first.read? name = second.read? name) ∧
    first.comparison = second.comparison

/-- Outcomes of the same kind, with the same fault, whose machines are
related. -/
inductive Outcome.Alike (related : Machine → Machine → Prop) :
    Outcome → Outcome → Prop
  | done {first second : Machine} (isRelated : related first second) :
      Alike related (.done first) (.done second)
  | failed {first second : Machine} (fault : Fault)
      (isRelated : related first second) :
      Alike related (.failed fault first) (.failed fault second)

/-- Endings of the same kind, with the same fault, whose machines are
related. -/
inductive Ending.Alike (related : Machine → Machine → Prop) :
    Ending → Ending → Prop
  | halted {first second : Machine} (isRelated : related first second) :
      Alike related (.halted first) (.halted second)
  | faulted {first second : Machine} (fault : Fault)
      (isRelated : related first second) :
      Alike related (.faulted fault first) (.faulted fault second)
  | paused {first second : Machine} (isRelated : related first second) :
      Alike related (.paused first) (.paused second)

theorem Outcome.Alike.mono {related weaker : Machine → Machine → Prop}
    {first second : Outcome} (alike : Alike related first second)
    (weaken : ∀ first second, related first second → weaker first second) :
    Alike weaker first second := by
  cases alike with
  | done isRelated => exact .done (weaken _ _ isRelated)
  | failed fault isRelated => exact .failed fault (weaken _ _ isRelated)

theorem Outcome.Alike.andThen {related : Machine → Machine → Prop}
    {first second : Outcome} {next otherNext : Machine → Outcome}
    (alike : Alike related first second)
    (goesOn : ∀ first second, related first second →
      Alike related (next first) (otherNext second)) :
    Alike related (first.andThen next) (second.andThen otherNext) := by
  cases alike with
  | done isRelated => exact goesOn _ _ isRelated
  | failed fault isRelated => exact .failed fault isRelated

namespace Ending

variable {related : Machine → Machine → Prop} {first second : Ending}

theorem Alike.mono {weaker : Machine → Machine → Prop}
    (weaken : ∀ first second, related first second → weaker first second)
    (alike : Alike related first second) : Alike weaker first second := by
  cases alike with
  | halted isRelated => exact .halted (weaken _ _ isRelated)
  | faulted fault isRelated => exact .faulted fault (weaken _ _ isRelated)
  | paused isRelated => exact .paused (weaken _ _ isRelated)

theorem Alike.machine (alike : Alike related first second) :
    related first.machine second.machine := by
  cases alike <;> assumption

theorem Alike.faulted_of_faulted (alike : Alike related first second)
    {fault : Fault} {stopped : Machine}
    (faults : first = .faulted fault stopped) :
    ∃ otherStopped, second = .faulted fault otherStopped := by
  subst faults
  cases alike with
  | faulted _ isRelated => exact ⟨_, rfl⟩

theorem Alike.pauses_iff (alike : Alike related first second) :
    (∃ later, first = .paused later) ↔ ∃ later, second = .paused later := by
  cases alike <;> simp

end Ending

namespace Machine

variable {related : Machine → Machine → Prop} {first second : Machine}

/-- Machines that stay related from step to step are related at the end of every
run in which the first one does not halt. -/
theorem run_alike_of_not_halted
    (inStep : ∀ first second outcome, related first second →
      first.step = some outcome →
      ∃ other, second.step = some other ∧ Outcome.Alike related outcome other)
    (isRelated : related first second) {budget : Nat}
    (goesOn : ∀ final, first.run budget ≠ .halted final) :
    Ending.Alike related (first.run budget) (second.run budget) := by
  induction budget generalizing first second with
  | zero => exact .paused isRelated
  | succ budget induction =>
    cases stepped : first.step with
    | none =>
      have halts : first.run (budget + 1) = .halted first := by
        rw [run, stepped]
      exact absurd halts (goesOn first)
    | some outcome =>
      obtain ⟨other, otherStepped, alike⟩ :=
        inStep first second outcome isRelated stepped
      cases alike with
      | done stayRelated =>
        rw [run_of_step budget stepped] at goesOn ⊢
        rw [run_of_step budget otherStepped]
        exact induction stayRelated goesOn
      | failed fault stayRelated =>
        rw [run, stepped, run, otherStepped]
        exact .faulted fault stayRelated

/-- Machines that stay related from step to step, and stop together, end all
their runs alike. -/
theorem run_alike
    (inStep : ∀ first second, related first second →
      Option.Rel (Outcome.Alike related) first.step second.step)
    (isRelated : related first second) (budget : Nat) :
    Ending.Alike related (first.run budget) (second.run budget) := by
  have follows : ∀ first second outcome, related first second →
      first.step = some outcome → ∃ other, second.step = some other ∧
        Outcome.Alike related outcome other := by
    intro first second outcome isRelated stepped
    have steps := inStep first second isRelated
    rw [stepped] at steps
    generalize second.step = otherStep at steps ⊢
    cases steps with
    | some alike => exact ⟨_, rfl, alike⟩
  by_cases halts : ∃ final, first.run budget = .halted final
  · -- A budget cut down to the steps that are made lets both machines pause
    -- where they stop.
    obtain ⟨final, halts⟩ := halts
    obtain ⟨steps, enough, pauses, ends⟩ := run_eq_halted_iff.1 halts
    have goesOn (final : Machine) : first.run steps ≠ .halted final := by
      rw [pauses]
      exact nofun
    have pausesAlike := run_alike_of_not_halted follows isRelated goesOn
    rw [pauses] at pausesAlike
    generalize otherPaused : second.run steps = ending at pausesAlike
    cases pausesAlike with
    | @paused _ otherFinal stayRelated =>
      have stop := inStep final otherFinal stayRelated
      rw [step_eq_none_iff.2 ends] at stop
      generalize otherStep : otherFinal.step = outcome at stop
      cases stop
      have otherHalts := run_eq_halted_iff.2
        ⟨steps, enough, otherPaused, step_eq_none_iff.1 otherStep⟩
      rw [halts, otherHalts]
      exact .halted stayRelated
  · rw [not_exists] at halts
    exact run_alike_of_not_halted follows isRelated halts

/-- The attempts of two runs match one by one, and the runs end alike. -/
structure RunsAlike (matched : Attempt → Attempt → Prop)
    (related : Machine → Machine → Prop) (first second : Machine)
    (budget : Nat) : Prop where
  attempts :
    List.Forall₂ matched (first.attempts budget) (second.attempts budget)
  endings : Ending.Alike related (first.run budget) (second.run budget)

namespace RunsAlike

variable {matched : Attempt → Attempt → Prop} {budget : Nat}

theorem mono {weakerMatched : Attempt → Attempt → Prop}
    {weaker : Machine → Machine → Prop}
    (alike : RunsAlike matched related first second budget)
    (weakenMatched : ∀ attempt other, matched attempt other →
      weakerMatched attempt other)
    (weaken : ∀ first second, related first second → weaker first second) :
    RunsAlike weakerMatched weaker first second budget :=
  ⟨alike.attempts.imp weakenMatched, alike.endings.mono weaken⟩

theorem zero (isRelated : related first second) :
    RunsAlike matched related first second 0 :=
  ⟨.nil, .paused isRelated⟩

theorem halted (ends : first.fetch? = none) (otherEnds : second.fetch? = none)
    (isRelated : related first second) :
    RunsAlike matched related first second (budget + 1) := by
  have attempted : first.attempt? = none := Option.map_eq_none_iff.2 ends
  have otherAttempted : second.attempt? = none :=
    Option.map_eq_none_iff.2 otherEnds
  constructor
  · rw [Machine.attempts, attempted, Machine.attempts, otherAttempted]
    exact .nil
  · rw [run, step_eq_none_iff.2 ends, run, step_eq_none_iff.2 otherEnds]
    exact .halted isRelated

/-- Two attempts that match, and whose outcomes are alike, stand in front of two
runs that are alike, or end the runs. -/
theorem cons {between : Machine → Machine → Prop} {attempt other : Attempt}
    (attempted : first.attempt? = some attempt)
    (otherAttempted : second.attempt? = some other)
    (isMatched : matched attempt other)
    (outcomes : Outcome.Alike between attempt.outcome other.outcome)
    (goesOn : ∀ next otherNext, between next otherNext →
      attempt.outcome = .done next → other.outcome = .done otherNext →
      RunsAlike matched related next otherNext budget)
    (stops : ∀ fault stopped otherStopped, between stopped otherStopped →
      attempt.outcome = .failed fault stopped →
      related stopped otherStopped) :
    RunsAlike matched related first second (budget + 1) := by
  have stepped := step_of_attempt? attempted
  have otherStepped := step_of_attempt? otherAttempted
  generalize succeeds : attempt.outcome = outcome at outcomes stepped goesOn stops
  generalize otherSucceeds : other.outcome = otherOutcome
    at outcomes otherStepped goesOn
  cases outcomes with
  | @done next otherNext isBetween =>
    obtain ⟨attempts, endings⟩ := goesOn next otherNext isBetween rfl rfl
    constructor
    · rw [attempts_of_step budget attempted succeeds,
        attempts_of_step budget otherAttempted otherSucceeds]
      exact .cons isMatched attempts
    · rwa [run_of_step budget stepped, run_of_step budget otherStepped]
  | @failed stopped otherStopped fault isBetween =>
    constructor
    · simp only [Machine.attempts, attempted, otherAttempted, succeeds,
        otherSucceeds]
      exact .cons isMatched .nil
    · simp only [run, stepped, otherStepped]
      exact .faulted fault (stops fault stopped otherStopped isBetween rfl)

end RunsAlike

end Machine

end RegisterMachine
