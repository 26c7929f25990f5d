import Mathlib.Data.List.Chain
import RegisterMachine.Proofs.CounterRange
import RegisterMachine.Proofs.Resumption

/-!
# Programs that jump forward only

A jump leads behind its target.  So a program in which every jump has its target
at its own address or further on never comes back to an instruction, and it ends
after at most as many attempts as it has instructions.  The number of
instructions from the counter on decreases with every step, also with a jump to
the highest word, where the counter wraps around: it then lies in front of all
instructions, where nothing is left to be fetched.
-/

namespace RegisterMachine

def Attempt.address (attempt : Attempt) : Int :=
  attempt.before.counter.address.toInt

def Instruction.isJump (instruction : Instruction) : Bool :=
  match instruction.operation.performs with
  | some (.jump _) => true
  | _ => false

namespace Machine

/-- The argument of a jump at `address` leads to the jump itself or to an
instruction before it, since execution goes on behind the target.  A jump that is
taken fails with a register, with a label without an address, or with an address
before the lowest target, so these lead nowhere. -/
def LeadsBack (machine : Machine) (address : Nat) : Argument → Prop
  | .literal target => -1 ≤ target.toInt ∧ target.toInt < address
  | .label name =>
    ∃ recorded ∈ machine.labelTable.get? name, recorded.toInt < address
  | .register _ => False

/-- No jump leads back. -/
def JumpsForward (machine : Machine) : Prop :=
  ∀ address < machine.queued,
    ∀ instruction ∈ machine.instructions[address]?, instruction.isJump →
      ∀ argument ∈ instruction.arguments, ¬ machine.LeadsBack address argument

def WithoutJumps (machine : Machine) : Prop :=
  ∀ instruction ∈ machine.instructions.toList, instruction.isJump = false

instance (machine : Machine) (address : Nat) (argument : Argument) :
    Decidable (machine.LeadsBack address argument) :=
  match argument with
  | .literal target =>
    inferInstanceAs (Decidable (-1 ≤ target.toInt ∧ target.toInt < address))
  | .label name =>
    inferInstanceAs (Decidable
      (∃ recorded ∈ machine.labelTable.get? name, recorded.toInt < address))
  | .register _ => inferInstanceAs (Decidable False)

instance (machine : Machine) : Decidable machine.JumpsForward :=
  inferInstanceAs (Decidable (∀ address < machine.queued,
    ∀ instruction ∈ machine.instructions[address]?, instruction.isJump →
      ∀ argument ∈ instruction.arguments, ¬ machine.LeadsBack address argument))

instance (machine : Machine) : Decidable machine.WithoutJumps :=
  inferInstanceAs (Decidable
    (∀ instruction ∈ machine.instructions.toList, instruction.isJump = false))

/-- The number of instructions from the counter on.  There are none when the
counter has left the instructions. -/
def remaining (machine : Machine) : Nat :=
  if 0 ≤ machine.counter.address.toInt then
    machine.queued - machine.counter.address.toInt.toNat
  else
    0

variable {machine : Machine} {attempt : Attempt}

theorem remaining_le_queued (machine : Machine) :
    machine.remaining ≤ machine.queued := by
  rw [remaining]
  split <;> omega

theorem remaining_of_address {address : Nat}
    (value : machine.counter.address.toInt = address) :
    machine.remaining = machine.queued - address := by
  rw [remaining, value, if_pos (Int.natCast_nonneg address), Int.toNat_natCast]

/-- A jump that is taken, and does not lead back, has its target at its own
address or further on. -/
theorem target_of_leaps (forward : machine.JumpsForward)
    (attempted : machine.attempt? = some attempt) {argument : Argument}
    {target : Word} (leaps : attempt.Leaps argument target)
    (notBefore : -1 ≤ target.toInt) :
    machine.counter.address.toInt ≤ target.toInt := by
  obtain ⟨rfl, fetched⟩ := attempt?_eq_some_iff.1 attempted
  obtain ⟨address, value, found⟩ := fetch?_eq_some_iff.1 fetched
  obtain ⟨inside, _⟩ := Array.getElem?_eq_some_iff.1 found
  obtain ⟨condition, isLine, _, leadsTo⟩ := leaps
  have isJump : attempt.instruction.isJump := by
    rw [isLine]
    rfl
  have isArgument : argument ∈ attempt.instruction.arguments := by
    rw [isLine]
    exact List.mem_singleton.2 rfl
  have notBack := forward address inside _ found isJump argument isArgument
  rw [value]
  cases argument with
  | literal _ =>
    cases leadsTo
    exact Int.not_lt.1 fun before => notBack ⟨notBefore, before⟩
  | label name =>
    rw [target_label] at leadsTo
    cases defined : attempt.before.labelTable.get? name with
    | none => simp [defined] at leadsTo
    | some recorded =>
      rw [defined] at leadsTo
      cases leadsTo
      exact Int.not_lt.1 fun before => notBack ⟨target, defined, before⟩
  | register name => cases leadsTo

theorem jumpsForward_of_withoutJumps (straight : machine.WithoutJumps) :
    machine.JumpsForward := by
  intro address _ instruction found isJump
  have notJump := straight instruction
    (Array.mem_toList_iff.2 (Array.mem_of_getElem? found))
  rw [notJump] at isJump
  cases isJump

end Machine

namespace Program

variable {registers : List Name} {program : Program} {machine : Machine}
  {attempt : Attempt} {next : Machine}

/-- Whether a program leads back does not change while it runs. -/
theorem Running.jumpsForward (running : Running registers program machine)
    (later : Running registers program next) (forward : machine.JumpsForward) :
    next.JumpsForward := by
  have sameInstructions : next.instructions = machine.instructions :=
    later.instructions.trans running.instructions.symm
  have sameLabels : next.labelTable = machine.labelTable :=
    later.labelTable.trans running.labelTable.symm
  have sameWay (address : Nat) (argument : Argument) :
      next.LeadsBack address argument = machine.LeadsBack address argument := by
    cases argument with
    | label name => rw [Machine.LeadsBack, sameLabels, Machine.LeadsBack]
    | literal target => rfl
    | register name => rfl
  rw [Machine.JumpsForward, Machine.queued, sameInstructions]
  simp only [sameWay]
  exact forward

/-- A step forward increases the address, unless the counter wraps around. -/
theorem Running.address_increases (running : Running registers program machine)
    (accepted : Accepted registers program)
    (small : (Program.instructions program).length < 2 ^ 63)
    (forward : machine.JumpsForward)
    (attempted : machine.attempt? = some attempt)
    (succeeds : attempt.outcome = .done next) :
    machine.counter.address.toInt < next.counter.address.toInt ∨
      next.counter.address.toInt < 0 := by
  rcases running.counter_of_attempt accepted attempted succeeds with
    ⟨argument, target, leaps, notBefore, counter⟩ | ⟨_, counter⟩
  · have ahead := Machine.target_of_leaps forward attempted leaps notBefore
    rcases Counter.toInt_advance_or target with behind | rfl
    · left
      rw [counter, behind]
      omega
    · right
      rw [counter, Counter.toInt_advance_maxValue]
      decide
  · left
    rw [counter, running.counter_ahead small attempted]
    omega

/-- The instructions from the counter on become fewer with every step. -/
theorem Running.remaining_lt (running : Running registers program machine)
    (accepted : Accepted registers program)
    (small : (Program.instructions program).length < 2 ^ 63)
    (forward : machine.JumpsForward)
    (attempted : machine.attempt? = some attempt)
    (succeeds : attempt.outcome = .done next) :
    next.remaining < machine.remaining := by
  obtain ⟨address, value, inside⟩ := running.address_of_attempt attempted
  have stepped := Machine.step_of_attempt? attempted
  rw [succeeds] at stepped
  have runningNext := running.step accepted stepped
  have ahead :=
    running.address_increases accepted small forward attempted succeeds
  rw [Machine.remaining_of_address value, Machine.remaining, running.queued,
    runningNext.queued]
  split <;> omega

/-- A run makes at most as many attempts as there are instructions from the
counter on. -/
theorem Running.length_attempts_le (running : Running registers program machine)
    (accepted : Accepted registers program)
    (small : (Program.instructions program).length < 2 ^ 63)
    (forward : machine.JumpsForward) (budget : Nat) :
    (machine.attempts budget).length ≤ machine.remaining := by
  induction budget generalizing machine with
  | zero => exact Nat.zero_le _
  | succ budget induction =>
    cases attempted : machine.attempt? with
    | none => simp [Machine.attempts, attempted]
    | some attempt =>
      obtain ⟨address, value, inside⟩ := running.address_of_attempt attempted
      cases succeeds : attempt.outcome with
      | done next =>
        have stepped := Machine.step_of_attempt? attempted
        rw [succeeds] at stepped
        have runningNext := running.step accepted stepped
        have fewer :=
          running.remaining_lt accepted small forward attempted succeeds
        have rest := induction runningNext
          (running.jumpsForward runningNext forward)
        rw [Machine.attempts_of_step budget attempted succeeds,
          List.length_cons]
        omega
      | failed fault stopped =>
        have one : (machine.attempts (budget + 1)).length = 1 := by
          simp [Machine.attempts, attempted, succeeds]
        rw [one, Machine.remaining_of_address value, running.queued]
        omega

/-- The addresses of the attempts of a run increase. -/
theorem Running.addresses_increase (running : Running registers program machine)
    (accepted : Accepted registers program)
    (small : (Program.instructions program).length < 2 ^ 63)
    (forward : machine.JumpsForward) (budget : Nat) :
    ((machine.attempts budget).map Attempt.address).Pairwise (· < ·) := by
  -- It is enough to compare an attempt with the next one.
  rw [← List.isChain_iff_pairwise, List.isChain_map, List.isChain_iff_getElem]
  intro steps inside
  obtain ⟨_, paused, pauses, attempted⟩ :=
    Machine.getElem?_attempts_eq_some_iff.1
      (List.getElem?_eq_getElem (Nat.lt_of_succ_lt inside))
  obtain ⟨_, later, pausesLater, attemptedLater⟩ :=
    Machine.getElem?_attempts_eq_some_iff.1 (List.getElem?_eq_getElem inside)
  obtain ⟨_, _, pausesAgain, attemptedAgain, succeeds⟩ :=
    Machine.run_succ_eq_paused_iff.1 pausesLater
  obtain rfl := Ending.paused.inj (pauses.symm.trans pausesAgain)
  obtain rfl := Option.some.inj (attempted.symm.trans attemptedAgain)
  have now := running.of_paused accepted pauses
  have runningLater := running.of_paused accepted pausesLater
  obtain ⟨_, value, _⟩ := runningLater.address_of_attempt attemptedLater
  obtain ⟨isPaused, _⟩ := Machine.attempt?_eq_some_iff.1 attempted
  obtain ⟨isLater, _⟩ := Machine.attempt?_eq_some_iff.1 attemptedLater
  rw [Attempt.address, Attempt.address, isPaused, isLater]
  rcases now.address_increases accepted small
    (running.jumpsForward now forward) attempted succeeds with ahead | wrapped
  · exact ahead
  · omega

/-- With a budget of more steps than there are instructions from the counter on,
a run comes to an ending. -/
theorem Running.executes (running : Running registers program machine)
    (accepted : Accepted registers program)
    (small : (Program.instructions program).length < 2 ^ 63)
    (forward : machine.JumpsForward) {budget : Nat}
    (enough : machine.remaining < budget) :
    machine.Executes (machine.run budget) := by
  refine ⟨⟨budget, rfl⟩, ?_⟩
  intro later pauses
  -- A run that pauses has used up its budget, and so made more attempts.
  obtain ⟨steps, rfl⟩ := Nat.exists_eq_add_of_lt enough
  obtain ⟨paused, attempt, pausesBefore, attempted, _⟩ :=
    Machine.run_succ_eq_paused_iff.1 pauses
  have last := Machine.getElem?_attempts_eq_some_iff.2
    ⟨Nat.lt_add_one _, paused, pausesBefore, attempted⟩
  obtain ⟨inside, _⟩ := List.getElem?_eq_some_iff.1 last
  have bound := running.length_attempts_le accepted small forward
    (machine.remaining + steps + 1)
  omega

/-- Without jumps the counter counts the instructions that have been
executed. -/
theorem Running.counter_counts (running : Running registers program machine)
    (accepted : Accepted registers program)
    (small : (Program.instructions program).length < 2 ^ 63)
    (straight : machine.WithoutJumps) (starts : machine.counter = .start)
    {executed : Nat} {current : Machine}
    (reached : machine.run executed = .paused current) :
    current.counter.address.toInt = executed ∧ executed ≤ machine.queued := by
  induction executed generalizing current with
  | zero =>
    obtain rfl : machine = current := by simpa [Machine.run] using reached
    rw [starts]
    exact ⟨rfl, Nat.zero_le _⟩
  | succ executed induction =>
    obtain ⟨previous, attempt, reachedBefore, attempted, succeeds⟩ :=
      Machine.run_succ_eq_paused_iff.1 reached
    have now := running.of_paused accepted reachedBefore
    have counted := (induction reachedBefore).1
    obtain ⟨address, value, inside⟩ := now.address_of_attempt attempted
    rcases now.counter_of_attempt accepted attempted succeeds with
      ⟨argument, target, ⟨condition, isJump, _⟩, _⟩ | ⟨_, counter⟩
    · obtain ⟨_, fetched⟩ := Machine.attempt?_eq_some_iff.1 attempted
      have isInstruction :
          attempt.instruction ∈ machine.instructions.toList := by
        rw [running.instructions]
        exact now.mem_instructions fetched
      have notJump := straight _ isInstruction
      rw [isJump] at notJump
      cases notJump
    · rw [counter, now.counter_ahead small attempted, running.queued]
      omega

/-- A program without jumps that comes to its end has executed its instructions
in their order. -/
theorem Running.attempts_straight (running : Running registers program machine)
    (accepted : Accepted registers program)
    (small : (Program.instructions program).length < 2 ^ 63)
    (straight : machine.WithoutJumps) (starts : machine.counter = .start)
    {budget : Nat} {final : Machine}
    (halts : machine.run budget = .halted final) :
    (machine.attempts budget).map Attempt.instruction =
        machine.instructions.toList ∧
      (machine.attempts budget).map Attempt.address =
        (List.range machine.queued).map Nat.cast := by
  obtain ⟨steps, enough, reached, ends⟩ := Machine.run_eq_halted_iff.1 halts
  obtain ⟨counted, bound⟩ :=
    running.counter_counts accepted small straight starts reached
  have atEnd : steps = machine.queued := by
    by_contra early
    rw [running.queued] at bound early
    have fetched := (running.of_paused accepted reached).fetch?_inside counted
      (Nat.lt_of_le_of_ne bound early)
    rw [ends] at fetched
    cases fetched
  have count := (Machine.halts_after reached ends enough).2
  rw [atEnd] at count
  have each (index : Nat) (inside : index < (machine.attempts budget).length) :
      (machine.attempts budget)[index].address = index ∧
        machine.instructions[index]? =
          some (machine.attempts budget)[index].instruction := by
    obtain ⟨_, paused, pauses, attempted⟩ :=
      Machine.getElem?_attempts_eq_some_iff.1 (List.getElem?_eq_getElem inside)
    have place :=
      (running.counter_counts accepted small straight starts pauses).1
    obtain ⟨isPaused, fetched⟩ := Machine.attempt?_eq_some_iff.1 attempted
    obtain ⟨address, value, found⟩ := Machine.fetch?_eq_some_iff.1 fetched
    obtain rfl : address = index := by omega
    rw [Attempt.address, isPaused, ← Machine.instructions_of_paused pauses]
    exact ⟨value, found⟩
  constructor
  · apply List.ext_getElem
    · rw [List.length_map, count, Array.length_toList, Machine.queued]
    · intro index inside _
      rw [List.length_map] at inside
      have found := (each index inside).2
      rw [List.getElem_map, Array.getElem_toList]
      exact (Array.getElem_eq_iff.2 found).symm
  · apply List.ext_getElem
    · rw [List.length_map, count, List.length_map, List.length_range]
    · intro index inside _
      rw [List.length_map] at inside
      rw [List.getElem_map, (each index inside).1, List.getElem_map,
        List.getElem_range]

end Program

namespace Dialect

open Program

variable {dialect : Dialect} {program : Program} {machine : Machine}

/-- A program of less than `2 ^ 63` instructions that jumps forward only comes to
an ending, well or ill, after at most as many attempts as it has instructions,
and at increasing addresses.  If it does not jump at all and does not fail, it
executes each of its instructions once and in their order. -/
theorem forward_programs_end {registers : List Name}
    (declared : declare registers Operation.standard = .ok dialect)
    (assembles : dialect.assemble program = .ok machine)
    (small : machine.queued < 2 ^ 63) :
    (machine.JumpsForward →
      (∀ budget, machine.queued < budget →
        machine.Executes (machine.run budget)) ∧
      ∀ budget, (machine.attempts budget).length ≤ machine.queued ∧
        ((machine.attempts budget).map Attempt.address).Pairwise (· < ·)) ∧
    (machine.WithoutJumps → machine.JumpsForward ∧
      ∀ budget final, machine.run budget = .halted final →
        (machine.attempts budget).map Attempt.instruction =
            machine.instructions.toList ∧
          (machine.attempts budget).map Attempt.address =
            (List.range machine.queued).map Nat.cast) := by
  have isStandard := isStandard_of_declare declared
  obtain ⟨accepted, rfl⟩ := accepted_of_assemble isStandard assembles
  have running := running_assembled accepted
  rw [running.queued] at small
  have bound := (assembled dialect.registers program).remaining_le_queued
  constructor
  · intro forward
    refine ⟨fun budget enough => ?_, fun budget => ⟨?_, ?_⟩⟩
    · exact running.executes accepted small forward
        (Nat.lt_of_le_of_lt bound enough)
    · exact Nat.le_trans
        (running.length_attempts_le accepted small forward budget) bound
    · exact running.addresses_increase accepted small forward budget
  · intro straight
    exact ⟨Machine.jumpsForward_of_withoutJumps straight, fun budget final =>
      running.attempts_straight accepted small straight rfl⟩

/-- A program that jumps over an instruction, and then to the highest word. -/
def leapsOver : Program :=
  [⟨"jmp", [.label "on"]⟩, ⟨"inc", [.register "ax"]⟩,
    ⟨"label", [.label "on"]⟩, ⟨"jmp", [.literal Int64.maxValue]⟩]

def goesStraight : Program :=
  [⟨"inc", [.register "ax"]⟩, ⟨"mov", [.register "bx", .register "ax"]⟩]

theorem leapsOver_and_goesStraight_end :
    declare standardRegisters Operation.standard = .ok standard ∧
      (∃ machine, standard.assemble leapsOver = .ok machine ∧
        machine.queued < 2 ^ 63 ∧ machine.JumpsForward ∧
        machine.Executes (machine.run 4) ∧
        (machine.attempts 4).map Attempt.address = [0, 2] ∧
        (machine.attempts 4).length ≤ machine.queued) ∧
      ∃ machine final, standard.assemble goesStraight = .ok machine ∧
        machine.queued < 2 ^ 63 ∧ machine.WithoutJumps ∧
        machine.run 3 = .halted final ∧
        (machine.attempts 3).map Attempt.instruction =
          machine.instructions.toList := by
  have declared : declare standardRegisters Operation.standard = .ok standard :=
    declare_eq_ok_iff.2 ⟨rfl, rfl⟩
  have overAssembles : standard.assemble leapsOver = .ok _ := rfl
  have straightAssembles : standard.assemble goesStraight = .ok _ := rfl
  have ends :=
    (forward_programs_end declared overAssembles (by decide)).1 (by decide)
  have executes :=
    (forward_programs_end declared straightAssembles (by decide)).2 (by decide)
  exact ⟨declared,
    ⟨_, overAssembles, by decide, by decide, ends.1 4 (by decide), by decide,
      (ends.2 4).1⟩,
    _, _, straightAssembles, by decide, by decide, rfl,
    (executes.2 3 _ rfl).1⟩

end Dialect

end RegisterMachine
