import RegisterMachine.Proofs.AssemblyLog
import RegisterMachine.Proofs.CounterRange

/-!
# The log of a run

A run reports its start, then each instruction that it attempts with what comes
of it, and its results if it comes to its end.  The counters of two consecutive
attempts tell where the first of them led: to the next address, or behind the
target of the jump that is reported between the two.
-/

namespace RegisterMachine

def Event.isFetched : Event → Bool
  | fetched _ _ => true
  | queued _ _ | immediate _ | labelled _ _ _ | started _ | stored _ _ _
  | taken _ _ _ | finished _ => false

theorem Instruction.events_of_effect {instruction : Instruction}
    {mnemonic : Mnemonic} {arguments : List Argument} {effect : Effect}
    {machine : Machine}
    (isBasic : instruction = ⟨.ofMnemonic mnemonic, arguments⟩)
    (worked : instruction.effect machine = .ok effect) :
    instruction.events machine = effect.events mnemonic machine := by
  rw [events, worked, isBasic]
  rfl

namespace Attempt

variable {attempt : Attempt} {mnemonic : Mnemonic} {arguments : List Argument}

/-- The register that a move, a calculation or a comparison writes to. -/
def Writes (attempt : Attempt) (mnemonic : Mnemonic) (register : Name) : Prop :=
  if mnemonic = .cmp then register = comparisonRegister
  else attempt.instruction.arguments.head? = some (.register register)

/-- The entries for what comes of an attempt. -/
inductive EffectLog (attempt : Attempt) : List (Level × String) → Prop
  | stored {mnemonic : Mnemonic} {register : Name} {cell : Cell}
      {next : Machine} (isValue : mnemonic ∈ [.mov, .inc, .dec, .cmp])
      (performs : attempt.instruction.operation = .ofMnemonic mnemonic)
      (succeeds : attempt.outcome = .done next)
      (writes : attempt.Writes mnemonic register)
      (holds : next.read? register = some cell) :
      EffectLog attempt
        [(.trace, mnemonic.text ++ ": " ++ register ++ " <- " ++ cell.text)]
  | failed {mnemonic : Mnemonic} {fault : Fault} {stopped : Machine}
      (isValue : mnemonic ∈ [.mov, .inc, .dec, .cmp])
      (performs : attempt.instruction.operation = .ofMnemonic mnemonic)
      (fails : attempt.outcome = .failed fault stopped) :
      EffectLog attempt []
  /-- A jump is reported when its target is found, even if it is then refused
  for lying before the start of the program. -/
  | taken {condition : Condition} {argument : Argument} {target : Word}
      (performs : attempt.instruction.operation = .ofMnemonic (.jump condition))
      (leaps : attempt.Leaps argument target) :
      EffectLog attempt
        [(.debug, condition.jumpName ++ " taken: " ++
          ("PC[" ++ Word.text attempt.before.counter.address ++ "]") ++ " -> " ++
          Word.text target)]
  | stays {condition : Condition}
      (performs : attempt.instruction.operation = .ofMnemonic (.jump condition))
      (notTaken : ∀ argument target, ¬ attempt.Leaps argument target) :
      EffectLog attempt []

theorem Leaps.effect {argument : Argument} {target : Word}
    (leaps : attempt.Leaps argument target) :
    attempt.instruction.effect attempt.before = .ok (.goto target) := by
  obtain ⟨condition, isJump, met, found⟩ := leaps
  rw [isJump]
  exact Mnemonic.effect_eq_ok_iff.2 (.leap met found)

theorem Leaps.of_effect {target : Word}
    (isBasic : attempt.instruction = ⟨.ofMnemonic mnemonic, arguments⟩)
    (worked : attempt.instruction.effect attempt.before = .ok (.goto target)) :
    ∃ argument, attempt.Leaps argument target := by
  rw [isBasic] at worked
  cases Mnemonic.effect_eq_ok_iff.1 worked with
  | leap met found => exact ⟨_, _, isBasic, met, found⟩

theorem effectLog_of_refused
    (isBasic : attempt.instruction = ⟨.ofMnemonic mnemonic, arguments⟩)
    (notLabel : mnemonic ≠ .label) {fault : Fault}
    (refused : attempt.instruction.effect attempt.before = .error fault) :
    attempt.EffectLog [] := by
  have performs : attempt.instruction.operation = .ofMnemonic mnemonic := by
    rw [isBasic]
  have fails : attempt.outcome = .failed fault attempt.before := by
    rw [outcome, Instruction.execute, refused]
    rfl
  cases mnemonic with
  | label => exact absurd rfl notLabel
  | jump condition =>
    refine .stays performs fun argument target leaps => ?_
    cases refused.symm.trans leaps.effect
  | _ => exact .failed (by simp) performs fails

/-- What an attempt reports of its effect. -/
theorem effectLog
    (isBasic : attempt.instruction = ⟨.ofMnemonic mnemonic, arguments⟩)
    (notLabel : mnemonic ≠ .label) :
    attempt.EffectLog
      ((attempt.instruction.events attempt.before).map Event.entry) := by
  have performs : attempt.instruction.operation = .ofMnemonic mnemonic := by
    rw [isBasic]
  cases worked : attempt.instruction.effect attempt.before with
  | error fault =>
    have silent : attempt.instruction.events attempt.before = [] := by
      rw [Instruction.events, worked]
      split <;> simp_all
    rw [silent]
    exact effectLog_of_refused isBasic notLabel worked
  | ok effect =>
    have outcome : attempt.outcome =
        (effect.apply attempt.before).andThen fun changed =>
          .done changed.advance := by
      rw [outcome, Instruction.execute, worked]
      rfl
    have isRegister {name : Name} (notCmp : mnemonic ≠ .cmp)
        (first : arguments.head? = some (.register name)) :
        attempt.Writes mnemonic name := by
      rw [Writes, if_neg notCmp, isBasic]
      exact first
    rw [Instruction.events_of_effect isBasic worked]
    have sameEffect : mnemonic.effect attempt.before arguments = .ok effect := by
      rw [isBasic] at worked
      exact worked
    cases Mnemonic.effect_eq_ok_iff.1 sameEffect with
    | mov source bound =>
      exact .stored (by simp) performs outcome (isRegister (by simp) rfl)
        (Machine.read?_write_self bound)
    | inc reads operandRead =>
      exact .stored (by simp) performs outcome (isRegister (by simp) rfl)
        (Machine.read?_write_self (by simp [reads]))
    | dec reads operandRead =>
      exact .stored (by simp) performs outcome (isRegister (by simp) rfl)
        (Machine.read?_write_self (by simp [reads]))
    | cmp reads operandRead =>
      exact .stored (by simp) performs outcome rfl
        ((Machine.read?_assign _ _ _ _).trans (if_pos rfl))
    | label name => exact absurd rfl notLabel
    | stay argument notMet =>
      refine .stays performs fun argument target leaps => ?_
      cases worked.symm.trans leaps.effect
    | leap met found =>
      exact .taken performs ⟨_, isBasic, met, found⟩

theorem not_isFetched {event : Event}
    (reported : event ∈ attempt.instruction.events attempt.before) :
    event.isFetched = false := by
  obtain ⟨_, effect, _, ofEffect⟩ :=
    Instruction.exists_effect_of_mem_events reported
  cases effect <;> simp_all [Effect.events, Event.isFetched]

theorem filter_events (attempts : List Attempt) :
    (attempts.flatMap events).filter Event.isFetched =
      attempts.map fun attempt =>
        .fetched attempt.before.counter attempt.instruction := by
  induction attempts with
  | nil => rfl
  | cons attempt rest induction =>
    have silent : (attempt.instruction.events attempt.before).filter
        Event.isFetched = [] := by
      rw [List.filter_eq_nil_iff]
      intro event reported
      simp [not_isFetched reported]
    rw [List.flatMap_cons, List.filter_append, induction, List.map_cons, events,
      List.filter_cons_of_pos rfl, silent, List.singleton_append]

theorem split_at_fetched {first second rest more : List Event}
    {counter next : Counter} {instruction following : Instruction}
    (noneFirst : ∀ event ∈ first, event.isFetched = false)
    (noneSecond : ∀ event ∈ second, event.isFetched = false)
    (split : first ++ .fetched counter instruction :: rest =
      second ++ .fetched next following :: more) :
    first = second ∧
      Event.fetched counter instruction = .fetched next following := by
  have quiet (events : List Event)
      (none : ∀ event ∈ events, event.isFetched = false) :
      ∀ event ∈ events, (!event.isFetched) = true := by
    simpa using none
  have prefixes := congrArg (List.takeWhile fun event => !event.isFetched) split
  have suffixes := congrArg (List.dropWhile fun event => !event.isFetched) split
  rw [List.takeWhile_append_of_pos (quiet first noneFirst),
    List.takeWhile_append_of_pos (quiet second noneSecond)] at prefixes
  rw [List.dropWhile_append_of_pos (quiet first noneFirst),
    List.dropWhile_append_of_pos (quiet second noneSecond)] at suffixes
  constructor
  · simpa [Event.isFetched] using prefixes
  · exact (List.cons.inj suffixes).1

/-- What stands between the events of two attempts, if no other attempt does, is
what came of the first one. -/
theorem exists_consecutive {attempts : List Attempt}
    {ending front between rest : List Event} {counter next : Counter}
    {instruction following : Instruction}
    (split : attempts.flatMap events ++ ending =
      front ++ .fetched counter instruction ::
        (between ++ .fetched next following :: rest))
    (noneBetween : ∀ event ∈ between, event.isFetched = false)
    (noneEnding : ∀ event ∈ ending, event.isFetched = false) :
    ∃ earlier first second later,
      attempts = earlier ++ first :: second :: later ∧
        first.before.counter = counter ∧
        between = first.instruction.events first.before ∧
        second.before.counter = next := by
  induction attempts generalizing front with
  | nil =>
    have inEnding : Event.fetched counter instruction ∈ ending := by
      rw [List.flatMap_nil, List.nil_append] at split
      simp [split]
    cases noneEnding _ inEnding
  | cons attempt attempts induction =>
    rw [List.flatMap_cons, events, List.cons_append, List.cons_append,
      List.append_assoc] at split
    cases front with
    | nil =>
      obtain ⟨head, tail⟩ := List.cons.inj split
      cases attempts with
      | nil =>
        have isLast : Event.fetched next following ∈
            attempt.instruction.events attempt.before ++ ending := by
          rw [List.flatMap_nil, List.nil_append] at tail
          simp [tail]
        rcases List.mem_append.1 isLast with reported | inEnding
        · cases not_isFetched reported
        · cases noneEnding _ inEnding
      | cons second later =>
        rw [List.flatMap_cons, events, List.cons_append, List.cons_append]
          at tail
        obtain ⟨same, isNext⟩ := split_at_fetched
          (fun _ => not_isFetched) noneBetween tail
        exact ⟨[], attempt, second, later, rfl, (Event.fetched.inj head).1,
          same.symm, (Event.fetched.inj isNext).1⟩
    | cons event front =>
      -- The first attempt reports nothing that could be this event.
      have later : ∃ others, attempts.flatMap events ++ ending =
          others ++ .fetched counter instruction ::
            (between ++ .fetched next following :: rest) := by
        rcases List.append_eq_append_iff.1 (List.cons.inj split).2 with
          ⟨others, _, remaining⟩ | ⟨others, inEvents, remaining⟩
        · exact ⟨others, remaining⟩
        · cases others with
          | nil => exact ⟨[], remaining.symm⟩
          | cons other others =>
            obtain ⟨rfl, _⟩ := List.cons.inj remaining
            have reported : Event.fetched counter instruction ∈
                attempt.instruction.events attempt.before := by
              simp [inEvents]
            cases not_isFetched reported
      obtain ⟨others, remaining⟩ := later
      obtain ⟨earlier, first, second, rest, rfl, consecutive⟩ :=
        induction remaining
      exact ⟨attempt :: earlier, first, second, rest, rfl, consecutive⟩

theorem mem_events_of_leaps {argument : Argument} {target : Word}
    (leaps : attempt.Leaps argument target) :
    ∃ mnemonic, .taken mnemonic attempt.before.counter target ∈
      attempt.instruction.events attempt.before := by
  have worked := leaps.effect
  obtain ⟨condition, isJump, _⟩ := leaps
  rw [Instruction.events_of_effect isJump worked]
  exact ⟨.jump condition, List.mem_singleton_self _⟩

theorem effect_of_mem_events {source : Counter} {target : Word}
    (reported : .taken mnemonic source target ∈
      attempt.instruction.events attempt.before) :
    source = attempt.before.counter ∧
      attempt.instruction.effect attempt.before = .ok (.goto target) := by
  obtain ⟨_, effect, worked, ofEffect⟩ :=
    Instruction.exists_effect_of_mem_events reported
  cases effect <;> simp_all [Effect.events]

end Attempt

namespace Counter

/-- The counter does not wrap on its way to an instruction. -/
theorem toInt_advance_of_nonnegative {counter : Counter}
    (nonnegative : 0 ≤ counter.advance.address.toInt) :
    counter.advance.address.toInt = counter.address.toInt + 1 := by
  obtain ⟨target⟩ := counter
  rcases toInt_advance_or target with behind | rfl
  · exact behind
  · rw [toInt_advance_maxValue] at nonnegative
    omega

end Counter

/-- What the events of a run of at most `budget` steps tell about it. -/
structure Dialect.RunLog (dialect : Dialect) (machine : Machine) (budget : Nat)
    (events : List Event) : Prop where
  /-- The start is followed by the attempts, each with what comes of it, and at
  the end of the instructions by the results. -/
  blocks : ∃ (effects : Attempt → List Event) (ending : List Event),
    events = .started machine.queued ::
      ((machine.attempts budget).flatMap (fun attempt =>
        .fetched attempt.before.counter attempt.instruction ::
          effects attempt) ++ ending) ∧
    (∀ attempt ∈ machine.attempts budget,
      attempt.EffectLog ((effects attempt).map Event.entry)) ∧
    ((∃ final, machine.run budget = .halted final ∧
        ending = [.finished (dialect.registers.zip (dialect.results final))]) ∨
      (∀ final, machine.run budget ≠ .halted final) ∧ ending = [])
  fetched : ∀ steps event,
    (events.filter Event.isFetched)[steps]? = some event ↔
      steps < budget ∧ ∃ current instruction,
        machine.run steps = .paused current ∧
          current.fetch? = some instruction ∧
          event = .fetched current.counter instruction
  text : ∀ (counter : Counter) (instruction : Instruction),
    .fetched counter instruction ∈ events →
    ∃ address : Nat, counter.address.toInt = address ∧
      machine.instructions[address]? = some instruction ∧
      (Event.fetched counter instruction).entry =
        (.trace, "PC[" ++ toString address ++ "]" ++ ": " ++ instruction.text)
  first : ∀ (counter : Counter) (instruction : Instruction),
    (events.filter Event.isFetched)[0]? = some (.fetched counter instruction) →
      counter.address.toInt = 0
  consecutive : ∀ front between rest counter next instruction following,
    events = front ++ .fetched counter instruction ::
      (between ++ .fetched next following :: rest) →
    (∀ event ∈ between, event.isFetched = false) →
    (∀ mnemonic source target, .taken mnemonic source target ∈ between →
      source = counter ∧ next.address.toInt = target.toInt + 1) ∧
    ((∀ mnemonic source target, .taken mnemonic source target ∉ between) →
      next.address.toInt = counter.address.toInt + 1)

theorem Machine.attempts_consecutive {machine : Machine} {budget : Nat}
    {earlier later : List Attempt} {first second : Attempt}
    (split : machine.attempts budget = earlier ++ first :: second :: later) :
    first.before.attempt? = some first ∧
      first.outcome = .done second.before ∧
      second.before.attempt? = some second := by
  have atFirst : (machine.attempts budget)[earlier.length]? = some first := by
    simp [split]
  have atSecond : (machine.attempts budget)[earlier.length + 1]? =
      some second := by
    simp [split]
  obtain ⟨_, paused, pauses, attempted⟩ :=
    getElem?_attempts_eq_some_iff.1 atFirst
  obtain ⟨_, next, pausesNext, attemptedNext⟩ :=
    getElem?_attempts_eq_some_iff.1 atSecond
  obtain ⟨_, again, pausesAgain, attemptedAgain, succeeds⟩ :=
    run_succ_eq_paused_iff.1 pausesNext
  obtain rfl := Ending.paused.inj (pauses.symm.trans pausesAgain)
  obtain rfl := Option.some.inj (attempted.symm.trans attemptedAgain)
  obtain ⟨rfl, _⟩ := attempt?_eq_some_iff.1 attempted
  obtain ⟨rfl, _⟩ := attempt?_eq_some_iff.1 attemptedNext
  exact ⟨attempted, succeeds, attemptedNext⟩

namespace Program

variable {registers : List Name} {program : Program} {machine : Machine}
  {budget : Nat}

/-- The second of two consecutive attempts is made where the first one led. -/
theorem Running.counter_of_consecutive
    (running : Running registers program machine)
    (accepted : Accepted registers program) {earlier later : List Attempt}
    {first second : Attempt}
    (split : machine.attempts budget = earlier ++ first :: second :: later) :
    (∀ mnemonic source target, .taken mnemonic source target ∈
        first.instruction.events first.before →
      source = first.before.counter ∧
        second.before.counter.address.toInt = target.toInt + 1) ∧
    ((∀ mnemonic source target, .taken mnemonic source target ∉
        first.instruction.events first.before) →
      second.before.counter.address.toInt =
        first.before.counter.address.toInt + 1) := by
  obtain ⟨attempted, succeeds, attemptedNext⟩ :=
    Machine.attempts_consecutive split
  have isAttempt : first ∈ machine.attempts budget := by simp [split]
  obtain ⟨runningFirst, fetched⟩ := running.attempt accepted isAttempt
  obtain ⟨line, _, mnemonic, _, _, isBasic, _, _⟩ :=
    accepted.line_of_instruction (runningFirst.mem_instructions fetched)
  obtain ⟨address, value, _⟩ := Machine.fetch?_eq_some_iff.1
    (Machine.attempt?_eq_some_iff.1 attemptedNext).2
  have moves := runningFirst.counter_of_attempt accepted attempted succeeds
  constructor
  · intro mnemonic source target reported
    obtain ⟨rfl, worked⟩ := Attempt.effect_of_mem_events reported
    obtain ⟨argument, leaps⟩ := Attempt.Leaps.of_effect isBasic worked
    rcases moves with ⟨_, other, leapsAgain, _, moved⟩ | ⟨stays, _⟩
    · obtain ⟨rfl, rfl⟩ := leaps.unique leapsAgain
      rw [moved] at value ⊢
      exact ⟨rfl, Counter.toInt_advance_of_nonnegative (by omega)⟩
    · exact absurd leaps (stays argument target)
  · intro noneTaken
    rcases moves with ⟨argument, target, leaps, _⟩ | ⟨_, moved⟩
    · obtain ⟨mnemonic, reported⟩ := Attempt.mem_events_of_leaps leaps
      exact absurd reported (noneTaken _ _ _)
    · rw [moved] at value ⊢
      exact Counter.toInt_advance_of_nonnegative (by omega)

end Program

namespace Dialect

open Program

variable {registers : List Name} {program : Program} {machine : Machine}

theorem not_isFetched_of_ending (dialect : Dialect) (ending : Ending) :
    ∀ event ∈ dialect.endingEvents ending, event.isFetched = false := by
  cases ending <;> simp [endingEvents, Event.isFetched]

theorem filter_runEvents (dialect : Dialect) (budget : Nat)
    (machine : Machine) :
    (dialect.runEvents budget machine).filter Event.isFetched =
      (machine.attempts budget).map fun attempt =>
        .fetched attempt.before.counter attempt.instruction := by
  have noneEnding : (dialect.endingEvents (machine.run budget)).filter
      Event.isFetched = [] := by
    rw [List.filter_eq_nil_iff]
    intro event isEnding
    simp [not_isFetched_of_ending dialect _ event isEnding]
  rw [runEvents, List.filter_cons_of_neg (by simp [Event.isFetched]),
    List.filter_append, Attempt.filter_events, noneEnding, List.append_nil]

theorem getElem?_fetched_iff (dialect : Dialect) (machine : Machine)
    (budget steps : Nat) (event : Event) :
    ((dialect.runEvents budget machine).filter Event.isFetched)[steps]? =
        some event ↔
      steps < budget ∧ ∃ current instruction,
        machine.run steps = .paused current ∧
          current.fetch? = some instruction ∧
          event = .fetched current.counter instruction := by
  rw [filter_runEvents, List.getElem?_map, Option.map_eq_some_iff]
  simp only [Machine.getElem?_attempts_eq_some_iff,
    Machine.attempt?_eq_some_iff]
  constructor
  · rintro ⟨⟨before, instruction⟩, ⟨inBudget, _, pauses, rfl, fetched⟩, rfl⟩
    exact ⟨inBudget, before, instruction, pauses, fetched, rfl⟩
  · rintro ⟨inBudget, current, instruction, pauses, fetched, rfl⟩
    exact ⟨⟨current, instruction⟩,
      ⟨inBudget, current, pauses, rfl, fetched⟩, rfl⟩

theorem runLog (dialect : Dialect) (accepted : Accepted registers program)
    (running : Running registers program machine)
    (start : machine.counter = .start) (budget : Nat) :
    dialect.RunLog machine budget (dialect.runEvents budget machine) where
  blocks := by
    refine ⟨fun attempt => attempt.instruction.events attempt.before,
      dialect.endingEvents (machine.run budget), rfl, ?_, ?_⟩
    · intro attempt isAttempt
      obtain ⟨runningBefore, fetched⟩ := running.attempt accepted isAttempt
      obtain ⟨line, _, mnemonic, _, notLabel, isBasic, _, _⟩ :=
        accepted.line_of_instruction (runningBefore.mem_instructions fetched)
      exact Attempt.effectLog isBasic notLabel
    · cases machine.run budget <;> simp [endingEvents]
  fetched := dialect.getElem?_fetched_iff machine budget
  text := by
    intro counter instruction reported
    have inFilter : .fetched counter instruction ∈
        (dialect.runEvents budget machine).filter Event.isFetched :=
      List.mem_filter.2 ⟨reported, rfl⟩
    obtain ⟨steps, atSteps⟩ := List.mem_iff_getElem?.1 inFilter
    obtain ⟨_, current, _, pauses, fetched, same⟩ :=
      (dialect.getElem?_fetched_iff machine budget steps _).1 atSteps
    cases same
    obtain ⟨address, value, found⟩ := Machine.fetch?_eq_some_iff.1 fetched
    rw [Machine.instructions_of_paused pauses] at found
    refine ⟨address, value, found, ?_⟩
    rw [Event.entry, Event.message, Counter.text, Word.text, value]
    rfl
  first := by
    intro counter instruction atStart
    obtain ⟨_, current, _, pauses, _, same⟩ :=
      (dialect.getElem?_fetched_iff machine budget 0 _).1 atStart
    cases pauses
    cases same
    rw [start]
    rfl
  consecutive := by
    intro front between rest counter next instruction following split
      noneBetween
    cases front with
    | nil => cases (List.cons.inj split).1
    | cons event front =>
      obtain ⟨earlier, first, second, later, attempts, rfl, rfl, rfl⟩ :=
        Attempt.exists_consecutive (List.cons.inj split).2 noneBetween
          (dialect.not_isFetched_of_ending _)
      exact running.counter_of_consecutive accepted attempts

/-- The log of a program tells what its assembly and its run do.  Assembly
reports every line up to the first one that is refused by the rules of
`LineLog`, and the instructions in the order of their addresses.  A program that
is refused has no other entries, and one that is assembled has those of its run
behind them. -/
theorem log_is_faithful {registers : List Name} {dialect : Dialect}
    (declared : declare registers Operation.standard = .ok dialect)
    (submission : Submission) (budget : Nat) (program : Program) :
    dialect.AssemblyLog [] program
      ((dialect.assemblyEvents submission dialect.machine program).map
        Event.entry) ∧
    (∀ address : Nat,
      (((dialect.assemblyEvents submission dialect.machine program).filter
          Event.isQueued).map Event.entry)[address]? =
        ((dialect.assembleOnto submission dialect.machine
          program).machine.instructions[address]?).map fun instruction =>
            (.debug, "[" ++ toString address ++ "] " ++ instruction.text)) ∧
    (∀ fault, dialect.assembleBy submission program = .error fault →
      dialect.log submission budget program =
        dialect.assemblyEvents submission dialect.machine program) ∧
    ∀ machine, dialect.assembleBy submission program = .ok machine →
      ∃ events, dialect.log submission budget program =
          dialect.assemblyEvents submission dialect.machine program ++ events ∧
        dialect.RunLog machine budget events := by
  have isStandard := isStandard_of_declare declared
  have start : dialect.machine = assembled dialect.registers [] :=
    machine_eq isStandard
  refine ⟨?_, dialect.queued_entry submission program, ?_, ?_⟩
  · rw [start]
    exact assemblyLog isStandard submission [] program
  · intro fault refused
    rw [log, refused, List.append_nil]
  · intro machine assembles
    refine ⟨dialect.runEvents budget machine, by rw [log, assembles], ?_⟩
    obtain ⟨accepted, rfl⟩ := accepted_of_assembleBy isStandard assembles
    exact dialect.runLog accepted (running_assembled accepted) rfl budget

/-- The label moves, the first jump is not taken, and the second one is taken to
an address before the start of the program. -/
def movesLabelThenLeaps : Program :=
  [⟨"label", [.label "top"]⟩, ⟨"mov", [.register "ax", .literal 1]⟩,
    ⟨"label", [.label "top"]⟩, ⟨"cmp", [.register "ax"]⟩,
    ⟨"jne", [.label "top"]⟩, ⟨"jmp", [.literal (-2)]⟩]

theorem movesLabelThenLeaps_log :
    declare standardRegisters Operation.standard = .ok standard ∧
      standard.AssemblyLog [] movesLabelThenLeaps
        [(.debug, "immediate label(top)"), (.debug, "label top = -1"),
          (.debug, "[0] mov(ax, 1)"), (.debug, "immediate label(top)"),
          (.debug, "label top moved from -1 to 0"), (.debug, "[1] cmp(ax)"),
          (.debug, "[2] jne(top)"), (.debug, "[3] jmp(-2)")] ∧
      ∃ machine events,
        standard.assembleBy .direct movesLabelThenLeaps = .ok machine ∧
        standard.RunLog machine 10 events ∧
        events.map Event.entry =
          [(.info, "running 4 instruction(s)"), (.trace, "PC[0]: mov(ax, 1)"),
            (.trace, "mov: ax <- 1"), (.trace, "PC[1]: cmp(ax)"),
            (.trace, "cmp: bool <- 0"), (.trace, "PC[2]: jne(top)"),
            (.trace, "PC[3]: jmp(-2)"), (.debug, "jmp taken: PC[3] -> -2")] ∧
        standard.run .direct 10 movesLabelThenLeaps =
          .fault (.invalidAddress (-2)) := by
  have declared :
      declare standardRegisters Operation.standard = .ok standard :=
    declare_eq_ok_iff.2 ⟨rfl, rfl⟩
  obtain ⟨assembly, _, _, runs⟩ :=
    log_is_faithful declared .direct 10 movesLabelThenLeaps
  have assembles : standard.assembleBy .direct movesLabelThenLeaps = .ok _ :=
    rfl
  obtain ⟨events, whole, logged⟩ := runs _ assembles
  rw [log, assembles] at whole
  obtain rfl := List.append_cancel_left whole
  have withEntries {entries : List (Level × String)}
      (same : (standard.assemblyEvents .direct standard.machine
        movesLabelThenLeaps).map Event.entry = entries) :
      standard.AssemblyLog [] movesLabelThenLeaps entries :=
    same ▸ assembly
  exact ⟨declared, withEntries (by decide +kernel), _, _, assembles, logged,
    by decide +kernel, by decide +kernel⟩

end Dialect

end RegisterMachine
