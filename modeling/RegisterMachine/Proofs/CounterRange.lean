import RegisterMachine.Proofs.AssembledRun

/-!
# Where the counter goes

The counter of a running program moves to the next address, or behind the target
of a jump.  Addresses are words, so both could wrap around.  In a program of
less than `2 ^ 63` instructions this happens to one kind of jump only, that to
the highest word written out as a literal, and there the run ends.  A program
that jumps to labels only keeps its counter between the first instruction and
the end of the instructions, and stops just there.
-/

namespace RegisterMachine

/-- The attempted instruction is a jump that the last comparison allows, and its
argument leads to `target`. -/
def Attempt.Leaps (attempt : Attempt) (argument : Argument) (target : Word) :
    Prop :=
  ∃ condition,
    attempt.instruction = ⟨.ofMnemonic (.jump condition), [argument]⟩ ∧
      condition.holds attempt.before.comparison = true ∧
      attempt.before.target argument = .ok target

/-- A jump has one target. -/
theorem Attempt.Leaps.unique {attempt : Attempt} {argument other : Argument}
    {target otherTarget : Word} (leaps : attempt.Leaps argument target)
    (again : attempt.Leaps other otherTarget) :
    argument = other ∧ target = otherTarget := by
  obtain ⟨_, isJump, _, found⟩ := leaps
  obtain ⟨_, isSame, _, foundAgain⟩ := again
  rw [isJump, Instruction.mk.injEq, List.singleton_inj] at isSame
  obtain ⟨_, rfl⟩ := isSame
  exact ⟨rfl, Except.ok.inj (found.symm.trans foundAgain)⟩

theorem Attempt.Leaps.eq_jump {attempt : Attempt} {argument : Argument}
    {target : Word} {mnemonic : Mnemonic} {arguments : List Argument}
    (leaps : attempt.Leaps argument target)
    (isLine : attempt.instruction = ⟨.ofMnemonic mnemonic, arguments⟩) :
    ∃ condition, mnemonic = .jump condition ∧ arguments = [argument] ∧
      condition.holds attempt.before.comparison = true := by
  obtain ⟨condition, isJump, met, _⟩ := leaps
  rw [isLine, Instruction.mk.injEq] at isJump
  have performs : some mnemonic = some (.jump condition) :=
    congrArg Operation.performs isJump.1
  exact ⟨condition, Option.some.inj performs, isJump.2, met⟩

/-- What is known of the counter when `executed` instructions of a program have
been executed and `current` looks for the next one. -/
structure Machine.CounterKept (machine : Machine) (executed : Nat)
    (current : Machine) : Prop where
  range : 0 ≤ current.counter.address.toInt ∨
    current.counter.address.toInt = -2 ^ 63
  /-- The counter is negative only after a jump to the highest word, and then
  the run is over. -/
  wrapped : current.counter.address.toInt = -2 ^ 63 →
    (∃ earlier previous attempt, executed = earlier + 1 ∧
      machine.run earlier = .paused previous ∧
      previous.attempt? = some attempt ∧ attempt.outcome = .done current ∧
      attempt.Leaps (.literal Int64.maxValue) Int64.maxValue) ∧
    ∀ budget, executed < budget → machine.run budget = .halted current
  inside : ∀ address : Nat, current.counter.address.toInt = address →
    address < machine.queued →
    ∃ instruction, machine.instructions[address]? = some instruction ∧
      current.fetch? = some instruction
  outside : current.counter.address.toInt < 0 ∨
      machine.queued ≤ current.counter.address.toInt →
    current.fetch? = none ∧
      ∀ budget, executed < budget → machine.run budget = .halted current
  /-- An instruction that does not jump leads to the next address. -/
  ahead : ∀ attempt next, current.attempt? = some attempt →
    attempt.outcome = .done next →
    (∀ argument target, ¬ attempt.Leaps argument target) →
    next.counter.address.toInt = current.counter.address.toInt + 1
  /-- A jump leads behind its target, unless its target is the highest word. -/
  behind : ∀ attempt next argument target, current.attempt? = some attempt →
    attempt.outcome = .done next → attempt.Leaps argument target →
    -1 ≤ target.toInt ∧
      (next.counter.address.toInt = target.toInt + 1 ∨
        argument = .literal Int64.maxValue ∧ target = Int64.maxValue ∧
          next.counter.address.toInt = -2 ^ 63)

namespace Counter

theorem toInt_advance_maxValue :
    (advance ⟨Int64.maxValue⟩).address.toInt = -2 ^ 63 := by
  decide

/-- The counter wraps around behind the highest word only. -/
theorem toInt_advance_or (target : Word) :
    (advance ⟨target⟩).address.toInt = target.toInt + 1 ∨
      target = Int64.maxValue := by
  have highest : Int64.maxValue.toInt = 2 ^ 63 - 1 := by decide
  have bound := Int64.toInt_lt target
  by_cases isHighest : target.toInt = 2 ^ 63 - 1
  · right
    apply Int64.toInt_inj.1
    rw [isHighest, highest]
  · left
    apply toInt_advance
    simp only
    omega

end Counter

namespace Program

variable {registers : List Name} {program : Program} {machine : Machine}
  {attempt : Attempt} {next : Machine}

/-- All jumps of the program are to labels. -/
def JumpsToLabels (program : Program) : Prop :=
  ∀ line ∈ program, ∀ condition, line.mnemonic? = some (.jump condition) →
    ∀ argument ∈ line.arguments, ∃ label, argument = .label label

/-- A jump that succeeds puts the counter behind its target, and any other
instruction puts it one address further. -/
theorem Running.counter_of_attempt (running : Running registers program machine)
    (accepted : Accepted registers program)
    (attempted : machine.attempt? = some attempt)
    (succeeds : attempt.outcome = .done next) :
    (∃ argument target, attempt.Leaps argument target ∧
        -1 ≤ target.toInt ∧ next.counter = Counter.advance ⟨target⟩) ∨
      (∀ argument target, ¬ attempt.Leaps argument target) ∧
        next.counter = machine.counter.advance := by
  obtain ⟨rfl, fetched⟩ := Machine.attempt?_eq_some_iff.1 attempted
  have stepped := Machine.step_of_attempt? attempted
  rw [succeeds] at stepped
  obtain ⟨_, effect, changed, again, worked, applied, rfl⟩ :=
    Machine.step_eq_done_iff.1 stepped
  obtain rfl := Option.some.inj (fetched.symm.trans again)
  obtain ⟨line, _, mnemonic, _, _, isLine, _, _⟩ :=
    accepted.line_of_instruction (running.mem_instructions fetched)
  rw [isLine] at worked
  have yields := Mnemonic.effect_eq_ok_iff.1 worked
  generalize line.arguments = arguments at isLine yields
  cases yields with
  | leap met found =>
    obtain ⟨notBefore, rfl⟩ := Machine.apply_goto_eq_done applied
    exact .inl ⟨_, _, ⟨_, isLine, met, found⟩, notBefore, rfl⟩
  | stay argument notMet =>
    cases applied
    refine .inr ⟨fun other target leaps => ?_, rfl⟩
    obtain ⟨condition, same, _, met⟩ := leaps.eq_jump isLine
    cases same
    rw [notMet] at met
    cases met
  | _ =>
    cases applied
    refine .inr ⟨fun argument target leaps => ?_, rfl⟩
    obtain ⟨_, same, _⟩ := leaps.eq_jump isLine
    cases same

/-- An instruction is attempted only where there is one. -/
theorem Running.address_of_attempt (running : Running registers program machine)
    (attempted : machine.attempt? = some attempt) :
    ∃ address : Nat, machine.counter.address.toInt = address ∧
      address < (Program.instructions program).length := by
  obtain ⟨_, fetched⟩ := Machine.attempt?_eq_some_iff.1 attempted
  obtain ⟨address, value, found⟩ := Machine.fetch?_eq_some_iff.1 fetched
  rw [running.instructions, List.getElem?_toArray] at found
  exact ⟨address, value, (List.getElem?_eq_some_iff.1 found).1⟩

/-- The address of a label is that of an instruction, or the one in front of
all instructions. -/
theorem Running.target_of_label (running : Running registers program machine)
    (small : (Program.instructions program).length < 2 ^ 63) {label : Name}
    {target : Word} (found : machine.target (.label label) = .ok target) :
    target.toInt < (Program.instructions program).length := by
  rw [Machine.target_label, running.labelTable, get?_labelTable] at found
  cases defined : labelPosition? label program with
  | none => simp [defined] at found
  | some position =>
    have bound := addressAt_le program position
    rw [defined] at found
    cases found
    rw [Word.toInt_ofNat_sub_one (by omega)]
    omega

/-- Only a literal leads to the highest word. -/
theorem Running.literal_of_highest (running : Running registers program machine)
    (small : (Program.instructions program).length < 2 ^ 63)
    (attempted : machine.attempt? = some attempt) {argument : Argument}
    (leaps : attempt.Leaps argument Int64.maxValue) :
    argument = .literal Int64.maxValue := by
  obtain ⟨rfl, _⟩ := Machine.attempt?_eq_some_iff.1 attempted
  obtain ⟨condition, _, _, found⟩ := leaps
  cases argument with
  | literal address =>
    cases found
    rfl
  | label label =>
    have highest : Int64.maxValue.toInt = 2 ^ 63 - 1 := by decide
    have bound := running.target_of_label small found
    omega
  | register name => cases found

theorem Running.counter_ahead (running : Running registers program machine)
    (small : (Program.instructions program).length < 2 ^ 63)
    (attempted : machine.attempt? = some attempt) :
    machine.counter.advance.address.toInt =
      machine.counter.address.toInt + 1 := by
  obtain ⟨address, value, inside⟩ := running.address_of_attempt attempted
  apply Counter.toInt_advance
  omega

/-- A step leaves the counter at or behind the first instruction, unless it
jumps to the highest word. -/
theorem Running.counter_after (running : Running registers program machine)
    (accepted : Accepted registers program)
    (small : (Program.instructions program).length < 2 ^ 63)
    (attempted : machine.attempt? = some attempt)
    (succeeds : attempt.outcome = .done next) :
    0 ≤ next.counter.address.toInt ∨
      next.counter.address.toInt = -2 ^ 63 ∧
        attempt.Leaps (.literal Int64.maxValue) Int64.maxValue := by
  rcases running.counter_of_attempt accepted attempted succeeds with
    ⟨argument, target, leaps, notBefore, counter⟩ | ⟨_, counter⟩
  · rcases Counter.toInt_advance_or target with behind | rfl
    · left
      rw [counter, behind]
      omega
    · right
      obtain rfl := running.literal_of_highest small attempted leaps
      rw [counter]
      exact ⟨Counter.toInt_advance_maxValue, leaps⟩
  · left
    obtain ⟨address, value, _⟩ := running.address_of_attempt attempted
    rw [counter, running.counter_ahead small attempted, value]
    omega

/-- Where all jumps are to labels, a step leaves the counter at an instruction
or just behind the last one. -/
theorem Running.counter_within (running : Running registers program machine)
    (accepted : Accepted registers program)
    (small : (Program.instructions program).length < 2 ^ 63)
    (toLabels : JumpsToLabels program)
    (attempted : machine.attempt? = some attempt)
    (succeeds : attempt.outcome = .done next) :
    0 ≤ next.counter.address.toInt ∧
      next.counter.address.toInt ≤ (Program.instructions program).length := by
  rcases running.counter_of_attempt accepted attempted succeeds with
    ⟨argument, target, leaps, notBefore, counter⟩ | ⟨_, counter⟩
  · obtain ⟨rfl, fetched⟩ := Machine.attempt?_eq_some_iff.1 attempted
    obtain ⟨line, inProgram, mnemonic, named, _, isLine, _, _⟩ :=
      accepted.line_of_instruction (running.mem_instructions fetched)
    obtain ⟨condition, rfl, sameArguments, _⟩ := leaps.eq_jump isLine
    obtain ⟨label, rfl⟩ := toLabels line inProgram condition named argument
      (by simp [sameArguments])
    obtain ⟨_, _, _, found⟩ := leaps
    have bound := running.target_of_label small found
    rw [counter, Counter.toInt_advance (by simp only; omega)]
    simp only
    omega
  · obtain ⟨address, value, inside⟩ := running.address_of_attempt attempted
    rw [counter, running.counter_ahead small attempted, value]
    omega

theorem Running.of_paused (running : Running registers program machine)
    (accepted : Accepted registers program) {executed : Nat} {current : Machine}
    (reached : machine.run executed = .paused current) :
    Running registers program current := by
  have later := running.run accepted executed
  rwa [reached] at later

theorem Running.queued (running : Running registers program machine) :
    machine.queued = (Program.instructions program).length := by
  rw [Machine.queued, running.instructions, List.size_toArray]

/-- Whenever a run looks for an instruction, its counter is at or behind the
first one, unless it has just jumped to the highest word. -/
theorem Running.counter_reached (running : Running registers program machine)
    (accepted : Accepted registers program)
    (small : (Program.instructions program).length < 2 ^ 63)
    (starts : machine.counter = .start) {executed : Nat} {current : Machine}
    (reached : machine.run executed = .paused current) :
    0 ≤ current.counter.address.toInt ∨
      current.counter.address.toInt = -2 ^ 63 ∧
        ∃ earlier previous attempt, executed = earlier + 1 ∧
          machine.run earlier = .paused previous ∧
          previous.attempt? = some attempt ∧ attempt.outcome = .done current ∧
          attempt.Leaps (.literal Int64.maxValue) Int64.maxValue := by
  cases executed with
  | zero =>
    obtain rfl : machine = current := by simpa [Machine.run] using reached
    left
    rw [starts]
    decide
  | succ executed =>
    obtain ⟨previous, attempt, reachedBefore, attempted, succeeds⟩ :=
      Machine.run_succ_eq_paused_iff.1 reached
    have runningBefore := running.of_paused accepted reachedBefore
    refine (runningBefore.counter_after accepted small attempted succeeds).imp_right
      fun wraps => ⟨wraps.1, executed, previous, attempt, rfl, reachedBefore,
        attempted, succeeds, wraps.2⟩

/-- A run ends where its counter leaves the instructions. -/
theorem Running.halts_outside (running : Running registers program machine)
    (accepted : Accepted registers program) {executed : Nat} {current : Machine}
    (reached : machine.run executed = .paused current)
    (outside : current.counter.address.toInt < 0 ∨
      machine.queued ≤ current.counter.address.toInt) :
    current.fetch? = none ∧
      ∀ budget, executed < budget → machine.run budget = .halted current := by
  have sameSize : current.queued = machine.queued :=
    (running.of_paused accepted reached).queued.trans running.queued.symm
  have nothing : current.fetch? = none := by
    rw [Machine.fetch?_eq_none_iff, Counter.index?_eq_none_iff, sameSize]
    exact outside
  exact ⟨nothing, fun _ enough =>
    (Machine.halts_after reached nothing enough).1⟩

theorem Running.fetch?_inside (running : Running registers program machine)
    {address : Nat} (value : machine.counter.address.toInt = address)
    (inside : address < (Program.instructions program).length) :
    machine.fetch? = some (Program.instructions program)[address] := by
  rw [Machine.fetch?_eq_some_iff]
  refine ⟨address, value, ?_⟩
  rw [running.instructions, List.getElem?_toArray,
    List.getElem?_eq_getElem inside]

theorem Running.counterKept (running : Running registers program machine)
    (accepted : Accepted registers program)
    (small : (Program.instructions program).length < 2 ^ 63)
    (starts : machine.counter = .start) {executed : Nat} {current : Machine}
    (reached : machine.run executed = .paused current) :
    machine.CounterKept executed current := by
  have now := running.of_paused accepted reached
  have counter := running.counter_reached accepted small starts reached
  refine ⟨counter.imp_right And.left, ?_, ?_,
    running.halts_outside accepted reached, ?_, ?_⟩
  · intro wrapped
    refine ⟨?_, (running.halts_outside accepted reached (by omega)).2⟩
    rcases counter with inRange | ⟨_, jumped⟩
    · omega
    · exact jumped
  · intro address value inside
    rw [running.queued] at inside
    refine ⟨_, ?_, now.fetch?_inside value inside⟩
    rw [running.instructions, List.getElem?_toArray,
      List.getElem?_eq_getElem inside]
  · intro attempt next attempted succeeds noJump
    rcases now.counter_of_attempt accepted attempted succeeds with
      ⟨argument, target, leaps, _⟩ | ⟨_, counter⟩
    · exact absurd leaps (noJump argument target)
    · rw [counter, now.counter_ahead small attempted]
  · intro attempt next argument target attempted succeeds leaps
    rcases now.counter_of_attempt accepted attempted succeeds with
      ⟨_, _, leapsSo, notBefore, counter⟩ | ⟨noJump, _⟩
    · obtain ⟨rfl, rfl⟩ := leaps.unique leapsSo
      refine ⟨notBefore, ?_⟩
      rw [counter]
      rcases Counter.toInt_advance_or target with behind | rfl
      · exact .inl behind
      · exact .inr ⟨now.literal_of_highest small attempted leaps, rfl,
          Counter.toInt_advance_maxValue⟩
    · exact absurd leaps (noJump argument target)

theorem Running.counter_bounded (running : Running registers program machine)
    (accepted : Accepted registers program)
    (small : (Program.instructions program).length < 2 ^ 63)
    (toLabels : JumpsToLabels program) (starts : machine.counter = .start)
    {executed : Nat} {current : Machine}
    (reached : machine.run executed = .paused current) :
    0 ≤ current.counter.address.toInt ∧
      current.counter.address.toInt ≤ machine.queued := by
  rw [running.queued]
  cases executed with
  | zero =>
    obtain rfl : machine = current := by simpa [Machine.run] using reached
    have first : machine.counter.address.toInt = 0 := by
      rw [starts]
      rfl
    omega
  | succ executed =>
    obtain ⟨previous, attempt, reachedBefore, attempted, succeeds⟩ :=
      Machine.run_succ_eq_paused_iff.1 reached
    exact (running.of_paused accepted reachedBefore).counter_within accepted
      small toLabels attempted succeeds

end Program

namespace Dialect

open Program

variable {dialect : Dialect} {program : Program} {machine : Machine}

/-- Through the whole run of a program of less than `2 ^ 63` instructions the
counter does not become negative, except behind a jump to the highest word, which
ends the run.  While it is the number of an instruction, that instruction is
fetched; otherwise the run ends.  It moves to the next address, or behind the
target of a jump.  Where all jumps are to labels, it goes from the first
instruction to the end of the instructions at most, and a run that ends without
a fault ends there. -/
theorem counter_stays_in_range {registers : List Name}
    (declared : declare registers Operation.standard = .ok dialect)
    (assembles : dialect.assemble program = .ok machine)
    (small : machine.queued < 2 ^ 63) :
    (∀ executed current, machine.run executed = .paused current →
        machine.CounterKept executed current) ∧
      (JumpsToLabels program →
        (∀ executed current, machine.run executed = .paused current →
          0 ≤ current.counter.address.toInt ∧
            current.counter.address.toInt ≤ machine.queued) ∧
        ∀ budget final, machine.run budget = .halted final →
          final.counter.address.toInt = machine.queued) := by
  have isStandard := isStandard_of_declare declared
  obtain ⟨accepted, rfl⟩ := accepted_of_assemble isStandard assembles
  have running := running_assembled accepted
  rw [running.queued] at small
  have kept {executed : Nat} {current : Machine}
      (reached : (assembled dialect.registers program).run executed =
        .paused current) :=
    running.counterKept accepted small rfl reached
  refine ⟨fun _ _ reached => kept reached, fun toLabels => ⟨?_, ?_⟩⟩
  · intro executed current reached
    exact running.counter_bounded accepted small toLabels rfl reached
  · intro budget final halts
    obtain ⟨executed, _, reached, ends⟩ := Machine.run_eq_halted_iff.1 halts
    have bounds :=
      running.counter_bounded accepted small toLabels rfl reached
    -- Were the counter inside, there would be an instruction left to fetch.
    by_contra inside
    obtain ⟨address, value⟩ := Int.eq_ofNat_of_zero_le bounds.1
    obtain ⟨instruction, _, fetched⟩ :=
      (kept reached).inside address value (by omega)
    rw [ends] at fetched
    cases fetched

/-- A program that jumps to the highest word. -/
def leapsToHighest : Program :=
  [⟨"jmp", [.literal Int64.maxValue]⟩, ⟨"inc", [.register "ax"]⟩]

/-- A program that jumps behind its last instruction by way of a label. -/
def leapsToEnd : Program :=
  [⟨"jmp", [.label "end"]⟩, ⟨"inc", [.register "ax"]⟩,
    ⟨"label", [.label "end"]⟩]

theorem leapsToHighest_wraps_and_leapsToEnd_ends :
    declare standardRegisters Operation.standard = .ok standard ∧
      (∃ machine current, standard.assemble leapsToHighest = .ok machine ∧
        machine.queued < 2 ^ 63 ∧ machine.run 1 = .paused current ∧
        current.counter.address.toInt = -2 ^ 63 ∧
        machine.run 5 = .halted current) ∧
      JumpsToLabels leapsToEnd ∧
      ∃ machine final, standard.assemble leapsToEnd = .ok machine ∧
        machine.queued < 2 ^ 63 ∧ machine.run 5 = .halted final ∧
        final.counter.address.toInt = machine.queued := by
  have declared : declare standardRegisters Operation.standard = .ok standard :=
    declare_eq_ok_iff.2 ⟨rfl, rfl⟩
  have toLabels : JumpsToLabels leapsToEnd := by
    intro line inProgram condition isJump argument isArgument
    simp only [leapsToEnd, List.mem_cons, List.not_mem_nil, or_false]
      at inProgram
    rcases inProgram with rfl | rfl | rfl
    · exact ⟨"end", List.mem_singleton.1 isArgument⟩
    · have notJump : some Mnemonic.inc = some (.jump condition) := isJump
      cases notJump
    · exact ⟨"end", List.mem_singleton.1 isArgument⟩
  have highest : standard.assemble leapsToHighest = .ok _ := rfl
  have toEnd : standard.assemble leapsToEnd = .ok _ := rfl
  have kept := (counter_stays_in_range declared highest (by decide)).1 1 _ rfl
  have ends :=
    ((counter_stays_in_range declared toEnd (by decide)).2 toLabels).2 5 _ rfl
  exact ⟨declared, ⟨_, _, highest, by decide, rfl, by decide,
    (kept.wrapped (by decide)).2 5 (by decide)⟩, toLabels,
    _, _, toEnd, by decide, rfl, ends⟩

end Dialect

end RegisterMachine
