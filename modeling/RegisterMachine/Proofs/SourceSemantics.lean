import RegisterMachine.Proofs.UserRegisters

/-!
# Programs that run as they are written

A semantics of programs that knows neither instruction table nor addresses of
labels.  A program runs over its own lines: the state is a position between the
lines, the registers of the user, and the result of the last comparison.  Lines
that queue nothing are passed over, and a jump leads to a position in the text,
behind the last definition of its label or behind an instruction given by its
number.
-/

namespace RegisterMachine

namespace Program

/-- The position just after the instruction with this number, counted from
zero. -/
def positionAfter : Program → Nat → Nat
  | [], _ => 0
  | line :: rest, number =>
    match line.instruction?, number with
    | none, number => positionAfter rest number + 1
    | some _, 0 => 1
    | some _, number + 1 => positionAfter rest number + 1

theorem addressAt_cons_succ (line : Invocation) (rest : Program)
    (position : Nat) :
    addressAt (line :: rest) (position + 1) =
      line.instruction?.toList.length + addressAt rest position := by
  rw [addressAt, List.take_succ_cons, ← List.singleton_append,
    instructions_append, instructions_singleton, List.length_append, addressAt]

theorem addressAt_positionAfter {program : Program} {number : Nat}
    (inside : number < (instructions program).length) :
    addressAt program (positionAfter program number) = number + 1 := by
  induction program generalizing number with
  | nil => simp [instructions] at inside
  | cons line rest induction =>
    rw [← List.singleton_append, instructions_append, instructions_singleton,
      List.length_append] at inside
    cases queued : line.instruction? with
    | none =>
      have inRest : addressAt rest (positionAfter rest number) = number + 1 :=
        induction (by simpa [queued] using inside)
      simp [positionAfter, addressAt_cons_succ, queued, inRest]
    | some instruction =>
      cases number with
      | zero =>
        simp [positionAfter, queued, addressAt_succ]
      | succ number =>
        have insideRest : number < (instructions rest).length := by
          simp only [queued, Option.toList_some, List.length_singleton] at inside
          omega
        have inRest := induction insideRest
        simp only [positionAfter, addressAt_cons_succ, queued, inRest,
          Option.toList_some, List.length_singleton]
        omega

end Program

namespace Source

open Program

/-- The state of a program between two lines. -/
structure State where
  position : Nat
  registers : RegisterBank
  flag : Word

namespace State

def start (registers : List Name) : State :=
  ⟨0, ⟨registers.map .zero⟩, 0⟩

def next (state : State) : State :=
  { state with position := state.position + 1 }

def store (state : State) (name : Name) (cell : Cell) : State :=
  { state with registers := state.registers.write name cell }

def compare (state : State) (difference : Word) : State :=
  { state with flag := difference }

end State

/-- The position behind the instruction that a literal address names.  Behind
the last instruction a program is at its end. -/
def literalPosition (program : Program) (address : Word) : Nat :=
  if address = -1 then 0
  else if (instructions program).length ≤ address.toNatClampNeg + 1 then
    program.length
  else positionAfter program address.toNatClampNeg

/-- The position that a taken jump leads to. -/
def target (program : Program) : Argument → Except Fault Nat
  | .literal address =>
    if address < -1 then .error (.invalidAddress address)
    else .ok (literalPosition program address)
  | .label name =>
    match labelPosition? name program with
    | some position => .ok position
    | none => .error (.undefinedLabel name)
  | .register name => .error (.notAnAddress (.register name))

/-- The state after an operation acted on the registers, on the flag or on the
position. -/
def act (program : Program) (mnemonic : Mnemonic) (arguments : List Argument)
    (state : State) : Except Fault State :=
  match mnemonic, arguments with
  | .mov, [destination, source] => do
    let register ← state.registers.destination .mov destination
    return (state.store register.name source.toCell).next
  | .inc, destination :: amount => do
    let (name, sum) ←
      state.registers.computed .inc (· + ·) destination amount.head?
    return (state.store name (.number sum)).next
  | .dec, destination :: amount => do
    let (name, difference) ←
      state.registers.computed .dec (· - ·) destination amount.head?
    return (state.store name (.number difference)).next
  | .cmp, destination :: amount => do
    let (_, difference) ←
      state.registers.computed .cmp (· - ·) destination amount.head?
    return (state.compare difference).next
  | .jump condition, [argument] =>
    if condition.holds state.flag then do
      let position ← target program argument
      return { state with position }
    else .ok state.next
  | _, _ => .error (.wrongArity mnemonic.text mnemonic.arity arguments.length)

inductive Move where
  /-- No line is left. -/
  | stop
  /-- The line queues nothing and is passed over. -/
  | skip
  /-- The line is executed. -/
  | act (next : State)
  /-- The line fails. -/
  | fail (fault : Fault)

def move (program : Program) (state : State) : Move :=
  match program[state.position]? with
  | none => .stop
  | some line =>
    match line.mnemonic? with
    | none | some .label => .skip
    | some mnemonic =>
      match act program mnemonic line.arguments state with
      | .ok next => .act next
      | .error fault => .fail fault

variable {program : Program} {state : State} {line : Invocation}

theorem move_of_end (atEnd : program[state.position]? = none) :
    move program state = .stop := by
  rw [move, atEnd]

theorem move_of_silent (atPosition : program[state.position]? = some line)
    (silent : line.instruction? = none) : move program state = .skip := by
  rw [move, atPosition]
  unfold Invocation.instruction? at silent
  split at silent
  next unnamed => simp [unnamed]
  next isLabel => simp [isLabel]
  next => cases silent

theorem move_of_queued {mnemonic : Mnemonic}
    (atPosition : program[state.position]? = some line)
    (named : line.mnemonic? = some mnemonic) (notLabel : mnemonic ≠ .label) :
    move program state =
      match act program mnemonic line.arguments state with
      | .ok next => .act next
      | .error fault => .fail fault := by
  rw [move, atPosition]
  simp only [named]

theorem position_lt_of_skip (skips : move program state = .skip) :
    state.position < program.length := by
  by_contra outside
  have atEnd : program[state.position]? = none :=
    List.getElem?_eq_none (by omega)
  rw [move_of_end atEnd] at skips
  cases skips

inductive Ending where
  /-- No line is left. -/
  | halted (state : State)
  /-- The line at the position fails. -/
  | faulted (fault : Fault) (state : State)
  /-- The budget is used up. -/
  | paused (state : State)

/-- Executes at most `budget` lines.  Passing over a line costs nothing. -/
def run (program : Program) : Nat → State → Ending
  | 0, state => .paused state
  | budget + 1, state =>
    match moved : move program state with
    | .stop => .halted state
    | .skip => run program (budget + 1) state.next
    | .act next => run program budget next
    | .fail fault => .faulted fault state
termination_by budget state => (budget, program.length - state.position)
decreasing_by
  · have inside := position_lt_of_skip moved
    exact Prod.Lex.right _ (Nat.sub_succ_lt_self _ _ inside)
  · exact Prod.Lex.left _ _ (Nat.lt_succ_self budget)

end Source

end RegisterMachine
