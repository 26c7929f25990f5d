import RegisterMachine.Decimal
import RegisterMachine.Euclid
import RegisterMachine.Listing

/-!
# The command line

The command computes the greatest common divisor of two numbers on the standard
machine.  Its arguments are read from left to right; the first one that asks for
help or cannot be understood decides.  `--` ends the options.
-/

namespace RegisterMachine

namespace CommandLine

inductive Request where
  | help
  | compute (first second : Word) (showState : Bool)
deriving DecidableEq

inductive UsageError where
  | unknownOption (option : String)
  | repeatedOption (option : String)
  | invalidOperand (operand : String)
  | tooManyOperands (operand : String)
deriving DecidableEq

def UsageError.message : UsageError → String
  | unknownOption option => "error: unexpected argument '" ++ option ++ "'"
  | repeatedOption option => "error: '" ++ option ++ "' cannot be repeated"
  | invalidOperand operand => "error: '" ++ operand ++ "' is not an operand"
  | tooManyOperands operand => "error: unexpected argument '" ++ operand ++ "'"

/-- What has been understood of the arguments so far. -/
structure Reading where
  operands : List Word
  showState : Bool

namespace Reading

def start : Reading :=
  ⟨[], false⟩

def addOperand (reading : Reading) (argument : String) :
    Except UsageError Reading :=
  if 2 ≤ reading.operands.length then .error (.tooManyOperands argument)
  else
    match Word.ofDecimal? argument with
    | some value =>
      .ok { reading with operands := reading.operands ++ [value] }
    | none => .error (.invalidOperand argument)

/-- The request at the end of the arguments.  Missing operands are 40 and
32. -/
def finish (reading : Reading) : Request :=
  .compute (reading.operands.getD 0 40)
    (reading.operands.getD 1 32) reading.showState

end Reading

/-- Reads arguments as operands only. -/
def readOperands (reading : Reading) :
    List String → Except UsageError Request
  | [] => .ok reading.finish
  | argument :: rest => do
    readOperands (← reading.addOperand argument) rest

/-- Whether an argument is an option: it starts with a hyphen and goes on. -/
def isOption (argument : String) : Bool :=
  match argument.toList with
  | '-' :: _ :: _ => true
  | _ => false

/-- Whether an argument asks for help.  Short options can be written together,
and help comes before all that follow it. -/
def asksForHelp (argument : String) : Bool :=
  argument == "--help" || argument.toList.take 2 == ['-', 'h']

/-- Reads arguments, options among them. -/
def readArguments (reading : Reading) :
    List String → Except UsageError Request
  | [] => .ok reading.finish
  | argument :: rest =>
    if argument == "--" then readOperands reading rest
    else if asksForHelp argument then .ok .help
    else if argument == "--state" then
      if reading.showState then .error (.repeatedOption argument)
      else readArguments { reading with showState := true } rest
    else if isOption argument then .error (.unknownOption argument)
    else
      match reading.addOperand argument with
      | .ok extended => readArguments extended rest
      | .error usageError => .error usageError

/-- What the command does: the text it prints, the text of its errors, and its
exit code. -/
structure Reply where
  output : String
  errors : String
  exitCode : UInt32
deriving DecidableEq

def helpText : String :=
  "\n".intercalate
    ["Computes a greatest common divisor on the register machine",
      "",
      "Usage: asm-dsl [OPTIONS] [A] [B]",
      "",
      "Arguments:",
      "  [A]  First operand, loaded into `ax` [default: 40]",
      "  [B]  Second operand, loaded into `bx` [default: 32]",
      "",
      "Options:",
      "      --state  Print the machine state after the program finishes",
      "  -h, --help   Print help",
      ""]

/-- The user registers with their contents, one on each line. -/
def resultText (dialect : Dialect) (machine : Machine) : String :=
  let widest := dialect.registers.foldl
    (fun widest name => max widest (Text.width name)) 0
  let row := fun (name : Name) (cell : Cell) =>
    " " ++ Text.pad .right widest name ++ "  " ++ cell.text ++ " \n"
  String.join (List.zipWith row dialect.registers (dialect.results machine))

/-- The reply when the program has come to its end. -/
def machineReply (machine : Machine) (showState : Bool) : Reply :=
  let stateText := if showState then machine.text ++ "\n" else ""
  ⟨resultText .standard machine ++ stateText, "", 0⟩

/-- Why there is no machine on which the program has come to its end. -/
inductive Failure where
  | notPositive
  | failed (fault : Fault)
deriving DecidableEq

def Failure.reply : Failure → Reply
  | notPositive => ⟨"", "Error: both operands must be positive.\n", 2⟩
  | failed fault => ⟨"", "Error: " ++ fault.message ++ "\n", 1⟩

/-- The machine on which the program for two operands has come to its end.  The
operands have to be positive. -/
def finalMachine (first second : Word) : Except Failure Machine :=
  if first ≤ 0 || second ≤ 0 then .error .notPositive
  else
    match Dialect.standard.assemble (Euclid.program first second) with
    | .error fault => .error (.failed fault)
    | .ok machine =>
      match machine.run (Euclid.budget first second) with
      | .faulted fault _ => .error (.failed fault)
      | .halted final | .paused final => .ok final

/-- Computes a greatest common divisor. -/
def compute (first second : Word) (showState : Bool) : Reply :=
  match finalMachine first second with
  | .ok final => machineReply final showState
  | .error failure => failure.reply

def Request.reply : Request → Reply
  | help => ⟨helpText, "", 0⟩
  | compute first second showState =>
    CommandLine.compute first second showState

/-- The reply to arguments, if they can be understood. -/
def respond (arguments : List String) : Except UsageError Reply :=
  (readArguments .start arguments).map Request.reply

end CommandLine

end RegisterMachine
