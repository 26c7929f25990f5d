import RegisterMachine.Word

/-!
# Reading decimal numbers

A number is written with decimal digits, at least one, after an optional sign.
Only the ten ASCII digits count, and nothing else may be in the text.
-/

namespace RegisterMachine

namespace Decimal

def digit? (character : Char) : Option Nat :=
  if character.isDigit then some (character.toNat - '0'.toNat) else none

/-- The number written with these digits, after those of `value`. -/
def continueFrom? (value : Nat) : List Char → Option Nat
  | [] => some value
  | character :: rest =>
    match digit? character with
    | some digit => continueFrom? (10 * value + digit) rest
    | none => none

/-- The number written with these digits, of which there must be some. -/
def natural? : List Char → Option Nat
  | [] => none
  | digits => continueFrom? 0 digits

def integer? : List Char → Option Int
  | '-' :: digits => (natural? digits).map fun value => -(value : Int)
  | '+' :: digits => (natural? digits).map fun value => (value : Int)
  | digits => (natural? digits).map fun value => (value : Int)

end Decimal

/-- The word written in `text`, unless the text is no number or the number needs
more than 64 bits. -/
def Word.ofDecimal? (text : String) : Option Word :=
  (Decimal.integer? text.toList).bind Word.ofInt?

end RegisterMachine
