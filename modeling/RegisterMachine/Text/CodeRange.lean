/-!
# Ranges of characters

A kind of characters is given by a list of ranges of code points.
-/

namespace RegisterMachine

namespace Text

/-- Whether a character lies in one of some ranges of code points, both ends
included. -/
def isAmong (ranges : List (Nat × Nat)) (character : Char) : Bool :=
  ranges.any fun range =>
    range.1 ≤ character.toNat && character.toNat ≤ range.2

end Text

end RegisterMachine
