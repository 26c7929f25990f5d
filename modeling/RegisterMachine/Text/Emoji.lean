import RegisterMachine.Text.EmojiCharacters
import RegisterMachine.Text.ZeroWidth

/-!
# Emoji of several characters

Several characters can make up a single emoji: a skin tone colours the emoji
before it, two letters are the flag of a country, a joiner merges emoji, and a
tag after a flag names a region.  Such sequences are read from their ends, and a
character before a sequence either belongs to it or stands for itself.
-/

namespace RegisterMachine

namespace Text

/-- The part of an emoji from some place up to its end. -/
inductive EmojiTail where
  /-- A whole emoji. -/
  | whole
  /-- A skin tone. -/
  | skinTone
  /-- A single letter of a flag. -/
  | flagLetter
  /-- Several letters of flags. -/
  | flagLetters
  /-- A joiner before an emoji. -/
  | joined
  /-- A keycap that is joined to an emoji. -/
  | joinedKeycap
  /-- A single letter of a flag that is joined to an emoji. -/
  | joinedLetter
  /-- Flags, the last of which is joined to an emoji. -/
  | joinedFlags
  /-- Three letters of flags, or a greater odd number of them, that are joined to
  an emoji. -/
  | joinedLetters
  /-- The last letters of a tag that is joined to an emoji. -/
  | tagLetters (count : Nat)
  /-- Digits of a tag that is joined to an emoji. -/
  | tagDigits (count : Nat)
deriving DecidableEq

namespace EmojiTail

def ofCharacter? (character : Char) : Option EmojiTail :=
  if isFlagLetter character then some .flagLetter
  else if isSkinTone character then some .skinTone
  else if isPictograph character then some .whole
  else none

/-- Whether a selector for the emoji style can stand before this part of an
emoji. -/
def takesSelector : EmojiTail → Bool
  | .joined | .joinedKeycap => true
  | _ => false

/-- The emoji before a joiner. -/
def join? (character : Char) : Option (Int × EmojiTail) :=
  if isJoiner character then some (0, .joined) else none

/-- An emoji with one more character in front, and the columns that it adds.  The
letters of flags pair up from the first one on, so with each of them the flag
that the joiner takes away is another one. -/
def extend? : EmojiTail → Char → Option (Int × EmojiTail)
  | .whole, character => join? character
  | .skinTone, character =>
    if isSkinToneBase character then some (0, .whole) else join? character
  | .flagLetter, character =>
    if isFlagLetter character then some (1, .flagLetters) else none
  | .flagLetters, character =>
    if isFlagLetter character then some (1, .flagLetters) else join? character
  | .joined, character =>
    if character.toNat = 0x20E3 then some (0, .joinedKeycap)
    else if character.toNat = 0xE007F then some (0, .tagLetters 0)
    else if isFlagLetter character then some (1, .joinedLetter)
    else if isSkinTone character then some (0, .skinTone)
    else if isPictograph character then some (0, .whole)
    else none
  | .joinedKeycap, _ => none
  | .joinedLetter, character =>
    if isFlagLetter character then some (-1, .joinedFlags) else none
  | .joinedFlags, character =>
    if isFlagLetter character then some (3, .joinedLetters) else join? character
  | .joinedLetters, character =>
    if isFlagLetter character then some (-1, .joinedFlags) else join? character
  | .tagLetters count, character =>
    if isTagLetter character && count < 6 then some (0, .tagLetters (count + 1))
    else if isTagDigit character && count < 5 then some (0, .tagDigits 1)
    else if character.toNat = 0x1F3F4 && 3 ≤ count then some (0, .whole)
    else none
  | .tagDigits count, character =>
    if isTagDigit character && count < 3 then some (0, .tagDigits (count + 1))
    else if character.toNat = 0x1F3F4 && count = 3 then some (0, .whole)
    else none

end EmojiTail

end Text

end RegisterMachine
