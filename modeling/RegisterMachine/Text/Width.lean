import RegisterMachine.Text.Emoji
import RegisterMachine.Text.Ligature
import RegisterMachine.Text.WideCharacters

/-!
# Display width

The number of columns that a line takes on a terminal.  On their own, wide
characters take two columns, marks and invisible characters none, and all others
one, control characters included.  Emoji and ligatures of several characters
take the columns of what is drawn, and a selector after a character chooses
whether that is drawn as an emoji or as text.

A line is read from its end, since what a character adds depends on the
characters after it.  A sequence that changes colours, an escape character
followed by a bracket and everything up to the letter `m`, takes only the column
of its escape character.
-/

namespace RegisterMachine

namespace Text

/-- The columns of a character on its own. -/
def characterWidth (character : Char) : Nat :=
  if character.toNat = 0x17D8 then 3
  else if isZeroWidth character then 0
  else if isWide character then 2
  else 1

/-- What the characters after a place have begun, read from the end. -/
inductive Tail where
  /-- Nothing that a character before it could belong to. -/
  | plain
  | emoji (sequence : EmojiTail)
  | ligature (letters : LigatureTail)
deriving DecidableEq

namespace Tail

def ofCharacter (character : Char) : Tail :=
  match EmojiTail.ofCharacter? character, LigatureTail.ofCharacter? character with
  | some sequence, _ => .emoji sequence
  | none, some letters => .ligature letters
  | none, none => .plain

/-- What is left when one more character comes in front, and the columns that it
adds. -/
def extend (tail : Tail) (character : Char) : Int × Tail :=
  let extended? : Option (Int × Tail) :=
    match tail with
    | .plain => none
    | .emoji sequence =>
      (sequence.extend? character).map fun (columns, next) =>
        (columns, .emoji next)
    | .ligature letters =>
      (letters.extend? character).map fun (columns, next?) =>
        (columns, next?.elim .plain .ligature)
  extended?.getD (characterWidth character, ofCharacter character)

/-- Whether a selector may stand before a ligature without breaking it. -/
def takesAnySelector : Tail → Bool
  | .ligature letters => letters.takesSelector
  | _ => false

/-- Whether a character in the emoji style merges with the emoji after it. -/
def mergesEmoji : Tail → Bool
  | .emoji sequence => sequence.takesSelector
  | _ => false

end Tail

structure Following where
  tail : Tail
  /-- Whether a selector for the emoji style comes first. -/
  emojiStyle : Bool
  /-- Whether a selector for the text style comes first. -/
  textStyle : Bool
deriving DecidableEq

namespace Following

def ofTail (tail : Tail) : Following :=
  ⟨tail, false, false⟩

def selectEmoji (following : Following) : Following :=
  if following.tail.takesAnySelector || following.tail.mergesEmoji then
    { following with emojiStyle := true }
  else ⟨.plain, true, false⟩

def selectText (following : Following) : Following :=
  if following.tail.takesAnySelector then { following with textStyle := true }
  else ⟨.plain, false, true⟩

/-- Drops a selector for the emoji style that has no effect. -/
def ignoreEmojiStyle (following : Following) : Following :=
  if !following.emojiStyle then following
  else if following.tail.takesAnySelector then
    { following with emojiStyle := false }
  else ofTail .plain

/-- Puts a character in front that is not in the emoji style. -/
def extendPlain (following : Following) (character : Char) : Int × Following :=
  if character.toNat ≤ 0xA0 then (1, ofTail .plain)
  else if character.toNat = 0xFE0F then (0, following.selectEmoji)
  else if character.toNat = 0xFE0E then (0, following.selectText)
  else if following.textStyle && takesTextStyle character then
    (1, ofTail .plain)
  else
    let (columns, tail) := following.tail.extend character
    (columns, ofTail tail)

/-- What follows the place before a character, and the columns that the character
adds. -/
def extend (following : Following) (character : Char) : Int × Following :=
  if following.emojiStyle && takesEmojiStyle character then
    (if following.tail.mergesEmoji then 0 else 2, ofTail (.emoji .whole))
  else following.ignoreEmojiStyle.extendPlain character

end Following

/-- The columns of the end of a line, and what follows the place before it. -/
def measure (line : List Char) : Int × Following :=
  line.foldr
    (fun character (columns, following) =>
      let (more, next) := following.extend character
      (more + columns, next))
    (0, .ofTail .plain)

/-- The place of a character with regard to colour sequences. -/
inductive ColourState where
  /-- Outside of sequences. -/
  | plain
  /-- Right after an escape character. -/
  | escaped
  /-- Between the bracket and the end of a sequence. -/
  | hidden
deriving DecidableEq

/-- Whether a character takes columns and can be seen. -/
def isVisible (character : Char) : Bool :=
  !isAmong [(0x00, 0x1F), (0x7F, 0x9F)] character && 0 < characterWidth character

/-- The place after a character, and whether the character is hidden. -/
def ColourState.next (state : ColourState) (character : Char) :
    ColourState × Bool :=
  match state with
  | .plain => (if character = '\x1b' then .escaped else .plain, false)
  | .escaped => if character = '[' then (.hidden, true) else (.plain, false)
  | .hidden =>
    (if character = 'm' then .plain else .hidden, isVisible character)

/-- Counts a character if it is hidden. -/
def ColourState.count (progress : ColourState × Nat) (character : Char) :
    ColourState × Nat :=
  let (next, isHidden) := progress.1.next character
  (next, if isHidden then progress.2 + 1 else progress.2)

def hiddenCount (line : List Char) : Nat :=
  (line.foldl ColourState.count (.plain, 0)).2

/-- The columns of a line.  Every hidden character takes one of them away. -/
def width (line : String) : Nat :=
  ((measure line.toList).1 - hiddenCount line.toList).toNat

end Text

end RegisterMachine
