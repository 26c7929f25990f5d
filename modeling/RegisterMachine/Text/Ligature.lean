import RegisterMachine.Text.ZeroWidth

/-!
# Ligatures

In some scripts a letter and the letters before it are drawn as one: lam and alef
in Arabic, consonants around a joiner in Tifinagh, a letter under another one in
Khmer, and others.  Ligatures are read from their ends, and a character before
the last letter of a ligature either belongs to it or stands for itself.
-/

namespace RegisterMachine

namespace Text

/-- The part of a ligature from some place up to its end.  A letter that is
`joined` has a joiner in front. -/
inductive LigatureTail where
  /-- An Arabic alef, also with marks. -/
  | alef
  /-- A Hebrew lamed. -/
  | lamed (joined : Bool)
  /-- A Buginese ya. -/
  | ya (joined : Bool)
  /-- A joined Buginese ya after the vowel i. -/
  | yaAfterI
  /-- A Tifinagh consonant. -/
  | consonant (joined : Bool)
  /-- A Tifinagh consonant after the sign that joins consonants. -/
  | signedConsonant
  /-- A Lisu tone letter of the second kind. -/
  | toneLetter
  /-- An Old Turkic letter i. -/
  | orkhonI (joined : Bool)
  /-- A Khmer letter that can stand under another one. -/
  | subscriptLetter
  /-- A Kirat Rai vowel e. -/
  | vowelE
  /-- A Kirat Rai vowel ai, in one character or in two. -/
  | vowelAi
deriving DecidableEq

def isAlef (character : Char) : Bool :=
  isAmong
    [(0x0622, 0x0623), (0x0625, 0x0625), (0x0627, 0x0627), (0x0671, 0x0673),
     (0x0675, 0x0675), (0x0773, 0x0774), (0x0870, 0x0882)]
    character

def isLam (character : Char) : Bool :=
  isAmong
    [(0x0644, 0x0644), (0x06B5, 0x06B8), (0x076A, 0x076A), (0x08A6, 0x08A6),
     (0x08C7, 0x08C7)]
    character

/-- Whether a character is a Khmer letter that can stand under another one. -/
def isSubscriptLetter (character : Char) : Bool :=
  isAmong
    [(0x1780, 0x1782), (0x1784, 0x1787), (0x1789, 0x178C), (0x178E, 0x1793),
     (0x1795, 0x1798), (0x179B, 0x179D), (0x17A0, 0x17A0), (0x17A2, 0x17A2),
     (0x17A7, 0x17A7), (0x17AB, 0x17AC), (0x17AF, 0x17AF)]
    character

def isConsonant (character : Char) : Bool :=
  isAmong [(0x2D31, 0x2D65), (0x2D6F, 0x2D6F)] character

/-- Whether a character can stand inside of a ligature without a trace. -/
def isSkippedInLigature (character : Char) : Bool :=
  isAmong
    [(0x034F, 0x034F), (0x17B4, 0x17B5), (0x180B, 0x180D), (0x180F, 0x180F),
     (0x200D, 0x200D), (0xFE00, 0xFE0F), (0xE0100, 0xE01EF)]
    character

namespace LigatureTail

def ofCharacter? (character : Char) : Option LigatureTail :=
  if isAlef character then some .alef
  else if isSubscriptLetter character then some .subscriptLetter
  else if isConsonant character then some (.consonant false)
  else
    match character.toNat with
    | 0x05DC => some (.lamed false)
    | 0x1A10 => some (.ya false)
    | 0xA4FC | 0xA4FD => some .toneLetter
    | 0x10C03 => some (.orkhonI false)
    | 0x16D67 => some .vowelE
    | 0x16D68 => some .vowelAi
    | _ => none

/-- Whether a style selector can stand inside of a ligature. -/
def takesSelector : LigatureTail → Bool
  | .vowelE | .vowelAi => false
  | _ => true

/-- Whether joiners and selectors of variants can stand inside of a ligature. -/
def takesJoiner : LigatureTail → Bool
  | .alef | .vowelE | .vowelAi => false
  | _ => true

def join : LigatureTail → LigatureTail
  | .lamed _ => .lamed true
  | .ya _ => .ya true
  | .consonant _ => .consonant true
  | .orkhonI _ => .orkhonI true
  | ligature => ligature

/-- A ligature with one more letter or mark in front, and the columns that it
adds.  The result holds no ligature when this one begins with the letter. -/
def merge? : LigatureTail → Char → Option (Int × Option LigatureTail)
  | .alef, character =>
    if isLam character then some (0, none)
    else if isTransparent character then some (0, some .alef)
    else none
  | .lamed joined, character =>
    if joined && character.toNat = 0x05D0 then some (0, none) else none
  | .ya joined, character =>
    if joined && character.toNat = 0x1A17 then some (0, some .yaAfterI) else none
  | .yaAfterI, character =>
    if character.toNat = 0x1A15 then some (0, none) else none
  | .consonant joined, character =>
    if character.toNat = 0x2D7F then some (1, some .signedConsonant)
    else if joined && isConsonant character then some (0, none)
    else none
  | .signedConsonant, character =>
    if isConsonant character then some (-1, none) else none
  | .toneLetter, character =>
    if isAmong [(0xA4F8, 0xA4FB)] character then some (0, none) else none
  | .orkhonI joined, character =>
    if joined && character.toNat = 0x10C32 then some (0, none) else none
  | .subscriptLetter, character =>
    if character.toNat = 0x17D2 then some (-1, none) else none
  | .vowelE, character =>
    match character.toNat with
    | 0x16D63 | 0x16D69 => some (0, none)
    | 0x16D67 => some (0, some .vowelAi)
    | 0x16D68 => some (1, some .vowelE)
    | _ => none
  | .vowelAi, character =>
    if character.toNat = 0x16D63 then some (0, none) else none

/-- A ligature with one more character in front, and the columns that it adds. -/
def extend? (ligature : LigatureTail) (character : Char) :
    Option (Int × Option LigatureTail) :=
  if ligature.takesJoiner && isJoiner character then some (0, some ligature.join)
  else if ligature.takesJoiner && isSkippedInLigature character then
    some (0, some ligature)
  else ligature.merge? character

end LigatureTail

end Text

end RegisterMachine
