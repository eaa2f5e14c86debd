import Fieldbus.Text.Combining
import Fieldbus.Text.EastAsian
import Fieldbus.Text.Emoji

/-!
# What stands behind a character

Some characters are drawn together with those behind them: Arabic lam and alef, a consonant of Khmer
and the sign that puts it below, the parts of a flag or of a joined emoji.  So the width of a text is
found from its end to its start.  A `Follower` is what has to be known of the text behind a
character; `alone` gives the width of a character that stands for itself, and `Follower.merge?` what
a character adds to the width when it is drawn together with its follower.  This may be less than
nothing: a consonant that goes below another letter has been counted before the sign is seen.
-/

set_option autoImplicit false

namespace Fieldbus
namespace Text

/-- The last letter of a ligature.  It is still known as such behind a zero width joiner and behind
signs that do not part letters. -/
inductive LigatureEnd where
  | hebrewLamed
  | bugineseYa
  /-- The vowel sign i before a joined ya. -/
  | bugineseVowelI
  | tifinaghConsonant
  /-- The joiner of Tifinagh before a consonant. -/
  | tifinaghJoiner
  /-- One of the two tone letters of Lisu that follow another one closely. -/
  | lisuTone
  | oldTurkicI
  /-- A letter of Khmer that may stand below another one. -/
  | khmerLetter
deriving DecidableEq, Repr

/-- What is known of the text behind a character. -/
inductive Follower where
  /-- Nothing that matters. -/
  | other
  | arabicAlef
  /-- The end of a ligature; `joined` if a zero width joiner stands before it. -/
  | ligature (letter : LigatureEnd) (joined : Bool)
  | kiratVowelE
  | kiratVowelAi
  /-- The colour of an emoji. -/
  | skinTone
  /-- A complete emoji. -/
  | emoji
  /-- A zero width joiner and an emoji. -/
  | joinedEmoji
  /-- The frame of a keycap, a zero width joiner and an emoji. -/
  | joinedKeycap
  /-- One regional indicator. -/
  | indicator
  /-- Two regional indicators or more. -/
  | indicators
  /-- One regional indicator, a zero width joiner and an emoji. -/
  | joinedIndicator
  /-- Two regional indicators or more, a zero width joiner and an emoji. -/
  | joinedIndicators (even : Bool)
  /-- The end of a tag and so many letters of it, a zero width joiner and an emoji. -/
  | tagLetters (count : Nat)
  /-- So many digits of a tag and the rest of it, a zero width joiner and an emoji. -/
  | tagDigits (count : Nat)
deriving DecidableEq, Repr

/-! ## Characters that stand for themselves -/

/-- The number of the zero width joiner. -/
def zeroWidthJoiner : Nat := 0x200D

/-- Is a letter an alef, alone or with a sign? -/
def isArabicAlef : Nat → Bool :=
  inRanges [(0x622, 0x623), (0x625, 0x625), (0x627, 0x627), (0x671, 0x673), (0x675, 0x675),
    (0x773, 0x774), (0x870, 0x882)]

/-- Is a letter a lam that is drawn together with an alef? -/
def isArabicLam : Nat → Bool :=
  inRanges [(0x644, 0x644), (0x6B5, 0x6B8), (0x76A, 0x76A), (0x8A6, 0x8A6), (0x8C7, 0x8C7)]

/-- Is a letter a consonant of Tifinagh? -/
def isTifinaghConsonant : Nat → Bool := inRanges [(0x2D31, 0x2D65), (0x2D6F, 0x2D6F)]

/-- May a letter of Khmer stand below another one without making it wider? -/
def isKhmerLetter : Nat → Bool :=
  inRanges [(0x1780, 0x1782), (0x1784, 0x1787), (0x1789, 0x178C), (0x178E, 0x1793),
    (0x1795, 0x1798), (0x179B, 0x179D), (0x17A0, 0x17A0), (0x17A2, 0x17A2), (0x17A7, 0x17A7),
    (0x17AB, 0x17AC), (0x17AF, 0x17AF)]

/-- The letter as the end of a ligature. -/
def LigatureEnd.ofLetter? (n : Nat) : Option LigatureEnd :=
  match n with
  | 0x5DC => some hebrewLamed
  | 0x1A10 => some bugineseYa
  | 0xA4FC => some lisuTone
  | 0xA4FD => some lisuTone
  | 0x10C03 => some oldTurkicI
  | n =>
    if isTifinaghConsonant n then some tifinaghConsonant
    else if isKhmerLetter n then some khmerLetter
    else none

/-- What a character is to the one before it, if it is no emoji and merges with nothing. -/
def Follower.ofLetter (n : Nat) : Follower :=
  match LigatureEnd.ofLetter? n with
  | some letter => ligature letter false
  | none =>
    if isArabicAlef n then arabicAlef
    else if n = 0x16D67 then kiratVowelE
    else if n = 0x16D68 then kiratVowelAi
    else other

/-- The width of a character that is no emoji.  Two letters of Khmer are drawn like a pair of
letters and like three. -/
def letterWidth (n : Nat) : Nat :=
  if n = 0x17D8 then 3
  else if n = 0x17A4 then 2
  else if isCombining n then 0
  else if isWide n then 2
  else 1

/-- The width of a character that stands for itself, and what it is to the one before it. -/
def alone (n : Nat) : Nat × Follower :=
  if isIndicator n then (1, .indicator)
  else if isSkinTone n then (2, .skinTone)
  else if isEmoji n then (2, .emoji)
  else (letterWidth n, .ofLetter n)

/-! ## Characters that are drawn together -/

/-- Is a sign skipped between the letters of a ligature? -/
def isLigatureTransparent : Nat → Bool :=
  inRanges [(0x34F, 0x34F), (0x17B4, 0x17B5), (0x180B, 0x180D), (0x180F, 0x180F), (0xFE00, 0xFE0F),
    (0xE0100, 0xE01EF)]

/-- A character that is skipped before the end of a ligature. -/
def LigatureEnd.pass? (letter : LigatureEnd) (joined : Bool) (n : Nat) : Option (Int × Follower) :=
  if n = zeroWidthJoiner then some (0, .ligature letter true)
  else if isLigatureTransparent n then some (0, .ligature letter joined)
  else none

/-- A character before the end of a ligature. -/
def LigatureEnd.merge? (letter : LigatureEnd) (joined : Bool) (n : Nat) : Option (Int × Follower) :=
  match letter.pass? joined n with
  | some passed => some passed
  | none => match letter, joined with
    | hebrewLamed, true => if n = 0x5D0 then some (0, .other) else none
    | bugineseYa, true => if n = 0x1A17 then some (0, .ligature bugineseVowelI true) else none
    | bugineseVowelI, _ => if n = 0x1A15 then some (0, .other) else none
    | tifinaghConsonant, joined =>
      if n = 0x2D7F then some (1, .ligature tifinaghJoiner true)
      else if joined && isTifinaghConsonant n then some (0, .other)
      else none
    | tifinaghJoiner, _ => if isTifinaghConsonant n then some (-1, .other) else none
    | lisuTone, _ => if 0xA4F8 ≤ n && n ≤ 0xA4FB then some (0, .other) else none
    | oldTurkicI, true => if n = 0x10C32 then some (0, .other) else none
    | khmerLetter, _ => if n = 0x17D2 then some (-1, .other) else none
    | _, _ => none

/-- A character before a vowel sign of Kirat Rai; the signs join to others. -/
def mergeKiratVowel? (ai : Bool) (n : Nat) : Option (Int × Follower) :=
  match ai, n with
  | _, 0x16D63 => some (0, .other)
  | false, 0x16D67 => some (0, .kiratVowelAi)
  | false, 0x16D68 => some (1, .kiratVowelE)
  | false, 0x16D69 => some (0, .other)
  | _, _ => none

/-- A zero width joiner before something that may be the end of a joined emoji. -/
def mergeJoiner? (n : Nat) : Option (Int × Follower) :=
  if n = zeroWidthJoiner then some (0, .joinedEmoji) else none

/-- A character before a zero width joiner and an emoji. -/
def mergeJoined? (n : Nat) : Option (Int × Follower) :=
  if n = 0x20E3 then some (0, .joinedKeycap)
  else if isIndicator n then some (1, .joinedIndicator)
  else if isSkinTone n then some (0, .skinTone)
  else if n = 0xE007F then some (0, .tagLetters 0)
  else if isEmoji n then some (0, .emoji)
  else none

/-- A character before a tag, which ends in letters: at most six, or at most four and three digits
before them.  At least three letters, or three digits, stand behind the flag that the tag belongs
to. -/
def mergeTagLetters? (count n : Nat) : Option (Int × Follower) :=
  if isTagLetter n && count < 6 then some (0, .tagLetters (count + 1))
  else if isTagDigit n && count ≤ 4 then some (0, .tagDigits 1)
  else if n = 0x1F3F4 && 3 ≤ count then some (0, .emoji)
  else none

/-- A character before the digits of a tag. -/
def mergeTagDigits? (count n : Nat) : Option (Int × Follower) :=
  if isTagDigit n && count < 3 then some (0, .tagDigits (count + 1))
  else if n = 0x1F3F4 && count = 3 then some (0, .emoji)
  else none

/-- What a character adds to the width when it is drawn together with what stands behind it, and
what both are to the character before them. -/
def Follower.merge? (behind : Follower) (n : Nat) : Option (Int × Follower) :=
  match behind with
  | other => none
  | arabicAlef =>
    if isArabicLam n then some (0, other)
    else if isTransparent n then some (0, arabicAlef)
    else none
  | ligature letter joined => letter.merge? joined n
  | kiratVowelE => mergeKiratVowel? false n
  | kiratVowelAi => mergeKiratVowel? true n
  | skinTone => if isColoured n then some (0, emoji) else mergeJoiner? n
  | emoji => mergeJoiner? n
  | joinedEmoji => mergeJoined? n
  | joinedKeycap => none
  | indicator => if isIndicator n then some (1, indicators) else none
  | indicators => if isIndicator n then some (1, indicators) else mergeJoiner? n
  | joinedIndicator => if isIndicator n then some (-1, joinedIndicators true) else none
  | joinedIndicators true =>
    if isIndicator n then some (3, joinedIndicators false) else mergeJoiner? n
  | joinedIndicators false =>
    if isIndicator n then some (-1, joinedIndicators true) else mergeJoiner? n
  | tagLetters count => mergeTagLetters? count n
  | tagDigits count => mergeTagDigits? count n

end Text
end Fieldbus
