import Fieldbus.Text.Follower

/-!
# The width of a text

In a table drawn with characters a column is as wide as its widest text.  `width` counts the places
that a text takes.  It goes over the characters from the last one to the first, and remembers in a
`Context` what stands behind: the follower, with which a character may be drawn together, and the
variation selectors between them, which ask for another form of the character before them.

A text of ASCII characters is as wide as it is long (`width_eq_length`).
-/

set_option autoImplicit false

namespace Fieldbus
namespace Text

/-- A variation selector that may change the width of the character before it. -/
inductive Selector where
  /-- Asks for the wide form of a quotation mark. -/
  | wideQuote
  /-- Asks for text. -/
  | text
  /-- Asks for an emoji. -/
  | emoji
deriving DecidableEq, Repr

/-- The selector that a character is. -/
def Selector.ofNat? : Nat → Option Selector
  | 0xFE01 => some wideQuote
  | 0xFE0E => some text
  | 0xFE0F => some emoji
  | _ => none

/-- Is a character one of the four curly quotation marks? -/
def isQuote (n : Nat) : Bool := n = 0x2018 || n = 0x2019 || n = 0x201C || n = 0x201D

/-- Does a joiner and an emoji stand behind a character? -/
def Follower.isJoined : Follower → Bool
  | joinedEmoji | joinedKeycap => true
  | _ => false

/-- A character that has the form which a selector asks for: its width and what it is to the
character before it. -/
def Selector.select? (s : Selector) (behind : Follower) (n : Nat) : Option (Nat × Follower) :=
  match s with
  | wideQuote => if isQuote n then some (2, .other) else none
  | text => if narrowsAsText n then some (1, .other) else none
  | emoji =>
    if hasEmojiVariation n then some (if behind.isJoined then 0 else 2, .emoji) else none

/-- The selectors behind a character that it has not answered yet.  More than one stands only before
letters that join. -/
structure Selectors where
  wideQuote : Bool := false
  text : Bool := false
  emoji : Bool := false
deriving DecidableEq, Repr

/-- One selector more. -/
def Selectors.insert (asked : Selectors) : Selector → Selectors
  | .wideQuote => { asked with wideQuote := true }
  | .text => { asked with text := true }
  | .emoji => { asked with emoji := true }

/-- One selector less. -/
def Selectors.erase (asked : Selectors) : Selector → Selectors
  | .wideQuote => { asked with wideQuote := false }
  | .text => { asked with text := false }
  | .emoji => { asked with emoji := false }

/-- Are all of them answered? -/
def Selectors.isEmpty (asked : Selectors) : Bool :=
  !asked.wideQuote && !asked.text && !asked.emoji

/-- The selector that a character answers when none asks for an emoji. -/
def Selectors.first? (asked : Selectors) : Option Selector :=
  if asked.text then some .text else if asked.wideQuote then some .wideQuote else none

/-- Is a follower a letter with which another one may join?  Selectors before it do not hide it. -/
def Follower.isLetter : Follower → Bool
  | arabicAlef | ligature _ _ => true
  | _ => false

/-- What is known of the text behind a character. -/
structure Context where
  follower : Follower := .other
  /-- The selectors between the character and the follower. -/
  asked : Selectors := {}
deriving DecidableEq, Repr

/-- What is known when a selector stands before the text.  Letters that join are still known, and an
emoji behind a joiner is known to a request for an emoji. -/
def Context.select (behind : Context) (s : Selector) : Context :=
  if behind.follower.isLetter then { behind with asked := behind.asked.insert s }
  else
    let follower := if s = .emoji && behind.follower.isJoined then behind.follower else .other
    { follower, asked := ({} : Selectors).insert s }

/-- What is still known behind a character that has not the form which a selector asks for. -/
def Context.decline (behind : Context) (s : Selector) : Context :=
  if behind.follower.isLetter then { behind with asked := behind.asked.erase s } else {}

/-- A character that is drawn together with what stands behind it.  Letters do not join across a
selector to which the character has given no answer. -/
def Context.merge? (behind : Context) (n : Nat) : Option (Int × Context) :=
  let merged := match behind.follower with
    | .ligature letter joined =>
      if behind.asked.isEmpty then letter.merge? joined n else letter.pass? joined n
    | follower => if behind.asked.isEmpty then follower.merge? n else none
  merged.map fun (places, follower) => (places, { behind with follower })

/-- A character that is asked for no other form adds this to the width. -/
def Context.beforePlain (behind : Context) (n : Nat) : Int × Context :=
  match behind.merge? n with
  | some merged => merged
  | none =>
    let (places, follower) := alone n
    (places, { follower })

/-- A character behind which no selector asks for an emoji adds this to the width. -/
def Context.beforeText (behind : Context) (n : Nat) : Int × Context :=
  if n ≤ 0xA0 then (1, {})
  else match Selector.ofNat? n with
    | some s => (0, behind.select s)
    | none => match behind.asked.first? with
      | none => behind.beforePlain n
      | some s => match s.select? behind.follower n with
        | some (places, follower) => (places, { follower })
        | none => (behind.decline s).beforePlain n

/-- What a character adds to the width of the text behind it, and what is known of both. -/
def Context.before (behind : Context) (n : Nat) : Int × Context :=
  if behind.asked.emoji then
    match Selector.emoji.select? behind.follower n with
    | some (places, follower) => (places, { follower })
    | none => (behind.decline .emoji).beforeText n
  else behind.beforeText n

/-- The places that characters take, and what is known of them. -/
def measure (cs : List Char) : Int × Context :=
  cs.foldr (fun c (total, behind) =>
    let (places, context) := behind.before c.toNat
    (total + places, context)) (0, {})

/-- The places that a text takes. -/
def width (s : String) : Nat := (measure s.toList).1.toNat

/-- ASCII characters take one place each, and nothing has to be known of them. -/
theorem measure_of_ascii {cs : List Char} (h : ∀ c ∈ cs, c.toNat ≤ 0x7F) :
    measure cs = ((cs.length : Int), {}) := by
  induction cs with
  | nil => rfl
  | cons c rest ih =>
    have hc : c.toNat ≤ 0xA0 := Nat.le_trans (h c (by simp)) (by decide)
    have hrest := ih fun d hd => h d (by simp [hd])
    rw [measure] at hrest ⊢
    rw [List.foldr_cons, hrest]
    simp [Context.before, Context.beforeText, hc]

/-- A text of ASCII characters is as wide as it is long. -/
theorem width_eq_length {s : String} (h : ∀ c ∈ s.toList, c.toNat ≤ 0x7F) :
    width s = s.toList.length := by
  rw [width, measure_of_ascii h]
  rfl

end Text
end Fieldbus
