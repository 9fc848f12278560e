import LinkageCheck.Text.Emoji
import LinkageCheck.Text.Ligature

/-! Columns that a text takes on a terminal (Unicode 15.1). Most characters have a width of their
own; emoji sequences, line ends and ligatures are measured together with what follows. -/

namespace LinkageCheck.Text

/-- The tag characters before the cancel tag of a flag of a region, counted from the end: letters,
or up to three digits in front of at most four letters. -/
inductive RegionTags where
  | letters (count : Nat)
  | digits (count : Nat)
  deriving DecidableEq, Repr

namespace RegionTags

def precede? (t : RegionTags) (c : Char) : Option RegionTags :=
  match t with
  | letters n =>
    if inRanges [(0xe0061, 0xe007a)] c ∧ n < 6 then some (letters (n + 1))
    else if inRanges [(0xe0030, 0xe0039)] c ∧ n ≤ 4 then some (digits 1)
    else none
  | digits n => if inRanges [(0xe0030, 0xe0039)] c ∧ n < 3 then some (digits (n + 1)) else none

def complete : RegionTags → Bool
  | letters n => 3 ≤ n
  | digits n => n = 3

end RegionTags

/-- What a text begins with, as far as it changes the width of what stands before it. A `joined`
part is tied to the position by a zero width joiner in front of an emoji. -/
inductive TextStart where
  | plain
  | lineFeed
  | emoji
  | skinTone
  | regional
  | regionals
  | joined
  | joinedKeycap
  | joinedRegional
  | joinedFlags (odd : Bool)
  | joinedTags (tags : RegionTags)
  | ligature (part : LigatureEnd) (joiner : Bool)
  deriving DecidableEq, Repr

namespace TextStart

def ofChar (c : Char) : TextStart :=
  if c = '\n' then lineFeed
  else if isRegionalIndicator c then regional
  else if isSkinTone c then skinTone
  else if isEmojiStyled c then emoji
  else (LigatureEnd.ofChar? c).elim plain (ligature · false)

def widthAlone (c : Char) : Nat :=
  if c = '\n' then 0 else charWidth c

def alone (c : Char) : Int × TextStart := (widthAlone c, ofChar c)

def admitsJoiner : TextStart → Bool
  | emoji | skinTone | regionals | joinedFlags _ => true
  | ligature part _ => part.admitsJoiner
  | _ => false

def joiner : TextStart → TextStart
  | ligature part _ => ligature part true
  | _ => joined

/-- What remains of the start of a text once a variation selector stands in front of it. An emoji
selector keeps a joined emoji tied, as the selector may end the emoji before the joiner. -/
def underSelector (toEmoji : Bool) : TextStart → TextStart
  | ligature part joiner => ligature part joiner
  | joined => if toEmoji then joined else plain
  | joinedKeycap => if toEmoji then joinedKeycap else plain
  | _ => plain

def pastSelector : TextStart → TextStart
  | ligature part joiner => ligature part joiner
  | _ => plain

def precedeJoined? (c : Char) : Option (Int × TextStart) :=
  if c.toNat = 0x20e3 then some (0, joinedKeycap)
  else if isRegionalIndicator c then some (1, joinedRegional)
  else if isSkinTone c then some (0, skinTone)
  else if c.toNat = 0xe007f then some (0, joinedTags (.letters 0))
  else if isEmojiStyled c then some (0, emoji)
  else none

/-- The columns that a character adds in front of the start of a text with which it forms a
sequence, and what the text then begins with. Of regional indicators in a row, each two make a
flag. -/
def precede? (s : TextStart) (c : Char) : Option (Int × TextStart) :=
  if c.toNat = 0x200d then if s.admitsJoiner then some (0, s.joiner) else none
  else
    match s with
    | ligature part joiner =>
      match part.precede? joiner c with
      | some (columns, next) => some (columns, next.elim plain (ligature · true))
      | none => if part.passes c then some (0, s) else none
    | skinTone => if isSkinToneBase c then some (0, emoji) else none
    | regional | regionals => if isRegionalIndicator c then some (1, regionals) else none
    | joined => precedeJoined? c
    | joinedRegional => if isRegionalIndicator c then some (-1, joinedFlags false) else none
    | joinedFlags odd =>
      if isRegionalIndicator c then some (if odd then -1 else 3, joinedFlags !odd) else none
    | joinedTags tags =>
      if c.toNat = 0x1f3f4 ∧ tags.complete then some (0, emoji)
      else (tags.precede? c).map fun more => (0, joinedTags more)
    | lineFeed => if c = '\r' then some (0, plain) else none
    | plain | emoji | joinedKeycap => none

def precede (s : TextStart) (c : Char) : Int × TextStart :=
  (s.precede? c).getD (alone c)

end TextStart

inductive Selector where
  | asText | asEmoji
  deriving DecidableEq, Repr

namespace Selector

def ofChar? (c : Char) : Option Selector :=
  if c.toNat = 0xfe0e then some asText
  else if c.toNat = 0xfe0f then some asEmoji
  else none

end Selector

structure TextAhead where
  selector : Option Selector
  start : TextStart
  deriving DecidableEq, Repr

namespace TextAhead

def select (t : TextAhead) (s : Selector) : TextAhead :=
  let start := if t.selector.isSome then t.start.pastSelector else t.start
  ⟨some s, start.underSelector (s = .asEmoji)⟩

/-- The columns that a character adds in front of a text, and what the text then begins with. -/
def precede (t : TextAhead) (c : Char) : Int × TextAhead :=
  match Selector.ofChar? c with
  | some s => (0, t.select s)
  | none =>
    match t.selector with
    | some .asEmoji =>
      if takesSelector c then
        let tied := t.start = .joined ∨ t.start = .joinedKeycap
        (if tied then 0 else 2, ⟨none, .emoji⟩)
      else
        let step := t.start.pastSelector.precede c
        (step.1, ⟨none, step.2⟩)
    | some .asText =>
      if isTextStyledEmoji c then (1, ⟨none, .plain⟩)
      else
        let step := t.start.pastSelector.precede c
        (step.1, ⟨none, step.2⟩)
    | none =>
      let step := t.start.precede c
      (step.1, ⟨none, step.2⟩)

end TextAhead

def widthFrom : List Char → Int × TextAhead
  | [] => (0, ⟨none, .plain⟩)
  | c :: cs =>
    let later := widthFrom cs
    let step := later.2.precede c
    (step.1 + later.1, step.2)

def displayWidth (s : String) : Nat := (widthFrom s.toList).1.toNat

end LinkageCheck.Text
