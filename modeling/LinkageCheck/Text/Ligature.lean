import LinkageCheck.Text.CharWidth

/-! Ligatures of letters: characters that take fewer columns together than each for itself. A
text is measured from its end, so the last character of a ligature is met first. -/

namespace LinkageCheck.Text

/-- Characters without a width over which letters do not join: Joining_Type is not Transparent. -/
def unjoinedRanges : List (Nat × Nat) := [
  (0x605, 0x605), (0x890, 0x891), (0x8e2, 0x8e2), (0x9be, 0x9be), (0x9d7, 0x9d7), (0xb3e, 0xb3e),
  (0xb57, 0xb57), (0xbbe, 0xbbe), (0xbd7, 0xbd7), (0xcc0, 0xcc0), (0xcc2, 0xcc2), (0xcc7, 0xcc8),
  (0xcca, 0xccb), (0xcd5, 0xcd6), (0xd3e, 0xd3e), (0xd4e, 0xd4e), (0xd57, 0xd57), (0xdcf, 0xdcf),
  (0xddf, 0xddf), (0x1160, 0x11ff), (0x180e, 0x180e), (0x1b35, 0x1b35), (0x1b3b, 0x1b3b),
  (0x1b3d, 0x1b3d), (0x1b43, 0x1b43), (0x200c, 0x200d), (0x2065, 0x2069), (0x302e, 0x302f),
  (0x3164, 0x3164), (0xa8fa, 0xa8fa), (0xd7b0, 0xd7c6), (0xd7cb, 0xd7fb), (0xff9e, 0xffa0),
  (0xfff0, 0xfff8), (0x111c2, 0x111c3), (0x1133e, 0x1133e), (0x11357, 0x11357), (0x114b0, 0x114b0),
  (0x114bd, 0x114bd), (0x115af, 0x115af), (0x11930, 0x11930), (0x1193f, 0x1193f),
  (0x11941, 0x11941), (0x11a3a, 0x11a3a), (0x11a84, 0x11a89), (0x11d46, 0x11d46),
  (0x11f02, 0x11f02), (0x1d165, 0x1d165), (0x1d16e, 0x1d172), (0xe0000, 0xe0000),
  (0xe0002, 0xe001f), (0xe0080, 0xe00ff), (0xe01f0, 0xe0fff)]

def isLam (c : Char) : Bool :=
  inRanges [(0x644, 0x644), (0x6b5, 0x6b8), (0x76a, 0x76a), (0x8a6, 0x8a6), (0x8c7, 0x8c7)] c

def isAlef (c : Char) : Bool :=
  inRanges [(0x622, 0x623), (0x625, 0x625), (0x627, 0x627), (0x671, 0x673), (0x675, 0x675),
    (0x773, 0x774), (0x870, 0x882)] c

def isTifinaghConsonant (c : Char) : Bool :=
  inRanges [(0x2d31, 0x2d65), (0x2d6f, 0x2d6f)] c

def isSubjoinedLetter (c : Char) : Bool :=
  inRanges [(0x1780, 0x1782), (0x1784, 0x1787), (0x1789, 0x178c), (0x178e, 0x1793),
    (0x1795, 0x1798), (0x179b, 0x179d), (0x17a0, 0x17a0), (0x17a2, 0x17a2), (0x17a7, 0x17a7),
    (0x17ab, 0x17ac), (0x17af, 0x17af)] c

def isIgnorableMark (c : Char) : Bool :=
  inRanges [(0x34f, 0x34f), (0x17b4, 0x17b5), (0x180b, 0x180d), (0x180f, 0x180f), (0xfe00, 0xfe0f),
    (0xe0100, 0xe01ef)] c

def isTransparentMark (c : Char) : Bool :=
  isZeroWidth c && !inRanges unjoinedRanges c

/-- The part of a ligature that has been met. -/
inductive LigatureEnd where
  | alef
  | lamed
  | ya
  | vowelYa
  | consonant
  | joinerConsonant
  | tone
  | turkicI
  | subjoined
  deriving DecidableEq, Repr

namespace LigatureEnd

def ofChar? (c : Char) : Option LigatureEnd :=
  if isAlef c then some alef
  else if c.toNat = 0x5dc then some lamed
  else if isSubjoinedLetter c then some subjoined
  else if c.toNat = 0x1a10 then some ya
  else if isTifinaghConsonant c then some consonant
  else if inRanges [(0xa4fc, 0xa4fd)] c then some tone
  else if c.toNat = 0x10c03 then some turkicI
  else none

def passes (e : LigatureEnd) (c : Char) : Bool :=
  if e = alef then isTransparentMark c else isIgnorableMark c

def admitsJoiner (e : LigatureEnd) : Bool := e ≠ alef

/-- What a character in front adds to the columns when it belongs to the ligature, and the end that
a further part would meet. Some ligatures need a zero width joiner. -/
def precede? (e : LigatureEnd) (joined : Bool) (c : Char) : Option (Int × Option LigatureEnd) :=
  match e with
  | alef => if isLam c then some (0, none) else none
  | lamed => if joined ∧ c.toNat = 0x5d0 then some (0, none) else none
  | ya => if joined ∧ c.toNat = 0x1a17 then some (0, some vowelYa) else none
  | vowelYa => if c.toNat = 0x1a15 then some (0, none) else none
  | consonant =>
    if c.toNat = 0x2d7f then some (1, some joinerConsonant)
    else if joined && isTifinaghConsonant c then some (0, none)
    else none
  | joinerConsonant => if isTifinaghConsonant c then some (-1, none) else none
  | tone => if inRanges [(0xa4f8, 0xa4fb)] c then some (0, none) else none
  | turkicI => if joined ∧ c.toNat = 0x10c32 then some (0, none) else none
  | subjoined => if c.toNat = 0x17d2 then some (-1, none) else none

end LigatureEnd

end LinkageCheck.Text
