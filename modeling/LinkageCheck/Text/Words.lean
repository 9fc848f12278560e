import LinkageCheck.Text.WordBreak

/-! Word boundaries: a text is cut into segments by looking at each position's neighbours. -/

namespace LinkageCheck.Text

/-- What stands before a position. `last` is the class just before it, `base` the class it counts as
once attached characters are passed over, `previous` the class before that one, and `oddRegional`
tells whether an odd number of regional indicators ends here. -/
structure WordContext where
  last : WordBreak
  base : WordBreak
  previous : WordBreak
  oddRegional : Bool
  deriving Repr

namespace WordContext

def start : WordContext := ⟨.newline, .newline, .newline, false⟩

def push (before : WordContext) (c : WordBreak) : WordContext :=
  if c.attaches && !before.last.isLineEnd then { before with last := c }
  else
    { last := c
      base := c
      previous := before.base
      oddRegional := c == .regional && !(before.base == .regional && before.oddRegional) }

def ahead (last : WordBreak) : List Char → WordBreak
  | [] => .other
  | c :: cs =>
    let kind := WordBreak.after last c
    if kind.attaches then ahead kind cs else kind

def joinsWord (before : WordContext) (c next : WordBreak) : Bool :=
  (before.base.isLetter && c.isLetter)
  || (before.base.isLetter && c.joinsLetters && next.continuesLetters)
  || (before.previous.isLetter && before.base.joinsLetters && c.isLetter)
  || (before.base == .hebrew && c == .singleQuote)
  || (before.base == .hebrew && c == .doubleQuote && next.continuesHebrew)
  || (before.previous == .hebrew && before.base == .doubleQuote && c == .hebrew)
  || (before.base == .numeric && (c == .numeric || c.isLetter))
  || (before.base.isLetter && c == .numeric)
  || (before.previous == .numeric && before.base.joinsDigits && c == .numeric)
  || (before.base == .numeric && c.joinsDigits && next.continuesDigits)
  || (before.base == .katakana && c == .katakana)
  || ((before.base.isConnected || before.base == .connector) && c == .connector)
  || (before.base == .connector && c.isConnected)
  || (before.base == .regional && c == .regional && before.oddRegional)

/-- Whether there is no word boundary between what stands before and the character `c`. -/
def joins (before : WordContext) (c : Char) (after : List Char) : Bool :=
  let kind := WordBreak.after before.last c
  if before.last == .carriageReturn && kind == .lineFeed then true
  else if before.last.isLineEnd || kind.isLineEnd then false
  else kind == .pictograph
    || (before.last == .space && kind == .space)
    || kind.attaches
    || before.joinsWord kind (ahead kind after)

/-- The rest of the segment that `before` stands in, and the segments after it. -/
def segments (before : WordContext) : List Char → List Char × List (List Char)
  | [] => ([], [])
  | c :: cs =>
    let later := segments (before.push (.after before.last c)) cs
    if before.joins c cs then (c :: later.1, later.2) else ([], (c :: later.1) :: later.2)

end WordContext

def wordSegments (cs : List Char) : List (List Char) :=
  (WordContext.start.segments cs).2

end LinkageCheck.Text
