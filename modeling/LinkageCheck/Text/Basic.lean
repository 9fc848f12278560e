/-! Sets of characters, trimming by the blank ones, and cutting a text into lines. -/

namespace LinkageCheck.Text

def inRanges (ranges : List (Nat × Nat)) (c : Char) : Bool :=
  ranges.any fun r => r.1 ≤ c.toNat && c.toNat ≤ r.2

/-! ### Blanks -/

/-- The property White_Space. -/
def isBlank (c : Char) : Bool :=
  inRanges [(0x9, 0xd), (0x20, 0x20), (0x85, 0x85), (0xa0, 0xa0), (0x1680, 0x1680),
    (0x2000, 0x200a), (0x2028, 0x2029), (0x202f, 0x202f), (0x205f, 0x205f), (0x3000, 0x3000)] c

def dropTail {α : Type} (p : α → Bool) (as : List α) : List α := (as.reverse.dropWhile p).reverse

def trimStart (cs : List Char) : List Char := cs.dropWhile isBlank

def trimEnd (cs : List Char) : List Char := dropTail isBlank cs

def trim (cs : List Char) : List Char := trimEnd (trimStart cs)

def trimmedEnd (s : String) : String := String.ofList (trimEnd s.toList)

/-! ### Lines -/

/-- The pieces of a list, each ending at the first element that satisfies `p`; only the last
piece may lack such an end, and no piece is empty. -/
def cutAfter {α : Type} (p : α → Bool) : List α → List (List α)
  | [] => []
  | a :: as =>
    if p a then [a] :: cutAfter p as
    else
      match cutAfter p as with
      | [] => [[a]]
      | piece :: pieces => (a :: piece) :: pieces

/-- A line without its end: a line feed, and one carriage return before that line feed. -/
def dropLineEnd : List Char → List Char
  | [] => []
  | ['\n'] => []
  | ['\r', '\n'] => []
  | c :: cs => c :: dropLineEnd cs

def lines (cs : List Char) : List (List Char) :=
  (cutAfter (· == '\n') cs).map dropLineEnd

end LinkageCheck.Text
