/-! Readers: they take characters off the front of a text and give a value, or fail. -/

namespace LinkageCheck.Text

abbrev Reader (α : Type) := StateT (List Char) Option α

namespace Reader

variable {α : Type}

def peek? : Reader (Option Char) := do return (← get).head?

def anyChar : Reader Char := fun
  | [] => none
  | c :: cs => some (c, cs)

def expect (c : Char) : Reader Unit := do guard ((← anyChar) == c)

def accept (s : String) : Reader Bool := do
  let cs ← get
  if s.toList.isPrefixOf cs then
    set (cs.drop s.length)
    return true
  else return false

def takeWhile (p : Char → Bool) : Reader (List Char) := do
  let cs ← get
  set (cs.dropWhile p)
  return cs.takeWhile p

def takeSome (p : Char → Bool) : Reader (List Char) := do
  let cs ← takeWhile p
  guard (!cs.isEmpty)
  return cs

def takeExactly (p : Char → Bool) : Nat → Reader (List Char)
  | 0 => return []
  | n + 1 => do
    let c ← anyChar
    guard (p c)
    return c :: (← takeExactly p n)

def run? (r : Reader α) (text : List Char) : Option α :=
  (r.run text).bind fun (a, rest) => if rest.isEmpty then some a else none

def charOfCode (code : Nat) : Reader Char := do
  guard code.isValidChar
  return Char.ofNat code

end Reader

def hexDigit? (c : Char) : Option Nat :=
  if c.isDigit then some (c.toNat - '0'.toNat)
  else if 'a' ≤ c ∧ c ≤ 'f' then some (c.toNat - 'a'.toNat + 10)
  else if 'A' ≤ c ∧ c ≤ 'F' then some (c.toNat - 'A'.toNat + 10)
  else none

def isHexDigit (c : Char) : Bool := (hexDigit? c).isSome

def numberInBase? (base : Nat) (ds : List Char) : Option Nat :=
  ds.foldlM (fun n c => do
    let d ← hexDigit? c
    guard (d < base)
    return n * base + d) 0

end LinkageCheck.Text
