import LinkageCheck.Decimal.Reader
import LinkageCheck.Text.Reader

/-! The words of RON text: blanks and comments, identifiers, strings, characters and numbers. -/

namespace LinkageCheck.Ron

open Text (Reader hexDigit? numberInBase?)
open Text.Reader

def isSpace (c : Char) : Bool := c == ' ' || c == '\t' || c == '\n' || c == '\r'

def skipBlockComment : Nat → List Char → Option (List Char)
  | 0, cs => some cs
  | _, [] => none
  | depth + 1, '/' :: '*' :: cs => skipBlockComment (depth + 2) cs
  | depth + 1, '*' :: '/' :: cs => skipBlockComment depth cs
  | depth + 1, _ :: cs => skipBlockComment (depth + 1) cs

def skipSpace : Nat → List Char → Option (List Char)
  | 0, cs => some cs
  | n + 1, cs =>
    match cs.dropWhile isSpace with
    | '/' :: '/' :: cs => skipSpace n (cs.dropWhile (· != '\n'))
    | '/' :: '*' :: cs => (skipBlockComment 1 cs).bind (skipSpace n)
    | '/' :: _ => none
    | cs => some cs

def space : Reader Unit := fun cs => (skipSpace (cs.length + 1) cs).map fun rest => ((), rest)

def comma : Reader Bool := do
  space
  let found ← accept ","
  if found then space
  return found

/-! ### Identifiers -/

def isIdentStart (c : Char) : Bool := c.isAlpha || c == '_'

def isIdentPart (c : Char) : Bool := c.isAlphanum || c == '_'

def isRawIdentPart (c : Char) : Bool := isIdentPart c || c == '.' || c == '+' || c == '-'

/-- A name, or a raw name after `r#`. A plain name that could go on as a raw one is an error. -/
def identifier : Reader String := do
  let cs ← get
  match cs with
  | 'r' :: '#' :: rest =>
    set rest
    return String.ofList (← takeSome isRawIdentPart)
  | ['r'] => failure
  | 'r' :: '"' :: _ => failure
  | c :: _ =>
    guard (isIdentStart c)
    let name ← takeWhile isIdentPart
    guard (!(← peek?).any isRawIdentPart)
    return String.ofList name
  | [] => failure

def startsWithWord (s : String) (cs : List Char) : Bool :=
  s.toList.isPrefixOf cs && !(cs.drop s.length).head?.any isIdentPart

def keyword (s : String) : Reader Bool := do
  let cs ← get
  if startsWithWord s cs then
    set (cs.drop s.length)
    return true
  else return false

def boolean : Reader Bool := do
  if ← accept "true" then return true
  else if ← accept "false" then return false
  else failure

/-! ### Characters and strings -/

def codeDigits : Nat → Reader (List Char)
  | 0 => return []
  | n + 1 => do
    if (← peek?) == some '\x7d' then return []
    let c ← anyChar
    return c :: (← codeDigits n)

def escape : Reader Char := do
  match ← anyChar with
  | '\'' => return '\''
  | '"' => return '"'
  | '\\' => return '\\'
  | 'n' => return '\n'
  | 'r' => return '\r'
  | 't' => return '\t'
  | '0' => return '\x00'
  | 'x' => charOfCode (← numberInBase? 16 (← takeExactly (fun _ => true) 2))
  | 'u' =>
    expect '\x7b'
    let ds ← codeDigits 6
    guard (!ds.isEmpty)
    let code ← numberInBase? 16 ds
    expect '\x7d'
    charOfCode code
  | _ => failure

/-- Reads up to the closing quote; `n` bounds the escapes. -/
def escapedRest : Nat → Reader (List Char)
  | 0 => failure
  | n + 1 => do
    let plain ← takeWhile fun c => c != '"' && c != '\\'
    match ← anyChar with
    | '"' => return plain
    | _ =>
      let c ← escape
      return plain ++ c :: (← escapedRest n)

def rawRest (ending : List Char) : List Char → Option (List Char × List Char)
  | [] => none
  | c :: cs =>
    if ending.isPrefixOf (c :: cs) then some ([], (c :: cs).drop ending.length)
    else (rawRest ending cs).map fun (text, rest) => (c :: text, rest)

def string : Reader String := do
  if ← accept "\"" then return String.ofList (← escapedRest ((← get).length + 1))
  else
    expect 'r'
    let hashes ← takeWhile (· == '#')
    expect '"'
    return String.ofList (← rawRest ('"' :: hashes))

def character : Reader Char := do
  expect '\''
  let c ← anyChar
  guard (c != '\'')
  let c ← if c == '\\' then escape else pure c
  expect '\''
  return c

/-! ### Numbers -/

def isIntegerPart (c : Char) : Bool := Text.isHexDigit c || c == '_'

def isFloatPart (c : Char) : Bool := c.isDigit || c ∈ ['e', 'E', '.', '+', '-']

def base : Reader Nat := do
  if ← accept "0x" then return 16
  else if ← accept "0o" then return 8
  else if ← accept "0b" then return 2
  else return 10

/-- Digits of a base, with underscores after the first one. -/
def natural : Reader Nat := do
  let base ← base
  let ds ← takeSome isIntegerPart
  guard (ds.head? != some '_')
  numberInBase? base (ds.filter (· != '_'))

def unsigned : Reader Nat := do
  let n ← natural
  guard (n < Nat.pow 2 64)
  return n

def sign : Reader Bool := do
  if ← accept "-" then return true
  discard (accept "+")
  return false

def signed (bits : Nat) : Reader Int := do
  let negative ← sign
  let i := Decimal.signed negative (← natural)
  guard (Decimal.fitsBits bits i)
  return i

def namedFloats : List (String × Decimal.Binary64) :=
  [("inf", .infinite false), ("+inf", .infinite false), ("-inf", .infinite true),
    ("NaN", .nan), ("+NaN", .nan), ("-NaN", .nan)]

def float : Reader Decimal.Binary64 := do
  for (name, x) in namedFloats do
    if ← keyword name then return x
  let text ← takeWhile isFloatPart
  guard ((← peek?) != some '_')
  Decimal.readBinary64? text

/-- Whether a number is written as a float: more of it belongs to one than to an integer. -/
def isFloatText (cs : List Char) : Bool :=
  let (_, digits) := Decimal.splitSign cs
  (digits.takeWhile isIntegerPart).length < (digits.takeWhile isFloatPart).length

/-- A number of any kind. What is no integer of 64 bits may still be a float. -/
def anyNumber : Reader Unit := do
  let cs ← get
  if isFloatText cs then discard float
  else if cs.head?.any (· ∈ ['+', '-']) then discard (signed 64) <|> discard float
  else discard unsigned <|> discard float

end LinkageCheck.Ron
