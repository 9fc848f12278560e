import LinkageCheck.Decimal.Reader
import LinkageCheck.Text.Reader
import LinkageCheck.Toml.Value

/-! The words of TOML text: blanks, comments, keys, strings, numbers and dates. -/

namespace LinkageCheck.Toml

open Text (Reader)
open Text.Reader

def isSpace (c : Char) : Bool := c == ' ' || c == '\t'

def isPrintable (c : Char) : Bool := c == '\t' || (c.toNat ≥ 0x20 && c.toNat ≠ 0x7f)

def space : Reader Unit := discard (takeWhile isSpace)

def newline : Reader Unit := do
  if !(← accept "\r\n") then expect '\n'

def comment : Reader Unit := do
  if ← accept "#" then discard (takeWhile isPrintable)

def lineRest : Reader Unit := do
  space
  comment
  if !(← get).isEmpty then newline

def spaceLines : Nat → Reader Unit
  | 0 => return ()
  | n + 1 => do
    space
    comment
    if (← optional newline).isSome then spaceLines n

def anySpace : Reader Unit := do spaceLines ((← get).length + 1)

/-! ### Strings -/

def codeEscape (digits : Nat) : Reader Char := do
  charOfCode (← Text.numberInBase? 16 (← takeExactly Text.isHexDigit digits))

def escape : Reader Char := do
  match ← anyChar with
  | 'b' => return '\x08'
  | 't' => return '\t'
  | 'n' => return '\n'
  | 'f' => return '\x0c'
  | 'r' => return '\r'
  | '"' => return '"'
  | '\\' => return '\\'
  | 'u' => codeEscape 4
  | 'U' => codeEscape 8
  | _ => failure

def basicRest : Nat → Reader (List Char)
  | 0 => failure
  | n + 1 => do
    let plain ← takeWhile fun c => isPrintable c && c != '"' && c != '\\'
    match ← anyChar with
    | '"' => return plain
    | '\\' =>
      let c ← escape
      return plain ++ c :: (← basicRest n)
    | _ => failure

def literalRest : Reader (List Char) := do
  let plain ← takeWhile fun c => isPrintable c && c != '\''
  expect '\''
  return plain

/-- Three to five quotes end a string of several lines; those before the last three belong to it. -/
def closingQuotes (quote : Char) : Reader (Option (List Char)) := do
  let cs ← get
  let count := (cs.takeWhile (· == quote)).length
  if 3 ≤ count then
    let own := min (count - 3) 2
    set (cs.drop (own + 3))
    return some (List.replicate own quote)
  else return none

def blankLines : Nat → Reader Unit
  | 0 => return ()
  | n + 1 => do
    space
    if (← optional newline).isSome then blankLines n

def lineContinuation : Reader Unit := do
  space
  newline
  blankLines ((← get).length + 1)

def multilineRest (quote : Char) (escapes : Bool) : Nat → Reader (List Char)
  | 0 => failure
  | n + 1 => do
    match ← closingQuotes quote with
    | some own => return own
    | none =>
      let c ← anyChar
      if c == '\r' then
        expect '\n'
        return '\n' :: (← multilineRest quote escapes n)
      else if c == '\\' && escapes then
        if (← optional lineContinuation).isSome then multilineRest quote escapes n
        else
          let c ← escape
          return c :: (← multilineRest quote escapes n)
      else
        guard (isPrintable c || c == '\n')
        return c :: (← multilineRest quote escapes n)

def multiline (quote : Char) (escapes : Bool) : Reader (List Char) := do
  discard (optional newline)
  multilineRest quote escapes ((← get).length + 1)

def shortString? : Reader (Option (List Char)) := do
  if ← accept "\"" then return some (← basicRest ((← get).length + 1))
  else if ← accept "'" then return some (← literalRest)
  else return none

def string : Reader String := do
  if ← accept "\"\"\"" then return String.ofList (← multiline '"' true)
  else if ← accept "'''" then return String.ofList (← multiline '\'' false)
  else return String.ofList (← (← shortString?))

/-! ### Keys -/

def isBareKeyPart (c : Char) : Bool := c.isAlphanum || c == '-' || c == '_'

def simpleKey : Reader String := do
  match ← shortString? with
  | some s => return String.ofList s
  | none => return String.ofList (← takeSome isBareKeyPart)

def key : Nat → Reader (List String)
  | 0 => failure
  | n + 1 => do
    space
    let part ← simpleKey
    space
    if ← accept "." then return part :: (← key n) else return [part]

def dottedKey : Reader (List String × String) := do
  let parts ← key 79
  return (parts.dropLast, ← parts.getLast?)

/-! ### Numbers -/

def digitGroups (p : Char → Bool) : Nat → Reader (List Char)
  | 0 => failure
  | n + 1 => do
    let ds ← takeSome p
    if ← accept "_" then return ds ++ (← digitGroups p n) else return ds

def digits (p : Char → Bool) : Reader (List Char) := do digitGroups p ((← get).length + 1)

def sign : Reader (List Char) := do
  if ← accept "+" then return ['+']
  else if ← accept "-" then return ['-']
  else return []

def decimal : Reader (List Char) := do
  let sign ← sign
  if ← accept "0" then return sign ++ ['0']
  else return sign ++ (← digits Char.isDigit)

def int64 (i : Int) : Reader Value := do
  guard (Decimal.fitsBits 64 i)
  return .integer i

def integer : Reader Value := do
  let inBase (base : Nat) : Reader Value := do
    let ds ← digits Text.isHexDigit
    int64 (← Text.numberInBase? base ds)
  if ← accept "0x" then inBase 16
  else if ← accept "0o" then inBase 8
  else if ← accept "0b" then inBase 2
  else int64 (← Decimal.readInt? (← decimal))

def exponent : Reader (List Char) := do
  guard ((← anyChar) ∈ ['e', 'E'])
  return 'e' :: (← sign) ++ (← digits Char.isDigit)

def fraction : Reader (List Char) := do
  expect '.'
  return '.' :: (← digits Char.isDigit)

/-- A decimal integer with a fraction, an exponent or both. A number too large for the format is
an error unless it is negative. -/
def finiteFloat : Reader Value := do
  let whole ← decimal
  let fraction ← optional fraction
  let exponent ← optional exponent
  guard (fraction.isSome || exponent.isSome)
  let x ← Decimal.readBinary64? (whole ++ fraction.getD [] ++ exponent.getD [])
  guard (x ≠ .infinite false)
  return .float x

def specialFloat : Reader Value := do
  let sign ← sign
  if ← accept "inf" then return .float (.infinite (sign == ['-']))
  else if ← accept "nan" then return .float .nan
  else failure

/-! ### Dates -/

def fixedNumber (digits low high : Nat) : Reader Nat := do
  let n := Decimal.digitsValue (← takeExactly Char.isDigit digits)
  guard (low ≤ n && n ≤ high)
  return n

def daysInMonth (year month : Nat) : Nat :=
  if month = 2 then
    if year % 4 = 0 ∧ (year % 100 ≠ 0 ∨ year % 400 = 0) then 29 else 28
  else if month ∈ [4, 6, 9, 11] then 30
  else 31

def date : Reader Unit := do
  let year ← fixedNumber 4 0 9999
  expect '-'
  let month ← fixedNumber 2 1 12
  expect '-'
  discard (fixedNumber 2 1 (daysInMonth year month))

def time : Reader Unit := do
  discard (fixedNumber 2 0 23)
  expect ':'
  discard (fixedNumber 2 0 59)
  expect ':'
  discard (fixedNumber 2 0 60)
  discard (optional do
    expect '.'
    takeSome Char.isDigit)

def offset : Reader Unit := do
  match ← anyChar with
  | 'Z' | 'z' => return ()
  | '+' | '-' =>
    discard (fixedNumber 2 0 23)
    expect ':'
    discard (fixedNumber 2 0 59)
  | _ => failure

def datetime : Reader Value := do
  if (← optional date).isSome then
    discard (optional do
      guard ((← anyChar) ∈ ['T', 't', ' '])
      time
      optional offset)
  else time
  return .datetime

def isDatetimeText (s : String) : Bool := (datetime.run? s.toList).isSome

/-- Any number or date; what is left over of a longer word is an error where the value should
end. -/
def number : Reader Value := datetime <|> finiteFloat <|> specialFloat <|> integer

end LinkageCheck.Toml
